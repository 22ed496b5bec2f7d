import Dialogue.Config.Arguments
import Dialogue.Config.Document
import Dialogue.Effect.InStep
import Dialogue.Effect.Respects
import Dialogue.Main
import Dialogue.Proofs.Accounts
import Dialogue.Proofs.Arriving
import Dialogue.Proofs.BareSessions
import Dialogue.Proofs.BatchSizes
import Dialogue.Proofs.Budget
import Dialogue.Proofs.CellTokens
import Dialogue.Proofs.Coherence
import Dialogue.Proofs.CommittedPrefix
import Dialogue.Proofs.Comparing
import Dialogue.Proofs.Decoded
import Dialogue.Proofs.Dropped
import Dialogue.Proofs.Escapes
import Dialogue.Proofs.Evaluating
import Dialogue.Proofs.EvictedBlock
import Dialogue.Proofs.Evicting
import Dialogue.Proofs.FailedQueries
import Dialogue.Proofs.Feeding
import Dialogue.Proofs.FileCodec
import Dialogue.Proofs.ForgottenPast
import Dialogue.Proofs.FullContext
import Dialogue.Proofs.GivenUpSteps
import Dialogue.Proofs.GuidanceBeginning
import Dialogue.Proofs.GuidanceContent
import Dialogue.Proofs.GuidanceContext
import Dialogue.Proofs.GuidanceFailures
import Dialogue.Proofs.GuidanceSteps
import Dialogue.Proofs.GuidanceWindow
import Dialogue.Proofs.HandingOver
import Dialogue.Proofs.Querying
import Dialogue.Proofs.QueryTurnState
import Dialogue.Proofs.History
import Dialogue.Proofs.InstructTurns
import Dialogue.Proofs.KeptStops
import Dialogue.Proofs.LoadedFiles
import Dialogue.Proofs.MainContext
import Dialogue.Proofs.MakingRoom
import Dialogue.Proofs.Notices
import Dialogue.Proofs.Passing
import Dialogue.Proofs.Pinned
import Dialogue.Proofs.PinnedPrefix
import Dialogue.Proofs.QueuedTokens
import Dialogue.Proofs.Queuing
import Dialogue.Proofs.QuotedArguments
import Dialogue.Proofs.RejectedFile
import Dialogue.Proofs.Requests
import Dialogue.Proofs.Residents
import Dialogue.Proofs.Resolution
import Dialogue.Proofs.Resuming
import Dialogue.Proofs.Retrying
import Dialogue.Proofs.Saving
import Dialogue.Proofs.SessionLog
import Dialogue.Proofs.SkippedTokens
import Dialogue.Proofs.Starting
import Dialogue.Proofs.Swapping
import Dialogue.Proofs.Taking
import Dialogue.Proofs.Tally
import Dialogue.Proofs.Throughout
import Dialogue.Proofs.TranscriptContents
import Dialogue.Proofs.TemplateSteps
import Dialogue.Proofs.Trusted
import Dialogue.Proofs.TurnLength
import Dialogue.Proofs.Turns
import Dialogue.Proofs.TypedTurns
import Dialogue.Proofs.Unmoved
import Dialogue.Proofs.UnseenSaves
import Dialogue.Proofs.WarmStart
import Dialogue.Proofs.WindowBound
import Dialogue.Proofs.WrittenFiles
import Dialogue.Session.Run
import Dialogue.Session.Start
