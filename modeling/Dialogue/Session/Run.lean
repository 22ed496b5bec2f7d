import Dialogue.Session.Query
import Dialogue.Session.Answer
/-!
# Running a session

The session and the user take turns until the session is over or the user's input ends. When it is
closed the session writes what it was asked to keep.
-/

namespace Dialogue.Session

/-- Takes turns with a user whose turns are given. A turn that is not valid text ends the run with a
failure. Part of `TurnController.run`. -/
def takeTurns (turns : List (Option String)) : SessionM Unit := do
  let outcome ← answer
  if outcome.phase = .terminated then return ()
  else
    match turns with
    | [] => report .endOfInput
    | none :: _ => throw (.io .invalidText)
    | some text :: rest =>
      query text
      takeTurns rest

/-- Takes turns with a user whose input is a byte stream. Follows `TurnController.run`. -/
def run (input : List UInt8) : SessionM Unit := do
  takeTurns (Text.turns (← get).config.multiline input)

/-- Writes the transcript, if there is a file for it. Part of `TurnController.shutdown`. -/
def writeTranscript : SessionM Unit := do
  let s ← get
  match s.config.transcriptPath with
  | none => return ()
  | some path =>
    match s.transcript.write path s.directory with
    | .ok directory => modify ({ · with directory })
    | .error (.unopened fault) => throw (.io fault)
    | .error .unwritten => throw .transcript

/-- Writes the session file with all that was logged, if it is to be written at the end.
Part of `TurnController.shutdown`. -/
def saveAll : SessionM Unit := do
  let s ← get
  Effect.onlyIf (s.config.cacheAll && s.cache.isWritable) do
    report (.finalSave s.progress.logged.length)
    discard (onBench id (Cache.saveOrDisable s.progress.logged))

/-- Closes the session, once. Follows `TurnController.shutdown`. -/
def shutdown : SessionM Unit := do
  let closed := (← get).closed
  Effect.onlyIf (!closed) do
    modify ({ · with closed := true })
    saveAll
    writeTranscript

/-- Closes the session when nobody is there to learn of a failure, which is reported instead.
Follows `TurnController.drop`. -/
def drop (s : Session) : Session :=
  match shutdown s with
  | .ok () t => t
  | .error error t => { t with journal := t.journal.push (.closeFailed error.message) }

end Dialogue.Session
