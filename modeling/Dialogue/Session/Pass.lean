import Dialogue.Antiprompt
import Dialogue.Handback
import Dialogue.Session.Evaluate
/-!
# One pass of a turn

A turn is a sequence of passes. A pass evaluates the pending tokens, takes the next ones from the
queue or draws one, shows them, and sees whether control goes to the user.
-/

namespace Dialogue.Session

open Effect

/-- Tells the engine of a token, and remembers it. -/
def accept (token : Token) (sampled : Bool) : SessionM Unit := do
  call (Engine.accept token sampled)
  advance (·.remember token)

/-- Writes the session file before the first draw, if it is to be written.
Part of `TurnController.sample_next`. -/
def savePrompt : SessionM Unit := do
  let s ← get
  onlyIf (s.progress.savePending && s.cache.isWritable) do
    advance ({ · with savePending := false })
    discard (onBench id (Cache.saveOrDisable s.progress.logged))
    report (.cacheSaved s.progress.logged.length)

/-- Draws the next token. Follows `TurnController.sample_next`. -/
def drawNext : SessionM Unit := do
  savePrompt
  let s ← get
  let guided := s.guidance.isSome && s.progress.guidanceReady
  let token ← call (Engine.sample guided)
  accept token true
  report (.sampled token guided s.progress.remaining)
  advance fun p =>
    { p with pending := p.pending ++ [token], echo := true, remaining := p.remaining - 1 }

/-- Moves one queued token into the next step. Part of `TurnController.drain_queue`. -/
def takeQueued (token : Token) : SessionM Unit := do
  accept token false
  advance fun p => { p with pending := p.pending ++ [token], queueRead := p.queueRead + 1 }

/-- Moves the next batch of queued tokens into the next step.
Follows `TurnController.drain_queue`. -/
def drainQueue : SessionM Unit := do
  let s ← get
  report (.drainingQueue s.progress.queue.length s.progress.queueRead)
  (s.progress.unread.take (max s.config.batchSize 1)).forM takeQueued

/-- Whether the draws of the turn are bounded and used up. Part of `TurnController.answer`. -/
def budgetSpent (s : Session) : Bool := s.config.hasFiniteBudget && s.progress.remaining ≤ 0

/-- Fills the next step, from the queue or with a draw. Part of `TurnController.answer`. -/
def refill : SessionM Unit := do
  let s ← get
  if s.progress.queueDrained && !s.progress.userTurn then
    enter .sampling
    if s.budgetSpent then report .budgetSpent else drawNext
  else
    enter .processingQueue
    drainQueue

/-- Shows a token and records it. Part of `TurnController.display`. -/
def showToken (several : Bool) (token : Token) : SessionM Unit := do
  write token.text
  modify fun s =>
    { s with
      transcript :=
        if several then s.transcript.recordInput token else s.transcript.recordOutput token }

/-- Shows the next step, if it is to be shown. Follows `TurnController.display`. -/
def display : SessionM Unit := do
  let s ← get
  onlyIf s.progress.echo do
    enter .displaying
    s.progress.pending.forM (showToken (1 < s.progress.pending.length))

/-- The reverse prompt at the end of what was accepted last. Part of `TurnController.check_stop`. -/
def antiprompt? (s : Session) : Option String :=
  Antiprompt.find? (Token.render (s.progress.lastTokens Antiprompt.recentTokens))
    s.config.antiprompts s.config.interactive

/-- Whether the token accepted last ends the generation. Part of `TurnController.check_stop`. -/
def atEndOfSequence (s : Session) : Bool := s.progress.lastAccepted = some Token.eos

/-- What follows the step. Part of `TurnController.check_stop`. -/
def handback (s : Session) : Handback :=
  Handback.decide s.antiprompt?.isSome s.atEndOfSequence s.config.interactive s.config.instruct
    (s.config.antiprompts ≠ [])

/-- Queues the first reverse prompt. Part of `TurnController.check_stop`. -/
def queueAntiprompt : SessionM Unit := do
  match (← get).config.antiprompts with
  | [] => return ()
  | first :: _ =>
    let tokens ← call (Engine.tokenize first false true)
    advance fun p => { p with queue := p.queue ++ tokens }

/-- Reports the reverse prompt at the end of what was accepted last.
Part of `TurnController.check_stop`. -/
def reportAntiprompt : SessionM Unit := do
  match (← get).antiprompt? with
  | none => return ()
  | some antiprompt => report (.antipromptFound antiprompt)

/-- Hands control to the user if that follows the step. Follows `TurnController.check_stop`. -/
def handOver : SessionM Handback := do
  reportAntiprompt
  let handback := (← get).handback
  onlyIf handback.injects queueAntiprompt
  onlyIf (handback.endOfSequence && handback.toUser) do
    report .endOfSequenceFound
    write "\n"
  advance fun p =>
    { p with atAntiprompt := handback.atAntiprompt, userTurn := p.userTurn || handback.toUser }
  return handback

/-- Ends the turn. Follows `TurnController.finish_turn`. -/
def finish (phase : Phase) (reason : StopReason) : SessionM Outcome := do
  enter phase
  report (.turnFinished ⟨phase, reason⟩ (← get).progress.past)
  return ⟨phase, reason⟩

/-- Renews the draws of the next turn. Part of `TurnController.answer`. -/
def renewBudget : SessionM Unit := do
  let s ← get
  advance ({ · with remaining := s.config.predict, userTurn := true })

/-- Ends the turn if control is with the user. Part of `TurnController.answer`. -/
def finishIfUserTurn (reason : StopReason) : SessionM (Option Outcome) := do
  if (← get).progress.userTurn then return some (← finish .awaitingUser reason) else return none

/-- Why a turn ends that hands control to the user. Part of `TurnController.answer`. -/
def reasonOf (spent : Bool) (h : Handback) : StopReason :=
  if h.endOfSequence then .endOfSequence
  else if h.toUser then .antiprompt
  else if spent then .budgetExhausted
  else .userTurn

/-- Ends the turn after a step that emptied the queue, if it ends.
Part of `TurnController.answer`. -/
def concludeDrained (spent : Bool) : SessionM (Option Outcome) := do
  let handback ← handOver
  if handback.terminates then
    report .endOfText
    return some (← finish .terminated .endOfSequence)
  else finishIfUserTurn (reasonOf spent handback)

/-- Ends the turn if the draws are used up or control goes to the user.
Part of `TurnController.answer`. -/
def conclude : SessionM (Option Outcome) := do
  let s ← get
  let spent := s.budgetSpent
  onlyIf spent renewBudget
  if spent && !s.config.interactive then return some (← finish .terminated .budgetExhausted)
  else if s.progress.queueDrained then concludeDrained spent
  else finishIfUserTurn (if spent then .budgetExhausted else .userTurn)

/-- Evaluates the pending tokens, if there are any. Part of `TurnController.answer`. -/
def evaluatePending : SessionM (Option StopReason) := do
  if (← get).progress.pending = [] then return none else evaluate

/-- Takes the next step and shows it, and ends the turn if it is over.
Part of `TurnController.answer`. -/
def takeStep : SessionM (Option Outcome) := do
  clearPending
  refill
  display
  conclude

/-- One pass of a turn; how the turn ends, if it does. Part of `TurnController.answer`. -/
def pass : SessionM (Option Outcome) := do
  match ← evaluatePending with
  | some reason => return some (← finish .terminated reason)
  | none => takeStep

end Dialogue.Session
