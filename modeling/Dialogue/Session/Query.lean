import Dialogue.Session.Basic
import Dialogue.Text.Escape
/-!
# The user's turns

What the user says is queued behind the text put before every turn and in front of the one put after
it. A turn of no more than one byte only hands control back.
-/

namespace Dialogue.Session

open Effect

/-- Queues tokens. -/
def queueTokens (tokens : List Token) : SessionM Unit :=
  advance fun p => { p with queue := p.queue ++ tokens }

/-- Records queued tokens, from some place on, as said by the user.
Part of `TurnController.push_user_input`. -/
def recordQueued (start : Nat) : SessionM Unit := modify fun s =>
  { s with
    transcript := (s.progress.queue.drop start).foldl Transcript.recordOutput s.transcript }

/-- Queues what puts instructions in front of the user's turn, unless a reverse prompt did so. What
was queued before and not moved into a step is passed over.
Part of `TurnController.push_user_input`. -/
def queueInstructLead : SessionM Unit := do
  let s ← get
  onlyIf (s.config.instruct && !s.progress.atAntiprompt) do
    advance fun p => { p with queueRead := p.queue.length }
    queueTokens s.instructLead

/-- The user's text as it is queued. Part of `TurnController.push_user_input`. -/
def userText (s : Session) (text : String) : String :=
  if s.config.escapes then Text.Escape.process text else text

/-- Queues what the user said. Follows `TurnController.push_user_input`. -/
def queueInput (text : String) : SessionM Unit := do
  let s ← get
  write s.config.inputTail
  let start := s.progress.queue.length
  queueInstructLead
  let lead ← call (Engine.tokenize s.config.inputLead false true)
  let input ← call (Engine.tokenize (s.userText text) false false)
  let tail ← call (Engine.tokenize s.config.inputTail false true)
  queueTokens (lead ++ input ++ tail)
  onlyIf s.config.instruct (queueTokens s.instructTail)
  recordQueued start
  advance fun p => { p with remaining := p.remaining - input.length }
  report (.inputQueued input.length (← get).progress.remaining)

/-- Queues the token that opens a sequence. Part of `TurnController.query`. -/
def queueBos : SessionM Unit := do
  report .bosQueued
  queueTokens [Token.bos]

/-- Takes the user's turn. Follows `TurnController.query`. -/
def query (text : String) : SessionM Unit := do
  let config := (← get).config
  onlyIf config.instruct (write "\n> ")
  onlyIf config.inputBos queueBos
  write config.inputLead
  if 1 < text.utf8ByteSize then queueInput text else report .inputEmpty
  advance ({ · with echo := false })
  call Engine.resetSampler
  advance fun p => { p.forget with userTurn := false }
  enter .processingQueue

end Dialogue.Session
