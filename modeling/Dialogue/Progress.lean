import Dialogue.Token
/-!
# Progress

The token lists, counters and flags that the parts of a session share. The queue holds all that is
to be evaluated, the pending tokens are the next step, and the logged tokens are what the session
file is to hold. Each context counts the tokens that are resident in it.
-/

namespace Dialogue

/-- How far a session has come. Follows `SessionState`. -/
structure Progress where
  /-- The tokens of the next step (`embd`). -/
  pending : List Token := []
  /-- All tokens queued so far, by the prompt and by the user (`embd_inp`). -/
  queue : List Token := []
  /-- How many of the queued tokens were moved into a step (`n_consumed`). -/
  queueRead : Nat := 0
  /-- The tokens fed last in place of the prompt to the guidance context (`embd_guidance`). -/
  guidanceInput : List Token := []
  /-- The tokens the session file is to hold (`session_tokens`). -/
  logged : List Token := []
  /-- How many of the logged tokens are known to be resident (`n_session_consumed`). -/
  loggedRead : Nat := 0
  /-- How many tokens are resident in the main context (`n_past`). -/
  past : Int := 0
  /-- How many tokens are resident in the guidance context (`n_past_guidance`). -/
  guidancePast : Int := 0
  /-- How many draws are left in the turn (`n_remain`). -/
  remaining : Int
  /-- Whether control is with the user (`is_interacting`). -/
  userTurn : Bool := false
  /-- Whether a reverse prompt was said last (`is_antiprompt`). -/
  atAntiprompt : Bool := false
  /-- Whether the next step is shown (`input_echo`). -/
  echo : Bool := true
  /-- Whether the session file is to be written before the next draw (`need_to_save_session`). -/
  savePending : Bool := false
  /-- Whether guidance is ready for the next draw (`guidance_ready`). -/
  guidanceReady : Bool := false
  /-- The tokens accepted last, oldest first (`recent`). -/
  recent : List Token := []
deriving DecidableEq, Repr, Inhabited

namespace Progress

/-- How many accepted tokens are remembered. -/
def recentCapacity : Nat := 64

/-- How many tokens are resident in a context. -/
def pastOn (p : Progress) : Stream → Int
  | .main => p.past
  | .guidance => p.guidancePast

/-- Sets how many tokens are resident in a context. -/
def setPast (p : Progress) (stream : Stream) (n : Int) : Progress :=
  match stream with
  | .main => { p with past := n }
  | .guidance => { p with guidancePast := n }

/-- Counts tokens that became resident without being decoded. Follows `DecodeStream.advance`. -/
def advance (p : Progress) (stream : Stream) (n : Int) : Progress :=
  p.setPast stream (p.pastOn stream + n)

/-- Counts tokens that were evicted. Follows `DecodeStream.rewind`. -/
def rewind (p : Progress) (stream : Stream) (n : Int) : Progress :=
  p.setPast stream (p.pastOn stream - n)

/-- Whether the whole queue was moved into steps. Follows `SessionState.queue_drained`. -/
def queueDrained (p : Progress) : Bool := p.queue.length ≤ p.queueRead

/-- The queued tokens that are still to be moved into a step. -/
def unread (p : Progress) : List Token := p.queue.drop p.queueRead

/-- The queue is read just if nothing of it is left. -/
theorem queueDrained_iff {p : Progress} : p.queueDrained = true ↔ p.unread = [] := by
  rw [queueDrained, decide_eq_true_eq, unread, List.drop_eq_nil_iff]

/-- Remembers an accepted token, and forgets the oldest if there are too many.
Follows `SessionState.record_accepted`. -/
def remember (p : Progress) (t : Token) : Progress :=
  { p with
    recent := (if p.recent.length = recentCapacity then p.recent.tail else p.recent) ++ [t] }

/-- The last `n` accepted tokens, oldest first. Follows `SessionState.recent`. -/
def lastTokens (p : Progress) (n : Nat) : List Token := p.recent.drop (p.recent.length - n)

/-- The token accepted last. Follows `SessionState.last_accepted`. -/
def lastAccepted (p : Progress) : Option Token := p.recent.getLast?

/-- Forgets the accepted tokens. Follows `SessionState.clear_recent`. -/
def forget (p : Progress) : Progress := { p with recent := [] }

end Progress

end Dialogue
