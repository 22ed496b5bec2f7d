/-!
# Handing control back

What follows a step, from a reverse prompt found and a generation ended, in each mode of the
session.
-/

namespace Dialogue

/-- What a session does after a step. Follows `StopDecision`. -/
structure Handback where
  /-- The last accepted token ended the generation. -/
  endOfSequence : Bool
  /-- A reverse prompt stands at the end of the text, or is about to be queued. -/
  atAntiprompt : Bool
  /-- Control goes to the user. -/
  toUser : Bool
  /-- The first reverse prompt is queued, so that the text shows whose turn it is. -/
  injects : Bool
  /-- The session is over. -/
  terminates : Bool
deriving DecidableEq, Repr

/-- A reverse prompt hands over in interactive mode. The end of a generation hands over in
interactive and in instruct mode, with a reverse prompt queued if the mode is interactive and there
is one, and ends any other session. Follows `decide`. -/
def Handback.decide (hit endOfSequence interactive instruct hasAntiprompts : Bool) : Handback where
  endOfSequence := endOfSequence
  atAntiprompt := hit || (endOfSequence && interactive && hasAntiprompts)
  toUser := (hit && interactive) || (endOfSequence && (interactive || instruct))
  injects := endOfSequence && interactive && hasAntiprompts
  terminates := endOfSequence && !interactive && !instruct

/-- A session that goes on without the user has not come to the end of a generation. -/
theorem Handback.goes_on {hit endOfSequence interactive instruct hasAntiprompts : Bool}
    (hu : (decide hit endOfSequence interactive instruct hasAntiprompts).toUser = false)
    (ht : (decide hit endOfSequence interactive instruct hasAntiprompts).terminates = false) :
    endOfSequence = false := by
  cases endOfSequence
  · rfl
  · cases interactive <;> cases instruct <;> simp [decide] at hu ht

end Dialogue
