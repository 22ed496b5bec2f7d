import Dialogue.Session.PassesLeft
/-!
# Taking a turn

A turn goes on for as many passes as it takes to end it.
-/

namespace Dialogue.Session

/-- Takes a turn: passes until one ends it. Follows `TurnController.answer`. -/
def answer (s : Session) : EStateM.Result SessionError Session Outcome :=
  match _h : pass s with
  | .error error t => .error error t
  | .ok (some outcome) t => .ok outcome t
  | .ok none t => answer t
termination_by s.passesLeft
decreasing_by exact pass_eq_none _h

/-- An answer is a pass, and what follows if the turn goes on. -/
theorem answer_eq (s : Session) : answer s =
    match pass s with
    | .error e t => .error e t
    | .ok (some outcome) t => .ok outcome t
    | .ok none t => answer t := by
  rw [answer]
  split <;> simp [*]

end Dialogue.Session
