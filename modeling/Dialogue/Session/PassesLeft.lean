import Dialogue.Session.TurnSteps
/-!
# How long a turn can go on

A pass that does not end the turn takes tokens from the queue or uses up a sample to come: what is
drawn when no sample is left ends the generation, and that ends the turn. So both together bound the
passes of a turn.
-/

namespace Dialogue

open Effect

namespace TurnState

variable {c : Config} {v u : TurnState}

/-- How many samples and queued tokens a turn can use up. -/
def supply (v : TurnState) : Nat := v.script.length + v.unread.length

/-- A step that is filled takes tokens from the queue or a sample to come, unless the draws are used
up, the user has the turn, or the generation has ended. -/
theorem Filled.supply_lt (h : Filled c v (.ok ()) u) (hs : u.spent c = false)
    (hu : u.userTurn = false) (hend : u.drained = true → (u.handback c).endOfSequence = false) :
    u.supply < v.supply := by
  cases h with
  | spent _ _ hspent => exact absurd hspent (Bool.eq_false_iff.mp hs)
  | drawn hq _ _ _ guided =>
    cases hscript : v.script with
    | nil =>
      have hlast := hend hq
      simp [handback, Handback.decide, draw, next, remembered, hscript] at hlast
    | cons a l => simp [supply, draw, ask, unread, hscript]
  | taken h =>
    have hq : v.drained = false := by
      rcases h with h | h
      · exact h
      · exact absurd (h : v.userTurn = true) (Bool.eq_false_iff.mp hu)
    simp only [drained, decide_eq_false_iff_not] at hq
    simp only [supply, take, unread, List.length_drop, List.length_take]
    omega

/-- A pass that does not end the turn uses up some of the samples and the queued tokens. -/
theorem Passed.supply_lt (h : Passed c v (.ok none) u) : u.supply < v.supply := by
  cases h with
  | ended hr => exact absurd rfl hr
  | stepped hf hc =>
    obtain ⟨rfl, hs, hu, hback⟩ := hc.goes_on
    apply hf.supply_lt hs hu
    intro hq
    obtain ⟨hterm, huser⟩ := hback hq
    exact Handback.goes_on huser hterm

end TurnState

namespace Session

/-- How many passes a turn can have yet, the one that ends it apart. -/
def passesLeft (s : Session) : Nat := s.engine.script.length + s.progress.unread.length

/-- A pass that does not end the turn leaves fewer passes for the turn. -/
theorem pass_eq_none {s t : Session} (h : pass s = .ok none t) : t.passesLeft < s.passesLeft :=
  ((ends_pass_turnState s).of_ok h).2.supply_lt

end Session

end Dialogue
