import Dialogue.Proofs.Querying
import Dialogue.Proofs.Requests
/-!
# Throughout a dialogue

What holds of the main context throughout: what is settled stays as it is, and a property of the
main context that passes, queries and new beginnings preserve holds whenever a pass begins and
after every request.
-/

namespace Dialogue

open Effect

namespace Session

/-- The calls that concern the main context since an earlier state of the session. -/
def mainCallsSince (s t : Session) : List Call := t.engine.mainCalls.drop s.engine.mainCalls.length

/-- The calls on the main context that were added are those since then. -/
theorem mainCallsSince_of_eq_append {s t : Session} {calls : List Call}
    (h : t.mainContext.calls = s.mainContext.calls ++ calls) : s.mainCallsSince t = calls := by
  change t.engine.mainCalls = s.engine.mainCalls ++ calls at h
  rw [mainCallsSince, h, List.drop_left]

/-- What is settled stays as it is. -/
theorem invariant_settled (s₀ : Session) :
    Invariant (fun _ _ => True) fun s => s.settled = s₀.settled where
  showing _ _ h := h
  pass s h := ((ends_pass s).mono fun _ _ h => h.1).left.trans h
  query s text room h _ :=
    ((ends_query text (s.showing room)).mono fun _ _ h => h.1).left.trans h
  reset _ h _ := h

/-- What is preserved of the main context is preserved with what is settled. -/
theorem invariant_of_mainContext {allowed : Session → Request → Prop} {P : MainContext → Prop}
    (s₀ : Session)
    (hpass : ∀ v u, P v → Passed s₀.window s₀.offset s₀.config.batchSize v u → P u)
    (hquery : ∀ s text room u, s.settled = s₀.settled → P s.mainContext →
      allowed s (.query text room) → Queried (s.passesOver text) s.mainContext u → P u)
    (hreset : ∀ s, s.settled = s₀.settled → P s.mainContext → allowed s .reset →
      P s.mainContext.restarted) :
    Invariant allowed fun s => s.settled = s₀.settled ∧ P s.mainContext where
  showing := fun _ _ h => h
  pass := by
    rintro s ⟨hs, hP⟩
    apply Ends.left (P := fun t : Session => t.settled = s₀.settled ∧ P t.mainContext)
    apply (ends_pass s).mono
    rintro r t ⟨hts, ht⟩
    refine ⟨hts.trans hs, ?_⟩
    rw [config_of_settled hs, window_of_settled hs, offset_of_settled hs] at ht
    exact hpass _ _ hP ht
  query := by
    rintro s text room ⟨hs, hP⟩ hallowed
    apply Ends.left (P := fun t : Session => t.settled = s₀.settled ∧ P t.mainContext)
    apply (ends_query text (s.showing room)).mono
    rintro r t ⟨hts, ht⟩
    exact ⟨hts.trans hs, hquery s text room _ hs hP hallowed ht⟩
  reset := by
    rintro s ⟨hs, hP⟩ hallowed
    exact ⟨hs, hreset s hs hP hallowed⟩

end Session

end Dialogue
