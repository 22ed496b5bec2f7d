import Dialogue.Proofs.MainContext
import Dialogue.Session.Frame
/-!
# Feeding the main context

Batches are decoded one after the other until one fails. `Fed` tells what that does to the main
context, batch by batch; a context that is fed to the end or up to a failure counts the batches that
were decoded. Feeding the guidance context leaves the main context alone.
-/

namespace Dialogue

open Effect Workbench

/-- No tokens are cut into no batches. -/
theorem pieces_nil {α : Type} (n : Nat) : pieces n ([] : List α) = [] := by
  rw [pieces, if_pos rfl]

/-- A batch has at least one token, and at most as many as its size allows. -/
theorem length_mem_pieces {α : Type} {n : Nat} {b l : List α} (h : b ∈ pieces n l) :
    1 ≤ b.length ∧ b.length ≤ max n 1 := by
  fun_induction pieces n l with
  | case1 => cases h
  | case2 l hl ih =>
    rcases List.mem_cons.mp h with rfl | h
    · have hpos := List.length_pos_iff.mpr hl
      rw [List.length_take]
      omega
    · exact ih h

/-- Batches decoded into the main context at the positions from one on, after some tokens of the
same step: the position behind the last, or the failure of the first that could not be decoded. -/
inductive Fed : List (List Token) → Int → Nat → MainContext → Except DecodeError Int →
    MainContext → Prop
  /-- No batch is left. -/
  | done {p : Int} {n : Nat} {v : MainContext} : Fed [] p n v (.ok p) v
  /-- The next batch fails. -/
  | failed {b : List Token} {l : List (List Token)} {p : Int} {n : Nat} {v : MainContext}
      {cause : EngineError} (h : v.decodeFaults.headD false = true) :
      Fed (b :: l) p n v (.error ⟨.main, p, b.length, n, cause⟩)
        { v with
          calls := v.calls ++ [.decode .main b p]
          decodeFaults := v.decodeFaults.tail }
  /-- The next batch is decoded. -/
  | next {b : List Token} {l : List (List Token)} {p : Int} {n : Nat} {v v' : MainContext}
      {r : Except DecodeError Int} (h : v.decodeFaults.headD false = false)
      (hl : Fed l (p + b.length) (n + b.length)
        { v with
          cells := v.cells.write p b
          calls := v.calls ++ [.decode .main b p]
          decodeFaults := v.decodeFaults.tail } r v') :
      Fed (b :: l) p n v r v'

/-- The main context after a step was fed: the counter stands behind what was decoded. -/
def Fed.counted : Except DecodeError Int → MainContext → MainContext
  | .ok p, v => { v with past := p }
  | .error e, v => { v with past := e.position }

namespace Feed

private theorem ends_batches_main (l : List (List Token)) (p : Int) (n : Nat) (w : Workbench) :
    Ends (batches .main l p n) w fun r w' => Fed l p n w.mainContext r w'.mainContext := by
  induction l generalizing p n w with
  | nil => exact .done
  | cons b l ih =>
    unfold batches
    rw [ends_bind, ends_report, ends_bind, ends_adaptExcept, ends_call]
    have hcalls := Engine.mainCalls_push (c := .decode .main b p) rfl w.engine.calls
    by_cases h : w.engine.faults.decodeMain.headD false = true
    · rw [ends_iff_of_eq_error (Engine.decode_main_eq_error h)]
      have hf : Fed (b :: l) p n w.mainContext
          (.error ⟨.main, p, b.length, n, .inference "scripted failure"⟩) _ := Fed.failed h
      simpa only [mapError_error, mainContext, Engine.mainCalls, hcalls] using hf
    · rw [Bool.not_eq_true] at h
      rw [ends_iff_of_eq_ok (Engine.decode_main_eq_ok h)]
      apply (ih _ _ _).mono
      intro r w' hl
      apply Fed.next h
      simpa only [mainContext, Engine.mainCalls, hcalls] using hl

/-- What feeding the main context comes to. -/
theorem ends_feed_main (tokens : List Token) (n : Nat) (w : Workbench) :
    Ends (feed .main tokens n) w fun r w' => ∃ r₀ v₀,
      Fed (pieces n tokens) w.progress.past 0 w.mainContext r₀ v₀ ∧
        r = r₀.map (fun _ => ()) ∧ w'.mainContext = Fed.counted r₀ v₀ := by
  simp only [feed, ends_bind, ends_get, ends_attempt]
  apply (ends_batches_main _ _ _ w).mono
  intro r w' hf
  cases r with
  | ok p => exact ⟨_, _, hf, rfl, rfl⟩
  | error e => exact ⟨_, _, hf, rfl, rfl⟩

end Feed

/-- Feeding the guidance context leaves the main context alone. -/
theorem Workbench.guidanceFrame_mainContext : GuidanceFrame mainContext where
  decoding _ _ _ := rfl
  decodes _ _ := keeps_mainContext_call (Engine.keeps_mainPart_decode_guidance _ _)
  decoded _ _ := rfl
  progress _ _ _ _ := rfl

end Dialogue
