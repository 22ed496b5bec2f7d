import Dialogue.Proofs.Decoded
import Dialogue.Proofs.Starting
import Dialogue.Proofs.Throughout
/-!
# The pinned prefix

Once all pinned positions are filled they stay filled, and their cells stay as they are until the
dialogue begins anew: an eviction works behind them, also one that fails halfway, and what is
decoded or skipped goes behind the resident tokens.
-/

namespace Dialogue

open Effect

/-- The pinned positions are filled, and their cells are those of an earlier main context. -/
structure MainContext.HasPrefix (w : Window) (c : Cells) (v : MainContext) : Prop where
  /-- The resident tokens reach behind the pinned ones. -/
  filled : w.pinned ≤ v.past
  /-- The pinned cells are the same. -/
  cells : ∀ p, p < w.pinned → v.cells.get? p = c.get? p

open MainContext

variable {w : Window} {c : Cells} {offset : Int} {n : Nat} {v u : MainContext}
  {r : Except SessionError (Option StopReason)}

/-- Only the counter and the cells matter. -/
theorem MainContext.HasPrefix.of_eq (h : v.HasPrefix w c) (hpast : u.past = v.past)
    (hcells : u.cells = v.cells) : u.HasPrefix w c := by
  refine ⟨?_, ?_⟩
  · rw [hpast]
    exact h.filled
  · rw [hcells]
    exact h.cells

/-- Skipped tokens go behind the resident ones. -/
theorem MainContext.HasPrefix.reuse (h : v.HasPrefix w c) : v.reuse.HasPrefix w c := by
  refine ⟨?_, h.cells⟩
  have hfilled := h.filled
  have hle := v.past_le_reuse
  omega

/-- A swap works behind the pinned cells, whichever of its calls fails. -/
theorem Swap.hasPrefix (h : Swap w v u) (hv : v.HasPrefix w c) : u.HasPrefix w c := by
  cases h with
  | idle => exact hv.of_eq rfl rfl
  | unremoved => exact hv.of_eq rfl rfl
  | unmoved =>
    refine ⟨hv.filled, fun p hp => ?_⟩
    change (w.thinned v.past v.cells).get? p = _
    rw [Window.get?_thinned_of_lt _ hp, hv.cells p hp]
  | evicted hd =>
    refine ⟨?_, fun p hp => ?_⟩
    · -- No more is dropped than half of what is not pinned.
      obtain ⟨he, heq⟩ := Window.discard_eq hd
      unfold Window.evictable at he heq
      show w.pinned ≤ v.past - w.discard v.past
      omega
    · change (w.closedUp v.past v.cells).get? p = _
      rw [Window.get?_closedUp _ hd, if_pos hp, hv.cells p hp]

private theorem Swaps.hasPrefix (h : Swaps w v u) (hv : v.HasPrefix w c) : u.HasPrefix w c := by
  induction h with
  | refl => exact hv
  | tail _ hs ih => exact hs.hasPrefix ih

private theorem Arrived.hasPrefix (h : Arrived w offset v r u) (hv : v.HasPrefix w c) :
    u.HasPrefix w c := by
  have hcut : (v.cut w.maxStep).HasPrefix w c := hv.of_eq rfl rfl
  cases h with
  | stopped h => exact Swaps.hasPrefix h hcut
  | ready h _ _ => exact (Swaps.hasPrefix h hcut).of_eq rfl rfl

/-- What is decoded goes behind the resident tokens. -/
theorem Decoded.hasPrefix {m : Nat} (h : Decoded v m u) (hv : v.HasPrefix w c) :
    u.HasPrefix w c := by
  have hfilled := hv.filled
  have hpast := h.past
  refine ⟨by omega, fun p hp => ?_⟩
  rw [h.cells p, if_neg (by omega), hv.cells p hp]

private theorem Evaluated.hasPrefix (h : Evaluated w offset n v r u) (hv : v.HasPrefix w c) :
    u.HasPrefix w c := by
  cases h with
  | idle => exact hv
  | stopped h => exact h.hasPrefix hv
  | fed h hf =>
    obtain ⟨_, hd⟩ := hf.decoded
    exact hd.hasPrefix (h.hasPrefix hv).reuse

private theorem Stepped.hasPrefix (h : Stepped n v u) (hv : v.HasPrefix w c) : u.HasPrefix w c := by
  obtain ⟨_, _, _, _, hs, -, rfl⟩ := h.exists_saved
  cases hs <;> exact hv.of_eq rfl rfl

private theorem Passed.hasPrefix (h : Passed w offset n v u) (hv : v.HasPrefix w c) :
    u.HasPrefix w c := by
  cases h with
  | ended h => exact h.hasPrefix hv
  | stepped h hs => exact hs.hasPrefix (h.hasPrefix hv)

private theorem Queried.hasPrefix {passes : Prop} (h : Queried passes v u) (hv : v.HasPrefix w c) :
    u.HasPrefix w c := by
  cases h <;> exact hv.of_eq rfl rfl

namespace Session

/-- Until the dialogue begins anew, the pinned prefix stays. -/
theorem invariant_hasPrefix (s₀ : Session) (c : Cells) :
    Invariant (fun _ r => r ≠ .reset) fun s =>
      s.settled = s₀.settled ∧ s.mainContext.HasPrefix s₀.window c := by
  apply invariant_of_mainContext
  · intro v u hv hp
    exact hp.hasPrefix hv
  · intro s text room u _ hv _ hq
    exact hq.hasPrefix hv
  · intro s _ _ hr
    exact absurd rfl hr

/-- Whatever fails, and in whatever state a session is: if all pinned positions are filled then they
stay filled through every turn and every query, and each of their cells holds what it held, whenever
a pass begins and after every request. -/
theorem pinned_prefix_immutable {s : Session} {requests : List Request}
    (hr : .reset ∉ requests) (hfilled : s.window.keep + 1 ≤ s.progress.past) :
    (s.window.keep + 1 ≤ (s.serveAll requests).progress.past ∧
      ∀ p, 0 ≤ p → p ≤ s.window.keep →
        (s.serveAll requests).engine.mainCells.get? p = s.engine.mainCells.get? p) ∧
    ∀ t, s.AtPass requests t →
      s.window.keep + 1 ≤ t.progress.past ∧
        ∀ p, 0 ≤ p → p ≤ s.window.keep →
          t.engine.mainCells.get? p = s.engine.mainCells.get? p := by
  have hbegins : s.settled = s.settled ∧ s.mainContext.HasPrefix s.window s.engine.mainCells :=
    ⟨rfl, hfilled, fun _ _ => rfl⟩
  have honce : s.AllAllowed (fun _ r => r ≠ .reset) requests := allAllowed_ne_reset hr s
  have hstays {t : Session} (ht : t.mainContext.HasPrefix s.window s.engine.mainCells) :
      s.window.keep + 1 ≤ t.progress.past ∧ ∀ p, 0 ≤ p → p ≤ s.window.keep →
        t.engine.mainCells.get? p = s.engine.mainCells.get? p :=
    ⟨ht.filled, fun p _ hp => ht.cells p (Int.lt_add_one_iff.mpr hp)⟩
  have hinvariant := invariant_hasPrefix s s.engine.mainCells
  refine ⟨hstays (hinvariant.serveAll hbegins honce).2, ?_⟩
  intro t ht
  exact hstays (hinvariant.atPass hbegins honce ht).2

/-- A swap in a later turn leaves the tokens that are kept, and the one behind them. -/
theorem pinned_prefix_immutable_of_swapped_dialogue :
    ∃ s w, Session.start 0 { prompt := "ab", predict := 4 }
        { contextSize := 8, script := Token.ofText "cdefghijkl" } {} = .ok s w ∧
      s.window.keep = 2 ∧ (s.serve (.answer none)).progress.past = 5 ∧
      ((s.serve (.answer none)).serveAll
        [.query "xyz" none, .answer none]).mainContext.moves = 1 ∧
      ∀ p, 0 ≤ p → p ≤ 2 →
        ((s.serve (.answer none)).serveAll
            [.query "xyz" none, .answer none]).engine.mainCells.get? p =
          (s.serve (.answer none)).engine.mainCells.get? p := by
  obtain ⟨s, w, h, htest⟩ := exists_of_gives
    (fun s : Session => decide (s.window.keep = 2 ∧ (s.serve (.answer none)).window.keep = 2 ∧
      (s.serve (.answer none)).progress.past = 5 ∧
      ((s.serve (.answer none)).serveAll
        [.query "xyz" none, .answer none]).mainContext.moves = 1))
    (r := Session.start 0 { prompt := "ab", predict := 4 }
      { contextSize := 8, script := Token.ofText "cdefghijkl" } {}) (by decide +kernel)
  obtain ⟨hkeep, hkeep', hpast, hmoves⟩ := of_decide_eq_true htest
  have hr : Request.reset ∉ [Request.query "xyz" none, Request.answer none] := by decide
  have hprefix := (pinned_prefix_immutable (s := s.serve (.answer none)) hr
    (by rw [hkeep', hpast]; decide)).1.2
  rw [hkeep'] at hprefix
  exact ⟨s, w, h, hkeep, hpast, hmoves, hprefix⟩

end Session

end Dialogue
