import Dialogue.Proofs.Unmoved
/-!
# What is pinned

An eviction leaves the pinned cells alone, and the counter behind them. Up to there the log can be
trusted as far as before, whatever is moved; without a move it can be everywhere. As long as no more
than the pinned tokens are resident nothing can be moved at all.
-/

namespace Dialogue

open Effect MainContext

variable {w : Window} {offset bound : Int} {n : Nat} {v u : MainContext}
  {r : Except SessionError (Option StopReason)}

/-! ### Trust -/

private theorem MainContext.Trusted.alike (h : v.Trusted bound) (ha : v.Alike u) :
    u.Trusted bound := by
  obtain ⟨_, _, _, _, _, _, rfl, hp⟩ := ha
  exact h.of_eq rfl rfl rfl rfl hp

private theorem MainContext.Trusted.cut (h : v.Trusted bound) (m : Nat) : (v.cut m).Trusted bound :=
  h.of_eq rfl rfl rfl rfl (.inr rfl)

/-- A swap leaves the pinned part of the log to be trusted. -/
theorem Swap.trusted (h : Swap w v u) (hb : bound ≤ w.pinned) (hv : v.Trusted bound) :
    u.Trusted bound := by
  cases h with
  | idle => exact hv.of_eq rfl rfl rfl rfl (.inl rfl)
  | unremoved => exact hv.of_eq rfl rfl rfl rfl (.inr rfl)
  | unmoved =>
    refine ⟨hv.toCounted.of_eq rfl rfl rfl (.inr rfl), ?_⟩
    intro i hi hlt
    change (w.thinned v.past v.cells).get? i = _
    rw [Window.get?_thinned_of_lt _ (by omega)]
    exact hv.holds i hi hlt
  | evicted hd =>
    -- The counter ends behind the pinned tokens, where nothing is claimed of it.
    have hpast : bound ≤ v.past - w.discard v.past := by
      obtain ⟨he, heq⟩ := Window.discard_eq hd
      unfold Window.evictable at he heq
      omega
    refine ⟨⟨hv.le_logged, ?_, ?_⟩, ?_⟩
    · intro hlt
      exact absurd hpast (Int.not_le.mpr hlt)
    · rintro (hp | ⟨-, hlt⟩)
      · exact absurd rfl hp
      · exact absurd hpast (Int.not_le.mpr hlt)
    · intro i hi hlt
      change (w.closedUp v.past v.cells).get? i = _
      rw [Window.get?_closedUp _ hd, if_pos (by omega)]
      exact hv.holds i hi hlt

/-- Making room leaves the log to be trusted where it is pinned, or if nothing is moved. -/
theorem Swaps.trusted (h : Swaps w v u) (hb : bound ≤ w.pinned ∨ u.moves ≤ v.moves)
    (hv : v.Trusted bound) : u.Trusted bound := by
  rcases hb with hb | hm
  · induction h with
    | refl => exact hv
    | tail _ hs ih => exact hs.trusted hb ih
  · exact hv.alike (Swaps.alike h hm)

/-- Before a step is fed the log stays to be trusted where it is pinned, or if nothing is moved. -/
theorem Arrived.trusted (h : Arrived w offset v r u) (hb : bound ≤ w.pinned ∨ u.moves ≤ v.moves)
    (hv : v.Trusted bound) : u.Trusted bound := by
  cases h with
  | stopped h => exact Swaps.trusted h hb (hv.cut _)
  | ready h _ _ =>
    have hu := Swaps.trusted h hb (hv.cut _)
    exact hu.cut _

private theorem Evaluated.trusted (h : Evaluated w offset n v r u)
    (hb : bound ≤ w.pinned ∨ u.moves ≤ v.moves) (hv : v.Trusted bound) : u.Trusted bound := by
  cases h with
  | idle => exact hv
  | stopped h => exact h.trusted hb hv
  | @fed _ u _ h hf =>
    have hmoves : u.reuse.moves = u.moves := rfl
    rw [hf.moves_eq, hmoves] at hb
    exact (h.trusted hb hv).fed hf

private theorem Stepped.trusted (h : Stepped n v u) (hv : v.Trusted bound) : u.Trusted bound := by
  obtain ⟨_, _, _, _, hs, -, rfl⟩ := h.exists_saved
  exact ((hv.cut 0).alike hs.alike).of_eq rfl rfl rfl rfl (.inr rfl)

/-- A pass leaves the log to be trusted where it is pinned, or if nothing is moved. -/
theorem Passed.trusted (h : Passed w offset n v u) (hb : bound ≤ w.pinned ∨ u.moves ≤ v.moves)
    (hv : v.Trusted bound) : u.Trusted bound := by
  cases h with
  | ended h => exact h.trusted hb hv
  | stepped h hs =>
    rw [hs.moves_eq] at hb
    exact hs.trusted (h.trusted hb hv)

/-- A query leaves the log to be trusted as far as it was. -/
theorem Queried.trusted {passes : Prop} (h : Queried passes v u) (hv : v.Trusted bound) :
    u.Trusted bound := by
  cases h with
  | queued => exact hv.of_eq rfl rfl rfl rfl (.inr rfl)
  | passedOver => exact hv.of_eq rfl rfl rfl rfl (.inr rfl)

/-! ### Nothing to move -/

/-- Nothing is moved while only pinned tokens are resident. -/
theorem Swaps.moves_of_pinned (h : Swaps w v u) (hp : v.past ≤ w.pinned) : u.moves ≤ v.moves := by
  have hu : u.past = v.past ∧ u.moves = v.moves := by
    induction h with
    | refl => exact ⟨rfl, rfl⟩
    | @tail t _ _ hs ih =>
      obtain ⟨hpast, hmoves⟩ := ih
      have hidle : ¬ 0 < w.discard t.past := by
        intro hd
        have he := (Window.discard_eq hd).1
        unfold Window.evictable at he
        omega
      cases hs with
      | idle => exact ⟨hpast, hmoves⟩
      | unremoved hd => exact absurd hd hidle
      | unmoved hd => exact absurd hd hidle
      | evicted hd => exact absurd hd hidle
  exact Nat.le_of_eq hu.2

/-- Where no more is resident than what is pinned, no room is made by moving cells. -/
theorem Arrived.moves_of_pinned (h : Arrived w offset v r u) (hp : v.past ≤ w.pinned) :
    u.moves ≤ v.moves := by
  cases h with
  | stopped h =>
    have hm := Swaps.moves_of_pinned h hp
    exact hm
  | ready h _ _ =>
    have hm := Swaps.moves_of_pinned h hp
    exact hm

private theorem Evaluated.moves_of_pinned (h : Evaluated w offset n v r u)
    (hp : v.past ≤ w.pinned) :
    u.moves ≤ v.moves := by
  cases h with
  | idle => exact Nat.le_refl _
  | stopped h => exact h.moves_of_pinned hp
  | fed h hf =>
    rw [hf.moves_eq]
    exact h.moves_of_pinned hp

/-- Where no more is resident than what is pinned, a pass moves no cells. -/
theorem Passed.moves_of_pinned (h : Passed w offset n v u) (hp : v.past ≤ w.pinned) :
    u.moves ≤ v.moves := by
  cases h with
  | ended h => exact h.moves_of_pinned hp
  | stepped h hs =>
    rw [hs.moves_eq]
    exact h.moves_of_pinned hp

end Dialogue
