import Mathlib.Logic.Relation
import Dialogue.Proofs.CellTokens
import Dialogue.Proofs.MainContext
/-!
# Evicting from the main context

A swap removes the older half of what is not pinned and moves the rest down, in two calls of which
each can fail. `Swap` lists what that can come to; making room is a sequence of swaps.
-/

namespace Dialogue

open Effect Workbench

namespace Window

/-- The call that removes the tokens an eviction drops. -/
def removal (w : Window) (past : Int) : Call :=
  .removeCells .main (some 0) w.pinned (some (w.pinned + w.discard past))

/-- The call that moves the tokens behind them. -/
def move (w : Window) (past : Int) : Call :=
  .shiftCells .main 0 (w.pinned + w.discard past) (some past) (-w.discard past)

/-- The cells without the tokens an eviction drops. -/
def thinned (w : Window) (past : Int) (c : Cells) : Cells :=
  c.remove w.pinned (some (w.pinned + w.discard past))

/-- The cells after an eviction. -/
def closedUp (w : Window) (past : Int) (c : Cells) : Cells :=
  (w.thinned past c).shift (w.pinned + w.discard past) (some past) (-w.discard past)

/-- The pinned cells stay when what an eviction drops is removed. -/
theorem get?_thinned_of_lt {w : Window} {past p : Int} (c : Cells) (hp : p < w.pinned) :
    (w.thinned past c).get? p = c.get? p := by
  rw [thinned, Cells.get?_remove, if_neg]
  rw [Cells.inRange_some]
  omega

/-- The cell at a position after an eviction. -/
theorem get?_closedUp {w : Window} {past : Int} (c : Cells) (hd : 0 < w.discard past)
    (p : Int) :
    (w.closedUp past c).get? p =
      if p < w.pinned then c.get? p
      else if p < past - w.discard past then c.get? (p + w.discard past)
      else if p < past then none
      else c.get? p := by
  obtain ⟨he, heq⟩ := discard_eq hd
  unfold evictable at he heq
  simp only [closedUp, thinned, Cells.get?_shift, Cells.get?_remove,
    Cells.inRange_some]
  by_cases h₁ : p < w.pinned
  · rw [if_neg (by omega), if_neg (by omega), if_neg (by omega), if_pos h₁, Option.none_or]
  · rw [if_neg h₁]
    by_cases h₂ : p < past - w.discard past
    · have hsub : p - -w.discard past = p + w.discard past := by omega
      rw [if_pos (by omega), if_neg (by omega), if_pos h₂, hsub]
      cases c.get? (p + w.discard past) with
      | some t => rfl
      | none =>
        rw [Option.none_or]
        split
        · rfl
        · rw [if_pos (by omega)]
    · rw [if_neg (by omega), if_neg h₂, Option.none_or]
      by_cases h₃ : p < past
      · rw [if_pos h₃]
        split
        · rfl
        · rw [if_pos (by omega)]
      · rw [if_neg (by omega), if_neg (by omega), if_neg h₃]

end Window

/-- The first entry of a list without a true one is not true. -/
theorem headD_of_all_false {l : List Bool} (h : ∀ b ∈ l, b = false) : l.headD false = false := by
  cases l with
  | nil => rfl
  | cons b l => exact h b List.mem_cons_self

/-- What a swap can do to the main context. -/
inductive Swap (w : Window) (v : MainContext) : MainContext → Prop
  /-- Nothing can be evicted. -/
  | idle (h : ¬ 0 < w.discard v.past) : Swap w v { v with path := none }
  /-- The removal fails. -/
  | unremoved (h : 0 < w.discard v.past) (hr : v.removeFaults.headD false = true) :
      Swap w v
        { v with
          calls := v.calls ++ [w.removal v.past]
          removeFaults := v.removeFaults.tail }
  /-- The move fails, and leaves a gap. -/
  | unmoved (h : 0 < w.discard v.past) (hr : v.removeFaults.headD false = false)
      (hs : v.shiftFaults.headD false = true) :
      Swap w v
        { v with
          cells := w.thinned v.past v.cells
          calls := v.calls ++ [w.removal v.past, w.move v.past]
          removeFaults := v.removeFaults.tail
          shiftFaults := v.shiftFaults.tail }
  /-- The eviction is made. -/
  | evicted (h : 0 < w.discard v.past) (hr : v.removeFaults.headD false = false)
      (hs : v.shiftFaults.headD false = false) :
      Swap w v
        { v with
          past := v.past - w.discard v.past
          cells := w.closedUp v.past v.cells
          path := none
          calls := v.calls ++ [w.removal v.past, w.move v.past]
          removeFaults := v.removeFaults.tail
          shiftFaults := v.shiftFaults.tail }

/-- How many of the calls on the main context that are to come fail. -/
def MainContext.failing (v : MainContext) : Nat :=
  v.decodeFaults.count true + v.removeFaults.count true + v.shiftFaults.count true

/-- A swap leaves no more failures to come. -/
theorem Swap.failing_le {w : Window} {v u : MainContext} (h : Swap w v u) :
    u.failing ≤ v.failing := by
  have hremove := Faults.count_tail v.removeFaults
  have hshift := Faults.count_tail v.shiftFaults
  unfold MainContext.failing
  cases h <;> dsimp only <;> omega

/-- What a sequence of swaps can do to the main context. -/
abbrev Swaps (w : Window) : MainContext → MainContext → Prop := Relation.ReflTransGen (Swap w)

/-- No swap brings a session file back. -/
theorem Swap.path_eq_none {w : Window} {v u : MainContext} (h : Swap w v u) (hv : v.path = none) :
    u.path = none := by
  cases h with
  | idle => rfl
  | unremoved => exact hv
  | unmoved => exact hv
  | evicted => rfl

/-- Swaps leave no more failures to come. -/
theorem Swaps.failing_le {w : Window} {v u : MainContext} (h : Swaps w v u) :
    u.failing ≤ v.failing := by
  induction h with
  | refl => exact Nat.le_refl _
  | tail _ hs ih => exact Nat.le_trans hs.failing_le ih

/-- Swaps do not take a session file into use. -/
theorem Swaps.path_eq_none {w : Window} {v u : MainContext} (h : Swaps w v u)
    (hv : v.path = none) : u.path = none := by
  induction h with
  | refl => exact hv
  | tail _ hs ih => exact hs.path_eq_none ih

/-- Giving a session file up is told by the cache and the journal only. -/
theorem Cache.ends_invalidate {ε : Type} {w : Workbench} {Q : Except ε Unit → Workbench → Prop}
    (h : ∀ journal, Q (.ok ())
      { w with cache := { w.cache with path := none }, journal }) :
    Ends (Cache.invalidate : WorkM ε Unit) w Q := by
  unfold Cache.invalidate
  rw [ends_bind, ends_get]
  cases hp : w.cache.path with
  | none =>
    have hw := h w.journal
    rw [← hp] at hw
    simp only [hp]
    exact hw
  | some path =>
    simp only [hp]
    exact h _

namespace Window

/-- What evicting comes to, before the session file is given up. -/
private theorem ends_evict (w : Window) (guided : Bool) (b : Workbench)
    (h : 0 < w.discard b.progress.past) :
    Ends (w.evict guided b.progress.past (w.discard b.progress.past)) b fun r b' =>
      match r with
      | .ok _ => Swap w b.mainContext { b'.mainContext with path := none } ∧
          b'.progress.past = b.progress.past - w.discard b.progress.past
      | .error _ => Swap w b.mainContext b'.mainContext ∧
          b'.mainContext.failing < b.mainContext.failing := by
  have hremovals := Faults.count_tail b.engine.faults.remove
  have hmoves := Faults.count_tail b.engine.faults.shift
  have hremove := Engine.mainCalls_push (c := .removeCells .main (some 0) w.pinned
    (some (w.pinned + w.discard b.progress.past))) rfl b.engine.calls
  have hmove (calls : Array Call) := Engine.mainCalls_push (c := .shiftCells .main 0
    (w.pinned + w.discard b.progress.past) (some b.progress.past) (-w.discard b.progress.past))
    rfl calls
  unfold evict
  rw [ends_bind, ends_call]
  by_cases hr : b.engine.faults.remove.headD false = true
  · rw [ends_iff_of_eq_error (Engine.removeCells_main_eq_error hr)]
    rw [hr, Bool.toNat_true] at hremovals
    have hs := Swap.unremoved (w := w) (v := b.mainContext) h hr
    constructor
    · simpa only [mainContext, Engine.mainCalls, removal, hremove] using hs
    · simp only [MainContext.failing, mainContext]
      omega
  · rw [Bool.not_eq_true] at hr
    rw [ends_iff_of_eq_ok (Engine.removeCells_main_eq_ok hr)]
    simp only [ends_bind, ends_call]
    by_cases hs : b.engine.faults.shift.headD false = true
    · apply (ends_iff_of_eq_error (Engine.shiftCells_main_eq_error (by exact hs))).mpr
      rw [hs, Bool.toNat_true] at hmoves
      have hu := Swap.unmoved (w := w) (v := b.mainContext) h hr hs
      constructor
      · simpa only [mainContext, Engine.mainCalls, removal, move, thinned, hremove, hmove,
          List.append_assoc, List.singleton_append] using hu
      · simp only [MainContext.failing, mainContext]
        omega
    · rw [Bool.not_eq_true] at hs
      apply (ends_iff_of_eq_ok (Engine.shiftCells_main_eq_ok (by exact hs))).mpr
      have he := Swap.evicted (w := w) (v := b.mainContext) h hr hs
      rw [ends_advance, ends_onlyIf]
      cases guided <;> refine ⟨?_, rfl⟩ <;>
      simpa only [ends_advance, mainContext, Engine.mainCalls, removal, move, thinned, closedUp,
        hremove, hmove, List.append_assoc, List.singleton_append, Progress.rewind,
        Progress.setPast, Progress.pastOn, Bool.false_eq_true, if_false, if_true] using he

/-- What a swap comes to. Unless it fails, the session file is given up and the counter falls by
what there is to evict. -/
theorem ends_swap (w : Window) (guided : Bool) (b : Workbench) :
    Ends (w.swap guided) b fun r b' =>
      Swap w b.mainContext b'.mainContext ∧
        match r with
        | .ok _ => b'.mainContext.path = none ∧
            b'.progress.past = b.progress.past - max (w.discard b.progress.past) 0
        | .error _ => b'.mainContext.failing < b.mainContext.failing := by
  unfold swap evictHalf
  simp only [ends_bind, ends_get, ends_report, ends_ite, ends_pure]
  split
  · next h =>
    have he := ends_evict w guided { b with
      journal := b.journal.push (.swapping b.progress.past (w.evictable b.progress.past) w.size
        w.keep (w.discard b.progress.past)) } h
    apply he.mono
    intro r b' hs
    cases r with
    | ok u =>
      apply Cache.ends_invalidate
      intro journal
      refine ⟨hs.1, rfl, hs.2.trans ?_⟩
      rw [Int.max_eq_left (Int.le_of_lt h)]
    | error e => exact hs
  · next h =>
    apply Cache.ends_invalidate
    intro journal
    refine ⟨Swap.idle h, rfl, ?_⟩
    rw [Int.max_eq_right (Int.not_lt.mp h), Int.sub_zero]

/-- What a sequence of swaps comes to. -/
theorem ends_swaps (w : Window) (guided : Bool) (l : List Int) (b : Workbench) :
    Ends (l.mapM fun _ => w.swap guided) b fun r b' =>
      Swaps w b.mainContext b'.mainContext ∧
        ∀ x, r = .ok x → l ≠ [] → b'.mainContext.path = none := by
  induction l generalizing b with
  | nil => exact ⟨Relation.ReflTransGen.refl, fun _ _ h => absurd rfl h⟩
  | cons past l ih =>
    rw [List.mapM_cons, ends_bind]
    apply (ends_swap w guided b).mono
    rintro r b₁ ⟨h₁, hr⟩
    cases r with
    | error e => exact ⟨Relation.ReflTransGen.single h₁, nofun⟩
    | ok x =>
      simp only [ends_bind, ends_pure]
      apply (ih b₁).mono
      rintro r b₂ ⟨h₂, -⟩
      cases r with
      | error e => exact ⟨Relation.ReflTransGen.head h₁ h₂, nofun⟩
      | ok y => exact ⟨Relation.ReflTransGen.head h₁ h₂, fun _ _ _ => h₂.path_eq_none hr.1⟩

/-- What making room comes to. Where a step does not fit at once, the session file is given up. -/
theorem ends_ensureRoom (w : Window) (offset : Option Int) (b : Workbench) :
    Ends (w.ensureRoom offset) b fun r b' =>
      Swaps w b.mainContext b'.mainContext ∧
        ∀ x, r = .ok x → b'.mainContext.path = none ∨
          w.overflows b'.progress.past b'.progress.pending.length (offset.getD 0) = false := by
  unfold ensureRoom
  simp only [ends_bind, ends_get]
  cases ho : w.overflows b.progress.past b.progress.pending.length (offset.getD 0) with
  | false =>
    have hnil : w.evictions b.progress.pending.length (offset.getD 0) b.progress.past = [] := by
      rw [evictions, ho]
      rfl
    rw [hnil]
    exact ⟨Relation.ReflTransGen.refl, fun _ _ => .inr ho⟩
  | true =>
    have hne : w.evictions b.progress.pending.length (offset.getD 0) b.progress.past ≠ [] := by
      rw [evictions, ho]
      split
      · split <;> exact List.cons_ne_nil _ _
      · contradiction
    apply (ends_swaps w _ _ b).mono
    rintro r b' ⟨h, hp⟩
    cases r with
    | error e => exact ⟨h, by rintro _ ⟨⟩⟩
    | ok l => exact ⟨h, fun _ _ => .inl (hp l rfl hne)⟩

end Window

end Dialogue
