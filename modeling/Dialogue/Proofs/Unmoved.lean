import Dialogue.Proofs.Comparing
import Dialogue.Proofs.Throughout
/-!
# As long as no cell is moved

Cells of the main context are moved by evictions only. Until the first of them every pass keeps the
log comparable with the stream, and so does every query that does not pass over the place where the
prompt and the session file differ.
-/

namespace Dialogue

open Effect

/-! ### What an evaluation leaves alone -/

namespace MainContext

/-- Whether a main context can come of another one without a file being written. -/
structure Onward (v u : MainContext) : Prop where
  /-- Moves are counted. -/
  moves : v.moves ≤ u.moves
  /-- The moves to come are some of those that were to come. -/
  shiftFaults : u.shiftFaults <:+ v.shiftFaults
  /-- No session file comes into use. -/
  path : u.path = none ∨ u.path = v.path
  /-- The files stay. -/
  directory : u.directory = v.directory

private theorem Onward.refl (v : MainContext) : v.Onward v :=
  ⟨Nat.le_refl _, List.suffix_rfl, .inr rfl, rfl⟩

private theorem Onward.trans {v u t : MainContext} (h : v.Onward u) (h' : u.Onward t) :
    v.Onward t where
  moves := Nat.le_trans h.moves h'.moves
  shiftFaults := h'.shiftFaults.trans h.shiftFaults
  path := by
    rcases h'.path with hp | hp
    · exact .inl hp
    · rw [hp]
      exact h.path
  directory := h'.directory.trans h.directory

end MainContext

/-- A swap writes no file. -/
theorem Swap.onward {w : Window} {v u : MainContext} (h : Swap w v u) : v.Onward u := by
  have hmoves (calls : List Call) : v.calls.countP Call.movesMain ≤
      (v.calls ++ calls).countP Call.movesMain := by
    rw [List.countP_append]
    exact Nat.le_add_right _ _
  cases h with
  | idle => exact ⟨Nat.le_refl _, List.suffix_rfl, .inl rfl, rfl⟩
  | unremoved => exact ⟨hmoves _, List.suffix_rfl, .inr rfl, rfl⟩
  | unmoved => exact ⟨hmoves _, List.tail_suffix _, .inr rfl, rfl⟩
  | evicted => exact ⟨hmoves _, List.tail_suffix _, .inl rfl, rfl⟩

/-- Swaps write no file. -/
theorem Swaps.onward {w : Window} {v u : MainContext} (h : Swaps w v u) : v.Onward u := by
  induction h with
  | refl => exact MainContext.Onward.refl v
  | tail _ hs ih => exact ih.trans hs.onward

/-- No file is written before a step is fed. -/
theorem Arrived.onward {w : Window} {offset : Int} {v u : MainContext}
    {r : Except SessionError (Option StopReason)} (h : Arrived w offset v r u) : v.Onward u := by
  cases h with
  | stopped h =>
    have ho := h.onward
    exact ⟨ho.moves, ho.shiftFaults, ho.path, ho.directory⟩
  | ready h _ _ =>
    have ho := h.onward
    exact ⟨ho.moves, ho.shiftFaults, ho.path, ho.directory⟩

/-- Feeding a step moves no cells. -/
theorem FedStep.moves_eq {n : Nat} {v u : MainContext} (h : FedStep n v u) :
    u.moves = v.moves := by
  obtain ⟨_, hd⟩ := h.decoded
  exact hd.moves

/-- Feeding a step writes no file. -/
theorem FedStep.onward {n : Nat} {v u : MainContext} (h : FedStep n v u) : v.Onward u := by
  obtain ⟨_, hd⟩ := h.decoded
  exact ⟨Nat.le_of_eq hd.moves.symm, ⟨[], hd.shiftFaults⟩, .inr hd.path, hd.directory⟩

/-- Evaluating a step writes no file. -/
theorem Evaluated.onward {w : Window} {offset : Int} {n : Nat} {v u : MainContext}
    {r : Except SessionError (Option StopReason)} (h : Evaluated w offset n v r u) :
    v.Onward u := by
  cases h with
  | idle => exact MainContext.Onward.refl v
  | stopped h => exact h.onward
  | @fed _ u _ h hf =>
    have hreuse : u.Onward u.reuse := ⟨Nat.le_refl _, List.suffix_rfl, .inr rfl, rfl⟩
    exact h.onward.trans (hreuse.trans hf.onward)

/-- Taking the next step moves no cells. -/
theorem Stepped.moves_eq {n : Nat} {v u : MainContext} (h : Stepped n v u) :
    u.moves = v.moves := congrArg (List.countP Call.movesMain) h.calls_eq

/-- A pass takes no moves back. -/
theorem Passed.moves_le {w : Window} {offset : Int} {n : Nat} {v u : MainContext}
    (h : Passed w offset n v u) : v.moves ≤ u.moves := by
  cases h with
  | ended h => exact h.onward.moves
  | stepped h hs =>
    rw [hs.moves_eq]
    exact h.onward.moves

/-- A query moves no cells. -/
theorem Queried.moves_eq {passes : Prop} {v u : MainContext} (h : Queried passes v u) :
    u.moves = v.moves := congrArg (List.countP Call.movesMain) h.calls_eq

/-! ### Making room without a move -/

/-- A swap that moves nothing at most gives the session file up. -/
theorem Swap.alike {w : Window} {v u : MainContext} (h : Swap w v u) (hm : u.moves ≤ v.moves) :
    v.Alike u := by
  unfold MainContext.moves at hm
  cases h with
  | idle => exact ⟨_, _, _, _, _, _, rfl, .inl rfl⟩
  | unremoved => exact ⟨_, _, _, _, _, _, rfl, .inr rfl⟩
  | unmoved =>
    rw [List.countP_append] at hm
    exact absurd hm (Nat.not_le_of_gt (Nat.lt_add_of_pos_right Nat.one_pos))
  | evicted =>
    rw [List.countP_append] at hm
    exact absurd hm (Nat.not_le_of_gt (Nat.lt_add_of_pos_right Nat.one_pos))

/-- Swaps that move nothing at most give the session file up. -/
theorem Swaps.alike {w : Window} {v u : MainContext} (h : Swaps w v u) (hm : u.moves ≤ v.moves) :
    v.Alike u := by
  induction h with
  | refl => exact MainContext.Alike.refl v
  | tail hs h ih =>
    have hle := (Swaps.onward hs).moves
    have hle' := h.onward.moves
    exact (ih (by omega)).trans (h.alike (by omega))

/-- Saving changes files only, or gives the session file up. -/
theorem Saved.alike {v u : MainContext} (h : Saved v u) : v.Alike u := by
  cases h with
  | kept => exact MainContext.Alike.refl v
  | written => exact ⟨_, _, _, _, _, _, rfl, .inr rfl⟩
  | failed => exact ⟨_, _, _, _, _, _, rfl, .inl rfl⟩

namespace Session

/-- What is known of the sizes of a session that begins. -/
structure Sized (s : Session) : Prop where
  /-- The prompt is no longer than a step can be. -/
  queue_le : s.progress.queue.length ≤ s.window.maxStep
  /-- The size of the window is a signed word. -/
  size_lt : s.window.size < 0x80000000
  /-- The number of tokens of the session file is a word. -/
  logged_lt : s.progress.logged.length < 0x100000000

end Session

variable {s₀ : Session} {once : Prop} {v u : MainContext}
  {r : Except SessionError (Option StopReason)}

open MainContext

/-- A step that is cut to what a step can be still reaches the place where the prompt and the
session file differ. -/
theorem MainContext.Compares.cut_maxStep (h : v.Compares s₀ once) (hs₀ : s₀.Sized) :
    (v.cut s₀.window.maxStep).Compares s₀ once := by
  apply h.cut
  intro hf
  have hlt := hf.lt_queue
  have hle := hs₀.queue_le
  right
  left
  omega

/-- What has arrived without a move can be compared, in a window with room. -/
theorem Arrived.compares (h : Arrived s₀.window s₀.offset v r u) (hm : u.moves ≤ v.moves)
    (hs₀ : s₀.Sized) (hv : v.Compares s₀ once) :
    u.Compares s₀ once ∧ (r = .ok none → u.past + max s₀.offset 0 < s₀.window.size) := by
  have hcut := hv.cut_maxStep hs₀
  cases h with
  | stopped h hr => exact ⟨hcut.alike (h.alike hm), fun heq => absurd heq hr⟩
  | @ready u h hroom hfits =>
    have ha := h.alike hm
    have hlength : u.pending.length ≤ s₀.window.maxStep := by
      obtain ⟨_, _, _, _, _, _, rfl, -⟩ := ha
      exact (List.length_take_le _ _)
    have hpos : u.past + max s₀.offset 0 < s₀.window.size := by
      unfold Window.room at hroom
      omega
    refine ⟨(hcut.alike ha).cut ?_, fun _ => hpos⟩
    intro _
    unfold Window.room
    rcases hfits with hp | hfits
    · right
      right
      refine ⟨hp, ?_⟩
      omega
    · left
      have hsize := hs₀.size_lt
      unfold Window.maxStep at hlength
      rw [Window.overflows, Number.signedWord_of_lt (by omega), decide_eq_false_iff_not] at hfits
      omega

/-- An evaluation without a move keeps the comparison. What is still to be compared after it was not
taken of the queue yet. -/
theorem Evaluated.compares {n : Nat} (h : Evaluated s₀.window s₀.offset n v r u)
    (hm : u.moves ≤ v.moves) (hs₀ : s₀.Sized) (hv : v.Compares s₀ once) :
    u.Compares s₀ once ∧ (r = .ok none → u.pending = [] ∨ u.Holds) := by
  cases h with
  | idle hp => exact ⟨hv, fun _ => .inl hp⟩
  | stopped h hr => exact ⟨(h.compares hm hs₀ hv).1, fun heq => absurd heq hr⟩
  | @fed r u _ h hf =>
    have hmoves : u.reuse.moves = u.moves := rfl
    rw [hf.moves_eq, hmoves] at hm
    obtain ⟨hu, hroom⟩ := h.compares hm hs₀ hv
    obtain ⟨hc, hs⟩ := hu.reuse (hroom rfl)
    obtain ⟨hfed, hp⟩ := hc.fed hs hf
    exact ⟨hfed, fun _ => hp⟩

/-- Taking the next step keeps the comparison. -/
theorem Stepped.compares {n : Nat} (h : Stepped n v u) (hv : v.Compares s₀ once)
    (hp : v.pending = [] ∨ v.Holds) : u.Compares s₀ once := by
  obtain ⟨hr, tokens⟩ := h
  apply Compares.queued
  have hcut : (v.cut 0).Compares s₀ once := by
    apply hv.cut
    intro hf
    rcases hp with hp | hp
    · left
      rw [hp]
      exact Nat.le_refl 0
    · exact absurd hp hf.not_holds
  cases hr with
  | spent => exact hcut
  | undrawn _ hs => exact hcut.alike hs.alike
  | @drawn u hq hs token =>
    apply (hcut.alike hs.alike).drawn
    · obtain ⟨_, _, _, _, _, _, rfl, -⟩ := hs.alike
      rfl
    · obtain ⟨_, _, _, _, _, _, rfl, -⟩ := hs.alike
      exact hq
  | drained => exact hcut.drain rfl n

/-- A pass without a move keeps the comparison. -/
theorem Passed.compares {n : Nat} (h : Passed s₀.window s₀.offset n v u) (hm : u.moves ≤ v.moves)
    (hs₀ : s₀.Sized) (hv : v.Compares s₀ once) : u.Compares s₀ once := by
  cases h with
  | ended h => exact (h.compares hm hs₀ hv).1
  | stepped h hs =>
    rw [hs.moves_eq] at hm
    obtain ⟨hu, hp⟩ := h.compares hm hs₀ hv
    exact hs.compares hu (hp rfl)

/-- A query leaves a log that agrees with the cells, unless it passes over the place of the fork. -/
theorem Queried.compares {passes : Prop} (h : Queried passes v u) (hv : v.Compares s₀ once)
    (hpasses : passes → v.Forked s₀ → s₀.matched < v.queueRead) : u.Compares s₀ once := by
  cases h with
  | queued tokens => exact hv.queued tokens
  | passedOver hp before after => exact hv.passedOver (hpasses hp) before after

/-- A dialogue that begins anew is compared anew. -/
theorem MainContext.Compares.restarted (h : v.Compares s₀ once) (honce : ¬ once) :
    v.restarted.Compares s₀ once := by
  refine ⟨h.prompt, fun _ => v.counted_restarted, ?_⟩
  rcases h.log with hf | ⟨hh, -⟩
  · left
    refine { hf with le := Nat.zero_le _, follows := .agreeing ?_ (.inr (.inl rfl)) }
    intro i hi
    cases hi
  · exact .inr ⟨hh, fun ho => absurd ho honce⟩

end Dialogue
