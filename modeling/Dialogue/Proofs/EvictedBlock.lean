import Dialogue.Proofs.History
import Dialogue.Proofs.MakingRoom
import Dialogue.Proofs.TransientFaults
/-!
# The block that making room evicts

Each swap takes the older half of what is not pinned out of the history, just behind the pinned
tokens. However many swaps it takes, together they take out one block there, and none is begun once
the step fits.
-/

namespace Dialogue

open Effect Workbench

namespace Window

variable {w : Window}

/-- Whether a step fits behind the resident tokens. -/
def Fits (w : Window) (past : Int) (step : Nat) (offset : Int) : Prop :=
  past + step + max offset 0 ≤ w.size

/-- The history without a block of `n` tokens behind the pinned ones. -/
def cutOut (w : Window) (n : Nat) (history : List Token) : List Token :=
  history.take w.pinned.toNat ++ history.drop (w.pinned.toNat + n)

private theorem fits_iff {past offset : Int} {step : Nat} (h : step < 0x80000000) :
    w.Fits past step offset ↔ w.overflows past step offset = false := by
  rw [Fits, overflows, Number.signedWord_of_lt h, decide_eq_false_iff_not, Int.not_lt]

private theorem cutOut_zero (history : List Token) : w.cutOut 0 history = history := by
  rw [cutOut, Nat.add_zero, List.take_append_drop]

/-- Behind a block that is taken out another one can be; it is one block. -/
theorem cutOut_cutOut {n : Nat} (m : Nat) {history : List Token}
    (h : n = 0 ∨ w.pinned.toNat + n ≤ history.length) :
    w.cutOut m (w.cutOut n history) = w.cutOut (n + m) history := by
  rcases h with rfl | h
  · rw [cutOut_zero, Nat.zero_add]
  · have hlen : (history.take w.pinned.toNat).length = w.pinned.toNat := by
      rw [List.length_take]
      omega
    have hdrop : (history.take w.pinned.toNat ++ history.drop (w.pinned.toNat + n)).drop
        (w.pinned.toNat + m) = history.drop (w.pinned.toNat + (n + m)) := by
      rw [← List.drop_drop, List.drop_left' hlen, List.drop_drop, Nat.add_assoc]
    rw [cutOut, cutOut, List.take_left' hlen, hdrop, cutOut]

/-- An eviction takes a block out of the history. -/
theorem evicted_eq_cutOut {history : List Token} (hk : 0 ≤ w.keep)
    (hd : 0 < w.discard history.length) :
    w.evicted history = w.cutOut (w.discard history.length).toNat history ∧
      w.pinned.toNat + (w.discard history.length).toNat ≤ history.length := by
  obtain ⟨he, heq⟩ := discard_eq hd
  have hpinned : w.pinned = w.keep + 1 := rfl
  unfold evictable at he heq
  have hsum : (w.pinned + w.discard history.length).toNat =
      w.pinned.toNat + (w.discard history.length).toNat := by
    omega
  refine ⟨?_, by omega⟩
  rw [evicted, hsum, cutOut]

/-! ### Which swaps are begun -/

/-- No swap is begun for a step that fits. -/
theorem overflows_of_mem_evictions {step : Nat} {offset past p : Int}
    (h : p ∈ w.evictions step offset past) : w.overflows p step offset = true := by
  fun_induction evictions w step offset past with
  | case1 past hover _ ih =>
    rcases List.mem_cons.mp h with rfl | h
    · exact hover
    · exact ih h
  | case2 past hover =>
    rw [List.mem_singleton.mp h]
    exact hover
  | case3 => cases h

/-- For a step that does not fit a swap is begun. -/
theorem evictions_ne_nil {step : Nat} {offset past : Int}
    (h : w.overflows past step offset = true) : w.evictions step offset past ≠ [] := by
  rw [evictions, if_pos h]
  split <;> exact List.cons_ne_nil _ _

end Window

/-- How many tokens are resident when a swap is begun, if that is what is reported. -/
def Event.swapped? : Event → Option Int
  | .swapping past .. => some past
  | _ => none

namespace Workbench

variable {ε α : Type}

/-- How many tokens were resident when each of the swaps reported so far was begun, oldest first. -/
def swaps (b : Workbench) : List Int := b.journal.toList.filterMap Event.swapped?

private theorem keeps_swaps_report {e : Event} (h : e.swapped? = none) :
    Keeps swaps (report e : WorkM ε Unit) := by
  refine .modify fun b => ?_
  simp [swaps, h]

private theorem keeps_swaps_call (x : EngineM α) : Keeps swaps (call x) :=
  .onPart (g := fun _ => ()) (fun _ => rfl) fun _ _ _ => rfl

private theorem keeps_swaps_invalidate : Keeps swaps (Cache.invalidate : WorkM ε Unit) := by
  refine .bind .get fun b => ?_
  cases b.cache.path with
  | none => exact .pure _
  | some path => exact .bind (.modify fun _ => rfl) fun _ => keeps_swaps_report rfl

private theorem keeps_swaps_evictHalf (w : Window) (guided : Bool) (past : Int) :
    Keeps swaps (w.evictHalf guided past) := by
  refine .ite ?_ (keeps_swaps_report rfl)
  refine .bind (keeps_swaps_call _) fun _ => ?_
  refine .bind (keeps_swaps_call _) fun _ => ?_
  exact .bind (.modify fun _ => rfl) fun _ => .onlyIf _ (.modify fun _ => rfl)

/-- A swap is reported with the tokens that are resident when it is begun. -/
theorem ends_swap_swaps (w : Window) (guided : Bool) (b : Workbench) :
    Ends (w.swap guided) b fun _ t => t.swaps = b.swaps ++ [b.progress.past] := by
  have hrest : Keeps swaps (do
      w.evictHalf guided b.progress.past
      Cache.invalidate
      return ⟨w.evictable b.progress.past, max (w.discard b.progress.past) 0, b.progress.past,
        (← get).progress.past⟩ : WorkM EngineError Eviction) := by
    refine .bind (keeps_swaps_evictHalf _ _ _) fun _ => ?_
    refine .bind keeps_swaps_invalidate fun _ => ?_
    exact .bind .get fun _ => .pure _
  unfold Window.swap
  rw [ends_bind, ends_get]
  dsimp only
  rw [ends_bind, report, ends_modify]
  apply (Ends.keeps hrest).mono
  intro r t ht
  rw [ht]
  simp [swaps, Event.swapped?]

/-! ### What a swap comes to -/

variable {b : Workbench} {w : Window} {guided : Bool}

private theorem swapped_of_pos (h : 0 < w.discard b.progress.past) : b.swapped w guided =
    { b with
      engine := { b.engine with mainCells := w.closedUp b.progress.past b.engine.mainCells }
      progress :=
        { b.progress with
          past := b.progress.past - w.discard b.progress.past
          guidancePast := if guided then b.progress.guidancePast - w.discard b.progress.past
            else b.progress.guidancePast }
      cache := { b.cache with path := none } } := by
  rw [swapped]
  dsimp only
  rw [if_pos h]
  cases guided <;> rfl

private theorem swapped_of_not_pos (h : ¬ 0 < w.discard b.progress.past) :
    b.swapped w guided = { b with cache := { b.cache with path := none } } := by
  rw [swapped]
  dsimp only
  rw [if_neg h]

end Workbench

namespace MainContext

variable {v u : MainContext} {history : List Token}

/-- What the cells hold is told by the counter and the cells. -/
theorem Mirrors.of_eq (h : v.Mirrors history) (hpast : u.past = v.past)
    (hcells : u.cells = v.cells) : u.Mirrors history := by
  rw [Mirrors, hpast, hcells]
  exact h

private theorem NothingElse.of_eq (h : v.NothingElse) (hpast : u.past = v.past)
    (hcells : u.cells = v.cells) : u.NothingElse := by
  rw [NothingElse, hpast, hcells]
  exact h

end MainContext

/-- Swaps decode nothing. -/
theorem Swaps.decodeFaults_eq {w : Window} {v u : MainContext} (h : Swaps w v u) :
    u.decodeFaults = v.decodeFaults := by
  induction h with
  | refl => rfl
  | tail _ hs ih => cases hs <;> exact ih

/-! ### Evictions taken as one -/

/-- Whether evictions follow one another, from one number of resident tokens to another, and each
tells how many tokens it evicts. -/
def Eviction.Lead : Int → List Eviction → Int → Prop
  | before, [], after => before = after
  | before, e :: l, after =>
    e.before = before ∧ e.discarded = e.before - e.after ∧ Eviction.Lead e.after l after

/-- Taken as one they tell how many tokens all of them evict. -/
theorem Eviction.Lead.foldl {before after : Int} {e : Eviction} {l : List Eviction}
    (h : Eviction.Lead before (e :: l) after) :
    (l.foldl Eviction.andThen e).before = before ∧ (l.foldl Eviction.andThen e).after = after ∧
      (l.foldl Eviction.andThen e).discarded = before - after := by
  induction l generalizing e with
  | nil =>
    obtain ⟨hbefore, hdiscarded, hafter⟩ := h
    refine ⟨hbefore, hafter, ?_⟩
    rw [List.foldl_nil, hdiscarded, hbefore, show e.after = after from hafter]
  | cons f l ih =>
    obtain ⟨hbefore, hdiscarded, hf, hdiscarded', hl⟩ := h
    apply ih
    refine ⟨hbefore, ?_, hl⟩
    simp only [Eviction.andThen]
    omega

namespace Window

variable {w : Window} {guided : Bool} {history : List Token} {n m : Nat} {b t u : Workbench}

/-- What it is to take one block of `n` tokens out of the history behind the pinned ones. The
guidance counter falls along if guidance is active. -/
structure CutsOut (w : Window) (guided : Bool) (history : List Token) (n : Nat)
    (b t : Workbench) : Prop where
  /-- The tokens are there. -/
  le_length : n = 0 ∨ w.pinned.toNat + n ≤ history.length
  /-- The cells hold the history without the block. -/
  mirrors : t.mainContext.Mirrors (w.cutOut n history)
  /-- There are no other cells. -/
  nothingElse : t.mainContext.NothingElse
  /-- The counters fall, and all other progress stays. -/
  progress : t.progress =
    { b.progress with
      past := b.progress.past - n
      guidancePast := if guided then b.progress.guidancePast - n else b.progress.guidancePast }
  /-- The cells of the guidance context stay. -/
  guidanceCells : t.engine.guidanceCells = b.engine.guidanceCells
  /-- The files stay. -/
  directory : t.directory = b.directory

/-- Nothing is a block. -/
theorem CutsOut.nothing (hm : b.mainContext.Mirrors history) (hn : b.mainContext.NothingElse) :
    w.CutsOut guided history 0 b b where
  le_length := .inl rfl
  mirrors := by rwa [cutOut_zero]
  nothingElse := hn
  progress := by cases guided <;> simp
  guidanceCells := rfl
  directory := rfl

/-- Blocks taken out one after the other are one block. -/
theorem CutsOut.trans (h : w.CutsOut guided history n b t)
    (h' : w.CutsOut guided (w.cutOut n history) m t u) : w.CutsOut guided history (n + m) b u where
  le_length := by
    have hn := h.le_length
    have hm := h'.le_length
    simp only [cutOut, List.length_append, List.length_take, List.length_drop] at hm
    omega
  mirrors := by
    rw [← cutOut_cutOut m h.le_length]
    exact h'.mirrors
  nothingElse := h'.nothingElse
  progress := by
    rw [h'.progress, h.progress]
    cases guided <;> simp [Int.sub_sub]
  guidanceCells := h'.guidanceCells.trans h.guidanceCells
  directory := h'.directory.trans h.directory

/-- A swap takes out what it evicts. -/
theorem CutsOut.of_swapped (hk : 0 ≤ w.keep) (hm : b.mainContext.Mirrors history)
    (hn : b.mainContext.NothingElse)
    (h : t.redacted .transient = (b.redacted .transient).swapped w guided) :
    w.CutsOut guided history (max (w.discard b.progress.past) 0).toNat b t := by
  -- Where nothing can be evicted the block is empty.
  by_cases hd : 0 < w.discard b.progress.past
  · rw [swapped_of_pos (by exact hd)] at h
    have hprogress := congrArg Workbench.progress h
    have hpast := congrArg Progress.past hprogress
    have hcells := congrArg (fun b : Workbench => b.engine.mainCells) h
    have hguidance := congrArg (fun b : Workbench => b.engine.guidanceCells) h
    have hdirectory := congrArg Workbench.directory h
    have hlength : b.progress.past = history.length := hm.1
    have hblock := evicted_eq_cutOut hk (hlength ▸ hd)
    rw [← hlength] at hblock
    rw [Int.max_eq_left (Int.le_of_lt hd)]
    exact {
      le_length := .inr hblock.2
      mirrors := hblock.1 ▸ (hm.evict hk hd).of_eq hpast hcells
      nothingElse := (hn.evict hk hd).of_eq hpast hcells
      progress := by
        rw [Int.toNat_of_nonneg (Int.le_of_lt hd)]
        exact hprogress
      guidanceCells := hguidance
      directory := hdirectory }
  · rw [swapped_of_not_pos (by exact hd)] at h
    have hprogress : t.progress = b.progress := by
      have hredacted := congrArg Workbench.progress h
      exact hredacted
    have hpast := congrArg Progress.past hprogress
    have hcells := congrArg (fun b : Workbench => b.engine.mainCells) h
    have hguidance := congrArg (fun b : Workbench => b.engine.guidanceCells) h
    have hdirectory := congrArg Workbench.directory h
    rw [Int.max_eq_right (Int.not_lt.mp hd)]
    exact {
      le_length := .inl rfl
      mirrors := by
        rw [Int.toNat_zero, cutOut_zero]
        exact hm.of_eq hpast hcells
      nothingElse := hn.of_eq hpast hcells
      progress := by
        rw [hprogress]
        cases guided <;> simp
      guidanceCells := hguidance
      directory := hdirectory }

private theorem CutsOut.past_eq (h : w.CutsOut guided history n b t) :
    t.progress.past = b.progress.past - n := congrArg (·.past) h.progress

/-- What a swap comes to, unless it fails. -/
theorem ends_swap_cutsOut (guided : Bool) (hk : 0 ≤ w.keep) (hm : b.mainContext.Mirrors history)
    (hn : b.mainContext.NothingElse) :
    Ends (w.swap guided) b fun r t => ∀ e, r = .ok e →
      w.CutsOut guided history (max (w.discard b.progress.past) 0).toNat b t ∧
        e = b.evictionOf w ∧ t.swaps = b.swaps ++ [b.progress.past] := by
  apply ((ends_swap_redacted w guided b).and (ends_swap_swaps w guided b)).mono
  rintro _ t ⟨hredacted, hswaps⟩ e rfl
  exact ⟨.of_swapped hk hm hn hredacted.2.2, hredacted.2.1, hswaps⟩

/-- What the swaps of a plan come to. -/
structure Evicts (w : Window) (guided : Bool) (history : List Token) (plan : List Int)
    (done : List Eviction) (b t : Workbench) : Prop where
  /-- All of them take out one block. -/
  block : ∃ n, w.CutsOut guided history n b t
  /-- They follow one another. -/
  lead : Eviction.Lead b.progress.past done t.progress.past
  /-- What they tell is by the plan. -/
  before : done.map Eviction.before = plan
  /-- The swaps that are begun are those of the plan. -/
  swaps : t.swaps = b.swaps ++ plan
  /-- The last one evicts what it can. -/
  last : ∀ last ∈ plan.getLast?, t.progress.past = last - max (w.discard last) 0

private theorem Evicts.nothing (hm : b.mainContext.Mirrors history)
    (hn : b.mainContext.NothingElse) :
    w.Evicts guided history [] [] b b where
  block := ⟨0, .nothing hm hn⟩
  lead := rfl
  before := rfl
  swaps := (List.append_nil _).symm
  last := by rintro _ ⟨⟩

/-- A swap before others takes out the block in front of theirs. -/
theorem Evicts.cons {plan : List Int} {done : List Eviction}
    (hcut : w.CutsOut guided history (max (w.discard b.progress.past) 0).toNat b t)
    (hswaps : t.swaps = b.swaps ++ [b.progress.past])
    (h : w.Evicts guided (w.cutOut (max (w.discard b.progress.past) 0).toNat history) plan done
      t u) :
    w.Evicts guided history (b.progress.past :: plan) (b.evictionOf w :: done) b u := by
  have hpast := hcut.past_eq
  rw [Int.toNat_of_nonneg (Int.le_max_right _ _)] at hpast
  obtain ⟨m, hcut'⟩ := h.block
  refine ⟨⟨_, hcut.trans hcut'⟩, ⟨rfl, ?_, ?_⟩, ?_, ?_, ?_⟩
  · simp only [evictionOf]
    omega
  · simpa only [evictionOf, hpast] using h.lead
  · rw [List.map_cons, h.before]
    rfl
  · rw [h.swaps, hswaps, List.append_assoc, List.singleton_append]
  · intro last hl
    rw [List.getLast?_cons] at hl
    cases hl
    cases hl : plan.getLast? with
    | some last => exact h.last last hl
    | none =>
      have hnil : done = [] := by
        rw [← List.map_eq_nil_iff, h.before, List.getLast?_eq_none_iff.mp hl]
      have hlead := h.lead
      rw [hnil] at hlead
      exact hlead.symm.trans hpast

/-- What swaps come to is told by what the ones after the first come to. -/
theorem ends_swaps_evicts {plan : List Int} (hk : 0 ≤ w.keep) (hm : b.mainContext.Mirrors history)
    (hn : b.mainContext.NothingElse)
    (hrest : ∀ {t : Workbench} {left : List Token},
      t.progress.past = b.progress.past - max (w.discard b.progress.past) 0 →
      t.mainContext.Mirrors left → t.mainContext.NothingElse →
      Ends (plan.mapM fun _ => w.swap guided) t fun r u => ∀ done, r = .ok done →
        w.Evicts guided left plan done t u) :
    Ends ((b.progress.past :: plan).mapM fun _ => w.swap guided) b fun r t =>
      ∀ done, r = .ok done → w.Evicts guided history (b.progress.past :: plan) done b t := by
  rw [List.mapM_cons, ends_bind]
  apply (ends_swap_cutsOut guided hk hm hn).mono
  intro r t h
  cases r with
  | error e => rintro _ ⟨⟩
  | ok e =>
    obtain ⟨hcut, rfl, hswaps⟩ := h e rfl
    have hpast := hcut.past_eq
    rw [Int.toNat_of_nonneg (Int.le_max_right _ _)] at hpast
    simp only [ends_bind, ends_pure]
    apply (hrest hpast hcut.mirrors hcut.nothingElse).mono
    intro r u h
    cases r with
    | error e => rintro _ ⟨⟩
    | ok done =>
      rintro _ ⟨⟩
      exact .cons hcut hswaps (h done rfl)

/-- What making room comes to, unless a call fails. -/
theorem ends_evictions_evicts {step : Nat} {offset past : Int} (guided : Bool) (hk : 0 ≤ w.keep)
    (hb : b.progress.past = past) (hm : b.mainContext.Mirrors history)
    (hn : b.mainContext.NothingElse) :
    Ends ((w.evictions step offset past).mapM fun _ => w.swap guided) b fun r t =>
      ∀ done, r = .ok done → w.Evicts guided history (w.evictions step offset past) done b t := by
  -- Along the plan; a block is taken out, and what comes after it takes out the block behind.
  fun_induction evictions w step offset past generalizing b history with
  | case1 past _ hd ih =>
    subst hb
    refine ends_swaps_evicts hk hm hn fun hpast hm hn => ih ?_ hm hn
    rw [hpast, Int.max_eq_left (Int.le_of_lt hd)]
  | case2 past _ _ =>
    subst hb
    refine ends_swaps_evicts hk hm hn fun _ hm hn => ?_
    rw [List.mapM_nil, ends_pure]
    rintro _ ⟨⟩
    exact .nothing hm hn
  | case3 past _ =>
    rw [List.mapM_nil, ends_pure]
    rintro _ ⟨⟩
    exact .nothing hm hn

/-- Making room cannot fail where no removal and no move is to fail. -/
theorem ensureRoom_eq_ok (offset : Option Int) (hremove : ∀ x ∈ b.engine.faults.remove, x = false)
    (hshift : ∀ x ∈ b.engine.faults.shift, x = false) :
    ∃ r t, w.ensureRoom offset b = .ok r t := by
  have hnone {l : List Bool} (h : ∀ x ∈ l, x = false) : l.count true = 0 :=
    List.count_eq_zero.mpr fun ht => Bool.noConfusion (h true ht)
  cases hr : w.ensureRoom offset b with
  | ok r t => exact ⟨r, t, rfl⟩
  | error e t =>
    have hswaps := ((ends_iff_of_eq_error hr).mp (ends_ensureRoom w offset b)).1
    have hlt := (ends_iff_of_eq_error hr).mp (ends_ensureRoom_cleared w offset b)
    have hremoves : b.mainContext.removeFaults.count true = 0 := hnone hremove
    have hmoves : b.mainContext.shiftFaults.count true = 0 := hnone hshift
    simp only [MainContext.failing, hswaps.decodeFaults_eq, hremoves, hmoves] at hlt
    omega

/-- Room is made for the pending tokens of a context that holds a history and nothing else, unless
removing or moving cells fails. One block of the history is taken out behind the pinned tokens, and
the counters fall by its size. The step fits then, or no two tokens are left that are not pinned; it
did not fit when any of the swaps was begun, of which the last evicted what it could. Where the step
fits at once nothing changes and nothing is told; otherwise the session file is given up, and what
is told is how many tokens were evicted. -/
theorem ensureRoom_evicts_one_block (offset : Option Int) (hk : 0 ≤ w.keep)
    (hm : b.mainContext.Mirrors history) (hn : b.mainContext.NothingElse)
    (hstep : b.progress.pending.length < 0x80000000) :
    ((∀ x ∈ b.engine.faults.remove, x = false) → (∀ x ∈ b.engine.faults.shift, x = false) →
      ∃ r t, w.ensureRoom offset b = .ok r t) ∧
    ∀ r t, w.ensureRoom offset b = .ok r t → ∃ n : Nat,
      w.CutsOut offset.isSome history n b t ∧
      (w.Fits t.progress.past b.progress.pending.length (offset.getD 0) ∨
        t.progress.past ≤ w.keep + 2) ∧
      match r with
      | none => w.Fits b.progress.past b.progress.pending.length (offset.getD 0) ∧ t = b
      | some e =>
        ¬ w.Fits b.progress.past b.progress.pending.length (offset.getD 0) ∧
        t.cache.path = none ∧
        e.before = b.progress.past ∧ e.after = t.progress.past ∧
        e.before - e.after = e.discarded ∧ e.discarded = n ∧
        ∃ swaps last, t.swaps = b.swaps ++ swaps ∧
          (∀ past ∈ swaps, ¬ w.Fits past b.progress.pending.length (offset.getD 0)) ∧
          last ∈ swaps.getLast? ∧ t.progress.past = last - max (w.discard last) 0 := by
  refine ⟨fun hremove hshift => ensureRoom_eq_ok offset hremove hshift, fun r t h => ?_⟩
  have hcleared := (ends_ensureRoom_cleared w offset b).of_ok h
  obtain ⟨p, _, ⟨⟩, hrun⟩ := bind_eq_ok h
  obtain ⟨done, u, hdone, ⟨⟩⟩ := bind_eq_ok hrun
  obtain ⟨⟨n, hcut⟩, hlead, hbefore, hswaps, hlast⟩ :=
    (ends_evictions_evicts offset.isSome hk rfl hm hn).of_ok hdone done rfl
  refine ⟨n, hcut, ?_, ?_⟩
  · rcases hcleared with hfits | hnone
    · exact .inl ((fits_iff hstep).mpr hfits)
    · have hlt := evictable_lt_two hnone
      unfold evictable pinned at hlt
      exact .inr (by omega)
  · cases hover : w.overflows b.progress.past b.progress.pending.length (offset.getD 0) with
    | false =>
      have hnil : w.evictions b.progress.pending.length (offset.getD 0) b.progress.past = [] := by
        rw [evictions, hover]
        rfl
      rw [hnil] at hdone
      cases hdone
      exact ⟨(fits_iff hstep).mpr hover, rfl⟩
    | true =>
      have hne := evictions_ne_nil hover
      have hpath := ((ends_swaps w _ _ b).of_ok hdone).2 done rfl hne
      have hpast := hcut.past_eq
      have hlarge {past : Int}
          (h : w.overflows past b.progress.pending.length (offset.getD 0) = true) :
          ¬ w.Fits past b.progress.pending.length (offset.getD 0) := by
        rw [fits_iff hstep, h]
        exact Bool.noConfusion
      cases done with
      | nil => exact absurd hbefore.symm hne
      | cons first rest =>
        obtain ⟨hfirst, hafter, hdiscarded⟩ := hlead.foldl
        have hmem := List.getLast?_eq_some_getLast hne
        exact ⟨hlarge hover, hpath, hfirst, hafter, by omega, by omega, _, _, hswaps,
          fun past h => hlarge (overflows_of_mem_evictions h), hmem, hlast _ hmem⟩

/-- For a step of eight tokens ten are evicted at once beside guidance. -/
theorem ensureRoom_evicts_one_block_of_long_step :
    ∃ b t : Workbench, b.mainContext.Mirrors (Token.ofText "abcdefghijklmnop") ∧
      b.mainContext.NothingElse ∧ b.progress.pending.length = 8 ∧
      (∃ e, ensureRoom ⟨16, 3⟩ (some 2) b = .ok (some e) t ∧ e.discarded = 10) ∧
      CutsOut ⟨16, 3⟩ true (Token.ofText "abcdefghijklmnop") 10 b t ∧
      cutOut ⟨16, 3⟩ 10 (Token.ofText "abcdefghijklmnop") = Token.ofText "abcdop" := by
  let b : Workbench :=
    { engine := { mainCells := Cells.empty.write 0 (Token.ofText "abcdefghijklmnop") }
      progress :=
        { pending := Token.ofText "qrstuvwx", past := 16, guidancePast := 20, remaining := 0 } }
  have hm : b.mainContext.Mirrors (Token.ofText "abcdefghijklmnop") := ⟨rfl, by decide +kernel⟩
  have hn : b.mainContext.NothingElse := by
    intro p hp
    change (Cells.empty.write 0 (Token.ofText "abcdefghijklmnop")).get? p = none
    rw [Cells.get?_write, if_neg, Cells.get?_empty]
    rintro ⟨h₀, h₁⟩
    rcases hp with hp | hp
    · exact absurd hp (Int.not_lt.mpr h₀)
    · exact absurd h₁ (Int.not_lt.mpr hp)
  obtain ⟨r, t, hr, htest⟩ := exists_of_gives (fun r => r.map Eviction.discarded == some 10)
    (r := ensureRoom ⟨16, 3⟩ (some 2) b) (by decide +kernel)
  obtain ⟨-, h⟩ := ensureRoom_evicts_one_block (w := ⟨16, 3⟩) (some 2) (by decide) hm hn
    (by decide +kernel)
  obtain ⟨n, hcut, -, hmatch⟩ := h r t hr
  obtain ⟨e, rfl, he⟩ := Option.map_eq_some_iff.mp (eq_of_beq htest)
  have hnat : n = 10 := by
    have hdiscarded := hmatch.2.2.2.2.2.1
    omega
  exact ⟨b, t, hm, hn, by decide +kernel, ⟨e, hr, he⟩, hnat ▸ hcut, by decide +kernel⟩

end Window

end Dialogue
