import Dialogue.Proofs.Residents
import Dialogue.Proofs.Starting
/-!
# Making room

Evictions go on until the next step fits or nothing is left to evict, unless a call fails. Since the
tokens that are kept are no more than a step can be, four positions are left to others, one of them
is pinned, and at most one that is not is resident where nothing is left to evict: a step that does
not fit finds two positions free.
-/

namespace Dialogue

open Effect Workbench

namespace Window

variable {w : Window} {step : Nat} {offset past : Int}

/-- The step fits, or nothing is left to evict for it. -/
def Cleared (w : Window) (step : Nat) (offset past : Int) : Prop :=
  w.overflows past step offset = false ∨ ¬ 0 < w.discard past

/-- Where nothing is to be dropped, no two tokens are resident that are not pinned. -/
theorem evictable_lt_two (h : ¬ 0 < w.discard past) : w.evictable past < 2 := by
  refine Int.not_le.mp fun hle => h ?_
  have hd : w.discard past = w.evictable past / 2 := Int.tdiv_eq_ediv_of_nonneg (by omega)
  omega

/-- Once room is made for a step, the step fits, or two tokens of it do. -/
theorem Cleared.le_room (h : w.Cleared step offset past) (hkeep : w.keep + 4 ≤ w.size)
    (hsize : w.size < 0x80000000) (hstep : step ≤ w.maxStep) (hoffset : offset ≤ 0) :
    min 2 step ≤ w.room past offset := by
  unfold maxStep at hstep
  unfold room
  rcases h with hfits | hnone
  · have hword := Number.signedWord_of_lt (n := step) (by omega)
    simp only [overflows, hword, decide_eq_false_iff_not] at hfits
    omega
  · have hlt := evictable_lt_two hnone
    simp only [evictable, pinned] at hlt
    omega

private theorem ends_evictions (guided : Bool) (b : Workbench) (hb : b.progress.past = past) :
    Ends ((w.evictions step offset past).mapM fun _ => w.swap guided) b fun r b' =>
      match r with
      | .ok _ => w.Cleared step offset b'.progress.past
      | .error _ => b'.mainContext.failing < b.mainContext.failing := by
  -- The plan is made before the first swap; each swap moves the counter as the plan says.
  fun_induction Window.evictions w step offset past generalizing b with
  | case1 past _ hd ih =>
    rw [List.mapM_cons, ends_bind]
    apply (ends_swap w guided b).mono
    rintro r b₁ ⟨hswap, hr⟩
    cases r with
    | error e => exact hr
    | ok x =>
      have hpast := hr.2
      rw [hb, Int.max_eq_left (Int.le_of_lt hd)] at hpast
      simp only [ends_bind, ends_pure]
      apply (ih b₁ hpast).mono
      intro r b₂ h₂
      cases r with
      | error e => exact Nat.lt_of_lt_of_le h₂ hswap.failing_le
      | ok y => exact h₂
  | case2 past _ hd =>
    rw [List.mapM_cons, ends_bind]
    apply (ends_swap w guided b).mono
    rintro r b₁ ⟨-, hr⟩
    cases r with
    | error e => exact hr
    | ok x =>
      have hpast := hr.2
      rw [hb, Int.max_eq_right (Int.not_lt.mp hd), Int.sub_zero] at hpast
      simp only [List.mapM_nil, ends_bind, ends_pure]
      rw [hpast]
      exact .inr hd
  | case3 past hfits =>
    rw [List.mapM_nil, ends_pure, hb]
    exact .inl (Bool.eq_false_iff.mpr hfits)

/-- As much room is made for the pending tokens as there can be, unless a call fails. -/
theorem ends_ensureRoom_cleared (w : Window) (offset : Option Int) (b : Workbench) :
    Ends (w.ensureRoom offset) b fun r b' =>
      match r with
      | .ok _ => w.Cleared b.progress.pending.length (offset.getD 0) b'.progress.past
      | .error _ => b'.mainContext.failing < b.mainContext.failing := by
  simp only [ensureRoom, ends_bind, ends_get]
  apply (ends_evictions _ b rfl).mono
  intro r b' h
  cases r with
  | error e => exact h
  | ok l => exact h

end Window

namespace Session

variable {s t : Session}

/-- A session whose context is swapped where it is full. -/
structure Swapping (s : Session) : Prop where
  /-- The tokens that are kept leave positions to others. -/
  keep_add_le : s.window.keep + 4 ≤ s.window.size
  /-- Positions are signed words. -/
  size_lt : s.window.size < 0x80000000
  /-- A step can have tokens. -/
  maxStep_pos : 0 < s.window.maxStep
  /-- Guidance takes no positions. -/
  offset_le : s.offset ≤ 0
  /-- A full context does not end the turn. -/
  predict_ne : s.config.predict ≠ -2

/-- Whether the context is swapped where it is full depends on what is settled only. -/
theorem Swapping.of_settled (h : s.Swapping) (ht : t.settled = s.settled) : t.Swapping := by
  obtain ⟨hkeep, hsize, hmax, hoffset, hpredict⟩ := h
  rw [← window_of_settled ht] at hkeep hsize hmax
  rw [← offset_of_settled ht] at hoffset
  rw [← config_of_settled ht] at hpredict
  exact ⟨hkeep, hsize, hmax, hoffset, hpredict⟩

/-- The tokens that are kept are no more than a step can be. -/
theorem Begun.swapping {config : Config} {engine : Engine} {directory : Directory}
    (h : Begun config engine directory s) (hoffset : s.offset ≤ 0) (hp : config.predict ≠ -2) :
    s.Swapping := by
  have hne := List.length_pos_iff.mpr h.queue_ne_nil
  have hkeep := h.keep_le
  have hmax := h.queue_le
  have hstep : s.window.maxStep = (s.window.size - 4).toNat := rfl
  refine ⟨?_, ?_, Nat.lt_of_lt_of_le hne hmax, hoffset, ?_⟩
  · omega
  · rw [h.size]
    exact Number.signedWord_lt _
  · rwa [h.predict]

/-! ### Arriving -/

/-- Cutting leaves as many tokens as is asked for, or all there are. It fails only where the output
takes no more bytes. -/
theorem ends_cutPending_length (n : Nat) (s : Session) :
    Ends (cutPending n) s fun r t =>
      (r = .error (.io .outputFull) ∨ r = .ok ()) ∧ t.settled = s.settled ∧
        t.progress.pending.length = min n s.progress.pending.length ∧
        t.mainContext.failing = s.mainContext.failing := by
  have hresult : Ends (cutPending n) s fun r _ => r = .error (.io .outputFull) ∨ r = .ok () := by
    simp only [cutPending, ends_bind, ends_get, ends_onlyIf]
    split
    · rw [ends_advance, ends_report]
      apply (ends_write _ _).mono
      rintro r t ⟨-, hr⟩
      exact hr.imp_right And.left
    · exact .inr trivial
  apply ((ends_cutPending n s).and hresult).mono
  rintro r t ⟨⟨hs, hv⟩, hr⟩
  have hpending : t.progress.pending = s.progress.pending.take n :=
    congrArg MainContext.pending hv
  refine ⟨hr, hs, ?_, ?_⟩
  · rw [hpending, List.length_take]
  · rw [hv]
    rfl

private theorem ends_makeRoom_cleared (s : Session) :
    Ends makeRoom s fun r t =>
      match r with
      | .ok _ => s.window.Cleared s.progress.pending.length s.offset t.progress.past
      | .error _ => t.mainContext.failing < s.mainContext.failing := by
  simp only [makeRoom, ends_bind, ends_get, ends_discard, ends_onBench]
  apply (Window.ends_ensureRoom_cleared _ _ s.toWorkbench).mono
  intro r b h
  cases r with
  | error e => exact h
  | ok x => exact h

/-- Whatever step is to be evaluated, two tokens of it arrive, or all that it is cut to, unless a
call fails or the output takes no more bytes. -/
theorem Swapping.ends_arrive (h : s.Swapping) (hne : s.progress.pending ≠ []) :
    Ends arrive s fun r t =>
      match r with
      | .ok none =>
        min 2 (min s.progress.pending.length s.window.maxStep) ≤ t.progress.pending.length ∧
          t.mainContext.failing ≤ s.mainContext.failing
      | .ok (some _) => False
      | .error e => e = .io .outputFull ∨ t.mainContext.failing < s.mainContext.failing := by
  have hpos := List.length_pos_iff.mpr hne
  have hmax := h.maxStep_pos
  simp only [arrive, ends_bind, ends_get]
  apply (ends_cutPending_length _ s).mono
  rintro _ s₁ ⟨rfl | rfl, hs₁, hstep, hfailing₁⟩
  · exact .inl rfl
  have hgoes : (s₁.config.predict = -2 && s₁.overflows) = false := by
    rw [config_of_settled hs₁, decide_eq_false h.predict_ne, Bool.false_and]
  simp only [ends_bind, ends_get, ends_ite, ends_report, ends_pure, hgoes, Bool.false_eq_true,
    if_false]
  apply ((ends_makeRoom s₁).and (ends_makeRoom_cleared s₁)).mono
  rintro r s₂ ⟨⟨hs₂, hswaps, -⟩, hr⟩
  have hfailing₂ := hswaps.failing_le
  rw [hfailing₁] at hfailing₂ hr
  cases r with
  | error e => exact .inr hr
  | ok _ =>
    have hpending : s₂.progress.pending = s₁.progress.pending := hswaps.pending_eq
    have hroom : min 2 s₁.progress.pending.length ≤ s₂.room := by
      rw [hs₁] at hs₂
      rw [window_of_settled hs₁, offset_of_settled hs₁] at hr
      rw [room, window_of_settled hs₂, offset_of_settled hs₂]
      exact hr.le_room h.keep_add_le h.size_lt (by omega) h.offset_le
    dsimp only
    rw [if_neg (by omega)]
    apply (ends_cutPending_length _ s₂).mono
    rintro _ s₃ ⟨rfl | rfl, -, hlength, hfailing₃⟩
    · exact .inl rfl
    rw [hpending] at hlength
    exact ⟨by omega, by omega⟩

end Session

end Dialogue
