import Dialogue.Proofs.MakingRoom
import Dialogue.Proofs.Taking
import Dialogue.Proofs.Throughout
/-!
# Sessions that are swapped

In a session whose context is swapped where it is full, no turn ends because the context is full.
A step that is evaluated makes two tokens resident, or all there are once it was cut to what a step
can be; only a call that fails, or an output that takes no more bytes, keeps it from that.
-/

namespace Dialogue

open Effect

/-! ### Feeding a step -/

/-- A batch that could not be decoded uses up a failure. -/
theorem Fed.failing_lt {l : List (List Token)} {p : Int} {n : Nat} {v u : MainContext}
    {e : DecodeError} (h : Fed l p n v (.error e) u) : u.failing < v.failing := by
  generalize hr : Except.error e = r at h
  induction h with
  | done => cases hr
  | @failed _ _ _ _ v _ h =>
    have hcount := Faults.count_tail v.decodeFaults
    rw [h, Bool.toNat_true] at hcount
    simp only [MainContext.failing]
    omega
  | @next _ _ _ _ v _ _ h _ ih =>
    have hcount := Faults.count_tail v.decodeFaults
    rw [h, Bool.toNat_false, Nat.add_zero] at hcount
    simpa only [MainContext.failing, hcount] using ih hr

private theorem MainContext.failing_log (v : MainContext) (n : Nat) :
    (v.log n).failing = v.failing := by
  unfold log
  split <;> rfl

/-- The whole step is decoded, unless that uses up a failure. -/
theorem FedStep.past_eq_or {n : Nat} {v u : MainContext} (h : FedStep n v u) :
    u.past = v.past + v.pending.length ∨ u.failing < v.failing := by
  cases h with
  | whole h =>
    obtain ⟨tokens, -, -, -, hpast, -, rfl⟩ := h.decoded
    rw [flatten_pieces] at hpast
    left
    rw [← hpast]
    unfold MainContext.log
    split <;> rfl
  | partly h =>
    right
    rw [MainContext.failing_log]
    exact h.failing_lt
  | givenUp h =>
    right
    change (MainContext.log _ _).failing < _
    rw [MainContext.failing_log]
    exact h.failing_lt

namespace Session

variable {s t : Session}

/-- What is not skipped of a step is decoded, unless a call fails. -/
theorem ends_feedRest_whole (s : Session) :
    Ends feedRest s fun _ t => s.decodedSince t = s.mainContext.reuse.pending ∨
      t.mainContext.failing < s.mainContext.failing := by
  apply ((ends_feedRest s).and (ends_feedRest_tally s)).mono
  rintro r t ⟨⟨-, hf⟩, done, failed, hd, htake, ht, -⟩
  refine hf.past_eq_or.imp_left fun hpast => ?_
  have hlength : done.flatten.length = s.mainContext.reuse.pending.length := by
    have hcount := hd.past
    omega
  rw [hlength, List.take_length] at htake
  rw [decodedSince, ht, Tally.fed, List.drop_left, Batch.flatMap_tokens_laid, htake]

/-- An evaluation does not end the turn. It makes two tokens of a step resident, or all that it is
cut to, unless a call fails or the output takes no more bytes. -/
theorem Swapping.ends_evaluatePending (h : s.Swapping) :
    Ends evaluatePending s fun r t => (∀ reason, r ≠ .ok (some reason)) ∧
      (r = .error (.io .outputFull) ∨ t.mainContext.failing < s.mainContext.failing ∨
        s.reused ++ s.decodedSince t <+: s.progress.pending ∧
          min 2 (min s.progress.pending.length s.window.maxStep) ≤
            (s.reused ++ s.decodedSince t).length) := by
  by_cases hne : s.progress.pending = []
  · simp only [evaluatePending, ends_bind, ends_get, if_pos hne, ends_pure]
    refine ⟨by rintro _ ⟨⟩, .inr (.inr ?_)⟩
    rw [reused_of_pending_eq_nil hne, decodedSince_of_batches rfl, hne]
    exact ⟨List.nil_prefix, Nat.le_trans (Nat.min_le_right 2 _) (Nat.min_le_left 0 _)⟩
  · have harrives := h.ends_arrive hne
    apply ends_evaluatePending_of
    · exact fun hnil => absurd hnil hne
    · apply harrives.mono
      intro r t ha hr
      cases r with
      | error e =>
        refine ⟨by rintro _ ⟨⟩, ?_⟩
        rcases ha with rfl | hfewer
        · exact .inl rfl
        · exact .inr (.inl hfewer)
      | ok stop =>
        cases stop with
        | none => exact absurd rfl hr
        | some reason => exact ha.elim
    · intro u hu
      -- What arrived is skipped in part and decoded in part, and both are resident then.
      obtain ⟨hlength, hfailing⟩ := harrives.of_ok hu
      obtain ⟨_, hs, -⟩ := (ends_arrive_told s).of_ok hu
      apply (ends_feedRest_whole u).mono
      intro r t ht
      refine ⟨by cases r <;> rintro _ ⟨⟩, .inr ?_⟩
      rcases ht with hdecoded | hfewer
      · right
        have hresident : s.reused ++ s.decodedSince t = u.progress.pending := by
          have hsame : s.decodedSince t = u.decodedSince t := by
            rw [decodedSince, decodedSince, hs.tally]
          rw [reused_of_arrive hu, hsame, hdecoded]
          exact List.take_append_drop _ _
        rw [hresident]
        exact ⟨hs.pending, hlength⟩
      · exact .inl (Nat.lt_of_lt_of_le hfewer hfailing)

/-! ### How turns end -/

/-- Whether a computation never ends the turn because the context is full. -/
def NeverFull (x : SessionM (Option Outcome)) : Prop :=
  ∀ s, Ends x s fun r _ => ∀ outcome, r = .ok (some outcome) → outcome.reason ≠ .contextFull

private theorem NeverFull.bind {α : Type} {x : SessionM α} {g : α → SessionM (Option Outcome)}
    (hg : ∀ a, NeverFull (g a)) : NeverFull (x >>= g) := by
  intro s
  rw [ends_bind]
  apply (Ends.keeps (f := fun _ => ()) fun _ => rfl).mono
  intro r t _
  cases r with
  | ok a => exact hg a t
  | error e => exact nofun

private theorem NeverFull.ite {c : Prop} [Decidable c] {x y : SessionM (Option Outcome)}
    (hx : NeverFull x) (hy : NeverFull y) : NeverFull (if c then x else y) := by
  split
  · exact hx
  · exact hy

private theorem neverFull_finish {reason : StopReason} (h : reason ≠ .contextFull) (phase : Phase) :
    NeverFull (return some (← finish phase reason)) := by
  rintro s _ ⟨⟩
  exact h

private theorem neverFull_finishIfUserTurn {reason : StopReason} (h : reason ≠ .contextFull) :
    NeverFull (finishIfUserTurn reason) :=
  .bind fun _ => .ite (neverFull_finish h _) fun _ _ => nofun

private theorem reasonOf_ne_contextFull (spent : Bool) (h : Handback) :
    reasonOf spent h ≠ .contextFull := by
  unfold reasonOf
  split
  · decide
  · split
    · decide
    · split <;> decide

private theorem neverFull_conclude : NeverFull conclude := by
  have hdrained (spent : Bool) : NeverFull (concludeDrained spent) :=
    .bind fun _ => .ite (.bind fun _ => neverFull_finish (by decide) _)
      (neverFull_finishIfUserTurn (reasonOf_ne_contextFull _ _))
  refine .bind fun _ => .bind fun _ => .ite (neverFull_finish (by decide) _)
    (.ite (hdrained _) (neverFull_finishIfUserTurn ?_))
  split <;> decide

private theorem neverFull_takeStep : NeverFull takeStep := by
  refine .bind fun _ => ?_
  refine .bind fun _ => ?_
  exact .bind fun _ => neverFull_conclude

private theorem Swapping.ends_pass (h : s.Swapping) :
    Ends pass s fun r _ =>
      ∀ outcome, r = .ok (some outcome) → outcome.reason ≠ .contextFull := by
  rw [pass, ends_bind]
  apply h.ends_evaluatePending.mono
  rintro r t ⟨hgoes, -⟩
  cases r with
  | error e => rintro _ ⟨⟩
  | ok stop =>
    cases stop with
    | none => exact neverFull_takeStep t
    | some reason => exact absurd rfl (hgoes reason)

private theorem Swapping.reason_answer (h : s.Swapping) {outcome : Outcome}
    (ha : answer s = .ok outcome t) : outcome.reason ≠ .contextFull := by
  fun_induction Session.answer s with
  | case1 => cases ha
  | case2 s _ _ hpass =>
    cases ha
    exact h.ends_pass.of_ok hpass _ rfl
  | case3 s u hpass ih => exact ih (h.of_settled ((Session.ends_pass s).of_ok hpass).1) ha

/-! ### Dialogues -/

private theorem invariant_swapping : Invariant (fun _ _ => True) Swapping where
  showing := fun _ _ h => h.of_settled rfl
  pass := fun s h => h.of_settled ((Session.ends_pass s).mono fun _ _ ht => ht.1).left
  query := fun s text room h _ =>
    h.of_settled ((ends_query text (s.showing room)).mono fun _ _ ht => ht.1).left
  reset := fun _ h _ => h.of_settled rfl

/-- What becomes resident in a pass is what does in the evaluation that it begins with. -/
theorem passResident_eq (s : Session) :
    s.passResident = s.reused ++ s.decodedSince (left (evaluatePending s)) := by
  have hbatches : (left (pass s)).tally.batches = (left (evaluatePending s)).tally.batches := by
    by_cases h : ∃ t, evaluatePending s = .ok none t
    · obtain ⟨t, ht⟩ := h
      rw [left_pass_of_goes_on ht, ht, tally_takeStep]
      rfl
    · rw [(left_pass_of_ends fun t ht => h ⟨t, ht⟩).1]
  rw [passResident, decodedSince_congr hbatches]

/-- Whether no call on the main context fails while the pending tokens are evaluated: as many
failures are to come after it. -/
def Faultless (s : Session) : Prop :=
  (left (evaluatePending s)).mainContext.failing = s.mainContext.failing

/-- Whether no call fails can be found out by evaluating. -/
instance (s : Session) : Decidable s.Faultless :=
  inferInstanceAs (Decidable (_ = _))

/-- In a session whose context is swapped and in which guidance takes no positions, no turn ends
because the context is full, whatever fails. However many tokens are kept, every evaluation in which
no call fails and which is not cut short by the output makes two pending tokens resident, or all
that are left of them once they were cut to what a step can be. -/
theorem swapped_session_goes_on {now : Nat} {config : Config} {engine : Engine}
    {directory : Directory} {s : Session} {w : Workbench}
    (h : Session.start now config engine directory = .ok s w) (hoffset : s.offset ≤ 0)
    (hpredict : config.predict ≠ -2) (requests : List Request) :
    (∀ room outcome t, answer ((s.serveAll requests).showing room) = .ok outcome t →
      outcome.reason ≠ .contextFull) ∧
    ∀ t, s.AtPass requests t → t.Faultless →
      (∀ u, evaluatePending t ≠ .error (.io .outputFull) u) →
      t.passResident <+: t.progress.pending ∧
        min 2 (min t.progress.pending.length t.window.maxStep) ≤ t.passResident.length := by
  have hswapping : s.Swapping := (start_eq_ok h).swapping hoffset hpredict
  have hall : s.AllAllowed (fun _ _ => True) requests := allAllowed_true s requests
  constructor
  · intro room outcome t ha
    have hserved := invariant_swapping.serveAll hswapping hall
    exact (invariant_swapping.showing _ room hserved).reason_answer ha
  · intro t ht hfaultless hshown
    have hevaluates := (invariant_swapping.atPass hswapping hall ht).ends_evaluatePending
    obtain ⟨r, ⟨-, hr⟩, -, herror⟩ := hevaluates.exists_left
    rw [passResident_eq]
    rcases hr with hfull | hfewer | hresident
    · obtain ⟨u, hu⟩ := (herror _).mp hfull
      exact absurd hu (hshown u)
    · exact absurd hfewer (Nat.not_lt.mpr (Nat.le_of_eq hfaultless.symm))
    · exact hresident

/-- Of a query longer than the room that a swap makes as much is taken in as fits, and its answer
does not end for want of room. -/
theorem swapped_session_goes_on_of_long_query :
    ∃ s w t, Session.start 0 { prompt := "abcd" }
        { contextSize := 8, script := Token.ofText "efghi" } {} = .ok s w ∧
      s.window.keep = 4 ∧ s.AtPass [.answer none, .query "uvwxyz" none] t ∧
      t.progress.pending.length = 6 ∧ t.passResident.length = 2 ∧
      t.passResident <+: t.progress.pending ∧
      min 2 (min t.progress.pending.length t.window.maxStep) ≤ t.passResident.length ∧
      ∀ room outcome u,
        answer ((s.serveAll [.answer none, .query "uvwxyz" none]).showing room) = .ok outcome u →
          outcome.reason ≠ .contextFull := by
  obtain ⟨s, w, h, htest⟩ := exists_of_gives
    (fun s : Session => decide (s.offset ≤ 0) && decide (s.window.keep = 4) &&
      goesOn (fun t : Session => decide t.Faultless && gives (fun _ => true) (evaluatePending t) &&
          decide (t.progress.pending.length = 6) && decide (t.passResident.length = 2))
        ((s.serveAll [.answer none, .query "uvwxyz" none]).showing none))
    (r := Session.start 0 { prompt := "abcd" }
      { contextSize := 8, script := Token.ofText "efghi" } {}) (by decide +kernel)
  simp only [Bool.and_eq_true, decide_eq_true_eq] at htest
  obtain ⟨⟨hoffset, hkeep⟩, hgoes⟩ := htest
  obtain ⟨t, ht, htest⟩ := exists_of_goesOn hgoes
  simp only [Bool.and_eq_true, decide_eq_true_eq] at htest
  obtain ⟨⟨⟨hfaultless, hgives⟩, hpending⟩, hresident⟩ := htest
  obtain ⟨hreasons, hsteps⟩ := swapped_session_goes_on h hoffset (by decide)
    [.answer none, .query "uvwxyz" none]
  obtain ⟨hfirst, hlength⟩ := hsteps t ht hfaultless fun u hu => by
    obtain ⟨_, _, hok, -⟩ := exists_of_gives _ hgives
    cases hok.symm.trans hu
  exact ⟨s, w, t, h, hkeep, ht, hpending, hresident, hfirst, hlength, hreasons⟩

/-- Where the output takes no more bytes, the notice of a cut is not shown, and none of the step is
fed although no call fails. -/
theorem unfed_step_of_full_output :
    ∃ s w t, Session.start 0 { prompt := "ab" } { contextSize := 8 } {} = .ok s w ∧
      s.offset ≤ 0 ∧ s.config.predict ≠ -2 ∧ s.AtPass [.answer none, .query "cdefgh" none] t ∧
      t.engine.faults = {} ∧ t.Faultless ∧
      min 2 (min t.progress.pending.length t.window.maxStep) = 2 ∧ t.passResident = [] := by
  obtain ⟨s, w, h, htest⟩ := exists_of_gives
    (fun s : Session => decide (s.offset ≤ 0) && decide (s.config.predict ≠ -2) &&
      goesOn (fun t : Session => decide (t.engine.faults = {}) && decide t.Faultless &&
          decide (min 2 (min t.progress.pending.length t.window.maxStep) = 2) &&
          decide (t.passResident = []))
        ((s.serveAll [.answer none, .query "cdefgh" none]).showing (some 0)))
    (r := Session.start 0 { prompt := "ab" } { contextSize := 8 } {}) (by decide +kernel)
  simp only [Bool.and_eq_true, decide_eq_true_eq] at htest
  obtain ⟨⟨hoffset, hpredict⟩, hgoes⟩ := htest
  obtain ⟨t, ht, htest⟩ := exists_of_goesOn hgoes
  simp only [Bool.and_eq_true, decide_eq_true_eq] at htest
  obtain ⟨⟨⟨hfaults, hfaultless⟩, hmin⟩, hresident⟩ := htest
  exact ⟨s, w, t, h, hoffset, hpredict, ht, hfaults, hfaultless, hmin, hresident⟩

end Session

end Dialogue
