import Dialogue.Proofs.GuidanceSteps
import Dialogue.Proofs.MakingRoom
import Dialogue.Proofs.Taking
import Dialogue.Proofs.Turns
import Dialogue.Session.TurnSteps
/-!
# Guided draws

A draw is guided if the last step of guidance succeeded. A dialogue that begins anew forgets that
step, and so does a turn that is given up because decoding failed too often in a row.
-/

namespace Dialogue

open Effect

/-- A draw is logged, whether or not it fails. -/
theorem Engine.ends_sample_draws (guided : Bool) (e : Engine) :
    Ends (Engine.sample guided) e fun _ e' => e'.draws = e.draws ++ [guided] := by
  have hdraws : (e.asked guided).draws = e.draws ++ [guided] := by
    simp [Engine.asked, Engine.draws, Call.draw?]
  rw [ends_sample]
  split
  · exact hdraws
  · exact hdraws

namespace Session

variable {s t u : Session}

/-- Whether the step of guidance of a pass succeeds, if the pass has one. -/
def guidanceStep? (s : Session) : Option Bool :=
  if s.progress.pending = [] then none
  else
    match arrive s with
    | .ok none u => u.reusing.stepSucceeds?
    | _ => none

/-- Whether the last step of guidance succeeded, if there was one, after a pass. -/
def noteGuidance (last : Option Bool) (s : Session) : Option Bool :=
  match outcome (evaluatePending s) with
  | .error (.decodeFailed ..) => none
  | _ => s.guidanceStep?.or last

/-- Which of the draws of a pass are guided. -/
def passDraws (s : Session) : List Bool := (left (pass s)).engine.draws.drop s.engine.draws.length

/-- Without guidance there is no step of it. -/
theorem guidanceStep?_eq_none (h : s.guidance = none) : s.guidanceStep? = none := by
  unfold guidanceStep?
  split
  · rfl
  · split
    · next u hu =>
      have hguidance : u.guidance = s.guidance :=
        guidance_of_settled ((ends_arrive s).of_ok hu).1
      change u.guidance.map _ = none
      rw [hguidance, h]
      rfl
    · rfl

/-! ### Evaluating -/

/-- Nothing that comes before a step is fed gives the turn up because of decoding. -/
theorem ends_arrive_ne (s : Session) :
    Ends arrive s fun r _ => ∀ n e, r ≠ .error (.decodeFailed n e) := by
  have hroom (s : Session) : Ends makeRoom s fun r _ => ∀ e, r = .error e → ∃ cause,
      e = .engine cause := by
    simp only [makeRoom, ends_bind, ends_get, ends_discard, ends_onBench]
    rw [ends_iff_outcome]
    cases outcome (Window.ensureRoom _ _ s.toWorkbench) with
    | ok x => rintro _ ⟨⟩
    | error cause =>
      rintro _ ⟨⟩
      exact ⟨cause, rfl⟩
  simp only [arrive, ends_bind, ends_get]
  apply (ends_cutPending_length _ s).mono
  rintro _ s₁ ⟨rfl | rfl, -⟩
  · rintro _ _ ⟨⟩
  · simp only [ends_bind, ends_get, ends_ite, ends_report, ends_pure]
    split
    · rintro _ _ ⟨⟩
    · apply (hroom s₁).mono
      intro r s₂ hr
      cases r with
      | error e =>
        obtain ⟨cause, rfl⟩ := hr e rfl
        rintro _ _ ⟨⟩
      | ok _ =>
        dsimp only
        split
        · rintro _ _ ⟨⟩
        · apply (ends_cutPending_length _ s₂).mono
          rintro _ s₃ ⟨rfl | rfl, -⟩ <;> rintro _ _ ⟨⟩

/-- What evaluating makes of the guidance for the next draw. -/
theorem ends_evaluatePending_ready (s : Session) :
    Ends evaluatePending s fun r t => t.engine.draws = s.engine.draws ∧
      t.guidance = s.guidance ∧
      t.progress.guidanceReady =
        match r with
        | .error (.decodeFailed ..) => false
        | _ => s.guidanceStep?.getD s.progress.guidanceReady := by
  have harrive : Ends arrive s fun _ t => t.engine.draws = s.engine.draws ∧
      t.guidance = s.guidance ∧ t.progress.guidanceReady = s.progress.guidanceReady := by
    apply ((ends_arrive s).and (ends_arrive_relativeGuidance s)).mono
    rintro r t ⟨⟨hs, -⟩, hdraws, hcontext, -⟩
    exact ⟨hdraws, guidance_of_settled hs, congrArg GuidanceContext.ready hcontext⟩
  by_cases hne : s.progress.pending = []
  · simp only [evaluatePending, ends_bind, ends_get, if_pos hne, ends_pure, guidanceStep?]
    exact ⟨trivial, trivial, rfl⟩
  · apply ends_evaluatePending_of
    · exact fun hnil => absurd hnil hne
    · have hnone : Ends arrive s fun r _ => r ≠ .ok none → s.guidanceStep? = none := by
        unfold Ends guidanceStep?
        rw [if_neg hne]
        cases arrive s with
        | error e t => exact fun _ => rfl
        | ok stop t =>
          cases stop with
          | none => exact fun h => absurd rfl h
          | some reason => exact fun _ => rfl
      apply ((harrive.and (ends_arrive_ne s)).and hnone).mono
      rintro r t ⟨⟨⟨hdraws, hguidance, hready⟩, hfailed⟩, hnone⟩ hr
      refine ⟨hdraws, hguidance, ?_⟩
      rw [hready, hnone hr]
      split
      · exact absurd rfl (hfailed _ _)
      · rfl
    · intro u hu
      obtain ⟨hdraws, hguidance, hready⟩ := harrive.of_ok hu
      have hstep : s.guidanceStep? = u.reusing.stepSucceeds? := by
        rw [guidanceStep?, if_neg hne, hu]
      apply ((ends_feedRest u).and (ends_feedRest_taken u)).mono
      rintro r t ⟨⟨hs, -⟩, hdraws', v, -, hv, hr⟩
      have hguidance' := guidance_of_settled hs
      refine ⟨hdraws'.trans hdraws, hguidance'.trans hguidance, ?_⟩
      rw [hstep, ← hready, ← hv]
      rcases hr with ⟨rfl, hcontext⟩ | ⟨⟨n, e, rfl⟩, hcontext⟩
      · exact congrArg GuidanceContext.ready hcontext
      · exact congrArg GuidanceContext.ready hcontext

/-! ### Drawing -/

/-- A draw is guided if there is guidance and it is ready. -/
theorem ends_drawNext_draws (s : Session) :
    Ends drawNext s fun _ t => t.engine.draws = s.engine.draws ∨
      t.engine.draws = s.engine.draws ++ [s.guidance.isSome && s.progress.guidanceReady] := by
  rw [drawNext, ends_bind]
  apply (Ends.keeps inStep_savePrompt.keeps_left).mono
  intro r t ht
  obtain ⟨hguidance, hcontext, hdraws⟩ := guidanceView_eq ht
  have hready : t.progress.guidanceReady = s.progress.guidanceReady :=
    congrArg GuidanceContext.ready hcontext
  cases r with
  | error e => exact .inl hdraws
  | ok _ =>
    rw [← hdraws, ← hguidance, ← hready]
    dsimp only
    rw [ends_bind, ends_get]
    dsimp only
    rw [ends_bind, ends_call]
    apply (Engine.ends_sample_draws _ _).mono
    intro r e he
    cases r with
    | error cause => exact .inr he
    | ok token =>
      have hrest (guided : Bool) (remaining : Int) : Keeps guidanceView (do
          accept token true
          report (.sampled token guided remaining)
          advance fun p =>
            { p with
              pending := p.pending ++ [token]
              echo := true
              remaining := p.remaining - 1 }) := by
        refine .bind (inStep_accept _ _).keeps_left fun _ => ?_
        exact .bind (inStep_report _).keeps_left fun _ => .modify fun _ => rfl
      apply (Ends.keeps (hrest _ _)).mono
      intro r u hu
      exact .inr ((guidanceView_eq hu).2.2.trans he)

/-- What filling the next step adds to the draws. -/
theorem ends_refill_draws (s : Session) :
    Ends refill s fun _ t => t.engine.draws = s.engine.draws ∨
      t.engine.draws = s.engine.draws ++ [s.guidance.isSome && s.progress.guidanceReady] := by
  simp only [refill, ends_bind, ends_get, ends_ite, enter, ends_modify]
  split
  · split
    · exact .inl rfl
    · exact ends_drawNext_draws _
  · apply (Ends.keeps inStep_drainQueue.keeps_left).mono
    intro r t ht
    exact .inl (guidanceView_eq ht).2.2

/-- What taking the next step adds to the draws. -/
theorem ends_takeStep_draws (s : Session) :
    Ends takeStep s fun _ t => t.engine.draws = s.engine.draws ∨
      t.engine.draws = s.engine.draws ++ [s.guidance.isSome && s.progress.guidanceReady] := by
  rw [takeStep, ends_bind, clearPending, ends_advance]
  rw [ends_bind]
  apply (ends_refill_draws _).mono
  intro r t ht
  cases r with
  | error e => exact ht
  | ok _ =>
    have hrest : Keeps guidanceView (display >>= fun _ => conclude) :=
      .bind inStep_display.keeps_left fun _ => inStep_conclude.keeps_left
    apply (Ends.keeps hrest).mono
    intro r u hu
    rw [(guidanceView_eq hu).2.2]
    exact ht

/-- What a pass makes of the guidance for the next draw, and which of its draws are guided. -/
theorem pass_ready (s : Session) :
    (left (pass s)).guidance = s.guidance ∧
      (left (pass s)).progress.guidanceReady =
        (match outcome (evaluatePending s) with
        | .error (.decodeFailed ..) => false
        | _ => s.guidanceStep?.getD s.progress.guidanceReady) ∧
      ∀ guided ∈ s.passDraws,
        guided = (s.guidance.isSome && s.guidanceStep?.getD s.progress.guidanceReady) := by
  by_cases hgo : ∃ t, evaluatePending s = .ok none t
  · obtain ⟨t, ht⟩ := hgo
    obtain ⟨hdraws, hguidance, hready⟩ := (ends_evaluatePending_ready s).of_ok ht
    have hpass := left_pass_of_goes_on ht
    have hcontext := inStep_takeStep.keeps_left t
    have hsettled := ((ends_takeStep t).mono fun _ _ h => h.1).left
    have hstep := (ends_takeStep_draws t).left
    rw [← hpass] at hcontext hsettled hstep
    rw [ht]
    refine ⟨?_, ?_, ?_⟩
    · exact (guidance_of_settled hsettled).trans hguidance
    · exact (congrArg GuidanceContext.ready hcontext).trans hready
    · intro guided hmem
      rw [passDraws] at hmem
      rw [hdraws, hguidance, hready] at hstep
      rcases hstep with heq | heq
      · rw [heq, List.drop_length] at hmem
        cases hmem
      · rw [heq, List.drop_left, List.mem_singleton] at hmem
        exact hmem
  · obtain ⟨hdraws, hguidance, hready⟩ := ends_iff_outcome.mp (ends_evaluatePending_ready s)
    obtain ⟨hguidance', hcontext, hdraws'⟩ :=
      guidanceView_eq (keeps_pass_of_ends
        (fun reason => (inStep_finish .terminated reason).keeps_left)
        fun t ht => hgo ⟨t, ht⟩)
    refine ⟨hguidance'.trans hguidance, ?_, ?_⟩
    · exact (congrArg GuidanceContext.ready hcontext).trans hready
    · intro guided hmem
      rw [passDraws, hdraws', hdraws, List.drop_length] at hmem
      cases hmem

/-! ### Throughout -/

/-- Guidance is ready for the next draw if the last step of guidance succeeded. -/
theorem notedInvariant_ready :
    NotedInvariant noteGuidance (fun _ => none) (fun _ => True) fun last s =>
      s.progress.guidanceReady = last.getD false ∧ (s.guidance = none → last = none) where
  showing _ _ _ h := h
  pass := by
    rintro last s ⟨hready, hnone⟩
    obtain ⟨hguidance, hready', -⟩ := pass_ready s
    refine ⟨?_, ?_⟩
    · rw [hready', hready, noteGuidance]
      split
      · rfl
      · cases s.guidanceStep? <;> rfl
    · intro hg
      rw [hguidance] at hg
      rw [noteGuidance, guidanceStep?_eq_none hg, hnone hg]
      split <;> rfl
  query := by
    rintro last s text room ⟨hready, hnone⟩
    obtain ⟨hguidance, hcontext, -⟩ :=
      guidanceView_eq ((inStep_query text).keeps_left (s.showing room))
    refine ⟨?_, ?_⟩
    · exact (congrArg GuidanceContext.ready hcontext).trans hready
    · rw [hguidance]
      exact hnone
  reset _ _ _ _ := ⟨rfl, fun _ => rfl⟩

/-- In every pass a draw is guided just if there was a step of guidance since the dialogue began
anew and since a turn was given up, and the last one succeeded. -/
theorem guided_iff_of_noted {s t : Session} {requests : List Request} {last : Option Bool}
    (h : s.reset = s) (ht : s.AtNotedPass noteGuidance (fun _ => none) none requests last t) :
    ∀ guided ∈ t.passDraws, guided = true ↔ t.guidanceStep?.or last = some true := by
  have hbegins : s.progress.guidanceReady = (none : Option Bool).getD false ∧
      (s.guidance = none → (none : Option Bool) = none) := by
    rw [← h]
    exact ⟨rfl, fun _ => rfl⟩
  obtain ⟨hready, hnone⟩ :=
    notedInvariant_ready.atNotedPass hbegins (fun _ _ => trivial) ht
  intro guided hmem
  have hguided := (pass_ready t).2.2 guided hmem
  rw [hguided, hready]
  cases hg : t.guidance with
  | none =>
    rw [guidanceStep?_eq_none hg, hnone hg]
    simp
  | some g => cases t.guidanceStep? <;> cases last <;> simp

end Session

end Dialogue
