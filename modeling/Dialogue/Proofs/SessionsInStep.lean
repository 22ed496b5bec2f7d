import Dialogue.Proofs.Arriving
import Dialogue.Proofs.GuidanceContext
import Dialogue.Proofs.Requests
import Dialogue.Session.Pass
/-!
# Sessions in step

Nothing that a session does depends on its guidance context but a step of guidance, and this does
not show elsewhere. So two sessions that look the same when guidance is disregarded stay so, and
what comes before a step of guidance and after it leaves the guidance context alone, except that an
eviction takes as much off its counter as off the other one.
-/

namespace Dialogue

open Effect

namespace Session

variable {ε α : Type} {κ : Type}

/-- The session when guidance is disregarded. -/
def plain (s : Session) : Session := { s with toWorkbench := s.toWorkbench.plain }

/-- The guidance context. -/
def guidanceContext (s : Session) : GuidanceContext := s.toWorkbench.guidanceContext

/-- What guidance there is, the guidance context, which draws were guided, and how many tokens are
resident in the main context. -/
def guidanceView (s : Session) : Option Guidance × (GuidanceContext × List Bool) × Int :=
  (s.guidance, s.toWorkbench.guidanceView)

/-- The guidance context, with its counter counted back from the one of the main context if there is
guidance, and which draws were guided. -/
def relativeGuidance (s : Session) : GuidanceContext × List Bool :=
  s.toWorkbench.relativeGuidance s.guidance.isSome

/-- What there is of guidance stays, each part of it. -/
theorem guidanceView_eq {s t : Session} (h : t.guidanceView = s.guidanceView) :
    t.guidance = s.guidance ∧ t.guidanceContext = s.guidanceContext ∧
      t.engine.draws = s.engine.draws :=
  ⟨congrArg (·.1) h, congrArg (·.2.1.1) h, congrArg (·.2.1.2) h⟩

/-! ### Work on the bench -/

/-- Work on workbenches is in step on sessions if it is there. -/
theorem inStep_onBench (wrap : ε → SessionError) {k : Workbench → κ} {x y : WorkM ε α}
    (h : InStep Workbench.plain k x y) :
    InStep plain (fun s => (s.guidance, k s.toWorkbench)) (onBench wrap x) (onBench wrap y) := by
  refine .adaptExcept _ (.onPart h (fun _ _ hs => congrArg Session.toWorkbench hs) ?_
    fun s _ hw => congrArg (s.guidance, ·) hw)
  intro s t w w' hs hw
  simp only [plain, Session.mk.injEq] at hs ⊢
  exact ⟨hw, hs.2⟩

private theorem inStep_tryOnBench {k : Workbench → κ} {x y : WorkM ε α}
    (h : InStep Workbench.plain k x y) :
    InStep plain (fun s => (s.guidance, k s.toWorkbench)) (tryOnBench x) (tryOnBench y) :=
  inStep_onBench _ (.attempt h)

private theorem inStep_call {x y : EngineM α} (h : InStep Engine.plain Engine.guidanceView x y) :
    InStep plain guidanceView (call x) (call y) :=
  inStep_onBench _ (Workbench.inStep_call h)

private theorem plain_report (e : Event) (s : Session) :
    plain { s with journal := s.journal.push e } =
      { s with toWorkbench := Workbench.logEvent e.plain? s.toWorkbench.plain } := by
  rw [plain, Workbench.plain_report]

/-- Events are in step that are the same when guidance is disregarded. -/
theorem inStep_reports {e e' : Event} (h : e.plain? = e'.plain?) :
    InStep plain guidanceView (report e) (report e') :=
  .modify (fun s => { s with toWorkbench := Workbench.logEvent e.plain? s.toWorkbench })
    (plain_report e) (fun s => by rw [plain_report, h]; rfl) (fun _ => rfl) fun _ => rfl

/-- A report leaves guidance alone. -/
theorem inStep_report (e : Event) : InStep plain guidanceView (report e) (report e) :=
    inStep_reports rfl

private theorem inStep_enter (phase : Phase) :
    InStep plain guidanceView (enter phase) (enter phase) :=
  .change (fun _ => rfl) fun _ => rfl

private theorem inStep_write (text : String) :
    InStep plain guidanceView (write text) (write text) :=
  .reads (fun _ => rfl) fun _ => .bind (.change (fun _ => rfl) fun _ => rfl) fun _ => .failIf _ _

/-! ### Arriving -/

private theorem inStep_cutPending (max : Nat) : InStep plain guidanceView (cutPending max)
    (cutPending max) := by
  refine .reads (fun _ => rfl) fun _ => ?_
  refine .onlyIf _ ?_
  refine .bind (.change (fun _ => rfl) fun _ => rfl) fun _ => ?_
  exact .bind (inStep_report _) fun _ => inStep_write _

/-- What leaves the counters alone leaves their distance alone. -/
theorem relativeGuidance_of_guidanceView {x y : SessionM α} (h : InStep plain guidanceView x y) :
    InStep plain relativeGuidance x y :=
  h.mono fun v => (if v.1.isSome then v.2.1.1.backFrom v.2.2 else v.2.1.1, v.2.1.2)

/-- Making room takes as much off both counters. -/
theorem inStep_makeRoom : InStep plain relativeGuidance makeRoom makeRoom := by
  refine .reads_keeping (fun s t => (t.guidance, t.toWorkbench.relativeGuidance s.guidance.isSome))
    (fun _ => rfl) (fun s => ?_) fun s t h => ?_
  · have hroom := inStep_onBench .engine
      (Workbench.inStep_ensureRoom s.window (s.guidance.map Guidance.offset))
    rw [Option.isSome_map] at hroom
    exact .bind hroom fun _ => .pure _
  · obtain ⟨hguidance, hrelativeGuidance⟩ := Prod.mk.inj h
    rw [relativeGuidance, hguidance, hrelativeGuidance]
    rfl

/-- Before a step is fed, as much is taken off both counters. -/
theorem inStep_arrive : InStep plain relativeGuidance arrive arrive := by
  refine .reads (fun _ => rfl) fun _ => ?_
  refine .bind (relativeGuidance_of_guidanceView (inStep_cutPending _)) fun _ => ?_
  refine .reads (fun _ => rfl) fun _ => ?_
  refine .ite ?_ ?_
  · exact .bind (relativeGuidance_of_guidanceView (inStep_report _)) fun _ => .pure _
  · refine .bind inStep_makeRoom fun _ => ?_
    refine .reads (fun _ => rfl) fun _ => ?_
    refine .ite ?_ ?_
    · exact .bind (relativeGuidance_of_guidanceView (inStep_report _)) fun _ => .pure _
    · exact .bind (relativeGuidance_of_guidanceView (inStep_cutPending _)) fun _ => .pure _

/-- Before a step is fed, no draw is made, and of the guidance context only the counter changes: if
there is guidance, it stays at its distance from the other one. -/
theorem ends_arrive_relativeGuidance (s : Session) :
    Ends arrive s fun _ t => t.engine.draws = s.engine.draws ∧
      t.guidanceContext = { s.guidanceContext with past := t.progress.guidancePast } ∧
      (s.guidance.isSome = true →
        t.progress.past - t.progress.guidancePast = s.progress.past - s.progress.guidancePast) := by
  apply ((ends_arrive s).and (Ends.keeps inStep_arrive.keeps_left)).mono
  rintro r t ⟨⟨hs, -⟩, ht⟩
  have hguidance := guidance_of_settled hs
  obtain ⟨hcontext, hdraws⟩ := Prod.mk.inj ht
  rw [hguidance] at hcontext
  refine ⟨hdraws, ?_⟩
  cases hg : s.guidance.isSome with
  | false =>
    rw [hg] at hcontext
    have hpast : t.progress.guidancePast = s.progress.guidancePast :=
      congrArg GuidanceContext.past hcontext
    rw [hpast]
    exact ⟨hcontext, nofun⟩
  | true =>
    rw [hg] at hcontext
    refine ⟨?_, fun _ => congrArg GuidanceContext.past hcontext⟩
    exact congrArg (fun c : GuidanceContext => { c with past := t.progress.guidancePast }) hcontext

/-! ### Feeding a step -/

private theorem inStep_clearPending : InStep plain guidanceView clearPending clearPending :=
  .change (fun _ => rfl) fun _ => rfl

private theorem inStep_logPending (n : Nat) :
    InStep plain guidanceView (logPending n) (logPending n) :=
  .reads (fun _ => rfl) fun _ => .onlyIf _ (.change (fun _ => rfl) fun _ => rfl)

private theorem inStep_feedGuidance : InStep plain (fun _ => ()) feedGuidance feedGuidance := by
  have hends (s : Session) : Ends feedGuidance s fun r t => r = .ok () ∧ t.plain = s.plain := by
    simp only [feedGuidance, ends_bind, ends_get]
    split
    · exact ⟨rfl, rfl⟩
    · next g _ =>
      rw [ends_bind, ends_tryOnBench]
      apply (Ends.keeps (Workbench.guidanceFrame_plain.keeps_step g _)).mono
      intro r b hb
      cases r with
      | ok u => exact ⟨rfl, congrArg (fun w => { s.plain with toWorkbench := w }) hb⟩
      | error e =>
        refine ⟨rfl, ?_⟩
        rw [plain_report]
        exact congrArg (fun w => { s.plain with toWorkbench := w }) hb
  have houtcome (s : Session) : outcome (feedGuidance s) = .ok () := by
    have h := hends s
    unfold Ends at h
    cases hr : feedGuidance s <;> rw [hr] at h
    · exact h.1
    · cases h.1
  exact .of_keeps () houtcome houtcome (fun s => ((hends s).mono fun _ _ h => h.2).left)
    fun s => ((hends s).mono fun _ _ h => h.2).left

private theorem inStep_feedMain : InStep plain (fun _ => ()) feedMain feedMain := by
  have hlogs (n : Nat) : InStep plain (fun _ => ()) (logPending n) (logPending n) :=
    (inStep_logPending n).mono fun _ => ()
  refine .reads (fun _ => rfl) fun s =>
    .bind ((inStep_tryOnBench (Workbench.inStep_feed_main _ _)).mono fun _ => ()) fun r => ?_
  cases r with
  | ok u => exact .bind (.change (fun _ => rfl) fun _ => rfl) fun _ => hlogs _
  | error e =>
    refine .bind (.change (fun _ => rfl) fun _ => rfl) fun _ => ?_
    refine .reads (fun _ => rfl) fun _ => ?_
    refine .bind ((inStep_report _).mono fun _ => ()) fun _ => ?_
    refine .bind (hlogs _) fun _ => ?_
    refine .reads (fun _ => rfl) fun _ => ?_
    refine .onlyIf _ ?_
    refine .bind (inStep_clearPending.mono fun _ => ()) fun _ => ?_
    exact .bind (.change (fun _ => rfl) fun _ => rfl) fun _ => .throw _

private theorem inStep_evaluatePending :
    InStep plain (fun _ => ()) evaluatePending evaluatePending := by
  have hfeeds : InStep plain (fun _ => ()) feedRest feedRest := by
    refine .bind (.change (fun _ => rfl) fun _ => rfl) fun _ => ?_
    exact .bind inStep_feedGuidance fun _ => inStep_feedMain
  refine .reads (fun _ => rfl) fun s => ?_
  refine .ite (.pure _) ?_
  rw [evaluate_eq]
  refine .bind (inStep_arrive.mono fun _ => ()) fun r => ?_
  cases r with
  | none => exact .bind hfeeds fun _ => .pure _
  | some reason => exact .pure _

/-! ### Taking the next step -/

/-- Accepting a token leaves guidance alone. -/
theorem inStep_accept (token : Token) (sampled : Bool) :
    InStep plain guidanceView (accept token sampled) (accept token sampled) :=
  .bind (inStep_call (Engine.inStep_note rfl rfl)) fun _ => .change (fun _ => rfl) fun _ => rfl

/-- Saving the prompt leaves guidance alone. -/
theorem inStep_savePrompt : InStep plain guidanceView savePrompt savePrompt := by
  refine .reads (fun _ => rfl) fun _ => ?_
  refine .onlyIf _ ?_
  refine .bind (.change (fun _ => rfl) fun _ => rfl) fun _ => ?_
  refine .bind (.bind ?_ fun _ => .pure _) fun _ => inStep_report _
  exact inStep_onBench _ (Workbench.inStep_saveOrDisable _)

/-- Draws are in step, guided or not. -/
theorem inStep_drawNext : InStep plain guidanceContext drawNext drawNext := by
  refine .bind (inStep_savePrompt.mono fun v => v.2.1.1) fun _ => ?_
  refine .get_bind fun s t hst => ?_
  have hremaining : s.progress.remaining = t.progress.remaining :=
    congrArg (·.progress.remaining) hst
  refine .bind ((inStep_onBench _ (Workbench.inStep_sample _ _)).mono Prod.snd) fun token => ?_
  refine .bind ((inStep_accept _ _).mono fun v => v.2.1.1) fun _ => ?_
  refine .bind (InStep.mono (inStep_reports ?_) fun v => v.2.1.1) fun _ => ?_
  · rw [hremaining]
    rfl
  · exact .change (fun _ => rfl) fun _ => rfl

/-- Taking tokens from the queue leaves guidance alone. -/
theorem inStep_drainQueue : InStep plain guidanceView drainQueue drainQueue := by
  refine .reads (fun _ => rfl) fun _ => ?_
  refine .bind (inStep_report _) fun _ => ?_
  exact .forM fun _ _ => .bind (inStep_accept _ _) fun _ => .change (fun _ => rfl) fun _ => rfl

private theorem inStep_refill : InStep plain guidanceContext refill refill := by
  refine .reads (fun _ => rfl) fun _ => ?_
  refine .ite ?_ ?_
  · refine .bind ((inStep_enter _).mono fun v => v.2.1.1) fun _ => ?_
    exact .ite ((inStep_report _).mono fun v => v.2.1.1) inStep_drawNext
  · refine .bind ((inStep_enter _).mono fun v => v.2.1.1) fun _ => ?_
    exact inStep_drainQueue.mono fun v => v.2.1.1

/-- Showing a step leaves guidance alone. -/
theorem inStep_display : InStep plain guidanceView display display := by
  refine .reads (fun _ => rfl) fun _ => ?_
  refine .onlyIf _ ?_
  refine .bind (inStep_enter _) fun _ => ?_
  exact .forM fun _ _ => .bind (inStep_write _) fun _ => .change (fun _ => rfl) fun _ => rfl

private theorem inStep_handOver : InStep plain guidanceView handOver handOver := by
  have hreports : InStep plain guidanceView reportAntiprompt reportAntiprompt := by
    refine .reads (fun _ => rfl) fun s => ?_
    split
    · exact .pure _
    · exact inStep_report _
  have hqueues : InStep plain guidanceView queueAntiprompt queueAntiprompt := by
    refine .reads (fun _ => rfl) fun s => ?_
    split
    · exact .pure _
    · exact .bind (inStep_call (Engine.inStep_tokenize _ _ _)) fun _ =>
        .change (fun _ => rfl) fun _ => rfl
  refine .bind hreports fun _ => ?_
  refine .reads (fun _ => rfl) fun _ => ?_
  refine .bind (.onlyIf _ hqueues) fun _ => ?_
  refine .bind (.onlyIf _ (.bind (inStep_report _) fun _ => inStep_write _)) fun _ => ?_
  exact .bind (.change (fun _ => rfl) fun _ => rfl) fun _ => .pure _

/-- Finishing a turn leaves guidance alone. -/
theorem inStep_finish (phase : Phase) (reason : StopReason) :
    InStep plain guidanceView (finish phase reason) (finish phase reason) := by
  refine .bind (inStep_enter _) fun _ => ?_
  refine .reads (fun _ => rfl) fun _ => ?_
  exact .bind (inStep_report _) fun _ => .pure _

private theorem inStep_finishIfUserTurn (reason : StopReason) :
    InStep plain guidanceView (finishIfUserTurn reason) (finishIfUserTurn reason) :=
  .reads (fun _ => rfl) fun _ => .ite (.bind (inStep_finish _ _) fun _ => .pure _) (.pure _)

/-- Deciding whose turn it is leaves guidance alone. -/
theorem inStep_conclude : InStep plain guidanceView conclude conclude := by
  have hdrained (spent : Bool) :
      InStep plain guidanceView (concludeDrained spent) (concludeDrained spent) := by
    refine .bind inStep_handOver fun _ => ?_
    refine .ite ?_ (inStep_finishIfUserTurn _)
    refine .bind (inStep_report _) fun _ => ?_
    exact .bind (inStep_finish _ _) fun _ => .pure _
  refine .reads (fun _ => rfl) fun _ => ?_
  refine .bind (.onlyIf _ (.reads (fun _ => rfl) fun _ => .change (fun _ => rfl) fun _ => rfl))
    fun _ => ?_
  refine .ite ?_ ?_
  · exact .bind (inStep_finish _ _) fun _ => .pure _
  · exact .ite (hdrained _) (inStep_finishIfUserTurn _)

/-- Taking the next step leaves the guidance context alone. -/
theorem inStep_takeStep : InStep plain guidanceContext takeStep takeStep := by
  refine .bind (inStep_clearPending.mono fun v => v.2.1.1) fun _ => ?_
  refine .bind inStep_refill fun _ => ?_
  exact .bind (inStep_display.mono fun v => v.2.1.1) fun _ => inStep_conclude.mono fun v => v.2.1.1

/-- A pass is in step with itself when guidance is disregarded. -/
theorem inStep_pass : InStep plain (fun _ => ()) pass pass := by
  refine .bind inStep_evaluatePending fun r => ?_
  cases r with
  | none => exact inStep_takeStep.mono fun _ => ()
  | some reason => exact .bind ((inStep_finish _ _).mono fun _ => ()) fun _ => .pure _

/-! ### Hearing the user -/

private theorem inStep_queueInput (text : String) :
    InStep plain guidanceView (queueInput text) (queueInput text) := by
  have hqueues (tokens : List Token) :
      InStep plain guidanceView (queueTokens tokens) (queueTokens tokens) :=
    .change (fun _ => rfl) fun _ => rfl
  have htokenizes (text : String) (addBos special : Bool) :
      InStep plain guidanceView (call (Engine.tokenize text addBos special))
        (call (Engine.tokenize text addBos special)) :=
    inStep_call (Engine.inStep_tokenize _ _ _)
  have hleads : InStep plain guidanceView queueInstructLead queueInstructLead :=
    .reads (fun _ => rfl) fun _ => .onlyIf _ (.bind (.change (fun _ => rfl) fun _ => rfl) fun _ =>
      hqueues _)
  refine .reads (fun _ => rfl) fun _ => ?_
  refine .bind (inStep_write _) fun _ => ?_
  refine .bind hleads fun _ => ?_
  refine .bind (htokenizes _ _ _) fun _ => ?_
  refine .bind (htokenizes _ _ _) fun _ => ?_
  refine .bind (htokenizes _ _ _) fun _ => ?_
  refine .bind (hqueues _) fun _ => ?_
  refine .bind (.onlyIf _ (hqueues _)) fun _ => ?_
  refine .bind (.change (fun _ => rfl) fun _ => rfl) fun _ => ?_
  refine .bind (.change (fun _ => rfl) fun _ => rfl) fun _ => ?_
  exact .reads (fun _ => rfl) fun _ => inStep_report _

/-- A query leaves guidance alone. -/
theorem inStep_query (text : String) : InStep plain guidanceView (query text) (query text) := by
  have hresets : InStep plain guidanceView (call Engine.resetSampler) (call Engine.resetSampler) :=
    inStep_call (Engine.inStep_note rfl rfl)
  have hrest : InStep plain guidanceView
      (do
        advance ({ · with echo := false })
        call Engine.resetSampler
        advance fun p => { p.forget with userTurn := false }
        enter .processingQueue)
      (do
        advance ({ · with echo := false })
        call Engine.resetSampler
        advance fun p => { p.forget with userTurn := false }
        enter .processingQueue) := by
    refine .bind (.change (fun _ => rfl) fun _ => rfl) fun _ => ?_
    refine .bind hresets fun _ => ?_
    exact .bind (.change (fun _ => rfl) fun _ => rfl) fun _ => inStep_enter _
  refine .reads (fun _ => rfl) fun _ => ?_
  refine .bind (.onlyIf _ (inStep_write _)) fun _ => ?_
  refine .bind (.onlyIf _ (.bind (inStep_report _) fun _ => .change (fun _ => rfl) fun _ => rfl))
    fun _ => ?_
  refine .bind (inStep_write _) fun _ => ?_
  exact .ite (.bind (inStep_queueInput _) fun _ => hrest) (.bind (inStep_report _) fun _ => hrest)

end Session

end Dialogue
