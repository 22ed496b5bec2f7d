import Dialogue.Proofs.SessionsInStep
import Dialogue.Proofs.Starting
/-!
# Beginning with guidance

What is done before a session begins is in step when guidance is disregarded, and leaves the
guidance context as it was. A session with guidance begins with an engine that has a guidance
context, and counts nothing as resident there.
-/

namespace Dialogue

open Effect

namespace Workbench

variable {ε α : Type}

/-- What the guidance context amounts to for the engine. -/
def guidancePart (w : Workbench) : Cells × List Call × List Bool × Bool := w.engine.guidancePart

private theorem guidancePart_of_guidanceView {x y : WorkM ε α} (h : InStep plain guidanceView x y) :
    InStep plain guidancePart x y :=
  h.mono fun v => (v.1.1.cells, v.1.1.calls, v.1.1.faults, v.1.1.present)

private theorem inStep_ask {x : EngineM α} (h : InStep Engine.plain Engine.guidanceView x x) :
    InStep plain guidancePart (ask x) (ask x) :=
  .adaptExcept _ (guidancePart_of_guidanceView (inStep_call h))

private theorem inStep_event (e : Event) :
    InStep plain guidancePart (report e : WorkM ε Unit) (report e) :=
  guidancePart_of_guidanceView (inStep_report e)

private theorem inStep_events (l : List Event) :
    InStep plain guidancePart (l.forM fun e => report e : WorkM ε Unit)
      (l.forM fun e => report e) :=
  .forM fun e _ => inStep_event e

private theorem inStep_settle (now : Nat) (config : Config) :
    InStep plain guidancePart (settle now config) (settle now config) := by
  unfold settle
  split
  · exact .throw _
  · exact .bind (inStep_events _) fun _ => .pure _

private theorem inStep_load (path : String) (capacity : Nat) :
    InStep plain guidancePart (Cache.load path capacity) (Cache.load path capacity) := by
  refine .reads (fun _ => rfl) fun w => ?_
  split
  · exact .pure _
  · exact .throw _
  · split
    · exact .throw _
    · refine .bind (.adaptExcept _ ?_) fun _ => ?_
      · exact guidancePart_of_guidanceView (inStep_call (Engine.inStep_restoreSnapshot _))
      · exact .bind (inStep_event _) fun _ => .pure _

private theorem inStep_loadOrColdStart (capacity : Nat) :
    InStep plain guidancePart (Cache.loadOrColdStart capacity : WorkM ε (List Token))
      (Cache.loadOrColdStart capacity) := by
  have hloads (path : String) : InStep plain guidancePart
      (Cache.loadOrGiveUp path capacity : WorkM ε (List Token))
      (Cache.loadOrGiveUp path capacity) := by
    refine .bind (.attempt (inStep_load path capacity)) fun r => ?_
    cases r with
    | ok tokens => exact .bind (inStep_event _) fun _ => .pure _
    | error error =>
      exact .bind (guidancePart_of_guidanceView (inStep_giveUp error)) fun _ => .pure _
  refine .reads (fun _ => rfl) fun w => ?_
  split
  · exact .pure _
  · refine .bind (inStep_event _) fun _ => ?_
    refine .reads (fun _ => rfl) fun _ => ?_
    exact .ite (hloads _) (.bind (inStep_event _) fun _ => .pure _)

private theorem inStep_promptTokens (config : Config) (logged : List Token) :
    InStep plain guidancePart (promptTokens config logged) (promptTokens config logged) := by
  refine .reads (fun _ => rfl) fun _ => ?_
  refine .ite ?_ (.bind (.pure _) fun _ => .pure _)
  exact .bind (inStep_ask (Engine.inStep_tokenize _ _ _)) fun _ => .pure _

private theorem inStep_startGuidance (config : Config) :
    InStep plain guidancePart (startGuidance config) (startGuidance config) := by
  have htokenizes (text : String) (addBos : Bool) : InStep plain guidancePart
      (call (Engine.tokenize text addBos true)) (call (Engine.tokenize text addBos true)) :=
    guidancePart_of_guidanceView (inStep_call (Engine.inStep_tokenize _ _ _))
  refine .reads (fun _ => rfl) fun _ => ?_
  refine .ite (.pure _) ?_
  refine .ite (.bind (inStep_event _) fun _ => .pure _) ?_
  refine .bind (.adaptExcept _ ?_) fun _ => .pure _
  refine .bind (htokenizes _ _) fun _ => ?_
  refine .bind (htokenizes _ _) fun _ => ?_
  exact .bind (inStep_event _) fun _ => .pure _

private theorem inStep_startCache (config : Config) (queue logged : List Token) :
    InStep plain guidancePart (startCache config queue logged)
      (startCache config queue logged) := by
  have haligns : InStep plain guidancePart (Cache.align queue (config.prompt = ""))
      (Cache.align queue (config.prompt = "")) := by
    refine .reads (fun _ => rfl) fun _ => ?_
    refine .bind (inStep_event _) fun _ => ?_
    refine .bind (guidancePart_of_guidanceView (inStep_call (Engine.inStep_removeCells _ _ _)))
      fun _ => ?_
    refine .bind (.onlyIf _ ?_) fun _ => .pure _
    exact .bind (inStep_event _) fun _ => .change (fun _ => rfl) fun _ => rfl
  exact .ite (.pure _) (.adaptExcept _ haligns)

/-- Preparing a session is in step with itself when guidance is disregarded. -/
theorem inStep_prepare (now : Nat) (config : Config) :
    InStep plain guidancePart (prepare now config) (prepare now config) := by
  refine .bind (inStep_settle now config) fun _ => ?_
  refine .reads (fun _ => rfl) fun _ => ?_
  refine .bind (.onlyIf _ (inStep_event _)) fun _ => ?_
  refine .bind (.change (fun _ => rfl) fun _ => rfl) fun _ => ?_
  refine .bind (inStep_loadOrColdStart _) fun _ => ?_
  refine .bind (inStep_ask (Engine.inStep_setSeed _)) fun _ => ?_
  refine .bind (inStep_promptTokens _ _) fun _ => ?_
  refine .bind (.failIf _ _) fun _ => ?_
  refine .bind (inStep_startGuidance _) fun _ => ?_
  refine .bind (.change (fun _ => rfl) fun _ => rfl) fun _ => ?_
  refine .bind (inStep_startCache _ _ _) fun _ => ?_
  refine .bind (inStep_ask (Engine.inStep_tokenize _ _ _)) fun _ => ?_
  refine .bind (inStep_ask (Engine.inStep_tokenize _ _ _)) fun _ => ?_
  refine .bind (inStep_event _) fun _ => ?_
  refine .bind (inStep_events _) fun _ => ?_
  exact .bind (inStep_event _) fun _ => .pure _

/-- What the guidance context is to be fed is only settled if the engine has one. -/
theorem ends_startGuidance (config : Config) (w : Workbench) :
    Ends (startGuidance config) w fun r _ =>
      ∀ g, r = .ok (some g) → w.engine.hasGuidance = true := by
  simp only [startGuidance, ends_bind, ends_get, ends_ite, ends_pure, ends_report]
  split
  · rintro _ ⟨⟩
  · split
    · rintro _ ⟨⟩
    · next h =>
      rw [Bool.not_eq_true, Bool.not_eq_false'] at h
      rw [ends_iff_outcome]
      cases outcome _ <;> exact fun _ _ => h

/-- What a session with guidance begins with. -/
theorem ends_prepare (now : Nat) (config : Config) (w : Workbench) :
    Ends (prepare now config) w fun r t => t.guidancePart = w.guidancePart ∧
      ∀ v, r = .ok v → v.guidance ≠ none → w.engine.hasGuidance = true := by
  have hfails (e : SessionError) (t : Workbench) (ht : t.guidancePart = w.guidancePart) :
      t.guidancePart = w.guidancePart ∧
        ∀ v : Settlement, (.error e : Except SessionError Settlement) = .ok v →
          v.guidance ≠ none → w.engine.hasGuidance = true := ⟨ht, fun _ h => nomatch h⟩
  refine ends_bind_of_keeps (inStep_settle now config).keeps_left rfl (fun c t ht => ?_) hfails
  refine ends_bind_of_keeps .get ht (fun b t ht => ?_) hfails
  refine ends_bind_of_keeps (.onlyIf _ (inStep_event _).keeps_left) ht (fun _ t ht => ?_) hfails
  refine ends_bind_of_keeps (.modify fun _ => rfl) ht (fun _ t ht => ?_) hfails
  refine ends_bind_of_keeps (inStep_loadOrColdStart _).keeps_left ht (fun logged t ht => ?_) hfails
  refine ends_bind_of_keeps (inStep_ask (Engine.inStep_setSeed _)).keeps_left ht
    (fun _ t ht => ?_) hfails
  refine ends_bind_of_keeps (inStep_promptTokens _ _).keeps_left ht (fun queue t ht => ?_) hfails
  refine ends_bind_of_keeps (.failIf _ _) ht (fun _ t ht => ?_) hfails
  rw [ends_bind]
  apply ((ends_startGuidance c t).and (Ends.keeps (inStep_startGuidance c).keeps_left)).mono
  rintro r t' ⟨hr, ht'⟩
  have hhas : t.engine.hasGuidance = w.engine.hasGuidance := congrArg (·.2.2.2) ht
  rw [hhas] at hr
  cases r with
  | error e => exact hfails e t' (ht'.trans ht)
  | ok guidance =>
    have hguidance : guidance ≠ none → w.engine.hasGuidance = true := by
      cases guidance with
      | none => exact fun h => absurd rfl h
      | some g => exact fun _ => hr g rfl
    refine ends_bind_of_keeps (.modify fun _ => rfl) (ht'.trans ht) (fun _ t ht => ?_) hfails
    refine ends_bind_of_keeps (inStep_startCache _ _ _).keeps_left ht (fun _ t ht => ?_) hfails
    refine ends_bind_of_keeps (inStep_ask (Engine.inStep_tokenize _ _ _)).keeps_left ht
      (fun _ t ht => ?_) hfails
    refine ends_bind_of_keeps (inStep_ask (Engine.inStep_tokenize _ _ _)).keeps_left ht
      (fun _ t ht => ?_) hfails
    refine ends_bind_of_keeps (inStep_event _).keeps_left ht (fun _ t ht => ?_) hfails
    refine ends_bind_of_keeps (inStep_events _).keeps_left ht (fun _ t ht => ?_) hfails
    refine ends_bind_of_keeps (inStep_event _).keeps_left ht (fun _ t ht => ?_) hfails
    refine ⟨ht, ?_⟩
    rintro _ ⟨⟩
    exact hguidance

end Workbench

/-- The guidance context when a session begins: nothing is counted as resident. A session with
guidance begins with an engine that has a guidance context. -/
theorem Session.guidanceContext_of_start {now : Nat} {config : Config} {engine : Engine}
    {directory : Directory} {s : Session} {w : Workbench}
    (h : Session.start now config engine directory = .ok s w) :
    s.guidanceContext = ⟨0, false, engine.guidanceCells, engine.guidanceCalls,
        engine.faults.decodeGuidance, engine.hasGuidance⟩ ∧
      (s.guidance ≠ none → engine.hasGuidance = true) := by
  unfold start at h
  rw [Workbench.startSession_eq] at h
  obtain ⟨v, bench, hprepare, h⟩ := bind_eq_ok h
  cases h
  obtain ⟨hpart, hguidance⟩ := (Workbench.ends_prepare _ _ _).of_ok hprepare
  refine ⟨?_, hguidance v rfl⟩
  simp only [Workbench.guidancePart, Engine.guidancePart, Prod.mk.injEq] at hpart
  obtain ⟨hcells, hcalls, hfaults, hhas⟩ := hpart
  exact GuidanceContext.ext rfl rfl hcells hcalls hfaults hhas

end Dialogue
