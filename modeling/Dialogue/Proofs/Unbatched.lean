import Dialogue.Proofs.GuidanceBeginning
/-!
# The unbatched view of a workbench

What a workbench comes to when nobody looks at how its tokens are cut into batches, at its guidance
context, or at its journal. The operations that decode nothing are in step with themselves in the
unbatched view, and leave the failures to come on the main context as they are. Before a session
begins, the size of its batches does not show in the unbatched view.
-/

namespace Dialogue

open Effect

/-- Whether a call decodes tokens. -/
def Call.decodes : Call → Bool
  | .decode .. => true
  | _ => false

/-! ### The engine -/

namespace Engine

variable {α : Type}

/-- The engine without what depends on how tokens are cut into batches, and without the guidance
context. -/
def unbatched (e : Engine) : Engine :=
  { e with
    guidanceCells := .empty
    faults := { e.faults with decodeMain := [], decodeGuidance := [] }
    calls := (e.calls.toList.filter fun c => !c.decodes).toArray
    batches := #[] }

/-- Which of the next decode calls on the main context fail. -/
def mainFaults (e : Engine) : List Bool := e.faults.decodeMain

/-- Whether all that a computation depends on shows in the unbatched view, and all that it does, as
far as the main context is concerned. -/
abbrev Blind (x : EngineM α) : Prop := InStep unbatched mainFaults x x

/-- A call that does not decode shows in the unbatched view altogether. -/
theorem blind_note {c : Call} (h : c.decodes = false) : Blind (note c) :=
  .change (fun e => by simp [unbatched, h]) fun _ => rfl

private theorem blind_fails {s : Service} (h : ∀ stream, s ≠ .decode stream) : Blind (fails s) := by
  match s with
  | .decode stream => exact absurd rfl (h stream)
  | .sample | .remove | .shift | .takeSnapshot | .restoreSnapshot =>
    exact .modifyGet (fun _ => rfl) fun _ => rfl

/-- Spelling a text shows in the unbatched view altogether. -/
theorem blind_tokenize (text : String) (addBos special : Bool) :
    Blind (tokenize text addBos special) := by
  refine .bind (blind_note rfl) fun _ => ?_
  refine .reads (fun _ => rfl) fun _ => ?_
  exact .bind (.failIf _ _) fun _ => .pure _

private theorem blind_removeCells (sequence : Option Nat) (first : Int) (last : Option Int) :
    Blind (removeCells .main sequence first last) := by
  refine .bind (blind_note rfl) fun _ => ?_
  refine .bind (blind_fails nofun) fun _ => ?_
  exact .bind (.failIf _ _) fun _ => .change (fun _ => rfl) fun _ => rfl

private theorem blind_shiftCells (sequence : Nat) (first : Int) (last : Option Int) (delta : Int) :
    Blind (shiftCells .main sequence first last delta) := by
  refine .bind (blind_note rfl) fun _ => ?_
  refine .bind (blind_fails nofun) fun _ => ?_
  exact .bind (.failIf _ _) fun _ => .change (fun _ => rfl) fun _ => rfl

private theorem blind_takeSnapshot : Blind takeSnapshot := by
  refine .bind (blind_note rfl) fun _ => ?_
  refine .bind (blind_fails nofun) fun _ => ?_
  refine .bind (.failIf _ _) fun _ => ?_
  exact .reads (fun _ => rfl) fun _ => .pure _

private theorem blind_restoreSnapshot (bytes : List UInt8) : Blind (restoreSnapshot bytes) := by
  refine .bind (blind_note rfl) fun _ => ?_
  refine .bind (blind_fails nofun) fun _ => ?_
  refine .bind (.failIf _ _) fun _ => ?_
  exact .bind (.orFail _ _) fun _ => .change (fun _ => rfl) fun _ => rfl

private theorem blind_setSeed (seed : Nat) : Blind (setSeed seed) :=
  .bind (blind_note rfl) fun _ => .change (fun _ => rfl) fun _ => rfl

/-- Drawing a token shows in the unbatched view altogether. -/
theorem blind_sample (guided : Bool) : Blind (sample guided) := by
  refine .bind (blind_note rfl) fun _ => ?_
  refine .bind (blind_fails nofun) fun _ => ?_
  exact .bind (.failIf _ _) fun _ => .modifyGet (fun _ => rfl) fun _ => rfl

/-- Decoding into the guidance context does not show in the unbatched view. -/
theorem keeps_unbatched_decode_guidance (tokens : List Token) (start : Int) :
    Keeps (fun e => (unbatched e, mainFaults e)) (decode .guidance tokens start) := by
  refine .bind (.modify fun e => by simp [unbatched, mainFaults, Call.decodes]) fun _ => ?_
  refine .bind .get fun _ => ?_
  refine .bind (.failIf _ _) fun _ => ?_
  refine .bind (fun _ => rfl) fun _ => ?_
  exact .bind (.failIf _ _) fun _ => .modify fun _ => rfl

end Engine

/-! ### The workbench -/

namespace Workbench

variable {ε α : Type}

/-- The workbench without what depends on how tokens are cut into batches, without the guidance
context, and without the journal. -/
def unbatched (w : Workbench) : Workbench :=
  { w with engine := w.engine.unbatched, journal := #[], progress := w.progress.plain }

/-- Which of the next decode calls on the main context fail. -/
def mainFaults (w : Workbench) : List Bool := w.engine.mainFaults

/-- Whether all that a computation depends on shows in the unbatched view, and all that it does, as
far as the main context is concerned. -/
abbrev Blind (x : WorkM ε α) : Prop := InStep unbatched mainFaults x x

/-- Whatever is reported does not show. -/
theorem inStep_unbatched_reports (e e' : Event) :
    InStep unbatched mainFaults (report e : WorkM ε Unit) (report e') :=
  .modify id (fun _ => rfl) (fun _ => rfl) (fun _ => rfl) fun _ => rfl

private theorem blind_report (e : Event) : Blind (report e : WorkM ε Unit) :=
  inStep_unbatched_reports e e

/-- A call shows in the unbatched view of the workbench if it does in that of the engine. -/
theorem blind_call {x : EngineM α} (h : Engine.Blind x) : Blind (call x) := by
  refine .onPart h (fun _ _ hw => congrArg Workbench.engine hw) ?_ fun _ _ he => he
  intro w w' e e' hw he
  simp only [unbatched, Workbench.mk.injEq] at hw ⊢
  exact ⟨he, hw.2⟩

private theorem blind_disable : Blind (Cache.disable : WorkM ε Unit) :=
  .change (fun _ => rfl) fun _ => rfl

private theorem blind_invalidate : Blind (Cache.invalidate : WorkM ε Unit) := by
  refine .reads (fun _ => rfl) fun w => ?_
  cases w.cache.path with
  | none => exact .pure _
  | some path => exact .bind blind_disable fun _ => blind_report _

private theorem blind_evict (w : Window) (guided : Bool) (past n : Int) :
    Blind (w.evict guided past n) := by
  refine .bind (blind_call (Engine.blind_removeCells _ _ _)) fun _ => ?_
  refine .bind (blind_call (Engine.blind_shiftCells _ _ _ _)) fun _ => ?_
  refine .bind (.change (fun _ => rfl) fun _ => rfl) fun _ => ?_
  exact .onlyIf _ (.modify id (fun _ => rfl) (fun _ => rfl) (fun _ => rfl) fun _ => rfl)

private theorem blind_swap (w : Window) (guided : Bool) : Blind (w.swap guided) := by
  refine .reads (fun _ => rfl) fun _ => ?_
  refine .bind (blind_report _) fun _ => ?_
  refine .bind (.ite (blind_evict w _ _ _) (blind_report _)) fun _ => ?_
  refine .bind blind_invalidate fun _ => ?_
  exact .reads (fun _ => rfl) fun _ => .pure _

/-- Making room shows in the unbatched view altogether. -/
theorem blind_ensureRoom (w : Window) (offset : Option Int) : Blind (w.ensureRoom offset) :=
  .reads (fun _ => rfl) fun _ => .bind (.mapM fun _ _ => blind_swap w _) fun _ => .pure _

private theorem blind_giveUp (error : FileError) : Blind (Cache.giveUp error : WorkM ε Unit) :=
  .bind (blind_report _) fun _ => blind_disable

private theorem blind_save (path : String) (tokens : List Token) :
    Blind (Cache.save path tokens) := by
  refine .bind (.adaptExcept _ (blind_call Engine.blind_takeSnapshot)) fun state =>
    .reads (fun _ => rfl) fun w => ?_
  split
  · exact .throw _
  · exact .bind (.change (fun _ => rfl) fun _ => rfl) fun _ => blind_report _

/-- Saving the session file shows in the unbatched view altogether. -/
theorem blind_saveOrDisable (tokens : List Token) :
    Blind (Cache.saveOrDisable tokens : WorkM ε Bool) := by
  have hsaves (path : String) : Blind (Cache.saveOrGiveUp path tokens : WorkM ε Bool) := by
    refine .bind (.attempt (blind_save path tokens)) fun r => ?_
    cases r with
    | ok u => exact .pure _
    | error e => exact .bind (blind_giveUp e) fun _ => .pure _
  refine .reads (fun _ => rfl) fun w => ?_
  dsimp only
  split
  · exact .pure _
  · exact .ite (.pure _) (hsaves _)

/-! ### A step of guidance -/

/-- A step of guidance does not show in the unbatched view. -/
theorem guidanceFrame_unbatched : GuidanceFrame fun w => (unbatched w, mainFaults w) where
  decoding _ _ _ := rfl
  decodes tokens start := keeps_call fun w e => by
    obtain ⟨hunbatched, hfaults⟩ :=
      Prod.mk.inj (Engine.keeps_unbatched_decode_guidance tokens start e)
    simp only [unbatched, mainFaults, hunbatched, hfaults]
  decoded _ _ := rfl
  progress _ _ _ _ := rfl

/-! ### Before a session begins -/

private theorem blind_ask {x : EngineM α} (h : Engine.Blind x) : Blind (ask x) :=
  .adaptExcept _ (blind_call h)

private theorem blind_load (path : String) (capacity : Nat) : Blind (Cache.load path capacity) := by
  refine .reads (fun _ => rfl) fun w => ?_
  split
  · exact .pure _
  · exact .throw _
  · split
    · exact .throw _
    · exact .bind (.adaptExcept _ (blind_call (Engine.blind_restoreSnapshot _))) fun _ =>
        .bind (blind_report _) fun _ => .pure _

private theorem blind_loadOrColdStart (capacity : Nat) :
    Blind (Cache.loadOrColdStart capacity : WorkM ε (List Token)) := by
  have hloads (path : String) :
      Blind (Cache.loadOrGiveUp path capacity : WorkM ε (List Token)) := by
    refine .bind (.attempt (blind_load path capacity)) fun r => ?_
    cases r with
    | ok tokens => exact .bind (blind_report _) fun _ => .pure _
    | error error => exact .bind (blind_giveUp error) fun _ => .pure _
  refine .reads (fun _ => rfl) fun w => ?_
  split
  · exact .pure _
  · refine .bind (blind_report _) fun _ => ?_
    refine .reads (fun _ => rfl) fun _ => ?_
    exact .ite (hloads _) (.bind (blind_report _) fun _ => .pure _)

private theorem blind_promptTokens (config : Config) (logged : List Token) :
    Blind (promptTokens config logged) := by
  refine .reads (fun _ => rfl) fun _ => ?_
  refine .ite ?_ (.bind (.pure _) fun _ => .pure _)
  exact .bind (blind_ask (Engine.blind_tokenize _ _ _)) fun _ => .pure _

private theorem blind_startGuidance (config : Config) : Blind (startGuidance config) := by
  refine .reads (fun _ => rfl) fun _ => ?_
  refine .ite (.pure _) ?_
  refine .ite (.bind (blind_report _) fun _ => .pure _) ?_
  refine .bind (.adaptExcept _ ?_) fun _ => .pure _
  refine .bind (blind_call (Engine.blind_tokenize _ _ _)) fun _ => ?_
  refine .bind (blind_call (Engine.blind_tokenize _ _ _)) fun _ => ?_
  exact .bind (blind_report _) fun _ => .pure _

private theorem blind_startCache (config : Config) (queue logged : List Token) :
    Blind (startCache config queue logged) := by
  have haligns : Blind (Cache.align queue (config.prompt = "")) := by
    refine .reads (fun _ => rfl) fun _ => ?_
    refine .bind (blind_report _) fun _ => ?_
    refine .bind (blind_call (Engine.blind_removeCells _ _ _)) fun _ => ?_
    refine .bind (.onlyIf _ ?_) fun _ => .pure _
    exact .bind (blind_report _) fun _ => .change (fun _ => rfl) fun _ => rfl
  exact .ite (.pure _) (.adaptExcept _ haligns)

end Workbench

/-! ### Sessions -/

namespace Config

/-- The configuration with batches of another size. -/
def batchedBy (c : Config) (n : Nat) : Config := { c with batchSize := n }

/-- A configuration is resolved whatever the size of the batches, if they are not empty. -/
theorem resolveReported_batchedBy (now : Nat) {c : Config} {n : Nat} (hc : c.batchSize ≠ 0)
    (hn : n ≠ 0) : (c.batchedBy n).resolveReported now =
      (c.resolveReported now).map fun r => (r.1.batchedBy n, r.2) :=
  resolveReported_of_commutes (batchedBy · n) (iff_of_false hn hc) rfl rfl rfl

end Config

namespace Session

/-- The session without what depends on how tokens are cut into batches, without the guidance
context, and without the journal. -/
def unbatched (s : Session) : Session :=
  { s with
    toWorkbench := s.toWorkbench.unbatched
    config := s.config.batchedBy 0
    transcript := {} }

private theorem unbatched_session (v : Workbench.Settlement) (w : Workbench) :
    (v.session w).unbatched = { v.session w.unbatched with config := v.config.batchedBy 0 } := rfl

/-- Sessions begin with the same unbatched view whatever the size of their batches. -/
theorem inStep_startSession (now : Nat) {config : Config} {n : Nat} (hc : config.batchSize ≠ 0)
    (hn : n ≠ 0) :
    InStep Workbench.unbatched Workbench.mainFaults
      (do return (← Workbench.startSession now config).unbatched)
      (do return (← Workbench.startSession now (config.batchedBy n)).unbatched) := by
  have hevents (l : List Event) :
      Workbench.Blind (l.forM fun e => Workbench.report e : WorkM SessionError Unit) :=
    .forM fun e _ => Workbench.blind_report e
  have htokenizes (text : String) (addBos special : Bool) :
      Workbench.Blind (Workbench.ask (Engine.tokenize text addBos special)) :=
    Workbench.blind_ask (Engine.blind_tokenize text addBos special)
  simp only [Workbench.startSession_eq, Workbench.prepare, Workbench.settle, bind_assoc]
  rw [Config.resolveReported_batchedBy now hc hn]
  cases config.resolveReported now with
  | error e => exact ⟨fun _ _ h => ⟨rfl, h⟩, fun _ => rfl, fun _ => rfl⟩
  | ok r =>
    simp only [Except.map, bind_assoc, pure_bind]
    refine .bind (hevents _) fun _ => .get_bind fun w w' h => ?_
    have hsize : w.engine.contextSize = w'.engine.contextSize := congrArg (·.engine.contextSize) h
    have hbos : w.engine.addsBos = w'.engine.addsBos := congrArg (·.engine.addsBos) h
    simp only [Workbench.contextPositions, hsize, hbos]
    refine .bind (.onlyIf _ (Workbench.blind_report _)) fun _ => ?_
    refine .bind (.change (fun _ => rfl) fun _ => rfl) fun _ => ?_
    refine .bind (Workbench.blind_loadOrColdStart _) fun _ => ?_
    refine .bind (Workbench.blind_ask (Engine.blind_setSeed _)) fun _ => ?_
    refine .bind (Workbench.blind_promptTokens _ _) fun _ => .bind (.failIf _ _) fun _ => ?_
    refine .bind (Workbench.blind_startGuidance _) fun _ => ?_
    refine .bind (.change (fun _ => rfl) fun _ => rfl) fun _ => ?_
    refine .bind (Workbench.blind_startCache _ _ _) fun _ => ?_
    refine .bind (htokenizes _ _ _) fun _ => .bind (htokenizes _ _ _) fun _ => ?_
    refine .bind (Workbench.blind_report _) fun _ => .bind (hevents _) fun _ => ?_
    refine .bind (Workbench.inStep_unbatched_reports _ _) fun _ => .get_bind fun w w' h => ?_
    rw [unbatched_session, unbatched_session, h]
    exact .pure _

/-- Where a session begins another one with batches of another size does, with the same unbatched
view. -/
theorem exists_start_batchedBy {now : Nat} {config : Config} {engine : Engine}
    {directory : Directory} {s : Session} {w : Workbench}
    (h : start now config engine directory = .ok s w) (hc : config.batchSize ≠ 0) {n : Nat}
    (hn : n ≠ 0) : ∃ s' w', start now (config.batchedBy n) engine directory = .ok s' w' ∧
      s'.unbatched = s.unbatched := by
  have hx : (do return (← Workbench.startSession now config).unbatched : WorkM SessionError Session)
      (Workbench.fresh engine directory) = .ok s.unbatched w := by
    rw [bind_eq_of_ok (show Workbench.startSession now config _ = _ from h)]
    rfl
  obtain ⟨w', hy, -⟩ := (inStep_startSession now hc hn).exists_ok rfl hx
  obtain ⟨s', w'', hs', hout⟩ := bind_eq_ok hy
  exact ⟨s', w'', hs', (EStateM.Result.ok.inj hout).1⟩

end Session

end Dialogue
