import Dialogue.Session.Frame
/-!
# Whose turn it is

The turn state is what decides whose turn it is and what is drawn: the samples to come, the queue
and how far it was read, the draws that are left, who has the turn, and what the sampler was told
last. To evaluate a step, to save it and to show it leaves the turn state alone.
-/

namespace Dialogue

open Effect

/-- Whether a call concerns the sampler. -/
def Call.onSampler : Call → Bool
  | .sample .. | .accept .. | .resetSampler => true
  | _ => false

/-- What decides whose turn it is and what is drawn. -/
@[ext] structure TurnState where
  /-- The samples to come. -/
  script : List Token
  /-- Which of the next draws fail. -/
  drawFaults : List Bool
  /-- The calls that concern the sampler, oldest first. -/
  calls : List Call
  /-- The tokens queued so far. -/
  queue : List Token
  /-- How many of the queued tokens were moved into a step. -/
  queueRead : Nat
  /-- How many draws are left in the turn. -/
  remaining : Int
  /-- Whether control is with the user. -/
  userTurn : Bool
  /-- The tokens accepted last, oldest first. -/
  recent : List Token

namespace Engine

/-- The calls that concern the sampler, oldest first. -/
def samplerCalls (e : Engine) : List Call := e.calls.toList.filter Call.onSampler

/-- What the engine has of the turn state: the samples to come, which of them fail, and the calls.
-/
def sampling (e : Engine) : List Token × List Bool × List Call :=
  (e.script, e.faults.sample, e.samplerCalls)

/-- A call that concerns the sampler is added to those that do. -/
theorem samplerCalls_push {c : Call} (h : c.onSampler = true) (calls : Array Call) :
    (calls.push c).toList.filter Call.onSampler = calls.toList.filter Call.onSampler ++ [c] := by
  simp [h]

private theorem sampling_note {c : Call} (h : c.onSampler = false) (e : Engine) :
    sampling { e with calls := e.calls.push c } = sampling e := by
  simp [sampling, samplerCalls, h]

/-- Calls that neither decode nor concern the sampler leave it alone. -/
theorem frame_sampling : Frame sampling where
  calls e c hc := by cases c <;> first | exact sampling_note rfl e | cases hc
  faults e s hs := by
    cases s with
    | sample => contradiction
    | decode stream => cases stream <;> rfl
    | _ => rfl
  cells _ stream _ := by cases stream <;> rfl

private theorem keeps_sampling_decode (stream : Stream) (tokens : List Token) (start : Int) :
    Keeps sampling (decode stream tokens start) :=
  frame_sampling.keeps_decode (fun e _ _ => sampling_note rfl e) (fun _ _ _ => rfl) tokens start

end Engine

/-- What the progress has of the turn state. -/
def Progress.turnFields (p : Progress) : List Token × Nat × Int × Bool × List Token :=
  (p.queue, p.queueRead, p.remaining, p.userTurn, p.recent)

namespace Workbench

/-- Whose turn it is on a workbench. -/
def turnState (w : Workbench) : TurnState where
  script := w.engine.script
  drawFaults := w.engine.faults.sample
  calls := w.engine.samplerCalls
  queue := w.progress.queue
  queueRead := w.progress.queueRead
  remaining := w.progress.remaining
  userTurn := w.progress.userTurn
  recent := w.progress.recent

variable {ε : Type}

/-- A report leaves the turn state alone. -/
theorem keeps_turnState_report (e : Event) : Keeps turnState (report e : WorkM ε Unit) :=
  .modify fun _ => rfl

/-- A change of the progress leaves the turn state alone if it does not show there. -/
theorem keeps_turnState_advance {f : Progress → Progress} (hf : ∀ p, (f p).turnFields =
    p.turnFields) :
    Keeps turnState (advance f : WorkM ε Unit) := .modify fun w => by
  have h := hf w.progress
  simp only [Progress.turnFields, Prod.mk.injEq] at h
  simp only [turnState, h]

/-- A call leaves the turn state alone if it leaves alone the part of the engine that belongs to it.
-/
theorem keeps_turnState_call {α : Type} {x : EngineM α} (h : Keeps Engine.sampling x) :
    Keeps turnState (call x) := .onPart h fun _ _ he => by
  simp only [Engine.sampling, Prod.mk.injEq] at he
  simp only [turnState, he]

/-- Making room, feeding and saving leave it alone. -/
theorem frame_turnState : Frame turnState where
  engine w := Engine.frame_sampling.map fun p =>
    { w.turnState with script := p.1, drawFaults := p.2.1, calls := p.2.2 }
  decodes _ _ := keeps_turnState_call (Engine.keeps_sampling_decode _ _ _)
  reports _ _ _ := rfl
  progress _ _ _ _ _ := rfl
  files _ _ _ := rfl

end Workbench

namespace Session

/-- Whose turn it is. -/
def turnState (s : Session) : TurnState := s.toWorkbench.turnState

/-- Whose turn it is, and what that is decided by. -/
def turnAndConfig (s : Session) : TurnState × Config := (s.turnState, s.config)

/-- The turn state and the configuration are each as they were if both are together. -/
theorem turnAndConfig_eq {s t : Session} (h : t.turnAndConfig = s.turnAndConfig) :
    t.turnState = s.turnState ∧ t.config = s.config := Prod.mk.inj h

/-- What showing a step leaves alone. -/
def benchAndConfig (s : Session) : Workbench × Config := (s.toWorkbench, s.config)

/-- Evaluating a step and saving the prompt leave it alone. -/
theorem frame_turnAndConfig : StepFrame turnAndConfig where
  bench s := Workbench.frame_turnState.map (·, s.config)
  progress _ _ _ _ _ _ _ := rfl
  turn _ _ _ := rfl
  decodes s tokens start w := congrArg (·, s.config)
    (Workbench.keeps_turnState_call (Engine.keeps_sampling_decode .main tokens start) w)
  cuts _ _ := rfl
  fails _ _ := rfl

/-- What is shown leaves the workbench and the configuration. -/
theorem keeps_benchAndConfig_write (text : String) : Keeps benchAndConfig (write text) :=
  .bind .get fun _ => .bind (.modify fun _ => rfl) fun _ => .failIf _ _

/-- A call leaves the turn state and the configuration if it leaves alone the part of the engine
that belongs to the turn state. -/
theorem keeps_turnAndConfig_call {α : Type} {x : EngineM α} (h : Keeps Engine.sampling x) :
    Keeps turnAndConfig (call x) :=
  keeps_onBench_of_keeps _ fun s w => congrArg (·, s.config) (Workbench.keeps_turnState_call h w)

/-- Showing a step leaves the workbench and the configuration. -/
theorem keeps_benchAndConfig_display : Keeps benchAndConfig display := by
  refine .bind .get fun _ => ?_
  refine .onlyIf _ ?_
  refine .bind (.modify fun _ => rfl) fun _ => ?_
  exact .forM fun _ _ => .bind (keeps_benchAndConfig_write _) fun _ => .modify fun _ => rfl

/-- Showing a step leaves the turn state and the configuration. -/
theorem keeps_turnAndConfig_display : Keeps turnAndConfig display := fun s =>
  congrArg (fun p => (p.1.turnState, p.2)) (keeps_benchAndConfig_display s)

end Session

end Dialogue
