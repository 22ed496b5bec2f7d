import Dialogue.Effect.Ends
import Dialogue.Session.Basic
/-!
# Where work on a session ends

The rules for the computations that work on a workbench and on a session is made of.
-/

namespace Dialogue

open Effect

variable {ε α : Type}

namespace Workbench

/-- A report is added to the journal. -/
theorem ends_report {e : Event} {w : Workbench} {Q : Except ε Unit → Workbench → Prop} :
    Ends (report e) w Q ↔ Q (.ok ()) { w with journal := w.journal.push e } := Iff.rfl

/-- A change of the progress is made. -/
theorem ends_advance {f : Progress → Progress} {w : Workbench}
    {Q : Except ε Unit → Workbench → Prop} :
    Ends (advance f) w Q ↔ Q (.ok ()) { w with progress := f w.progress } := Iff.rfl

/-- A call ends as it does on the engine. -/
theorem ends_call {x : EngineM α} {w : Workbench} {Q : Except EngineError α → Workbench → Prop} :
    Ends (call x) w Q ↔ Ends x w.engine fun r e => Q r { w with engine := e } :=
  ends_onPart

end Workbench

namespace Session

/-- What is not on the workbench stays as it was when work is done there. -/
theorem keeps_onBench {τ : Type} {f : Session → τ}
    (hf : ∀ s w, f { s with toWorkbench := w } = f s) (wrap : ε → SessionError) (x : WorkM ε α) :
    Keeps f (onBench wrap x) :=
  .adaptExcept _ (.onPart (g := fun _ => ()) (fun _ => rfl) fun s w _ => hf s w)

/-- Work on the workbench ends as it does there, with its failure wrapped. -/
theorem ends_onBench {wrap : ε → SessionError} {x : WorkM ε α} {s : Session}
    {Q : Except SessionError α → Session → Prop} :
    Ends (onBench wrap x) s Q ↔
      Ends x s.toWorkbench fun r b => Q (r.mapError wrap) { s with toWorkbench := b } :=
  ends_adaptExcept.trans ends_onPart

/-- Work on the workbench ends as it does there, with its failure as a value. -/
theorem ends_tryOnBench {x : WorkM ε α} {s : Session}
    {Q : Except SessionError (Except ε α) → Session → Prop} :
    Ends (tryOnBench x) s Q ↔
      Ends x s.toWorkbench fun r b => Q (.ok r) { s with toWorkbench := b } :=
  ends_onBench.trans ends_attempt

/-- A call ends as it does on the engine, with its failure wrapped. -/
theorem ends_call {x : EngineM α} {s : Session} {Q : Except SessionError α → Session → Prop} :
    Ends (call x) s Q ↔
      Ends x s.engine fun r e => Q (r.mapError .engine) { s with engine := e } :=
  ends_onBench.trans Workbench.ends_call

/-- A report is added to the journal. -/
theorem ends_report {e : Event} {s : Session} {Q : Except SessionError Unit → Session → Prop} :
    Ends (report e) s Q ↔ Q (.ok ()) { s with journal := s.journal.push e } := Iff.rfl

/-- A change of the progress is made. -/
theorem ends_advance {f : Progress → Progress} {s : Session}
    {Q : Except SessionError Unit → Session → Prop} :
    Ends (advance f) s Q ↔ Q (.ok ()) { s with progress := f s.progress } := Iff.rfl

end Session

end Dialogue
