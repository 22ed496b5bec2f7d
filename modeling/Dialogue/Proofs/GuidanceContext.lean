import Dialogue.Effect.InStep
import Dialogue.Session.Ends
import Dialogue.Session.Frame
/-!
# The guidance context

What the guidance context amounts to, and what is left of a session when guidance is disregarded.
The operations that do not concern guidance are in step with themselves in the second view, whatever
the first one is, and leave the first one as it was.
-/

namespace Dialogue

open Effect

/-- Whether a call decodes into the guidance context. -/
def Call.onGuidance : Call → Bool
  | .decode .guidance .. => true
  | _ => false

/-- Whether a draw is guided. -/
def Call.draw? : Call → Option Bool
  | .sample guided => some guided
  | _ => none

/-- What is left of a call when guidance is disregarded. -/
def Call.plain? : Call → Option Call
  | .decode .guidance .. => none
  | .sample _ => some (.sample false)
  | c => some c

/-- What is left of an event when guidance is disregarded. -/
def Event.plain? : Event → Option Event
  | .decoding .guidance .. | .decoded .guidance _ | .guidanceFailed _ => none
  | .sampled token _ remaining => some (.sampled token false remaining)
  | e => some e

/-- What the guidance context amounts to. -/
@[ext] structure GuidanceContext where
  /-- How many tokens are resident. -/
  past : Int
  /-- Whether guidance is ready for the next draw. -/
  ready : Bool
  /-- The cells. -/
  cells : Cells
  /-- The calls that decode into it, oldest first. -/
  calls : List Call
  /-- Which of the next decode calls fail. -/
  faults : List Bool
  /-- Whether the engine has one. -/
  present : Bool

/-- The guidance context with its counter counted back from a position. -/
def GuidanceContext.backFrom (c : GuidanceContext) (position : Int) : GuidanceContext :=
  { c with past := position - c.past }

/-! ### The engine -/

namespace Engine

/-- The calls that decode into the guidance context, oldest first. -/
def guidanceCalls (e : Engine) : List Call := e.calls.toList.filter Call.onGuidance

/-- What the guidance context amounts to for the engine. -/
def guidancePart (e : Engine) : Cells × List Call × List Bool × Bool :=
  (e.guidanceCells, e.guidanceCalls, e.faults.decodeGuidance, e.hasGuidance)

/-- Which of the draws were guided, oldest first. -/
def draws (e : Engine) : List Bool := e.calls.toList.filterMap Call.draw?

/-- The guidance context, and which draws were guided. -/
def guidanceView (e : Engine) : (Cells × List Call × List Bool × Bool) × List Bool :=
  (e.guidancePart, e.draws)

/-- The engine when guidance is disregarded. -/
def plain (e : Engine) : Engine :=
  { e with
    guidanceCells := .empty
    faults := { e.faults with decodeGuidance := [] }
    calls := (e.calls.toList.filterMap Call.plain?).toArray
    batches := (e.batches.toList.filter (·.stream = .main)).toArray }

/-- A call is logged in its plain form, if it has one. -/
def log (c : Option Call) (e : Engine) : Engine :=
  match c with
  | some c => { e with calls := e.calls.push c }
  | none => e

private theorem plain_note (c : Call) (e : Engine) :
    plain { e with calls := e.calls.push c } = log c.plain? (plain e) := by
  unfold plain log
  cases hc : c.plain? <;> simp [hc]

private theorem guidancePart_note {c : Call} (h : c.onGuidance = false) (e : Engine) :
    guidancePart { e with calls := e.calls.push c } = guidancePart e := by
  simp [guidancePart, guidanceCalls, h]

private theorem guidanceView_note {c : Call} (hg : c.onGuidance = false) (hd : c.draw? = none)
    (e : Engine) :
    guidanceView { e with calls := e.calls.push c } = guidanceView e := by
  simp [guidanceView, guidancePart_note hg, draws, hd]

/-- A call is in step with itself if it neither concerns the guidance context nor draws. -/
theorem inStep_note {c : Call} (hg : c.onGuidance = false) (hd : c.draw? = none) :
    InStep plain guidanceView (note c) (note c) :=
  .modify (log c.plain?) (plain_note c) (plain_note c) (guidanceView_note hg hd)
    (guidanceView_note hg hd)

private theorem inStep_fails {s : Service} (h : s ≠ .decode .guidance) :
    InStep plain guidanceView (fails s) (fails s) := by
  match s with
  | .decode .guidance => contradiction
  | .decode .main | .sample | .remove | .shift | .takeSnapshot | .restoreSnapshot =>
    exact .modifyGet (fun _ => rfl) fun _ => rfl

/-- Spelling a text leaves guidance alone. -/
theorem inStep_tokenize (text : String) (addBos special : Bool) :
    InStep plain guidanceView (tokenize text addBos special) (tokenize text addBos special) := by
  refine .bind (inStep_note rfl rfl) fun _ => ?_
  refine .reads (fun _ => rfl) fun _ => ?_
  exact .bind (.failIf _ _) fun _ => .pure _

private theorem plain_decode_main (tokens : List Token) (start : Int) (e : Engine) :
    plain { e with
      mainCells := e.mainCells.write start tokens
      batches := e.batches.push ⟨.main, tokens, start⟩ } =
    { plain e with
      mainCells := e.mainCells.write start tokens
      batches := (plain e).batches.push ⟨.main, tokens, start⟩ } := by
  simp [plain]

private theorem inStep_decode_main (tokens : List Token) (start : Int) :
    InStep plain guidanceView (decode .main tokens start) (decode .main tokens start) := by
  refine .bind (inStep_note rfl rfl) fun _ => ?_
  refine .reads (fun _ => rfl) fun _ => ?_
  refine .bind (.failIf _ _) fun _ => ?_
  refine .bind (inStep_fails nofun) fun _ => ?_
  refine .bind (.failIf _ _) fun _ => ?_
  exact .change (plain_decode_main tokens start) fun _ => rfl

/-- Removing cells of the main context leaves guidance alone. -/
theorem inStep_removeCells (sequence : Option Nat) (first : Int) (last : Option Int) :
    InStep plain guidanceView (removeCells .main sequence first last)
      (removeCells .main sequence first last) := by
  refine .bind (inStep_note rfl rfl) fun _ => ?_
  refine .bind (inStep_fails nofun) fun _ => ?_
  exact .bind (.failIf _ _) fun _ => .change (fun _ => rfl) fun _ => rfl

private theorem inStep_shiftCells (sequence : Nat) (first : Int) (last : Option Int) (delta : Int) :
    InStep plain guidanceView (shiftCells .main sequence first last delta)
      (shiftCells .main sequence first last delta) := by
  refine .bind (inStep_note rfl rfl) fun _ => ?_
  refine .bind (inStep_fails nofun) fun _ => ?_
  exact .bind (.failIf _ _) fun _ => .change (fun _ => rfl) fun _ => rfl

private theorem inStep_takeSnapshot : InStep plain guidanceView takeSnapshot takeSnapshot := by
  refine .bind (inStep_note rfl rfl) fun _ => ?_
  refine .bind (inStep_fails nofun) fun _ => ?_
  refine .bind (.failIf _ _) fun _ => ?_
  exact .reads (fun _ => rfl) fun _ => .pure _

/-- Restoring a snapshot leaves guidance alone. -/
theorem inStep_restoreSnapshot (bytes : List UInt8) :
    InStep plain guidanceView (restoreSnapshot bytes) (restoreSnapshot bytes) := by
  refine .bind (inStep_note rfl rfl) fun _ => ?_
  refine .bind (inStep_fails nofun) fun _ => ?_
  refine .bind (.failIf _ _) fun _ => ?_
  exact .bind (.orFail _ _) fun _ => .change (fun _ => rfl) fun _ => rfl

/-- Setting the seed leaves guidance alone. -/
theorem inStep_setSeed (seed : Nat) : InStep plain guidanceView (setSeed seed) (setSeed seed) :=
  .bind (inStep_note rfl rfl) fun _ => .change (fun _ => rfl) fun _ => rfl

/-- A guided draw and one that is not are in step. -/
theorem inStep_sample (guided guided' : Bool) :
    InStep plain guidancePart (sample guided) (sample guided') := by
  refine .bind ?_ fun _ => ?_
  · exact .modify (log (some (.sample false))) (plain_note _) (plain_note _)
      (guidancePart_note rfl) (guidancePart_note rfl)
  · refine .bind ((inStep_fails (s := .sample) nofun).mono Prod.fst) fun _ => ?_
    exact .bind (.failIf _ _) fun _ => .modifyGet (fun _ => rfl) fun _ => rfl

/-- Decoding into the guidance context does not show when guidance is disregarded. -/
theorem keeps_plain_decode_guidance (tokens : List Token) (start : Int) :
    Keeps plain (decode .guidance tokens start) := by
  refine .bind (.modify (plain_note _)) fun _ => ?_
  refine .bind .get fun _ => ?_
  refine .bind (.failIf _ _) fun _ => ?_
  refine .bind (fun _ => rfl) fun _ => ?_
  exact .bind (.failIf _ _) fun _ => .modify fun e => by simp [plain, setCells]

end Engine

/-- The progress when guidance is disregarded. -/
def Progress.plain (p : Progress) : Progress :=
  { p with guidancePast := 0, guidanceInput := [], guidanceReady := false }

/-! ### The workbench -/

namespace Workbench

variable {ε α : Type}

/-- The guidance context of a workbench. -/
def guidanceContext (w : Workbench) : GuidanceContext where
  past := w.progress.guidancePast
  ready := w.progress.guidanceReady
  cells := w.engine.guidanceCells
  calls := w.engine.guidanceCalls
  faults := w.engine.faults.decodeGuidance
  present := w.engine.hasGuidance

/-- The guidance context, and which draws were guided. -/
def guidanceAndDraws (w : Workbench) : GuidanceContext × List Bool :=
    (w.guidanceContext, w.engine.draws)

/-- The guidance context, which draws were guided, and how many tokens are resident in the main
context. -/
def guidanceView (w : Workbench) : (GuidanceContext × List Bool) × Int :=
    (w.guidanceAndDraws, w.progress.past)

/-- The guidance context, with its counter counted back from the one of the main context if there is
guidance, and which draws were guided. -/
def relativeGuidance (guided : Bool) (w : Workbench) : GuidanceContext × List Bool :=
  (if guided then w.guidanceContext.backFrom w.progress.past else w.guidanceContext, w.engine.draws)

/-- The workbench when guidance is disregarded. -/
def plain (w : Workbench) : Workbench :=
  { w with
    engine := w.engine.plain
    journal := (w.journal.toList.filterMap Event.plain?).toArray
    progress := w.progress.plain }

/-- What leaves both counters alone leaves their distance alone. -/
theorem relativeGuidance_of_guidanceView (guided : Bool) {x y : WorkM ε α}
    (h : InStep plain guidanceView x y) :
    InStep plain (relativeGuidance guided) x y :=
  h.mono fun v => (if guided then v.1.1.backFrom v.2 else v.1.1, v.1.2)

/-- An event is logged in its plain form, if it has one. -/
def logEvent (e : Option Event) (w : Workbench) : Workbench :=
  match e with
  | some e => { w with journal := w.journal.push e }
  | none => w

/-- A report is logged in its plain form when guidance is disregarded. -/
theorem plain_report (e : Event) (w : Workbench) :
    plain { w with journal := w.journal.push e } = logEvent e.plain? (plain w) := by
  unfold plain logEvent
  cases he : e.plain? <;> simp [he]

/-- Events are in step that are the same when guidance is disregarded. -/
theorem inStep_reports {e e' : Event} (h : e.plain? = e'.plain?) :
    InStep plain guidanceView (report e : WorkM ε Unit) (report e') := by
  refine .modify (logEvent e.plain?) (plain_report e) ?_ (fun _ => rfl) fun _ => rfl
  rw [h]
  exact plain_report e'

/-- A report leaves guidance alone. -/
theorem inStep_report (e : Event) : InStep plain guidanceView (report e : WorkM ε Unit)
    (report e) :=
  inStep_reports rfl

/-- Calls are in step on workbenches if they are on engines. -/
theorem inStep_call {x y : EngineM α} (h : InStep Engine.plain Engine.guidanceView x y) :
    InStep plain guidanceView (call x) (call y) := by
  refine .onPart h (fun _ _ hw => congrArg Workbench.engine hw) ?_ ?_
  · intro w w' e e' hw he
    simp only [plain, Workbench.mk.injEq] at hw ⊢
    exact ⟨he, hw.2⟩
  · intro w e he
    simp only [Engine.guidanceView, Engine.guidancePart, Prod.mk.injEq] at he
    simp only [guidanceView, guidanceAndDraws, guidanceContext, he]

/-- A guided draw and one that is not are in step. -/
theorem inStep_sample (guided guided' : Bool) :
    InStep plain guidanceContext (call (Engine.sample guided)) (call (Engine.sample guided')) := by
  refine .onPart (Engine.inStep_sample guided guided')
    (fun _ _ hw => congrArg Workbench.engine hw) ?_ ?_
  · intro w w' e e' hw he
    simp only [plain, Workbench.mk.injEq] at hw ⊢
    exact ⟨he, hw.2⟩
  · intro w e he
    simp only [Engine.guidancePart, Prod.mk.injEq] at he
    simp only [guidanceContext, he]

private theorem inStep_batches_main (l : List (List Token)) (position : Int) (evaluated : Nat) :
    InStep plain guidanceView (Feed.batches .main l position evaluated)
      (Feed.batches .main l position evaluated) := by
  induction l generalizing position evaluated with
  | nil => exact .pure _
  | cons batch rest ih =>
    exact .bind (inStep_report _) fun _ =>
      .bind (.adaptExcept _ (inStep_call (Engine.inStep_decode_main _ _))) fun _ => ih _ _

/-- Feeding the main context leaves the guidance context alone. -/
theorem inStep_feed_main (tokens : List Token) (batchSize : Nat) :
    InStep plain guidanceAndDraws (Feed.feed .main tokens batchSize)
      (Feed.feed .main tokens batchSize) := by
  refine .reads (fun _ => rfl) fun w =>
    .bind (.attempt ((inStep_batches_main _ _ _).mono Prod.fst)) fun r => ?_
  cases r with
  | ok past =>
    exact .bind (.change (fun _ => rfl) fun _ => rfl) fun _ => (inStep_report _).mono Prod.fst
  | error e => exact .bind (.change (fun _ => rfl) fun _ => rfl) fun _ => .throw _

private theorem inStep_disable :
    InStep plain guidanceView (Cache.disable : WorkM ε Unit) Cache.disable :=
  .change (fun _ => rfl) fun _ => rfl

private theorem inStep_invalidate :
    InStep plain guidanceView (Cache.invalidate : WorkM ε Unit) Cache.invalidate := by
  refine .reads (fun _ => rfl) fun w => ?_
  cases w.cache.path with
  | none => exact .pure _
  | some path => exact .bind inStep_disable fun _ => inStep_report _

/-- An eviction takes as much off both counters if there is guidance. -/
theorem inStep_evict (w : Window) (guided : Bool) (past n : Int) :
    InStep plain (relativeGuidance guided) (w.evict guided past n) (w.evict guided past n) := by
  have hrewinds : InStep plain (relativeGuidance guided)
      (do
        advance (·.rewind .main n)
        onlyIf guided (advance (·.rewind .guidance n)) : WorkM EngineError Unit)
      (do
        advance (·.rewind .main n)
        onlyIf guided (advance (·.rewind .guidance n))) := by
    cases guided with
    | false => exact .change (fun _ => rfl) fun _ => rfl
    | true =>
      have hrelativeGuidance (w : Workbench) :
          relativeGuidance true
              { w with progress := (w.progress.rewind .main n).rewind .guidance n } =
            relativeGuidance true w := by
        have hlag : w.progress.past - n - (w.progress.guidancePast - n) =
            w.progress.past - w.progress.guidancePast := by omega
        simp only [relativeGuidance, guidanceContext, GuidanceContext.backFrom, Progress.rewind,
          Progress.setPast, Progress.pastOn, hlag, if_true]
      exact .modify (fun w => { w with progress := w.progress.rewind .main n }) (fun _ => rfl)
        (fun _ => rfl) hrelativeGuidance hrelativeGuidance
  refine .bind (relativeGuidance_of_guidanceView _
    (inStep_call (Engine.inStep_removeCells _ _ _))) fun _ => ?_
  exact .bind (relativeGuidance_of_guidanceView _
    (inStep_call (Engine.inStep_shiftCells _ _ _ _))) fun _ => hrewinds

private theorem inStep_swap (w : Window) (guided : Bool) :
    InStep plain (relativeGuidance guided) (w.swap guided) (w.swap guided) := by
  refine .reads (fun _ => rfl) fun _ => ?_
  refine .bind (relativeGuidance_of_guidanceView _ (inStep_report _)) fun _ => ?_
  refine .bind (.ite (inStep_evict w _ _ _) (relativeGuidance_of_guidanceView _ (inStep_report _)))
    fun _ => ?_
  refine .bind (relativeGuidance_of_guidanceView _ inStep_invalidate) fun _ => ?_
  exact .reads (fun _ => rfl) fun _ => .pure _

/-- Making room leaves the distance of the two counters if there is guidance. -/
theorem inStep_ensureRoom (w : Window) (offset : Option Int) :
    InStep plain (relativeGuidance offset.isSome) (w.ensureRoom offset) (w.ensureRoom offset) :=
  .reads (fun _ => rfl) fun _ => .bind (.mapM fun _ _ => inStep_swap w _) fun _ => .pure _

private theorem inStep_save (path : String) (tokens : List Token) :
    InStep plain guidanceView (Cache.save path tokens) (Cache.save path tokens) := by
  refine .bind (.adaptExcept _ (inStep_call Engine.inStep_takeSnapshot)) fun state =>
    .reads (fun _ => rfl) fun w => ?_
  split
  · exact .throw _
  · exact .bind (.change (fun _ => rfl) fun _ => rfl) fun _ => inStep_report _

/-- Giving the session file up leaves guidance alone. -/
theorem inStep_giveUp (error : FileError) :
    InStep plain guidanceView (Cache.giveUp error : WorkM ε Unit) (Cache.giveUp error) :=
  .bind (inStep_report _) fun _ => inStep_disable

/-- Saving the session file leaves guidance alone. -/
theorem inStep_saveOrDisable (tokens : List Token) :
    InStep plain guidanceView (Cache.saveOrDisable tokens : WorkM ε Bool)
      (Cache.saveOrDisable tokens) := by
  have hsaves (path : String) : InStep plain guidanceView
      (Cache.saveOrGiveUp path tokens : WorkM ε Bool) (Cache.saveOrGiveUp path tokens) := by
    refine .bind (.attempt (inStep_save _ _)) fun r => ?_
    cases r with
    | ok u => exact .pure _
    | error e => exact .bind (inStep_giveUp e) fun _ => .pure _
  refine .reads (fun _ => rfl) fun w => ?_
  dsimp only
  split
  · exact .pure _
  · exact .ite (.pure _) (hsaves _)

/-! ### A step of guidance -/

/-- A step of guidance does not show when guidance is disregarded. -/
theorem guidanceFrame_plain : GuidanceFrame plain where
  decoding w _ _ := plain_report _ w
  decodes tokens start := keeps_call fun w e => by
    have he := Engine.keeps_plain_decode_guidance tokens start e
    simp only [plain, he]
  decoded w _ := plain_report _ w
  progress _ _ _ _ := rfl

end Workbench

end Dialogue
