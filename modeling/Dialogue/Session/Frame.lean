import Dialogue.Session.Pass
import Dialogue.Session.Query
/-!
# What the work on a session leaves alone

Making room for a step, feeding it to the contexts, saving the prompt, ending a turn and hearing the
user change a session in a few ways only. A view of the session that none of these ways touches is
left alone by all of this work, whether or not something fails. A frame is such a view, of an
engine, a workbench or a session: the ways are checked for each frame, and the computations are gone
through once, for all frames.
-/

namespace Dialogue

open Effect

variable {ε α τ υ : Type}

/-- How many tokens are cut off. -/
def Event.cut? : Event → Option Nat
  | .inputCut n => some n
  | _ => none

/-- Whether a call neither decodes nor concerns the sampler. -/
def Call.isQuiet : Call → Bool
  | .decode .. | .sample .. | .accept .. | .resetSampler => false
  | _ => true

/-! ### An engine -/

namespace Engine

/-- A view of an engine that calls leave alone unless they decode or concern the sampler. -/
structure Frame (f : Engine → τ) : Prop where
  /-- The calls are logged. -/
  calls : ∀ e c, c.isQuiet = true → f { e with calls := e.calls.push c } = f e
  /-- Their schedules move on. -/
  faults : ∀ e s, s ≠ .sample → f { e with faults := e.faults.next s } = f e
  /-- Cells change. -/
  cells : ∀ e stream c, f (e.setCells stream c) = f e

namespace Frame

/-- A view that is always the same is left alone by calls. -/
theorem const (a : τ) : Frame fun _ => a := ⟨fun _ _ _ => rfl, fun _ _ _ => rfl, fun _ _ _ => rfl⟩

variable {f : Engine → τ} (h : Frame f)

include h

/-- What a view tells is left alone by calls that leave the view alone. -/
theorem map (g : τ → υ) : Frame fun e => g (f e) where
  calls e c hc := congrArg g (h.calls e c hc)
  faults e s hs := congrArg g (h.faults e s hs)
  cells e stream c := congrArg g (h.cells e stream c)

private theorem keeps_note {c : Call} (hc : c.isQuiet = true) : Keeps f (note c) :=
  .modify fun e => h.calls e c hc

private theorem keeps_fails {s : Service} (hs : s ≠ .sample) : Keeps f (fails s) :=
  fun e => h.faults e s hs

/-- Spelling a text is quiet. -/
theorem keeps_tokenize (text : String) (addBos special : Bool) :
    Keeps f (tokenize text addBos special) := by
  refine .bind (h.keeps_note rfl) fun _ => ?_
  refine .bind .get fun _ => ?_
  exact .bind (.failIf _ _) fun _ => .pure _

/-- Decoding is left alone if the call and the batch do not show. -/
theorem keeps_decode {stream : Stream}
    (hcalls : ∀ e tokens start,
      f { e with calls := e.calls.push (.decode stream tokens start) } = f e)
    (hbatches : ∀ e tokens start,
      f { e with batches := e.batches.push ⟨stream, tokens, start⟩ } = f e)
    (tokens : List Token) (start : Int) : Keeps f (decode stream tokens start) := by
  refine .bind (.modify fun e => hcalls e tokens start) fun _ => ?_
  refine .bind .get fun _ => ?_
  refine .bind (.failIf _ _) fun _ => ?_
  refine .bind (h.keeps_fails nofun) fun _ => ?_
  refine .bind (.failIf _ _) fun _ => ?_
  refine .modify fun e => ?_
  have hlogged : (e.setCells stream ((e.cells stream).write start tokens)).batches = e.batches := by
    cases stream <;> rfl
  rw [← hlogged, hbatches, h.cells]

/-- Removing cells is quiet. -/
theorem keeps_removeCells (stream : Stream) (sequence : Option Nat) (first : Int)
    (last : Option Int) : Keeps f (removeCells stream sequence first last) := by
  refine .bind (h.keeps_note rfl) fun _ => ?_
  refine .bind (h.keeps_fails nofun) fun _ => ?_
  exact .bind (.failIf _ _) fun _ => .modify fun _ => h.cells _ _ _

private theorem keeps_shiftCells (stream : Stream) (sequence : Nat) (first : Int)
    (last : Option Int) (delta : Int) : Keeps f (shiftCells stream sequence first last delta) := by
  refine .bind (h.keeps_note rfl) fun _ => ?_
  refine .bind (h.keeps_fails nofun) fun _ => ?_
  exact .bind (.failIf _ _) fun _ => .modify fun _ => h.cells _ _ _

private theorem keeps_takeSnapshot : Keeps f takeSnapshot := by
  refine .bind (h.keeps_note rfl) fun _ => ?_
  refine .bind (h.keeps_fails nofun) fun _ => ?_
  refine .bind (.failIf _ _) fun _ => ?_
  exact .bind .get fun _ => .pure _

/-- Restoring a snapshot is quiet. -/
theorem keeps_restoreSnapshot (bytes : List UInt8) : Keeps f (restoreSnapshot bytes) := by
  refine .bind (h.keeps_note rfl) fun _ => ?_
  refine .bind (h.keeps_fails nofun) fun _ => ?_
  refine .bind (.failIf _ _) fun _ => ?_
  exact .bind (.orFail _ _) fun cells => .modify fun e => h.cells e .main cells

end Frame

end Engine

/-! ### A workbench -/

namespace Workbench

/-- What a call leaves alone of the engine it leaves alone of the workbench. -/
theorem keeps_call {f : Workbench → τ} {x : EngineM α}
    (hx : ∀ w : Workbench, Keeps (fun e => f { w with engine := e }) x) : Keeps f (call x) := by
  intro w
  have hw := hx w w.engine
  unfold call onPart
  cases h : x w.engine <;> rw [h] at hw <;> exact hw

/-- A view of a workbench that feeding the guidance context leaves alone. -/
structure GuidanceFrame (f : Workbench → τ) : Prop where
  /-- A batch is reported. -/
  decoding : ∀ w p n, f { w with journal := w.journal.push (.decoding .guidance p n) } = f w
  /-- Tokens are decoded. -/
  decodes : ∀ tokens start, Keeps f (call (Engine.decode .guidance tokens start))
  /-- The end of it is reported. -/
  decoded : ∀ w p, f { w with journal := w.journal.push (.decoded .guidance p) } = f w
  /-- The guidance context changes. -/
  progress : ∀ w guidancePast guidanceInput guidanceReady,
    f { w with progress := { w.progress with guidancePast, guidanceInput, guidanceReady } } = f w

namespace GuidanceFrame

variable {f : Workbench → τ} (h : GuidanceFrame f)

include h

private theorem keeps_batches (l : List (List Token)) (position : Int) (evaluated : Nat) :
    Keeps f (Feed.batches .guidance l position evaluated) := by
  induction l generalizing position evaluated with
  | nil => exact .pure _
  | cons batch rest ih =>
    exact .bind (.modify fun _ => h.decoding _ _ _) fun _ =>
      .bind (.adaptExcept _ (h.decodes _ _)) fun _ => ih _ _

private theorem keeps_feed (tokens : List Token) (batchSize : Nat) :
    Keeps f (Feed.feed .guidance tokens batchSize) := by
  refine .bind .get fun _ => .bind (.attempt (h.keeps_batches _ _ _)) fun r => ?_
  cases r with
  | ok _ =>
    exact .bind (.modify fun _ => h.progress _ _ _ _) fun _ => .modify fun _ => h.decoded _ _
  | error _ => exact .bind (.modify fun _ => h.progress _ _ _ _) fun _ => .throw _

/-- A step of the guidance context leaves the view alone. -/
theorem keeps_step (g : Guidance) (batchSize : Nat) : Keeps f (g.step batchSize) := by
  refine .bind .get fun _ => ?_
  refine .bind (.onlyIf _ (.modify fun _ => h.progress _ _ _ _)) fun _ => ?_
  refine .bind (.attempt (h.keeps_feed _ _)) fun r => ?_
  cases r with
  | ok _ => exact .modify fun _ => h.progress _ _ _ _
  | error _ => exact .bind (.modify fun _ => h.progress _ _ _ _) fun _ => .throw _

end GuidanceFrame

/-- A view of a workbench that making room, feeding the guidance context and saving leave alone. -/
structure Frame (f : Workbench → τ) : Prop where
  /-- Cells and snapshots are asked for. -/
  engine : ∀ w : Workbench, Engine.Frame fun e => f { w with engine := e }
  /-- Tokens are decoded for the guidance context. -/
  decodes : ∀ tokens start, Keeps f (call (Engine.decode .guidance tokens start))
  /-- Events are reported, none of them of tokens cut off. -/
  reports : ∀ w e, Event.cut? e = none → f { w with journal := w.journal.push e } = f w
  /-- Contexts are counted, and the guidance context is prepared. -/
  progress : ∀ w past guidancePast guidanceInput guidanceReady,
    f { w with progress := { w.progress with past, guidancePast, guidanceInput, guidanceReady } } =
      f w
  /-- The session file is written, or no longer used. -/
  files : ∀ w directory cache, f { w with directory, cache } = f w

namespace Frame

/-- A view that is always the same is left alone on a workbench. -/
theorem const (a : τ) : Frame fun _ => a where
  engine _ := .const a
  decodes _ _ _ := rfl
  reports _ _ _ := rfl
  progress _ _ _ _ _ := rfl
  files _ _ _ := rfl

variable {f : Workbench → τ} (h : Frame f)

include h

/-- What a view tells is left alone on a workbench where the view is. -/
theorem map (g : τ → υ) : Frame fun w => g (f w) where
  engine w := (h.engine w).map g
  decodes tokens start w := congrArg g (h.decodes tokens start w)
  reports w e he := congrArg g (h.reports w e he)
  progress w _ _ _ _ := congrArg g (h.progress w _ _ _ _)
  files w directory cache := congrArg g (h.files w directory cache)

private theorem guidance : GuidanceFrame f where
  decoding w _ _ := h.reports w _ rfl
  decodes := h.decodes
  decoded w _ := h.reports w _ rfl
  progress w _ _ _ := h.progress w _ _ _ _

private theorem keeps_report {e : Event} (he : e.cut? = none) : Keeps f (report e : WorkM ε Unit) :=
  .modify fun w => h.reports w e he

private theorem keeps_setPast (stream : Stream) (n : Progress → Int) :
    Keeps f (advance (fun p => p.setPast stream (n p)) : WorkM ε Unit) := .modify fun w => by
  cases stream <;> exact h.progress w _ _ _ _

private theorem keeps_invalidate : Keeps f (Cache.invalidate : WorkM ε Unit) := by
  refine .bind .get fun w => ?_
  cases w.cache.path with
  | none => exact .pure _
  | some path => exact .bind (.modify fun _ => h.files _ _ _) fun _ => h.keeps_report rfl

private theorem keeps_evict (w : Window) (guided : Bool) (past n : Int) :
    Keeps f (w.evict guided past n) := by
  refine .bind (keeps_call fun b => (h.engine b).keeps_removeCells _ _ _ _) fun _ => ?_
  refine .bind (keeps_call fun b => (h.engine b).keeps_shiftCells _ _ _ _ _) fun _ => ?_
  exact .bind (h.keeps_setPast .main _) fun _ => .onlyIf _ (h.keeps_setPast .guidance _)

private theorem keeps_swap (w : Window) (guided : Bool) : Keeps f (w.swap guided) := by
  refine .bind .get fun _ => ?_
  refine .bind (h.keeps_report rfl) fun _ => ?_
  refine .bind (.ite (h.keeps_evict _ _ _ _) (h.keeps_report rfl)) fun _ => ?_
  refine .bind h.keeps_invalidate fun _ => ?_
  exact .bind .get fun _ => .pure _

private theorem keeps_ensureRoom (w : Window) (offset : Option Int) :
    Keeps f (w.ensureRoom offset) :=
  .bind .get fun _ => .bind (.mapM fun _ _ => h.keeps_swap w _) fun _ => .pure _

/-- Feeding a context is left alone if the decode calls are. -/
theorem keeps_feed {stream : Stream}
    (hdecodes : ∀ tokens start, Keeps f (call (Engine.decode stream tokens start)))
    (tokens : List Token) (batchSize : Nat) : Keeps f (Feed.feed stream tokens batchSize) := by
  have hbatches (l : List (List Token)) (position : Int) (evaluated : Nat) :
      Keeps f (Feed.batches stream l position evaluated) := by
    induction l generalizing position evaluated with
    | nil => exact .pure _
    | cons batch rest ih =>
      exact .bind (h.keeps_report rfl) fun _ =>
        .bind (.adaptExcept _ (hdecodes _ _)) fun _ => ih _ _
  refine .bind .get fun _ => .bind (.attempt (hbatches _ _ _)) fun r => ?_
  cases r with
  | ok past => exact .bind (h.keeps_setPast _ _) fun _ => h.keeps_report rfl
  | error e => exact .bind (h.keeps_setPast _ _) fun _ => .throw _

private theorem keeps_giveUp (error : FileError) : Keeps f (Cache.giveUp error : WorkM ε Unit) :=
  .bind (h.keeps_report rfl) fun _ => .modify fun _ => h.files _ _ _

private theorem keeps_save (path : String) (tokens : List Token) :
    Keeps f (Cache.save path tokens) := by
  refine .bind (.adaptExcept _ (keeps_call fun w => (h.engine w).keeps_takeSnapshot)) fun _ =>
    .bind .get fun _ => ?_
  split
  · exact .throw _
  · exact .bind (.modify fun _ => h.files _ _ _) fun _ => h.keeps_report rfl

private theorem keeps_saveOrDisable (tokens : List Token) :
    Keeps f (Cache.saveOrDisable tokens : WorkM ε Bool) := by
  have hsaves (path : String) : Keeps f (Cache.saveOrGiveUp path tokens : WorkM ε Bool) := by
    refine .bind (.attempt (h.keeps_save _ _)) fun r => ?_
    cases r with
    | ok _ => exact .pure _
    | error _ => exact .bind (h.keeps_giveUp _) fun _ => .pure _
  refine .bind .get fun _ => ?_
  dsimp only
  split
  · exact .pure _
  · exact .ite (.pure _) (hsaves _)

end Frame

end Workbench

/-! ### A session -/

namespace Session

/-- What work on the workbench leaves alone of it is left alone of the session. -/
theorem keeps_onBench_of_keeps {f : Session → τ} (wrap : ε → SessionError) {x : WorkM ε α}
    (hx : ∀ s : Session, Keeps (fun w => f { s with toWorkbench := w }) x) :
    Keeps f (onBench wrap x) := by
  refine .adaptExcept _ fun s => ?_
  have hs := hx s s.toWorkbench
  unfold onPart
  cases h : x s.toWorkbench <;> rw [h] at hs <;> exact hs

/-- A view of a session that making room, feeding the guidance context, saving and ending the turn
leave alone. -/
structure Frame (f : Session → τ) : Prop where
  /-- The workbench is worked on. -/
  bench : ∀ s : Session, Workbench.Frame fun w => f { s with toWorkbench := w }
  /-- The step is prepared, counted and logged, and the prompt is saved. -/
  progress : ∀ s pending guidanceInput logged loggedRead past savePending,
    f { s with
      progress :=
        { s.progress with pending, guidanceInput, logged, loggedRead, past, savePending } } = f s
  /-- The phase changes, and the user is told something. -/
  turn : ∀ s phase output, f { s with phase, output } = f s

namespace Frame

variable {f : Session → τ} (h : Frame f)

include h

private theorem map (g : τ → υ) : Frame fun s => g (f s) where
  bench s := (h.bench s).map g
  progress s _ _ _ _ _ _ := congrArg g (h.progress s _ _ _ _ _ _)
  turn s _ _ := congrArg g (h.turn s _ _)

/-- A report that tells of no cut leaves the view alone. -/
theorem keeps_report {e : Event} (he : e.cut? = none) : Keeps f (report e) :=
  .modify fun s => (h.bench s).reports s.toWorkbench e he

/-- A change of the phase leaves the view alone. -/
theorem keeps_enter (phase : Phase) : Keeps f (enter phase) := .modify fun s => h.turn s _ _

/-- What is shown leaves the view alone. -/
theorem keeps_write (text : String) : Keeps f (write text) :=
  .bind .get fun _ => .bind (.modify fun s => h.turn s _ _) fun _ => .failIf _ _

/-- Giving the step up leaves the view alone. -/
theorem keeps_clearPending : Keeps f clearPending := .modify fun s => h.progress s _ _ _ _ _ _

private theorem keeps_logPending (n : Nat) : Keeps f (logPending n) :=
  .bind .get fun _ => .onlyIf _ (.modify fun s => h.progress s _ _ _ _ _ _)

/-- Feeding the guidance context leaves the view alone. -/
theorem keeps_feedGuidance : Keeps f feedGuidance := by
  refine .bind .get fun _ => ?_
  split
  · exact .pure _
  · refine .bind (keeps_onBench_of_keeps _ fun s =>
      .attempt ((h.bench s).guidance.keeps_step _ _)) fun r => ?_
    cases r with
    | ok _ => exact .pure _
    | error _ => exact h.keeps_report rfl

/-- Making room leaves the view alone. -/
theorem keeps_makeRoom : Keeps f makeRoom :=
  .bind .get fun _ => .bind (keeps_onBench_of_keeps _ fun s => (h.bench s).keeps_ensureRoom _ _)
    fun _ => .pure _

/-- Saving the prompt leaves the view alone. -/
theorem keeps_savePrompt : Keeps f savePrompt := by
  refine .bind .get fun _ => ?_
  refine .onlyIf _ ?_
  refine .bind (.modify fun s => h.progress s _ _ _ _ _ _) fun _ => ?_
  refine .bind (.bind ?_ fun _ => .pure _) fun _ => h.keeps_report rfl
  exact keeps_onBench_of_keeps _ fun s => (h.bench s).keeps_saveOrDisable _

/-- Finishing a turn leaves the view alone. -/
theorem keeps_finish (phase : Phase) (reason : StopReason) : Keeps f (finish phase reason) := by
  refine .bind (h.keeps_enter _) fun _ => ?_
  refine .bind .get fun _ => ?_
  exact .bind (h.keeps_report rfl) fun _ => .pure _

/-- Finishing the user's turn leaves the view alone. -/
theorem keeps_finishIfUserTurn (reason : StopReason) : Keeps f (finishIfUserTurn reason) :=
  .bind .get fun _ => .ite (.bind (h.keeps_finish _ _) fun _ => .pure _) (.pure _)

end Frame

/-- A view of a session that evaluating a step leaves alone. -/
structure StepFrame (f : Session → τ) : Prop extends Frame f where
  /-- Tokens are decoded for the main context. -/
  decodes : ∀ (s : Session) tokens start, Keeps (fun w => f { s with toWorkbench := w })
    (Workbench.call (Engine.decode .main tokens start))
  /-- It is reported that tokens are cut off. -/
  cuts : ∀ s n, f { s with journal := s.journal.push (.inputCut n) } = f s
  /-- Failures are counted. -/
  fails : ∀ s decodeFailures, f { s with decodeFailures } = f s

namespace StepFrame

variable {f : Session → τ} (h : StepFrame f)

include h

/-- What a view tells is left alone by steps that leave the view alone. -/
theorem map (g : τ → υ) : StepFrame fun s => g (f s) where
  toFrame := h.toFrame.map g
  decodes s tokens start w := congrArg g (h.decodes s tokens start w)
  cuts s n := congrArg g (h.cuts s n)
  fails s n := congrArg g (h.fails s n)

private theorem keeps_cutPending (max : Nat) : Keeps f (cutPending max) := by
  refine .bind .get fun _ => ?_
  refine .onlyIf _ ?_
  refine .bind (.modify fun s => h.progress s _ _ _ _ _ _) fun _ => ?_
  exact .bind (.modify fun s => h.cuts s _) fun _ => h.keeps_write _

private theorem keeps_failStep (error : DecodeError) : Keeps f (failStep error) := by
  refine .bind (.modify fun s => h.fails s _) fun _ => ?_
  refine .bind .get fun _ => ?_
  refine .bind (h.keeps_report rfl) fun _ => ?_
  refine .bind (h.keeps_logPending _) fun _ => ?_
  refine .bind .get fun _ => ?_
  refine .onlyIf _ ?_
  refine .bind h.keeps_clearPending fun _ => ?_
  refine .bind (.modify fun s => ?_) fun _ => .throw _
  exact (h.bench s).progress s.toWorkbench _ _ _ _

private theorem keeps_feedMain : Keeps f feedMain := by
  refine .bind .get fun _ => .bind (keeps_onBench_of_keeps _ fun s =>
    .attempt ((h.bench s).keeps_feed (h.decodes s) _ _)) fun r => ?_
  cases r with
  | ok _ => exact .bind (.modify fun s => h.fails s _) fun _ => h.keeps_logPending _
  | error e => exact h.keeps_failStep e

/-- Evaluating the pending tokens leaves the view alone. -/
theorem keeps_evaluatePending : Keeps f evaluatePending := by
  have hreuses : Keeps f (advance Progress.reuse) := .modify fun s => h.progress s _ _ _ _ _ _
  have hfeeds (room : Nat) : Keeps f (feedPending room) := by
    refine .bind (h.keeps_cutPending _) fun _ => ?_
    refine .bind hreuses fun _ => ?_
    exact .bind h.keeps_feedGuidance fun _ => h.keeps_feedMain
  refine .bind .get fun _ => ?_
  refine .ite (.pure _) ?_
  refine .bind .get fun _ => ?_
  refine .bind (h.keeps_cutPending _) fun _ => ?_
  refine .bind .get fun _ => ?_
  refine .ite (.bind (h.keeps_report rfl) fun _ => .pure _) ?_
  refine .bind h.keeps_makeRoom fun _ => ?_
  refine .bind .get fun _ => ?_
  exact .ite (.bind (h.keeps_report rfl) fun _ => .pure _) (.bind (hfeeds _) fun _ => .pure _)

end StepFrame

/-- A view of a session that deciding whose turn it is leaves alone. -/
structure TurnFrame (f : Session → τ) : Prop extends Frame f where
  /-- A reverse prompt is queued, draws are renewed, and control is handed over. -/
  hands : ∀ s queue remaining userTurn atAntiprompt,
    f { s with progress := { s.progress with queue, remaining, userTurn, atAntiprompt } } = f s

namespace TurnFrame

variable {f : Session → τ} (h : TurnFrame f)

include h

private theorem keeps_handOver : Keeps f handOver := by
  have hreports : Keeps f reportAntiprompt := by
    refine .bind .get fun s => ?_
    split
    · exact .pure _
    · exact h.keeps_report rfl
  have hqueues : Keeps f queueAntiprompt := by
    refine .bind .get fun s => ?_
    split
    · exact .pure _
    · exact .bind (keeps_onBench_of_keeps _ fun s => Workbench.keeps_call fun w =>
        ((h.bench s).engine w).keeps_tokenize _ _ _) fun _ => .modify fun s => h.hands s _ _ _ _
  refine .bind hreports fun _ => ?_
  refine .bind .get fun _ => ?_
  refine .bind (.onlyIf _ hqueues) fun _ => ?_
  refine .bind (.onlyIf _ (.bind (h.keeps_report rfl) fun _ => h.keeps_write _)) fun _ => ?_
  exact .bind (.modify fun s => h.hands s _ _ _ _) fun _ => .pure _

/-- Deciding whose turn it is leaves the view alone. -/
theorem keeps_conclude : Keeps f conclude := by
  have hdrained (spent : Bool) : Keeps f (concludeDrained spent) := by
    refine .bind h.keeps_handOver fun _ => ?_
    refine .ite ?_ (h.keeps_finishIfUserTurn _)
    refine .bind (h.keeps_report rfl) fun _ => ?_
    exact .bind (h.keeps_finish _ _) fun _ => .pure _
  refine .bind .get fun _ => ?_
  refine .bind (.onlyIf _ (.bind .get fun _ => .modify fun s => h.hands s _ _ _ _)) fun _ => ?_
  refine .ite ?_ ?_
  · exact .bind (h.keeps_finish _ _) fun _ => .pure _
  · exact .ite (hdrained _) (h.keeps_finishIfUserTurn _)

end TurnFrame

/-- A view of a session that hearing the user leaves alone. -/
structure QueryFrame (f : Session → τ) : Prop extends TurnFrame f where
  /-- The queue is passed over, nothing is shown, and what was accepted is forgotten. -/
  passes : ∀ s queueRead echo recent,
    f { s with progress := { s.progress with queueRead, echo, recent } } = f s
  /-- The turn is recorded. -/
  records : ∀ s transcript, f { s with transcript } = f s
  /-- The sampler begins anew. -/
  resets : ∀ s, f { s with engine.calls := s.engine.calls.push .resetSampler } = f s

namespace QueryFrame

variable {f : Session → τ} (h : QueryFrame f)

include h

private theorem keeps_queueTokens (tokens : List Token) : Keeps f (queueTokens tokens) :=
  .modify fun s => h.hands s _ _ _ _

private theorem keeps_queueInput (text : String) : Keeps f (queueInput text) := by
  have htokenizes (text : String) (addBos special : Bool) :
      Keeps f (call (Engine.tokenize text addBos special)) :=
    keeps_onBench_of_keeps _ fun s => Workbench.keeps_call fun w =>
      ((h.bench s).engine w).keeps_tokenize _ _ _
  have hleads : Keeps f queueInstructLead := .bind .get fun _ =>
    .onlyIf _ (.bind (.modify fun s => h.passes s _ _ _) fun _ => h.keeps_queueTokens _)
  refine .bind .get fun _ => ?_
  refine .bind (h.keeps_write _) fun _ => ?_
  refine .bind hleads fun _ => ?_
  refine .bind (htokenizes _ _ _) fun _ => ?_
  refine .bind (htokenizes _ _ _) fun _ => ?_
  refine .bind (htokenizes _ _ _) fun _ => ?_
  refine .bind (h.keeps_queueTokens _) fun _ => ?_
  refine .bind (.onlyIf _ (h.keeps_queueTokens _)) fun _ => ?_
  refine .bind (.modify fun s => h.records s _) fun _ => ?_
  refine .bind (.modify fun s => h.hands s _ _ _ _) fun _ => ?_
  exact .bind .get fun _ => h.keeps_report rfl

/-- A query leaves the view alone. -/
theorem keeps_query (text : String) : Keeps f (query text) := by
  have hbos : Keeps f queueBos :=
    .bind (h.keeps_report rfl) fun _ => h.keeps_queueTokens _
  have hforgets : Keeps f (advance fun p => { p.forget with userTurn := false }) :=
    .modify fun s => (h.hands { s with progress := s.progress.forget } _ _ _ _).trans
      (h.passes s _ _ _)
  have hrest : Keeps f (do
      advance ({ · with echo := false })
      call Engine.resetSampler
      advance fun p => { p.forget with userTurn := false }
      enter .processingQueue) := by
    refine .bind (.modify fun s => h.passes s _ _ _) fun _ => ?_
    refine .bind (fun s => h.resets s) fun _ => ?_
    exact .bind hforgets fun _ => h.keeps_enter _
  refine .bind .get fun _ => ?_
  refine .bind (.onlyIf _ (h.keeps_write _)) fun _ => ?_
  refine .bind (.onlyIf _ hbos) fun _ => ?_
  refine .bind (h.keeps_write _) fun _ => ?_
  refine .ite ?_ ?_
  · exact .bind (h.keeps_queueInput _) fun _ => hrest
  · exact .bind (h.keeps_report rfl) fun _ => hrest

end QueryFrame

end Session

end Dialogue
