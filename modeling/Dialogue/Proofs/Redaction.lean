import Dialogue.Cache.Reuse
import Dialogue.Effect.InStep
import Dialogue.Guidance
import Dialogue.Window
/-!
# Redaction

A redaction hides the calls of some services with the failures to come there, and the journal; of
what concerns the session file it shows as much as it says. What does not call a hidden service, and
reads no more of the session file than shows, is in step with itself under the redaction, and leaves
what is hidden as it was.
-/

namespace Dialogue

open Effect

/-- The service that a call is for, if calls of its kind can be made to fail. -/
def Call.service? : Call → Option Service
  | .decode stream .. => some (.decode stream)
  | .sample _ => some .sample
  | .removeCells .. => some .remove
  | .shiftCells .. => some .shift
  | .takeSnapshot => some .takeSnapshot
  | .restoreSnapshot _ => some .restoreSnapshot
  | _ => none

/-- Whether a call is for one of some services. -/
def Call.isFor (c : Call) (hides : Service → Bool) : Bool := c.service?.any hides

/-- The failures to come apart from those of some services. -/
def Faults.without (f : Faults) (hides : Service → Bool) : Faults where
  decodeMain := if hides (.decode .main) then [] else f.decodeMain
  decodeGuidance := if hides (.decode .guidance) then [] else f.decodeGuidance
  sample := if hides .sample then [] else f.sample
  remove := if hides .remove then [] else f.remove
  shift := if hides .shift then [] else f.shift
  takeSnapshot := if hides .takeSnapshot then [] else f.takeSnapshot
  restoreSnapshot := if hides .restoreSnapshot then [] else f.restoreSnapshot

namespace Faults

variable {hides : Service → Bool} {s : Service}

private theorem schedule_without (f : Faults) (h : hides s = false) :
    (f.without hides).schedule s = f.schedule s := by
  match s with
  | .decode .main | .decode .guidance | .sample | .remove | .shift | .takeSnapshot
  | .restoreSnapshot => simp [without, schedule, h]

/-- The next call of a service that is not left out is taken off what remains. -/
theorem next_without (f : Faults) (h : hides s = false) :
    (f.without hides).next s = (f.next s).without hides := by
  match s with
  | .decode .main | .decode .guidance | .sample | .remove | .shift | .takeSnapshot
  | .restoreSnapshot => simp [without, next, h]

/-- The next call of a service that is left out is not. -/
theorem without_next (f : Faults) (h : hides s = true) :
    (f.next s).without hides = f.without hides := by
  match s with
  | .decode .main | .decode .guidance | .sample | .remove | .shift | .takeSnapshot
  | .restoreSnapshot => simp [without, next, h]

end Faults

/-! ### The engine -/

namespace Engine

variable {α : Type} {hides : Service → Bool}

/-- The engine without the calls of some services and the failures to come there. -/
def without (hides : Service → Bool) (e : Engine) : Engine :=
  { e with
    calls := (e.calls.toList.filter fun c => !c.isFor hides).toArray
    faults := e.faults.without hides }

/-- The calls of some services, and the failures to come there. -/
def only (hides : Service → Bool) (e : Engine) : List Call × Faults :=
  (e.calls.toList.filter (·.isFor hides), e.faults.without fun s => !hides s)

/-- The calls of a service, oldest first. -/
def callsFor (service : Service) (e : Engine) : List Call :=
  e.calls.toList.filter (·.isFor (· = service))

/-- Whether a computation neither calls some services nor depends on what became of them. -/
abbrev Unaware (hides : Service → Bool) (x : EngineM α) : Prop :=
  InStep (without hides) (only hides) x x

/-- A call of a service that shows is logged alike. -/
theorem unaware_note {c : Call} (h : c.isFor hides = false) : Unaware hides (note c) :=
  .change (fun e => by simp [without, h]) fun e => by simp [only, h]

private theorem unaware_fails {s : Service} (h : hides s = false) : Unaware hides (fails s) := by
  refine .modifyGet (fun e => ?_) fun e => ?_
  · simp only [without, Faults.schedule_without _ h, Faults.next_without _ h]
  · simp only [only]
    rw [Faults.without_next]
    rw [h, Bool.not_false]

/-- Spelling a text calls no service that can be hidden. -/
theorem unaware_tokenize (text : String) (addBos special : Bool) :
    Unaware hides (tokenize text addBos special) := by
  refine .bind (unaware_note rfl) fun _ => ?_
  refine .reads (fun _ => rfl) fun _ => ?_
  exact .bind (.failIf _ _) fun _ => .pure _

private theorem unaware_decode {stream : Stream} (h : hides (.decode stream) = false)
    (tokens : List Token) (start : Int) : Unaware hides (decode stream tokens start) := by
  refine .bind (unaware_note h) fun _ => ?_
  refine .reads (fun _ => rfl) fun _ => ?_
  refine .bind (.failIf _ _) fun _ => ?_
  refine .bind (unaware_fails h) fun _ => ?_
  refine .bind (.failIf _ _) fun _ => ?_
  cases stream <;> exact .change (fun _ => rfl) fun _ => rfl

/-- A draw depends on nothing that is hidden if draws show. -/
theorem unaware_sample (h : hides .sample = false) (guided : Bool) :
    Unaware hides (sample guided) := by
  refine .bind (unaware_note h) fun _ => ?_
  refine .bind (unaware_fails h) fun _ => ?_
  exact .bind (.failIf _ _) fun _ => .modifyGet (fun _ => rfl) fun _ => rfl

/-- A removal depends on nothing that is hidden if removals show. -/
theorem unaware_removeCells (h : hides .remove = false) (sequence : Option Nat) (first : Int)
    (last : Option Int) : Unaware hides (removeCells .main sequence first last) := by
  refine .bind (unaware_note h) fun _ => ?_
  refine .bind (unaware_fails h) fun _ => ?_
  exact .bind (.failIf _ _) fun _ => .change (fun _ => rfl) fun _ => rfl

/-- A move depends on nothing that is hidden if moves show. -/
theorem unaware_shiftCells (h : hides .shift = false) (sequence : Nat) (first : Int)
    (last : Option Int) (delta : Int) :
    Unaware hides (shiftCells .main sequence first last delta) := by
  refine .bind (unaware_note h) fun _ => ?_
  refine .bind (unaware_fails h) fun _ => ?_
  exact .bind (.failIf _ _) fun _ => .change (fun _ => rfl) fun _ => rfl

private theorem unaware_takeSnapshot (h : hides .takeSnapshot = false) :
    Unaware hides takeSnapshot := by
  refine .bind (unaware_note h) fun _ => ?_
  refine .bind (unaware_fails h) fun _ => ?_
  refine .bind (.failIf _ _) fun _ => ?_
  exact .reads (fun _ => rfl) fun _ => .pure _

/-- Restoring a snapshot depends on nothing that is hidden if that shows. -/
theorem unaware_restoreSnapshot (h : hides .restoreSnapshot = false) (bytes : List UInt8) :
    Unaware hides (restoreSnapshot bytes) := by
  refine .bind (unaware_note h) fun _ => ?_
  refine .bind (unaware_fails h) fun _ => ?_
  refine .bind (.failIf _ _) fun _ => ?_
  exact .bind (.orFail _ _) fun _ => .change (fun _ => rfl) fun _ => rfl

/-- Setting the seed calls no service that can be hidden. -/
theorem unaware_setSeed (seed : Nat) : Unaware hides (setSeed seed) :=
  .bind (unaware_note rfl) fun _ => .change (fun _ => rfl) fun _ => rfl

end Engine

/-! ### The workbench -/

/-- What is not to show, besides the journal. -/
structure Redaction where
  /-- The services whose calls do not show, with the failures to come there. -/
  hides : Service → Bool
  /-- What shows of the session cache. -/
  cache : Cache → Cache := id
  /-- What shows of the files. -/
  directory : Directory → Directory := id
  /-- What shows of the logged tokens and of how many of them are known to be resident. -/
  log : List Token × Nat → List Token × Nat := id
  /-- What shows of whether the session file is to be written before the next draw. -/
  savePending : Bool → Bool := id
  /-- What is kept track of, of the hidden calls and the failures to come there. -/
  traces : List Call × Faults → List Call × Faults := id
  /-- That the session file is given up does not depend on what is hidden of it. -/
  cache_disable : ∀ c, cache { c with path := none } = { cache c with path := none } := by
    intro _
    rfl

/-- The redaction that hides services, and nothing of the session file. -/
def Redaction.over (hides : Service → Bool) : Redaction := { hides }

namespace Workbench

variable {ε α : Type} {m : Redaction}

/-- The workbench as it shows. -/
def redacted (m : Redaction) (w : Workbench) : Workbench where
  engine := w.engine.without m.hides
  directory := m.directory w.directory
  journal := #[]
  progress :=
    { w.progress with
      logged := (m.log (w.progress.logged, w.progress.loggedRead)).1
      loggedRead := (m.log (w.progress.logged, w.progress.loggedRead)).2
      savePending := m.savePending w.progress.savePending }
  cache := m.cache w.cache

/-- What is kept track of, of the hidden calls and the failures to come there. -/
def hidden (m : Redaction) (w : Workbench) : List Call × Faults := m.traces (w.engine.only m.hides)

/-- What there is for the session file: the files, whether it is to be written before the next
draw, and the session cache. -/
def store (w : Workbench) : Directory × Bool × Cache :=
  (w.directory, w.progress.savePending, w.cache)

/-- Whether all that a computation depends on shows, and all that it does, and it leaves the files
and the session cache alone. -/
abbrev Unaware (m : Redaction) (x : WorkM ε α) : Prop :=
  InStep (redacted m) (fun w => (w.hidden m, w.store)) x x

/-- Whether all that a computation depends on shows, and all that it does. -/
abbrev Heedless (m : Redaction) (x : WorkM ε α) : Prop := InStep (redacted m) (hidden m) x x

/-- What leaves the files alone besides depends on nothing that is hidden. -/
theorem Unaware.heedless {x : WorkM ε α} (h : Unaware m x) : Heedless m x := h.mono Prod.fst

/-- A report depends on nothing that is hidden. -/
theorem unaware_report (e : Event) : Unaware m (report e : WorkM ε Unit) :=
  .modify id (fun _ => rfl) (fun _ => rfl) (fun _ => rfl) fun _ => rfl

/-- A call depends on nothing that is hidden if it does not on an engine. -/
theorem unaware_call {x : EngineM α} (h : Engine.Unaware m.hides x) : Unaware m (call x) := by
  refine .onPart h (fun _ _ hw => congrArg Workbench.engine hw) ?_ fun _ _ he => ?_
  · intro w w' e e' hw he
    simp only [redacted, Workbench.mk.injEq] at hw ⊢
    exact ⟨he, hw.2⟩
  · exact Prod.ext (congrArg m.traces he) rfl

/-! ### Making room -/

/-- Taking the session file out of use depends on nothing that is hidden. -/
theorem heedless_disable : Heedless m (Cache.disable : WorkM ε Unit) := by
  refine .change (fun w => ?_) fun _ => rfl
  simp only [redacted, m.cache_disable]

/-- Giving the session file up does not depend on whether one is in use. -/
theorem heedless_invalidate : Heedless m (Cache.invalidate : WorkM ε Unit) := by
  have hends (w : Workbench) : Ends (Cache.invalidate : WorkM ε Unit) w fun r t => r = .ok () ∧
      t.redacted m = ({ w with cache := { w.cache with path := none } } : Workbench).redacted m ∧
        t.hidden m = w.hidden m := by
    simp only [Cache.invalidate, ends_bind, ends_get]
    cases hp : w.cache.path with
    | none =>
      refine ⟨rfl, ?_, rfl⟩
      rw [← hp]
    | some path => exact ⟨rfl, rfl, rfl⟩
  have hleft (w : Workbench) := ends_iff_outcome.mp (hends w)
  refine ⟨fun w w' h => ⟨(hleft w).1.trans (hleft w').1.symm, ?_⟩, fun w => (hleft w).2.2,
    fun w => (hleft w).2.2⟩
  rw [(hleft w).2.1, (hleft w').2.1]
  exact (heedless_disable (ε := ε)).left_eq h

private theorem heedless_swap (hremove : m.hides .remove = false) (hshift : m.hides .shift = false)
    (w : Window) (guided : Bool) : Heedless m (w.swap guided) := by
  have hevicts (past n : Int) : Heedless m (w.evict guided past n) := by
    refine .bind (unaware_call (Engine.unaware_removeCells hremove _ _ _)).heedless fun _ => ?_
    refine .bind (unaware_call (Engine.unaware_shiftCells hshift _ _ _ _)).heedless fun _ => ?_
    refine .bind (.change (fun _ => rfl) fun _ => rfl) fun _ => ?_
    exact .onlyIf _ (.change (fun _ => rfl) fun _ => rfl)
  refine .reads (fun _ => rfl) fun _ => ?_
  refine .bind (unaware_report _).heedless fun _ => ?_
  refine .bind (.ite (hevicts _ _) (unaware_report _).heedless) fun _ => ?_
  refine .bind heedless_invalidate fun _ => ?_
  exact .reads (fun _ => rfl) fun _ => .pure _

/-- Making room depends on nothing that is hidden if removals and moves show. -/
theorem heedless_ensureRoom (hremove : m.hides .remove = false) (hshift : m.hides .shift = false)
    (w : Window) (offset : Option Int) : Heedless m (w.ensureRoom offset) :=
  .reads (fun _ => rfl) fun _ => .bind (.mapM fun _ _ => heedless_swap hremove hshift w _)
    fun _ => .pure _

/-! ### Feeding -/

/-- Feeding a context depends on nothing that is hidden if the calls for that show. -/
theorem unaware_feed {stream : Stream} (h : m.hides (.decode stream) = false)
    (tokens : List Token) (batchSize : Nat) : Unaware m (Feed.feed stream tokens batchSize) := by
  have hbatches (l : List (List Token)) (position : Int) (evaluated : Nat) :
      Unaware m (Feed.batches stream l position evaluated) := by
    induction l generalizing position evaluated with
    | nil => exact .pure _
    | cons batch rest ih =>
      exact .bind (unaware_report _) fun _ =>
        .bind (.adaptExcept _ (unaware_call (Engine.unaware_decode h _ _))) fun _ => ih _ _
  have hcounts (n : Int) : Unaware m (advance (·.setPast stream n) : WorkM DecodeError Unit) := by
    cases stream <;> exact .change (fun _ => rfl) fun _ => rfl
  refine .reads (fun w => ?_) fun w => .bind (.attempt (hbatches _ _ _)) fun r => ?_
  · cases stream <;> rfl
  · cases r with
    | ok past => exact .bind (hcounts _) fun _ => unaware_report _
    | error e => exact .bind (hcounts _) fun _ => .throw _

/-- A step of the guidance context depends on nothing that is hidden if the calls for that show. -/
theorem unaware_step (h : m.hides (.decode .guidance) = false) (g : Guidance) (batchSize : Nat) :
    Unaware m (g.step batchSize) := by
  refine .reads (fun _ => rfl) fun _ => ?_
  refine .bind (.onlyIf _ (.change (fun _ => rfl) fun _ => rfl)) fun _ => ?_
  refine .bind (.attempt (unaware_feed h _ _)) fun r => ?_
  cases r with
  | ok u => exact .change (fun _ => rfl) fun _ => rfl
  | error e => exact .bind (.change (fun _ => rfl) fun _ => rfl) fun _ => .throw _

/-! ### The session file -/

section

variable {hides : Service → Bool}

/-- Where all of the session file shows, saving it is in step with itself. -/
theorem heedless_saveOrDisable (h : hides .takeSnapshot = false) (tokens : List Token) :
    Heedless (.over hides) (Cache.saveOrDisable tokens : WorkM ε Bool) := by
  have hsaves (path : String) : Heedless (.over hides) (Cache.save path tokens) := by
    refine .bind (.adaptExcept _ (unaware_call (Engine.unaware_takeSnapshot h)).heedless)
      fun state => .reads (fun _ => rfl) fun w => ?_
    split
    · exact .throw _
    · exact .bind (.change (fun _ => rfl) fun _ => rfl) fun _ => (unaware_report _).heedless
  refine .reads (fun _ => rfl) fun w => ?_
  dsimp only
  split
  · exact .pure _
  · refine .ite (.pure _) (.bind (.attempt (hsaves _)) fun r => ?_)
    cases r with
    | ok u => exact .pure _
    | error e =>
      exact .bind (.bind (unaware_report _).heedless fun _ => heedless_disable) fun _ => .pure _

end

end Workbench

end Dialogue
