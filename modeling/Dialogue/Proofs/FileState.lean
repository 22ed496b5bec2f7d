import Dialogue.Proofs.FileSteps
/-!
# The file state

What there is for the session file, and how often the engine was asked for a snapshot to save. A
file step gives the file up or saves it at most; to save it takes a snapshot, and then the file is
written or given up. Closing saves it once more, if that is wanted, and writes the transcript.
-/

namespace Dialogue

open Effect

/-- What there is for the session file. -/
@[ext] structure FileState where
  /-- The files. -/
  directory : Directory
  /-- The session cache. -/
  cache : Cache
  /-- Whether the session file is to be written before the next draw. -/
  savePending : Bool
  /-- How many snapshots the engine was asked for. -/
  snapshots : Nat

namespace FileState

/-- The file state with the session file given up. -/
def givenUp (v : FileState) : FileState := { v with cache := { v.cache with path := none } }

/-- The file state with one more snapshot asked for. -/
def asked (v : FileState) : FileState := { v with snapshots := v.snapshots + 1 }

/-- What saving the session file comes to, and whether it was written. -/
inductive Saved (v : FileState) : Bool → FileState → Prop
  /-- It is not to be written. -/
  | spared (h : v.cache.isWritable = false) : Saved v false v
  /-- It is written. -/
  | written {path : String} {tokens : List Token} {state : List UInt8} {directory : Directory}
      (h : v.cache.isWritable = true) (hpath : v.cache.path = some path)
      (hwrite : v.directory.write path (SessionFile.encode tokens state) = .ok directory) :
      Saved v true { v.asked with directory }
  /-- It cannot be written, and is given up. -/
  | failed (h : v.cache.isWritable = true) : Saved v false v.asked.givenUp

/-- What a file step comes to. -/
inductive Stepped (v : FileState) : FileState → Prop
  /-- Nothing is done for the session file. -/
  | kept : Stepped v v
  /-- It is given up. -/
  | givenUp : Stepped v v.givenUp
  /-- It is saved before a draw. -/
  | saved {written : Bool} {u : FileState} (hpending : v.savePending = true)
      (h : Saved { v with savePending := false } written u)
      (hwritable : v.cache.isWritable = true) :
      Stepped v u

/-- What writing a transcript comes to, and with what result. -/
inductive Transcribed (file : Option String) (transcript : Transcript) (v : FileState) :
    Except SessionError Unit → FileState → Prop
  /-- There is no file for it. -/
  | unwanted (hfile : file = none) : Transcribed file transcript v (.ok ()) v
  /-- It is written. -/
  | written {path : String} {directory : Directory} (hfile : file = some path)
      (hwrite : transcript.write path v.directory = .ok directory) :
      Transcribed file transcript v (.ok ()) { v with directory }
  /-- Its file cannot be opened. -/
  | unopened {path : String} {fault : Fault} (hfile : file = some path)
      (hwrite : transcript.write path v.directory = .error (.unopened fault)) :
      Transcribed file transcript v (.error (.io fault)) v
  /-- Its file takes no more bytes. -/
  | unwritten {path : String} (hfile : file = some path)
      (hwrite : transcript.write path v.directory = .error .unwritten) :
      Transcribed file transcript v (.error .transcript) v

variable {v u : FileState} {written : Bool}

/-- Where the session file is not written, saving does nothing. -/
theorem Saved.eq_of_unwritable (h : v.Saved written u) (hv : v.cache.isWritable = false) :
    u = v := by
  cases h with
  | spared => rfl
  | written h => exact absurd hv (by simp [h])
  | failed h => exact absurd hv (by simp [h])

/-- A save that fails makes the session file one that is not written. -/
theorem Saved.unwritable (h : v.Saved false u) : u.cache.isWritable = false := by
  cases h with
  | spared h => exact h
  | failed => rfl

/-- Saving does not change whether the prompt is still to be saved. -/
theorem Saved.savePending_eq (h : v.Saved written u) : u.savePending = v.savePending := by
  cases h <;> rfl

/-- Saving takes one snapshot at most. -/
theorem Saved.snapshots_le (h : v.Saved written u) : u.snapshots ≤ v.snapshots + 1 := by
  cases h with
  | spared => exact Nat.le_succ _
  | written => exact Nat.le_refl _
  | failed => exact Nat.le_refl _

/-- Where the session file is not written, a file step gives it up at most. -/
theorem Stepped.of_unwritable (h : v.Stepped u) (hv : v.cache.isWritable = false) :
    u = v ∨ u = v.givenUp := by
  cases h with
  | kept => exact .inl rfl
  | givenUp => exact .inr rfl
  | saved _ _ hw => exact absurd hv (by simp [hw])

/-- A file step takes a snapshot just if the session file is to be written before the next draw and
then no longer is. -/
theorem Stepped.snapshots_add (h : v.Stepped u) :
    u.snapshots + u.savePending.toNat = v.snapshots + v.savePending.toNat ∧
      v.snapshots ≤ u.snapshots := by
  cases h with
  | kept => exact ⟨rfl, Nat.le_refl _⟩
  | givenUp => exact ⟨rfl, Nat.le_refl _⟩
  | saved hpending h hw =>
    rw [hpending]
    cases h with
    | spared h => exact absurd h (by simp [hw])
    | written => exact ⟨rfl, Nat.le_succ _⟩
    | failed => exact ⟨rfl, Nat.le_succ _⟩

end FileState

/-- What there is for the session file on a workbench. -/
def Workbench.fileState (w : Workbench) : FileState where
  directory := w.directory
  cache := w.cache
  savePending := w.progress.savePending
  snapshots := (w.engine.callsFor .takeSnapshot).length

/-! ### Saving -/

/-- A snapshot is asked for, whether or not it is given. -/
theorem Engine.ends_takeSnapshot_asked (e : Engine) :
    Ends takeSnapshot e fun _ e' =>
      (e'.callsFor .takeSnapshot).length = (e.callsFor .takeSnapshot).length + 1 := by
  have hcalls : ((e.calls.push .takeSnapshot).toList.filter
      (·.isFor (· = .takeSnapshot))).length = (e.callsFor .takeSnapshot).length + 1 := by
    simp [callsFor, Call.isFor, Call.service?]
  simp only [takeSnapshot, note, fails, ends_bind, ends_modify, ends_modifyGet, ends_failIf,
    ends_get, ends_pure]
  split <;> exact hcalls

/-- What writing the session file comes to. -/
private theorem Cache.ends_save_fileState {path : String} (tokens : List Token) {b : Workbench}
    (hpath : b.cache.path = some path) (hwritable : b.fileState.cache.isWritable = true) :
    Ends (Cache.save path tokens) b fun r t =>
      match r with
      | .ok _ => b.fileState.Saved true t.fileState
      | .error _ => t.fileState = b.fileState.asked := by
  simp only [save, ends_bind, ends_adaptExcept, Workbench.ends_call]
  apply (Engine.ends_takeSnapshot_asked b.engine).mono
  intro r e he
  have hasked : ({ b with engine := e } : Workbench).fileState = b.fileState.asked :=
    FileState.ext rfl rfl rfl he
  cases r with
  | error cause => exact hasked
  | ok state =>
    simp only [mapError_ok, ends_get]
    split
    · exact hasked
    · next d hd =>
      change b.fileState.Saved true
        { ({ b with engine := e } : Workbench).fileState with directory := d }
      rw [hasked]
      exact .written hwritable hpath hd

/-- What saving the session file comes to. -/
theorem Cache.ends_saveOrDisable_fileState {ε : Type} (tokens : List Token) (b : Workbench) :
    Ends (Cache.saveOrDisable tokens : WorkM ε Bool) b fun r t =>
      ∃ written, r = .ok written ∧ b.fileState.Saved written t.fileState := by
  simp only [saveOrDisable, ends_bind, ends_get]
  cases hpath : b.cache.path with
  | none => exact ⟨false, rfl, .spared (by simp [Workbench.fileState, isWritable, isActive, hpath])⟩
  | some path =>
    simp only [ends_ite, ends_pure]
    split
    · next hro => exact ⟨false, rfl, .spared (by simp [Workbench.fileState, isWritable, hro])⟩
    · next hro =>
      have hwritable : b.fileState.cache.isWritable = true := by
        simpa [Workbench.fileState, isWritable, isActive, hpath] using hro
      simp only [saveOrGiveUp, ends_bind, ends_attempt]
      apply (ends_save_fileState tokens hpath hwritable).mono
      intro r t ht
      cases r with
      | ok u => exact ⟨true, rfl, ht⟩
      | error e =>
        refine ⟨false, rfl, ?_⟩
        change b.fileState.Saved false t.fileState.givenUp
        rw [show t.fileState = _ from ht]
        exact .failed hwritable

namespace Session

variable {s t : Session}

/-- What saving the session file before a draw comes to. -/
theorem ends_savePrompt_fileState (s : Session) :
    Ends savePrompt s fun _ t => t.settled = s.settled ∧ t.closed = s.closed ∧
      s.fileState.Stepped t.fileState := by
  simp only [savePrompt, ends_bind, ends_get, ends_onlyIf]
  split
  · next h =>
    obtain ⟨hpending, hwritable⟩ := Bool.and_eq_true_iff.mp h
    rw [ends_advance, ends_discard, ends_onBench]
    apply (Cache.ends_saveOrDisable_fileState _ _).mono
    rintro _ b ⟨written, rfl, hsaved⟩
    exact ⟨rfl, rfl, .saved hpending hsaved hwritable⟩
  · exact ⟨trivial, trivial, .kept⟩

/-- Writing the session file before a draw does not fail. -/
theorem ends_savePrompt_ok (s : Session) : Ends savePrompt s fun r _ => r = .ok () := by
  simp only [savePrompt, ends_bind, ends_get, ends_onlyIf]
  split
  · rw [ends_advance, ends_discard, ends_onBench]
    apply (Cache.ends_saveOrDisable_fileState _ _).mono
    rintro _ b ⟨written, rfl, -⟩
    exact rfl
  · trivial

/-- What a swap comes to. Unless it fails, the session file is given up. -/
theorem ends_swap_fileState (guided : Bool) (s : Session) :
    Ends (onBench .engine (s.window.swap guided)) s fun r t => t.settled = s.settled ∧
      t.closed = s.closed ∧ s.fileState.Stepped t.fileState ∧
        ∀ e, r = .ok e → t.cache.isWritable = false := by
  have hcalls {x : EngineM Unit} (hx : Engine.Unaware (· = .takeSnapshot) x) :
      Keeps Workbench.fileState (Workbench.call x) :=
    .onPart hx.keeps_left fun w e he =>
      FileState.ext rfl rfl rfl (congrArg (fun v => v.1.length) he)
  have hevicts (past n : Int) : Keeps Workbench.fileState (s.window.evict guided past n) := by
    refine .bind (hcalls (Engine.unaware_removeCells rfl _ _ _)) fun _ => ?_
    refine .bind (hcalls (Engine.unaware_shiftCells rfl _ _ _ _)) fun _ => ?_
    exact .bind (.modify fun _ => rfl) fun _ => .onlyIf _ (.modify fun _ => rfl)
  rw [ends_onBench]
  simp only [Window.swap, ends_bind, ends_get, Workbench.ends_report]
  have hhalf : Keeps Workbench.fileState (s.window.evictHalf guided s.progress.past) :=
    .ite (hevicts _ _) (.modify fun _ => rfl)
  apply (Ends.keeps hhalf).mono
  intro r b hb
  have hb : b.fileState = s.fileState := hb
  cases r with
  | error e =>
    refine ⟨rfl, trivial, ?_, by rintro _ ⟨⟩⟩
    rw [show Workbench.fileState _ = _ from hb]
    exact .kept
  | ok _ =>
    apply Cache.ends_invalidate
    intro journal
    refine ⟨rfl, trivial, ?_, fun _ _ => rfl⟩
    change s.fileState.Stepped b.fileState.givenUp
    rw [hb]
    exact .givenUp

/-- What a file step comes to. -/
theorem FileStep.fileState_stepped (h : FileStep s t) :
    t.settled = s.settled ∧ t.closed = s.closed ∧ s.fileState.Stepped t.fileState := by
  cases h with
  | work hhidden hfilesAndSettled =>
    simp only [filesAndSettled, Prod.mk.injEq, Workbench.store] at hfilesAndSettled
    obtain ⟨⟨hdirectory, hpending, hcache⟩, hclosed, hsettled⟩ := hfilesAndSettled
    have hfileState : t.fileState = s.fileState :=
      FileState.ext hdirectory hcache hpending (congrArg (fun v => v.1.length) hhidden)
    rw [hfileState]
    exact ⟨hsettled, hclosed, .kept⟩
  | swap guided =>
    exact ((ends_swap_fileState guided s).mono fun _ _ h => ⟨h.1, h.2.1, h.2.2.1⟩).left
      (P := fun t : Session => t.settled = s.settled ∧ t.closed = s.closed ∧
        s.fileState.Stepped t.fileState)
  | save => exact (ends_savePrompt_fileState s).left

/-! ### Closing -/

/-- A session that was closed is not closed again. -/
theorem shutdown_of_closed (h : s.closed = true) : shutdown s = .ok () s := by
  change onlyIf (!s.closed) _ s = _
  rw [h]
  rfl

/-- What closing a session comes to: all is saved, if that is wanted, and the transcript is written.
-/
theorem ends_shutdown_fileState (h : s.closed = false) :
    Ends shutdown s fun r t => t.settled = s.settled ∧ t.closed = true ∧ ∃ u,
      (u = s.fileState ∨ ∃ written, s.fileState.Saved written u) ∧
        u.Transcribed s.config.transcriptPath s.transcript r t.fileState := by
  have hsaves (s : Session) : Ends saveAll s fun r t => r = .ok () ∧ t.settled = s.settled ∧
      t.closed = s.closed ∧ t.transcript = s.transcript ∧
        (t.fileState = s.fileState ∨ ∃ written, s.fileState.Saved written t.fileState) := by
    simp only [saveAll, ends_bind, ends_get, ends_onlyIf]
    split
    · rw [ends_report, ends_discard, ends_onBench]
      apply (Cache.ends_saveOrDisable_fileState _ _).mono
      rintro _ b ⟨written, rfl, hsaved⟩
      exact ⟨rfl, rfl, rfl, rfl, .inr ⟨written, hsaved⟩⟩
    · exact ⟨trivial, trivial, trivial, trivial, .inl trivial⟩
  simp only [shutdown, ends_bind, ends_get, ends_onlyIf, h, Bool.not_false, if_true, ends_modify]
  apply (hsaves _).mono
  rintro _ t ⟨rfl, hsettled, hclosed, htranscript, hfileState⟩
  have hconfig := config_of_settled hsettled
  simp only [writeTranscript, ends_bind, ends_get]
  split
  · next hfile =>
    rw [hconfig] at hfile
    exact ⟨hsettled, hclosed, t.fileState, hfileState, .unwanted hfile⟩
  · next path hfile =>
    rw [hconfig] at hfile
    rw [htranscript]
    split
    · next d hwrite => exact ⟨hsettled, hclosed, t.fileState, hfileState, .written hfile hwrite⟩
    · next fault hwrite =>
      exact ⟨hsettled, hclosed, t.fileState, hfileState, .unopened hfile hwrite⟩
    · next hwrite => exact ⟨hsettled, hclosed, t.fileState, hfileState, .unwritten hfile hwrite⟩

end Session

end Dialogue
