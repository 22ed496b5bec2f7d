import Dialogue.Proofs.FileState
import Dialogue.Proofs.WrittenFiles
/-!
# Session files that are not written

Once the session file is given up or is only read, no snapshot is taken and no file is written any
more but the transcript, when the session is closed.
-/

namespace Dialogue

open Effect

namespace Session

variable {s t u : Session}

/-- What is settled stays so, and a session that was closed stays closed. -/
theorem FileChange.settled_eq (h : FileChange s t) :
    t.settled = s.settled ∧ (s.closed = true → t.closed = true) := by
  cases h with
  | fileStep h =>
    obtain ⟨hsettled, hclosed, -⟩ := h.fileState_stepped
    exact ⟨hsettled, hclosed.trans⟩
  | reset => exact ⟨rfl, id⟩
  | close =>
    cases hs : s.closed with
    | true =>
      rw [shutdown_of_closed hs]
      exact ⟨rfl, fun _ => hs⟩
    | false =>
      exact ⟨((ends_shutdown_fileState hs).mono fun _ _ h => h.1).left, nofun⟩

/-- What is done for the session file leaves what is settled. -/
theorem FileChanges.settled_eq (h : FileChanges s t) : t.settled = s.settled := by
  induction h with
  | refl => rfl
  | tail _ h ih => exact h.settled_eq.1.trans ih

/-- A session that is closed stays so. -/
theorem FileChanges.closed (h : FileChanges s t) (hs : s.closed = true) : t.closed = true := by
  induction h with
  | refl => exact hs
  | tail _ h ih => exact h.settled_eq.2 ih

/-- What remains where the session file is not written: no snapshot is asked for, and the files stay
as they are until the transcript is written. -/
structure Unfiled (s t : Session) : Prop where
  /-- The session file is still not written. -/
  unwritable : t.cache.isWritable = false
  /-- No snapshot was asked for. -/
  snapshots : t.fileState.snapshots = s.fileState.snapshots
  /-- At most the transcript was written, and the session closed then. -/
  directory : t.directory = s.directory ∨ t.closed = true ∧
    ∃ (path : String) (transcript : Transcript), s.config.transcriptPath = some path ∧
      transcript.write path s.directory = .ok t.directory

private theorem Unfiled.refl (hs : s.cache.isWritable = false) : s.Unfiled s := ⟨hs, rfl, .inl rfl⟩

private theorem Unfiled.trans (h : s.Unfiled t) (hu : t.Unfiled u)
    (hsettled : t.settled = s.settled) (hcloses : t.closed = true → u.closed = true)
    (hclosed : t.closed = true → u.directory = t.directory) : s.Unfiled u where
  unwritable := hu.unwritable
  snapshots := hu.snapshots.trans h.snapshots
  directory := by
    rcases h.directory with heq | ⟨ht, path, transcript, hpath, hwrite⟩
    · rw [← heq, ← config_of_settled hsettled]
      exact hu.directory
    · refine .inr ⟨hcloses ht, path, transcript, hpath, ?_⟩
      rw [hclosed ht]
      exact hwrite

/-- A session file that is not written stays so, and nothing is written once the session was closed.
-/
theorem FileChange.unfiled (h : FileChange s t) (hs : s.cache.isWritable = false) :
    s.Unfiled t ∧ (s.closed = true → t.directory = s.directory) := by
  have hkept {v : FileState} (ht : t.fileState = v) (hv : v.cache.isWritable = false)
      (hdirectory : v.directory = s.directory) (hsnapshots : v.snapshots = s.fileState.snapshots) :
      s.Unfiled t ∧ (s.closed = true → t.directory = s.directory) := by
    have htd : t.directory = s.directory := (congrArg FileState.directory ht).trans hdirectory
    exact ⟨⟨(congrArg (·.cache.isWritable) ht).trans hv,
      (congrArg FileState.snapshots ht).trans hsnapshots, .inl htd⟩, fun _ => htd⟩
  cases h with
  | fileStep h =>
    rcases h.fileState_stepped.2.2.of_unwritable hs with ht | ht
    · exact hkept ht hs rfl rfl
    · exact hkept ht rfl rfl rfl
  | reset => exact ⟨⟨hs, rfl, .inl rfl⟩, fun _ => rfl⟩
  | close =>
    cases hopen : s.closed with
    | true =>
      rw [shutdown_of_closed hopen]
      exact ⟨.refl hs, fun _ => rfl⟩
    | false =>
      obtain ⟨r, ⟨-, hclosed, v, hv, hwrites⟩, -⟩ := (ends_shutdown_fileState hopen).exists_left
      have hsame : v = s.fileState := by
        rcases hv with hv | ⟨written, hv⟩
        · exact hv
        · exact hv.eq_of_unwritable hs
      rw [hsame] at hwrites
      rw [← hopen]
      generalize hfileState : (left (shutdown s)).fileState = w at hwrites
      cases hwrites with
      | unwanted => exact hkept hfileState hs rfl rfl
      | unopened => exact hkept hfileState hs rfl rfl
      | unwritten => exact hkept hfileState hs rfl rfl
      | written hfile hwrite =>
        obtain ⟨hdirectory, hcache, -, hsnapshots⟩ := FileState.ext_iff.mp hfileState
        refine ⟨⟨?_, hsnapshots, .inr ⟨hclosed, _, s.transcript, hfile, ?_⟩⟩, fun h => ?_⟩
        · rw [show (left (shutdown s)).cache = s.cache from hcache]
          exact hs
        · rw [show (left (shutdown s)).directory = _ from hdirectory]
          exact hwrite
        · cases h.symm.trans hopen

/-- Once the session file is not written, no snapshot is asked for any more, and no file is written
but the transcript. -/
theorem FileChanges.unfiled (h : FileChanges s t) (hs : s.cache.isWritable = false) : s.Unfiled
    t := by
  induction h with
  | refl => exact .refl hs
  | tail hst h ih =>
    obtain ⟨hu, hclosed⟩ := h.unfiled ih.unwritable
    exact ih.trans hu (FileChanges.settled_eq hst) h.settled_eq.2 hclosed

/-- Where the session file is not written, files that the transcript is not written to are left
alone. -/
theorem read_performAll_of_unwritable (hs : s.cache.isWritable = false) {path : String}
    {bytes : List UInt8} (hread : s.directory.read path = .ok bytes)
    (hother : ∀ transcript place, s.config.transcriptPath = some transcript →
      s.directory.locate transcript = .ok place → s.directory.locate path ≠ .ok place)
    (actions : List Action) : (s.performAll actions).directory.read path = .ok bytes := by
  have hunfiled := FileChanges.unfiled (fileChanges_performAll s actions) hs
  rcases hunfiled.directory with heq | ⟨-, file, transcript, hfile, hwrite⟩
  · rwa [heq]
  · rcases Transcript.write_eq_ok hwrite with heq | hwrite
    · rwa [heq]
    · have hsame : ((s.performAll actions).directory.read path).toOption =
          (s.directory.read path).toOption :=
        Directory.toOption_read_of_write hwrite fun place => hother file place hfile
      rw [hread] at hsame
      cases hu : (s.performAll actions).directory.read path with
      | ok bytes' =>
        rw [hu] at hsame
        cases hsame
        rfl
      | error fault =>
        rw [hu] at hsame
        cases hsame

end Session

end Dialogue
