import Dialogue.Proofs.Unwritable
/-!
# Rooms

The directories among the files are those that were there when a session began: it makes none, and
writes over none. Whether a file can be written depends on them alone; of the reasons why it cannot
only one depends on more, namely on whether nothing or a file stands where a directory is wanted.
-/

namespace Dialogue

open Effect

/-- Whether a file cannot be reached because no directory stands on the way to it. -/
def Fault.isBarred (f : Fault) : Bool := f = .notFound || f = .notADirectory

/-- Whether two results are alike: values that are related, the same fault, or two faults for want
of a directory. -/
inductive Fault.Alike {α β : Type} (R : α → β → Prop) : Except Fault α → Except Fault β → Prop
  /-- Both give values. -/
  | ok {a : α} {b : β} (h : R a b) : Alike R (.ok a) (.ok b)
  /-- Both fail alike. -/
  | failed (f : Fault) : Alike R (.error f) (.error f)
  /-- Both fail for want of a directory. -/
  | barred {f g : Fault} (hf : f.isBarred = true) (hg : g.isBarred = true) :
      Alike R (.error f) (.error g)

private theorem Fault.Alike.bind {α β α' β' : Type} {R : α → β → Prop} {R' : α' → β' → Prop}
    {x : Except Fault α} {y : Except Fault β} {g : α → Except Fault α'} {h : β → Except Fault β'}
    (hx : Alike R x y) (hg : ∀ a b, R a b → Alike R' (g a) (h b)) :
    Alike R' (x >>= g) (y >>= h) := by
  cases hx with
  | ok hab => exact hg _ _ hab
  | failed f => exact .failed f
  | barred hf hg => exact .barred hf hg

namespace Directory

variable {d e : Directory}

/-- Whether two directories have the same directories in them. -/
def SameRooms (d e : Directory) : Prop :=
  ∀ q, d.get? q = some .directory ↔ e.get? q = some .directory

private theorem SameRooms.refl (d : Directory) : d.SameRooms d := fun _ => Iff.rfl

/-- It does not matter which of two directories is compared with the other. -/
theorem SameRooms.symm (h : d.SameRooms e) : e.SameRooms d := fun q => (h q).symm

/-- Directories with the same directories as a third have the same. -/
theorem SameRooms.trans {f : Directory} (h : d.SameRooms e) (h' : e.SameRooms f) :
    d.SameRooms f := fun q => (h q).trans (h' q)

private theorem sameRooms_of_write {path : String} {bytes : List UInt8}
    (h : d.write path bytes = .ok e) :
    d.SameRooms e := fun _ => (get?_eq_directory_of_write h).symm

/-- Names are followed alike. -/
theorem alike_walk (h : d.SameRooms e) (place : Place) (names : List String) :
    Fault.Alike (· = ·) (d.walk place names) (e.walk place names) := by
  induction names generalizing place with
  | nil => exact .ok rfl
  | cons name names ih =>
    have hbarred {d : Directory} (hd : d.get? place ≠ some .directory) :
        ∃ f, d.walk place (name :: names) = .error f ∧ f.isBarred = true := by
      simp only [walk]
      split
      · exact ⟨_, rfl, rfl⟩
      · exact ⟨_, rfl, rfl⟩
      · next hdir => exact absurd hdir hd
    by_cases hd : d.get? place = some .directory
    · simp only [walk, hd, (h place).mp hd]
      split
      · exact .failed _
      · exact ih _
    · obtain ⟨f, hf, hfb⟩ := hbarred hd
      obtain ⟨g, hg, hgb⟩ := hbarred (mt (h place).mpr hd)
      rw [hf, hg]
      exact .barred hfb hgb

/-- A file is written in both directories, or in none. -/
theorem alike_write (h : d.SameRooms e) (path : String) (bytes : List UInt8) :
    Fault.Alike (fun _ _ => True) (d.write path bytes) (e.write path bytes) := by
  have hwriteAt (place : Place) :
      Fault.Alike (fun _ _ => True) (d.writeAt place bytes) (e.writeAt place bytes) := by
    simp only [writeAt, h place]
    split
    · exact .failed _
    · split
      · exact .ok trivial
      · split
        · split
          · exact .ok trivial
          · exact .failed _
        · exact .ok trivial
  unfold write
  dsimp only
  split
  · exact .failed _
  · refine .bind (alike_walk h _ _) fun _ _ hp => ?_
    subst hp
    refine .bind (alike_walk h _ _) fun _ _ hp => ?_
    subst hp
    split
    · exact .failed _
    · refine .bind (alike_walk h _ _) fun _ _ hp => ?_
      subst hp
      exact hwriteAt _

end Directory

/-! ### Transcripts -/

/-- Whether two results of closing a session are the same, or are both failures for want of a
directory. -/
def SessionError.Alike (a b : Except SessionError Unit) : Prop :=
  a = b ∨ ∃ f g : Fault, a = .error (.io f) ∧ b = .error (.io g) ∧ f.isBarred = true ∧
    g.isBarred = true

/-- What comes of a transcript whose bytes were written so to a file. -/
private def resultOf (tooLong : Bool) : Except Fault Directory → Except SessionError Unit
  | .ok _ => .ok ()
  | .error .deviceFull => if tooLong then .error .transcript else .ok ()
  | .error fault => .error (.io fault)

private theorem resultOf_alike {x y : Except Fault Directory} {R : Directory → Directory → Prop}
    (h : Fault.Alike R x y) (tooLong : Bool) :
    SessionError.Alike (resultOf tooLong x) (resultOf tooLong y) := by
  have hbarred {f : Fault} (hf : f.isBarred = true) :
      resultOf tooLong (.error f) = .error (.io f) := by
    cases f <;> first | rfl | cases hf
  cases h with
  | ok => exact .inl rfl
  | failed => exact .inl rfl
  | barred hf hg => exact .inr ⟨_, _, hbarred hf, hbarred hg, hf, hg⟩

private theorem FileState.Transcribed.eq_resultOf {path : String} {transcript : Transcript}
    {v u : FileState} {r : Except SessionError Unit}
    (h : v.Transcribed (some path) transcript r u) :
    r = resultOf (Transcript.heldBack < (Text.utf8 transcript.json).length)
      (v.directory.write path (Text.utf8 transcript.json)) := by
  have hwrite (p : String) (hp : some path = some p) :
      transcript.write p v.directory =
        match v.directory.write path (Text.utf8 transcript.json) with
        | .ok d => .ok d
        | .error .deviceFull =>
          if Transcript.heldBack < (Text.utf8 transcript.json).length then .error .unwritten
          else .ok v.directory
        | .error fault => .error (.unopened fault) := by
    cases hp
    rfl
  generalize v.directory.write path (Text.utf8 transcript.json) = x at hwrite
  cases h with
  | unwanted hf => cases hf
  | written hf hw | unopened hf hw | unwritten hf hw =>
    rw [hwrite _ hf] at hw
    match x with
    | .ok d => cases hw <;> rfl
    | .error f =>
      cases f with
      | deviceFull =>
        dsimp only at hw
        by_cases hlong : Transcript.heldBack < (Text.utf8 transcript.json).length
        · rw [if_pos hlong] at hw
          cases hw <;> simp [resultOf, hlong]
        · rw [if_neg hlong] at hw
          cases hw <;> simp [resultOf, hlong]
      | _ => cases hw <;> rfl

/-- A transcript is written in both directories, or in none. -/
theorem FileState.Transcribed.alike {file : Option String} {transcript : Transcript}
    {v v' u u' : FileState} {r r' : Except SessionError Unit}
      (h : v.Transcribed file transcript r u)
    (h' : v'.Transcribed file transcript r' u') (hrooms : v.directory.SameRooms v'.directory) :
    SessionError.Alike r r' := by
  cases file with
  | none =>
    cases h with
    | unwanted =>
      cases h' with
      | unwanted => exact .inl rfl
      | written hf | unopened hf | unwritten hf => cases hf
    | written hf | unopened hf | unwritten hf => cases hf
  | some path =>
    rw [h.eq_resultOf, h'.eq_resultOf]
    exact resultOf_alike (Directory.alike_write hrooms path _) _

/-! ### Sessions -/

private theorem FileState.Saved.sameRooms {v u : FileState} {written : Bool}
    (h : v.Saved written u) :
    v.directory.SameRooms u.directory := by
  cases h with
  | spared => exact .refl _
  | written _ _ hwrite => exact Directory.sameRooms_of_write hwrite
  | failed => exact .refl _

private theorem FileState.Stepped.sameRooms {v u : FileState} (h : v.Stepped u) :
    v.directory.SameRooms u.directory := by
  cases h with
  | kept => exact .refl _
  | givenUp => exact .refl _
  | saved _ h => exact h.sameRooms

namespace Session

variable {s t : Session}

/-- What closing a session comes to in its directory, and with what result. -/
theorem ends_shutdown_rooms (hs : s.closed = false) :
    Ends shutdown s fun r t => s.directory.SameRooms t.directory ∧ ∃ v u : FileState,
      s.directory.SameRooms v.directory ∧
        v.Transcribed s.config.transcriptPath s.transcript r u := by
  apply (ends_shutdown_fileState hs).mono
  rintro r t ⟨-, -, v, hv, hwrites⟩
  have hrooms : s.directory.SameRooms v.directory := by
    rcases hv with rfl | ⟨written, hv⟩
    · exact .refl _
    · exact hv.sameRooms
  refine ⟨hrooms.trans ?_, v, _, hrooms, hwrites⟩
  change v.directory.SameRooms t.fileState.directory
  generalize t.fileState = u at hwrites
  cases hwrites with
  | written _ hwrite =>
    rcases Transcript.write_eq_ok hwrite with heq | hwrite
    · rw [heq]
      exact .refl _
    · exact Directory.sameRooms_of_write hwrite
  | unwanted | unopened | unwritten => exact .refl _

/-- The directories stay throughout. -/
theorem FileChanges.sameRooms (h : FileChanges s t) : s.directory.SameRooms t.directory := by
  induction h with
  | refl => exact .refl _
  | tail _ h ih =>
    refine ih.trans ?_
    cases h with
    | fileStep h => exact h.fileState_stepped.2.2.sameRooms
    | reset => exact .refl _
    | @close =>
      rename_i u _
      cases hu : u.closed with
      | true =>
        rw [shutdown_of_closed hu]
        exact .refl _
      | false => exact ((ends_shutdown_rooms hu).mono fun _ _ h => h.1).left

end Session

end Dialogue
