import Dialogue.Effect.Ends
import Dialogue.Transcript
/-!
# Reading a written file

What was written to a path is read there, unless the path means the device that keeps nothing. The
directories on the way to the file are those they were.
-/

namespace Dialogue.Directory

open Effect

variable {d e : Directory} {place place' q : Place} {path : String} {bytes : List UInt8}

/-- What is read is what stands at the place that a path means. -/
theorem read_of_locate (h : d.locate path = .ok place) :
    d.read path = match d.get? place with
      | none => .error .notFound
      | some .directory => .error .isADirectory
      | some (.file bytes) => .ok bytes := by
  rw [read, h]
  rfl

private theorem walk_append (d : Directory) (place : Place) (a b : List String) :
    d.walk place (a ++ b) = (d.walk place a).bind fun q => d.walk q b := by
  induction a generalizing place with
  | nil => rfl
  | cons name a ih =>
    simp only [List.cons_append, walk]
    split
    · rfl
    · rfl
    · split
      · rfl
      · exact ih _

/-- A directory is entered where it stands. -/
private theorem walk_self (h : d.walk place ["."] = .ok place') : place' = place := by
  simp only [walk] at h
  split at h
  · cases h
  · cases h
  · split at h
    · cases h
    · cases h
      rfl

/-- Names can be followed wherever the directories stay. -/
theorem walk_eq_ok_of_directories {names : List String}
    (hd : ∀ q, d.get? q = some .directory → e.get? q = some .directory)
    (h : d.walk place names = .ok place') : e.walk place names = .ok place' := by
  induction names generalizing place with
  | nil => exact h
  | cons name names ih =>
    simp only [walk] at h ⊢
    split at h
    · cases h
    · cases h
    · next hdir =>
      rw [hd _ hdir]
      split at h
      · cases h
      · next hname =>
        dsimp only
        rw [if_neg hname]
        exact ih h

private theorem lookup_filter_ne {l : List (Place × DirectoryEntry)} (hq : q ≠ place) :
    (l.filter (·.1 ≠ place)).lookup q = l.lookup q := by
  induction l with
  | nil => rfl
  | cons f l ih =>
    obtain ⟨p, entry⟩ := f
    rw [List.filter_cons]
    by_cases hp : p = place
    · have hne : (q == p) = false := by simpa [hp] using hq
      rw [if_neg (by simpa using hp), ih, List.lookup_cons, hne]
    · rw [if_pos (by simpa using hp), List.lookup_cons, List.lookup_cons, ih]

/-- What is put at a place leaves the others. -/
theorem get?_insert_of_ne (d : Directory) (entry : DirectoryEntry) (hq : q ≠ place) :
    (d.insert place entry).get? q = d.get? q := by
  have hne : (q == place) = false := by simpa using hq
  have hlookup : (d.insert place entry).entries.lookup q = d.entries.lookup q := by
    rw [insert, List.lookup_cons, hne]
    exact lookup_filter_ne hq
  rw [get?, get?, hlookup]

/-- A file is kept unless its place is that of the device that keeps nothing. -/
theorem writeAt_eq_ok (h : d.writeAt place bytes = .ok e) :
    e = d ∨ (d.get? place ≠ some .directory ∧ e.get? place = some (.file bytes) ∧
      e = d.insert place (.file bytes)) := by
  have hw := h
  unfold writeAt at h
  split at h
  · cases h
  · next hplace =>
    split at h
    · cases h
      exact .inl rfl
    · next hnull =>
      split at h
      · split at h
        · cases h
          exact .inl rfl
        · cases h
      · next hfull =>
        have hread := get?_writeAt hw hnull hfull
        cases h
        exact .inr ⟨hplace, hread, rfl⟩

/-- A file is written to the place that its path is read from. -/
theorem write_eq_ok (h : d.write path bytes = .ok e) :
    ∃ place, pathFault? path = none ∧ namesDirectory path = false ∧
      d.walk (.start path) (names path) = .ok place ∧ d.writeAt place bytes = .ok e := by
  unfold write at h
  dsimp only at h
  split at h
  · cases h
  · next hfault =>
    obtain ⟨parent, hparent, h⟩ := except_bind_eq_ok h
    obtain ⟨directory, hdirectory, h⟩ := except_bind_eq_ok h
    split at h
    · cases h
    · next hname =>
      obtain ⟨place, hplace, hwrite⟩ := except_bind_eq_ok h
      simp only [Bool.or_eq_true, decide_eq_true_eq, not_or, Bool.not_eq_true] at hname
      obtain ⟨⟨hends, hself⟩, -⟩ := hname
      have hne : names path ≠ [] := by
        intro hnil
        rw [hnil] at hself
        exact hself rfl
      have hnames : names path = (names path).dropLast ++ [(names path).getLastD "."] := by
        rw [List.getLastD_eq_getLast?, List.getLast?_eq_some_getLast hne, Option.getD_some,
          List.dropLast_concat_getLast hne]
      rw [walk_self hdirectory] at hplace
      refine ⟨place, Option.eq_none_iff_forall_ne_some.mpr hfault, hends, ?_, hwrite⟩
      rw [hnames, walk_append, hparent]
      exact hplace

/-- The directories are those they were. -/
theorem get?_eq_directory_of_write (h : d.write path bytes = .ok e) :
    e.get? q = some .directory ↔ d.get? q = some .directory := by
  obtain ⟨place, -, -, -, hwrite⟩ := write_eq_ok h
  rcases writeAt_eq_ok hwrite with rfl | ⟨hfile, hread, he⟩
  · rfl
  · by_cases hq : q = place
    · subst hq
      rw [hread]
      exact ⟨nofun, fun hd => absurd hd hfile⟩
    · rw [he, get?_insert_of_ne d _ hq]

/-- What was written is read, if it was kept. -/
theorem read_of_write (h : d.write path bytes = .ok e) : e = d ∨ e.read path = .ok bytes := by
  obtain ⟨place, hfault, hends, hplace, hwrite⟩ := write_eq_ok h
  rcases writeAt_eq_ok hwrite with he | ⟨hfile, hread, he⟩
  · exact .inl he
  · right
    have hdirectories (q : Place) (hq : d.get? q = some .directory) :
        e.get? q = some .directory := (get?_eq_directory_of_write h).mpr hq
    have hlocate : e.locate path = .ok place := by
      rw [locate, hfault, hends]
      simp only [Bool.false_eq_true, if_false, List.append_nil]
      exact walk_eq_ok_of_directories hdirectories hplace
    rw [read_of_locate hlocate, hread]

/-- A path means the same place after a file was written. -/
theorem locate_eq_ok_iff_of_write {other : String} (h : d.write path bytes = .ok e) :
    e.locate other = .ok q ↔ d.locate other = .ok q := by
  have hlocate {d e : Directory} (hd : ∀ q, d.get? q = some .directory → e.get? q = some .directory)
      (h : d.locate other = .ok q) : e.locate other = .ok q := by
    unfold locate at h ⊢
    split at h
    · cases h
    · exact walk_eq_ok_of_directories hd h
  exact ⟨hlocate fun _ => (get?_eq_directory_of_write h).mp,
    hlocate fun _ => (get?_eq_directory_of_write h).mpr⟩

/-- What can be read at other paths is what could be read there before. -/
theorem toOption_read_of_write {other : String} (h : d.write path bytes = .ok e)
    (hne : ∀ place, d.locate path = .ok place → d.locate other ≠ .ok place) :
    (e.read other).toOption = (d.read other).toOption := by
  obtain ⟨place, hfault, hends, hplace, hwrite⟩ := write_eq_ok h
  rcases writeAt_eq_ok hwrite with rfl | ⟨-, -, he⟩
  · rfl
  · have hlocate : d.locate path = .ok place := by
      rw [locate, hfault, hends]
      simpa only [Bool.false_eq_true, if_false, List.append_nil] using hplace
    cases hother : d.locate other with
    | ok q =>
      have hq : q ≠ place := fun heq => hne place hlocate (heq ▸ hother)
      have hkept : e.get? q = d.get? q := by rw [he, get?_insert_of_ne d _ hq]
      rw [read_of_locate ((locate_eq_ok_iff_of_write h).mpr hother), read_of_locate hother, hkept]
    | error fault =>
      cases hother' : e.locate other with
      | ok q =>
        rw [(locate_eq_ok_iff_of_write h).mp hother'] at hother
        cases hother
      | error fault' =>
        rw [read, read, hother, hother']
        rfl

end Dialogue.Directory

namespace Dialogue

/-- A transcript is written as a file is, unless its device takes no bytes and that goes unnoticed.
-/
theorem Transcript.write_eq_ok {t : Transcript} {path : String} {d e : Directory}
    (h : t.write path d = .ok e) : e = d ∨ d.write path (Text.utf8 t.json) = .ok e := by
  unfold Transcript.write at h
  dsimp only at h
  split at h
  · next d' hd =>
    cases h
    exact .inr hd
  · split at h <;> cases h
    exact .inl rfl
  · cases h

end Dialogue
