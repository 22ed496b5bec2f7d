/-!
# Argument strings

An argument string is cut at double quotes. Segments outside quotes are cut again at spaces, those
inside are one argument each; empty pieces are dropped, and a quote that is never closed runs to
the end of the string.
-/

namespace Dialogue.Text.Argument

/-- Cuts at every occurrence of a separator; one more piece than there are separators. -/
def cut (sep : Char) : List Char → List (List Char)
  | [] => [[]]
  | c :: r =>
    if c = sep then [] :: cut sep r
    else
      match cut sep r with
      | [] => [[c]]
      | piece :: pieces => (c :: piece) :: pieces

/-- The words of a segment outside quotes. -/
def words (segment : List Char) : List (List Char) := (cut ' ' segment).filter (· ≠ [])

/-- The arguments of the segments, of which the first lies inside quotes iff `quoted`. -/
def ofSegments (quoted : Bool) : List (List Char) → List (List Char)
  | [] => []
  | segment :: segments =>
    (if quoted then [segment].filter (· ≠ []) else words segment) ++ ofSegments (!quoted) segments

/-- The arguments of a string, in order. Follows `split_arguments`. -/
def split (s : String) : List String := (ofSegments false (cut '"' s.toList)).map String.ofList

/-! ### Cutting at a separator -/

/-- A text is cut into one piece at least. -/
theorem cut_ne_nil (sep : Char) (s : List Char) : cut sep s ≠ [] := by
  cases s with
  | nil => exact List.cons_ne_nil _ _
  | cons c r =>
    rw [cut]
    split
    · exact List.cons_ne_nil _ _
    · split <;> exact List.cons_ne_nil _ _

/-- A separator ends an empty piece. -/
theorem cut_cons_self (sep : Char) (r : List Char) : cut sep (sep :: r) = [] :: cut sep r :=
  if_pos rfl

private theorem cut_cons_of_cut {sep c : Char} {r piece : List Char} {pieces : List (List Char)}
    (h : c ≠ sep) (hr : cut sep r = piece :: pieces) :
    cut sep (c :: r) = (c :: piece) :: pieces := by
  rw [cut, if_neg h, hr]

/-- Any other character goes to the first piece of what follows. -/
theorem cut_cons_of_ne {sep c : Char} (h : c ≠ sep) (r : List Char) :
    ∃ piece pieces, cut sep r = piece :: pieces ∧ cut sep (c :: r) = (c :: piece) :: pieces := by
  obtain ⟨piece, pieces, hr⟩ := List.exists_cons_of_ne_nil (cut_ne_nil sep r)
  exact ⟨piece, pieces, hr, cut_cons_of_cut h hr⟩

/-- No piece has a separator in it. -/
theorem not_mem_of_mem_cut {sep : Char} {s piece : List Char} (h : piece ∈ cut sep s) :
    sep ∉ piece := by
  induction s generalizing piece with
  | nil =>
    obtain rfl := List.mem_singleton.mp h
    exact List.not_mem_nil
  | cons c r ih =>
    by_cases hc : c = sep
    · rw [hc, cut_cons_self] at h
      rcases List.mem_cons.mp h with rfl | h
      · exact List.not_mem_nil
      · exact ih h
    · obtain ⟨first, pieces, hr, hcons⟩ := cut_cons_of_ne hc r
      rw [hcons] at h
      rw [hr] at ih
      rcases List.mem_cons.mp h with rfl | h
      · intro hsep
        rcases List.mem_cons.mp hsep with rfl | hsep
        · exact hc rfl
        · exact ih List.mem_cons_self hsep
      · exact ih (List.mem_cons_of_mem _ h)

/-- The pieces with separators between them are the text again. -/
theorem intercalate_cut (sep : Char) (s : List Char) : [sep].intercalate (cut sep s) = s := by
  induction s with
  | nil => rfl
  | cons c r ih =>
    by_cases hc : c = sep
    · obtain ⟨first, pieces, hr⟩ := List.exists_cons_of_ne_nil (cut_ne_nil sep r)
      rw [hc, cut_cons_self, hr, List.intercalate_cons_cons, ← hr, ih]
      rfl
    · obtain ⟨first, pieces, hr, hcons⟩ := cut_cons_of_ne hc r
      rw [hr] at ih
      rw [hcons, ← ih]
      cases pieces with
      | nil => simp
      | cons second pieces => simp [List.intercalate_cons_cons]

/-- A separator parts what is in front of it from what is behind. -/
theorem cut_append (sep : Char) (s r : List Char) :
    cut sep (s ++ sep :: r) = cut sep s ++ cut sep r := by
  induction s with
  | nil => exact cut_cons_self sep r
  | cons c s ih =>
    by_cases hc : c = sep
    · rw [hc, List.cons_append, cut_cons_self, ih, cut_cons_self, List.cons_append]
    · obtain ⟨piece, pieces, hs, hcons⟩ := cut_cons_of_ne hc s
      rw [hs, List.cons_append] at ih
      rw [List.cons_append, cut_cons_of_cut hc ih, hcons, List.cons_append]

/-- What has no separator in it goes to the first piece of what follows. -/
theorem cut_append_of_not_mem {sep : Char} {s : List Char} (h : sep ∉ s) (r : List Char) :
    ∃ piece pieces, cut sep r = piece :: pieces ∧ cut sep (s ++ r) = (s ++ piece) :: pieces := by
  induction s with
  | nil =>
    obtain ⟨piece, pieces, hr⟩ := List.exists_cons_of_ne_nil (cut_ne_nil sep r)
    exact ⟨piece, pieces, hr, hr⟩
  | cons c s ih =>
    have hc : c ≠ sep := fun hc => h (hc ▸ List.mem_cons_self)
    obtain ⟨piece, pieces, hr, hs⟩ := ih fun hs => h (List.mem_cons_of_mem c hs)
    exact ⟨piece, pieces, hr, cut_cons_of_cut hc hs⟩

/-- A text without the separator is one piece. -/
theorem cut_of_not_mem {sep : Char} {s : List Char} (h : sep ∉ s) : cut sep s = [s] := by
  obtain ⟨piece, pieces, hr, hs⟩ := cut_append_of_not_mem h []
  obtain ⟨rfl, rfl⟩ := List.cons.inj hr
  rwa [List.append_nil] at hs

/-- The pieces put together are the text without its separators. -/
theorem flatten_cut (sep : Char) (s : List Char) : (cut sep s).flatten = s.filter (· ≠ sep) := by
  induction s with
  | nil => rfl
  | cons c s ih =>
    by_cases hc : c = sep
    · rw [hc, cut_cons_self, List.filter_cons_of_neg (by simp), List.flatten_cons, ih]
      rfl
    · obtain ⟨piece, pieces, hs, hcons⟩ := cut_cons_of_ne hc s
      rw [hs] at ih
      rw [hcons, List.filter_cons_of_pos (by simpa using hc), ← ih]
      rfl

end Dialogue.Text.Argument
