import Dialogue.Text.Line
/-!
# Reverse prompts

A reverse prompt hands control back to the user when it stands at the end of what was said last.
Outside interactive mode it may be followed by a short tail, said in the same step.
-/

namespace Dialogue.Antiprompt

open Text (byteLength)

/-- How many tokens back the text that is searched begins. Follows `N_PREV`. -/
def recentTokens : Nat := 32

/-- How many bytes may follow a reverse prompt. Follows `antiprompt_padding`. -/
def slack (interactive : Bool) : Nat := if interactive then 0 else 2

/-- Drops as many whole characters as fit in `n` bytes. -/
def dropBytes (n : Nat) : List Char → List Char
  | [] => []
  | c :: r => if c.utf8Size ≤ n then dropBytes (n - c.utf8Size) r else c :: r

/-- The shortest tail of a text that has at least `n` bytes, or all of it.
Part of `find_antiprompt`. -/
def tail (n : Nat) (text : List Char) : List Char := dropBytes (byteLength text - n) text

/-- Whether `s` occurs somewhere in the text. -/
def occurs (s : List Char) : List Char → Bool
  | [] => s.isEmpty
  | c :: r => s.isPrefixOf (c :: r) || occurs s r

/-- Whether a reverse prompt stands at the end of the text, up to the allowed tail.
Part of `find_antiprompt`. -/
def endsText (interactive : Bool) (text antiprompt : List Char) : Bool :=
  occurs antiprompt (tail (byteLength antiprompt + slack interactive) text)

/-- The first non-empty reverse prompt that stands at the end of the text.
Follows `find_antiprompt`. -/
def find? (text : String) (antiprompts : List String) (interactive : Bool) : Option String :=
  antiprompts.find? fun a => a ≠ "" && endsText interactive text.toList a.toList

/-! ### What stands at the end of a text -/

private theorem dropBytes_append {n : Nat} {s : List Char} (h : n ≤ byteLength s) (a : List Char) :
    ∃ r, dropBytes n (s ++ a) = r ++ a := by
  induction s generalizing n with
  | nil =>
    obtain rfl : n = 0 := Nat.le_zero.mp h
    cases a with
    | nil => exact ⟨[], rfl⟩
    | cons c r => exact ⟨[], if_neg (Nat.not_le.mpr c.utf8Size_pos)⟩
  | cons c s ih =>
    simp only [List.cons_append, dropBytes]
    split
    · exact ih (by simp only [byteLength] at h; omega)
    · exact ⟨c :: s, rfl⟩

/-- The bytes of a text and of one behind it add up. -/
theorem byteLength_append (s a : List Char) :
    byteLength (s ++ a) = byteLength s + byteLength a := by
  induction s with
  | nil => simp [byteLength]
  | cons c s ih => simp only [List.cons_append, byteLength, ih, Nat.add_assoc]

private theorem occurs_append (s a : List Char) : occurs a (s ++ a) = true := by
  induction s with
  | nil => cases a <;> simp [occurs]
  | cons c s ih => simp [occurs, ih]

/-- Whatever tail is allowed, what a text ends with stands at its end. -/
theorem endsText_of_suffix {text a : List Char} (h : a <:+ text) (interactive : Bool) :
    endsText interactive text a = true := by
  obtain ⟨s, rfl⟩ := h
  obtain ⟨r, hr⟩ := dropBytes_append (s := s) (a := a)
    (n := byteLength (s ++ a) - (byteLength a + slack interactive))
    (by rw [byteLength_append]; omega)
  rw [endsText, tail, hr]
  exact occurs_append r a

/-- A reverse prompt that a text ends with is not missed. -/
theorem find?_isSome_of_suffix {text a : String} {antiprompts : List String} (ha : a ∈ antiprompts)
    (hne : a ≠ "") (h : a.toList <:+ text.toList) (interactive : Bool) :
    (find? text antiprompts interactive).isSome = true := by
  rw [find?, List.find?_isSome]
  exact ⟨a, ha, by simp [hne, endsText_of_suffix h]⟩

/-- What occurs in a text is some of its characters in a row. -/
theorem occurs_iff {a text : List Char} : occurs a text = true ↔ a <:+: text := by
  induction text with
  | nil => simp [occurs]
  | cons c r ih => simp [occurs, ih, List.infix_cons_iff]

/-- As many characters are dropped as fit, and no more. -/
theorem exists_dropBytes (n : Nat) (text : List Char) :
    ∃ d, text = d ++ dropBytes n text ∧ byteLength d ≤ n ∧
      ∀ c r, dropBytes n text = c :: r → n < byteLength d + c.utf8Size := by
  induction text generalizing n with
  | nil => exact ⟨[], rfl, Nat.zero_le _, nofun⟩
  | cons c r ih =>
    rw [dropBytes]
    split
    · next hle =>
      obtain ⟨d, hd, hfits, hfull⟩ := ih (n - c.utf8Size)
      refine ⟨c :: d, congrArg (c :: ·) hd, ?_, ?_⟩
      · rw [byteLength]
        omega
      · intro c' r' h
        have hlt := hfull c' r' h
        rw [byteLength]
        omega
    · next hlt =>
      refine ⟨[], rfl, Nat.zero_le _, ?_⟩
      rintro _ _ ⟨⟩
      rw [byteLength]
      omega

private theorem dropBytes_zero (text : List Char) : dropBytes 0 text = text := by
  cases text with
  | nil => rfl
  | cons c r => exact if_neg (Nat.not_le.mpr c.utf8Size_pos)

/-- As many bytes more are dropped as stand in front of a text. -/
theorem dropBytes_add (s text : List Char) (n : Nat) :
    dropBytes (byteLength s + n) (s ++ text) = dropBytes n text := by
  induction s with
  | nil => rw [byteLength, Nat.zero_add, List.nil_append]
  | cons c s ih =>
    rw [byteLength, List.cons_append, dropBytes, if_pos (by omega), ← ih]
    congr 1
    omega

/-- A tail that is no longer than a text does not reach what is in front of it. -/
theorem tail_append {n : Nat} {text : List Char} (h : n ≤ byteLength text) (s : List Char) :
    tail n (s ++ text) = tail n text := by
  rw [tail, tail, byteLength_append, Nat.add_sub_assoc h, dropBytes_add]

/-- A text with more in front of it has the same tail, or one that is longer in front. -/
theorem exists_tail_append (n : Nat) (s text : List Char) :
    ∃ r, tail n (s ++ text) = r ++ tail n text := by
  by_cases h : n ≤ byteLength text
  · exact ⟨[], tail_append h s⟩
  · rw [tail, tail, byteLength_append, Nat.sub_eq_zero_of_le (Nat.le_of_not_le h), dropBytes_zero]
    exact dropBytes_append (by omega) text

/-- What stands at the end of a text stands there whatever comes before. -/
theorem endsText_append {text a : List Char} {interactive : Bool}
    (h : endsText interactive text a = true) (s : List Char) :
    endsText interactive (s ++ text) a = true := by
  rw [endsText, occurs_iff] at h ⊢
  obtain ⟨r, hr⟩ := exists_tail_append (byteLength a + slack interactive) s text
  rw [hr]
  exact h.trans (List.suffix_append _ _).isInfix

/-- What stands at the end of a text that is long enough does not depend on what comes before. -/
theorem endsText_append_of_le {text a : List Char} {interactive : Bool}
    (h : byteLength a + slack interactive ≤ byteLength text) (s : List Char) :
    endsText interactive (s ++ text) a = endsText interactive text a := by
  rw [endsText, tail_append h, endsText]

end Dialogue.Antiprompt
