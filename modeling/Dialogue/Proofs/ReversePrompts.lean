import Dialogue.Antiprompt
import Mathlib.Order.Bounds.Basic
/-!
# Where reverse prompts are found

What is searched for a reverse prompt is the end of the text, as long as the prompt and its allowed
tail. It begins at a whole character, so it may begin some bytes further in front; where a prompt
begins with just this character, that many bytes more may stand behind it. So a prompt that begins
with a character of one byte is found just where the allowed tail says, and any other one up to as
many bytes further in front as its first character has continuation bytes.
-/

namespace Dialogue.Antiprompt

open Text (byteLength)

variable {text a : List Char} {interactive : Bool} {n : Nat}

/-- Whether byte `i` of a text is between two of its characters, or at one of its ends. -/
def IsBoundary (text : List Char) (i : Nat) : Prop := ∃ s t, text = s ++ t ∧ byteLength s = i

/-- Whether `a` occurs in a text with at most `n` bytes behind it. -/
def EndsWithin (n : Nat) (text a : List Char) : Prop :=
  ∃ s t, text = s ++ a ++ t ∧ byteLength t ≤ n

/-- How many bytes may follow a reverse prompt that is found: those of the allowed tail, and as many
as its first character has continuation bytes. -/
def reach (interactive : Bool) (a : List Char) : Nat :=
  slack interactive + (a.head?.elim 0 fun c => c.utf8Size - 1)

/-- Whether a reverse prompt is not empty and occurs with no more bytes behind it than `room` gives
it. -/
def StandsWithin (room : List Char → Nat) (text a : String) : Prop :=
  a ≠ "" ∧ EndsWithin (room a.toList) text.toList a.toList

/-- Whether `a` is the first of the reverse prompts that stands at the end, as far as `room`
goes. -/
def FirstWithin (room : List Char → Nat) (text : String) (antiprompts : List String) (a : String) :
    Prop :=
  ∃ before after, antiprompts = before ++ a :: after ∧ StandsWithin room text a ∧
    ∀ b ∈ before, ¬ StandsWithin room text b

/-! ### Cutting at characters -/

/-- Nothing longer than what is dropped could be dropped as whole characters. -/
theorem length_le_of_boundary {s t d rest : List Char} (h : s ++ t = d ++ rest)
    (hs : byteLength s ≤ n) (hfull : ∀ c r, rest = c :: r → n < byteLength d + c.utf8Size) :
    byteLength s ≤ byteLength d := by
  rcases List.append_eq_append_iff.mp h with ⟨x, rfl, -⟩ | ⟨x, rfl, hrest⟩
  · rw [byteLength_append]
    exact Nat.le_add_right _ _
  · cases x with
    | nil => simp
    | cons c x =>
      have hlt := hfull c (x ++ t) hrest
      rw [byteLength_append, byteLength] at hs
      omega

/-- A tail is cut off at the last place in front of its first byte where a text can be cut. -/
theorem exists_front_tail (n : Nat) (text : List Char) : ∃ front, text = front ++ tail n text ∧
    IsGreatest {i | IsBoundary text i ∧ i ≤ byteLength text - n} (byteLength front) := by
  obtain ⟨d, hd, hfits, hfull⟩ := exists_dropBytes (byteLength text - n) text
  refine ⟨d, hd, ⟨⟨d, _, hd, rfl⟩, hfits⟩, ?_⟩
  rintro _ ⟨⟨s, t, hst, rfl⟩, hle⟩
  exact length_le_of_boundary (hst.symm.trans hd) hle hfull

/-! ### Finding a reverse prompt -/

private theorem endsWithin_zero_iff : EndsWithin 0 text a ↔ a <:+ text := by
  constructor
  · rintro ⟨s, t, rfl, ht⟩
    cases t with
    | nil => exact ⟨s, (List.append_nil _).symm⟩
    | cons c t =>
      have hpos := c.utf8Size_pos
      rw [byteLength] at ht
      omega
  · rintro ⟨s, rfl⟩
    exact ⟨s, [], (List.append_nil _).symm, Nat.le_refl 0⟩

private theorem reach_cons (c : Char) (r : List Char) :
    reach interactive (c :: r) = slack interactive + (c.utf8Size - 1) := rfl

/-- What is found has no more bytes behind it than its reach. -/
theorem endsWithin_of_endsText {c : Char} {r : List Char}
    (h : endsText interactive text (c :: r) = true) :
    EndsWithin (reach interactive (c :: r)) text (c :: r) := by
  rw [endsText, occurs_iff, tail] at h
  obtain ⟨d, hd, hfits, hfull⟩ :=
    exists_dropBytes (byteLength text - (byteLength (c :: r) + slack interactive)) text
  obtain ⟨x, y, hxy⟩ := h
  rw [← hxy] at hd hfull
  refine ⟨d ++ x, y, by rw [hd]; simp only [List.append_assoc], ?_⟩
  have hlength := congrArg byteLength hd
  simp only [byteLength_append] at hlength
  have hpos := c.utf8Size_pos
  rw [reach_cons]
  -- The searched end begins with the prompt itself, or with a character in front of it.
  cases x with
  | nil =>
    have hlt := hfull c (r ++ y) rfl
    simp only [byteLength] at hlength hlt
    omega
  | cons c' x =>
    have hlt := hfull c' (x ++ (c :: r) ++ y) rfl
    simp only [byteLength] at hlength hlt
    omega

/-- Where no tail is allowed, a text ends with what stands at its end, if that begins with a
character of one byte. -/
theorem suffix_of_endsText {c : Char} {r : List Char} (hc : c.utf8Size = 1)
    (h : endsText true text (c :: r) = true) : c :: r <:+ text := by
  have hreach : reach true (c :: r) = 0 := by rw [reach_cons, hc]; rfl
  have hends := endsWithin_of_endsText h
  rw [hreach] at hends
  exact endsWithin_zero_iff.mp hends

/-- What has no more bytes behind it than its reach is found. -/
theorem endsText_of_endsWithin {c : Char} {r : List Char}
    (h : EndsWithin (reach interactive (c :: r)) text (c :: r)) :
    endsText interactive text (c :: r) = true := by
  obtain ⟨s, t, htext, ht⟩ := h
  rw [endsText, occurs_iff, tail]
  obtain ⟨d, hd, hfits, -⟩ :=
    exists_dropBytes (byteLength text - (byteLength (c :: r) + slack interactive)) text
  have hsplit : s ++ (c :: r ++ t) = d ++ dropBytes
      (byteLength text - (byteLength (c :: r) + slack interactive)) text := by
    rw [← hd, htext, List.append_assoc]
  rcases List.append_eq_append_iff.mp hsplit with ⟨x, hdx, hx⟩ | ⟨x, -, hx⟩
  · cases x with
    | nil =>
      rw [List.nil_append] at hx
      exact ⟨[], t, by rw [← hx, List.nil_append]⟩
    | cons c' x =>
      -- What is dropped would reach into the prompt, at least over its first character.
      obtain ⟨rfl, -⟩ := List.cons.inj hx
      have hpos := c.utf8Size_pos
      rw [reach_cons] at ht
      rw [htext, hdx] at hfits
      simp only [byteLength_append, byteLength] at hfits
      omega
  · exact ⟨x, t, by rw [hx, List.append_assoc]⟩

/-- A reverse prompt is found just if it has no more bytes behind it than its reach. -/
theorem endsText_iff (ha : a ≠ []) :
    endsText interactive text a = true ↔ EndsWithin (reach interactive a) text a := by
  cases a with
  | nil => exact absurd rfl ha
  | cons c r => exact ⟨endsWithin_of_endsText, endsText_of_endsWithin⟩

/-- A reverse prompt that begins with a character of one byte reaches as far as the allowed tail. -/
theorem reach_of_narrow (h : ∀ c ∈ a.head?, c.utf8Size = 1) :
    reach interactive a = slack interactive := by
  cases a with
  | nil => rfl
  | cons c r =>
    have hc : c.utf8Size = 1 := h c rfl
    rw [reach_cons, hc]
    rfl

/-! ### The first of several -/

section

variable {text a : String} {antiprompts : List String} {room room' : List Char → Nat}

private theorem standsWithin_reach_iff :
    (a ≠ "" && endsText interactive text.toList a.toList) = true ↔
      StandsWithin (reach interactive) text a := by
  rw [Bool.and_eq_true, decide_eq_true_eq]
  refine and_congr_right fun ha => endsText_iff ?_
  rwa [ne_eq, String.toList_eq_nil_iff]

private theorem find?_eq_some_iff :
    find? text antiprompts interactive = some a ↔
      FirstWithin (reach interactive) text antiprompts a := by
  rw [find?, List.find?_eq_some_iff_append, standsWithin_reach_iff]
  constructor
  · rintro ⟨hstands, before, after, hsplit, hbefore⟩
    refine ⟨before, after, hsplit, hstands, fun b hb hstands => ?_⟩
    have hnot := hbefore b hb
    rw [standsWithin_reach_iff.mpr hstands] at hnot
    exact absurd hnot (by decide)
  · rintro ⟨before, after, hsplit, hstands, hbefore⟩
    refine ⟨hstands, before, after, hsplit, fun b hb => ?_⟩
    rw [Bool.not_eq_true', Bool.eq_false_iff, ne_eq, standsWithin_reach_iff]
    exact hbefore b hb

private theorem find?_eq_none_iff :
    find? text antiprompts interactive = none ↔
      ∀ b ∈ antiprompts, ¬ StandsWithin (reach interactive) text b := by
  rw [find?, List.find?_eq_none]
  simp only [standsWithin_reach_iff]

private theorem standsWithin_congr (h : room a.toList = room' a.toList) :
    StandsWithin room text a ↔ StandsWithin room' text a := by rw [StandsWithin, StandsWithin, h]

/-- Only what is left to the prompts of the list matters. -/
theorem firstWithin_congr (h : ∀ b ∈ antiprompts, room b.toList = room' b.toList) :
    FirstWithin room text antiprompts a ↔ FirstWithin room' text antiprompts a := by
  refine exists_congr fun before => exists_congr fun after => and_congr_right fun hsplit => ?_
  rw [hsplit] at h
  refine and_congr (standsWithin_congr (h a (by simp))) (forall₂_congr fun b hb => ?_)
  exact not_congr (standsWithin_congr (h b (by simp [hb])))

end

/-- What is searched begins at a character. A reverse prompt is found just if it is the first of the
list that is not empty and occurs with no more bytes behind it than its reach, and none is found
just if there is none. Where the prompts begin with characters of one byte, that is no more than the
allowed tail; and with no tail allowed, the text ends with the prompt. -/
theorem reverse_prompt_found_in_reach (text : String) (antiprompts : List String)
    (interactive : Bool) :
    (∀ n, ∃ front, text.toList = front ++ tail n text.toList ∧
      IsGreatest {i | IsBoundary text.toList i ∧ i ≤ byteLength text.toList - n}
        (byteLength front)) ∧
    (∀ a, find? text antiprompts interactive = some a ↔
      FirstWithin (reach interactive) text antiprompts a) ∧
    (find? text antiprompts interactive = none ↔
      ∀ b ∈ antiprompts, ¬ StandsWithin (reach interactive) text b) ∧
    ((∀ b ∈ antiprompts, ∀ c ∈ b.toList.head?, c.utf8Size = 1) →
      (∀ a, find? text antiprompts interactive = some a ↔
        FirstWithin (fun _ => slack interactive) text antiprompts a) ∧
      (find? text antiprompts interactive = none ↔
        ∀ b ∈ antiprompts, ¬ StandsWithin (fun _ => slack interactive) text b)) ∧
    ∀ a, StandsWithin (fun _ => slack true) text a ↔ a ≠ "" ∧ a.toList <:+ text.toList := by
  refine ⟨fun n => exists_front_tail n _, fun a => find?_eq_some_iff, find?_eq_none_iff,
    fun hnarrow => ?_, fun a => and_congr_right fun _ => endsWithin_zero_iff⟩
  have hreach (b : String) (hb : b ∈ antiprompts) :
      reach interactive b.toList = slack interactive := reach_of_narrow (hnarrow b hb)
  constructor
  · intro a
    rw [find?_eq_some_iff]
    exact firstWithin_congr hreach
  · rw [find?_eq_none_iff]
    exact forall₂_congr fun b hb => not_congr (standsWithin_congr (hreach b hb))

/-- Behind characters of several bytes, the first prompt that the text ends with is found. -/
theorem reverse_prompt_found_in_reach_of_narrow_prompts :
    find? "héllo Bob:" ["", "Bob:", "b:"] true = some "Bob:" ∧
      FirstWithin (fun _ => slack true) "héllo Bob:" ["", "Bob:", "b:"] "Bob:" := by
  have hfound : find? "héllo Bob:" ["", "Bob:", "b:"] true = some "Bob:" := by decide +kernel
  have hsizes : 'B'.utf8Size = 1 ∧ 'b'.utf8Size = 1 := ⟨rfl, rfl⟩
  have hnarrow : ∀ b ∈ ["", "Bob:", "b:"], ∀ c ∈ b.toList.head?, c.utf8Size = 1 := by
    simpa using hsizes
  obtain ⟨-, -, -, hexact, -⟩ :=
    reverse_prompt_found_in_reach "héllo Bob:" ["", "Bob:", "b:"] true
  exact ⟨hfound, ((hexact hnarrow).1 "Bob:").mp hfound⟩

/-- A prompt that begins with a character of two bytes is found although a byte follows it, where
none may. -/
theorem reverse_prompt_found_beyond_tail :
    slack true = 0 ∧ find? "éb" ["é"] true = some "é" ∧ ¬ "é".toList <:+ "éb".toList := by
  decide +kernel

end Dialogue.Antiprompt
