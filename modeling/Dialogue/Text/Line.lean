/-!
# Typed lines and turns

The user's input is a byte stream cut at line feeds. A line that ends in `/` submits what was
collected without a line break, one that ends in a backslash flips whether collection goes on, and
a turn is the text of the lines up to the first after which collection does not go on.
-/

namespace Dialogue.Text

/-- The lines of a byte stream, each with its line feed; only the last may lack one. -/
def rawLines : List UInt8 → List (List UInt8)
  | [] => []
  | b :: r =>
    if b = 10 then [b] :: rawLines r
    else
      match rawLines r with
      | [] => [[b]]
      | line :: lines => (b :: line) :: lines

/-- The text of some bytes, if they are valid UTF-8. -/
def ofUtf8? (bytes : List UInt8) : Option String := String.fromUTF8? ⟨bytes.toArray⟩

/-- The bytes of a text. -/
def utf8 (s : String) : List UInt8 := s.toUTF8.data.toList

/-- The number of bytes of a text. -/
def byteLength : List Char → Nat
  | [] => 0
  | c :: r => c.utf8Size + byteLength r

namespace Line

/-- A line without its line end: a line feed, or a carriage return and a line feed.
Part of `read_line`. -/
def stripEnd (line : List Char) : List Char :=
  match line.reverse with
  | '\n' :: '\r' :: r => r.reverse
  | '\n' :: r => r.reverse
  | _ => line

/-- The text a line adds to the turn, and whether collection goes on after it.
Follows `read_line`. -/
def read (multiline : Bool) (line : List Char) : List Char × Bool :=
  match (stripEnd line).reverse with
  | [] => (['\n'], multiline)
  | '/' :: r => (r.reverse, false)
  | '\\' :: r => (r.reverse ++ ['\n'], !multiline)
  | r => (r.reverse ++ ['\n'], multiline)

end Line

/-- The text and continuation of each line of a byte stream. A line that is not valid text is
`none` and ends the list. -/
def lines (multiline : Bool) (input : List UInt8) : List (Option (String × Bool)) :=
  go (rawLines input)
where
  /-- Reads the lines in order. -/
  go : List (List UInt8) → List (Option (String × Bool))
    | [] => []
    | line :: rest =>
      match ofUtf8? line with
      | none => [none]
      | some text =>
        let (added, more) := Line.read multiline text.toList
        some (String.ofList added, more) :: go rest

/-- The turns of a byte stream. A line that is not valid text makes `none` of its turn, and ends the
list. Follows `read_user_input`. -/
def turns (multiline : Bool) (input : List UInt8) : List (Option String) :=
  go none (lines multiline input)
where
  /-- Collects lines after those in `collected`, which is `none` before the first of a turn. -/
  go (collected : Option String) : List (Option (String × Bool)) → List (Option String)
    | [] => collected.toList.map some
    | none :: _ => [none]
    | some (text, more) :: rest =>
      let turn := collected.getD "" ++ text
      if more then go (some turn) rest else some turn :: go none rest

/-! ### Texts as bytes -/

/-- The size of a string is that of its characters. -/
theorem utf8ByteSize_ofList (l : List Char) : (String.ofList l).utf8ByteSize = byteLength l := by
  induction l with
  | nil => rfl
  | cons c r ih =>
    rw [String.ofList_cons, String.utf8ByteSize_append, String.utf8ByteSize_singleton, ih,
      byteLength]

/-- Characters take bytes. -/
theorem byteLength_pos {l : List Char} (h : l ≠ []) : 0 < byteLength l := by
  obtain ⟨c, r, rfl⟩ := List.exists_cons_of_ne_nil h
  rw [byteLength]
  exact Nat.add_pos_left c.utf8Size_pos _

/-- The bytes of two strings follow each other. -/
theorem utf8_append (a b : String) : utf8 (a ++ b) = utf8 a ++ utf8 b := by simp [utf8]

/-- The bytes of a string are those of its characters. -/
theorem utf8_ofList (l : List Char) : utf8 (String.ofList l) = l.flatMap String.utf8EncodeChar := by
  simp [utf8, List.utf8Encode]

/-- A text is read back from its bytes. -/
theorem ofUtf8?_utf8 (s : String) : ofUtf8? (utf8 s) = some s := by
  have hbytes : (⟨(utf8 s).toArray⟩ : ByteArray) = s.toByteArray := by simp [utf8]
  rw [ofUtf8?, hbytes, String.fromUTF8?, dif_pos s.isValidUTF8]
  rfl

/-- Only a line feed has the byte of a line feed. -/
theorem mem_utf8EncodeChar {c : Char} : 10 ∈ String.utf8EncodeChar c ↔ c = '\n' := by
  have hc : c = '\n' ↔ c.val.toNat = 10 := Char.toNat_inj.symm
  have hbyte {n : Nat} (h : n < 256) : (10 : UInt8) = UInt8.ofNat n ↔ n = 10 := by
    rw [← UInt8.toNat_inj, UInt8.toNat_ofNat_of_lt' h]
    exact eq_comm
  rw [hc, String.utf8EncodeChar]
  generalize c.val.toNat = v
  -- All bytes of a character that has several are 128 or more.
  split
  · rw [List.mem_singleton, hbyte (by omega)]
  · split
    · simp only [List.mem_cons, List.not_mem_nil, or_false]
      rw [hbyte (by omega), hbyte (by omega)]
      omega
    · split
      · simp only [List.mem_cons, List.not_mem_nil, or_false]
        rw [hbyte (by omega), hbyte (by omega), hbyte (by omega)]
        omega
      · simp only [List.mem_cons, List.not_mem_nil, or_false]
        rw [hbyte (by omega), hbyte (by omega), hbyte (by omega), hbyte (by omega)]
        omega

/-- A text without line feeds has no byte of one. -/
theorem not_mem_utf8 {l : List Char} (h : '\n' ∉ l) : 10 ∉ utf8 (String.ofList l) := by
  rw [utf8_ofList, List.mem_flatMap]
  rintro ⟨c, hc, hbyte⟩
  rw [mem_utf8EncodeChar] at hbyte
  exact h (hbyte ▸ hc)

/-! ### Lines of bytes -/

/-- A line that ends is read, and the rest after it. -/
theorem rawLines_append {line : List UInt8} (h : 10 ∉ line) (rest : List UInt8) :
    rawLines (line ++ 10 :: rest) = (line ++ [10]) :: rawLines rest := by
  induction line with
  | nil => rw [List.nil_append, rawLines, if_pos rfl, List.nil_append]
  | cons b line ih =>
    have hb : b ≠ 10 := Ne.symm (List.ne_of_not_mem_cons h)
    rw [List.cons_append, rawLines, if_neg hb, ih (List.not_mem_of_not_mem_cons h)]
    rfl

/-- A line that does not end is read to the end. -/
theorem rawLines_unended {line : List UInt8} (h : 10 ∉ line) (hne : line ≠ []) :
    rawLines line = [line] := by
  induction line with
  | nil => exact absurd rfl hne
  | cons b line ih =>
    have hb : b ≠ 10 := Ne.symm (List.ne_of_not_mem_cons h)
    rw [rawLines, if_neg hb]
    cases line with
    | nil => rfl
    | cons b' line => rw [ih (List.not_mem_of_not_mem_cons h) (List.cons_ne_nil _ _)]

end Dialogue.Text
