import Dialogue.Text.Escape
import Mathlib.Data.List.Basic
/-!
# Text written with escapes

Every character can be written in several ways, and some escapes stand for themselves. Whatever such
pieces are put behind one another, each of them is read alone: the text is what its pieces stand
for, one after the other.
-/

namespace Dialogue.Text.Escape

variable {c letter : Char} {code : Nat} {r : List Char}

/-! ### Pieces -/

/-- The letters that name a character behind a backslash, each with that character. -/
def names : List (Char × Char) :=
  [('n', '\n'), ('r', '\r'), ('t', '\t'), ('\'', '\''), ('"', '"'), ('\\', '\\')]

/-- The digit of base 16 for a value, of either case. -/
def digit (upper : Bool) (n : Nat) : Char :=
  if upper then (Nat.digitChar n).toUpper else Nat.digitChar n

/-- The escape of a code by its two digits, each of either case. -/
def byCode (upper : Bool × Bool) (code : Nat) : List Char :=
  ['\\', 'x', digit upper.1 (code / 16), digit upper.2 (code % 16)]

/-- A way to write a character. -/
inductive Spelling : Char → Type where
  /-- As it is, unless it is a backslash. -/
  | plain {c : Char} (h : c ≠ '\\') : Spelling c
  /-- By the letter that names it. -/
  | named {letter c : Char} (h : (letter, c) ∈ names) : Spelling c
  /-- By its code, if that is below 128. -/
  | coded {c : Char} (upper : Bool × Bool) (h : c.toNat < 128) : Spelling c

/-- The characters that are written for one. -/
def Spelling.written : Spelling c → List Char
  | @plain c _ => [c]
  | @named letter _ _ => ['\\', letter]
  | @coded c upper _ => byCode upper c.toNat

/-- An escape that stands for itself. -/
inductive Kept where
  /-- A backslash and a character that names none. -/
  | unknown (c : Char) (hx : c ≠ 'x') (h : ∀ entry ∈ names, entry.1 ≠ c)
  /-- A code of two digits that is 128 or more. -/
  | wide (upper : Bool × Bool) (code : Nat) (hle : 128 ≤ code) (hlt : code < 256)

/-- The characters of an escape that stands for itself. -/
def Kept.written : Kept → List Char
  | unknown c _ _ => ['\\', c]
  | wide upper code _ _ => byCode upper code

/-- A piece of a text with escapes. -/
inductive Piece where
  /-- A character, in some way. -/
  | spelled (c : Char) (spelling : Spelling c)
  /-- An escape that stands for itself. -/
  | kept (escape : Kept)

namespace Piece

/-- The characters that a piece is written with. -/
def written : Piece → List Char
  | spelled _ spelling => spelling.written
  | kept escape => escape.written

/-- The characters that a piece stands for. -/
def meaning : Piece → List Char
  | spelled c _ => [c]
  | kept escape => escape.written

end Piece

/-! ### Reading one piece -/

private theorem named?_eq_some_iff : named? letter = some c ↔ (letter, c) ∈ names := by
  unfold named?
  split <;> simp_all [names, eq_comm]

private theorem hexDigit?_digit (upper : Bool) {n : Nat} (h : n < 16) :
    hexDigit? (digit upper n) = some n := by
  revert upper n
  decide

private theorem digit_ne_backslash (upper : Bool) {n : Nat} (h : n < 16) :
    digit upper n ≠ '\\' := by
  revert upper n
  decide

/-- Two digits stand for the character of their code if that is below 128. -/
theorem hexChar?_digits (upper : Bool × Bool) (h : code < 256) :
    hexChar? (digit upper.1 (code / 16)) (digit upper.2 (code % 16)) =
      if code < 128 then some (Char.ofNat code) else none := by
  have hhigh : code / 16 < 16 := by omega
  have hlow : code % 16 < 16 := Nat.mod_lt _ (by decide)
  have hcode : 16 * (code / 16) + code % 16 = code := Nat.div_add_mod code 16
  have hlt : code / 16 < 8 ↔ code < 128 := by omega
  simp only [hexChar?, hexDigit?_digit _ hhigh, hexDigit?_digit _ hlow, hcode, hlt,
    Option.bind_eq_bind, Option.bind_some]

private theorem decode_plain (h : c ≠ '\\') (r : List Char) : decode (c :: r) = c :: decode r := by
  rw [decode]
  all_goals simp_all

/-- Behind `\x` two characters are looked at. -/
theorem decode_digits (a b : Char) (r : List Char) :
    decode ('\\' :: 'x' :: a :: b :: r) =
      match hexChar? a b with
      | some c => c :: decode r
      | none => '\\' :: 'x' :: decode (a :: b :: r) :=
  rfl

private theorem decode_named (h : named? letter = some c) (r : List Char) :
    decode ('\\' :: letter :: r) = c :: decode r := by
  rw [decode, h]
  rintro a b r' rfl
  cases h

private theorem decode_unknown (hx : c ≠ 'x') (h : named? c = none) (r : List Char) :
    decode ('\\' :: c :: r) = '\\' :: c :: decode r := by
  rw [decode, h]
  exact fun a b r' hc => absurd hc hx

private theorem decode_coded {a b : Char} (h : hexChar? a b = some c) (r : List Char) :
    decode ('\\' :: 'x' :: a :: b :: r) = c :: decode r := by
  rw [decode_digits, h]

private theorem decode_wide {a b : Char} (h : hexChar? a b = none) (r : List Char) :
    decode ('\\' :: 'x' :: a :: b :: r) = '\\' :: 'x' :: decode (a :: b :: r) := by
  rw [decode_digits, h]

/-- However it is written, a character is read back, and what follows is read alone. -/
theorem decode_spelling (spelling : Spelling c) (r : List Char) :
    decode (spelling.written ++ r) = c :: decode r := by
  cases spelling with
  | plain h => exact decode_plain h r
  | named h => exact decode_named (named?_eq_some_iff.mpr h) r
  | coded upper h =>
    refine decode_coded ?_ r
    rw [hexChar?_digits upper (by omega), if_pos h, Char.ofNat_toNat]

/-- An escape that stands for itself is kept, and what follows is read alone. -/
theorem decode_kept (escape : Kept) (r : List Char) :
    decode (escape.written ++ r) = escape.written ++ decode r := by
  cases escape with
  | unknown c hx h =>
    refine decode_unknown hx (Option.eq_none_iff_forall_ne_some.mpr fun d hd => ?_) r
    exact h _ (named?_eq_some_iff.mp hd) rfl
  | wide upper code hle hlt =>
    have hrefused : hexChar? (digit upper.1 (code / 16)) (digit upper.2 (code % 16)) = none := by
      rw [hexChar?_digits upper hlt, if_neg (by omega)]
    -- The digits that were looked at are read again, as plain characters.
    have hhigh : digit upper.1 (code / 16) ≠ '\\' := digit_ne_backslash _ (by omega)
    have hlow : digit upper.2 (code % 16) ≠ '\\' := digit_ne_backslash _ (by omega)
    change decode ('\\' :: 'x' :: digit upper.1 (code / 16) :: digit upper.2 (code % 16) :: r) = _
    rw [decode_wide hrefused, decode_plain hhigh, decode_plain hlow]
    rfl

private theorem decode_piece (p : Piece) (r : List Char) :
    decode (p.written ++ r) = p.meaning ++ decode r := by
  cases p with
  | spelled c spelling => exact decode_spelling spelling r
  | kept escape => exact decode_kept escape r

/-! ### Reading pieces in a row -/

/-- Pieces in a row are read one by one, and so is what follows. -/
theorem decode_pieces (ps : List Piece) (r : List Char) :
    decode (ps.flatMap Piece.written ++ r) = ps.flatMap Piece.meaning ++ decode r := by
  induction ps with
  | nil => rfl
  | cons p ps ih =>
    rw [List.flatMap_cons, List.flatMap_cons, List.append_assoc, decode_piece, ih,
      List.append_assoc]

/-- The characters of a text as pieces, each written as it is chosen for its place. -/
def spelledFrom (spell : Nat → ∀ c, Spelling c) : List Char → List Piece
  | [] => []
  | c :: r => .spelled c (spell 0 c) :: spelledFrom (fun i => spell (i + 1)) r

private theorem meaning_spelledFrom (spell : Nat → ∀ c, Spelling c) (text : List Char) :
    (spelledFrom spell text).flatMap Piece.meaning = text := by
  induction text generalizing spell with
  | nil => rfl
  | cons c r ih =>
    rw [spelledFrom, List.flatMap_cons, ih]
    rfl

private theorem process_pieces (ps : List Piece) :
    process (String.ofList (ps.flatMap Piece.written)) =
      String.ofList (ps.flatMap Piece.meaning) := by
  rw [process, String.toList_ofList]
  have hread := decode_pieces ps []
  rw [List.append_nil] at hread
  rw [hread]
  exact congrArg String.ofList (List.append_nil _)

/-- A text is read back, in whatever way each of its characters is written. Escapes that stand for
themselves can be put anywhere between the characters, and are kept; and a piece is read alone,
whatever follows. -/
theorem written_text_read_back :
    (∀ (s : String) (spell : Nat → ∀ c, Spelling c),
      process (String.ofList ((spelledFrom spell s.toList).flatMap Piece.written)) = s) ∧
    (∀ ps : List Piece, process (String.ofList (ps.flatMap Piece.written)) =
      String.ofList (ps.flatMap Piece.meaning)) ∧
    ∀ (p : Piece) (rest : List Char), decode (p.written ++ rest) = p.meaning ++ decode rest := by
  refine ⟨fun s spell => ?_, process_pieces, decode_piece⟩
  rw [process_pieces, meaning_spelledFrom, String.ofList_toList]

/-- A code that is refused does not change how its digits and what follows are read. -/
example : process "\\xf\\x6e\\xFFé\\n" = "\\xfn\\xFFé\n" := by decide +kernel

end Dialogue.Text.Escape
