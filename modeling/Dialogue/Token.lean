/-!
# Tokens and streams

A token is a signed 32-bit number of the engine's vocabulary. Besides the two control tokens the
vocabulary has one token per character; every other number stands for itself, in angle brackets.
-/

namespace Dialogue

/-- A token number of the engine's vocabulary. -/
abbrev Token := Int32

namespace Token

/-- The token that opens a sequence. It has no text. Follows `Backend.bos_token`. -/
def bos : Token := 999

/-- The token that ends a generation. It has no text. -/
def eos : Token := 1000

/-- Characters take the token numbers from here on, by code point. -/
def charBase : Nat := 65536

/-- The token of a character. Follows `char_token`. -/
def ofChar (c : Char) : Token := Int32.ofNat (charBase + c.toNat)

/-- One token per character. Follows `text_tokens`. -/
def ofText (s : String) : List Token := s.toList.map ofChar

/-- The text a token stands for: its character, nothing for the control tokens and for numbers past
the last character, and the bracketed number for all others. Follows `Backend.token_to_text`. -/
def text (t : Token) : String :=
  if (charBase : Int) ≤ t.toInt then
    let code := t.toInt.toNat - charBase
    if code.isValidChar then String.singleton (Char.ofNat code) else ""
  else if t = bos ∨ t = eos then ""
  else "<" ++ toString t.toInt ++ ">"

/-- The text of a list of tokens, in order. Follows `render_recent`. -/
def render (ts : List Token) : String := String.join (ts.map text)

/-- The token of a character stands for it. -/
theorem text_ofChar (c : Char) : text (ofChar c) = String.singleton c := by
  have hvalid : c.toNat.isValidChar := c.valid
  have hlt : charBase + c.toNat < 2 ^ 31 := by
    unfold charBase
    rcases hvalid with h | h <;> omega
  have hcode : (ofChar c).toInt.toNat - charBase = c.toNat := by
    rw [ofChar, Int32.toInt_ofNat_of_lt hlt]
    omega
  have hle : (charBase : Int) ≤ (ofChar c).toInt := by
    rw [ofChar, Int32.toInt_ofNat_of_lt hlt]
    omega
  simp only [text, if_pos hle, hcode, if_pos hvalid, Char.ofNat_toNat]

/-- The texts of two lists of tokens follow each other. -/
theorem render_append (a b : List Token) : render (a ++ b) = render a ++ render b := by
  rw [render, List.map_append, String.join_append]
  rfl

/-- The tokens of a text stand for it. -/
theorem render_ofText (s : String) : render (ofText s) = s := by
  apply String.toList_inj.mp
  rw [render, ofText, List.map_map, String.toList_join, List.flatMap_map]
  simp [text_ofChar]

end Token

/-- The two contexts an engine decodes into. Follows `StreamKind`. -/
inductive Stream where
  /-- The dialogue itself. -/
  | main
  /-- The negative prompt that steers sampling away from it. -/
  | guidance
deriving DecidableEq, Repr

/-- The name used in messages. -/
def Stream.name : Stream → String
  | .main => "Main"
  | .guidance => "Guidance"

end Dialogue
