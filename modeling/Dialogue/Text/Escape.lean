/-!
# Escape sequences in typed text

A backslash names a character: the letters `n`, `r`, `t`, the quotes and the backslash itself, or
`x` and two hexadecimal digits for a code below 128. Anything else after a backslash is kept as it
was typed.
-/

namespace Dialogue.Text.Escape

/-- The character a letter names after a backslash. -/
def named? : Char → Option Char
  | 'n' => some '\n'
  | 'r' => some '\r'
  | 't' => some '\t'
  | '\'' => some '\''
  | '"' => some '"'
  | '\\' => some '\\'
  | _ => none

/-- The value of a hexadecimal digit of either case. -/
def hexDigit? (c : Char) : Option Nat :=
  if '0' ≤ c ∧ c ≤ '9' then some (c.toNat - '0'.toNat)
  else if 'a' ≤ c ∧ c ≤ 'f' then some (c.toNat - 'a'.toNat + 10)
  else if 'A' ≤ c ∧ c ≤ 'F' then some (c.toNat - 'A'.toNat + 10)
  else none

/-- The character with the given two hexadecimal digits, if its code is below 128. -/
def hexChar? (a b : Char) : Option Char := do
  let high ← hexDigit? a
  let low ← hexDigit? b
  if high < 8 then some (Char.ofNat (16 * high + low)) else none

/-- Replaces each escape by the character it names. -/
def decode : List Char → List Char
  | [] => []
  | '\\' :: 'x' :: a :: b :: r =>
    match hexChar? a b with
    | some c => c :: decode r
    | none => '\\' :: 'x' :: decode (a :: b :: r)
  | '\\' :: c :: r =>
    match named? c with
    | some d => d :: decode r
    | none => '\\' :: c :: decode r
  | c :: r => c :: decode r

/-- Replaces each escape of a text by the character it names. Follows `process_escapes`. -/
def process (s : String) : String := String.ofList (decode s.toList)

end Dialogue.Text.Escape
