import Dialogue.Json.Number
import Dialogue.Text.Line
/-!
# Lexemes of a document

A JSON text is cut into lexemes. A string or a number has two readings, one that takes its value
and one that only skips it; the second accepts more. A lexeme that cannot even be skipped is the
last one, since where the next would begin is not known.
-/

namespace Dialogue.Json

/-- A lexeme of a JSON text. -/
inductive Lexeme where
  | openObject | closeObject | openList | closeList | comma | colon | null | true | false
  /-- A string, with the outcomes of reading and of skipping it. -/
  | string (value : Except DocumentError String) (skipped : Except DocumentError Unit)
  /-- A number, with the outcomes of reading and of skipping it. -/
  | number (value : Except DocumentError Numeric) (skipped : Except DocumentError Unit)
  /-- A word that is cut short or misspelt. -/
  | word (error : DocumentError)
  /-- A byte that begins no lexeme. -/
  | stray

namespace Lexeme

/-- The value of a hexadecimal digit of either case. -/
def hexDigit? (b : UInt8) : Option Nat :=
  if 48 ≤ b ∧ b ≤ 57 then some (b.toNat - 48)
  else if 97 ≤ b ∧ b ≤ 102 then some (b.toNat - 87)
  else if 65 ≤ b ∧ b ≤ 70 then some (b.toNat - 55)
  else none

/-- The value of four hexadecimal digits. -/
def hexWord? (a b c d : UInt8) : Option Nat := do
  return 4096 * (← hexDigit? a) + 256 * (← hexDigit? b) + 16 * (← hexDigit? c) + (← hexDigit? d)

/-- The byte that a letter names behind a backslash. -/
def escaped? (b : UInt8) : Option UInt8 :=
  match b with
  | 34 => some 34
  | 92 => some 92
  | 47 => some 47
  | 98 => some 8
  | 102 => some 12
  | 110 => some 10
  | 114 => some 13
  | 116 => some 9
  | _ => none

/-- The length of a string behind its opening quote, the closing quote included. -/
def skipString (text : List UInt8) : Except DocumentError Nat :=
  match text with
  | [] => .error .truncated
  | 34 :: _ => .ok 1
  | 92 :: 117 :: a :: b :: c :: d :: r =>
    if (hexWord? a b c d).isSome then (skipString r).map (· + 6) else .error .syntactic
  | 92 :: 117 :: _ => .error .truncated
  | 92 :: b :: r => if (escaped? b).isSome then (skipString r).map (· + 2) else .error .syntactic
  | [92] => .error .truncated
  | b :: r => if b < 32 then .error .syntactic else (skipString r).map (· + 1)

/-- The bytes of a character. -/
def utf8Char (code : Nat) : List UInt8 := Text.utf8 (String.singleton (Char.ofNat code))

/-- The bytes of a string behind its opening quote. A pair of surrogates makes one character, and
neither may stand alone. -/
def readString (text : List UInt8) : Except DocumentError (List UInt8) :=
  match text with
  | [] => .error .truncated
  | 34 :: _ => .ok []
  | 92 :: 117 :: a :: b :: c :: d :: r =>
    match hexWord? a b c d with
    | none => .error .syntactic
    | some code =>
      if 0xDC00 ≤ code ∧ code ≤ 0xDFFF then .error .syntactic
      else if code < 0xD800 ∨ 0xDBFF < code then (readString r).map (utf8Char code ++ ·)
      else
        match r with
        | [] => .error .truncated
        | [92] => .error .truncated
        | 92 :: 117 :: e :: f :: g :: h :: r' =>
          match hexWord? e f g h with
          | none => .error .syntactic
          | some low =>
            if 0xDC00 ≤ low ∧ low ≤ 0xDFFF then
              (readString r').map
                (utf8Char (0x10000 + 0x400 * (code - 0xD800) + (low - 0xDC00)) ++ ·)
            else .error .syntactic
        | 92 :: 117 :: _ => .error .truncated
        | _ => .error .syntactic
  | 92 :: 117 :: _ => .error .truncated
  | 92 :: b :: r =>
    match escaped? b with
    | some byte => (readString r).map (byte :: ·)
    | none => .error .syntactic
  | [92] => .error .truncated
  | b :: r => if b < 32 then .error .syntactic else (readString r).map (b :: ·)
termination_by text.length

/-- The string behind an opening quote. -/
def stringOf (text : List UInt8) : Except DocumentError String := do
  let bytes ← readString text
  match Text.ofUtf8? bytes with
  | some s => return s
  | none => throw .syntactic

/-- The word `whole`, whose first letter was met, or why it is not there. -/
def wordOf (whole : Lexeme) : (expected text : List UInt8) → Lexeme
  | [], _ => whole
  | _ :: _, [] => .word .truncated
  | e :: es, b :: r => if e = b then wordOf whole es r else .word .syntactic

/-- The lexeme that a byte begins, and how many of the following bytes belong to it; the count is
missing if the lexeme cannot be skipped. -/
def start (b : UInt8) (rest : List UInt8) : Lexeme × Option Nat :=
  if b = 123 then (.openObject, some 0)
  else if b = 125 then (.closeObject, some 0)
  else if b = 91 then (.openList, some 0)
  else if b = 93 then (.closeList, some 0)
  else if b = 44 then (.comma, some 0)
  else if b = 58 then (.colon, some 0)
  else if b = 110 then (wordOf .null [117, 108, 108] rest, some 3)
  else if b = 116 then (wordOf .true [114, 117, 101] rest, some 3)
  else if b = 102 then (wordOf .false [97, 108, 115, 101] rest, some 4)
  else if b = 34 then
    let skipped := skipString rest
    (.string (stringOf rest) (skipped.map fun _ => ()), skipped.toOption)
  else if b = 45 ∨ Numeric.isDigit b then
    let skipped := Numeric.skip (b :: rest)
    (.number (Numeric.read (b :: rest)) (skipped.map fun _ => ()), skipped.toOption.map (· - 1))
  else (.stray, some 0)

/-- Whether a byte may stand between lexemes. -/
def isBlank (b : UInt8) : Bool := b = 32 || b = 9 || b = 10 || b = 13

/-- The lexemes of a text of which the first `covered` bytes belong to the lexeme before. -/
def scan (covered : Nat) : List UInt8 → List Lexeme
  | [] => []
  | b :: r =>
    match covered with
    | n + 1 => scan n r
    | 0 =>
      if isBlank b then scan 0 r
      else
        match start b r with
        | (lexeme, some n) => lexeme :: scan n r
        | (lexeme, none) => [lexeme]

/-- The lexemes of a text. -/
def ofText (text : List UInt8) : List Lexeme := scan 0 text

end Lexeme

end Dialogue.Json
