import Dialogue.Config.Failure
/-!
# Numbers of a document

The text of a JSON number is read as an integer of 64 bits where it is one, and else in double
precision: as many leading digits as fit in 64 bits are scaled by a power of ten, and the scaling
rounds. A number that is only skipped has to have the right form; its value does not matter.
-/

namespace Dialogue.Json

open Number (Magnitude Format)

/-- The value of a JSON number. -/
inductive Numeric where
  /-- A natural number below `2 ^ 64`. -/
  | natural (n : Nat)
  /-- The negative of a positive number of at most `2 ^ 63`. -/
  | negative (n : Nat)
  /-- Any other number, in double precision. -/
  | real (isNegative : Bool) (magnitude : Magnitude)
deriving DecidableEq, Repr

namespace Numeric

/-- Whether a byte is a decimal digit. -/
def isDigit (b : UInt8) : Bool := 48 ≤ b && b ≤ 57

/-- The value of a decimal digit. -/
def digit (b : UInt8) : Nat := b.toNat - 48

/-- Puts digits behind a significand as long as it stays within `limit`; gives the significand,
and how many digits it took. -/
def absorb (limit significand : Nat) : List UInt8 → Nat × Nat
  | [] => (significand, 0)
  | b :: r =>
    let next := 10 * significand + digit b
    if limit < next then (significand, 0)
    else
      let (result, count) := absorb limit next r
      (result, count + 1)

/-- The greatest significand. -/
def maxSignificand : Nat := 0xFFFFFFFFFFFFFFFF

/-- A power of ten in double precision, for exponents up to 308. -/
def powerOfTen (n : Nat) : Magnitude := (Format.double.round (Nat.pow 10 n) 1).getD ⟨0, 0⟩

/-- A product in double precision. -/
def product (x y : Magnitude) : Option Magnitude :=
  Format.double.round (x.num * y.num) (x.den * y.den)

/-- A quotient in double precision. -/
def quotient (x y : Magnitude) : Option Magnitude :=
  Format.double.round (x.num * y.den) (x.den * y.num)

/-- A value divided by `10 ^ (308 * n + rest)`, in steps of at most 308 places. -/
def scaleDown (x : Magnitude) (rest : Nat) : Nat → Option Magnitude
  | 0 => quotient x (powerOfTen rest)
  | n + 1 => if x.m = 0 then some x else do scaleDown (← quotient x (powerOfTen 308)) rest n

/-- A significand scaled by a power of ten, in double precision; fails if it is too large. A
negative exponent of more than 2000 places leaves nothing of any significand. -/
def scale? (significand : Nat) (exp : Int) : Option Magnitude := do
  let x ← Format.double.round significand 1
  if 0 ≤ exp then
    if exp ≤ 308 then product x (powerOfTen exp.toNat)
    else if x.m = 0 then some x
    else none
  else
    let places := min (-exp).toNat 2000
    let steps := (places - 1) / 308
    scaleDown x (places - 308 * steps) steps

/-- Keeps a value that is in range. -/
def inRange (isNegative : Bool) : Option Magnitude → Except DocumentError Numeric
  | some x => .ok (.real isNegative x)
  | none => .error .syntactic

/-- The value of a significand and an exponent of which the digits are given. Exponents past 32
bits make zero or are out of range. -/
def withExponent (isNegative : Bool) (significand : Nat) (start : Int) (expNegative : Bool)
    (digits : List UInt8) : Except DocumentError Numeric :=
  let (exp, count) := absorb 0x7FFFFFFF 0 digits
  if count < digits.length then
    if significand ≠ 0 ∧ !expNegative then .error .syntactic
    else .ok (.real isNegative ⟨0, 0⟩)
  else inRange isNegative (scale? significand (if expNegative then start - exp else start + exp))

/-- Reads an exponent behind its letter. -/
def readExponent (isNegative : Bool) (significand : Nat) (start : Int) (text : List UInt8) :
    Except DocumentError Numeric :=
  let (expNegative, rest) :=
    match text with
    | 43 :: r => (false, r)
    | 45 :: r => (true, r)
    | r => (false, r)
  match rest with
  | [] => .error .truncated
  | b :: _ =>
    if isDigit b then
      withExponent isNegative significand start expNegative (rest.takeWhile isDigit)
    else .error .syntactic

/-- Reads a fraction behind its point. Digits past those the significand holds are dropped. -/
def readFraction (isNegative : Bool) (significand : Nat) (start : Int) (text : List UInt8) :
    Except DocumentError Numeric :=
  match text with
  | [] => .error .truncated
  | b :: _ =>
    if !isDigit b then .error .syntactic
    else
      let (significand, count) := absorb maxSignificand significand (text.takeWhile isDigit)
      let exp := start - count
      match text.dropWhile isDigit with
      | 101 :: r => readExponent isNegative significand exp r
      | 69 :: r => readExponent isNegative significand exp r
      | _ => inRange isNegative (scale? significand exp)

/-- The value of an integer that has neither fraction nor exponent. -/
def whole (isNegative : Bool) (n : Nat) : Except DocumentError Numeric :=
  if !isNegative then .ok (.natural n)
  else if n ≠ 0 ∧ n ≤ 0x8000000000000000 then .ok (.negative n)
  else inRange true (scale? n 0)

/-- Reads a number behind its sign. -/
def readUnsigned (isNegative : Bool) (text : List UInt8) : Except DocumentError Numeric :=
  match text with
  | [] => .error .truncated
  | b :: r =>
    if !isDigit b then .error .syntactic
    else if b = 48 ∧ (r.head?.map isDigit).getD false then .error .syntactic
    else
      let digits := text.takeWhile isDigit
      let (significand, count) := absorb maxSignificand 0 digits
      let dropped : Int := (digits.length : Int) - count
      match text.dropWhile isDigit with
      | 46 :: r => readFraction isNegative significand dropped r
      | 101 :: r => readExponent isNegative significand dropped r
      | 69 :: r => readExponent isNegative significand dropped r
      | _ =>
        if dropped = 0 then whole isNegative significand
        else inRange isNegative (scale? significand dropped)

/-- Reads the number at the start of a text. -/
def read (text : List UInt8) : Except DocumentError Numeric :=
  match text with
  | 45 :: r => readUnsigned true r
  | r => readUnsigned false r

/-- The length of a run of digits; it has to have one. -/
def skipDigits (text : List UInt8) : Except DocumentError Nat :=
  let run := text.takeWhile isDigit
  if run = [] then .error .syntactic else .ok run.length

/-- The length of an exponent with its letter, or zero if there is none. -/
def skipExponent (text : List UInt8) : Except DocumentError Nat :=
  match text with
  | b :: r =>
    if b = 101 ∨ b = 69 then
      match r with
      | s :: r' =>
        if s = 43 ∨ s = 45 then (skipDigits r').map (· + 2) else (skipDigits r).map (· + 1)
      | [] => .error .syntactic
    else .ok 0
  | [] => .ok 0

/-- The length of the number behind its sign. -/
def skipUnsigned (text : List UInt8) : Except DocumentError Nat := do
  let whole ← skipDigits text
  if text.head? = some 48 ∧ 1 < whole then throw .syntactic
  match text.drop whole with
  | 46 :: r =>
    let places ← skipDigits r
    return whole + 1 + places + (← skipExponent (r.drop places))
  | r => return whole + (← skipExponent r)

/-- The length of the number at the start of a text. A text that ends within it has the wrong
form. -/
def skip (text : List UInt8) : Except DocumentError Nat :=
  match text with
  | 45 :: r => (skipUnsigned r).map (· + 1)
  | r => skipUnsigned r

/-- The nearest single-precision number. -/
def toSingle : Numeric → Number.Single
  | natural n => .ofQuotient false n 1
  | negative n => .ofQuotient true n 1
  | real isNegative x => .ofQuotient isNegative x.num x.den

end Numeric

end Dialogue.Json
