import Dialogue.Number.Single
/-!
# Numerals

The numbers an option takes as its value: a run of decimal digits behind an optional sign, and for
single-precision numbers also a point, an exponent and the words for values that are not finite.
-/

namespace Dialogue.Number

/-- The value of a run of decimal digits behind those that gave `acc`. -/
def digitsFrom? (acc : Nat) : List Char → Option Nat
  | [] => some acc
  | c :: r => if c.isDigit then digitsFrom? (10 * acc + (c.toNat - '0'.toNat)) r else none

/-- The value of a non-empty run of decimal digits. -/
def digits? (s : List Char) : Option Nat := if s.isEmpty then none else digitsFrom? 0 s

/-- A natural number, with an optional plus sign. -/
def natural? : List Char → Option Nat
  | '+' :: r => digits? r
  | r => digits? r

/-- An integer, with an optional sign. -/
def integer? : List Char → Option Int
  | '-' :: r => (digits? r).map fun n => -(n : Int)
  | r => (natural? r).map Int.ofNat

/-- The digits at the start, as a number, their count, and the rest. -/
def leadingDigits (s : List Char) : Nat × Nat × List Char :=
  let run := s.takeWhile Char.isDigit
  ((digitsFrom? 0 run).getD 0, run.length, s.dropWhile Char.isDigit)

/-- An exponent behind its letter, or none at all. -/
def exponent? : List Char → Option Int
  | [] => some 0
  | 'e' :: r => integer? r
  | 'E' :: r => integer? r
  | _ => none

/-- A decimal number without a sign. It has a digit before or behind the point. -/
def decimal? (negative : Bool) (s : List Char) : Option Single :=
  let (whole, wholeCount, r) := leadingDigits s
  match r with
  | '.' :: r =>
    let (fraction, places, r) := leadingDigits r
    if wholeCount + places = 0 then none
    else
      (exponent? r).map fun e =>
        .ofDecimal negative (whole * Nat.pow 10 places + fraction) (e - places)
  | r => if wholeCount = 0 then none else (exponent? r).map (.ofDecimal negative whole)

/-- A single-precision number without a sign. Words are read in either case. -/
def unsignedSingle? (negative : Bool) (s : List Char) : Option Single :=
  let word := String.ofList (s.map Char.toLower)
  if word = "inf" ∨ word = "infinity" then some (.infinity negative)
  else if word = "nan" then some (.nan negative)
  else decimal? negative s

/-- A single-precision number, with an optional sign. -/
def single? : List Char → Option Single
  | '-' :: r => unsignedSingle? true r
  | '+' :: r => unsignedSingle? false r
  | r => unsignedSingle? false r

/-- Whether the text behind a minus sign makes it look like a number: digits, at most one point
that is not in front, and at most one `e` of either case that is neither in front nor last, with
no point behind it. The empty text does. -/
def looksNumeric (s : List Char) : Bool := go true false s
where
  /-- Reads on, knowing whether this is the front and whether a point may still come. -/
  go (front pointSeen : Bool) : List Char → Bool
    | [] => true
    | '.' :: r => !front && !pointSeen && go false true r
    | c :: r =>
      if c = 'e' ∨ c = 'E' then !front && !r.isEmpty && r.all Char.isDigit
      else c.isDigit && go false pointSeen r

end Dialogue.Number
