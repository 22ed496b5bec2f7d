import Dialogue.Number.Single
/-!
# Shortest decimals

The text of a single-precision number has the fewest digits that read back to it, and of those the
nearest to it; it is positional throughout. A decimal reads back when it lies between the halfway
points to the two neighbours, ends included if the significand is even.
-/

namespace Dialogue.Number

/-- A non-negative value `digits * 10 ^ exp`. -/
structure Decimal where
  /-- The digits, as a number. -/
  digits : Nat
  /-- The exponent. -/
  exp : Int
deriving DecidableEq, Repr

namespace Decimal

/-- Compares a decimal with a value of a binary format, exactly. -/
def compareMagnitude (d : Decimal) (x : Magnitude) : Ordering :=
  compare (d.digits * Nat.pow 10 d.exp.toNat * Nat.pow 2 (-x.q).toNat)
    (x.m * Nat.pow 2 x.q.toNat * Nat.pow 10 (-d.exp).toNat)

/-- Whether a decimal rounds to a positive value of the 32-bit format. -/
def readsBack (x : Magnitude) (d : Decimal) : Bool :=
  let narrow := x.m = 0x800000 ∧ -149 < x.q
  let low := compareMagnitude d ⟨if narrow then 4 * x.m - 1 else 4 * x.m - 2, x.q - 2⟩
  let high := compareMagnitude d ⟨4 * x.m + 2, x.q - 2⟩
  (low == .gt || (x.m % 2 == 0 && low == .eq)) && (high == .lt || (x.m % 2 == 0 && high == .eq))

/-- The greatest decimal with the given exponent that does not exceed a value. -/
def below (x : Magnitude) (exp : Int) : Decimal :=
  ⟨x.num * Nat.pow 10 (-exp).toNat / (x.den * Nat.pow 10 exp.toNat), exp⟩

/-- The number of digits of the whole part of a value, and for a value below one the number of
zeros after the point, negated. -/
def scale (x : Magnitude) : Int :=
  let whole := x.num / x.den
  if whole ≠ 0 then (Nat.toDigits 10 whole).length
  else -((List.range 60).takeWhile fun n => x.num * Nat.pow 10 (n + 1) < x.den).length

/-- The decimal that reads back on the grid of an exponent, if there is one: of the value's two
neighbours the nearer, and the upper of two that are equally near. -/
def onGrid? (x : Magnitude) (exp : Int) : Option Decimal :=
  let lower := below x exp
  let upper : Decimal := ⟨lower.digits + 1, exp⟩
  match readsBack x lower && lower.digits ≠ 0, readsBack x upper with
  | true, true =>
    if compareMagnitude ⟨lower.digits + upper.digits, exp⟩ ⟨2 * x.m, x.q⟩ == .gt
    then some lower else some upper
  | true, false => some lower
  | false, true => some upper
  | false, false => none

/-- The decimal with the fewest digits that reads back to a positive value. -/
def shortest (x : Magnitude) : Decimal :=
  ((List.range 9).findSome? fun n : Nat => onGrid? x (scale x - (n + 1 : Nat))).getD
    (below x (scale x - 9))

/-- The digits without those zeros at their end that the point stands behind. -/
def trimZeros : List Char → List Char := fun cs => (cs.reverse.dropWhile (· = '0')).reverse

/-- The positional text of a decimal. -/
def positional (d : Decimal) : String :=
  let digits := Nat.toDigits 10 d.digits
  if 0 ≤ d.exp then String.ofList (digits ++ List.replicate d.exp.toNat '0')
  else
    let places := (-d.exp).toNat
    let padded := List.replicate (places + 1 - digits.length) '0' ++ digits
    let whole := padded.take (padded.length - places)
    let fraction := trimZeros (padded.drop (padded.length - places))
    String.ofList (if fraction = [] then whole else whole ++ '.' :: fraction)

end Decimal

/-- The text of a single-precision number: shortest digits, a minus sign also before zero, and
words for the values that are not finite. -/
def Single.text (x : Single) : String :=
  if x.isNaN then "NaN"
  else
    let sign := if x.isNegative then "-" else ""
    if !x.isFinite then sign ++ "inf"
    else if x.absBits = 0 then sign ++ "0"
    else sign ++ (Decimal.shortest x.magnitude).positional

end Dialogue.Number
