/-!
# Binary floating-point formats

A finite value of a binary format is `m * 2 ^ q` with a significand of bounded width and an
exponent in a range. Quotients of naturals are rounded to the nearest such value, ties to the even
significand, in exact arithmetic.
-/

namespace Dialogue.Number

/-- A non-negative value `m * 2 ^ q`. -/
structure Magnitude where
  /-- The significand. -/
  m : Nat
  /-- The exponent. -/
  q : Int
deriving DecidableEq, Repr

namespace Magnitude

/-- The numerator over a power of two. -/
def num (x : Magnitude) : Nat := x.m * Nat.pow 2 x.q.toNat

/-- The power of two under the numerator. -/
def den (x : Magnitude) : Nat := Nat.pow 2 (-x.q).toNat

end Magnitude

/-- The width of the significand and the range of exponents of a format. -/
structure Format where
  /-- Significands are below `2 ^ precision`. -/
  precision : Nat
  /-- The least exponent, of values too small for a full significand. -/
  minExp : Int
  /-- The greatest exponent. -/
  maxExp : Int
deriving DecidableEq, Repr

/-- The 32-bit format. -/
def Format.single : Format := ⟨24, -149, 104⟩

/-- The 64-bit format. -/
def Format.double : Format := ⟨53, -1074, 971⟩

/-- The quotient rounded to the nearest natural, a tie to the even one. -/
def roundDiv (num den : Nat) : Nat :=
  let quotient := num / den
  match compare (2 * (num % den)) den with
  | .lt => quotient
  | .gt => quotient + 1
  | .eq => if quotient % 2 = 0 then quotient else quotient + 1

namespace Format

/-- The exponent of the format's values next to a quotient. -/
def exponentOf (f : Format) (num den : Nat) : Int :=
  let low := (num.log2 : Int) - den.log2 - f.precision
  let q :=
    if num * Nat.pow 2 (-low).toNat < Nat.pow 2 f.precision * (den * Nat.pow 2 low.toNat) then low
    else low + 1
  max q f.minExp

/-- The value of the format that is nearest to a quotient, or `none` if it is too large. -/
def round (f : Format) (num den : Nat) : Option Magnitude :=
  let q := f.exponentOf num den
  let m := roundDiv (num * Nat.pow 2 (-q).toNat) (den * Nat.pow 2 q.toNat)
  let rounded : Magnitude :=
    if m = Nat.pow 2 f.precision then ⟨Nat.pow 2 (f.precision - 1), q + 1⟩ else ⟨m, q⟩
  if f.maxExp < rounded.q then none else some rounded

end Format

end Dialogue.Number
