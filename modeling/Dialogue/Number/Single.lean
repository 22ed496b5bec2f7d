import Dialogue.Number.Binary
/-!
# Single-precision numbers

A 32-bit floating-point number is kept as its bits. It is read from decimal text by rounding the
exact value once, and written with the fewest digits that read back to it.
-/

namespace Dialogue.Number

/-- A 32-bit floating-point number, by its bits. -/
structure Single where
  /-- Sign, exponent and fraction, from the highest bit down. -/
  bits : UInt32
deriving DecidableEq, Repr

namespace Single

/-- The number one. -/
def one : Single := ⟨0x3F800000⟩

/-- The bits of the sign. -/
def signBit (negative : Bool) : UInt32 := if negative then 0x80000000 else 0

/-- An infinity. -/
def infinity (negative : Bool) : Single := ⟨signBit negative ||| 0x7F800000⟩

/-- The value that is no number. -/
def nan (negative : Bool) : Single := ⟨signBit negative ||| 0x7FC00000⟩

/-- Whether the sign bit is set. -/
def isNegative (x : Single) : Bool := 0x80000000 ≤ x.bits

/-- The bits without the sign. -/
def absBits (x : Single) : Nat := x.bits.toNat % 0x80000000

/-- Whether the number is neither infinite nor no number at all. -/
def isFinite (x : Single) : Bool := x.absBits < 0x7F800000

/-- Whether the value is no number. -/
def isNaN (x : Single) : Bool := 0x7F800000 < x.absBits

/-- The absolute value of a finite number. -/
def magnitude (x : Single) : Magnitude :=
  let exponent := x.absBits / 0x800000
  let fraction := x.absBits % 0x800000
  if exponent = 0 then ⟨fraction, -149⟩ else ⟨0x800000 + fraction, (exponent : Int) - 150⟩

/-- The number with a given absolute value of the 32-bit format. -/
def ofMagnitude (negative : Bool) (x : Magnitude) : Single :=
  let absBits := if x.m < 0x800000 then x.m else (x.q + 149).toNat * 0x800000 + x.m
  ⟨signBit negative ||| UInt32.ofNat absBits⟩

/-- The number nearest to a quotient; an infinity if the quotient is too large. -/
def ofQuotient (negative : Bool) (num den : Nat) : Single :=
  match Format.single.round num den with
  | some x => ofMagnitude negative x
  | none => infinity negative

/-- The number nearest to `digits * 10 ^ exp`. Exponents far out of range are settled by size. -/
def ofDecimal (negative : Bool) (digits : Nat) (exp : Int) : Single :=
  let size := ((Nat.toDigits 10 digits).length : Int) + exp
  if digits = 0 ∨ size < -46 then ⟨signBit negative⟩
  else if 40 < size then infinity negative
  else ofQuotient negative (digits * Nat.pow 10 exp.toNat) (Nat.pow 10 (-exp).toNat)

/-- Whether the value lies above one. -/
def aboveOne (x : Single) : Bool := !x.isNegative && !x.isNaN && 0x3F800000 < x.absBits

/-- Whether the value is finite and at least one. -/
def isStrength (x : Single) : Bool := x.isFinite && !x.isNegative && 0x3F800000 ≤ x.absBits

end Single

end Dialogue.Number
