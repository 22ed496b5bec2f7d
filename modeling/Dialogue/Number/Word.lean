/-!
# Signed words

Positions and budgets are signed 32-bit numbers, and so is a count that is compared with them. Its
lower 32 bits are taken, so a count from `2 ^ 31` on comes out as another number.
-/

namespace Dialogue.Number

/-- The signed number of the lower 32 bits of a count. -/
def signedWord (n : Nat) : Int := Int.bmod n 0x100000000

/-- A count that fits comes out as itself. -/
theorem signedWord_of_lt {n : Nat} (h : n < 0x80000000) : signedWord n = n :=
  Int.bmod_eq_of_le (by omega) (by omega)

/-- The signed number of a count lies below half of the words. -/
theorem signedWord_lt (n : Nat) : signedWord n < 0x80000000 := by
  unfold signedWord
  rw [Int.bmod_def]
  split <;> omega

/-- The signed number of a count is never more than the count. -/
theorem signedWord_le (n : Nat) : signedWord n ≤ n := by
  unfold signedWord
  rw [Int.bmod_def]
  split <;> omega

end Dialogue.Number
