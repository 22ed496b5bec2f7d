/-!
# Little-endian words

Natural numbers, token numbers and positions as a fixed number of bytes, least significant first.
Reading inverts writing, modulo the width.
-/

namespace Dialogue.Bytes

/-- The `k` low bytes of a number, least significant first. -/
def ofNat : Nat → Nat → List UInt8
  | 0, _ => []
  | k + 1, n => UInt8.ofNat n :: ofNat k (n / 256)

/-- The number that some bytes stand for, least significant first. -/
def toNat : List UInt8 → Nat
  | [] => 0
  | b :: r => b.toNat + 256 * toNat r

/-- A number is written in as many bytes as there is room for. -/
@[simp] theorem length_ofNat (k n : Nat) : (ofNat k n).length = k := by
  induction k generalizing n with
  | zero => rfl
  | succ k ih => simp [ofNat, ih]

private theorem pow256_succ (k : Nat) : Nat.pow 256 (k + 1) = 256 * Nat.pow 256 k :=
  Nat.mul_comm _ _

/-- A number is read back from its bytes, but for what did not fit. -/
theorem toNat_ofNat (k n : Nat) : toNat (ofNat k n) = n % Nat.pow 256 k := by
  induction k generalizing n with
  | zero => simp [ofNat, toNat, Nat.mod_one]
  | succ k ih =>
    simp only [ofNat, toNat, ih, UInt8.toNat_ofNat']
    rw [pow256_succ, Nat.mod_mul]

/-- Bytes are written again as they were read. -/
theorem ofNat_toNat (bytes : List UInt8) : ofNat bytes.length (toNat bytes) = bytes := by
  induction bytes with
  | nil => rfl
  | cons b r ih =>
    have hb : b.toNat < 256 := b.toNat_lt
    have hdiv : (b.toNat + 256 * toNat r) / 256 = toNat r := by omega
    have hlow : UInt8.ofNat (b.toNat + 256 * toNat r) = b := by
      apply UInt8.toNat_inj.mp
      simp only [UInt8.toNat_ofNat']
      omega
    simp only [List.length_cons, ofNat, toNat, hdiv, hlow, ih]

/-- A number read from bytes would have fitted into them. -/
theorem toNat_lt (bytes : List UInt8) : toNat bytes < Nat.pow 256 bytes.length := by
  induction bytes with
  | nil => simp [toNat]
  | cons b r ih =>
    have hb : b.toNat < 256 := b.toNat_lt
    simp only [toNat, List.length_cons, pow256_succ]
    omega

/-- A signed number in `k` bytes, in two's complement. -/
def ofInt (k : Nat) (n : Int) : List UInt8 := ofNat k (n % (Nat.pow 256 k : Nat)).toNat

/-- The signed number that some bytes stand for, in two's complement. -/
def toInt (bytes : List UInt8) : Int := Int.bmod (toNat bytes) (Nat.pow 256 bytes.length)

/-- An integer is written in as many bytes as there is room for. -/
@[simp] theorem length_ofInt (k : Nat) (n : Int) : (ofInt k n).length = k := length_ofNat k _

/-- The first `n` bytes and the rest, if there are so many. Follows `Reader.take`. -/
def take? : Nat → List UInt8 → Option (List UInt8 × List UInt8)
  | 0, bytes => some ([], bytes)
  | _ + 1, [] => none
  | n + 1, b :: r => (take? n r).map fun (taken, rest) => (b :: taken, rest)

/-- As many bytes as stand in front are taken off. -/
theorem take?_append (a b : List UInt8) : take? a.length (a ++ b) = some (a, b) := by
  induction a with
  | nil => cases b <;> rfl
  | cons x a ih => simp [take?, ih]

/-- What is taken off stood in front, and there was enough. -/
theorem eq_append_of_take?_eq_some {n : Nat} {bytes a b : List UInt8}
    (h : take? n bytes = some (a, b)) : bytes = a ++ b ∧ a.length = n := by
  induction n generalizing bytes a with
  | zero =>
    cases h
    exact ⟨rfl, rfl⟩
  | succ n ih =>
    cases bytes with
    | nil => simp [take?] at h
    | cons x r =>
      simp only [take?, Option.map_eq_some_iff] at h
      obtain ⟨⟨taken, rest⟩, hr, heq⟩ := h
      cases heq
      obtain ⟨rfl, rfl⟩ := ih hr
      exact ⟨rfl, rfl⟩

end Dialogue.Bytes
