import Mathlib

set_option relaxedAutoImplicit false
set_option autoImplicit false

/-!
# Numbers in memory

How a machine that stores the least byte first keeps a number in a given count of bytes.

## Main definitions

* `LittleEndian.encode`, `LittleEndian.encodeSigned` — the bytes of a number, and of one in two's
  complement.
* `LittleEndian.value`, `LittleEndian.signed` — the number that bytes stand for.

## Main results

* `LittleEndian.value_encode` — the bytes of a number that fits stand for it.
* `LittleEndian.signed_encodeSigned` — the same for two's complement.
-/

namespace LittleEndian

/-- The `width` bytes of a number. -/
def encode : ℕ → ℕ → List UInt8
  | 0, _ => []
  | width + 1, n => UInt8.ofNat n :: encode width (n / 256)

/-- The number that bytes stand for. -/
def value : List UInt8 → ℕ
  | [] => 0
  | byte :: bytes => byte.toNat + 256 * value bytes

/-- The `width` bytes of a number in two's complement. -/
def encodeSigned (width : ℕ) (z : ℤ) : List UInt8 :=
  encode width (z % (256 ^ width : ℕ)).toNat

/-- The number that bytes stand for in two's complement. -/
def signed (bytes : List UInt8) : ℤ := (value bytes : ℤ).bmod (256 ^ bytes.length)

@[simp] lemma length_encode (width n : ℕ) : (encode width n).length = width := by
  induction width generalizing n with
  | zero => rfl
  | succ width ih => rw [encode, List.length_cons, ih]

@[simp] lemma length_encodeSigned (width : ℕ) (z : ℤ) : (encodeSigned width z).length = width :=
  length_encode width _

lemma value_encode_mod (width n : ℕ) : value (encode width n) = n % 256 ^ width := by
  induction width generalizing n with
  | zero => simp [encode, value, Nat.mod_one]
  | succ width ih =>
    have hbyte : (UInt8.ofNat n).toNat = n % 256 := rfl
    rw [encode, value, ih, hbyte, Nat.pow_succ', Nat.mod_mul]

/-- The bytes of a number that fits stand for it. -/
theorem value_encode {width n : ℕ} (h : n < 256 ^ width) : value (encode width n) = n := by
  rw [value_encode_mod, Nat.mod_eq_of_lt h]

/-- The bytes of a number that fits in two's complement stand for it. -/
theorem signed_encodeSigned {width : ℕ} {z : ℤ} (hle : -(256 ^ width : ℕ) ≤ z * 2)
    (hlt : z * 2 < (256 ^ width : ℕ)) : signed (encodeSigned width z) = z := by
  have hpos : 0 < 256 ^ width := Nat.pow_pos (by decide)
  have hnonneg : 0 ≤ z % (256 ^ width : ℕ) := Int.emod_nonneg _ (by omega)
  have hmod : z % (256 ^ width : ℕ) < (256 ^ width : ℕ) := Int.emod_lt_of_pos _ (by omega)
  rw [signed, length_encodeSigned, encodeSigned, value_encode (by omega),
    Int.toNat_of_nonneg hnonneg, Int.emod_bmod, Int.bmod_eq_of_le_mul_two hle hlt]

end LittleEndian
