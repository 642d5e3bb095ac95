import PythonSystemd.Library.BigEndian

/-!
# Bytes in a 64-bit word

A word that is put together by shifting bytes to their places and joining them with `|||`. Joining
below everything the word holds (`or_byte`) reads big-endian, joining above it (`or_byte_above`)
reads little-endian; `ofBytesLE` is the little-endian value of a byte string.
-/

set_option autoImplicit false
set_option relaxedAutoImplicit false

namespace PythonSystemd.Library.WordBytes

open BigEndian

/-- A byte moved to bit `k` of a 64-bit word. -/
theorem toNat_byte_shiftLeft (byte : UInt8) (shift : UInt64) {k : ℕ} (hshift : shift.toNat = k)
    (hk : k ≤ 56) : (byte.toUInt64 <<< shift).toNat = byte.toNat * 2 ^ k := by
  have hbound : byte.toNat * 2 ^ k < 2 ^ 64 := by
    calc byte.toNat * 2 ^ k < 2 ^ 8 * 2 ^ k :=
          Nat.mul_lt_mul_of_pos_right byte.toNat_lt (by positivity)
      _ = 2 ^ (8 + k) := (pow_add 2 8 k).symm
      _ ≤ 2 ^ 64 := Nat.pow_le_pow_right (by norm_num) (by omega)
  rw [UInt64.toNat_shiftLeft, hshift, UInt8.toNat_toUInt64,
    Nat.mod_eq_of_lt (show k < 64 by omega), Nat.shiftLeft_eq, Nat.mod_eq_of_lt hbound]

/-- A byte joined to a word at bit `k`, below everything the word holds. -/
theorem or_byte (byte : UInt8) (shift : UInt64) {word : UInt64} {k value : ℕ}
    (hshift : shift.toNat = k) (hk : k ≤ 56) (hword : word.toNat = value * 2 ^ (k + 8)) :
    (word ||| byte.toUInt64 <<< shift).toNat = (256 * value + byte.toNat) * 2 ^ k := by
  have hlow : byte.toNat * 2 ^ k < 2 ^ (k + 8) := by
    rw [pow_add, Nat.mul_comm]
    exact Nat.mul_lt_mul_of_pos_left byte.toNat_lt (by positivity)
  rw [UInt64.toNat_or, toNat_byte_shiftLeft byte shift hshift hk, hword, Nat.mul_comm value,
    ← Nat.two_pow_add_eq_or_of_lt hlow]
  ring

/-- A byte joined to a word at bit `k`, above everything the word holds. -/
theorem or_byte_above (byte : UInt8) (shift : UInt64) {word : UInt64} {k : ℕ}
    (hshift : shift.toNat = k) (hk : k ≤ 56) (hword : word.toNat < 2 ^ k) :
    (word ||| byte.toUInt64 <<< shift).toNat = word.toNat + byte.toNat * 2 ^ k := by
  rw [UInt64.toNat_or, toNat_byte_shiftLeft byte shift hshift hk, Nat.or_comm,
    Nat.mul_comm byte.toNat, ← Nat.two_pow_add_eq_or_of_lt hword, Nat.add_comm]

/-- The number a byte string denotes, least significant byte first. -/
def ofBytesLE (bytes : List UInt8) : ℕ :=
  ofBytes bytes.reverse

@[simp] theorem ofBytesLE_nil : ofBytesLE [] = 0 :=
  rfl

theorem ofBytesLE_concat (bytes : List UInt8) (last : UInt8) :
    ofBytesLE (bytes ++ [last]) = ofBytesLE bytes + last.toNat * 256 ^ bytes.length := by
  rw [ofBytesLE, List.reverse_append, List.reverse_singleton, List.singleton_append, ofBytes_cons,
    List.length_reverse, Nat.add_comm, ofBytesLE]

theorem ofBytesLE_lt (bytes : List UInt8) : ofBytesLE bytes < 256 ^ bytes.length := by
  have h := ofBytes_lt bytes.reverse
  rwa [List.length_reverse] at h

end PythonSystemd.Library.WordBytes
