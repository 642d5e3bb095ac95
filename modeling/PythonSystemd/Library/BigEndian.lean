import Mathlib.Data.Nat.Digits.Lemmas
import Mathlib.Data.Nat.Size
import Mathlib.Tactic.Ring

/-!
# Big-endian byte strings

Natural numbers as byte strings, most significant byte first. `ofBytes` reads a string of any
length, `toBytes` writes a number in a fixed width and `minimalBytes` writes it without leading
zeros. The three are tied by the round trips `ofBytes_toBytes` and `toBytes_ofBytes` and by
`replicate_append_minimalBytes`: padding the minimal form on the left gives the fixed width.
-/

set_option autoImplicit false
set_option relaxedAutoImplicit false

namespace PythonSystemd.Library.BigEndian

/-- The number a byte string denotes, most significant byte first. -/
def ofBytes (bytes : List UInt8) : ℕ :=
  bytes.foldl (fun value byte ↦ 256 * value + byte.toNat) 0

/-- The `width` low bytes of a number, most significant byte first. -/
def toBytes : (width : ℕ) → (value : ℕ) → List UInt8
  | 0, _ => []
  | width + 1, value => toBytes width (value / 256) ++ [UInt8.ofNat value]

/-- The bytes of a number without leading zeros; none at all for zero. -/
def minimalBytes (value : ℕ) : List UInt8 :=
  ((Nat.digits 256 value).map UInt8.ofNat).reverse

@[simp] theorem ofBytes_nil : ofBytes [] = 0 :=
  rfl

@[simp] theorem ofBytes_concat (bytes : List UInt8) (last : UInt8) :
    ofBytes (bytes ++ [last]) = 256 * ofBytes bytes + last.toNat := by
  simp [ofBytes]

@[simp] theorem toBytes_succ (width value : ℕ) :
    toBytes (width + 1) value = toBytes width (value / 256) ++ [UInt8.ofNat value] :=
  rfl

@[simp] theorem length_toBytes (width value : ℕ) : (toBytes width value).length = width := by
  induction width generalizing value with
  | zero => rfl
  | succ width ih => rw [toBytes_succ, List.length_append, ih, List.length_singleton]

/-- Concatenation shifts the first string by the bytes of the second. -/
theorem ofBytes_append (first second : List UInt8) :
    ofBytes (first ++ second) = ofBytes first * 256 ^ second.length + ofBytes second := by
  induction second using List.reverseRecOn with
  | nil => simp
  | append_singleton second last ih =>
    rw [← List.append_assoc, ofBytes_concat, ih, ofBytes_concat, List.length_append,
      List.length_singleton]
    ring

theorem ofBytes_cons (head : UInt8) (tail : List UInt8) :
    ofBytes (head :: tail) = head.toNat * 256 ^ tail.length + ofBytes tail := by
  have h := ofBytes_append [head] tail
  simpa [ofBytes] using h

theorem ofBytes_lt (bytes : List UInt8) : ofBytes bytes < 256 ^ bytes.length := by
  induction bytes using List.reverseRecOn with
  | nil => simp
  | append_singleton bytes last ih =>
    rw [ofBytes_concat, List.length_append, List.length_singleton, pow_succ]
    have hlast := last.toNat_lt
    omega

@[simp] theorem ofBytes_replicate_zero (width : ℕ) : ofBytes (List.replicate width 0) = 0 := by
  induction width with
  | zero => rfl
  | succ width ih => rw [List.replicate_succ, ofBytes_cons, ih]; simp

/-- Writing then reading keeps the low bytes. -/
theorem ofBytes_toBytes_mod (width value : ℕ) :
    ofBytes (toBytes width value) = value % 256 ^ width := by
  induction width generalizing value with
  | zero => simp [toBytes, Nat.mod_one]
  | succ width ih =>
    have hsplit : value % 256 ^ (width + 1) =
        value % 256 + 256 * (value / 256 % 256 ^ width) := by
      rw [pow_succ', Nat.mod_mul]
    rw [toBytes_succ, ofBytes_concat, ih, UInt8.toNat_ofNat', hsplit]
    exact Nat.add_comm _ _

theorem ofBytes_toBytes {width value : ℕ} (h : value < 256 ^ width) :
    ofBytes (toBytes width value) = value := by
  rw [ofBytes_toBytes_mod, Nat.mod_eq_of_lt h]

/-- Reading then writing in the same width gives the string back. -/
theorem toBytes_ofBytes (bytes : List UInt8) : toBytes bytes.length (ofBytes bytes) = bytes := by
  induction bytes using List.reverseRecOn with
  | nil => rfl
  | append_singleton bytes last ih =>
    have hlast := last.toNat_lt
    rw [List.length_append, List.length_singleton, toBytes_succ, ofBytes_concat]
    have hdiv : (256 * ofBytes bytes + last.toNat) / 256 = ofBytes bytes := by omega
    have hlow : UInt8.ofNat (256 * ofBytes bytes + last.toNat) = last := by
      apply UInt8.toNat_inj.mp
      rw [UInt8.toNat_ofNat']
      omega
    rw [hdiv, ih, hlow]

theorem toBytes_ofBytes_of_length {bytes : List UInt8} {width : ℕ} (h : bytes.length = width) :
    toBytes width (ofBytes bytes) = bytes :=
  h ▸ toBytes_ofBytes bytes

/-- Only zeros denote zero. -/
theorem ofBytes_eq_zero_iff {bytes : List UInt8} :
    ofBytes bytes = 0 ↔ ∀ byte ∈ bytes, byte = 0 := by
  induction bytes with
  | nil => simp
  | cons head tail ih =>
    have hpow : 256 ^ tail.length ≠ 0 := pow_ne_zero _ (by norm_num)
    have hhead : head.toNat * 256 ^ tail.length = 0 ↔ head = 0 := by
      rw [Nat.mul_eq_zero, or_iff_left hpow, ← UInt8.toNat_inj, UInt8.toNat_zero]
    rw [ofBytes_cons, Nat.add_eq_zero_iff, hhead, ih, List.forall_mem_cons]

theorem ofBytes_inj {first second : List UInt8} (hlength : first.length = second.length)
    (h : ofBytes first = ofBytes second) : first = second := by
  rw [← toBytes_ofBytes first, h, hlength, toBytes_ofBytes]

theorem toBytes_inj {width value value' : ℕ} (hvalue : value < 256 ^ width)
    (hvalue' : value' < 256 ^ width) (heq : toBytes width value = toBytes width value') :
    value = value' := by
  rw [← ofBytes_toBytes hvalue, heq, ofBytes_toBytes hvalue']

/-! ### The minimal form -/

theorem ofBytes_minimalBytes (value : ℕ) : ofBytes (minimalBytes value) = value := by
  have hread : ∀ digits : List ℕ, (∀ digit ∈ digits, digit < 256) →
      ofBytes (digits.map UInt8.ofNat).reverse = Nat.ofDigits 256 digits := by
    intro digits hdigits
    induction digits with
    | nil => rfl
    | cons digit digits ih =>
      have hdigit := hdigits digit List.mem_cons_self
      rw [List.map_cons, List.reverse_cons, ofBytes_concat,
        ih fun other hother ↦ hdigits other (List.mem_cons_of_mem _ hother), Nat.ofDigits_cons,
        UInt8.toNat_ofNat', Nat.mod_eq_of_lt (by norm_num; exact hdigit)]
      exact Nat.add_comm _ _
  rw [minimalBytes, hread _ fun digit hdigit ↦ Nat.digits_lt_base (by norm_num) hdigit,
    Nat.ofDigits_digits]

/-- The minimal form has as many bytes as the bits of the number fill. -/
theorem length_minimalBytes (value : ℕ) :
    (minimalBytes value).length = (value.size + 7) / 8 := by
  have hle : ∀ width, (minimalBytes value).length ≤ width ↔ (value.size + 7) / 8 ≤ width := by
    intro width
    have hbits : (256 : ℕ) ^ width = 2 ^ (8 * width) := by
      rw [pow_mul]; norm_num
    rw [minimalBytes, List.length_reverse, List.length_map,
      Nat.digits_length_le_iff (by norm_num), hbits, ← Nat.size_le]
    omega
  exact le_antisymm ((hle _).mpr le_rfl) ((hle _).mp le_rfl)

theorem length_minimalBytes_le_iff {value width : ℕ} :
    (minimalBytes value).length ≤ width ↔ value < 256 ^ width := by
  rw [minimalBytes, List.length_reverse, List.length_map,
    Nat.digits_length_le_iff (by norm_num)]

/-- Padding the minimal form with zeros on the left gives the fixed width. -/
theorem replicate_append_minimalBytes {width value : ℕ} (h : value < 256 ^ width) :
    List.replicate (width - (minimalBytes value).length) 0 ++ minimalBytes value =
      toBytes width value := by
  have hlength := length_minimalBytes_le_iff.mpr h
  apply ofBytes_inj
  · simp only [List.length_append, List.length_replicate, length_toBytes]
    omega
  · rw [ofBytes_append, ofBytes_replicate_zero, ofBytes_minimalBytes, ofBytes_toBytes h]
    simp

/-- The lowest bits of a non-empty string are those of its last byte. -/
theorem ofBytes_concat_mod_four (bytes : List UInt8) (last : UInt8) :
    ofBytes (bytes ++ [last]) % 4 = last.toNat % 4 := by
  rw [ofBytes_concat]
  omega

end PythonSystemd.Library.BigEndian
