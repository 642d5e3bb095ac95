import PythonSystemd.Fsprg.Seek

/-!
# The exponent of a jump

`twopowmodphi` on all 64-bit exponents. Below `2 ^ 63` the count of the used bits is the bit length
of the exponent, the result is the power of two modulo `p - 1`, and the accumulator never leaves the
range that its one subtraction relies on. From `2 ^ 63` on the count goes past the last bit and
shifts a 64-bit word by 64.
-/

set_option autoImplicit false
set_option relaxedAutoImplicit false

namespace PythonSystemd.Fsprg

open Library.CheckedMemory

/-! ### The count of the used bits -/

section Count

variable {m : UInt64}

theorem one_shiftLeft_le_iff {n : ℕ} (hn : n < 64) :
    (1 : UInt64) <<< UInt64.ofNat n ≤ m ↔ n < m.toNat.size := by
  rw [UInt64.le_iff_toNat_le, toNat_one_shiftLeft hn, Nat.lt_size]

/-- The count ends at the bit length. -/
theorem usedBitsFrom_eq_size (hm : m.toNat.size < 64) {n : ℕ} (hn : n ≤ m.toNat.size) :
    usedBitsFrom m n = .ok m.toNat.size := by
  induction n using usedBitsFrom.induct m with
  | case1 n hlt hle ih =>
    rw [usedBitsFrom, if_pos hlt, if_pos hle]
    exact ih ((one_shiftLeft_le_iff hlt).mp hle)
  | case2 n hlt hgt =>
    have hle := not_lt.mp ((one_shiftLeft_le_iff hlt).not.mp hgt)
    have hsize : n = m.toNat.size := le_antisymm hn hle
    rw [usedBitsFrom, if_pos hlt, if_neg hgt, hsize]
  | case3 n hge => omega

/-- With all 64 bits in use the count has nowhere to stop. -/
theorem usedBitsFrom_eq_error (hm : m.toNat.size = 64) (n : ℕ) :
    usedBitsFrom m n = .error .undefinedShift := by
  induction n using usedBitsFrom.induct m with
  | case1 n hlt hle ih =>
    rw [usedBitsFrom, if_pos hlt, if_pos hle]
    exact ih
  | case2 n hlt hgt =>
    have hle := (one_shiftLeft_le_iff hlt).mpr (hm ▸ hlt)
    exact absurd hle hgt
  | case3 n hge => rw [usedBitsFrom, if_neg hge]

theorem size_lt_iff : m.toNat.size < 64 ↔ m.toNat < 2 ^ 63 := by
  have hsize := Nat.size_le (m := m.toNat) (n := 63)
  omega

theorem size_eq_of_le (hm : 2 ^ 63 ≤ m.toNat) : m.toNat.size = 64 := by
  have hlower := Nat.lt_size.mpr hm
  have hupper := Nat.size_le.mpr m.toNat_lt
  omega

end Count

/-! ### The accumulator -/

/-- The loop of `twopowmodphi` with the values that `r` takes: at every test of the loop condition
and after every multiplication. -/
def squareAndMultiplyValues (m : UInt64) (phi : ℕ) : (n r : ℕ) → Checked (List ℕ × ℕ)
  | 0, r => .ok ([r], r)
  | n + 1, r => do
    let square ← gcryMpiMulm r r phi
    let next :=
      if m &&& (1 : UInt64) <<< UInt64.ofNat n ≠ 0 then
        let double := square + square
        if double ≥ phi then double - phi else double
      else square
    let (values, result) ← squareAndMultiplyValues m phi n next
    return (r :: square :: values, result)

theorem squareAndMultiply_eq_values (m : UInt64) (phi n r : ℕ) :
    squareAndMultiply m phi n r =
      squareAndMultiplyValues m phi n r >>= fun outcome ↦ .ok outcome.2 := by
  induction n generalizing r with
  | zero => rfl
  | succ n ih =>
    unfold squareAndMultiply squareAndMultiplyValues
    cases gcryMpiMulm r r phi with
    | error fault => rfl
    | ok square =>
      simp only [ok_bind]
      split_ifs with hbit hge
      all_goals
        rw [ih]
        cases squareAndMultiplyValues m phi n _ with
        | error fault => rfl
        | ok outcome => rfl

/-- The accumulator stays below the modulus. -/
theorem lt_of_mem_values {m : UInt64} {phi n r : ℕ} {values : List ℕ} {result : ℕ} (hr : r < phi)
    (h : squareAndMultiplyValues m phi n r = .ok (values, result)) :
    ∀ value ∈ values, value < phi := by
  induction n generalizing r values with
  | zero =>
    obtain ⟨rfl, -⟩ := Prod.mk.inj (Except.ok.inj h)
    intro value hvalue
    rw [List.mem_singleton.mp hvalue]
    exact hr
  | succ n ih =>
    have hphi : 0 < phi := Nat.zero_lt_of_lt hr
    have hsquare : r * r % phi < phi := Nat.mod_lt _ hphi
    have hdouble := double_reduced hsquare
    rw [squareAndMultiplyValues, gcryMpiMulm_eq hphi, ok_bind] at h
    simp only [hdouble] at h
    have hnext : (if m &&& (1 : UInt64) <<< UInt64.ofNat n ≠ 0 then
        (r * r % phi + r * r % phi) % phi else r * r % phi) < phi := by
      split_ifs
      · exact Nat.mod_lt _ hphi
      · exact hsquare
    generalize (if m &&& (1 : UInt64) <<< UInt64.ofNat n ≠ 0 then
      (r * r % phi + r * r % phi) % phi else r * r % phi) = next at h hnext
    obtain ⟨⟨rest, last⟩, hrest, h⟩ := returned_bind.mp h
    obtain ⟨rfl, rfl⟩ := Prod.mk.inj (Except.ok.inj h)
    intro value hvalue
    rcases List.mem_cons.mp hvalue with rfl | hvalue
    · exact hr
    rcases List.mem_cons.mp hvalue with rfl | hvalue
    · exact hsquare
    · exact ih hnext hrest value hvalue

/-! ### All exponents -/

/-- On these arguments `twopowmodphi` does what it is for: the count ends at the bit length without
a shift by 64, the accumulator stays below `p - 1`, and the result is the power of two. -/
structure TwoPowExact (m : UInt64) (p : ℕ) : Prop where
  used_bits : usedBitsFrom m 0 = .ok m.toNat.size
  values : ∃ values, squareAndMultiplyValues m (p - 1) m.toNat.size 1 =
    .ok (values, 2 ^ m.toNat % (p - 1)) ∧ ∀ value ∈ values, value < p - 1
  result : twopowmodphi m p = .ok (2 ^ m.toNat % (p - 1))

/-- The values of a run whose result is known. -/
theorem exists_values_of_squareAndMultiply {m : UInt64} {phi n r result : ℕ}
    (h : squareAndMultiply m phi n r = .ok result) :
    ∃ values, squareAndMultiplyValues m phi n r = .ok (values, result) := by
  rw [squareAndMultiply_eq_values] at h
  obtain ⟨⟨values, last⟩, hvalues, h⟩ := returned_bind.mp h
  obtain rfl := Except.ok.inj h
  exact ⟨values, hvalues⟩

theorem twoPowExact_of_lt {m : UInt64} {p : ℕ} (hp : 3 ≤ p) (hm : m.toNat < 2 ^ 63) :
    TwoPowExact m p := by
  have hused : usedBitsFrom m 0 = .ok m.toNat.size :=
    usedBitsFrom_eq_size (size_lt_iff.mpr hm) (Nat.zero_le _)
  have hresult := twopowmodphi_eq_ok hp hm
  have hloop : squareAndMultiply m (p - 1) m.toNat.size 1 = .ok (2 ^ m.toNat % (p - 1)) := by
    rwa [twopowmodphi, hused, ok_bind] at hresult
  obtain ⟨values, hvalues⟩ := exists_values_of_squareAndMultiply hloop
  exact ⟨hused, ⟨values, hvalues, lt_of_mem_values (by omega) hvalues⟩, hresult⟩

/-- With the upper bit of the exponent set, `twopowmodphi` runs into the shift by 64. -/
theorem twopowmodphi_eq_error {m : UInt64} (hm : 2 ^ 63 ≤ m.toNat) (p : ℕ) :
    twopowmodphi m p = .error .undefinedShift := by
  rw [twopowmodphi, usedBitsFrom_eq_error (size_eq_of_le hm) 0, error_bind]

/-- `FSPRG_Seek` takes its epoch for an exponent, and runs into the shift with it. -/
theorem fsprgSeek_eq_error {gcrypt : Gcrypt} {secpar : ℕ} (primes : MasterPrimes secpar)
    (h : IsValidSecpar secpar) {epoch : UInt64} (hepoch : 2 ^ 63 ≤ epoch.toNat)
    (state seed : List UInt8) :
    fsprgSeek gcrypt state epoch (mskBytes secpar primes.p primes.q) seed =
      .error .undefinedShift := by
  rw [fsprgSeek_mskBytes primes h, twopowmodphi_eq_error hepoch, error_bind]

/-- `twopowmodphi` is exact for the exponents below `2 ^ 63` and for no others. -/
theorem twoPowExact_iff (m : UInt64) {p : ℕ} (hp : 3 ≤ p) :
    TwoPowExact m p ↔ m.toNat < 2 ^ 63 := by
  constructor
  · intro hexact
    by_contra hlarge
    have hresult := hexact.result
    rw [twopowmodphi_eq_error (not_lt.mp hlarge)] at hresult
    cases hresult
  · exact twoPowExact_of_lt hp

theorem twoPowExact_iff_seven :
    TwoPowExact 0x7fffffffffffffff 7 ↔ (0x7fffffffffffffff : UInt64).toNat < 2 ^ 63 :=
  twoPowExact_iff 0x7fffffffffffffff (by decide)

/-- For the exponent `2 ^ 63` and the prime `7` the count shifts by 64. -/
theorem not_twoPowExact_seven : ¬ TwoPowExact 0x8000000000000000 7 := by
  intro hexact
  have hused := hexact.used_bits
  rw [usedBitsFrom_eq_error (size_eq_of_le (by decide)) 0] at hused
  cases hused

end PythonSystemd.Fsprg
