import Mathlib.Dynamics.PeriodicPts.Defs
import Mathlib.NumberTheory.LegendreSymbol.Basic
import Mathlib.RingTheory.Int.Basic

/-!
# Squaring the squares modulo a Blum number

Modulo a product of two primes that are `3` modulo `4` squaring is a permutation of the squares.
The primes may be equal, and the squares that share a factor with the modulus are included.

`Residue n` is the type of squares modulo `n` in their reduced form and `Residue.square` the
squaring map on it. `Residue.square_injective` is the injectivity; its core is
`pow_dvd_sq_sub_sq`, which cancels the factor `a ^ 2 + b ^ 2` of `a ^ 4 - b ^ 4` at one prime. An
injective map of a finite type has purely periodic orbits, and two orbits that meet are shifts of
each other: `exists_period` and `exists_shift_of_meet`, for any such map.
-/

set_option autoImplicit false
set_option relaxedAutoImplicit false

namespace PythonSystemd.Library.BlumSquares

/-! ### Orbits of an injective map of a finite type -/

section Orbits

variable {α : Type*} [Finite α] {f : α → α}

/-- Every point of a finite type comes back to itself under an injective map. -/
theorem exists_period (hf : Function.Injective f) (point : α) :
    ∃ period > 0, ∀ step, f^[step + period] point = f^[step] point := by
  obtain ⟨first, second, hne, heq⟩ :=
    Finite.exists_ne_map_eq_of_infinite fun step : ℕ ↦ f^[step] point
  wlog hlt : first < second generalizing first second
  · exact this second first hne.symm heq.symm (by omega)
  refine ⟨second - first, by omega, fun step ↦ ?_⟩
  rw [Function.iterate_add_apply, Function.iterate_cancel hf heq.symm]

/-- Two orbits of an injective map of a finite type that meet are shifts of each other. -/
theorem exists_shift_of_meet (hf : Function.Injective f) {first second : α} {i j : ℕ}
    (h : f^[i] first = f^[j] second) :
    ∃ shift, ∀ step, f^[step + shift] first = f^[step] second := by
  -- Run the first orbit from `i` to a time from which `j` steps back are whole periods.
  obtain ⟨period, hpos, hperiod⟩ := exists_period hf second
  have hmultiple : ∀ count step, f^[step + count * period] second = f^[step] second := by
    intro count
    induction count with
    | zero => intro step; rw [Nat.zero_mul, Nat.add_zero]
    | succ count ih => intro step; rw [Nat.succ_mul, ← Nat.add_assoc, hperiod, ih]
  have hle : j ≤ j * period := Nat.le_mul_of_pos_right j hpos
  refine ⟨i + (j * period - j), fun step ↦ ?_⟩
  calc f^[step + (i + (j * period - j))] first
      = f^[step + (j * period - j)] (f^[i] first) := by
        rw [← Function.iterate_add_apply]; congr 1; omega
    _ = f^[step + (j * period - j) + j] second := by rw [h, ← Function.iterate_add_apply]
    _ = f^[step + j * period] second := by congr 1; omega
    _ = f^[step] second := hmultiple j step

end Orbits

/-! ### Squares modulo a Blum number -/

/-- A product of two primes that are `3` modulo `4`. -/
def IsBlum (n : ℕ) : Prop :=
  ∃ p q : ℕ, p.Prime ∧ q.Prime ∧ p % 4 = 3 ∧ q % 4 = 3 ∧ n = p * q

/-- A prime that is `3` modulo `4` divides a sum of two squares only if it divides both roots. -/
theorem dvd_and_dvd_of_dvd_sq_add_sq {p : ℕ} (hp : p.Prime) (hmod : p % 4 = 3) {a b : ℤ}
    (h : (p : ℤ) ∣ a ^ 2 + b ^ 2) : (p : ℤ) ∣ a ∧ (p : ℤ) ∣ b := by
  have : Fact p.Prime := ⟨hp⟩
  have hsum : (a : ZMod p) ^ 2 + (b : ZMod p) ^ 2 = 0 := by
    exact_mod_cast (ZMod.intCast_zmod_eq_zero_iff_dvd (a ^ 2 + b ^ 2) p).mpr h
  have hb : (b : ZMod p) = 0 := by
    by_contra hne
    exact ZMod.mod_four_ne_three_of_sq_eq_neg_sq' hne (eq_neg_of_add_eq_zero_left hsum) hmod
  have ha : (a : ZMod p) = 0 := by
    rw [hb, zero_pow two_ne_zero, add_zero] at hsum
    exact (pow_eq_zero_iff two_ne_zero).mp hsum
  exact ⟨(ZMod.intCast_zmod_eq_zero_iff_dvd a p).mp ha,
    (ZMod.intCast_zmod_eq_zero_iff_dvd b p).mp hb⟩

/-- At a prime that is `3` modulo `4` a congruence of fourth powers is one of squares. The prime
may be squared: when it divides `a ^ 2 + b ^ 2` it divides both roots, so its square divides both
squares. -/
theorem pow_dvd_sq_sub_sq {p k : ℕ} (hp : p.Prime) (hmod : p % 4 = 3) (hk : k ≤ 2) {a b : ℤ}
    (h : (p : ℤ) ^ k ∣ a ^ 4 - b ^ 4) : (p : ℤ) ^ k ∣ a ^ 2 - b ^ 2 := by
  by_cases hdvd : (p : ℤ) ∣ a ^ 2 + b ^ 2
  · obtain ⟨ha, hb⟩ := dvd_and_dvd_of_dvd_sq_add_sq hp hmod hdvd
    have hsquares : (p : ℤ) ^ 2 ∣ a ^ 2 - b ^ 2 :=
      dvd_sub (pow_dvd_pow_of_dvd ha 2) (pow_dvd_pow_of_dvd hb 2)
    exact (pow_dvd_pow _ hk).trans hsquares
  · have hcoprime : IsCoprime ((p : ℤ) ^ k) (a ^ 2 + b ^ 2) :=
      (((Nat.prime_iff_prime_int.mp hp).coprime_iff_not_dvd).mpr hdvd).pow_left
    have hfactor : a ^ 4 - b ^ 4 = (a ^ 2 + b ^ 2) * (a ^ 2 - b ^ 2) := by ring
    rw [hfactor] at h
    exact hcoprime.dvd_of_dvd_mul_left h

/-- Modulo a Blum number a congruence of fourth powers is one of squares. -/
theorem IsBlum.dvd_sq_sub_sq {n : ℕ} (hn : IsBlum n) {a b : ℤ}
    (h : (n : ℤ) ∣ a ^ 4 - b ^ 4) : (n : ℤ) ∣ a ^ 2 - b ^ 2 := by
  obtain ⟨p, q, hp, hq, hpmod, hqmod, rfl⟩ := hn
  by_cases heq : p = q
  · subst heq
    have hsquare : ((p * p : ℕ) : ℤ) = (p : ℤ) ^ 2 := by push_cast; ring
    rw [hsquare] at h ⊢
    exact pow_dvd_sq_sub_sq hp hpmod le_rfl h
  · have hcoprime : IsCoprime (p : ℤ) (q : ℤ) :=
      Nat.isCoprime_iff_coprime.mpr ((Nat.coprime_primes hp hq).mpr heq)
    push_cast at h ⊢
    refine hcoprime.mul_dvd ?_ ?_
    · simpa using pow_dvd_sq_sub_sq (k := 1) hp hpmod (by norm_num)
        (by simpa using (dvd_mul_right _ _).trans h)
    · simpa using pow_dvd_sq_sub_sq (k := 1) hq hqmod (by norm_num)
        (by simpa using (dvd_mul_left _ _).trans h)

theorem IsBlum.pos {n : ℕ} (hn : IsBlum n) : 0 < n := by
  obtain ⟨p, q, hp, hq, -, -, rfl⟩ := hn
  exact Nat.mul_pos hp.pos hq.pos

/-- The squares modulo `n`, reduced. -/
def Residue (n : ℕ) : Type :=
  {x : ℕ // x < n ∧ IsSquare (x : ZMod n)}

namespace Residue

variable {n : ℕ}

/-- The square of a residue. -/
def square (x : Residue n) : Residue n :=
  ⟨x.1 * x.1 % n, Nat.mod_lt _ (Nat.zero_lt_of_lt x.2.1),
    ⟨(x.1 : ZMod n), by rw [ZMod.natCast_mod, Nat.cast_mul]⟩⟩

/-- The residue with a given root. -/
def ofRoot (hn : 0 < n) (root : ℕ) : Residue n :=
  ⟨root * root % n, Nat.mod_lt _ hn, ⟨(root : ZMod n), by rw [ZMod.natCast_mod, Nat.cast_mul]⟩⟩

instance finite : Finite (Residue n) :=
  Finite.of_injective (fun x : Residue n ↦ (⟨x.1, x.2.1⟩ : Fin n)) fun _ _ h ↦
    Subtype.ext (Fin.mk.inj h)

@[simp] theorem square_val (x : Residue n) : x.square.1 = x.1 * x.1 % n :=
  rfl

/-- Squaring `k` times raises to the power `2 ^ k`. -/
theorem iterate_square_val (k : ℕ) (x : Residue n) : (square^[k] x).1 = x.1 ^ 2 ^ k % n := by
  induction k with
  | zero => simp [Nat.mod_eq_of_lt x.2.1]
  | succ k ih =>
    rw [Function.iterate_succ_apply', square_val, ih, ← Nat.mul_mod, ← pow_add, pow_succ, mul_two]

/-- Modulo a Blum number squaring the squares is injective. -/
theorem square_injective (hn : IsBlum n) : Function.Injective (square : Residue n → Residue n) := by
  rintro ⟨x, hx, a, ha⟩ ⟨y, hy, b, hb⟩ h
  have hvalue : x * x % n = y * y % n := congrArg Subtype.val h
  obtain ⟨root, rfl⟩ := ZMod.intCast_surjective a
  obtain ⟨other, rfl⟩ := ZMod.intCast_surjective b
  have hfourth : ((root ^ 4 - other ^ 4 : ℤ) : ZMod n) = 0 := by
    have hcast : ((x * x : ℕ) : ZMod n) = ((y * y : ℕ) : ZMod n) :=
      (ZMod.natCast_eq_natCast_iff _ _ _).mpr hvalue
    push_cast at hcast ⊢
    rw [ha, hb] at hcast
    linear_combination hcast
  have hsquares := hn.dvd_sq_sub_sq ((ZMod.intCast_zmod_eq_zero_iff_dvd _ n).mp hfourth)
  have hzero := (ZMod.intCast_zmod_eq_zero_iff_dvd _ n).mpr hsquares
  have hcast : (x : ZMod n) = (y : ZMod n) := by
    push_cast at hzero
    rw [ha, hb]
    linear_combination hzero
  have hmod : x % n = y % n := (ZMod.natCast_eq_natCast_iff _ _ _).mp hcast
  rw [Nat.mod_eq_of_lt hx, Nat.mod_eq_of_lt hy] at hmod
  exact Subtype.ext hmod

end Residue

end PythonSystemd.Library.BlumSquares
