import Mathlib.Data.Nat.ChineseRemainder
import Mathlib.FieldTheory.Finite.Basic

/-!
# Powers of two in the exponent, modulo a product of two primes

Raising to the power `2 ^ m` modulo `p * q` can be done at each prime with the exponent reduced
modulo `p - 1`, and the two results recombined.

`pow_two_pow_mod_pred` is the reduction. It holds for every base, the multiples of `p` included,
because for a prime that is `3` modulo `4` and above `3` the reduced exponent is never zero
(`two_pow_mod_pred_ne_zero`). `recompose` is Garner's recombination and `recompose_eq` its value:
the one residue modulo `p * q` with the given residues.
-/

set_option autoImplicit false
set_option relaxedAutoImplicit false

namespace PythonSystemd.Library.CrtExponentiation

/-! ### The reduced exponent -/

/-- For a prime that is `3` modulo `4` and above `3` the number `p - 1` has an odd factor, so it
divides no power of two. -/
theorem two_pow_mod_pred_ne_zero {p : ℕ} (hmod : p % 4 = 3) (hlarge : 3 < p) (m : ℕ) :
    2 ^ m % (p - 1) ≠ 0 := by
  intro hzero
  obtain ⟨k, -, hk⟩ := (Nat.dvd_prime_pow Nat.prime_two).mp (Nat.dvd_of_mod_eq_zero hzero)
  match k with
  | 0 => omega
  | 1 => omega
  | k + 2 =>
    rw [pow_add] at hk
    omega

/-- Reducing a power of two in the exponent modulo `p - 1` changes no residue modulo `p`. -/
theorem pow_two_pow_mod_pred {p : ℕ} (hp : p.Prime) (hmod : p % 4 = 3) (hlarge : 3 < p)
    (x m : ℕ) : x ^ (2 ^ m % (p - 1)) % p = x ^ 2 ^ m % p := by
  have : Fact p.Prime := ⟨hp⟩
  refine (ZMod.natCast_eq_natCast_iff _ _ _).mp ?_
  push_cast
  by_cases hx : (x : ZMod p) = 0
  · rw [hx, zero_pow (two_pow_mod_pred_ne_zero hmod hlarge m), zero_pow (by positivity)]
  · exact (pow_eq_pow_mod _ (ZMod.pow_card_sub_one_eq_one hx)).symm

/-! ### Recombination -/

/-- Garner's recombination: the multiple of `p` that corrects `xp` to `xq` modulo `q`, where
`inverse` inverts `p` modulo `q`. -/
def recompose (xp xq p q inverse : ℕ) : ℕ :=
  p * ((((xq : ℤ) - xp) % q).toNat * inverse % q) + xp

theorem recompose_lt {xp p q : ℕ} (hxp : xp < p) (hq : 0 < q) (xq inverse : ℕ) :
    recompose xp xq p q inverse < p * q := by
  have hcoefficient : (((xq : ℤ) - xp) % q).toNat * inverse % q + 1 ≤ q :=
    Nat.mod_lt _ hq
  calc recompose xp xq p q inverse
      < p * ((((xq : ℤ) - xp) % q).toNat * inverse % q) + p := Nat.add_lt_add_left hxp _
    _ = p * ((((xq : ℤ) - xp) % q).toNat * inverse % q + 1) := (Nat.mul_succ _ _).symm
    _ ≤ p * q := Nat.mul_le_mul_left p hcoefficient

theorem recompose_mod_left (xp xq p q inverse : ℕ) :
    recompose xp xq p q inverse ≡ xp [MOD p] := by
  unfold recompose Nat.ModEq
  rw [Nat.mul_add_mod]

theorem recompose_mod_right {p q inverse : ℕ} (hq : 0 < q)
    (hinverse : p * inverse ≡ 1 [MOD q]) (xp xq : ℕ) :
    recompose xp xq p q inverse ≡ xq [MOD q] := by
  refine (ZMod.natCast_eq_natCast_iff _ _ _).mp ?_
  have hone : (p : ZMod q) * inverse = 1 := by
    have h := (ZMod.natCast_eq_natCast_iff _ _ _).mpr hinverse
    push_cast at h
    exact h
  have hdifference : (((((xq : ℤ) - xp) % q).toNat : ℕ) : ZMod q) = xq - xp := by
    have hnonneg : 0 ≤ ((xq : ℤ) - xp) % q := Int.emod_nonneg _ (by omega)
    rw [← Int.cast_natCast, Int.toNat_of_nonneg hnonneg, ZMod.intCast_mod]
    push_cast
    ring
  unfold recompose
  rw [Nat.cast_add, Nat.cast_mul, ZMod.natCast_mod, Nat.cast_mul, hdifference]
  linear_combination ((xq : ZMod q) - xp) * hone

/-- The recombination is the reduced number that has the two residues. -/
theorem recompose_eq {x p q inverse : ℕ} (hp : 0 < p) (hq : 0 < q) (hcoprime : p.Coprime q)
    (hinverse : p * inverse ≡ 1 [MOD q]) :
    recompose (x % p) (x % q) p q inverse = x % (p * q) := by
  have hleft : recompose (x % p) (x % q) p q inverse ≡ x [MOD p] :=
    (recompose_mod_left _ _ _ _ _).trans (Nat.mod_modEq x p)
  have hright : recompose (x % p) (x % q) p q inverse ≡ x [MOD q] :=
    (recompose_mod_right hq hinverse _ _).trans (Nat.mod_modEq x q)
  have hboth := (Nat.modEq_and_modEq_iff_modEq_mul hcoprime).mp ⟨hleft, hright⟩
  rw [← Nat.mod_eq_of_lt (recompose_lt (Nat.mod_lt x hp) hq (x % q) inverse)]
  exact hboth

end PythonSystemd.Library.CrtExponentiation
