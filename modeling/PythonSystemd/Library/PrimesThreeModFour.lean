import Mathlib.NumberTheory.LSeries.PrimesInAP
import Mathlib.NumberTheory.LucasPrimality
import Mathlib.Order.Bounds.Basic

/-!
# The next prime that is three modulo four

The search that starts at a number that is `3` modulo `4` and adds `4` until it meets a prime.
It ends because there are primes that are `3` modulo `4` above any bound, and it returns the
least one from the start on (`searchPrime_isLeast`). `searchPrime_lt_iff` and
`searchPrime_ne_iff` say, by which primes lie where, when the search stays below a bound and when
two searches end apart.

`prime_of_powMod` shows a large prime, for searches that are bounded by one.
-/

set_option autoImplicit false
set_option relaxedAutoImplicit false

namespace PythonSystemd.Library.PrimesThreeModFour

/-- The primes that are `3` modulo `4`, from `start` on. -/
def primesFrom (start : ℕ) : Set ℕ :=
  {p | start ≤ p ∧ p.Prime ∧ p % 4 = 3}

theorem exists_mem_primesFrom (start : ℕ) : ∃ p, p ∈ primesFrom start := by
  obtain ⟨p, hlt, hprime, hmod⟩ := Nat.forall_exists_prime_gt_and_modEq start (q := 4) (a := 3)
    (by norm_num) (by norm_num)
  exact ⟨p, hlt.le, hprime, hmod⟩

/-- A start that is `3` modulo `4` and not prime can be moved on by `4`. -/
theorem primesFrom_add_four {start : ℕ} (hstart : start % 4 = 3) (hprime : ¬ start.Prime) :
    primesFrom (start + 4) = primesFrom start := by
  ext p
  constructor
  · rintro ⟨hle, hp, hmod⟩
    exact ⟨by omega, hp, hmod⟩
  · rintro ⟨hle, hp, hmod⟩
    have hne : p ≠ start := fun h ↦ hprime (h ▸ hp)
    exact ⟨by omega, hp, hmod⟩

open Classical in
/-- The distance to the next prime, which every step of the search decreases. -/
noncomputable def distance (start : ℕ) : ℕ :=
  Nat.find (exists_mem_primesFrom start) - start

theorem distance_add_four_lt {start : ℕ} (hstart : start % 4 = 3) (hprime : ¬ start.Prime) :
    distance (start + 4) < distance start := by
  classical
  have hfind := Nat.find_spec (exists_mem_primesFrom start)
  have hmoved : Nat.find (exists_mem_primesFrom start) ∈ primesFrom (start + 4) := by
    rw [primesFrom_add_four hstart hprime]
    exact hfind
  have hle := Nat.find_min' (exists_mem_primesFrom (start + 4)) hmoved
  have hfour := hmoved.1
  unfold distance
  omega

/-- Adds `4` until the number is prime. -/
def searchPrime (start : ℕ) (hstart : start % 4 = 3) : ℕ :=
  if start.Prime then start else searchPrime (start + 4) (by omega)
termination_by distance start
decreasing_by exact distance_add_four_lt hstart ‹_›

/-- The search returns the least prime that is `3` modulo `4` from its start on. -/
theorem searchPrime_isLeast (start : ℕ) (hstart : start % 4 = 3) :
    IsLeast (primesFrom start) (searchPrime start hstart) := by
  induction start, hstart using searchPrime.induct with
  | case1 start hstart hprime =>
    rw [searchPrime, if_pos hprime]
    exact ⟨⟨le_rfl, hprime, hstart⟩, fun p hp ↦ hp.1⟩
  | case2 start hstart hprime ih =>
    rw [searchPrime, if_neg hprime, ← primesFrom_add_four hstart hprime]
    exact ih

/-- The search stops after some number of steps, at its first prime. -/
theorem exists_searchPrime_eq_add (start : ℕ) (hstart : start % 4 = 3) :
    ∃ steps, searchPrime start hstart = start + 4 * steps ∧
      ∀ earlier < steps, ¬ (start + 4 * earlier).Prime := by
  induction start, hstart using searchPrime.induct with
  | case1 start hstart hprime =>
    rw [searchPrime, if_pos hprime]
    exact ⟨0, rfl, fun earlier hlt ↦ absurd hlt (Nat.not_lt_zero earlier)⟩
  | case2 start hstart hprime ih =>
    obtain ⟨steps, hsteps, hearlier⟩ := ih
    rw [searchPrime, if_neg hprime, hsteps]
    refine ⟨steps + 1, by ring, fun earlier hlt ↦ ?_⟩
    cases earlier with
    | zero => exact hprime
    | succ earlier =>
      have hshift : start + 4 * (earlier + 1) = start + 4 + 4 * earlier := by ring
      rw [hshift]
      exact hearlier earlier (Nat.lt_of_succ_lt_succ hlt)

/-- The search stays below a bound exactly when a prime lies between its start and the bound. -/
theorem searchPrime_lt_iff {start bound : ℕ} (hstart : start % 4 = 3) :
    searchPrime start hstart < bound ↔ ∃ p ∈ primesFrom start, p < bound := by
  have hleast := searchPrime_isLeast start hstart
  constructor
  · exact fun h ↦ ⟨_, hleast.1, h⟩
  · rintro ⟨p, hp, hlt⟩
    exact (hleast.2 hp).trans_lt hlt

/-- Two searches end at the same prime exactly when no prime separates their starts. -/
theorem searchPrime_eq_iff {first second : ℕ} (hfirst : first % 4 = 3)
    (hsecond : second % 4 = 3) :
    searchPrime first hfirst = searchPrime second hsecond ↔
      ¬ ∃ p ∈ primesFrom (min first second), p < max first second := by
  wlog hle : first ≤ second generalizing first second
  · rw [eq_comm, this hsecond hfirst (by omega), min_comm, max_comm]
  rw [min_eq_left hle, max_eq_right hle]
  have hleast₁ := searchPrime_isLeast first hfirst
  have hleast₂ := searchPrime_isLeast second hsecond
  constructor
  · rintro heq ⟨p, hp, hlt⟩
    have := hleast₁.2 hp
    have := hleast₂.1.1
    omega
  · intro hnone
    have hge : second ≤ searchPrime first hfirst := by
      by_contra hlt
      exact hnone ⟨_, hleast₁.1, by omega⟩
    exact le_antisymm (hleast₁.2 ⟨by have := hleast₂.1.1; omega, hleast₂.1.2⟩)
      (hleast₂.2 ⟨hge, hleast₁.1.2⟩)

/-- Two searches end apart exactly when a prime separates their starts. -/
theorem searchPrime_ne_iff {first second : ℕ} (hfirst : first % 4 = 3)
    (hsecond : second % 4 = 3) :
    searchPrime first hfirst ≠ searchPrime second hsecond ↔
      ∃ p ∈ primesFrom (min first second), p < max first second :=
  (searchPrime_eq_iff hfirst hsecond).not.trans not_not

/-! ### A certificate for a prime -/

/-- A power modulo `m`, by the factors of its exponent. -/
def powMod (m base : ℕ) (factors : List ℕ) : ℕ :=
  factors.foldl (fun power factor ↦ power ^ factor % m) base

theorem powMod_modEq (m base : ℕ) (factors : List ℕ) :
    powMod m base factors ≡ base ^ factors.prod [MOD m] := by
  induction factors generalizing base with
  | nil =>
    rw [List.prod_nil, pow_one]
    rfl
  | cons factor factors ih =>
    rw [List.prod_cons, pow_mul]
    exact (ih _).trans ((Nat.mod_modEq _ m).pow factors.prod)

/-- A number is prime if the order of a base is the product of the prime factors of the number
before it. -/
theorem prime_of_powMod {p : ℕ} {factors : List ℕ} (base : ℕ) (hprod : factors.prod = p - 1)
    (hprime : ∀ factor ∈ factors, factor.Prime) (hone : powMod p base factors ≡ 1 [MOD p])
    (hne : ∀ factor ∈ factors, ¬ powMod p base (factors.erase factor) ≡ 1 [MOD p]) :
    p.Prime := by
  have hcast : ∀ exponents : List ℕ, (base : ZMod p) ^ exponents.prod = 1 ↔
      powMod p base exponents ≡ 1 [MOD p] := by
    intro exponents
    have hpow := powMod_modEq p base exponents
    rw [← Nat.cast_pow, ← Nat.cast_one (R := ZMod p), ZMod.natCast_eq_natCast_iff]
    exact ⟨hpow.trans, hpow.symm.trans⟩
  refine lucas_primality p base (hprod ▸ (hcast factors).mpr hone) fun q hq hdvd ↦ ?_
  rw [← hprod] at hdvd ⊢
  obtain ⟨factor, hfactor, hdvd⟩ := (Nat.Prime.prime hq).dvd_prod_iff.mp hdvd
  obtain rfl := (Nat.prime_dvd_prime_iff_eq hq (hprime factor hfactor)).mp hdvd
  have hquotient : factors.prod / q = (factors.erase q).prod := by
    rw [← List.prod_erase hfactor, Nat.mul_div_cancel_left _ hq.pos]
  rw [hquotient, Ne, hcast]
  exact hne q hfactor

end PythonSystemd.Library.PrimesThreeModFour
