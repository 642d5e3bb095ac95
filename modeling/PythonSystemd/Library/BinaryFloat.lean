import Mathlib.Data.Int.Log
import Mathlib.Algebra.Order.Floor.Ring
import Mathlib.Data.Rat.Floor
import Mathlib.Tactic.Linarith
import Mathlib.Tactic.Ring

/-!
# Rounding to a binary floating-point format

The values of a format are the multiples `m * 2 ^ e` with at most `precision` binary digits in `m`,
a unit exponent `e` from `minExponent` on, and a magnitude below `2 ^ maxExponent`. A rational
number is rounded to the nearest one, and to the one with even `m` where two are equally near. A
number that is rounded to `2 ^ maxExponent` or more has no value in the format.

`round_eq_none_iff` says which numbers these are: those from the middle between the largest value
and `2 ^ maxExponent` on.
-/

set_option autoImplicit false
set_option relaxedAutoImplicit false

namespace PythonSystemd.Library

/-! ### The nearest integer -/

/-- The nearest integer, and the even one where two are equally near. -/
def roundHalfEven (x : ℚ) : ℤ :=
  if Int.fract x < 1 / 2 then ⌊x⌋
  else if 1 / 2 < Int.fract x then ⌊x⌋ + 1
  else if Even ⌊x⌋ then ⌊x⌋ else ⌊x⌋ + 1

section RoundHalfEven

variable {x : ℚ} {k : ℤ}

theorem floor_le_roundHalfEven (x : ℚ) : ⌊x⌋ ≤ roundHalfEven x := by
  unfold roundHalfEven
  split_ifs
  · exact le_rfl
  · exact (lt_add_one _).le
  · exact le_rfl
  · exact (lt_add_one _).le

theorem roundHalfEven_le_floor_add_one (x : ℚ) : roundHalfEven x ≤ ⌊x⌋ + 1 := by
  unfold roundHalfEven
  split_ifs
  · exact (lt_add_one _).le
  · exact le_rfl
  · exact (lt_add_one _).le
  · exact le_rfl

theorem le_roundHalfEven (h : (k : ℚ) ≤ x) : k ≤ roundHalfEven x :=
  (Int.le_floor.mpr h).trans (floor_le_roundHalfEven x)

theorem roundHalfEven_le (h : x < k) : roundHalfEven x ≤ k :=
  (roundHalfEven_le_floor_add_one x).trans (Int.add_one_le_of_lt (Int.floor_lt.mpr h))

/-- An even integer is reached from the middle below it on. -/
theorem le_roundHalfEven_iff_of_even (hk : Even k) :
    k ≤ roundHalfEven x ↔ (k : ℚ) - 1 / 2 ≤ x := by
  have hfract : Int.fract x = x - ⌊x⌋ := rfl
  rcases lt_trichotomy (⌊x⌋ + 1) k with hbelow | hat | habove
  · have hround := roundHalfEven_le_floor_add_one x
    have hx : x < k - 1 := by
      have hlt := Int.lt_floor_add_one x
      have hcast : ((⌊x⌋ + 1 : ℤ) : ℚ) ≤ ((k - 1 : ℤ) : ℚ) := Int.cast_le.mpr (by omega)
      push_cast at hcast
      linarith
    refine iff_of_false (by omega) ?_
    linarith
  · have hodd : ¬ Even ⌊x⌋ := by
      rw [← hat] at hk
      exact Int.not_even_iff_odd.mpr (by simpa using hk.sub_odd odd_one)
    have hcast : (k : ℚ) = ⌊x⌋ + 1 := by
      rw [← hat]
      push_cast
      rfl
    unfold roundHalfEven
    split_ifs with hless hmore
    · refine iff_of_false (by omega) ?_
      linarith
    · refine iff_of_true hat.ge ?_
      linarith
    · refine iff_of_true hat.ge ?_
      linarith
  · have hfloor : k ≤ ⌊x⌋ := by omega
    refine iff_of_true (hfloor.trans (floor_le_roundHalfEven x)) ?_
    have hx := Int.le_floor.mp hfloor
    linarith

end RoundHalfEven

/-! ### Formats -/

structure FloatFormat where
  precision : ℕ
  minExponent : ℤ
  maxExponent : ℤ
  precision_pos : 0 < precision
  minExponent_add_le : minExponent + precision ≤ maxExponent

namespace FloatFormat

/-- The exponent of the unit in which a number is rounded. -/
def unitExponent (format : FloatFormat) (x : ℚ) : ℤ :=
  max (Int.log 2 |x| + 1 - format.precision) format.minExponent

/-- The rounded magnitude, however large. -/
def magnitude (format : FloatFormat) (x : ℚ) : ℚ :=
  roundHalfEven (|x| / 2 ^ format.unitExponent x) * 2 ^ format.unitExponent x

/-- The value of the format that a number is rounded to. -/
def round (format : FloatFormat) (x : ℚ) : Option ℚ :=
  if 2 ^ format.maxExponent ≤ format.magnitude x then none
  else some (if x < 0 then -format.magnitude x else format.magnitude x)

variable (format : FloatFormat) (x : ℚ)

/-- The middle between the largest value and the power of two above it. -/
def overflowBound : ℚ :=
  2 ^ format.maxExponent - 2 ^ (format.maxExponent - format.precision - 1)

theorem unit_pos : (0 : ℚ) < 2 ^ format.unitExponent x := zpow_pos two_pos _

theorem abs_lt_zpow : |x| < 2 ^ (format.precision + format.unitExponent x) := by
  have hlog : |x| < 2 ^ (Int.log 2 |x| + 1) := Int.lt_zpow_succ_log_self one_lt_two |x|
  have hmax : Int.log 2 |x| + 1 - format.precision ≤ format.unitExponent x := le_max_left _ _
  exact hlog.trans_le (zpow_le_zpow_right₀ one_le_two (by omega))

theorem zpow_precision_add (n : ℤ) :
    (2 : ℚ) ^ (format.precision + n) = ((2 ^ format.precision : ℤ) : ℚ) * 2 ^ n := by
  push_cast
  rw [zpow_add₀ two_ne_zero, zpow_natCast]

theorem abs_div_unit_lt : |x| / 2 ^ format.unitExponent x < ((2 ^ format.precision : ℤ) : ℚ) := by
  rw [div_lt_iff₀ (format.unit_pos x), ← zpow_precision_add]
  exact format.abs_lt_zpow x

theorem magnitude_le : format.magnitude x ≤ 2 ^ (format.precision + format.unitExponent x) := by
  have hround := Int.cast_le (R := ℚ) |>.mpr (roundHalfEven_le (format.abs_div_unit_lt x))
  rw [zpow_precision_add]
  exact mul_le_mul_of_nonneg_right hround (format.unit_pos x).le

theorem magnitude_zero : format.magnitude 0 = 0 := by
  have hround : roundHalfEven 0 = 0 := by simp [roundHalfEven]
  rw [magnitude, abs_zero, zero_div, hround, Int.cast_zero, zero_mul]

/-- A unit above that of the largest values belongs to a number that is too large. -/
theorem zpow_le_of_lt_unitExponent (hx : x ≠ 0)
    (h : format.maxExponent < format.precision + format.unitExponent x) :
    2 ^ format.maxExponent ≤ |x| ∧ 2 ^ format.maxExponent ≤ format.magnitude x := by
  have hunit : format.unitExponent x = Int.log 2 |x| + 1 - format.precision := by
    have hmin := format.minExponent_add_le
    unfold unitExponent at h ⊢
    omega
  have hlog : (2 : ℚ) ^ Int.log 2 |x| ≤ |x| :=
    Int.zpow_log_le_self one_lt_two (abs_pos.mpr hx)
  have hmax : (2 : ℚ) ^ format.maxExponent ≤ 2 ^ Int.log 2 |x| :=
    zpow_le_zpow_right₀ one_le_two (by omega)
  refine ⟨hmax.trans hlog, hmax.trans ?_⟩
  have hsplit : (2 : ℚ) ^ Int.log 2 |x| =
      ((2 ^ (format.precision - 1) : ℤ) : ℚ) * 2 ^ format.unitExponent x := by
    have hpos := format.precision_pos
    push_cast
    rw [← zpow_natCast, ← zpow_add₀ two_ne_zero, hunit]
    congr 1
    omega
  have hquotient : ((2 ^ (format.precision - 1) : ℤ) : ℚ) ≤ |x| / 2 ^ format.unitExponent x := by
    rw [le_div_iff₀ (format.unit_pos x), ← hsplit]
    exact hlog
  rw [hsplit]
  unfold magnitude
  refine mul_le_mul_of_nonneg_right ?_ (format.unit_pos x).le
  exact_mod_cast le_roundHalfEven hquotient

/-- Half a unit of the largest values is at most half of their bound. -/
theorem half_le_overflowBound : 2 ^ (format.maxExponent - 1) ≤ format.overflowBound := by
  have hunit : (2 : ℚ) ^ (format.maxExponent - format.precision - 1) ≤
      2 ^ (format.maxExponent - 1) := zpow_le_zpow_right₀ one_le_two (by omega)
  have htwice : (2 : ℚ) ^ format.maxExponent = 2 * 2 ^ (format.maxExponent - 1) := by
    rw [← zpow_one_add₀ two_ne_zero]
    congr 1
    omega
  unfold overflowBound
  linarith

theorem overflowBound_le : format.overflowBound ≤ 2 ^ format.maxExponent := by
  have hpos : (0 : ℚ) < 2 ^ (format.maxExponent - format.precision - 1) := zpow_pos two_pos _
  unfold overflowBound
  linarith

theorem zpow_le_magnitude_iff :
    2 ^ format.maxExponent ≤ format.magnitude x ↔ format.overflowBound ≤ |x| := by
  have hhalf : (0 : ℚ) < 2 ^ (format.maxExponent - 1) := zpow_pos two_pos _
  rcases lt_trichotomy (format.precision + format.unitExponent x) format.maxExponent with
    hless | heq | hmore
  · -- With a smaller unit the number and its magnitude stay below half of the power.
    have hle : (2 : ℚ) ^ (format.precision + format.unitExponent x) ≤
        2 ^ (format.maxExponent - 1) := zpow_le_zpow_right₀ one_le_two (by omega)
    refine iff_of_false (not_le.mpr ?_) (not_le.mpr ?_)
    · refine ((format.magnitude_le x).trans hle).trans_lt ?_
      exact zpow_lt_zpow_right₀ one_lt_two (by omega)
    · exact ((format.abs_lt_zpow x).trans_le hle).trans_le format.half_le_overflowBound
  · -- With the unit of the largest values the power is an even number of units.
    have heven : Even (2 ^ format.precision : ℤ) :=
      even_two.pow_of_ne_zero (Nat.pos_iff_ne_zero.mp format.precision_pos)
    have hbound : format.overflowBound =
        (((2 ^ format.precision : ℤ) : ℚ) - 1 / 2) * 2 ^ format.unitExponent x := by
      have hexponent : format.maxExponent - format.precision - 1 = format.unitExponent x - 1 := by
        omega
      rw [overflowBound, hexponent, ← heq, zpow_precision_add, zpow_sub_one₀ two_ne_zero]
      ring
    rw [hbound, ← le_div_iff₀ (format.unit_pos x), ← le_roundHalfEven_iff_of_even heven, ← heq,
      zpow_precision_add, magnitude, mul_le_mul_iff_left₀ (format.unit_pos x), Int.cast_le]
  · by_cases hx : x = 0
    · rw [hx, magnitude_zero, abs_zero]
      refine iff_of_false (not_le.mpr (zpow_pos two_pos _)) (not_le.mpr ?_)
      exact hhalf.trans_le format.half_le_overflowBound
    · obtain ⟨habs, hmagnitude⟩ := format.zpow_le_of_lt_unitExponent x hx hmore
      exact iff_of_true hmagnitude (format.overflowBound_le.trans habs)

/-- The numbers that have no value in the format. -/
theorem round_eq_none_iff : format.round x = none ↔ format.overflowBound ≤ |x| := by
  rw [← zpow_le_magnitude_iff]
  unfold round
  split_ifs with h
  · exact iff_of_true rfl h
  · exact iff_of_false (fun hsome ↦ by cases hsome) h

end FloatFormat

end PythonSystemd.Library
