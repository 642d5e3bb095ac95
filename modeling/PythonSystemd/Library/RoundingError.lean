import Mathlib.Tactic.FieldSimp
import Mathlib.Tactic.GCongr
import PythonSystemd.Library.BinaryFloat

/-!
# Errors of rounding

How far a number is from the value of a format that it is rounded to: half a unit, and half of the
relative precision where the number is not too small (`abs_magnitude_sub_le`). A number stays on
its side of the values of the format; where a format has the halves of the integers this keeps a
rounded number within half of an integer (`magnitude_between_halves`).

`exists_round_quotient` takes both together. An integer is divided and multiplied back, with a
rounding each time; below the precision of the format, the integer part of the result is the integer
or the one before it.
-/

set_option autoImplicit false
set_option relaxedAutoImplicit false

namespace PythonSystemd.Library

theorem abs_roundHalfEven_sub_le (x : ℚ) : |(roundHalfEven x : ℚ) - x| ≤ 1 / 2 := by
  have hsplit : x = ⌊x⌋ + Int.fract x := (Int.floor_add_fract x).symm
  have hnonneg := Int.fract_nonneg x
  have hlt := Int.fract_lt_one x
  unfold roundHalfEven
  split_ifs with hless hmore heven
  · rw [abs_le]
    constructor <;> linarith
  · push_cast
    rw [abs_le]
    constructor <;> linarith
  · rw [abs_le]
    constructor <;> linarith
  · push_cast
    rw [abs_le]
    constructor <;> linarith

namespace FloatFormat

variable (format : FloatFormat) {x : ℚ}

/-- The numbers that are rounded to a relative precision. -/
def IsNormal (x : ℚ) : Prop :=
  2 ^ (format.minExponent + format.precision - 1) ≤ |x|

/-- The error of rounding is at most half of a unit. -/
theorem abs_magnitude_sub_le_unit (x : ℚ) :
    |(format.magnitude x - |x|)| ≤ 2 ^ format.unitExponent x / 2 := by
  have hpos := format.unit_pos x
  have hround := abs_roundHalfEven_sub_le (|x| / 2 ^ format.unitExponent x)
  have hsplit : format.magnitude x - |x| =
      (roundHalfEven (|x| / 2 ^ format.unitExponent x) - |x| / 2 ^ format.unitExponent x) *
        2 ^ format.unitExponent x := by
    rw [magnitude, sub_mul, div_mul_cancel₀ _ hpos.ne']
  calc |(format.magnitude x - |x|)|
      = |roundHalfEven (|x| / 2 ^ format.unitExponent x) - |x| / 2 ^ format.unitExponent x| *
          2 ^ format.unitExponent x := by rw [hsplit, abs_mul, abs_of_pos hpos]
    _ ≤ 1 / 2 * 2 ^ format.unitExponent x := mul_le_mul_of_nonneg_right hround hpos.le
    _ = 2 ^ format.unitExponent x / 2 := by ring

theorem unit_le_of_isNormal (h : format.IsNormal x) :
    2 ^ format.unitExponent x ≤ |x| * 2 ^ (1 - format.precision : ℤ) := by
  have hx : 0 < |x| := (zpow_pos two_pos _).trans_le h
  have hlog : format.minExponent + format.precision - 1 ≤ Int.log 2 |x| :=
    (Int.zpow_le_iff_le_log one_lt_two hx).mp h
  have hunit : format.unitExponent x = Int.log 2 |x| + (1 - format.precision) := by
    unfold unitExponent
    omega
  rw [hunit, zpow_add₀ two_ne_zero]
  exact mul_le_mul_of_nonneg_right (Int.zpow_log_le_self one_lt_two hx) (zpow_pos two_pos _).le

/-- The relative error of rounding. -/
theorem abs_magnitude_sub_le (h : format.IsNormal x) :
    |(format.magnitude x - |x|)| ≤ |x| / 2 ^ format.precision := by
  have hunit := format.unit_le_of_isNormal h
  have hprecision : (2 : ℚ) ^ (1 - format.precision : ℤ) = 2 / 2 ^ format.precision := by
    rw [zpow_sub₀ two_ne_zero, zpow_one, zpow_natCast]
  rw [hprecision] at hunit
  have herror := format.abs_magnitude_sub_le_unit x
  have hhalf : |x| * (2 / 2 ^ format.precision) / 2 = |x| / 2 ^ format.precision := by
    ring
  linarith

/-! ### Multiples of a power of two -/

/-- A multiple of a power of two is one of every smaller power. -/
theorem exists_multiple {small large : ℤ} (h : small ≤ large) (m : ℤ) :
    ∃ k : ℤ, (m : ℚ) * 2 ^ large = k * 2 ^ small := by
  refine ⟨m * 2 ^ (large - small).toNat, ?_⟩
  have hexponent : ((large - small).toNat : ℤ) + small = large := by omega
  push_cast
  rw [mul_assoc, ← zpow_natCast, ← zpow_add₀ two_ne_zero, hexponent]

/-- A multiple of the unit that is not above a number is not above what it is rounded to. -/
theorem le_magnitude {e m : ℤ} (he : format.unitExponent x ≤ e) (h : (m : ℚ) * 2 ^ e ≤ |x|) :
    (m : ℚ) * 2 ^ e ≤ format.magnitude x := by
  obtain ⟨k, hk⟩ := exists_multiple he m
  have hpos := format.unit_pos x
  rw [hk] at h ⊢
  have hround : k ≤ roundHalfEven (|x| / 2 ^ format.unitExponent x) :=
    le_roundHalfEven ((le_div_iff₀ hpos).mpr h)
  exact mul_le_mul_of_nonneg_right (Int.cast_le.mpr hround) hpos.le

/-- A multiple of the unit that is above a number is not below what it is rounded to. -/
theorem magnitude_le_of_lt {e m : ℤ} (he : format.unitExponent x ≤ e)
    (h : |x| < (m : ℚ) * 2 ^ e) : format.magnitude x ≤ (m : ℚ) * 2 ^ e := by
  obtain ⟨k, hk⟩ := exists_multiple he m
  have hpos := format.unit_pos x
  rw [hk] at h ⊢
  have hround : roundHalfEven (|x| / 2 ^ format.unitExponent x) ≤ k :=
    roundHalfEven_le ((div_lt_iff₀ hpos).mpr h)
  exact mul_le_mul_of_nonneg_right (Int.cast_le.mpr hround) hpos.le

/-- Below this bound the halves of the integers are values of the format. -/
theorem unitExponent_le_neg_one (hmin : format.minExponent ≤ -1) (hx : x ≠ 0)
    (h : |x| < 2 ^ (format.precision - 1 : ℤ)) : format.unitExponent x ≤ -1 := by
  have hlog : Int.log 2 |x| < format.precision - 1 :=
    (Int.lt_zpow_iff_log_lt one_lt_two (abs_pos.mpr hx)).mp h
  unfold unitExponent
  omega

/-- A number within half of an integer is rounded to one within half of it. -/
theorem magnitude_between_halves (hmin : format.minExponent ≤ -1) (hx : x ≠ 0)
    (h : |x| < 2 ^ (format.precision - 1 : ℤ)) {k : ℤ} (hlow : (k : ℚ) - 1 / 2 ≤ |x|)
    (hhigh : |x| < (k : ℚ) + 1 / 2) :
    (k : ℚ) - 1 / 2 ≤ format.magnitude x ∧ format.magnitude x ≤ (k : ℚ) + 1 / 2 := by
  have hunit := format.unitExponent_le_neg_one hmin hx h
  have hhalf : ∀ m : ℤ, (m : ℚ) * 2 ^ (-1 : ℤ) = (m : ℚ) / 2 := fun m ↦ by
    rw [zpow_neg_one, div_eq_mul_inv]
  have hbelow : (((2 * k - 1 : ℤ) : ℚ)) * 2 ^ (-1 : ℤ) = (k : ℚ) - 1 / 2 := by
    rw [hhalf]
    push_cast
    ring
  have habove : (((2 * k + 1 : ℤ) : ℚ)) * 2 ^ (-1 : ℤ) = (k : ℚ) + 1 / 2 := by
    rw [hhalf]
    push_cast
    ring
  constructor
  · rw [← hbelow] at hlow ⊢
    exact format.le_magnitude hunit hlow
  · rw [← habove] at hhigh ⊢
    exact format.magnitude_le_of_lt hunit hhigh

/-! ### A quotient multiplied back -/

/-- A number that is not negative and below the bound is rounded to its magnitude. -/
theorem round_of_lt (hnonneg : 0 ≤ x) (h : x < 2 ^ (format.maxExponent - 1)) :
    format.round x = some (format.magnitude x) := by
  have hbound : ¬ format.overflowBound ≤ |x| := by
    rw [abs_of_nonneg hnonneg, not_le]
    exact h.trans_le format.half_le_overflowBound
  have hmagnitude : ¬ 2 ^ format.maxExponent ≤ format.magnitude x :=
    fun hle ↦ hbound ((format.zpow_le_magnitude_iff x).mp hle)
  rw [round, if_neg hmagnitude, if_neg (not_lt.mpr hnonneg)]

/-- An integer that is divided and multiplied back, rounded each time, comes back within half. -/
theorem exists_round_quotient (hmin : format.minExponent ≤ -1)
    (hmax : (format.precision : ℤ) ≤ format.maxExponent) {value : ℕ} (divisor : ℕ)
    (hpos : 0 < divisor) (hnormal : format.IsNormal (1 / divisor))
    (hvalue : value < 2 ^ (format.precision - 1)) :
    ∃ quotient product, format.round (value / divisor) = some quotient ∧
      format.round (quotient * divisor) = some product ∧ 0 ≤ product ∧
      (value : ℚ) - 1 / 2 ≤ product ∧ product ≤ (value : ℚ) + 1 / 2 := by
  have hdivisor : (1 : ℚ) ≤ divisor := by exact_mod_cast hpos
  have hprecision := format.precision_pos
  have hpower : (2 : ℚ) ^ (format.precision - 1 : ℤ) = ((2 ^ (format.precision - 1) : ℕ) : ℚ) := by
    push_cast
    rw [← zpow_natCast, Nat.cast_pred hprecision]
  have hbound : (value : ℚ) + 1 ≤ 2 ^ (format.precision - 1 : ℤ) := by
    rw [hpower]
    exact_mod_cast hvalue
  have hlarge : (2 : ℚ) ^ (format.precision - 1 : ℤ) ≤ 2 ^ (format.maxExponent - 1) :=
    zpow_le_zpow_right₀ one_le_two (by omega)
  rcases Nat.eq_zero_or_pos value with rfl | hvaluePos
  · have hzero : format.round 0 = some 0 := by
      rw [format.round_of_lt le_rfl (zpow_pos two_pos _), magnitude_zero]
    refine ⟨0, 0, ?_, ?_, le_rfl, ?_, ?_⟩
    · rw [Nat.cast_zero, zero_div, hzero]
    · rw [zero_mul, hzero]
    · norm_num
    · norm_num
  have hone : (1 : ℚ) ≤ value := by exact_mod_cast hvaluePos
  have hx : (0 : ℚ) < value / divisor := by positivity
  have hle : (value / divisor : ℚ) ≤ value := div_le_self (by linarith) hdivisor
  have hfirst := format.round_of_lt hx.le (by linarith : (value / divisor : ℚ) < _)
  have hisNormal : format.IsNormal (value / divisor) := by
    refine hnormal.trans ?_
    rw [abs_of_pos (by positivity), abs_of_pos hx]
    gcongr
  -- The error of the quotient, times the divisor, is less than half.
  have herror := format.abs_magnitude_sub_le hisNormal
  rw [abs_of_pos hx, abs_le] at herror
  set quotient := format.magnitude (value / divisor)
  have hback : (value / divisor : ℚ) * divisor = value := div_mul_cancel₀ _ (by positivity)
  have hsmall : (value : ℚ) / 2 ^ format.precision < 1 / 2 := by
    rw [div_lt_iff₀ (by positivity)]
    have htwice : (2 : ℚ) ^ format.precision = 2 * 2 ^ (format.precision - 1 : ℤ) := by
      rw [← zpow_one_add₀ two_ne_zero, ← zpow_natCast]
      congr 1
      omega
    rw [htwice]
    linarith
  have hscaled : (value / divisor : ℚ) / 2 ^ format.precision * divisor =
      value / 2 ^ format.precision := by
    rw [div_mul_eq_mul_div, hback]
  have hlow : (value : ℚ) - 1 / 2 < quotient * divisor := by
    have hmul := mul_le_mul_of_nonneg_right herror.1 (by linarith : (0 : ℚ) ≤ divisor)
    rw [sub_mul, neg_mul, hscaled, hback] at hmul
    linarith
  have hhigh : quotient * divisor < (value : ℚ) + 1 / 2 := by
    have hmul := mul_le_mul_of_nonneg_right herror.2 (by linarith : (0 : ℚ) ≤ divisor)
    rw [sub_mul, hscaled, hback] at hmul
    linarith
  have hy : 0 < quotient * divisor := by linarith
  have hsecond := format.round_of_lt hy.le (by linarith : quotient * divisor < _)
  obtain ⟨hbelow, habove⟩ := format.magnitude_between_halves (k := value) hmin hy.ne'
    (by rw [abs_of_pos hy]; linarith) (by rw [abs_of_pos hy]; push_cast; linarith)
    (by rw [abs_of_pos hy]; push_cast; linarith)
  push_cast at hbelow habove
  exact ⟨quotient, _, hfirst, hsecond, by linarith, hbelow, habove⟩

end FloatFormat

end PythonSystemd.Library
