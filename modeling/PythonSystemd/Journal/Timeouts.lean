import Mathlib.Order.Bounds.Basic
import PythonSystemd.Journal.Entries
import PythonSystemd.Login.Monitor

/-!
# Timeouts for `poll`

`absolute_timeout` turns a deadline of the monotonic clock into the milliseconds that are left, and
`get_timeout_ms` of the reader and of the monitor return what it computes. The microseconds that are
left are rounded up in 64 bits and narrowed to an `int`, so a deadline that is far away comes out as
some other number, and some deadlines come out as `-1`, for which `poll` waits without an end.
`pollsExactly_iff` says for which deadlines and times this does not happen.
-/

set_option autoImplicit false
set_option relaxedAutoImplicit false

namespace PythonSystemd.Journal

open Library Library.HandleProgram Program Python

/-! ### What a timeout is to be -/

/-- The largest `int`. -/
def intMax : ℕ := 2 ^ 31 - 1

/-- A timeout in milliseconds for a deadline and a time in microseconds: zero when the deadline has
come, and else the least number of milliseconds that reaches it, or the largest `int`. -/
structure IsTimeout (deadline time : ℕ) (timeout : ℤ) : Prop where
  nonneg : 0 ≤ timeout
  eq_zero_iff : timeout = 0 ↔ deadline ≤ time
  clamped : time < deadline → ∃ least, IsLeast {r | deadline - time ≤ 1000 * r} least ∧
    timeout = min least intMax

theorem isLeast_roundUp (wait : ℕ) : IsLeast {r | wait ≤ 1000 * r} ((wait + 999) / 1000) := by
  constructor
  · show wait ≤ 1000 * ((wait + 999) / 1000)
    omega
  · intro r hr
    have hreach : wait ≤ 1000 * r := hr
    omega

/-- There is one timeout for a deadline and a time. -/
theorem isTimeout_iff {deadline time : ℕ} {timeout : ℤ} :
    IsTimeout deadline time timeout ↔
      timeout = if time < deadline then ((min ((deadline - time + 999) / 1000) intMax : ℕ) : ℤ)
        else 0 := by
  constructor
  · intro h
    split_ifs with hlate
    · obtain ⟨least, hleast, rfl⟩ := h.clamped hlate
      rw [hleast.unique (isLeast_roundUp (deadline - time))]
    · exact h.eq_zero_iff.mpr (not_lt.mp hlate)
  · rintro rfl
    split_ifs with hlate
    · refine ⟨by omega, ?_, fun _ ↦ ⟨_, isLeast_roundUp (deadline - time), rfl⟩⟩
      refine iff_of_false ?_ (not_le.mpr hlate)
      have hpos : 0 < (deadline - time + 999) / 1000 := by omega
      have hmax : 0 < intMax := by unfold intMax; omega
      omega
    · exact ⟨le_rfl, iff_of_true rfl (not_lt.mp hlate), fun h ↦ absurd h hlate⟩

/-! ### What the code computes -/

theorem toInt_div_thousand {value : Int64} (h : 0 ≤ value.toInt) :
    (value / 1000).toInt = value.toInt / 1000 := by
  have hbound := value.toInt_lt
  have hdivisor : (1000 : Int64).toInt = 1000 := rfl
  rw [Int64.toInt_div, hdivisor, Int.tdiv_eq_ediv_of_nonneg h]
  exact Int.bmod_eq_of_le (by omega) (by omega)

/-- The clock is read modulo `2 ^ 64`. -/
theorem toNat_clock {ts : Timespec} (hsec : 0 ≤ ts.tvSec.toInt) (hnsec : 0 ≤ ts.tvNsec.toInt) :
    (ts.tvSec.toUInt64 * 1000000 + (ts.tvNsec / 1000).toUInt64).toNat =
      ts.microseconds % 2 ^ 64 := by
  have hdiv := toInt_div_thousand hnsec
  have hmicro : (ts.tvNsec / 1000).toUInt64.toNat = ts.tvNsec.toInt.toNat / 1000 := by
    rw [toNat_toUInt64_of_nonneg (by omega), hdiv]
    omega
  have hmillion : (1000000 : UInt64).toNat = 1000000 := rfl
  rw [UInt64.toNat_add, UInt64.toNat_mul, hmicro, toNat_toUInt64_of_nonneg hsec, hmillion]
  unfold Timespec.microseconds
  omega

theorem toInt_toInt32 (value : UInt32) : value.toInt32.toInt = Int.bmod value.toNat (2 ^ 32) :=
  BitVec.toInt_eq_toNat_bmod value.toBitVec

/-- The milliseconds that the code computes, before they are narrowed. -/
def roundedWait (deadline time : ℕ) : ℕ :=
  (deadline - time + 999) % 2 ^ 64 / 1000

theorem absoluteTimeout_eq {t : UInt64} (ht : t ≠ -1) {ts : Timespec}
    (hsec : 0 ≤ ts.tvSec.toInt) (hnsec : 0 ≤ ts.tvNsec.toInt) :
    absoluteTimeout t ts =
      if ts.microseconds % 2 ^ 64 < t.toNat then
        Int.bmod (roundedWait t.toNat (ts.microseconds % 2 ^ 64)) (2 ^ 32)
      else 0 := by
  have hclock := toNat_clock hsec hnsec
  unfold absoluteTimeout
  rw [if_neg ht]
  generalize ts.tvSec.toUInt64 * 1000000 + (ts.tvNsec / 1000).toUInt64 = clock at hclock
  have hlate : clock < t ↔ ts.microseconds % 2 ^ 64 < t.toNat := by
    rw [← hclock]
    exact UInt64.lt_iff_toNat_lt
  by_cases h : clock < t
  · have hle : clock ≤ t := UInt64.le_of_lt h
    have hround : (999 : UInt64).toNat = 999 := rfl
    have hthousand : (1000 : UInt64).toNat = 1000 := rfl
    rw [if_pos h, if_pos (hlate.mp h), toInt_toInt32, UInt64.toNat_toUInt32, UInt64.toNat_div,
      UInt64.toNat_add, UInt64.toNat_sub_of_le _ _ hle, hclock, hround, hthousand]
    show Int.bmod ((roundedWait _ _ % 2 ^ 32 : ℕ) : ℤ) (2 ^ 32) = _
    rw [Int.natCast_emod]
    exact Int.emod_bmod _ _
  · rw [if_neg h, if_neg fun hlt ↦ h (hlate.mpr hlt)]

/-! ### When the timeout is right -/

/-- The milliseconds to the deadline fit in an `int`, or narrowing them happens to give the largest
`int`. A clock that shows `2 ^ 64` microseconds or more has passed every deadline, and is taken for
what it shows modulo `2 ^ 64`. -/
def WaitFits (deadline time : ℕ) : Prop :=
  if time < 2 ^ 64 then
    deadline ≤ time ∨ (deadline - time + 999) / 1000 ≤ intMax ∨
      deadline - time + 999 < 2 ^ 64 ∧ (deadline - time + 999) / 1000 % 2 ^ 32 = intMax
  else
    deadline ≤ time % 2 ^ 64 ∨ (deadline - time % 2 ^ 64 + 999) % 2 ^ 64 / 1000 % 2 ^ 32 = 0

/-- A number narrowed to an `int`. -/
theorem bmod_int (value : ℕ) :
    Int.bmod value (2 ^ 32) =
      if value % 2 ^ 32 < 2 ^ 31 then ((value % 2 ^ 32 : ℕ) : ℤ)
      else ((value % 2 ^ 32 : ℕ) : ℤ) - 2 ^ 32 := by
  rw [Int.bmod_def]
  split_ifs <;> omega

/-- Before `2 ^ 64` microseconds. -/
theorem bmod_roundedWait_eq_iff {deadline time : ℕ} (hdeadline : deadline < 2 ^ 64 - 1)
    (hlate : time < deadline) :
    Int.bmod (roundedWait deadline time) (2 ^ 32) =
        ((min ((deadline - time + 999) / 1000) intMax : ℕ) : ℤ) ↔
      (deadline - time + 999) / 1000 ≤ intMax ∨
        deadline - time + 999 < 2 ^ 64 ∧ (deadline - time + 999) / 1000 % 2 ^ 32 = intMax := by
  have hmax : intMax = 2147483647 := rfl
  rw [bmod_int, hmax]
  unfold roundedWait
  by_cases hwrap : deadline - time + 999 < 2 ^ 64
  · rw [Nat.mod_eq_of_lt hwrap]
    split_ifs <;> omega
  · have hsmall : (deadline - time + 999) % 2 ^ 64 / 1000 = 0 := by omega
    rw [hsmall]
    split_ifs <;> omega

theorem bmod_int_eq_zero_iff {value : ℕ} :
    Int.bmod value (2 ^ 32) = 0 ↔ value % 2 ^ 32 = 0 := by
  rw [bmod_int]
  split_ifs <;> omega

theorem isTimeout_absoluteTimeout_iff {t : UInt64} (ht : t ≠ -1) {ts : Timespec}
    (hsec : 0 ≤ ts.tvSec.toInt) (hnsec : 0 ≤ ts.tvNsec.toInt) :
    IsTimeout t.toNat ts.microseconds (absoluteTimeout t ts) ↔
      WaitFits t.toNat ts.microseconds := by
  have hdeadline : t.toNat < 2 ^ 64 - 1 := by
    have hne : t.toNat ≠ 2 ^ 64 - 1 := fun h ↦ ht (UInt64.toNat_inj.mp h)
    have hlt := t.toNat_lt
    omega
  rw [isTimeout_iff, absoluteTimeout_eq ht hsec hnsec]
  generalize ts.microseconds = time
  unfold WaitFits
  by_cases hclock : time < 2 ^ 64
  · rw [if_pos hclock, Nat.mod_eq_of_lt hclock]
    by_cases hlate : time < t.toNat
    · rw [if_pos hlate, if_pos hlate, bmod_roundedWait_eq_iff hdeadline hlate]
      exact (or_iff_right (not_le.mpr hlate)).symm
    · rw [if_neg hlate, if_neg hlate]
      exact iff_of_true rfl (.inl (not_lt.mp hlate))
  · have hpast : ¬ time < t.toNat := by omega
    rw [if_neg hclock, if_neg hpast]
    by_cases hlate : time % 2 ^ 64 < t.toNat
    · rw [if_pos hlate, bmod_int_eq_zero_iff]
      exact (or_iff_right (not_le.mpr hlate)).symm
    · rw [if_neg hlate]
      exact iff_of_true rfl (.inl (not_lt.mp hlate))

/-! ### The methods -/

theorem returns_readerGetTimeoutMs (args : Args Unit) {r : ℤ} (hr : 0 ≤ r) (t : UInt64)
    (ts : Timespec) : (readerGetTimeoutMs args r t ts).Returns (.ok (absoluteTimeout t ts)) := by
  have hcall := returns_callLibrary r none
  rw [checked_of_nonneg hr] at hcall
  exact hcall.ok_bind (returns_pure _)

theorem returns_monitorGetTimeoutMs (args : Args Unit) {r : ℤ} (hr : 0 ≤ r) (t : UInt64)
    (ts : Timespec) :
    (Login.monitorGetTimeoutMs args r t ts).Returns (.ok (absoluteTimeout t ts)) := by
  have hcall := returns_callLibrary r none
  rw [checked_of_nonneg hr] at hcall
  exact hcall.ok_bind (returns_pure _)

/-- What `absolute_timeout` computes for a deadline is the timeout, and both methods return the
timeout when the library gives them the deadline. -/
structure PollsExactly (t : UInt64) (ts : Timespec) : Prop where
  absolute : IsTimeout t.toNat ts.microseconds (absoluteTimeout t ts)
  reader : ∀ args r, 0 ≤ r → ∃ timeout, (readerGetTimeoutMs args r t ts).Returns (.ok timeout) ∧
    IsTimeout t.toNat ts.microseconds timeout
  monitor : ∀ args r, 0 ≤ r →
    ∃ timeout, (Login.monitorGetTimeoutMs args r t ts).Returns (.ok timeout) ∧
      IsTimeout t.toNat ts.microseconds timeout

/-- For every deadline but `-1` and every time, the timeout is exact exactly when the wait fits. -/
theorem pollsExactly_iff {t : UInt64} (ht : t ≠ -1) {ts : Timespec}
    (hsec : 0 ≤ ts.tvSec.toInt) (hnsec : 0 ≤ ts.tvNsec.toInt) :
    PollsExactly t ts ↔ WaitFits t.toNat ts.microseconds := by
  rw [← isTimeout_absoluteTimeout_iff ht hsec hnsec]
  constructor
  · intro h
    exact h.absolute
  · intro h
    exact ⟨h, fun args _ hr ↦ ⟨_, returns_readerGetTimeoutMs args hr t ts, h⟩,
      fun args _ hr ↦ ⟨_, returns_monitorGetTimeoutMs args hr t ts, h⟩⟩

/-- A deadline in ten seconds. -/
theorem pollsExactly_in_ten_seconds : PollsExactly 10000000 ⟨0, 0⟩ := by
  have hfits : WaitFits 10000000 0 := by
    rw [WaitFits, if_pos (by decide), intMax]
    omega
  exact (pollsExactly_iff (by decide) (by decide) (by decide)).mpr hfits

/-- A deadline in `2 ^ 32 - 1` milliseconds, some fifty days, is waited for without an end. -/
theorem not_pollsExactly_in_fifty_days : ¬ PollsExactly 4294967295000 ⟨0, 0⟩ := by
  intro h
  have hinfinite : absoluteTimeout 4294967295000 ⟨0, 0⟩ = -1 := by decide
  have hnonneg := h.absolute.nonneg
  rw [hinfinite] at hnonneg
  omega

end PythonSystemd.Journal
