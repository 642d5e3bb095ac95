import PythonSystemd.Fsprg.Python
import PythonSystemd.Python.Pyutil

/-!
# Times in microseconds

`now`, `timespec_store`, `timespec_load` and `ppoll_usec` of `util.c`, for a `time_t` and a `long`
of 64 bits. A time in microseconds is a number of 64 bits whose largest value stands for infinity;
a `timespec` that stands for infinity has `-1` in both fields.

`setup_key` numbers its intervals by `now`, and `ppoll_usec` hands its argument to the kernel as a
`timespec`. `time_conversion_exact` says that neither wraps around.
-/

set_option autoImplicit false
set_option relaxedAutoImplicit false

namespace PythonSystemd.Util

open Library.CheckedMemory Python

def usecInfinity : UInt64 := UInt64.ofNat (2 ^ 64 - 1)

def usecPerSec : UInt64 := 1000000

def usecPerMinute : UInt64 := 60 * usecPerSec

def nsecPerUsec : UInt64 := 1000

def timeTMax : Int64 := Int64.ofNat (2 ^ 63 - 1)

/-! ### The functions -/

def timespecStore (u : UInt64) : Timespec :=
  if u = usecInfinity ∨ timeTMax.toUInt64 ≤ u / usecPerSec then { tvSec := -1, tvNsec := -1 }
  else
    { tvSec := (u / usecPerSec).toInt64
      tvNsec := (u % usecPerSec * nsecPerUsec).toInt64 }

/-- The most seconds that `timespec_load` takes next to the nanoseconds. -/
def maxSeconds (ts : Timespec) : UInt64 :=
  (usecInfinity - ts.tvNsec.toUInt64 / nsecPerUsec) / usecPerSec

def timespecLoad (ts : Timespec) : UInt64 :=
  if ts.tvSec < 0 ∨ ts.tvNsec < 0 then usecInfinity
  else if ts.tvSec.toUInt64 > maxSeconds ts then usecInfinity
  else ts.tvSec.toUInt64 * usecPerSec + ts.tvNsec.toUInt64 / nsecPerUsec

/-- `now`, for what `clock_gettime` has stored. -/
def now (ts : Timespec) : UInt64 :=
  timespecLoad ts

/-- A descriptor to wait for. -/
structure PollFd where
  fd : Int32
  events : UInt16
  revents : UInt16

def EBADF : ℤ := 9

def POLLNVAL : UInt16 := 0x20

/-- The loop of `ppoll_usec` over the descriptors, with `n` events to go: whether one of them is
not open. -/
def anyInvalid : (n : ℕ) → (fds : List PollFd) → Bool
  | 0, _ => false
  | _, [] => false
  | n + 1, fd :: fds =>
    if fd.revents = 0 then anyInvalid (n + 1) fds
    else if fd.revents &&& POLLNVAL ≠ 0 then true
    else anyInvalid n fds

/-- The timeout that `ppoll_usec` passes on; none stands for a null pointer, with which `ppoll`
waits without an end. -/
def ppollTimeout (timeout : UInt64) : Option Timespec :=
  if timeout = usecInfinity then none else some (timespecStore timeout)

/-- What `ppoll_usec` makes of the result of `ppoll`, the negative of `errno` or a number of events,
and of the descriptors with their events. -/
def pollResult : ℤ × List PollFd → ℤ
  | (r, fds) =>
    if r ≤ 0 then r
    else if anyInvalid r.toNat fds then -EBADF
    else r

def ppollUsec (fds : List PollFd) (timeout : UInt64)
    (ppoll : List PollFd → Option Timespec → ℤ × List PollFd) : ℤ :=
  if fds.length = 0 then 0 else pollResult (ppoll fds (ppollTimeout timeout))

/-- `DEFAULT_FSS_INTERVAL_USEC`. -/
def defaultFssIntervalUsec : UInt64 := 15 * usecPerMinute

/-- The number of the interval in `setup_key`, for what the real-time clock shows. -/
def setupEpoch (ts : Timespec) : UInt64 :=
  now ts / defaultFssIntervalUsec

/-- `setup_key` at the time that the clock shows. -/
def setupKeyAt (gcrypt : Fsprg.Gcrypt) (stack : Fsprg.SetupStack) (seed : List UInt8)
    (ts : Timespec) : Checked (List UInt8 × List Fsprg.PyObject) :=
  Fsprg.setupKey gcrypt stack seed (setupEpoch ts) defaultFssIntervalUsec

/-! ### Loading -/

theorem toNat_usecInfinity : usecInfinity.toNat = 2 ^ 64 - 1 := rfl

theorem toNat_usecPerSec : usecPerSec.toNat = 1000000 := rfl

theorem toNat_nsecPerUsec : nsecPerUsec.toNat = 1000 := rfl

section Nonneg

variable {ts : Timespec} (hsec : 0 ≤ ts.tvSec.toInt) (hnsec : 0 ≤ ts.tvNsec.toInt)

include hnsec in
theorem toNat_micro : (ts.tvNsec.toUInt64 / nsecPerUsec).toNat = ts.tvNsec.toInt.toNat / 1000 := by
  rw [UInt64.toNat_div, toNat_toUInt64_of_nonneg hnsec, toNat_nsecPerUsec]

include hnsec in
/-- The difference in the guard does not wrap around. -/
theorem toNat_room : (usecInfinity - ts.tvNsec.toUInt64 / nsecPerUsec).toNat =
    2 ^ 64 - 1 - ts.tvNsec.toInt.toNat / 1000 := by
  have hbound := ts.tvNsec.toInt_lt
  have hmicro := toNat_micro hnsec
  have hle : ts.tvNsec.toUInt64 / nsecPerUsec ≤ usecInfinity := by
    rw [UInt64.le_iff_toNat_le, hmicro, toNat_usecInfinity]
    omega
  rw [UInt64.toNat_sub_of_le _ _ hle, hmicro, toNat_usecInfinity]

include hsec hnsec in
/-- The guard refuses exactly what does not fit in 64 bits. -/
theorem toUInt64_le_maxSeconds_iff :
    ts.tvSec.toUInt64 ≤ maxSeconds ts ↔ ts.microseconds < 2 ^ 64 := by
  have hbound := ts.tvNsec.toInt_lt
  rw [UInt64.le_iff_toNat_le, toNat_toUInt64_of_nonneg hsec]
  unfold maxSeconds Timespec.microseconds
  rw [UInt64.toNat_div, toNat_room hnsec, toNat_usecPerSec, Nat.le_div_iff_mul_le (by omega)]
  omega

/-- What loading a time is to do, at each of its steps. -/
structure LoadsExactly (ts : Timespec) : Prop where
  value : (timespecLoad ts).toNat =
    if ts.microseconds < 2 ^ 64 then ts.microseconds else usecInfinity.toNat
  difference : (usecInfinity - ts.tvNsec.toUInt64 / nsecPerUsec).toNat =
    2 ^ 64 - 1 - ts.tvNsec.toInt.toNat / 1000
  product : ts.tvSec.toUInt64 ≤ maxSeconds ts →
    (ts.tvSec.toUInt64 * usecPerSec).toNat = ts.tvSec.toInt.toNat * 1000000
  sum : ts.tvSec.toUInt64 ≤ maxSeconds ts →
    (ts.tvSec.toUInt64 * usecPerSec + ts.tvNsec.toUInt64 / nsecPerUsec).toNat = ts.microseconds

include hsec in
theorem toNat_product (h : ts.microseconds < 2 ^ 64) :
    (ts.tvSec.toUInt64 * usecPerSec).toNat = ts.tvSec.toInt.toNat * 1000000 := by
  have hfits : ts.tvSec.toInt.toNat * 1000000 < 2 ^ 64 := lt_of_le_of_lt (Nat.le_add_right _ _) h
  rw [UInt64.toNat_mul, toNat_toUInt64_of_nonneg hsec, toNat_usecPerSec]
  exact Nat.mod_eq_of_lt hfits

include hsec hnsec in
theorem toNat_sum (h : ts.microseconds < 2 ^ 64) :
    (ts.tvSec.toUInt64 * usecPerSec + ts.tvNsec.toUInt64 / nsecPerUsec).toNat =
      ts.microseconds := by
  rw [UInt64.toNat_add, toNat_product hsec h, toNat_micro hnsec]
  exact Nat.mod_eq_of_lt h

include hsec hnsec in
theorem timespecLoad_of_nonneg :
    timespecLoad ts = if ts.tvSec.toUInt64 ≤ maxSeconds ts then
      ts.tvSec.toUInt64 * usecPerSec + ts.tvNsec.toUInt64 / nsecPerUsec else usecInfinity := by
  have hfinite : ¬ (ts.tvSec < 0 ∨ ts.tvNsec < 0) := by
    rintro (h | h)
    · exact not_lt.mpr hsec (Int64.lt_iff_toInt_lt.mp h)
    · exact not_lt.mpr hnsec (Int64.lt_iff_toInt_lt.mp h)
  unfold timespecLoad
  rw [if_neg hfinite]
  by_cases hle : ts.tvSec.toUInt64 ≤ maxSeconds ts
  · rw [if_pos hle, if_neg (UInt64.not_lt.mpr hle)]
  · rw [if_neg hle, if_pos (UInt64.not_le.mp hle)]

include hsec hnsec in
theorem loadsExactly : LoadsExactly ts := by
  have hguard := toUInt64_le_maxSeconds_iff hsec hnsec
  refine ⟨?_, toNat_room hnsec, fun h ↦ toNat_product hsec (hguard.mp h),
    fun h ↦ toNat_sum hsec hnsec (hguard.mp h)⟩
  rw [timespecLoad_of_nonneg hsec hnsec]
  by_cases hfits : ts.microseconds < 2 ^ 64
  · rw [if_pos (hguard.mpr hfits), toNat_sum hsec hnsec hfits, if_pos hfits]
  · rw [if_neg fun h ↦ hfits (hguard.mp h), if_neg hfits]

end Nonneg

/-! ### Storing -/

/-- The timeout for `ppoll`: none for infinity, and else a time with the microseconds asked for and
less than a second of nanoseconds. -/
def IsPollTimeout (u : UInt64) : Option Timespec → Prop
  | none => u = usecInfinity
  | some ts => u ≠ usecInfinity ∧ ts.microseconds = u.toNat ∧ 0 ≤ ts.tvSec.toInt ∧
      0 ≤ ts.tvNsec.toInt ∧ ts.tvNsec.toInt < 1000000000

theorem toInt_toInt64_of_lt {value : UInt64} (h : value.toNat < 2 ^ 63) :
    value.toInt64.toInt = value.toNat := by
  have hbmod : value.toInt64.toInt = Int.bmod value.toNat (2 ^ 64) :=
    BitVec.toInt_eq_toNat_bmod value.toBitVec
  rw [hbmod]
  exact Int.bmod_eq_of_le (by omega) (by omega)

/-- A time that is not infinite never reaches the largest `time_t`. -/
theorem timespecStore_of_ne {u : UInt64} (h : u ≠ usecInfinity) :
    timespecStore u =
      { tvSec := (u / usecPerSec).toInt64
        tvNsec := (u % usecPerSec * nsecPerUsec).toInt64 } := by
  have hsmall : ¬ timeTMax.toUInt64 ≤ u / usecPerSec := by
    have hmax : timeTMax.toUInt64.toNat = 2 ^ 63 - 1 := rfl
    have hbound := u.toNat_lt
    rw [UInt64.le_iff_toNat_le, UInt64.toNat_div, toNat_usecPerSec, hmax]
    omega
  unfold timespecStore
  rw [if_neg fun hor ↦ hor.elim h hsmall]

theorem isPollTimeout_timespecStore {u : UInt64} (h : u ≠ usecInfinity) :
    IsPollTimeout u (some (timespecStore u)) := by
  have hbound := u.toNat_lt
  have hsec : (u / usecPerSec).toNat = u.toNat / 1000000 := by
    rw [UInt64.toNat_div, toNat_usecPerSec]
  have hnsec : (u % usecPerSec * nsecPerUsec).toNat = u.toNat % 1000000 * 1000 := by
    rw [UInt64.toNat_mul, UInt64.toNat_mod, toNat_usecPerSec, toNat_nsecPerUsec]
    omega
  have hsecInt : (u / usecPerSec).toInt64.toInt = (u.toNat / 1000000 : ℕ) := by
    rw [toInt_toInt64_of_lt (by omega), hsec]
  have hnsecInt :
      (u % usecPerSec * nsecPerUsec).toInt64.toInt = (u.toNat % 1000000 * 1000 : ℕ) := by
    rw [toInt_toInt64_of_lt (by omega), hnsec]
  rw [timespecStore_of_ne h]
  refine ⟨h, ?_, by rw [hsecInt]; omega, by rw [hnsecInt]; omega, by rw [hnsecInt]; omega⟩
  unfold Timespec.microseconds
  rw [hsecInt, hnsecInt]
  omega

theorem timespecLoad_timespecStore (u : UInt64) : timespecLoad (timespecStore u) = u := by
  by_cases h : u = usecInfinity
  · obtain rfl := h
    decide
  · obtain ⟨-, hmicro, hsec, hnsec, -⟩ := isPollTimeout_timespecStore h
    apply UInt64.toNat_inj.mp
    rw [(loadsExactly hsec hnsec).value, hmicro, if_pos u.toNat_lt]

theorem isPollTimeout_ppollTimeout (u : UInt64) : IsPollTimeout u (ppollTimeout u) := by
  unfold ppollTimeout
  split_ifs with h
  · exact h
  · exact isPollTimeout_timespecStore h

/-! ### The uses -/

/-- The number of the interval is exact, up to where the clock saturates. -/
theorem toNat_setupEpoch {ts : Timespec} (hsec : 0 ≤ ts.tvSec.toInt)
    (hnsec : 0 ≤ ts.tvNsec.toInt) :
    (setupEpoch ts).toNat = min ts.microseconds (2 ^ 64 - 1) / 900000000 := by
  have hinterval : defaultFssIntervalUsec.toNat = 900000000 := rfl
  unfold setupEpoch now
  rw [UInt64.toNat_div, hinterval, (loadsExactly hsec hnsec).value, toNat_usecInfinity]
  split_ifs <;> omega

/-- Loading and storing are exact: `timespec_load` saturates and never wraps around, it undoes
`timespec_store`, `setup_key` prints the exact number of the interval, and `ppoll_usec` hands the
exact timeout to `ppoll`. -/
theorem time_conversion_exact {ts : Timespec} (hsec : 0 ≤ ts.tvSec.toInt)
    (hnsec : 0 ≤ ts.tvNsec.toInt) (u : UInt64) :
    LoadsExactly ts ∧
    timespecLoad (timespecStore u) = u ∧
    (∃ epoch, epoch.toNat = min ts.microseconds (2 ^ 64 - 1) / 900000000 ∧
      ∀ gcrypt stack seed, setupKeyAt gcrypt stack seed ts =
        Fsprg.setupKey gcrypt stack seed epoch defaultFssIntervalUsec) ∧
    ∃ timeout, IsPollTimeout u timeout ∧ ∀ fds ≠ [], ∀ ppoll,
      ppollUsec fds u ppoll = pollResult (ppoll fds timeout) := by
  refine ⟨loadsExactly hsec hnsec, timespecLoad_timespecStore u,
    ⟨setupEpoch ts, toNat_setupEpoch hsec hnsec, fun _ _ _ ↦ rfl⟩,
    ppollTimeout u, isPollTimeout_ppollTimeout u, ?_⟩
  intro fds hfds ppoll
  unfold ppollUsec
  rw [if_neg fun h ↦ hfds (List.length_eq_zero_iff.mp h)]

/-- A clock at the last microsecond that fits in 64 bits, and the last timeout that is finite. -/
theorem time_conversion_exact_at_the_end :
    LoadsExactly ⟨18446744073709, 551615999⟩ ∧
    timespecLoad (timespecStore 18446744073709551614) = 18446744073709551614 ∧
    (∃ epoch, epoch.toNat =
        min (Timespec.microseconds ⟨18446744073709, 551615999⟩) (2 ^ 64 - 1) / 900000000 ∧
      ∀ gcrypt stack seed, setupKeyAt gcrypt stack seed ⟨18446744073709, 551615999⟩ =
        Fsprg.setupKey gcrypt stack seed epoch defaultFssIntervalUsec) ∧
    ∃ timeout, IsPollTimeout 18446744073709551614 timeout ∧ ∀ fds ≠ [], ∀ ppoll,
      ppollUsec fds 18446744073709551614 ppoll = pollResult (ppoll fds timeout) :=
  time_conversion_exact (by decide) (by decide) 18446744073709551614

end PythonSystemd.Util
