import PythonSystemd.Journal.Iteration

/-!
# Skipping entries

`_next` and `_previous` of the reader, as they are called from Python, and `get_previous`. A skip is
a number of Python, which the argument parser takes when it fits in 64 bits. `_next` has four calls
of the library to choose from, whose counts are unsigned, and `_previous` calls `_next` with the
negative of its skip.

The least number of 64 bits has no negative. `skipsSymmetrically_iff` says that skipping is
symmetric for every other skip.
-/

set_option autoImplicit false
set_option relaxedAutoImplicit false

namespace PythonSystemd.Journal

open Library Library.CheckedMemory Library.HandleTrace Library.HandleProgram Program Python

/-! ### Calls from Python -/

/-- The argument parser on a number for the format `L`. -/
def parseLongLong (value : ℤ) : Except PyException Int64 :=
  if value < -2 ^ 63 ∨ 2 ^ 63 ≤ value then .error (.overflowError "int too big to convert")
  else .ok (Int64.ofInt value)

/-- The arguments of a method that is called with a skip. -/
def skipArgs (skip : ℤ) : Args (Option Int64) :=
  .tuple ((parseLongLong skip).map some)

/-- `reader._next (skip)`. -/
def callNext (skip : ℤ) (move : MoveCall → ℤ) : Program PyException Bool :=
  readerNext (skipArgs skip) move

/-- `reader._previous (skip)`. -/
def callPrevious (skip : ℤ) (move : MoveCall → ℤ) : Program PyException Bool :=
  readerPrevious (skipArgs skip) move

variable {ν : Type}

/-- `Reader.get_next` with a number of Python, which `_next` parses before anything else happens. -/
def callGetNext (converters : Converters ν) (skip : ℤ) (move : MoveCall → ℤ)
    (replies : EntryReplies) : Program PyException (ConvertedEntry ν) := do
  let skip ← ofExcept (parseLongLong skip)
  getNext converters skip move replies

/-- `Reader.get_previous`. -/
def getPrevious (converters : Converters ν) (skip : ℤ) (move : MoveCall → ℤ)
    (replies : EntryReplies) : Program PyException (ConvertedEntry ν) :=
  callGetNext converters (-skip) move replies

/-! ### How far a call moves -/

/-- The entries that a call of the library moves by, forward counted as positive. -/
def MoveCall.displacement : MoveCall → ℤ
  | .next => 1
  | .previous => -1
  | .nextSkip skip => skip.toNat
  | .previousSkip skip => -skip.toNat

/-- What `_next` returns when it makes the call. -/
def moveResult (call : MoveCall) (move : MoveCall → ℤ) : Except PyException Bool :=
  checked (move call) none >>= fun _ ↦ .ok (decide (move call ≠ 0))

theorem toNat_toUInt64 (x : Int64) : (x.toUInt64.toNat : ℤ) = x.toInt % 2 ^ 64 := by
  have hbmod : x.toInt = Int.bmod x.toUInt64.toNat (2 ^ 64) :=
    BitVec.toInt_eq_toNat_bmod x.toBitVec
  have hlt := x.toUInt64.toNat_lt
  rw [Int.bmod_def] at hbmod
  split_ifs at hbmod <;> omega

/-- The call that `_next` makes moves by the skip, the least one included. -/
theorem exists_moveCall {skip : Int64} (hne : skip ≠ 0) :
    ∃ call, moveCall skip = some call ∧ call.displacement = skip.toInt := by
  have hlow := skip.le_toInt
  have hhigh := skip.toInt_lt
  have hzero : skip.toInt ≠ 0 := fun h ↦ hne (Int64.toInt_inj.mp h)
  unfold moveCall
  by_cases hone : skip = 1
  · exact ⟨.next, if_pos hone, by rw [hone]; rfl⟩
  · rw [if_neg hone]
    have hone : skip.toInt ≠ 1 := fun h ↦ hone (Int64.toInt_inj.mp h)
    by_cases hminus : skip = -1
    · exact ⟨.previous, if_pos hminus, by rw [hminus]; rfl⟩
    · rw [if_neg hminus]
      have hminus : skip.toInt ≠ -1 := fun h ↦ hminus (Int64.toInt_inj.mp h)
      by_cases hpos : skip > 1
      · have hpos' : 1 < skip.toInt := Int64.lt_iff_toInt_lt.mp hpos
        refine ⟨_, if_pos hpos, ?_⟩
        show (skip.toUInt64.toNat : ℤ) = skip.toInt
        rw [toNat_toUInt64]
        omega
      · have hnot : ¬ 1 < skip.toInt := fun h ↦ hpos (Int64.lt_iff_toInt_lt.mpr h)
        have hneg : skip.toInt < -1 := by omega
        rw [if_neg hpos]
        refine ⟨_, if_pos (Int64.lt_iff_toInt_lt.mpr hneg), ?_⟩
        show -((-skip).toUInt64.toNat : ℤ) = skip.toInt
        rw [toNat_toUInt64, Int64.toInt_neg, Int.bmod_def]
        split_ifs <;> omega

theorem parseLongLong_toInt (skip : Int64) : parseLongLong skip.toInt = .ok skip := by
  have hlow := skip.le_toInt
  have hhigh := skip.toInt_lt
  rw [parseLongLong, if_neg (by omega), Int64.ofInt_toInt]

/-- The negative of a number in Python, where it fits in 64 bits, is that of C. -/
theorem parseLongLong_neg {skip : Int64} (h : skip ≠ Int64.minValue) :
    parseLongLong (-skip.toInt) = .ok (-skip) := by
  have hlow := skip.le_toInt
  have hhigh := skip.toInt_lt
  have hmin : skip.toInt ≠ -2 ^ 63 := fun heq ↦ h (Int64.toInt_inj.mp heq)
  rw [parseLongLong, if_neg (by omega), Int64.ofInt_neg, Int64.ofInt_toInt]

theorem parseLongLong_neg_minValue :
    parseLongLong (-Int64.minValue.toInt) = .error (.overflowError "int too big to convert") :=
  rfl

theorem toInt_neg_of_ne {skip : Int64} (h : skip ≠ Int64.minValue) :
    (-skip).toInt = -skip.toInt := by
  have hlow := skip.le_toInt
  have hhigh := skip.toInt_lt
  have hmin : skip.toInt ≠ -2 ^ 63 := fun heq ↦ h (Int64.toInt_inj.mp heq)
  rw [Int64.toInt_neg]
  exact Int.bmod_eq_of_le (by omega) (by omega)

theorem neg_ne_zero {skip : Int64} (hne : skip ≠ 0) : -skip ≠ 0 :=
  fun h ↦ hne (Int64.neg_inj.mp (h.trans Int64.neg_zero.symm))

theorem neg_ne_minValue {skip : Int64} (h : skip ≠ Int64.minValue) : -skip ≠ Int64.minValue := by
  have hmin : -Int64.minValue = Int64.minValue := rfl
  intro heq
  exact h (Int64.neg_inj.mp (heq.trans hmin.symm))

/-! ### Symmetry -/

/-- Skipping by a number: each method moves by exactly as many entries as it is asked to, in the
direction it is asked to, `_previous` and `get_previous` do what `_next` and `get_next` do with the
opposite sign, and no number is negated in C that has no negative. -/
structure SkipsSymmetrically (skip : Int64) : Prop where
  next : ∃ call : MoveCall, call.displacement = skip.toInt ∧
    ∀ move, (callNext skip.toInt move).Returns (moveResult call move)
  previous : ∀ move, callPrevious skip.toInt move = callNext (-skip.toInt) move
  previousMoves : ∃ call : MoveCall, call.displacement = -skip.toInt ∧
    ∀ move, (callPrevious skip.toInt move).Returns (moveResult call move)
  entry : ∀ (ν : Type) (converters : Converters ν) move replies,
    getPrevious converters skip.toInt move replies =
      callGetNext converters (-skip.toInt) move replies
  entryMoves : ∃ call : MoveCall, call.displacement = -skip.toInt ∧
    ∀ (ν : Type) (converters : Converters ν) move replies,
      (getPrevious converters skip.toInt move replies).Returns
        (nextResult converters (move call) replies)
  nextNegates : skip < -1 → skip ≠ Int64.minValue
  previousNegates : skip ≠ Int64.minValue
  previousNextNegates : -skip < -1 → -skip ≠ Int64.minValue

theorem returns_callNext {skip : Int64} {call : MoveCall} (hcall : moveCall skip = some call)
    (move : MoveCall → ℤ) : (callNext skip.toInt move).Returns (moveResult call move) := by
  unfold callNext skipArgs
  rw [parseLongLong_toInt]
  exact returns_readerNext hcall move

/-- `_previous` calls `_next` with the negative that C computes. -/
theorem callPrevious_eq (skip : Int64) (move : MoveCall → ℤ) :
    callPrevious skip.toInt move = readerNext (.tuple (.ok (some (-skip)))) move := by
  unfold callPrevious skipArgs
  rw [parseLongLong_toInt]
  rfl

theorem callPrevious_eq_callNext {skip : Int64} (h : skip ≠ Int64.minValue)
    (move : MoveCall → ℤ) : callPrevious skip.toInt move = callNext (-skip.toInt) move := by
  rw [callPrevious_eq, callNext, skipArgs, parseLongLong_neg h]
  rfl

theorem returns_getPrevious {ν : Type} {skip : Int64} (h : skip ≠ Int64.minValue)
    {call : MoveCall} (hcall : moveCall (-skip) = some call) (converters : Converters ν)
    (move : MoveCall → ℤ) (replies : EntryReplies) :
    (getPrevious converters skip.toInt move replies).Returns
      (nextResult converters (move call) replies) := by
  unfold getPrevious callGetNext
  rw [parseLongLong_neg h]
  exact returns_getNext_of_moveCall converters hcall move replies

/-- Skipping is symmetric exactly for the skips whose negative is a number of 64 bits. -/
theorem skipsSymmetrically_iff {skip : Int64} (hne : skip ≠ 0) :
    SkipsSymmetrically skip ↔ skip ≠ Int64.minValue := by
  constructor
  · intro h
    exact h.previousNegates
  · intro h
    obtain ⟨call, hcall, hdisplacement⟩ := exists_moveCall hne
    obtain ⟨back, hback, hbackDisplacement⟩ := exists_moveCall (neg_ne_zero hne)
    rw [toInt_neg_of_ne h] at hbackDisplacement
    refine ⟨⟨call, hdisplacement, returns_callNext hcall⟩, callPrevious_eq_callNext h,
      ⟨back, hbackDisplacement, fun move ↦ ?_⟩, fun _ _ _ _ ↦ rfl,
      ⟨back, hbackDisplacement, fun _ converters ↦ returns_getPrevious h hback converters⟩,
      fun _ ↦ h, h, fun _ ↦ neg_ne_minValue h⟩
    rw [callPrevious_eq]
    exact returns_readerNext hback move

theorem skipsSymmetrically_five : SkipsSymmetrically 5 :=
  (skipsSymmetrically_iff (by decide)).mpr (by decide)

/-- For the least skip `_previous` moves backward, and `_next` with the opposite sign raises. -/
theorem not_skipsSymmetrically_minValue : ¬ SkipsSymmetrically Int64.minValue := by
  intro h
  have hcall : moveCall (-Int64.minValue) = some (.previousSkip 9223372036854775808) := by decide
  have hprevious := returns_readerNext hcall fun _ ↦ 1
  rw [← callPrevious_eq, h.previous, callNext, skipArgs, parseLongLong_neg_minValue] at hprevious
  have hraise : (readerNext (.tuple (.error (.overflowError "int too big to convert")))
      fun _ ↦ 1).Returns (.error (.overflowError "int too big to convert")) :=
    fun slot ↦ ⟨slot, rfl⟩
  cases hprevious.unique hraise

end PythonSystemd.Journal
