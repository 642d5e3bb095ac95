import Mathlib.Data.List.DropRight
import Mathlib.Data.Nat.Digits.Defs
import Mathlib.Data.PNat.Basic
import PythonSystemd.Library.BigEndian
import PythonSystemd.Library.BinaryFloat
import PythonSystemd.Python.Pyutil

/-!
# Integers, durations and UUIDs

What the converters of journal fields use of Python: `int` of bytes and of text, the division of
integers, `datetime.timedelta` and `uuid.UUID`. The results come with the exceptions that can stand
in their place. `int` and `UUID` only raise a `ValueError`; a division and a `timedelta` raise an
`OverflowError` where the result is too large, and nothing else.
-/

set_option autoImplicit false
set_option relaxedAutoImplicit false

namespace PythonSystemd.Python

open Library

/-! ### Integers -/

/-- An instance of `ValueError` itself. -/
def PlainValueError (exception : PyException) : Prop :=
  ∃ message, exception = .valueError message

/-- `Py_ISSPACE`. -/
def isAsciiSpace (byte : UInt8) : Bool :=
  byte == 32 || (9 ≤ byte && byte ≤ 13)

def underscore : UInt8 := 95

/-- The value of a digit, in bases up to 36. -/
def digitValue (byte : UInt8) : Option ℕ :=
  if 48 ≤ byte ∧ byte ≤ 57 then some (byte.toNat - 48)
  else if 97 ≤ byte ∧ byte ≤ 122 then some (byte.toNat - 87)
  else if 65 ≤ byte ∧ byte ≤ 90 then some (byte.toNat - 55)
  else none

/-- The digits of a literal. Single underscores may stand between them. -/
def digitsOf (base : ℕ) : List UInt8 → Option (List ℕ)
  | [] => none
  | [byte] => do
    let digit ← (digitValue byte).filter (· < base)
    return [digit]
  | byte :: next :: rest => do
    let digit ← (digitValue byte).filter (· < base)
    let digits ← if next = underscore then digitsOf base rest else digitsOf base (next :: rest)
    return digit :: digits

/-- The sign in front of a literal, and what follows it. -/
def splitSign : List UInt8 → Bool × List UInt8
  | [] => (false, [])
  | byte :: rest =>
    if byte = 43 then (false, rest) else if byte = 45 then (true, rest) else (false, byte :: rest)

/-- A literal in base 16 may begin with `0x` and an underscore. -/
def dropHexPrefix : List UInt8 → List UInt8
  | zero :: letter :: rest =>
    if zero = 48 ∧ (letter = 120 ∨ letter = 88) then
      match rest with
      | [] => []
      | byte :: after => if byte = underscore then after else byte :: after
    else zero :: letter :: rest
  | bytes => bytes

/-- `int(bytes, base)` for the bases 10 and 16. Where `digitLimit` is not zero, a literal in base 10
may not have more digits. -/
def intOfBytes (base digitLimit : ℕ) (bytes : List UInt8) : Except PyException ℤ :=
  let (negative, literal) :=
    splitSign ((bytes.dropWhile isAsciiSpace).rdropWhile isAsciiSpace)
  match digitsOf base (if base = 16 then dropHexPrefix literal else literal) with
  | none => .error (.valueError "invalid literal for int()")
  | some digits =>
    if base = 10 ∧ digitLimit ≠ 0 ∧ digitLimit < digits.length then
      .error (.valueError "Exceeds the limit for integer string conversion")
    else
      let magnitude := Nat.ofDigits base digits.reverse
      .ok (if negative then -magnitude else magnitude)

/-- What `int` needs to know of the characters outside ASCII. -/
structure UnicodeDatabase where
  isSpace : CodePoint → Bool
  decimal : CodePoint → Option (Fin 10)

/-- `_PyUnicode_TransformDecimalAndSpaceToASCII`, for a character. -/
def transformToAscii (unicode : UnicodeDatabase) (codePoint : CodePoint) : UInt8 :=
  if codePoint.val < 128 then codePoint.val.toUInt8
  else if unicode.isSpace codePoint then 32
  else
    match unicode.decimal codePoint with
    | some digit => 48 + digit.val.toUInt8
    | none => 63

/-- `int(text, base)`. -/
def intOfText (unicode : UnicodeDatabase) (base digitLimit : ℕ) (text : Text) :
    Except PyException ℤ :=
  intOfBytes base digitLimit (text.map (transformToAscii unicode))

theorem raisesOnly_intOfBytes (base digitLimit : ℕ) (bytes : List UInt8) :
    RaisesOnly PlainValueError (intOfBytes base digitLimit bytes) := by
  unfold intOfBytes
  split
  split
  · exact raisesOnly_error_iff.mpr ⟨_, rfl⟩
  · split
    · exact raisesOnly_error_iff.mpr ⟨_, rfl⟩
    · exact raisesOnly_ok _

/-! ### Division -/

def binary64 : FloatFormat where
  precision := 53
  minExponent := -1074
  maxExponent := 1024
  precision_pos := by decide
  minExponent_add_le := by decide

/-- `numerator / denominator` for integers. -/
def trueDivide (numerator : ℤ) (denominator : ℕ+) : Except PyException ℚ :=
  match binary64.round (numerator / denominator) with
  | none => .error (.overflowError "integer division result too large for a float")
  | some value => .ok value

theorem raisesOnly_trueDivide_iff {allowed : PyException → Prop}
    (hoverflow : ∀ message, ¬ allowed (.overflowError message)) (numerator : ℤ)
    (denominator : ℕ+) :
    RaisesOnly allowed (trueDivide numerator denominator) ↔
      |(numerator / denominator : ℚ)| < binary64.overflowBound := by
  rw [← not_le, ← FloatFormat.round_eq_none_iff]
  unfold trueDivide
  cases binary64.round (numerator / denominator) with
  | none =>
    rw [raisesOnly_error_iff]
    exact iff_of_false (hoverflow _) (not_not_intro rfl)
  | some value => exact iff_of_true (raisesOnly_ok value) (Option.some_ne_none value)

theorem trueDivide_eq_ok_iff {numerator : ℤ} {denominator : ℕ+} {value : ℚ} :
    trueDivide numerator denominator = .ok value ↔
      binary64.round (numerator / denominator) = some value := by
  unfold trueDivide
  cases binary64.round (numerator / denominator) with
  | none => exact iff_of_false (fun h ↦ by cases h) (fun h ↦ by cases h)
  | some rounded =>
    exact ⟨fun h ↦ congrArg some (Except.ok.inj h), fun h ↦ congrArg Except.ok (Option.some.inj h)⟩

/-! ### Durations -/

def microsecondsPerDay : ℤ := 24 * 60 * 60 * 1000000

def maxDays : ℤ := 999999999

/-- The numbers of microseconds that are a `timedelta`. -/
def DaysInRange (microseconds : ℤ) : Prop :=
  -maxDays ≤ microseconds / microsecondsPerDay ∧ microseconds / microsecondsPerDay ≤ maxDays

instance : DecidablePred DaysInRange := fun _ ↦ inferInstanceAs (Decidable (_ ∧ _))

/-- A `datetime.timedelta`. Its days, seconds and microseconds are those of a number of
microseconds. -/
structure Timedelta where
  microseconds : ℤ
  daysInRange : DaysInRange microseconds

/-- `datetime.timedelta(microseconds=...)`. -/
def timedelta (microseconds : ℤ) : Except PyException Timedelta :=
  if h : DaysInRange microseconds then .ok ⟨microseconds, h⟩
  else .error (.overflowError "days must have magnitude <= 999999999")

theorem raisesOnly_timedelta_iff {allowed : PyException → Prop}
    (hoverflow : ∀ message, ¬ allowed (.overflowError message)) (microseconds : ℤ) :
    RaisesOnly allowed (timedelta microseconds) ↔ DaysInRange microseconds := by
  unfold timedelta
  split_ifs with h
  · exact iff_of_true (raisesOnly_ok _) h
  · rw [raisesOnly_error_iff]
    exact iff_of_false (hoverflow _) h

/-! ### UUIDs -/

/-- A `uuid.UUID` is a 128-bit number. -/
abbrev UUID := Fin (2 ^ 128)

/-- `uuid.UUID(int=...)`. -/
def uuidOfInt (int : ℤ) : Except PyException UUID :=
  if h : 0 ≤ int ∧ int < 2 ^ 128 then .ok ⟨int.toNat, by omega⟩
  else .error (.valueError "int is out of range (need a 128-bit value)")

/-- `uuid.UUID(bytes=...)`. -/
def uuidOfBytes (bytes : List UInt8) : Except PyException UUID :=
  if bytes.length ≠ 16 then .error (.valueError "bytes is not a 16-char string")
  else uuidOfInt (BigEndian.ofBytes bytes)

/-- `text.replace(pattern, '')`, where `skip` characters belong to a pattern that has been found. -/
def removeAll (pattern : Text) : (skip : ℕ) → Text → Text
  | _, [] => []
  | skip + 1, _ :: rest => removeAll pattern skip rest
  | 0, character :: rest =>
    if pattern.isPrefixOf (character :: rest) then removeAll pattern (pattern.length - 1) rest
    else character :: removeAll pattern 0 rest

/-- `text.strip(characters)`. -/
def strip (characters text : Text) : Text :=
  (text.dropWhile fun character ↦ characters.contains character).rdropWhile
    fun character ↦ characters.contains character

/-- `uuid.UUID(text)`. -/
def uuidOfText (unicode : UnicodeDatabase) (hex : Text) : Except PyException UUID :=
  let hex := removeAll (.ofString "uuid:") 0 (removeAll (.ofString "urn:") 0 hex)
  let hex := removeAll (.ofString "-") 0 (strip (.ofString "\x7b\x7d") hex)
  if hex.length ≠ 32 then .error (.valueError "badly formed hexadecimal UUID string")
  else do
    let int ← intOfText unicode 16 0 hex
    uuidOfInt int

theorem raisesOnly_uuidOfInt (int : ℤ) : RaisesOnly PlainValueError (uuidOfInt int) := by
  unfold uuidOfInt
  split_ifs
  · exact raisesOnly_ok _
  · exact raisesOnly_error_iff.mpr ⟨_, rfl⟩

theorem raisesOnly_uuidOfBytes (bytes : List UInt8) :
    RaisesOnly PlainValueError (uuidOfBytes bytes) := by
  unfold uuidOfBytes
  split_ifs
  · exact raisesOnly_error_iff.mpr ⟨_, rfl⟩
  · exact raisesOnly_uuidOfInt _

theorem raisesOnly_uuidOfText (unicode : UnicodeDatabase) (hex : Text) :
    RaisesOnly PlainValueError (uuidOfText unicode hex) := by
  unfold uuidOfText
  simp only
  split_ifs
  · exact raisesOnly_error_iff.mpr ⟨_, rfl⟩
  · exact raisesOnly_bind_iff.mpr
      ⟨raisesOnly_intOfBytes 16 0 _, fun int _ ↦ raisesOnly_uuidOfInt int⟩

end PythonSystemd.Python
