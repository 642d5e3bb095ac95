import PythonSystemd.Library.HandleProgram
import PythonSystemd.Python.Text

/-!
# Exceptions, errors and calling conventions

What the extension modules share: the exceptions they raise, the functions of `pyutil.c`, and the
way the interpreter calls a C function. A method that is declared `METH_NOARGS` gets a null pointer
for its arguments and one that is declared `METH_VARARGS` a tuple; the outcome of parsing that
tuple is given with it. A function hands back a result or a null pointer next to the exception that
is set, and `checkFunctionResult` is what becomes of the two.
-/

set_option autoImplicit false
set_option relaxedAutoImplicit false

namespace PythonSystemd.Python

open Library.CheckedMemory Library.HandleProgram

inductive PyException
  | typeError (message : String)
  | valueError (message : String)
  | overflowError (message : String)
  | attributeError (message : String)
  | indexError (message : String)
  | keyError (key : List UInt8)
  | memoryError (message : String)
  | osError (errno : ℤ) (filename : Option String)
  | osErrorMessage (message : String)
  | unicodeEncodeError
  | unicodeDecodeError
  | systemError
  deriving DecidableEq

/-! ### Which exceptions are raised -/

section RaisesOnly

variable {α β : Type}

/-- A result that is no exception or an allowed one. -/
def RaisesOnly (allowed : PyException → Prop) (result : Except PyException α) : Prop :=
  ∀ exception, result = .error exception → allowed exception

variable {allowed : PyException → Prop}

theorem raisesOnly_ok (value : α) : RaisesOnly allowed (.ok value : Except PyException α) :=
  fun _ h ↦ by cases h

theorem raisesOnly_error_iff {exception : PyException} :
    RaisesOnly allowed (.error exception : Except PyException α) ↔ allowed exception := by
  constructor
  · intro h
    exact h exception rfl
  · intro h other hother
    obtain rfl := Except.error.inj hother
    exact h

theorem raisesOnly_bind_iff {first : Except PyException α} {next : α → Except PyException β} :
    RaisesOnly allowed (first >>= next) ↔
      RaisesOnly allowed first ∧ ∀ value, first = .ok value → RaisesOnly allowed (next value) := by
  cases first with
  | error exception =>
    have hbind : (Except.error exception >>= next) = .error exception := rfl
    rw [hbind, raisesOnly_error_iff, raisesOnly_error_iff]
    exact (and_iff_left fun value h ↦ by cases h).symm
  | ok value =>
    have hbind : (Except.ok value >>= next) = next value := rfl
    rw [hbind]
    constructor
    · intro h
      refine ⟨raisesOnly_ok value, fun other hother ↦ ?_⟩
      obtain rfl := Except.ok.inj hother
      exact h
    · rintro ⟨-, h⟩
      exact h value rfl

theorem raisesOnly_map_iff {f : α → β} {result : Except PyException α} :
    RaisesOnly allowed (result.map f) ↔ RaisesOnly allowed result := by
  cases result with
  | error exception => exact raisesOnly_error_iff.trans raisesOnly_error_iff.symm
  | ok value => exact iff_of_true (raisesOnly_ok _) (raisesOnly_ok _)

theorem RaisesOnly.mono {weaker : PyException → Prop} {result : Except PyException α}
    (h : RaisesOnly allowed result) (hweaker : ∀ exception, allowed exception → weaker exception) :
    RaisesOnly weaker result :=
  fun exception hexception ↦ hweaker exception (h exception hexception)

end RaisesOnly

/-! ### Error numbers -/

def ENOENT : ℤ := 2
def ENOMEM : ℤ := 12
def EINVAL : ℤ := 22
def ENOSYS : ℤ := 38
def ENOBUFS : ℤ := 105

/-- `set_error`: the exception it sets for a negative result. -/
def setError (r : ℤ) (path invalidMessage : Option String) : Option PyException :=
  if 0 ≤ r then none
  else
    match invalidMessage with
    | some message =>
      if r = -EINVAL then some (.valueError message)
      else if r = -ENOMEM then some (.memoryError "Not enough memory")
      else some (.osError (-r) path)
    | none =>
      if r = -ENOMEM then some (.memoryError "Not enough memory")
      else some (.osError (-r) path)

theorem setError_eq_none_iff {r : ℤ} {path invalidMessage : Option String} :
    setError r path invalidMessage = none ↔ 0 ≤ r := by
  unfold setError
  constructor
  · intro h
    by_contra hneg
    rw [if_neg hneg] at h
    cases invalidMessage with
    | none => split_ifs at h
    | some message => split_ifs at h
  · intro h
    rw [if_pos h]

/-- A `struct timespec`. -/
structure Timespec where
  tvSec : Int64
  tvNsec : Int64

/-- The time that a `timespec` shows, in microseconds. -/
def Timespec.microseconds (ts : Timespec) : ℕ :=
  ts.tvSec.toInt.toNat * 1000000 + ts.tvNsec.toInt.toNat / 1000

theorem toNat_toUInt64_of_nonneg {value : Int64} (h : 0 ≤ value.toInt) :
    value.toUInt64.toNat = value.toInt.toNat :=
  Int64.toNat_toUInt64_of_le (Int64.le_iff_toInt_le.mpr h)

/-- `absolute_timeout`, with what the monotonic clock shows. -/
def absoluteTimeout (t : UInt64) (ts : Timespec) : ℤ :=
  if t = -1 then -1
  else
    let n := ts.tvSec.toUInt64 * 1000000 + (ts.tvNsec / 1000).toUInt64
    if n < t then ((t - n + 999) / 1000).toUInt32.toInt32.toInt else 0

/-! ### Arguments -/

/-- The arguments a C function gets: a null pointer, or a tuple with the outcome of parsing it. -/
inductive Args (α : Type)
  | null
  | tuple (parsed : Except PyException α)

def Args.isNull {α : Type} : Args α → Bool
  | .null => true
  | .tuple _ => false

/-- `PyArg_ParseTuple`. -/
def parseTuple {α : Type} : Args α → Program PyException α
  | .null => Program.fault .outOfBounds
  | .tuple parsed => Program.ofExcept parsed

/-- Raises what `set_error` sets. -/
def raiseError (r : ℤ) (invalidMessage : Option String) : Program PyException Unit :=
  match setError r none invalidMessage with
  | none => pure ()
  | some exception => Program.raise exception

/-- One call of a library function on the handle; a negative result is raised. -/
def callLibrary (r : ℤ) (invalidMessage : Option String) : Program PyException Unit := do
  Program.act .use
  raiseError r invalidMessage

/-- `PyUnicode_FromString`. -/
def unicodeFromString (bytes : List UInt8) : Except PyException Text :=
  match decodeUtf8 bytes with
  | none => .error .unicodeDecodeError
  | some text => .ok text

theorem raisesOnly_unicodeFromString (bytes : List UInt8) :
    RaisesOnly (fun exception ↦ exception = .unicodeDecodeError) (unicodeFromString bytes) := by
  unfold unicodeFromString
  cases decodeUtf8 bytes with
  | none => exact raisesOnly_error_iff.mpr rfl
  | some text => exact raisesOnly_ok text

/-- `str.encode('utf-8')`, with its exception. -/
def encodeStrict (text : Text) : Except PyException (List UInt8) :=
  match text.encodeUtf8 with
  | none => .error .unicodeEncodeError
  | some bytes => .ok bytes

theorem encodeStrict_eq_ok {text : Text} {bytes : List UInt8} :
    encodeStrict text = .ok bytes ↔ text.encodeUtf8 = some bytes := by
  unfold encodeStrict
  cases text.encodeUtf8 with
  | none => exact iff_of_false (fun h ↦ by cases h) (fun h ↦ by cases h)
  | some encoded =>
    exact ⟨fun h ↦ congrArg some (Except.ok.inj h), fun h ↦ congrArg Except.ok (Option.some.inj h)⟩

/-- A string where a C string is asked for: its UTF-8, in which there must be no zero. -/
def parseCString (text : Text) : Except PyException (List UInt8) := do
  let bytes ← encodeStrict text
  if 0 ∈ bytes then .error (.valueError "embedded null character") else return bytes

theorem parseCString_of_encodeUtf8 {text : Text} {bytes : List UInt8}
    (hencode : text.encodeUtf8 = some bytes) (hzero : 0 ∉ bytes) :
    parseCString text = .ok bytes := by
  rw [parseCString, encodeStrict_eq_ok.mpr hencode]
  exact if_neg hzero

/-- A string is turned down for a surrogate or for a zero. -/
theorem parseCString_cases (text : Text) :
    (text.encodeUtf8 = none ∨ 0 ∈ text) ∧ (∃ exception, parseCString text = .error exception) ∨
      ¬ (text.encodeUtf8 = none ∨ 0 ∈ text) ∧ ∃ bytes, text.encodeUtf8 = some bytes ∧
        0 ∉ bytes ∧ parseCString text = .ok bytes := by
  cases hencode : text.encodeUtf8 with
  | none =>
    refine .inl ⟨.inl rfl, .unicodeEncodeError, ?_⟩
    rw [parseCString, encodeStrict, hencode]
    rfl
  | some bytes =>
    have hbytes : encodeStrict text = .ok bytes := encodeStrict_eq_ok.mpr hencode
    by_cases hzero : (0 : CodePoint) ∈ text
    · have hmem : UInt8.ofNat (Char.ofNat 0).val.toNat ∈ bytes :=
        mem_encodeUtf8 hencode (by decide) hzero
      refine .inl ⟨.inr hzero, .valueError "embedded null character", ?_⟩
      rw [parseCString, hbytes]
      exact if_pos hmem
    · have hmem : UInt8.ofNat (Char.ofNat 0).val.toNat ∉ bytes :=
        not_mem_encodeUtf8 hencode (by decide) hzero
      exact .inr ⟨not_or.mpr ⟨Option.some_ne_none bytes, hzero⟩, bytes, rfl, hmem,
        parseCString_of_encodeUtf8 hencode hmem⟩

/-! ### Integers -/

/-- The format `K` takes any integer and drops what does not fit. -/
theorem toNat_ofInt (value : ℤ) : ((UInt64.ofInt value).toNat : ℤ) = value % 2 ^ 64 := by
  have hlt : (value % 2 ^ 64).toNat < 2 ^ 64 := by omega
  rw [UInt64.ofInt, UInt64.toNat_ofNat_of_lt' hlt]
  exact Int.toNat_of_nonneg (Int.emod_nonneg value (by decide))

/-! ### Results -/

/-- What a C function hands to the interpreter: its result, which may be a null pointer, and the
exception that is set. -/
structure CallResult (α : Type) where
  value : Option α
  pending : Option PyException

/-- What the interpreter makes of a result. -/
def checkFunctionResult {α : Type} (result : CallResult α) : Except PyException α :=
  match result.value, result.pending with
  | some value, none => .ok value
  | none, some exception => .error exception
  | _, _ => .error .systemError

/-! ### What these do to the handle -/

open Program

theorem refines_parseTuple {α : Type} (parsed : Except PyException α) :
    (parseTuple (.tuple parsed)).Refines .use :=
  refines_ofExcept parsed

theorem refines_raiseError (r : ℤ) (invalidMessage : Option String) :
    (raiseError r invalidMessage).Refines .use := by
  unfold raiseError
  cases setError r none invalidMessage with
  | none => exact refines_pure ()
  | some exception => exact refines_raise exception

/-- A check of the result after a program does nothing to the handle. -/
theorem Refines.bind_raiseError {α : Type} {program : Program PyException α}
    {action : Library.HandleTrace.Action} (h : program.Refines action) (r : α → ℤ)
    (invalidMessage : Option String) :
    (program >>= fun value ↦ raiseError (r value) invalidMessage).Refines action := by
  refine h.bind_still fun value slot ↦ ?_
  unfold raiseError
  cases setError (r value) none invalidMessage with
  | none => exact ofExcept_still (.ok ()) slot
  | some exception => exact ofExcept_still (.error exception) slot

theorem refines_callLibrary (r : ℤ) (invalidMessage : Option String) :
    (callLibrary r invalidMessage).Refines .use :=
  (refines_act .use).bind fun _ ↦ refines_raiseError r invalidMessage

/-- A method that calls the library once and returns a value. -/
theorem refines_callLibrary_return {α : Type} (r : ℤ) (invalidMessage : Option String) (value : α) :
    (callLibrary r invalidMessage >>= fun _ ↦ pure value).Refines .use :=
  (refines_callLibrary r invalidMessage).bind fun _ ↦ refines_pure value

end PythonSystemd.Python
