import PythonSystemd.Journal.Assembly
import PythonSystemd.Python.Numbers

/-!
# The default converters

`DEFAULT_CONVERTERS` of `journal.py`, as Python 3 runs it. The converters raise what Python raises
for a value. `_convert_field` catches only a `ValueError`, and two kinds of converters can raise
something else for stored bytes: a number of microseconds may be too large for a `timedelta`, and a
timestamp too large for a division or for the platform. `defaultConversion_iff` says for which
entries and which values of a field this cannot happen.
-/

set_option autoImplicit false
set_option relaxedAutoImplicit false

namespace PythonSystemd.Journal

open Library Python

/-! ### What Python finds at run time -/

/-- The facts about an installation that the conversions depend on. What `fromtimestamp` returns
depends on the time zone; it may raise a `ValueError`, an `OverflowError` and an `OSError`. -/
structure Platform (δ : Type) where
  unicode : UnicodeDatabase
  digitLimit : ℕ
  fromTimestamp : ℚ → Except PyException δ
  fromTimestamp_documented : ∀ timestamp exception, fromTimestamp timestamp = .error exception →
    isValueError exception = true ∨ (∃ message, exception = .overflowError message) ∨
      ∃ errno, exception = .osError errno none

/-- What the default converters return. -/
inductive ConvertedObject (δ : Type)
  | int (value : ℤ)
  | bytes (value : List UInt8)
  | uuid (value : UUID)
  | timedelta (value : Timedelta)
  | datetime (value : δ)
  | monotonic (timestamp : Timedelta) (bootid : UUID)
  | unchanged (value : RawValue)

variable {δ : Type} (platform : Platform δ)

/-! ### The converters -/

/-- `int`. -/
def convertInt : RawValue → Except PyException ℤ
  | .bytes value => intOfBytes 10 platform.digitLimit value
  | .realtime usec => .ok usec.toNat
  | .monotonic _ _ => .error (.typeError "int() argument must not be 'journal.Monotonic'")
  | .cursor text => intOfText platform.unicode 10 platform.digitLimit text

/-- `bytes`. -/
def convertBytes : RawValue → Except PyException (List UInt8)
  | .bytes value => .ok value
  | .realtime usec => .ok (List.replicate usec.toNat 0)
  | .monotonic usec _ =>
    if usec < 256 then .error (.typeError "'bytes' object cannot be interpreted as an integer")
    else .error (.valueError "bytes must be in range(0, 256)")
  | .cursor _ => .error (.typeError "string argument without an encoding")

/-- `_convert_monotonic`. -/
def convertMonotonic : RawValue → Except PyException (Timedelta × UUID)
  | .monotonic usec bootid => do
    let timestamp ← timedelta usec.toNat
    let uuid ← uuidOfBytes bootid
    return (timestamp, uuid)
  | .bytes (_ :: _ :: _) => .error (.typeError "object of type 'int' has no len()")
  | .bytes _ => .error (.indexError "index out of range")
  | .realtime _ => .error (.typeError "'int' object is not subscriptable")
  | .cursor [] => .error (.indexError "string index out of range")
  | .cursor _ => .error (.typeError "unsupported type for timedelta microseconds component: str")

/-- `_convert_source_monotonic`. -/
def convertSourceMonotonic (s : RawValue) : Except PyException Timedelta := do
  let microseconds ← convertInt platform s
  timedelta microseconds

/-- `datetime.fromtimestamp(... / 1000000)`. -/
def fromMicroseconds (microseconds : ℤ) : Except PyException δ := do
  let timestamp ← trueDivide microseconds 1000000
  platform.fromTimestamp timestamp

/-- `_convert_realtime`. -/
def convertRealtime : RawValue → Except PyException δ
  | .realtime t => fromMicroseconds platform t.toNat
  | _ => .error (.typeError "unsupported operand type(s) for /")

/-- `_convert_timestamp`. -/
def convertTimestamp (s : RawValue) : Except PyException δ := do
  let microseconds ← convertInt platform s
  fromMicroseconds platform microseconds

/-- `_convert_trivial`. -/
def convertTrivial (x : RawValue) : Except PyException RawValue :=
  .ok x

/-- `_convert_uuid`. -/
def convertUuid : RawValue → Except PyException UUID
  | .bytes s => do
    let text ← unicodeFromString s
    uuidOfText platform.unicode text
  | _ => .error (.attributeError "object has no attribute 'decode'")

inductive DefaultConverter
  | uuid
  | int
  | timestamp
  | realtime
  | sourceMonotonic
  | monotonic
  | trivial
  | bytes
  deriving DecidableEq

def DefaultConverter.convert (platform : Platform δ) (value : RawValue) :
    DefaultConverter → Except PyException (ConvertedObject δ)
  | .uuid => (convertUuid platform value).map .uuid
  | .int => (convertInt platform value).map .int
  | .timestamp => (convertTimestamp platform value).map .datetime
  | .realtime => (convertRealtime platform value).map .datetime
  | .sourceMonotonic => (convertSourceMonotonic platform value).map .timedelta
  | .monotonic => (convertMonotonic value).map fun result ↦ .monotonic result.1 result.2
  | .trivial => (convertTrivial value).map .unchanged
  | .bytes => (convertBytes value).map .bytes

/-- The converter of each field of `DEFAULT_CONVERTERS`. -/
def defaultConverter : OrderedDict Text DefaultConverter where
  items :=
    [(.ofString "MESSAGE_ID", .uuid),
      (.ofString "_MACHINE_ID", .uuid),
      (.ofString "_BOOT_ID", .uuid),
      (.ofString "PRIORITY", .int),
      (.ofString "LEADER", .int),
      (.ofString "SESSION_ID", .int),
      (.ofString "USERSPACE_USEC", .int),
      (.ofString "INITRD_USEC", .int),
      (.ofString "KERNEL_USEC", .int),
      (.ofString "_UID", .int),
      (.ofString "_GID", .int),
      (.ofString "_PID", .int),
      (.ofString "SYSLOG_FACILITY", .int),
      (.ofString "SYSLOG_PID", .int),
      (.ofString "_AUDIT_SESSION", .int),
      (.ofString "_AUDIT_LOGINUID", .int),
      (.ofString "_SYSTEMD_SESSION", .int),
      (.ofString "_SYSTEMD_OWNER_UID", .int),
      (.ofString "CODE_LINE", .int),
      (.ofString "ERRNO", .int),
      (.ofString "EXIT_STATUS", .int),
      (.ofString "_SOURCE_REALTIME_TIMESTAMP", .timestamp),
      (.ofString "__REALTIME_TIMESTAMP", .realtime),
      (.ofString "_SOURCE_MONOTONIC_TIMESTAMP", .sourceMonotonic),
      (.ofString "__MONOTONIC_TIMESTAMP", .monotonic),
      (.ofString "__CURSOR", .trivial),
      (.ofString "COREDUMP", .bytes),
      (.ofString "COREDUMP_PID", .int),
      (.ofString "COREDUMP_UID", .int),
      (.ofString "COREDUMP_GID", .int),
      (.ofString "COREDUMP_SESSION", .int),
      (.ofString "COREDUMP_SIGNAL", .int),
      (.ofString "COREDUMP_TIMESTAMP", .timestamp)]
  nodup := by decide

/-- `DEFAULT_CONVERTERS`. -/
def defaultConverters : Converters (ConvertedObject δ) :=
  defaultConverter.mapValues fun converter value ↦ converter.convert platform value

/-- `Reader.query_unique`, for the values that the library has found for the field. The results are
those that go into the set. -/
def queryUnique {ν : Type} (converters : Converters ν) (field : Text)
    (values : List (List UInt8)) : Except PyException (List (Converted ν)) :=
  values.mapM fun value ↦ convertField converters field (.bytes value)

/-! ### Which values are converted or left as they are -/

/-- `fromtimestamp` raises neither an `OverflowError` nor an `OSError`. -/
def Platform.Supports (timestamp : ℚ) : Prop :=
  ∀ exception, platform.fromTimestamp timestamp = .error exception →
    (∀ message, exception ≠ .overflowError message) ∧ ∀ errno, exception ≠ .osError errno none

/-- A number of microseconds that is small enough for a timestamp: its quotient is rounded to a
floating-point number, and the platform supports that. -/
def Platform.TimestampInRange (microseconds : ℤ) : Prop :=
  |(microseconds / 1000000 : ℚ)| < binary64.overflowBound ∧
    ∀ timestamp, binary64.round (microseconds / 1000000) = some timestamp →
      platform.Supports timestamp

/-- A stored value that causes no other exception than a `ValueError` under this key. Only numbers
that `int` accepts can be out of range. No value is stored under the keys that `get_next` adds. -/
def Platform.Convertible (key : Text) (bytes : List UInt8) : Prop :=
  match defaultConverter.get? key with
  | some .timestamp => ∀ microseconds, intOfBytes 10 platform.digitLimit bytes = .ok microseconds →
      platform.TimestampInRange microseconds
  | some .sourceMonotonic =>
    ∀ microseconds, intOfBytes 10 platform.digitLimit bytes = .ok microseconds →
      DaysInRange microseconds
  | some .realtime => False
  | some .monotonic => False
  | _ => True

theorem PlainValueError.caught {exception : PyException} (h : PlainValueError exception) :
    Caught exception := by
  obtain ⟨message, rfl⟩ := h
  rfl

theorem not_caught_overflowError (message : String) : ¬ Caught (.overflowError message) :=
  Bool.false_ne_true

/-- Of what `fromtimestamp` may raise the other two are not caught. -/
theorem raisesOnly_fromTimestamp_iff (timestamp : ℚ) :
    RaisesOnly Caught (platform.fromTimestamp timestamp) ↔ platform.Supports timestamp := by
  constructor
  · intro h exception hexception
    have hcaught := h exception hexception
    refine ⟨?_, ?_⟩
    · rintro message rfl
      exact not_caught_overflowError message hcaught
    · rintro errno rfl
      exact Bool.false_ne_true hcaught
  · intro h exception hexception
    obtain ⟨hoverflow, hos⟩ := h exception hexception
    rcases platform.fromTimestamp_documented timestamp exception hexception with
      hvalue | ⟨message, heq⟩ | ⟨errno, heq⟩
    · exact hvalue
    · exact absurd heq (hoverflow message)
    · exact absurd heq (hos errno)

theorem raisesOnly_fromMicroseconds_iff (microseconds : ℤ) :
    RaisesOnly Caught (fromMicroseconds platform microseconds) ↔
      platform.TimestampInRange microseconds := by
  unfold fromMicroseconds Platform.TimestampInRange
  rw [raisesOnly_bind_iff, raisesOnly_trueDivide_iff not_caught_overflowError]
  simp only [trueDivide_eq_ok_iff, raisesOnly_fromTimestamp_iff]
  exact Iff.rfl

/-- A wall-clock timestamp is never too large for the division. -/
theorem abs_div_lt_overflowBound (usec : UInt64) :
    |((usec.toNat : ℤ) / 1000000 : ℚ)| < binary64.overflowBound := by
  have hnonneg : (0 : ℚ) ≤ (usec.toNat : ℤ) := Int.cast_nonneg (Int.natCast_nonneg _)
  have hlt : ((usec.toNat : ℤ) : ℚ) < 2 ^ (64 : ℤ) := by
    have htoNat := usec.toNat_lt
    have hcast : ((usec.toNat : ℤ) : ℚ) < ((2 ^ 64 : ℤ) : ℚ) := Int.cast_lt.mpr (by omega)
    exact_mod_cast hcast
  have hpower : (2 : ℚ) ^ (64 : ℤ) ≤ 2 ^ (binary64.maxExponent - 1) :=
    zpow_le_zpow_right₀ one_le_two (by decide)
  rw [abs_of_nonneg (div_nonneg hnonneg (by norm_num))]
  calc ((usec.toNat : ℤ) / 1000000 : ℚ)
      ≤ (usec.toNat : ℤ) := div_le_self hnonneg (by norm_num)
    _ < 2 ^ (binary64.maxExponent - 1) := hlt.trans_le hpower
    _ ≤ binary64.overflowBound := binary64.half_le_overflowBound

/-- After `int` only the numbers that it accepts matter. -/
theorem raisesOnly_convertInt_bind_iff {α : Type} {next : ℤ → Except PyException α}
    (bytes : List UInt8) :
    RaisesOnly Caught (convertInt platform (.bytes bytes) >>= next) ↔
      ∀ number, intOfBytes 10 platform.digitLimit bytes = .ok number →
        RaisesOnly Caught (next number) := by
  rw [raisesOnly_bind_iff]
  exact and_iff_right ((raisesOnly_intOfBytes 10 _ bytes).mono fun _ ↦ PlainValueError.caught)

theorem raisesOnly_convertUuid (bytes : List UInt8) :
    RaisesOnly Caught (convertUuid platform (.bytes bytes)) := by
  refine raisesOnly_bind_iff.mpr ⟨?_, fun text _ ↦ ?_⟩
  · refine (raisesOnly_unicodeFromString bytes).mono ?_
    rintro exception rfl
    rfl
  · exact (raisesOnly_uuidOfText platform.unicode text).mono fun _ ↦ PlainValueError.caught

/-- Stored bytes are nothing that the converters of the added timestamps can take. -/
theorem not_raisesOnly_convertRealtime (bytes : List UInt8) :
    ¬ RaisesOnly Caught (convertRealtime platform (.bytes bytes)) :=
  fun h ↦ Bool.false_ne_true (raisesOnly_error_iff.mp h)

theorem not_raisesOnly_convertMonotonic (bytes : List UInt8) :
    ¬ RaisesOnly Caught (convertMonotonic (.bytes bytes)) := by
  match bytes with
  | [] => exact fun h ↦ Bool.false_ne_true (raisesOnly_error_iff.mp h)
  | [_] => exact fun h ↦ Bool.false_ne_true (raisesOnly_error_iff.mp h)
  | _ :: _ :: _ => exact fun h ↦ Bool.false_ne_true (raisesOnly_error_iff.mp h)

section Table

variable {key : Text} {value : RawValue}

theorem get?_defaultConverters (key : Text) :
    (defaultConverters platform).get? key =
      (defaultConverter.get? key).map fun converter value ↦ converter.convert platform value :=
  OrderedDict.get?_mapValues _ defaultConverter key

/-- For a key of the table its converter decides. -/
theorem onlyValueErrors_iff_of_get?_eq_some {converter : DefaultConverter}
    (h : defaultConverter.get? key = some converter) :
    OnlyValueErrors (defaultConverters platform) key value ↔
      RaisesOnly Caught (converter.convert platform value) := by
  have hconversion : conversion (defaultConverters platform) key value =
      (converter.convert platform value).map Converted.object := by
    unfold conversion
    rw [get?_defaultConverters, h]
    rfl
  unfold OnlyValueErrors
  rw [hconversion]
  exact raisesOnly_map_iff

theorem onlyValueErrors_defaultConverters_iff (key : Text) (bytes : List UInt8) :
    OnlyValueErrors (defaultConverters platform) key (.bytes bytes) ↔
      platform.Convertible key bytes := by
  unfold Platform.Convertible
  cases hconverter : defaultConverter.get? key with
  | none =>
    refine iff_of_true (onlyValueErrors_of_get?_eq_none ?_) trivial
    rw [get?_defaultConverters, hconverter]
    rfl
  | some converter =>
    rw [onlyValueErrors_iff_of_get?_eq_some platform hconverter]
    cases converter with
    | uuid =>
      exact iff_of_true (raisesOnly_map_iff.mpr (raisesOnly_convertUuid platform bytes)) trivial
    | int =>
      refine iff_of_true (raisesOnly_map_iff.mpr ?_) trivial
      exact (raisesOnly_intOfBytes 10 _ bytes).mono fun _ ↦ PlainValueError.caught
    | timestamp =>
      refine raisesOnly_map_iff.trans ((raisesOnly_convertInt_bind_iff platform bytes).trans ?_)
      simp only [raisesOnly_fromMicroseconds_iff]
    | realtime =>
      refine iff_of_false (fun h ↦ ?_) id
      have hraises : RaisesOnly Caught
          ((convertRealtime platform (.bytes bytes)).map ConvertedObject.datetime) := h
      exact not_raisesOnly_convertRealtime platform bytes (raisesOnly_map_iff.mp hraises)
    | sourceMonotonic =>
      refine raisesOnly_map_iff.trans ((raisesOnly_convertInt_bind_iff platform bytes).trans ?_)
      simp only [raisesOnly_timedelta_iff not_caught_overflowError]
    | monotonic =>
      refine iff_of_false (fun h ↦ ?_) id
      exact not_raisesOnly_convertMonotonic bytes (raisesOnly_map_iff.mp h)
    | trivial => exact iff_of_true (raisesOnly_ok _) trivial
    | bytes => exact iff_of_true (raisesOnly_ok _) trivial

/-- Of the added values only the wall-clock timestamp can be out of range. -/
theorem onlyValueErrors_addedItems_iff (realtime : UInt64) (monotonic : UInt64 × List UInt8)
    (cursor : Text) :
    (∀ item ∈ addedItems realtime monotonic cursor,
      OnlyValueErrors (defaultConverters platform) item.1 item.2) ↔
        platform.TimestampInRange realtime.toNat := by
  have hrealtime : defaultConverter.get? (.ofString "__REALTIME_TIMESTAMP") = some .realtime := by
    decide
  have hmonotonic : defaultConverter.get? (.ofString "__MONOTONIC_TIMESTAMP") =
      some .monotonic := by
    decide
  have hcursor : defaultConverter.get? (.ofString "__CURSOR") = some .trivial := by
    decide
  have hdays : DaysInRange monotonic.1.toNat := by
    have hlt := monotonic.1.toNat_lt
    unfold DaysInRange maxDays microsecondsPerDay
    omega
  unfold addedItems
  rw [List.forall_mem_cons, List.forall_mem_cons, List.forall_mem_singleton,
    onlyValueErrors_iff_of_get?_eq_some platform hrealtime,
    onlyValueErrors_iff_of_get?_eq_some platform hmonotonic,
    onlyValueErrors_iff_of_get?_eq_some platform hcursor]
  refine (and_iff_left ⟨?_, raisesOnly_ok _⟩).trans
    (raisesOnly_map_iff.trans (raisesOnly_fromMicroseconds_iff platform _))
  refine raisesOnly_map_iff.mpr (raisesOnly_bind_iff.mpr ⟨?_, fun timestamp _ ↦ ?_⟩)
  · exact (raisesOnly_timedelta_iff not_caught_overflowError _).mpr hdays
  · refine raisesOnly_bind_iff.mpr ⟨?_, fun uuid _ ↦ raisesOnly_ok _⟩
    exact (raisesOnly_uuidOfBytes monotonic.2).mono fun _ ↦ PlainValueError.caught

end Table

/-! ### Entries and queries -/

/-- An entry whose stored values and whose wall-clock timestamp cause no other exception than a
`ValueError`. -/
def Platform.EntryConvertible (entry : Entry) (realtime : UInt64) : Prop :=
  (∀ item ∈ entry.items, item.1 ∉ addedNames →
    ∀ value ∈ item.2.values, platform.Convertible item.1 value) ∧
  platform.TimestampInRange realtime.toNat

theorem queryUnique_eq_ok_iff {ν : Type} (converters : Converters ν) (field : Text)
    (values : List (List UInt8)) :
    queryUnique converters field values =
        .ok (values.map fun value ↦ convertedOrRaw converters field (.bytes value)) ↔
      ∀ value ∈ values, OnlyValueErrors converters field (.bytes value) := by
  have hraw : queryUnique converters field values =
      (values.map RawValue.bytes).mapM (convertField converters field) := by
    rw [List.mapM_map]
    rfl
  rw [hraw]
  constructor
  · intro h value hvalue
    exact onlyValueErrors_of_mapM h _ (List.mem_map_of_mem hvalue)
  · intro h
    refine (mapM_convertField_eq_ok ?_).trans (congrArg Except.ok List.map_map)
    exact List.forall_mem_map.mpr h

theorem convertEntry_defaultConverters_iff (entry : Entry) (realtime : UInt64)
    (monotonic : UInt64 × List UInt8) (cursor : Text) :
    convertEntry (defaultConverters platform) (addTimes entry realtime monotonic cursor) =
        .ok (convertedEntry (defaultConverters platform)
          (addTimes entry realtime monotonic cursor)) ↔
      platform.EntryConvertible entry realtime := by
  rw [convertEntry_eq_ok_iff, itemsConvert_addTimes_iff, onlyValueErrors_addedItems_iff]
  simp only [onlyValueErrors_defaultConverters_iff]
  exact Iff.rfl

/-- The default conversion returns every value of an entry converted or as it was exactly when no
number is out of range, and then `get_next` returns that entry. So does a query for the values of a
field. -/
theorem defaultConversion_iff :
    (∀ entry realtime monotonic cursor,
      convertEntry (defaultConverters platform) (addTimes entry realtime monotonic cursor) =
          .ok (convertedEntry (defaultConverters platform)
            (addTimes entry realtime monotonic cursor)) ↔
        platform.EntryConvertible entry realtime) ∧
    (∀ skip call move replies entry cursor, moveCall skip = some call → 0 < move call →
      replies.Reads entry cursor →
        ((getNext (defaultConverters platform) skip move replies).Returns
            (.ok (convertedEntry (defaultConverters platform)
              (addTimes entry replies.realtime.2 replies.monotonic.2 cursor))) ↔
          platform.EntryConvertible entry replies.realtime.2)) ∧
    ∀ field values,
      queryUnique (defaultConverters platform) field values =
          .ok (values.map fun value ↦
            convertedOrRaw (defaultConverters platform) field (.bytes value)) ↔
        ∀ value ∈ values, platform.Convertible field value := by
  refine ⟨convertEntry_defaultConverters_iff platform, ?_, fun field values ↦ ?_⟩
  · intro skip call move replies entry cursor hcall hmove hreads
    have hreturns := returns_getNext_of_reads (defaultConverters platform) hcall hmove hreads
    rw [← convertEntry_defaultConverters_iff platform entry _ replies.monotonic.2 cursor]
    exact ⟨hreturns.unique, fun h ↦ h ▸ hreturns⟩
  · rw [queryUnique_eq_ok_iff]
    simp only [onlyValueErrors_defaultConverters_iff]

/-- A platform with the time zone UTC, where a `datetime` is its timestamp. -/
def utcPlatform : Platform ℚ where
  unicode := { isSpace := fun _ ↦ false, decimal := fun _ ↦ none }
  digitLimit := 4300
  fromTimestamp timestamp :=
    if -62135596800 ≤ timestamp ∧ timestamp < 253402300800 then .ok timestamp
    else .error (.valueError "year is out of range")
  fromTimestamp_documented := by
    intro timestamp exception h
    split_ifs at h
    obtain rfl := Except.error.inj h
    exact .inl rfl

/-- The dictionary of the entry with two messages and a priority. -/
def interleavedEntry : Entry where
  items := [(.ofString "MESSAGE", .many [[120], []]), (.ofString "PRIORITY", .one [61])]
  nodup := by decide

theorem supports_utcPlatform (timestamp : ℚ) : utcPlatform.Supports timestamp := by
  intro exception h
  unfold utcPlatform at h
  simp only at h
  split_ifs at h
  obtain rfl := Except.error.inj h
  refine ⟨?_, ?_⟩
  · exact fun message heq ↦ by cases heq
  · exact fun errno heq ↦ by cases heq

theorem defaultConversion_iff_interleaved :
    (getNext (defaultConverters utcPlatform) 1 (fun _ ↦ 1) interleavedReplies).Returns
      (.ok (convertedEntry (defaultConverters utcPlatform)
        (addTimes interleavedEntry 1 (1, List.replicate 16 0) (.ofString "s")))) := by
  have hreads : interleavedReplies.Reads interleavedEntry (.ofString "s") :=
    { realtime := le_rfl
      monotonic := le_rfl
      cursor := le_rfl
      cursorText := by decide
      enumerated := rfl
      isEmpty := rfl }
  refine ((defaultConversion_iff utcPlatform).2.1 1 .next (fun _ ↦ 1) interleavedReplies
    interleavedEntry (.ofString "s") (by decide) Int.one_pos hreads).mpr ⟨?_, ?_⟩
  · have hmessage : defaultConverter.get? (.ofString "MESSAGE") = none := by decide
    have hpriority : defaultConverter.get? (.ofString "PRIORITY") = some .int := by decide
    refine List.forall_mem_cons.mpr ⟨fun _ value _ ↦ ?_,
      List.forall_mem_singleton.mpr fun _ value _ ↦ ?_⟩
    · unfold Platform.Convertible
      rw [hmessage]
      trivial
    · unfold Platform.Convertible
      rw [hpriority]
      trivial
  · exact ⟨abs_div_lt_overflowBound 1, fun timestamp _ ↦ supports_utcPlatform timestamp⟩

/-- A stored number of microseconds that is no `timedelta`. -/
def hugeEntry : Entry where
  items := [(.ofString "_SOURCE_MONOTONIC_TIMESTAMP", .one (List.replicate 26 57))]
  nodup := by decide

/-- The `OverflowError` of such a number escapes from the conversion of its entry. -/
theorem not_defaultConversion_huge :
    ∃ message, convertEntry (defaultConverters utcPlatform)
      (addTimes hugeEntry 1 (1, List.replicate 16 0) (.ofString "s")) =
        .error (.overflowError message) := by
  exact ⟨_, rfl⟩

end PythonSystemd.Journal
