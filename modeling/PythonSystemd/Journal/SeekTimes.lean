import PythonSystemd.Id128.Calls
import PythonSystemd.Journal.TypedReadBack
import PythonSystemd.Library.RoundingError
import PythonSystemd.Python.Hex

/-!
# Seeking by time

`seek_realtime` and `seek_monotonic` of `journal.py`, as Python 3 runs them. A time is multiplied by
a million as a `float` and cut to an integer, so it may be lost by a microsecond. Below
`2 ^ 52` microseconds it is never more than that, and never too late: `seekRealtime_eq` for a
`datetime` and `seekMonotonic_of_getNext` for the time of an entry that was read.

A `datetime` is written down in local time without daylight saving time and read back by `mktime`.
In the hour that is repeated when the clocks go back this may be another time.
-/

set_option autoImplicit false
set_option relaxedAutoImplicit false

namespace PythonSystemd.Journal

open Id128 Library Library.CheckedMemory Library.HandleProgram Program Python

/-! ### Floating-point numbers -/

/-- A `float`. -/
inductive PyFloat
  | finite (value : ℚ)
  | infinite (negative : Bool)
  | nan

/-- A product with `1000000`. It may be too large for a number. -/
def PyFloat.timesMillion : PyFloat → PyFloat
  | .finite value =>
    match binary64.round (value * 1000000) with
    | some product => .finite product
    | none => .infinite (decide (value < 0))
  | other => other

/-- `int` of a `float`, which rounds towards zero. -/
def intOfFloat : PyFloat → Except PyException ℤ
  | .finite value => .ok (if value < 0 then ⌈value⌉ else ⌊value⌋)
  | .infinite _ => .error (.overflowError "cannot convert float infinity to integer")
  | .nan => .error (.valueError "cannot convert float NaN to integer")

/-- `int(... * 1000000)`. -/
def intTimesMillion (seconds : PyFloat) : Except PyException ℤ :=
  intOfFloat seconds.timesMillion

/-! ### Arguments -/

/-- The formats `K` and `z`. -/
def parseSeekMonotonic (monotonic : ℤ) (bootid : Option Text) :
    Except PyException (UInt64 × Option (List UInt8)) := do
  let bootid ← bootid.mapM parseCString
  return (UInt64.ofInt monotonic, bootid)

/-- The local time zone: how far it is ahead of UTC at a time, and the time that `mktime` finds for
a local time when it is not told about daylight saving time. All are numbers of seconds. -/
structure LocalZone where
  offset : ℤ → ℤ
  mktime : ℤ → ℤ

namespace LocalZone

variable (zone : LocalZone)

/-- What the clock of the zone shows at a time. -/
def localTime (seconds : ℤ) : ℤ :=
  seconds + zone.offset seconds

/-- The time that `mktime` finds has the local time that it is asked for. -/
def FindsLocalTimes : Prop :=
  ∀ seconds, zone.localTime (zone.mktime (zone.localTime seconds)) = zone.localTime seconds

/-- The clock shows this at no other time. -/
def ShownOnce (seconds : ℤ) : Prop :=
  ∀ other, zone.localTime other = zone.localTime seconds → other = seconds

theorem mktime_localTime {zone : LocalZone} (hzone : zone.FindsLocalTimes) {seconds : ℤ}
    (h : zone.ShownOnce seconds) : zone.mktime (zone.localTime seconds) = seconds :=
  h _ (hzone seconds)

end LocalZone

/-- An argument `realtime`. Of a `datetime` there is the time it stands for. -/
inductive RealtimeObject
  | datetime (seconds : ℤ) (microsecond : Fin 1000000)
  | int (value : ℤ)
  | float (value : PyFloat)

/-- `float` of seconds and a fraction of six digits behind them. The sign is that of the whole. -/
def floatOfText (seconds : ℤ) (microsecond : Fin 1000000) : PyFloat :=
  let fraction : ℚ := microsecond.val / 1000000
  let value : ℚ := if seconds < 0 then seconds - fraction else seconds + fraction
  match binary64.round value with
  | some value => .finite value
  | none => .infinite (decide (value < 0))

/-- The microseconds of an argument; `strftime` writes a `datetime` with `%s`, for which it asks
`mktime`, and `%f`. -/
def realtimeUsec (zone : LocalZone) : RealtimeObject → Except PyException ℤ
  | .datetime seconds microsecond =>
    intTimesMillion (floatOfText (zone.mktime (zone.localTime seconds)) microsecond)
  | .int value => .ok value
  | .float value => intTimesMillion value

/-- An argument `monotonic`. -/
inductive MonotonicObject
  | timedelta (value : Timedelta)
  | int (value : ℤ)
  | float (value : PyFloat)

/-- `total_seconds` of a `timedelta`. -/
def totalSeconds (value : Timedelta) : Except PyException ℚ :=
  trueDivide value.microseconds (10 ^ 6)

def monotonicUsec : MonotonicObject → Except PyException ℤ
  | .timedelta value => do
    let seconds ← totalSeconds value
    intTimesMillion (.finite seconds)
  | .int value => .ok (value * 1000000)
  | .float value => intTimesMillion value

/-- An argument `bootid`. -/
inductive BootidObject
  | uuid (value : Uuid)
  | text (value : Text)

def BootidObject.hexOfUuid : BootidObject → Text
  | .uuid value => value.hex
  | .text value => value

/-! ### Seeking -/

/-- `seek_realtime`. -/
def seekRealtime (zone : LocalZone) (realtime : RealtimeObject) (seek : UInt64 → ℤ) :
    Program PyException Unit := do
  let realtime ← ofExcept (realtimeUsec zone realtime)
  readerSeekRealtime (.tuple (.ok (UInt64.ofInt realtime))) seek

/-- `seek_monotonic`. -/
def seekMonotonic (monotonic : MonotonicObject) (bootid : Option BootidObject)
    (bootId : Option (List UInt8) → ℤ × List UInt8) (seek : List UInt8 → UInt64 → ℤ) :
    Program PyException Unit := do
  let monotonic ← ofExcept (monotonicUsec monotonic)
  readerSeekMonotonic
    (.tuple (parseSeekMonotonic monotonic (bootid.map BootidObject.hexOfUuid))) bootId seek

/-! ### A time there and back -/

/-- The number is the microseconds or one before them. -/
def AtOrJustBefore (usec : ℕ) (t : UInt64) : Prop :=
  t.toNat ≤ usec ∧ usec ≤ t.toNat + 1

theorem isNormal_millionth : binary64.IsNormal (1 / (1000000 : ℕ)) := by
  have hexponent : (2 : ℚ) ^ (binary64.minExponent + binary64.precision - 1) ≤ 2 ^ (-20 : ℤ) :=
    zpow_le_zpow_right₀ one_le_two (by decide)
  refine hexponent.trans ?_
  rw [abs_of_pos (by norm_num)]
  norm_num

/-- A number of microseconds, divided by a million and multiplied by it as a `float`. -/
theorem exists_intTimesMillion {usec : ℕ} (h : usec < 2 ^ 52) :
    ∃ seconds value, binary64.round (usec / 1000000) = some seconds ∧
      intTimesMillion (.finite seconds) = .ok value ∧
      AtOrJustBefore usec (UInt64.ofInt value) := by
  obtain ⟨seconds, product, hseconds, hproduct, hnonneg, hlow, hhigh⟩ :=
    binary64.exists_round_quotient (by decide) (by decide) 1000000 (by norm_num)
      isNormal_millionth h
  push_cast at hseconds hproduct
  have hcut : intTimesMillion (.finite seconds) = .ok ⌊product⌋ := by
    rw [intTimesMillion, PyFloat.timesMillion, hproduct]
    exact congrArg Except.ok (if_neg (not_lt.mpr hnonneg))
  have hfloor : (0 : ℤ) ≤ ⌊product⌋ := Int.floor_nonneg.mpr hnonneg
  have hle : ⌊product⌋ ≤ (usec : ℤ) := by
    refine Int.lt_add_one_iff.mp (Int.floor_lt.mpr ?_)
    push_cast
    linarith
  have hge : (usec : ℤ) - 1 ≤ ⌊product⌋ := by
    refine Int.le_floor.mpr ?_
    push_cast
    linarith
  have htoNat := toNat_ofInt ⌊product⌋
  refine ⟨seconds, ⌊product⌋, hseconds, hcut, ?_⟩
  unfold AtOrJustBefore
  omega

/-- Seeking to seconds from the epoch on as a `float` asks for their time or for the microsecond
before it, and so does seeking to its `datetime`, unless the local clock shows it twice; seeking to
its microseconds asks for just these. -/
theorem seekRealtime_eq {zone : LocalZone} (hzone : zone.FindsLocalTimes) {seconds : ℕ}
    {microsecond : Fin 1000000} (h : 1000000 * seconds + microsecond.val < 2 ^ 52) :
    (∃ t timestamp, AtOrJustBefore (1000000 * seconds + microsecond.val) t ∧
      trueDivide (1000000 * seconds + microsecond.val) 1000000 = .ok timestamp ∧ ∀ seek,
        seekRealtime zone (.float (.finite timestamp)) seek = callLibrary (seek t) none ∧
        (zone.ShownOnce seconds →
          seekRealtime zone (.datetime seconds microsecond) seek = callLibrary (seek t) none)) ∧
      ∃ t : UInt64, t.toNat = 1000000 * seconds + microsecond.val ∧ ∀ seek,
        seekRealtime zone (.int (1000000 * seconds + microsecond.val)) seek =
          callLibrary (seek t) none := by
  obtain ⟨timestamp, value, htimestamp, hvalue, hnear⟩ := exists_intTimesMillion h
  have hquotient : ((1000000 * seconds + microsecond.val : ℕ) : ℚ) / 1000000 =
      seconds + microsecond.val / 1000000 := by
    push_cast
    ring
  have hdivide : trueDivide (1000000 * seconds + microsecond.val) 1000000 = .ok timestamp := by
    refine trueDivide_eq_ok_iff.mpr ?_
    rw [← htimestamp]
    push_cast
    rfl
  have hdatetime : floatOfText seconds microsecond = .finite timestamp := by
    rw [hquotient] at htimestamp
    rw [floatOfText, if_neg (not_lt.mpr (Int.natCast_nonneg seconds))]
    push_cast
    rw [htimestamp]
  have hsame : (UInt64.ofInt (1000000 * seconds + microsecond.val)).toNat =
      1000000 * seconds + microsecond.val := by
    have htoNat := toNat_ofInt (1000000 * seconds + microsecond.val)
    omega
  refine ⟨⟨UInt64.ofInt value, timestamp, hnear, hdivide, fun seek ↦ ⟨?_, fun honce ↦ ?_⟩⟩, _,
    hsame, fun seek ↦ rfl⟩
  · rw [seekRealtime, realtimeUsec, hvalue]
    rfl
  · rw [seekRealtime, realtimeUsec, LocalZone.mktime_localTime hzone honce, hdatetime, hvalue]
    rfl

/-- Central Europe in the year 2023, from the spring on. -/
def sampleZone : LocalZone where
  offset seconds := if seconds < 1698541200 then 7200 else 3600
  mktime localTime := if localTime - 7200 < 1698541200 then localTime - 7200 else localTime - 3600

theorem findsLocalTimes_sampleZone : sampleZone.FindsLocalTimes := by
  intro seconds
  dsimp only [LocalZone.localTime, sampleZone]
  grind

-- The clocks go back from three to two, and the hour before is shown once more.
example : sampleZone.mktime (sampleZone.localTime 1698541200) = 1698537600 := by decide

/-- A time in the November of that year. -/
theorem seekRealtime_eq_sample :
    ∃ t timestamp, AtOrJustBefore 1700000000123457 t ∧
      trueDivide 1700000000123457 1000000 = .ok timestamp ∧ ∀ seek,
        seekRealtime sampleZone (.float (.finite timestamp)) seek = callLibrary (seek t) none ∧
        seekRealtime sampleZone (.datetime 1700000000 123457) seek =
          callLibrary (seek t) none := by
  have honce : sampleZone.ShownOnce (1700000000 : ℕ) := by
    intro other hother
    dsimp only [LocalZone.localTime, sampleZone] at hother
    grind
  obtain ⟨⟨t, timestamp, hnear, hdivide, hseek⟩, -⟩ := seekRealtime_eq findsLocalTimes_sampleZone
    (show 1000000 * 1700000000 + (123457 : Fin 1000000).val < 2 ^ 52 by decide)
  exact ⟨t, timestamp, hnear, hdivide, fun seek ↦ ⟨(hseek seek).1, (hseek seek).2 honce⟩⟩

/-! ### The time of an entry -/

/-- The attribute `hex` of an id, as bytes, is the digits of the bytes of the id. -/
theorem encodeUtf8_hex_uuid (id : SdId128) :
    (Uuid.hex id.uuid).encodeUtf8 = some (hexlify id.bytes) := by
  have hlt : ∀ digit ∈ id.bytes.flatMap byteDigits, digit < 16 := by
    intro digit hdigit
    obtain ⟨byte, -, hbyte⟩ := List.mem_flatMap.mp hdigit
    exact byteDigits_lt byte digit hbyte
  have hlength : (id.bytes.flatMap byteDigits).length = 32 := by
    have hwidth : ∀ byte ∈ id.bytes, (byteDigits byte).length = 2 := fun _ _ ↦ rfl
    rw [List.length_flatMap, List.map_congr_left hwidth, List.map_const', List.sum_replicate,
      id.length_bytes]
    rfl
  have hdigits : Uuid.digits id.uuid = id.bytes.flatMap byteDigits := by
    refine List.reverse_injective (Nat.ofDigits_inj_of_len_eq (b := 16) (by norm_num) ?_ ?_ ?_ ?_)
    · rw [List.length_reverse, List.length_reverse, Uuid.length_digits, hlength]
    · exact fun digit hdigit ↦ Uuid.digits_lt _ digit (List.mem_reverse.mp hdigit)
    · exact fun digit hdigit ↦ hlt digit (List.mem_reverse.mp hdigit)
    · rw [Uuid.ofDigits_digits, ofDigits_flatMap_byteDigits]
      rfl
  rw [Uuid.hex_eq, hdigits, encodeUtf8_map_digitCodePoint hlt, hexlify, List.map_flatMap]

theorem parseSeekMonotonic_hex (monotonic : ℤ) (id : SdId128) :
    parseSeekMonotonic monotonic (some (Uuid.hex id.uuid)) =
      .ok (UInt64.ofInt monotonic, some (hexlify id.bytes)) := by
  have hdigit : ∀ digit < 16, digitByte digit ≠ 0 := by decide
  have hzero : 0 ∉ hexlify id.bytes := by
    intro hmem
    obtain ⟨byte, -, hbyte⟩ := List.mem_flatMap.mp hmem
    obtain ⟨digit, hmem, hnull⟩ := List.mem_map.mp hbyte
    exact hdigit digit (byteDigits_lt byte digit hmem) hnull
  have hparse := parseCString_of_encodeUtf8 (encodeUtf8_hex_uuid id) hzero
  rw [parseSeekMonotonic, Option.mapM_some, hparse]
  rfl

section Entries

variable {δ : Type} (platform : Platform δ)

/-- The time of an entry is a `timedelta` whatever it is, and its boot an id. -/
theorem convertMonotonic_eq (usec : UInt64) (id : SdId128) :
    ∃ timestamp : Timedelta, timestamp.microseconds = usec.toNat ∧
      convertMonotonic (.monotonic usec id.bytes) = .ok (timestamp, id.uuid) := by
  have hlt : (usec.toNat : ℤ) < 2 ^ 64 := by exact_mod_cast usec.toNat_lt
  have hrange : DaysInRange usec.toNat := by
    unfold DaysInRange microsecondsPerDay maxDays
    omega
  refine ⟨⟨usec.toNat, hrange⟩, rfl, ?_⟩
  have hid : uuidOfBytes id.bytes = .ok id.uuid := makeUuid_eq id
  rw [convertMonotonic, timedelta, dif_pos hrange, hid]
  rfl

/-- A dictionary that is not empty has the time of the entry. -/
theorem get?_monotonic_of_getNext {ν : Type} {converters : Converters ν} {skip : Int64}
    {call : MoveCall} (hcall : moveCall skip = some call) {move : MoveCall → ℤ}
    (hmove : 0 < move call) {replies : EntryReplies} {result : ConvertedEntry ν}
    (hresult : (getNext converters skip move replies).Returns (.ok result))
    (hnonempty : result.isEmpty = false) :
    result.get? (.ofString "__MONOTONIC_TIMESTAMP") =
      some (.one (convertedOrRaw converters (.ofString "__MONOTONIC_TIMESTAMP")
        (.monotonic replies.monotonic.2.1 replies.monotonic.2.2))) := by
  have hnext := (returns_getNext_of_moveCall converters hcall move replies).unique hresult
  rw [nextResult_of_pos hmove, entryResult] at hnext
  obtain ⟨entry, henumerated, hread⟩ := returned_bind.mp hnext
  cases hempty : entry.isEmpty with
  | true =>
    rw [hempty, if_pos rfl] at hread
    obtain rfl := Except.ok.inj hread
    cases hnonempty
  | false =>
    have hentry := henumerated ▸ returns_readerGetAll replies.outcomes
    obtain ⟨cursor, rfl⟩ :=
      exists_convertedEntry_of_getNext hcall hmove hentry hempty hresult
    have hadded : (Text.ofString "__MONOTONIC_TIMESTAMP",
        RawValue.monotonic replies.monotonic.2.1 replies.monotonic.2.2) ∈
          addedItems replies.realtime.2 replies.monotonic.2 cursor :=
      List.mem_cons_of_mem _ List.mem_cons_self
    rw [convertedEntry, OrderedDict.get?_mapEntries, get?_addTimes_of_mem hadded]
    rfl

/-- What an entry that was read has under `__MONOTONIC_TIMESTAMP` can be given to `seek_monotonic`.
It asks for the boot of the entry and for the time of the entry or the microsecond before, so that
the entry is not passed over. That the library reads the digits of an id is `hparse`. -/
theorem seekMonotonic_of_getNext {skip : Int64} {call : MoveCall}
    (hcall : moveCall skip = some call) {move : MoveCall → ℤ} (hmove : 0 < move call)
    {replies : EntryReplies} {result : ConvertedEntry (ConvertedObject δ)}
    (hresult : (getNext (defaultConverters platform) skip move replies).Returns (.ok result))
    (hnonempty : result.isEmpty = false)
    (husec : replies.monotonic.2.1.toNat < 2 ^ 52) (hboot : replies.monotonic.2.2.length = 16)
    {bootId : Option (List UInt8) → ℤ × List UInt8}
    (hparse : ∀ id : SdId128, bootId (some (hexlify id.bytes)) = (0, id.bytes)) :
    ∃ timestamp bootid t,
      result.get? (.ofString "__MONOTONIC_TIMESTAMP") =
        some (.one (.object (.monotonic timestamp bootid))) ∧
      AtOrJustBefore replies.monotonic.2.1.toNat t ∧ ∀ seek,
        seekMonotonic (.timedelta timestamp) (some (.uuid bootid)) bootId seek =
          callLibrary (seek replies.monotonic.2.2 t) none := by
  have hget := get?_monotonic_of_getNext hcall hmove hresult hnonempty
  obtain ⟨timestamp, hmicroseconds, hconvert⟩ :=
    convertMonotonic_eq replies.monotonic.2.1 ⟨replies.monotonic.2.2, hboot⟩
  obtain ⟨seconds, value, hseconds, hvalue, hnear⟩ := exists_intTimesMillion husec
  have hconverter : defaultConverter.get? (.ofString "__MONOTONIC_TIMESTAMP") =
      some .monotonic := by
    decide
  refine ⟨timestamp, SdId128.uuid ⟨replies.monotonic.2.2, hboot⟩, UInt64.ofInt value, ?_, hnear,
    fun seek ↦ ?_⟩
  · have hconverted : convertedOrRaw (defaultConverters platform)
        (.ofString "__MONOTONIC_TIMESTAMP")
        (.monotonic replies.monotonic.2.1 replies.monotonic.2.2) =
          .object (.monotonic timestamp (SdId128.uuid ⟨replies.monotonic.2.2, hboot⟩)) := by
      refine convertedOrRaw_of_ok ?_
      rw [conversion_default platform hconverter, DefaultConverter.convert, hconvert]
      rfl
    rw [hget, hconverted]
  · have husecs : monotonicUsec (.timedelta timestamp) = .ok value := by
      have htotal : totalSeconds timestamp = .ok seconds := by
        rw [totalSeconds, hmicroseconds]
        refine trueDivide_eq_ok_iff.mpr ?_
        rw [← hseconds]
        norm_num
      rw [monotonicUsec, htotal]
      exact hvalue
    rw [seekMonotonic, husecs, ofExcept_ok_bind, Option.map_some, BootidObject.hexOfUuid,
      parseSeekMonotonic_hex, readerSeekMonotonic, parseTuple, ofExcept_ok_bind]
    dsimp only
    rw [hparse ⟨replies.monotonic.2.2, hboot⟩]
    rfl

end Entries

/-- A message at the time 249, which is lost by a microsecond. -/
def messageEntry : Entry where
  items := [(.ofString "MESSAGE", .one [120])]
  nodup := by decide

def messageReplies : EntryReplies where
  outcomes := [(1, [77, 69, 83, 83, 65, 71, 69, 61, 120])]
  realtime := (0, 1)
  monotonic := (0, 249, List.replicate 16 7)
  cursor := (0, [115])

/-- The id of a text of its digits. -/
def parseBootId : Option (List UInt8) → ℤ × List UInt8
  | none => (0, List.replicate 16 0)
  | some digits =>
    match unhexlify digits with
    | .ok bytes => (0, bytes)
    | .error _ => (-EINVAL, [])

example : monotonicUsec (.timedelta ⟨249, by decide⟩) = .ok 248 := by
  decide +kernel

theorem seekMonotonic_of_getNext_sample :
    ∃ result, (getNext (defaultConverters utcPlatform) 1 (fun _ ↦ 1) messageReplies).Returns
        (.ok result) ∧
      ∃ timestamp bootid t,
        result.get? (.ofString "__MONOTONIC_TIMESTAMP") =
          some (.one (.object (.monotonic timestamp bootid))) ∧
        AtOrJustBefore 249 t ∧ ∀ seek,
          seekMonotonic (.timedelta timestamp) (some (.uuid bootid)) parseBootId seek =
            callLibrary (seek (List.replicate 16 7) t) none := by
  have hreads : messageReplies.Reads messageEntry (.ofString "s") :=
    { realtime := le_rfl
      monotonic := le_rfl
      cursor := le_rfl
      cursorText := by decide
      enumerated := rfl
      isEmpty := rfl }
  have hconvertible : utcPlatform.EntryConvertible messageEntry 1 := by
    refine ⟨List.forall_mem_singleton.mpr fun _ value _ ↦ ?_, timestampInRange_utcPlatform 1⟩
    have hmessage : defaultConverter.get? (.ofString "MESSAGE") = none := by decide
    unfold Platform.Convertible
    rw [hmessage]
    trivial
  obtain ⟨result, hresult⟩ :=
    exists_getNext_of_convertible utcPlatform (fun _ ↦ 1) Int.one_pos hreads hconvertible
  have hparse : ∀ id : SdId128, parseBootId (some (hexlify id.bytes)) = (0, id.bytes) := by
    intro id
    rw [parseBootId, unhexlify_hexlify]
  have hnonempty : result.isEmpty = false := by
    have hcall : moveCall 1 = some .next := by decide
    obtain ⟨cursor, rfl⟩ := exists_convertedEntry_of_getNext hcall Int.one_pos
      (hreads.enumerated ▸ returns_readerGetAll messageReplies.outcomes) rfl hresult
    rfl
  exact ⟨result, hresult, seekMonotonic_of_getNext utcPlatform
    (show moveCall 1 = some .next by decide) Int.one_pos hresult hnonempty (by decide) rfl hparse⟩

end PythonSystemd.Journal
