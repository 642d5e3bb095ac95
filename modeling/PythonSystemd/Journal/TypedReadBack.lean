import PythonSystemd.Journal.DefaultConverters
import PythonSystemd.Journal.ReadBack
import PythonSystemd.Python.Written

/-!
# Reading back what was sent, with the default converters

The fields of an entry are bytes, and `send` writes a number or an id as text. `DEFAULT_CONVERTERS`
makes a number of the field of a number and an id of the fields of ids, a field without a converter
is decoded, and what a converter rejects stays bytes: `readsTyped_send`.
-/

set_option autoImplicit false
set_option relaxedAutoImplicit false

namespace PythonSystemd.Journal

open Library Library.CheckedMemory Library.HandleProgram Program Python

/-! ### Ids -/

namespace Uuid

variable (uuid : Uuid)

/-- The digits of an id, from the first one on. -/
def digits : List ℕ :=
  (List.range 32).map fun i ↦ uuid.val / 16 ^ (31 - i) % 16

theorem length_digits : uuid.digits.length = 32 := by
  rw [digits, List.length_map, List.length_range]

theorem digits_lt : ∀ digit ∈ uuid.digits, digit < 16 := by
  intro digit hdigit
  obtain ⟨i, -, rfl⟩ := List.mem_map.mp hdigit
  exact Nat.mod_lt _ (by decide)

theorem reverse_digits :
    uuid.digits.reverse = (List.range 32).map fun i ↦ uuid.val / 16 ^ i % 16 := by
  refine List.ext_getElem (by simp [digits]) fun i hi hi' ↦ ?_
  rw [List.length_map, List.length_range] at hi'
  have hindex : 31 - (32 - 1 - i) = i := by omega
  simp [digits, hindex]

theorem ofDigits_digits : Nat.ofDigits 16 uuid.digits.reverse = uuid.val := by
  rw [reverse_digits, ofDigits_map_range]
  exact Nat.mod_eq_of_lt uuid.isLt

theorem ofChar_digit :
    ∀ digit < 16, CodePoint.ofChar (Uuid.digit digit) = digitCodePoint digit := by
  decide

theorem hex_eq : uuid.hex = uuid.digits.map digitCodePoint := by
  unfold hex digits
  rw [List.map_map]
  refine List.map_congr_left fun i _ ↦ ?_
  exact ofChar_digit _ (Nat.mod_lt _ (by decide))

theorem filter_hex : uuid.hex.filter (· ≠ dash) = uuid.digits.map digitCodePoint := by
  rw [hex_eq, List.filter_eq_self]
  intro character hcharacter
  obtain ⟨digit, hdigit, rfl⟩ := List.mem_map.mp hcharacter
  exact decide_eq_true (digitCodePoint_spec digit (uuid.digits_lt digit hdigit)).1

/-- Without its dashes the string of an id is its digits. -/
theorem filter_str : uuid.str.filter (· ≠ dash) = uuid.digits.map digitCodePoint := by
  have hdash : (Text.ofString "-").filter (· ≠ dash) = [] := by decide
  have hparts : uuid.hex.take 8 ++ (uuid.hex.drop 8).take 4 ++ (uuid.hex.drop 12).take 4 ++
      (uuid.hex.drop 16).take 4 ++ uuid.hex.drop 20 = uuid.hex := by
    have htwelve : uuid.hex.take 12 = uuid.hex.take 8 ++ (uuid.hex.drop 8).take 4 :=
      List.take_add (i := 8) (j := 4)
    have hsixteen : uuid.hex.take 16 = uuid.hex.take 12 ++ (uuid.hex.drop 12).take 4 :=
      List.take_add (i := 12) (j := 4)
    have htwenty : uuid.hex.take 20 = uuid.hex.take 16 ++ (uuid.hex.drop 16).take 4 :=
      List.take_add (i := 16) (j := 4)
    rw [← htwelve, ← hsixteen, ← htwenty, List.take_append_drop]
  rw [← filter_hex, ← hparts]
  unfold str
  simp only [List.filter_append, hdash, List.append_nil]

theorem uuidOfInt_val : uuidOfInt (uuid.val : ℕ) = .ok uuid := by
  have hrange : (0 : ℤ) ≤ uuid.val ∧ (uuid.val : ℤ) < 2 ^ 128 :=
    ⟨Int.natCast_nonneg _, by exact_mod_cast uuid.isLt⟩
  rw [uuidOfInt, dif_pos hrange]
  rfl

/-- An id is read from its digits and from its string. -/
theorem uuidOfText_hex (unicode : UnicodeDatabase) : uuidOfText unicode uuid.hex = .ok uuid := by
  rw [uuidOfText_of_digits unicode uuid.length_digits uuid.digits_lt uuid.filter_hex,
    ofDigits_digits, uuidOfInt_val]

theorem uuidOfText_str (unicode : UnicodeDatabase) : uuidOfText unicode uuid.str = .ok uuid := by
  rw [uuidOfText_of_digits unicode uuid.length_digits uuid.digits_lt uuid.filter_str,
    ofDigits_digits, uuidOfInt_val]

end Uuid

/-! ### The entry that `get_next` returns -/

variable {ν : Type} {converters : Converters ν}

/-- An entry that `get_next` returns is the conversion of what it has read. -/
theorem exists_convertedEntry_of_getNext {skip : Int64} {call : MoveCall}
    (hcall : moveCall skip = some call) {move : MoveCall → ℤ} (hmove : 0 < move call)
    {replies : EntryReplies} {entry : Entry}
    (hentry : (readerGetAll .null replies.outcomes).Returns (.ok entry))
    (hempty : entry.isEmpty = false) {result : ConvertedEntry ν}
    (hresult : (getNext converters skip move replies).Returns (.ok result)) :
    ∃ cursor, result =
      convertedEntry converters (addTimes entry replies.realtime.2 replies.monotonic.2 cursor) := by
  have hnext := (returns_getNext_of_moveCall converters hcall move replies).unique hresult
  have henumerated := (returns_readerGetAll replies.outcomes).unique hentry
  rw [nextResult_of_pos hmove] at hnext
  unfold entryResult at hnext
  rw [henumerated] at hnext
  obtain ⟨_, hok, hnext⟩ := returned_bind.mp hnext
  obtain rfl := Except.ok.inj hok
  rw [hempty, if_neg Bool.false_ne_true] at hnext
  obtain ⟨_, hrealtime, hnext⟩ := returned_bind.mp hnext
  obtain ⟨_, -, hrealtime⟩ := returned_bind.mp hrealtime
  obtain rfl := Except.ok.inj hrealtime
  obtain ⟨_, hmonotonic, hnext⟩ := returned_bind.mp hnext
  obtain ⟨_, -, hmonotonic⟩ := returned_bind.mp hmonotonic
  obtain rfl := Except.ok.inj hmonotonic
  obtain ⟨cursor, -, hconvert⟩ := returned_bind.mp hnext
  have hitems := itemsConvert_of_convertItems hconvert
  exact ⟨cursor, Except.ok.inj (hconvert.symm.trans ((convertEntry_eq_ok_iff _ _).mpr hitems))⟩

section Sent

variable (caller : StackFrame) {call : SendCall} {sendv : List (List UInt8) → ℤ}
  {lines : List (List UInt8)}

/-- The fields of a call that is read have none of the names that `get_next` adds, and no delimiter
in a name. -/
structure SendCall.Plain (call : SendCall) : Prop where
  no_equals : ∀ name ∈ call.kwargs.keys, equals ∉ name
  not_added : ∀ name ∈ call.kwargs.keys, name ∉ addedNames

theorem sendParameters_not_added : ∀ name ∈ sendParameters, name ∉ addedNames := by
  decide

theorem not_added_of_mem_supplied (hcall : call.Plain) {field : Text × FieldValue}
    (hfield : field ∈ supplied MessageId.id caller call) : field.1 ∉ addedNames := by
  obtain ⟨named, hsublist, hnames⟩ := map_fst_supplied MessageId.id caller call
  have hname : field.1 ∈ named ++ call.kwargs.keys := hnames ▸ List.mem_map_of_mem hfield
  rcases List.mem_append.mp hname with hparameter | hkwarg
  · exact sendParameters_not_added field.1 (hsublist.subset hparameter)
  · exact hcall.not_added field.1 hkwarg

/-- Every field that was sent comes back as the conversion of its bytes. -/
theorem get?_of_sent (hcall : call.Plain) (hlines : (send caller call sendv).handed = some lines)
    {move : MoveCall → ℤ} (hmove : 0 < move .next) {replies : EntryReplies}
    (hreplies : replies.outcomes = stored lines) {result : ConvertedEntry ν}
    (hresult : (getNext converters 1 move replies).Returns (.ok result))
    {field : Text × FieldValue} (hfield : field ∈ supplied MessageId.id caller call) :
    ∃ value, field.2.encoded = some value ∧
      result.get? field.1 = some (.one (convertedOrRaw converters field.1 (.bytes value))) := by
  obtain ⟨entry, hread, hkeys, hvalues⟩ :=
    exists_entry_of_handed caller call hcall.no_equals sendv hlines
  rw [← hreplies] at hread
  have hempty : entry.isEmpty = false :=
    OrderedDict.isEmpty_eq_false_iff.mpr ⟨field.1, hkeys ▸ List.mem_map_of_mem hfield⟩
  obtain ⟨cursor, rfl⟩ := exists_convertedEntry_of_getNext (by decide) hmove hread hempty hresult
  obtain ⟨value, hvalue, hget⟩ := hvalues field hfield
  refine ⟨value, hvalue, ?_⟩
  rw [convertedEntry, OrderedDict.get?_mapEntries,
    get?_addTimes_of_not_mem (not_added_of_mem_supplied caller hcall hfield), hget]
  rfl

variable {δ : Type} (platform : Platform δ)

/-- A number that may be written and read, for its digits. -/
def Platform.AllowsDigits (number : ℤ) : Prop :=
  platform.digitLimit = 0 ∨ (decimalDigits number.natAbs).length ≤ platform.digitLimit

/-- What is read back as an object of the type that was sent: the numbers, the ids, the bytes and
the texts, and as bytes what a converter rejects. -/
structure ReadsTyped (call : SendCall) (result : ConvertedEntry (ConvertedObject δ)) : Prop where
  number : ∀ name number, (name, .other (.ok (.ofString (toString number)))) ∈ call.kwargs.items →
    defaultConverter.get? name = some .int → platform.AllowsDigits number →
    result.get? name = some (.one (.object (.int number)))
  line : ∀ number, (call.code caller).2.1 = some number → platform.AllowsDigits number →
    result.get? (.ofString "CODE_LINE") = some (.one (.object (.int number)))
  id : ∀ uuid, call.messageId = some (.uuid uuid) ∨ call.messageId = some (.text uuid.hex) ∨
      call.messageId = some (.text uuid.str) →
    result.get? (.ofString "MESSAGE_ID") = some (.one (.object (.uuid uuid)))
  uuid : ∀ name (uuid : Uuid), (name, .text uuid.hex) ∈ call.kwargs.items ∨
      (name, .text uuid.str) ∈ call.kwargs.items →
    defaultConverter.get? name = some .uuid →
    result.get? name = some (.one (.object (.uuid uuid)))
  binary : ∀ name value, (name, .bytes value) ∈ call.kwargs.items →
    defaultConverter.get? name = some .bytes →
    result.get? name = some (.one (.object (.bytes value)))
  text : ∀ name text, (name, .text text) ∈ supplied MessageId.id caller call →
    defaultConverter.get? name = none → result.get? name = some (.one (.text text))
  bytes : ∀ name value, (name, .bytes value) ∈ call.kwargs.items →
    defaultConverter.get? name = none →
    result.get? name = some (.one (match decodeUtf8 value with
      | some text => .text text
      | none => .raw (.bytes value)))
  rejected : ∀ name value bytes exception, (name, value) ∈ supplied MessageId.id caller call →
    value.encoded = some bytes →
    conversion (defaultConverters platform) name (.bytes bytes) = .error exception →
    result.get? name = some (.one (.raw (.bytes bytes)))

end Sent

/-! ### What the default converters make of it -/

section Converted

variable {δ : Type} (platform : Platform δ) {name : Text}

/-- What the attempt for a value returns is what the conversion returns. -/
theorem convertedOrRaw_of_ok {value : RawValue} {converted : Converted ν}
    (h : conversion converters name value = .ok converted) :
    convertedOrRaw converters name value = converted := by
  rw [convertedOrRaw, h]

theorem conversion_default {converter : DefaultConverter}
    (h : defaultConverter.get? name = some converter) (value : RawValue) :
    conversion (defaultConverters platform) name value =
      (converter.convert platform value).map .object := by
  unfold conversion
  rw [get?_defaultConverters, h]
  rfl

/-- The bytes of a number are read as the number. -/
theorem convertedOrRaw_number (hconverter : defaultConverter.get? name = some .int) {number : ℤ}
    (hdigits : platform.AllowsDigits number) {bytes : List UInt8}
    (hbytes : (Text.ofString (toString number)).encodeUtf8 = some bytes) :
    convertedOrRaw (defaultConverters platform) name (.bytes bytes) = .object (.int number) := by
  have hlimit : ¬ (platform.digitLimit ≠ 0 ∧
      platform.digitLimit < (decimalDigits number.natAbs).length) := by
    rintro ⟨hne, hlt⟩
    rcases hdigits with hzero | hle
    · exact hne hzero
    · omega
  obtain rfl := Option.some.inj ((encodeUtf8_toString number).symm.trans hbytes)
  refine convertedOrRaw_of_ok ?_
  rw [conversion_default platform hconverter, DefaultConverter.convert, convertInt,
    intOfBytes_toString, if_neg hlimit]
  rfl

theorem convertedOrRaw_uuid (hconverter : defaultConverter.get? name = some .uuid) {text : Text}
    {uuid : Uuid} (htext : uuidOfText platform.unicode text = .ok uuid) {bytes : List UInt8}
    (hbytes : text.encodeUtf8 = some bytes) :
    convertedOrRaw (defaultConverters platform) name (.bytes bytes) = .object (.uuid uuid) := by
  have hdecode : unicodeFromString bytes = .ok text := by
    rw [unicodeFromString, decodeUtf8_encodeUtf8 hbytes]
  have hconvert : convertUuid platform (.bytes bytes) = .ok uuid :=
    returned_bind.mpr ⟨text, hdecode, htext⟩
  refine convertedOrRaw_of_ok ?_
  rw [conversion_default platform hconverter, DefaultConverter.convert, hconvert]
  rfl

/-- Without a converter bytes are decoded, or left as they are. -/
theorem convertedOrRaw_none (hconverter : defaultConverter.get? name = none) (bytes : List UInt8) :
    convertedOrRaw (defaultConverters platform) name (.bytes bytes) =
      match decodeUtf8 bytes with
      | some text => .text text
      | none => .raw (.bytes bytes) := by
  unfold convertedOrRaw conversion
  rw [get?_defaultConverters, hconverter]
  simp only [Option.map_none, bytesDecode, unicodeFromString]
  cases decodeUtf8 bytes with
  | none => rfl
  | some text => rfl

theorem convertedOrRaw_of_error {value : RawValue} {exception : PyException}
    (h : conversion converters name value = .error exception) :
    convertedOrRaw converters name value = .raw value := by
  rw [convertedOrRaw, h]

end Converted

/-! ### What comes back -/

section ComesBack

variable {δ : Type} {platform : Platform δ} {caller : StackFrame} {call : SendCall}
  {result : ConvertedEntry (ConvertedObject δ)} {name : Text}

/-- Every field that the call supplies is in the entry as what the converters make of its bytes. -/
def ComesBack (platform : Platform δ) (caller : StackFrame) (call : SendCall)
    (result : ConvertedEntry (ConvertedObject δ)) : Prop :=
  ∀ field ∈ supplied MessageId.id caller call, ∃ bytes, field.2.encoded = some bytes ∧
    result.get? field.1 =
      some (.one (convertedOrRaw (defaultConverters platform) field.1 (.bytes bytes)))

theorem ComesBack.get?_eq (h : ComesBack platform caller call result) {value : FieldValue}
    (hmem : (name, value) ∈ supplied MessageId.id caller call) {bytes : List UInt8}
    (hbytes : value.encoded = some bytes) :
    result.get? name =
      some (.one (convertedOrRaw (defaultConverters platform) name (.bytes bytes))) := by
  obtain ⟨bytes', hbytes', hget⟩ := h (name, value) hmem
  rw [hget, Option.some.inj (hbytes'.symm.trans hbytes)]

theorem ComesBack.get?_number (h : ComesBack platform caller call result) {value : FieldValue}
    (hmem : (name, value) ∈ supplied MessageId.id caller call) {number : ℤ}
    (hvalue : value.encoded = (Text.ofString (toString number)).encodeUtf8)
    (hconverter : defaultConverter.get? name = some .int)
    (hdigits : platform.AllowsDigits number) :
    result.get? name = some (.one (.object (.int number))) := by
  obtain ⟨bytes, hbytes⟩ : ∃ bytes, (Text.ofString (toString number)).encodeUtf8 = some bytes :=
    ⟨_, encodeUtf8_toString number⟩
  rw [h.get?_eq hmem (hvalue.trans hbytes),
    convertedOrRaw_number platform hconverter hdigits hbytes]

theorem ComesBack.get?_uuid (h : ComesBack platform caller call result) {text : Text}
    (hmem : (name, .text text) ∈ supplied MessageId.id caller call) {uuid : Uuid}
    (htext : uuidOfText platform.unicode text = .ok uuid)
    (hconverter : defaultConverter.get? name = some .uuid) :
    result.get? name = some (.one (.object (.uuid uuid))) := by
  obtain ⟨bytes, hbytes, hget⟩ := h (name, .text text) hmem
  rw [hget, convertedOrRaw_uuid platform hconverter htext hbytes]

theorem ComesBack.get?_text (h : ComesBack platform caller call result) {text : Text}
    (hmem : (name, .text text) ∈ supplied MessageId.id caller call)
    (hconverter : defaultConverter.get? name = none) :
    result.get? name = some (.one (.text text)) := by
  obtain ⟨bytes, hbytes, hget⟩ := h (name, .text text) hmem
  rw [hget, convertedOrRaw_none platform hconverter, decodeUtf8_encodeUtf8 hbytes]

/-- An id reads the same from its digits and from its string. -/
theorem exists_text_of_uuid (uuid : Uuid) {fields : List (Text × FieldValue)}
    (h : (name, .text uuid.hex) ∈ fields ∨ (name, .text uuid.str) ∈ fields) :
    ∃ text, (name, FieldValue.text text) ∈ fields ∧
      uuidOfText platform.unicode text = .ok uuid := by
  rcases h with hhex | hstr
  · exact ⟨uuid.hex, hhex, Uuid.uuidOfText_hex uuid _⟩
  · exact ⟨uuid.str, hstr, Uuid.uuidOfText_str uuid _⟩

end ComesBack

section Supplied

variable {caller : StackFrame} {call : SendCall}

theorem mem_supplied_of_kwargs {field : Text × FieldValue} (h : field ∈ call.kwargs.items) :
    field ∈ supplied MessageId.id caller call :=
  List.mem_append_right _ h

theorem mem_supplied_line {number : ℤ} (h : (call.code caller).2.1 = some number) :
    (.ofString "CODE_LINE", .text (.ofString (toString number))) ∈
      supplied MessageId.id caller call := by
  unfold supplied
  simp [h, optionalField]

theorem mem_supplied_id {uuid : Uuid}
    (h : call.messageId = some (.uuid uuid) ∨ call.messageId = some (.text uuid.hex) ∨
      call.messageId = some (.text uuid.str)) :
    (.ofString "MESSAGE_ID", .text uuid.hex) ∈ supplied MessageId.id caller call ∨
      (.ofString "MESSAGE_ID", .text uuid.str) ∈ supplied MessageId.id caller call := by
  unfold supplied
  rcases h with huuid | hhex | hstr
  · exact .inl (by simp [huuid, optionalField, MessageId.id])
  · exact .inl (by simp [hhex, optionalField, MessageId.id])
  · exact .inr (by simp [hstr, optionalField, MessageId.id])

end Supplied

/-- Whatever `send` hands over, an entry of these lines that `get_next` returns has the numbers, the
ids, the texts and the bytes of the call again. -/
theorem readsTyped_send {δ : Type} (platform : Platform δ) (caller : StackFrame) {call : SendCall}
    (hcall : call.Plain) (sendv : List (List UInt8) → ℤ) {lines : List (List UInt8)}
    (hlines : (send caller call sendv).handed = some lines) {move : MoveCall → ℤ}
    (hmove : 0 < move .next) {replies : EntryReplies} (hreplies : replies.outcomes = stored lines)
    {result : ConvertedEntry (ConvertedObject δ)}
    (hresult : (getNext (defaultConverters platform) 1 move replies).Returns (.ok result)) :
    ReadsTyped caller platform call result := by
  have hback : ComesBack platform caller call result := fun field hfield ↦
    get?_of_sent caller hcall hlines hmove hreplies hresult hfield
  have hline : defaultConverter.get? (.ofString "CODE_LINE") = some .int := by decide
  have hid : defaultConverter.get? (.ofString "MESSAGE_ID") = some .uuid := by decide
  exact
    { number := fun name number hmem hconverter hdigits ↦
        hback.get?_number (mem_supplied_of_kwargs hmem) rfl hconverter hdigits
      line := fun number hnumber hdigits ↦
        hback.get?_number (mem_supplied_line hnumber) rfl hline hdigits
      id := by
        intro uuid huuid
        obtain ⟨text, hmem, htext⟩ := exists_text_of_uuid uuid (mem_supplied_id huuid)
        exact hback.get?_uuid hmem htext hid
      uuid := by
        intro name uuid huuid hconverter
        obtain ⟨text, hmem, htext⟩ := exists_text_of_uuid uuid huuid
        exact hback.get?_uuid (mem_supplied_of_kwargs hmem) htext hconverter
      binary := by
        intro name value hmem hconverter
        rw [hback.get?_eq (mem_supplied_of_kwargs hmem) rfl,
          convertedOrRaw_of_ok (conversion_default platform hconverter _)]
      text := fun name text hmem hconverter ↦ hback.get?_text hmem hconverter
      bytes := by
        intro name value hmem hconverter
        rw [hback.get?_eq (mem_supplied_of_kwargs hmem) rfl,
          convertedOrRaw_none platform hconverter]
      rejected := by
        intro name value bytes exception hmem hbytes hrejected
        rw [hback.get?_eq hmem hbytes, convertedOrRaw_of_error hrejected] }

/-- An entry whose numbers are in range is returned. -/
theorem exists_getNext_of_convertible {δ : Type} (platform : Platform δ) (move : MoveCall → ℤ)
    (hmove : 0 < move .next) {replies : EntryReplies} {entry : Entry} {cursor : Text}
    (hreads : replies.Reads entry cursor)
    (hconvertible : platform.EntryConvertible entry replies.realtime.2) :
    ∃ result, (getNext (defaultConverters platform) 1 move replies).Returns (.ok result) := by
  have hreturns := returns_getNext_of_reads (defaultConverters platform)
    (show moveCall 1 = some .next by decide) hmove hreads
  rw [(convertEntry_defaultConverters_iff platform entry _ _ _).mpr hconvertible] at hreturns
  exact ⟨_, hreturns⟩

theorem timestampInRange_utcPlatform (usec : UInt64) :
    utcPlatform.TimestampInRange usec.toNat :=
  ⟨abs_div_lt_overflowBound usec, fun timestamp _ ↦ supports_utcPlatform timestamp⟩

theorem convertible_uuidCall (value : List UInt8) :
    ∀ name ∈ (supplied MessageId.id sampleFrame uuidCall).map Prod.fst,
      utcPlatform.Convertible name value := by
  have hconverters : ∀ name ∈ (supplied MessageId.id sampleFrame uuidCall).map Prod.fst,
      defaultConverter.get? name ∈ [none, some .uuid, some .int] := by decide
  intro name hname
  unfold Platform.Convertible
  rcases List.mem_cons.mp (hconverters name hname) with hnone | hsome
  · rw [hnone]
    trivial
  · rcases List.mem_cons.mp hsome with huuid | hint
    · rw [huuid]
      trivial
    · rw [List.mem_singleton.mp hint]
      trivial

/-- A message with an id, a line and a binary field. -/
theorem readsTyped_uuidCall : ∃ lines replies result,
    (send sampleFrame uuidCall fun _ ↦ 0).handed = some lines ∧
      replies.outcomes = stored lines ∧
      (getNext (defaultConverters utcPlatform) 1 (fun _ ↦ 1) replies).Returns (.ok result) ∧
      ReadsTyped sampleFrame utcPlatform uuidCall result := by
  have hhanded : (send sampleFrame uuidCall fun _ ↦ 0).handed ≠ none := by decide
  obtain ⟨lines, hlines⟩ := Option.ne_none_iff_exists'.mp hhanded
  obtain ⟨entry, hread, hkeys, -⟩ :=
    exists_entry_of_handed sampleFrame uuidCall (by decide) (fun _ ↦ 0) hlines
  let replies : EntryReplies := { interleavedReplies with outcomes := stored lines }
  have hcursor : unicodeFromString [115] = .ok (.ofString "s") := by decide
  have hreads : replies.Reads entry (.ofString "s") :=
    { realtime := le_rfl
      monotonic := le_rfl
      cursor := le_rfl
      cursorText := hcursor
      enumerated := (returns_readerGetAll (stored lines)).unique hread
      isEmpty := OrderedDict.isEmpty_eq_false_iff.mpr
        ⟨.ofString "MESSAGE", hkeys ▸ List.mem_cons_self⟩ }
  have hconvertible : utcPlatform.EntryConvertible entry 1 := by
    refine ⟨fun item hitem _ value _ ↦ convertible_uuidCall value item.1 ?_,
      timestampInRange_utcPlatform 1⟩
    rw [← hkeys]
    exact List.mem_map_of_mem hitem
  have hmove : (0 : ℤ) < (fun _ : MoveCall ↦ 1) .next := Int.one_pos
  obtain ⟨result, hresult⟩ :=
    exists_getNext_of_convertible utcPlatform (fun _ ↦ 1) hmove hreads hconvertible
  exact ⟨lines, replies, result, hlines, rfl, hresult, readsTyped_send utcPlatform sampleFrame
    ⟨by decide, by decide⟩ (fun _ ↦ 0) hlines hmove rfl hresult⟩

end PythonSystemd.Journal
