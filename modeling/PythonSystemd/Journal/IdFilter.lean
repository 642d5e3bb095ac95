import PythonSystemd.Id128.Calls
import PythonSystemd.Journal.MatchQueries
import PythonSystemd.Journal.TypedReadBack

/-!
# Filtering by an id

`this_boot`, `this_machine` and `messageid_match` add the match for the digits of an id, and the
default converters make ids of the digits that an entry has. `selects_ids_iff` says that the two
agree: the filter selects an entry exactly when the dictionary that `get_next` returns for it has
the ids that were asked for.
-/

set_option autoImplicit false
set_option relaxedAutoImplicit false

namespace PythonSystemd.Journal

open Library Library.HandleProgram Library.MatchFormula Program Python Id128

/-! ### Matches and items -/

/-- The data of an item is the line of its field. -/
theorem exists_line_of_isItem {field : Field} {outcome : ℤ × List UInt8}
    (h : IsItem field outcome) : ∃ name, delimiter ∉ name ∧ field.1.encodeUtf8 = some name ∧
      outcome.2 = line (name, field.2) := by
  obtain ⟨-, name, hname, hkey, hdata⟩ := h
  refine ⟨name, hname, ?_, hdata⟩
  unfold unicodeFromString at hkey
  cases hdecode : decodeUtf8 name with
  | none =>
    rw [hdecode] at hkey
    cases hkey
  | some text =>
    rw [hdecode] at hkey
    obtain rfl := Except.ok.inj hkey
    exact encodeUtf8_of_decodeUtf8 hdecode

/-- An entry has the line of a field exactly when one of its items is the field. -/
theorem hasField_iff_mem_fields {fields : List Field} {outcomes : List (ℤ × List UInt8)}
    (hitems : List.Forall₂ IsItem fields outcomes) {name : Text} {value : FieldValue}
    {bytes : List UInt8} (hvalue : value.encoded = some bytes) (hname : equals ∉ name) :
    HasField (outcomes.map Prod.snd) (name, value) ↔ (name, bytes) ∈ fields := by
  induction hitems with
  | nil =>
    refine iff_of_false ?_ List.not_mem_nil
    rintro ⟨_, -, hmem⟩
    cases hmem
  | @cons field outcome fields outcomes hitem _ ih =>
    obtain ⟨fieldName, hdelimiter, hencode, hdata⟩ := exists_line_of_isItem hitem
    rw [List.mem_cons, ← ih]
    constructor
    · rintro ⟨encoded, hencoded, hmem⟩
      rw [List.map_cons] at hmem
      rcases List.mem_cons.mp hmem with hline | hrest
      · have hsame : encoded = (fieldName, field.2) :=
          line_injective (delimiter_not_mem_of_encodes hencoded hname) hdelimiter
            (hline.trans hdata)
        have hnames := decodeUtf8_encodeUtf8 hencoded.name
        have hbytes := hencoded.value.symm.trans hvalue
        rw [hsame] at hnames hbytes
        left
        exact Prod.ext (Option.some.inj (hnames.symm.trans (decodeUtf8_encodeUtf8 hencode)))
          (Option.some.inj hbytes).symm
      · exact .inr ⟨encoded, hencoded, hrest⟩
    · rintro (rfl | ⟨encoded, hencoded, hmem⟩)
      · exact ⟨(fieldName, bytes), ⟨hencode, hvalue⟩, hdata ▸ List.mem_cons_self⟩
      · exact ⟨encoded, hencoded, List.mem_cons_of_mem _ hmem⟩

/-! ### The steps -/

/-- The field that a method adds a match for. -/
def idField (name : String) (uuid : Uuid) : Text × FieldValue :=
  (.ofString name, .text uuid.hex)

theorem exists_encoded_of_idRequests {name : String} {id : Except PyException Uuid}
    {steps : List FilterStep}
    (h : steps.map .ok = idRequests name (id.map fun uuid ↦ .text uuid.hex)) :
    ∃ uuid, id = .ok uuid ∧ ∃ bytes, Encodes (idField name uuid) bytes ∧
      steps = [.add (line bytes)] := by
  cases id with
  | error exception =>
    obtain ⟨step, -, hstep⟩ := List.map_eq_singleton_iff.mp h
    cases hstep
  | ok uuid =>
    obtain ⟨encoded, hencoded, rfl⟩ := exists_encoded_of_addRequests h
    obtain ⟨bytes, rest, hbytes, hrest, rfl⟩ := List.forall₂_cons_left_iff.mp hencoded
    obtain rfl := List.forall₂_nil_left_iff.mp hrest
    exact ⟨uuid, rfl, bytes, hbytes, rfl⟩

/-- The calls for entries of this boot and this machine with an id of a message. -/
def idCalls (messageid : Uuid) : List FilterCall :=
  [.flushMatches, .thisBoot none, .thisMachine none, .messageidMatch (.uuid messageid)]

def idFields (boot machine messageid : Uuid) : List (Text × FieldValue) :=
  [idField "_BOOT_ID" boot, idField "_MACHINE_ID" machine, idField "MESSAGE_ID" messageid]

/-- The fields of the three matches have different names, without a delimiter. -/
theorem idNames_spec (boot machine messageid : Uuid) :
    (∀ field ∈ idFields boot machine messageid, equals ∉ field.1) ∧
      ((idFields boot machine messageid).map Prod.fst).Nodup := by
  have hnames : ∀ name ∈ ["_BOOT_ID", "_MACHINE_ID", "MESSAGE_ID"].map Text.ofString,
      equals ∉ name := by decide
  have hnodup : (["_BOOT_ID", "_MACHINE_ID", "MESSAGE_ID"].map Text.ofString).Nodup := by decide
  exact ⟨fun field hfield ↦ hnames field.1 (List.mem_map_of_mem (f := Prod.fst) hfield), hnodup⟩

theorem selects_idCalls_iff {selects : Matching} (documented : DocumentedMatching selects)
    (library : FilterLibrary) (host : Host) (before : List FilterStep)
    {messageid : Uuid}
    (hreturned : ∀ result ∈ (runFilter library host (idCalls messageid) before).1,
      result = .ok ()) :
    ∃ boot machine, host.getBoot = .ok boot ∧ host.getMachine = .ok machine ∧
      ∀ lines, selects (runFilter library host (idCalls messageid) before).2 lines ↔
        ∀ field ∈ idFields boot machine messageid, HasField lines field := by
  obtain ⟨taken, hrun, htaken⟩ := exists_steps_of_returned library host hreturned
  have hsplit : taken.map .ok = .ok .flush ::
      (idRequests "_BOOT_ID" (host.getBoot.map fun uuid ↦ .text uuid.hex) ++
        (idRequests "_MACHINE_ID" (host.getMachine.map fun uuid ↦ .text uuid.hex) ++
          idRequests "MESSAGE_ID" ((Except.ok messageid).map fun uuid ↦ .text uuid.hex))) := by
    rw [htaken]
    simp only [idCalls, List.flatMap_cons, List.flatMap_nil, List.append_nil]
    rfl
  obtain ⟨step, steps, rfl, hstep, hsteps⟩ := List.map_eq_cons_iff.mp hsplit
  obtain rfl := Except.ok.inj hstep
  obtain ⟨first, rest, rfl, hfirst, hrest⟩ := List.map_eq_append_iff.mp hsteps
  obtain ⟨second, third, rfl, hsecond, hthird⟩ := List.map_eq_append_iff.mp hrest
  obtain ⟨boot, hboot, bootBytes, hbootBytes, rfl⟩ := exists_encoded_of_idRequests hfirst
  obtain ⟨machine, hmachine, machineBytes, hmachineBytes, rfl⟩ :=
    exists_encoded_of_idRequests hsecond
  obtain ⟨_, hmessage, messageBytes, hmessageBytes, rfl⟩ := exists_encoded_of_idRequests hthird
  obtain rfl := Except.ok.inj hmessage
  refine ⟨boot, machine, hboot, hmachine, fun lines ↦ ?_⟩
  obtain ⟨hnames, hnodup⟩ := idNames_spec boot machine messageid
  have hencoded : List.Forall₂ Encodes (idFields boot machine messageid)
      [bootBytes, machineBytes, messageBytes] :=
    .cons hbootBytes (.cons hmachineBytes (.cons hmessageBytes .nil))
  have hflushed : selects (before ++ .flush ::
      ([bootBytes, machineBytes, messageBytes].map line).map .add) lines ↔ _ :=
    (documented lines).append_flush (by simp)
  refine (hrun ▸ hflushed).trans ?_
  rw [(documented lines).map_add, groupHolds_iff_of_nodup (nodup_matchName hencoded hnames hnodup),
    forall_mem_lines_iff hencoded]

/-! ### Ids of an entry -/

theorem exists_encodeUtf8_hex (uuid : Uuid) : ∃ bytes, uuid.hex.encodeUtf8 = some bytes := by
  have hhex : uuid.hex = ((List.range 32).map fun i ↦
      Uuid.digit (uuid.val / 16 ^ (31 - i) % 16)).map CodePoint.ofChar := by
    rw [List.map_map]
    rfl
  rw [hhex]
  exact ⟨_, encodeUtf8_eq_some.mpr ⟨_, Text.toChars?_map_ofChar _, rfl⟩⟩

section Entries

variable {ν : Type} {converters : Converters ν} {fields : List Field} {result : ConvertedEntry ν}

/-- The values of a key in the dictionary are the conversions of the values of the key. -/
theorem Assembled.mem_values_iff {added : List (Text × RawValue)}
    (h : Assembled converters fields added result) {key : Text} (hkey : key ∉ addedNames)
    {converted : Converted ν} :
    (∃ data, result.get? key = some data ∧ converted ∈ data.values) ↔
      ∃ value, (key, value) ∈ fields ∧
        converted = convertedOrRaw converters key (.bytes value) := by
  have hvalues : (∃ data, result.get? key = some data ∧ converted ∈ data.values) ↔
      converted ∈ (valuesOf key fields).map
        fun value ↦ convertedOrRaw converters key (.bytes value) := by
    match hlist : valuesOf key fields with
    | [] =>
      refine iff_of_false ?_ List.not_mem_nil
      rintro ⟨data, hdata, -⟩
      rcases (h.keys key).mp (OrderedDict.mem_keys_iff.mpr ⟨data, hdata⟩) with hmem | hadded
      · exact valuesOf_ne_nil_iff.mpr hmem hlist
      · exact hkey hadded
    | [value] =>
      rw [h.once key value hlist]
      simp [FieldData.values]
    | first :: second :: rest =>
      have hlength : 2 ≤ (valuesOf key fields).length := by
        rw [hlist]
        exact Nat.le_add_left 2 rest.length
      rw [h.several key hlength, hlist]
      simp [FieldData.values]
  rw [hvalues, List.mem_map]
  constructor
  · rintro ⟨value, hvalue, rfl⟩
    exact ⟨value, mem_valuesOf.mp hvalue, rfl⟩
  · rintro ⟨value, hvalue, rfl⟩
    exact ⟨value, mem_valuesOf.mpr hvalue, rfl⟩

/-- What `get_next` returns for an entry of these items. -/
theorem assembled_of_getNext {replies : EntryReplies}
    (hitems : List.Forall₂ IsItem fields replies.outcomes) (hnonempty : fields ≠ [])
    (hnames : ∀ field ∈ fields, field.1 ∉ addedNames) {move : MoveCall → ℤ}
    (hmove : 0 < move .next)
    (hresult : (getNext converters 1 move replies).Returns (.ok result)) :
    ∃ added, Assembled converters fields added result := by
  obtain ⟨entry, hentry, hgroups⟩ := exists_enumerated_groups hitems
    (show Groups OrderedDict.empty [] from fun _ ↦ rfl)
  have hgroups : Groups entry fields := hgroups
  have hread := hentry ▸ returns_readerGetAll replies.outcomes
  obtain ⟨cursor, rfl⟩ := exists_convertedEntry_of_getNext
    (show moveCall 1 = some .next by decide) hmove hread (hgroups.isEmpty_eq_false hnonempty)
    hresult
  exact ⟨_, assembled_convertedEntry converters hgroups hnames _ _ cursor⟩

end Entries

/-- The dictionary has the id among the values of the field. -/
def HasId {δ : Type} (result : ConvertedEntry (ConvertedObject δ)) (name : String)
    (uuid : Uuid) : Prop :=
  ∃ data, result.get? (.ofString name) = some data ∧ .object (.uuid uuid) ∈ data.values

/-- The fields of an id, as their names. -/
def idNames : List String :=
  ["_BOOT_ID", "_MACHINE_ID", "MESSAGE_ID"]

theorem idNames_converted : ∀ name ∈ idNames, Text.ofString name ∉ addedNames ∧
    equals ∉ Text.ofString name ∧ defaultConverter.get? (.ofString name) = some .uuid := by
  decide

/-- A match for an id holds of an entry exactly when the dictionary of the entry has the id, where
the entry has the digits of ids. -/
theorem hasField_idField_iff {δ : Type} (platform : Platform δ) {fields : List Field}
    {outcomes : List (ℤ × List UInt8)} (hitems : List.Forall₂ IsItem fields outcomes)
    {result : ConvertedEntry (ConvertedObject δ)} {added : List (Text × RawValue)}
    (hassembled : Assembled (defaultConverters platform) fields added result) {name : String}
    (hname : name ∈ idNames)
    (hhex : ∀ value, (.ofString name, value) ∈ fields →
      ∃ uuid : Uuid, uuid.hex.encodeUtf8 = some value) (uuid : Uuid) :
    HasField (outcomes.map Prod.snd) (idField name uuid) ↔ HasId result name uuid := by
  obtain ⟨hadded, hequals, hconverter⟩ := idNames_converted name hname
  obtain ⟨bytes, hbytes⟩ := exists_encodeUtf8_hex uuid
  have hconverted : ∀ {id : Uuid} {value : List UInt8}, id.hex.encodeUtf8 = some value →
      convertedOrRaw (defaultConverters platform) (.ofString name) (.bytes value) =
        .object (.uuid id) := fun hid ↦
    convertedOrRaw_uuid platform hconverter (Uuid.uuidOfText_hex _ platform.unicode) hid
  have hencoded : (FieldValue.text uuid.hex).encoded = some bytes := hbytes
  unfold idField HasId
  rw [hasField_iff_mem_fields hitems hencoded hequals, hassembled.mem_values_iff hadded]
  constructor
  · exact fun hmem ↦ ⟨bytes, hmem, (hconverted hbytes).symm⟩
  · rintro ⟨value, hmem, hvalue⟩
    obtain ⟨id, hid⟩ := hhex value hmem
    rw [hconverted hid] at hvalue
    obtain rfl := ConvertedObject.uuid.inj (Converted.object.inj hvalue)
    rwa [Option.some.inj (hbytes.symm.trans hid)]

/-- A filter for this boot, this machine and the id of a message selects an entry exactly when the
dictionary that `get_next` returns for the entry has the UUIDs of the bytes that the library has for
the boot and the machine, and the id of the message. -/
theorem selects_ids_iff {selects : Matching} (documented : DocumentedMatching selects) {δ : Type}
    (platform : Platform δ) (library : FilterLibrary)
    (before : List FilterStep) (bootResult machineResult : ℤ) (boot machine : SdId128)
    (messageid : Uuid)
    (hreturned : ∀ result ∈ (runFilter library
      ⟨getBoot bootResult boot, getMachine machineResult machine⟩ (idCalls messageid) before).1,
      result = .ok ())
    {fields : List Field} {replies : EntryReplies}
    (hitems : List.Forall₂ IsItem fields replies.outcomes) (hnonempty : fields ≠ [])
    (hnames : ∀ field ∈ fields, field.1 ∉ addedNames)
    (hhex : ∀ name ∈ idNames, ∀ value, (.ofString name, value) ∈ fields →
      ∃ uuid : Uuid, uuid.hex.encodeUtf8 = some value)
    {move : MoveCall → ℤ} (hmove : 0 < move .next)
    {result : ConvertedEntry (ConvertedObject δ)}
    (hresult : (getNext (defaultConverters platform) 1 move replies).Returns (.ok result)) :
    selects (runFilter library ⟨getBoot bootResult boot, getMachine machineResult machine⟩
        (idCalls messageid) before).2 (replies.outcomes.map Prod.snd) ↔
      HasId result "_BOOT_ID" boot.uuid ∧ HasId result "_MACHINE_ID" machine.uuid ∧
        HasId result "MESSAGE_ID" messageid := by
  obtain ⟨_, _, hboot, hmachine, hselects⟩ := selects_idCalls_iff documented library _ before
    hreturned
  obtain ⟨-, rfl⟩ := helper_eq_ok_iff.mp hboot
  obtain ⟨-, rfl⟩ := helper_eq_ok_iff.mp hmachine
  obtain ⟨added, hassembled⟩ := assembled_of_getNext hitems hnonempty hnames hmove hresult
  have hiff : ∀ {name}, name ∈ idNames → ∀ uuid,
      HasField (replies.outcomes.map Prod.snd) (idField name uuid) ↔ HasId result name uuid :=
    fun hname ↦ hasField_idField_iff platform hitems hassembled hname (hhex _ hname)
  rw [hselects]
  unfold idFields
  rw [List.forall_mem_cons, List.forall_mem_cons, List.forall_mem_singleton,
    hiff (by decide), hiff (by decide), hiff (by decide)]

def sampleId : SdId128 where
  bytes := BigEndian.toBytes 16 5
  length_bytes := rfl

/-- The digits of a small id. -/
def sampleDigits (last : UInt8) : List UInt8 :=
  List.replicate 31 48 ++ [last]

theorem encodeUtf8_sampleDigits : (Uuid.hex 5).encodeUtf8 = some (sampleDigits 53) ∧
    (Uuid.hex 1).encodeUtf8 = some (sampleDigits 49) := by
  decide +kernel

def idFieldsSample : List Field :=
  [(.ofString "_BOOT_ID", sampleDigits 53), (.ofString "_MACHINE_ID", sampleDigits 53),
    (.ofString "MESSAGE_ID", sampleDigits 49)]

/-- The data of an item for an id. -/
def idItem (name : String) (last : UInt8) : ℤ × List UInt8 :=
  (1, name.toList.flatMap String.utf8EncodeChar ++ delimiter :: sampleDigits last)

theorem isItem_idItem {name : String} (hname : name ∈ idNames) (last : UInt8) :
    IsItem (.ofString name, sampleDigits last) (idItem name last) := by
  have hnames : ∀ name ∈ idNames, delimiter ∉ name.toList.flatMap String.utf8EncodeChar ∧
      unicodeFromString (name.toList.flatMap String.utf8EncodeChar) = .ok (.ofString name) := by
    decide
  obtain ⟨hdelimiter, hkey⟩ := hnames name hname
  exact ⟨Int.one_pos, _, hdelimiter, hkey, rfl⟩

def idReplies : EntryReplies :=
  { interleavedReplies with
    outcomes := [idItem "_BOOT_ID" 53, idItem "_MACHINE_ID" 53, idItem "MESSAGE_ID" 49] }

theorem isItem_idReplies : List.Forall₂ IsItem idFieldsSample idReplies.outcomes :=
  .cons (isItem_idItem (by decide) 53) (.cons (isItem_idItem (by decide) 53)
    (.cons (isItem_idItem (by decide) 49) .nil))

theorem exists_uuid_of_mem_idFieldsSample : ∀ field ∈ idFieldsSample,
    ∃ uuid : Uuid, uuid.hex.encodeUtf8 = some field.2 := by
  obtain ⟨hfive, hone⟩ := encodeUtf8_sampleDigits
  refine List.forall_mem_cons.mpr ⟨⟨5, hfive⟩, List.forall_mem_cons.mpr ⟨⟨5, hfive⟩, ?_⟩⟩
  exact List.forall_mem_singleton.mpr ⟨1, hone⟩

theorem exists_getNext_idReplies :
    ∃ result, (getNext (defaultConverters utcPlatform) 1 (fun _ ↦ 1) idReplies).Returns
      (.ok result) := by
  have hmove : (0 : ℤ) < (fun _ : MoveCall ↦ 1) .next := Int.one_pos
  obtain ⟨entry, hentry, hgroups⟩ := exists_enumerated_groups isItem_idReplies
    (show Groups OrderedDict.empty [] from fun _ ↦ rfl)
  have hgroups : Groups entry idFieldsSample := hgroups
  have hreads : idReplies.Reads entry (.ofString "s") :=
    { realtime := le_rfl
      monotonic := le_rfl
      cursor := le_rfl
      cursorText := by decide
      enumerated := hentry
      isEmpty := hgroups.isEmpty_eq_false (List.cons_ne_nil _ _) }
  have hconverters : ∀ field ∈ idFieldsSample,
      defaultConverter.get? field.1 = some .uuid := by
    decide
  have hconvertible : utcPlatform.EntryConvertible entry 1 := by
    refine ⟨fun item hitem _ value hvalue ↦ ?_, timestampInRange_utcPlatform 1⟩
    have hconverter := hconverters _ (hgroups.mem_of_mem_items hitem hvalue)
    unfold Platform.Convertible
    rw [hconverter]
    trivial
  exact exists_getNext_of_convertible utcPlatform (fun _ ↦ 1) hmove hreads hconvertible

theorem hasId_of_mem_idFieldsSample {result : ConvertedEntry (ConvertedObject ℚ)}
    (hresult : (getNext (defaultConverters utcPlatform) 1 (fun _ ↦ 1) idReplies).Returns
      (.ok result)) {name : String} (hname : name ∈ idNames) {uuid : Uuid} {value : List UInt8}
    (hdigits : uuid.hex.encodeUtf8 = some value)
    (hmem : (.ofString name, value) ∈ idFieldsSample) : HasId result name uuid := by
  obtain ⟨added, hassembled⟩ := assembled_of_getNext isItem_idReplies (List.cons_ne_nil _ _)
    (by decide) Int.one_pos hresult
  have hhex : ∀ value, (.ofString name, value) ∈ idFieldsSample →
      ∃ uuid : Uuid, uuid.hex.encodeUtf8 = some value :=
    fun _ hmem ↦ exists_uuid_of_mem_idFieldsSample _ hmem
  have hencoded : (FieldValue.text uuid.hex).encoded = some value := hdigits
  rw [← hasField_idField_iff utcPlatform isItem_idReplies hassembled hname hhex]
  exact (hasField_iff_mem_fields isItem_idReplies hencoded (idNames_converted name hname).2.1).mpr
    hmem

/-- An entry of this boot and this machine with the id of the message. -/
theorem selects_ids_sample :
    ∃ result, (getNext (defaultConverters utcPlatform) 1 (fun _ ↦ 1) idReplies).Returns
        (.ok result) ∧
      (HasId result "_BOOT_ID" 5 ∧ HasId result "_MACHINE_ID" 5 ∧ HasId result "MESSAGE_ID" 1) ∧
      (cutMatching (runFilter (fun _ _ ↦ 0) ⟨getBoot 0 sampleId, getMachine 0 sampleId⟩
          (idCalls 1) []).2 (idReplies.outcomes.map Prod.snd) ↔
        HasId result "_BOOT_ID" sampleId.uuid ∧ HasId result "_MACHINE_ID" sampleId.uuid ∧
          HasId result "MESSAGE_ID" 1) := by
  have hreturned : ∀ result ∈ (runFilter (fun _ _ ↦ 0)
      ⟨getBoot 0 sampleId, getMachine 0 sampleId⟩ (idCalls 1) []).1, result = .ok () := by
    decide +kernel
  have hhex : ∀ name ∈ idNames, ∀ value, (.ofString name, value) ∈ idFieldsSample →
      ∃ uuid : Uuid, uuid.hex.encodeUtf8 = some value :=
    fun _ _ _ hmem ↦ exists_uuid_of_mem_idFieldsSample _ hmem
  obtain ⟨result, hresult⟩ := exists_getNext_idReplies
  obtain ⟨hfive, hone⟩ := encodeUtf8_sampleDigits
  refine ⟨result, hresult, ⟨?_, ?_, ?_⟩, ?_⟩
  · exact hasId_of_mem_idFieldsSample hresult (by decide) hfive (by decide)
  · exact hasId_of_mem_idFieldsSample hresult (by decide) hfive (by decide)
  · exact hasId_of_mem_idFieldsSample hresult (by decide) hone (by decide)
  · exact selects_ids_iff documented_cutMatching utcPlatform (fun _ _ ↦ 0) [] 0 0 sampleId sampleId
      1 hreturned isItem_idReplies (List.cons_ne_nil _ _) (by decide) hhex Int.one_pos hresult

end PythonSystemd.Journal
