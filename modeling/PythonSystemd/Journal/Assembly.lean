import PythonSystemd.Journal.Conversion
import PythonSystemd.Journal.Iteration

/-!
# Assembling an entry

`Reader_get_all` groups the items of an entry by their keys as they come. What the dictionary has
for a key changes its form with the second item of the key: one value becomes a list of two.
`Groups` is the invariant of the loop. It says for every key that the dictionary has what the values
of the key so far make, in the order in which they came.

`get_next` adds three items and converts the values. `getNext_assembles` is the whole way from the
items of an entry to the dictionary that is returned.
-/

set_option autoImplicit false
set_option relaxedAutoImplicit false

namespace PythonSystemd.Journal

open Library Library.HandleProgram Program Python

/-! ### One value or several -/

namespace FieldData

variable {α β : Type}

/-- What a dictionary has for a key with these values. -/
def ofValues : List α → Option (FieldData α)
  | [] => none
  | [value] => some (.one value)
  | first :: second :: rest => some (.many (first :: second :: rest))

theorem ofValues_concat (values : List α) (value : α) :
    ofValues (values ++ [value]) = some (add (ofValues values) value) := by
  match values with
  | [] => rfl
  | [_] => rfl
  | _ :: _ :: _ => rfl

theorem ofValues_eq_none_iff {values : List α} : ofValues values = none ↔ values = [] := by
  match values with
  | [] => exact iff_of_true rfl rfl
  | [_] => exact iff_of_false (fun h ↦ by cases h) (fun h ↦ by cases h)
  | _ :: _ :: _ => exact iff_of_false (fun h ↦ by cases h) (fun h ↦ by cases h)

theorem ofValues_of_two_le {values : List α} (h : 2 ≤ values.length) :
    ofValues values = some (.many values) := by
  match values, h with
  | _ :: _ :: _, _ => rfl

/-- The values come back out of what the dictionary has for them. -/
theorem values_of_ofValues_eq_some {values : List α} {data : FieldData α}
    (h : ofValues values = some data) : data.values = values := by
  match values with
  | [] => cases h
  | [_] =>
    obtain rfl := Option.some.inj h
    rfl
  | _ :: _ :: _ =>
    obtain rfl := Option.some.inj h
    rfl

theorem values_map (f : α → β) (data : FieldData α) : (data.map f).values = data.values.map f := by
  cases data with
  | one value => rfl
  | many values => rfl

end FieldData

/-! ### Grouping -/

/-- A data item of an entry: its key and its value. -/
abbrev Field := Text × List UInt8

/-- The values of a key, in the order of the items. -/
def valuesOf (key : Text) (fields : List Field) : List (List UInt8) :=
  (fields.filter fun field ↦ decide (field.1 = key)).map Prod.snd

theorem valuesOf_concat (key : Text) (fields : List Field) (field : Field) :
    valuesOf key (fields ++ [field]) =
      valuesOf key fields ++ if field.1 = key then [field.2] else [] := by
  unfold valuesOf
  rw [List.filter_append, List.map_append]
  by_cases h : field.1 = key
  · rw [if_pos h, List.filter_singleton, decide_eq_true h]
    rfl
  · rw [if_neg h, List.filter_singleton, decide_eq_false h]
    rfl

theorem mem_valuesOf {key : Text} {fields : List Field} {value : List UInt8} :
    value ∈ valuesOf key fields ↔ (key, value) ∈ fields := by
  unfold valuesOf
  constructor
  · intro h
    obtain ⟨field, hfield, rfl⟩ := List.mem_map.mp h
    obtain ⟨hmem, hkey⟩ := List.mem_filter.mp hfield
    obtain rfl := of_decide_eq_true hkey
    exact hmem
  · intro h
    exact List.mem_map.mpr ⟨(key, value), List.mem_filter.mpr ⟨h, decide_eq_true rfl⟩, rfl⟩

theorem valuesOf_ne_nil_iff {key : Text} {fields : List Field} :
    valuesOf key fields ≠ [] ↔ key ∈ fields.map Prod.fst := by
  constructor
  · intro h
    obtain ⟨value, hvalue⟩ := List.exists_mem_of_ne_nil _ h
    exact List.mem_map.mpr ⟨(key, value), mem_valuesOf.mp hvalue, rfl⟩
  · intro h
    obtain ⟨field, hfield, rfl⟩ := List.mem_map.mp h
    exact List.ne_nil_of_mem (mem_valuesOf.mpr hfield)

/-- The dictionary has for every key what the values of the key make. -/
def Groups (entry : Entry) (fields : List Field) : Prop :=
  ∀ key, entry.get? key = FieldData.ofValues (valuesOf key fields)

theorem Groups.mem_keys_iff {entry : Entry} {fields : List Field} (h : Groups entry fields)
    (key : Text) : key ∈ entry.keys ↔ key ∈ fields.map Prod.fst := by
  have hnone : entry.get? key = none ↔ valuesOf key fields = [] := by
    rw [h key, FieldData.ofValues_eq_none_iff]
  rw [← valuesOf_ne_nil_iff, Ne, ← hnone, OrderedDict.get?_eq_none_iff, not_not]

/-- The grouping of at least one item is not empty. -/
theorem Groups.isEmpty_eq_false {entry : Entry} {fields : List Field} (h : Groups entry fields)
    (hfields : fields ≠ []) : entry.isEmpty = false := by
  obtain ⟨field, hfield⟩ := List.exists_mem_of_ne_nil fields hfields
  refine OrderedDict.isEmpty_eq_false_iff.mpr ⟨field.1, ?_⟩
  exact (h.mem_keys_iff field.1).mpr (List.mem_map_of_mem hfield)

/-- One step of the loop keeps the grouping. -/
theorem Groups.collectField {entry : Entry} {fields : List Field} (hgroups : Groups entry fields)
    {msg : List UInt8} {field : Field} (hextract : extract msg = .ok field) :
    ∃ after, collectField entry msg = .ok after ∧ Groups after (fields ++ [field]) := by
  refine ⟨_, collectField_eq_ok_iff.mpr ⟨field, hextract, rfl⟩, fun key ↦ ?_⟩
  rw [OrderedDict.get?_setItem, valuesOf_concat]
  by_cases hkey : field.1 = key
  · rw [if_pos hkey.symm, if_pos hkey, FieldData.ofValues_concat, hkey, hgroups key]
  · rw [if_neg (Ne.symm hkey), if_neg hkey, List.append_nil, hgroups key]

/-- An outcome of the enumeration that delivers the item: the name of the key, the first `=` and
the value. -/
def IsItem (field : Field) (outcome : ℤ × List UInt8) : Prop :=
  0 < outcome.1 ∧ ∃ name, delimiter ∉ name ∧ unicodeFromString name = .ok field.1 ∧
    outcome.2 = name ++ delimiter :: field.2

theorem IsItem.extract_eq {field : Field} {outcome : ℤ × List UInt8} (h : IsItem field outcome) :
    extract outcome.2 = .ok field := by
  obtain ⟨-, name, hname, hkey, hdata⟩ := h
  rw [hdata]
  exact extract_append hname hkey field.2

/-- The loop groups all items. -/
theorem exists_enumerated_groups {fields : List Field} {outcomes : List (ℤ × List UInt8)}
    (hitems : List.Forall₂ IsItem fields outcomes) {entry : Entry} {before : List Field}
    (hgroups : Groups entry before) :
    ∃ after, enumerated collectField outcomes entry = .ok after ∧
      Groups after (before ++ fields) := by
  induction hitems generalizing entry before with
  | nil => exact ⟨entry, rfl, (List.append_nil before).symm ▸ hgroups⟩
  | @cons field outcome fields outcomes hitem _ ih =>
    obtain ⟨next, hnext, hgroups⟩ := hgroups.collectField hitem.extract_eq
    obtain ⟨after, hafter, hgroups⟩ := ih hgroups
    refine ⟨after, ?_, ?_⟩
    · obtain ⟨r, data⟩ := outcome
      rw [enumerated, if_pos hitem.1, hnext]
      exact hafter
    · rwa [List.append_assoc] at hgroups

/-! ### The three added items -/

variable {ν : Type}

/-- The items that `get_next` adds, in their order. -/
def addedItems (realtime : UInt64) (monotonic : UInt64 × List UInt8) (cursor : Text) :
    List (Text × RawValue) :=
  [(.ofString "__REALTIME_TIMESTAMP", .realtime realtime),
    (.ofString "__MONOTONIC_TIMESTAMP", .monotonic monotonic.1 monotonic.2),
    (.ofString "__CURSOR", .cursor cursor)]

/-- Their keys. -/
def addedNames : List Text :=
  [.ofString "__REALTIME_TIMESTAMP", .ofString "__MONOTONIC_TIMESTAMP", .ofString "__CURSOR"]

theorem nodup_addedNames : addedNames.Nodup := by decide

section Added

variable {entry : Entry} {realtime : UInt64} {monotonic : UInt64 × List UInt8} {cursor : Text}
  {key : Text}

theorem addTimes_eq_setAll (entry : Entry) (realtime : UInt64) (monotonic : UInt64 × List UInt8)
    (cursor : Text) :
    addTimes entry realtime monotonic cursor =
      (entry.mapValues (FieldData.map RawValue.bytes)).setAll
        ((addedItems realtime monotonic cursor).map fun item ↦ (item.1, .one item.2)) := by
  have hmap : ∀ f : FieldData (List UInt8) → FieldData RawValue,
      (∀ data, f data = data.map RawValue.bytes) →
        entry.mapValues f = entry.mapValues (FieldData.map RawValue.bytes) :=
    fun f h ↦ congrArg (fun g ↦ entry.mapValues g) (funext h)
  unfold addTimes
  rw [hmap]
  · rfl
  · intro data
    cases data with
    | one value => rfl
    | many values => rfl

theorem get?_addTimes_of_mem {value : RawValue}
    (h : (key, value) ∈ addedItems realtime monotonic cursor) :
    (addTimes entry realtime monotonic cursor).get? key = some (.one value) := by
  rw [addTimes_eq_setAll]
  refine OrderedDict.get?_setAll_of_mem nodup_addedNames ?_
  exact List.mem_map.mpr ⟨(key, value), h, rfl⟩

theorem get?_addTimes_of_not_mem (h : key ∉ addedNames) :
    (addTimes entry realtime monotonic cursor).get? key =
      (entry.get? key).map (FieldData.map RawValue.bytes) := by
  rw [addTimes_eq_setAll, OrderedDict.get?_setAll_of_not_mem h, OrderedDict.get?_mapValues]

theorem keys_addTimes :
    key ∈ (addTimes entry realtime monotonic cursor).keys ↔
      key ∈ entry.keys ∨ key ∈ addedNames := by
  by_cases hadded : key ∈ addedNames
  · refine iff_of_true ?_ (.inr hadded)
    obtain ⟨item, hitem, rfl⟩ : ∃ item ∈ addedItems realtime monotonic cursor, item.1 = key :=
      List.mem_map.mp hadded
    exact OrderedDict.mem_keys_iff.mpr ⟨_, get?_addTimes_of_mem hitem⟩
  · rw [or_iff_left hadded, ← not_iff_not, ← OrderedDict.get?_eq_none_iff,
      ← OrderedDict.get?_eq_none_iff, get?_addTimes_of_not_mem hadded, Option.map_eq_none_iff]

/-- The conversions of an entry with its added items raise nothing that is no `ValueError` exactly
when those of the stored values and of the added values do not. -/
theorem itemsConvert_addTimes_iff (converters : Converters ν) :
    ItemsConvert converters (addTimes entry realtime monotonic cursor).items ↔
      (∀ item ∈ entry.items, item.1 ∉ addedNames →
        ∀ value ∈ item.2.values, OnlyValueErrors converters item.1 (.bytes value)) ∧
      ∀ item ∈ addedItems realtime monotonic cursor, OnlyValueErrors converters item.1 item.2 := by
  constructor
  · refine fun h ↦ ⟨?_, ?_⟩
    · rintro ⟨key, data⟩ hitem hkey value hvalue
      have hget : (addTimes entry realtime monotonic cursor).get? key =
          some (data.map RawValue.bytes) := by
        rw [get?_addTimes_of_not_mem hkey, OrderedDict.get?_eq_some_iff.mpr hitem]
        rfl
      refine h _ (OrderedDict.get?_eq_some_iff.mp hget) _ ?_
      rw [FieldData.values_map]
      exact List.mem_map_of_mem hvalue
    · intro item hitem
      exact h _ (OrderedDict.get?_eq_some_iff.mp (get?_addTimes_of_mem hitem)) _
        List.mem_cons_self
  · rintro ⟨hstored, hadded⟩ ⟨key, data⟩ hitem value hvalue
    have hget := OrderedDict.get?_eq_some_iff.mpr hitem
    by_cases hkey : key ∈ addedNames
    · obtain ⟨⟨_, added⟩, hmem, rfl⟩ : ∃ item ∈ addedItems realtime monotonic cursor,
          item.1 = key := List.mem_map.mp hkey
      rw [get?_addTimes_of_mem hmem] at hget
      obtain rfl := Option.some.inj hget
      rw [List.mem_singleton.mp hvalue]
      exact hadded _ hmem
    · rw [get?_addTimes_of_not_mem hkey] at hget
      obtain ⟨stored, hentry, rfl⟩ := Option.map_eq_some_iff.mp hget
      have hvalue : value ∈ (stored.map RawValue.bytes).values := hvalue
      rw [FieldData.values_map] at hvalue
      obtain ⟨bytes, hbytes, rfl⟩ := List.mem_map.mp hvalue
      exact hstored (key, stored) (OrderedDict.get?_eq_some_iff.mp hentry) hkey bytes hbytes

/-- A value of a grouped entry belongs to an item. -/
theorem Groups.mem_of_mem_items {fields : List Field} (hgroups : Groups entry fields)
    {item : Text × FieldData (List UInt8)} (hitem : item ∈ entry.items) {value : List UInt8}
    (hvalue : value ∈ item.2.values) : (item.1, value) ∈ fields := by
  have hget := OrderedDict.get?_eq_some_iff.mpr hitem
  rw [hgroups item.1] at hget
  rw [FieldData.values_of_ofValues_eq_some hget] at hvalue
  exact mem_valuesOf.mp hvalue

end Added

/-! ### The whole way -/

/-- The times and the cursor of the entry can be read. -/
structure EntryReplies.Answers (replies : EntryReplies) (text : Text) : Prop where
  realtime : 0 ≤ replies.realtime.1
  monotonic : 0 ≤ replies.monotonic.1
  cursor : 0 ≤ replies.cursor.1
  cursorText : unicodeFromString replies.cursor.2 = .ok text

/-- The entry can be read, and it has an item. -/
structure EntryReplies.Reads (replies : EntryReplies) (entry : Entry) (text : Text) : Prop
    extends replies.Answers text where
  enumerated : enumerated collectField replies.outcomes OrderedDict.empty = .ok entry
  isEmpty : entry.isEmpty = false

/-- `get_next` returns what the conversion of the entry returns. -/
theorem returns_getNext_of_reads (converters : Converters ν) {skip : Int64} {call : MoveCall}
    (hcall : moveCall skip = some call) {move : MoveCall → ℤ} (hmove : 0 < move call)
    {replies : EntryReplies} {entry : Entry} {cursor : Text} (hreads : replies.Reads entry cursor) :
    (getNext converters skip move replies).Returns
      (convertEntry converters
        (addTimes entry replies.realtime.2 replies.monotonic.2 cursor)) := by
  have hresult : nextResult converters (move call) replies =
      convertEntry converters
        (addTimes entry replies.realtime.2 replies.monotonic.2 cursor) := by
    rw [nextResult_of_pos hmove, entryResult, hreads.enumerated,
      checked_of_nonneg hreads.realtime, checked_of_nonneg hreads.monotonic,
      checked_of_nonneg hreads.cursor, hreads.cursorText]
    change (if entry.isEmpty = true then _ else _) = _
    rw [hreads.isEmpty, if_neg Bool.false_ne_true]
    rfl
  exact hresult ▸ returns_getNext_of_moveCall converters hcall move replies

/-- A dictionary that has every item of an entry: one value where a key occurs once, the list of
the values where it occurs several times, and the added items. A value is what its conversion
returned, or is left as it was. -/
structure Assembled (converters : Converters ν) (fields : List Field)
    (added : List (Text × RawValue)) (result : ConvertedEntry ν) : Prop where
  keys : ∀ key, key ∈ result.keys ↔ key ∈ fields.map Prod.fst ∨ key ∈ addedNames
  once : ∀ key value, valuesOf key fields = [value] →
    result.get? key = some (.one (convertedOrRaw converters key (.bytes value)))
  several : ∀ key, 2 ≤ (valuesOf key fields).length →
    result.get? key = some (.many ((valuesOf key fields).map fun value ↦
      convertedOrRaw converters key (.bytes value)))
  added : ∀ item ∈ added, result.get? item.1 = some (.one (convertedOrRaw converters item.1 item.2))

theorem assembled_convertedEntry (converters : Converters ν) {entry : Entry} {fields : List Field}
    (hgroups : Groups entry fields) (hnames : ∀ field ∈ fields, field.1 ∉ addedNames)
    (realtime : UInt64) (monotonic : UInt64 × List UInt8) (cursor : Text) :
    Assembled converters fields (addedItems realtime monotonic cursor)
      (convertedEntry converters (addTimes entry realtime monotonic cursor)) := by
  have hstored : ∀ key data, FieldData.ofValues (valuesOf key fields) = some data →
      (convertedEntry converters (addTimes entry realtime monotonic cursor)).get? key =
        some ((data.map RawValue.bytes).map (convertedOrRaw converters key)) := by
    intro key data hdata
    have hne : valuesOf key fields ≠ [] := by
      intro hnil
      rw [FieldData.ofValues_eq_none_iff.mpr hnil] at hdata
      cases hdata
    obtain ⟨field, hfield, rfl⟩ := List.mem_map.mp (valuesOf_ne_nil_iff.mp hne)
    rw [convertedEntry, OrderedDict.get?_mapEntries,
      get?_addTimes_of_not_mem (hnames field hfield), hgroups, hdata]
    rfl
  exact
    { keys := by
        intro key
        rw [convertedEntry, OrderedDict.keys_mapEntries, keys_addTimes, hgroups.mem_keys_iff]
      once := by
        intro key value hvalue
        exact hstored key (.one value) (hvalue ▸ rfl)
      several := by
        intro key hlength
        rw [hstored key _ (FieldData.ofValues_of_two_le hlength)]
        exact congrArg (fun values ↦ some (FieldData.many values)) List.map_map
      added := by
        rintro ⟨key, value⟩ hitem
        rw [convertedEntry, OrderedDict.get?_mapEntries, get?_addTimes_of_mem hitem]
        rfl }

/-- `get_next` returns every item of the entry it has moved to, the values of a key in the order of
the items, and nothing else than the three added items. -/
theorem getNext_assembles (converters : Converters ν) {skip : Int64} {call : MoveCall}
    (hcall : moveCall skip = some call) {move : MoveCall → ℤ} (hmove : 0 < move call)
    {fields : List Field} {replies : EntryReplies} {cursor : Text}
    (hitems : List.Forall₂ IsItem fields replies.outcomes) (hnonempty : fields ≠ [])
    (hnames : ∀ field ∈ fields, field.1 ∉ addedNames) (hanswers : replies.Answers cursor)
    (hfields : ∀ field ∈ fields, OnlyValueErrors converters field.1 (.bytes field.2))
    (hadded : ∀ item ∈ addedItems replies.realtime.2 replies.monotonic.2 cursor,
      OnlyValueErrors converters item.1 item.2) :
    ∃ result, (getNext converters skip move replies).Returns (.ok result) ∧
      Assembled converters fields (addedItems replies.realtime.2 replies.monotonic.2 cursor)
        result := by
  obtain ⟨entry, hentry, hgroups⟩ := exists_enumerated_groups hitems
    (show Groups OrderedDict.empty [] from fun _ ↦ rfl)
  have hgroups : Groups entry fields := hgroups
  have hconvert := (convertEntry_eq_ok_iff converters _).mpr
    ((itemsConvert_addTimes_iff converters).mpr ⟨fun item hitem _ value hvalue ↦
      hfields (item.1, value) (hgroups.mem_of_mem_items hitem hvalue), hadded⟩)
  have hreads : replies.Reads entry cursor :=
    { hanswers with
      enumerated := hentry
      isEmpty := hgroups.isEmpty_eq_false hnonempty }
  refine ⟨_, hconvert ▸ returns_getNext_of_reads converters hcall hmove hreads, ?_⟩
  exact assembled_convertedEntry converters hgroups hnames replies.realtime.2 replies.monotonic.2
    cursor

/-- Converters that leave the added items alone and refuse every priority. -/
def refusingConverters : Converters RawValue where
  items :=
    [(.ofString "__REALTIME_TIMESTAMP", .ok), (.ofString "__MONOTONIC_TIMESTAMP", .ok),
      (.ofString "__CURSOR", .ok),
      (.ofString "PRIORITY", fun _ ↦ .error (.valueError "invalid literal for int()"))]
  nodup := by decide

/-- Two messages with a priority between them. -/
def interleavedFields : List Field :=
  [(.ofString "MESSAGE", [120]), (.ofString "PRIORITY", [61]), (.ofString "MESSAGE", [])]

def interleavedReplies : EntryReplies where
  outcomes :=
    [(1, [77, 69, 83, 83, 65, 71, 69, 61, 120]), (1, [80, 82, 73, 79, 82, 73, 84, 89, 61, 61]),
      (1, [77, 69, 83, 83, 65, 71, 69, 61])]
  realtime := (0, 1)
  monotonic := (0, 1, List.replicate 16 0)
  cursor := (0, [115])

theorem getNext_assembles_interleaved :
    ∃ result, (getNext refusingConverters 1 (fun _ ↦ 1) interleavedReplies).Returns (.ok result) ∧
      Assembled refusingConverters interleavedFields
        (addedItems 1 (1, List.replicate 16 0) (.ofString "s")) result := by
  have hmessage : unicodeFromString [77, 69, 83, 83, 65, 71, 69] = .ok (.ofString "MESSAGE") := by
    decide
  have hpriority : unicodeFromString [80, 82, 73, 79, 82, 73, 84, 89] =
      .ok (.ofString "PRIORITY") := by
    decide
  refine getNext_assembles refusingConverters (show moveCall 1 = some .next by decide) Int.one_pos
    (.cons ⟨Int.one_pos, _, ?_, hmessage, rfl⟩ (.cons ⟨Int.one_pos, _, ?_, hpriority, rfl⟩
      (.cons ⟨Int.one_pos, _, ?_, hmessage, rfl⟩ .nil)))
    (List.cons_ne_nil _ _) (by decide) ⟨le_rfl, le_rfl, le_rfl, by decide⟩ ?_ ?_
  · decide
  · decide
  · decide
  · have hdecoded : ∀ value,
        OnlyValueErrors refusingConverters (.ofString "MESSAGE") (.bytes value) :=
      fun value ↦ onlyValueErrors_of_get?_eq_none (by decide)
    have hrefused : OnlyValueErrors refusingConverters (.ofString "PRIORITY") (.bytes [61]) := by
      intro exception h
      obtain rfl := Except.error.inj (h : Except.error _ = _)
      rfl
    exact List.forall_mem_cons.mpr ⟨hdecoded _, List.forall_mem_cons.mpr ⟨hrefused,
      List.forall_mem_singleton.mpr (hdecoded _)⟩⟩
  · refine List.forall_mem_cons.mpr ⟨?_, List.forall_mem_cons.mpr ⟨?_,
      List.forall_mem_singleton.mpr ?_⟩⟩
    · exact fun exception h ↦ by cases h
    · exact fun exception h ↦ by cases h
    · exact fun exception h ↦ by cases h

end PythonSystemd.Journal
