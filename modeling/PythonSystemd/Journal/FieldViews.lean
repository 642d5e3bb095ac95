import PythonSystemd.Journal.Enumeration
import PythonSystemd.Journal.MatchQueries

/-!
# The views of a field

A field can be read in four ways: as a part of the dictionary of an entry (`_get_all`), alone from
an entry (`_get`), as the set of its values in the journal (`query_unique`) and as one of the names
in the journal (`enumerate_fields`). Each way has its own loop and its own code that cuts the data
items. `views_agree` says that they tell the same of every journal whose entries can be read.
-/

set_option autoImplicit false
set_option relaxedAutoImplicit false

namespace PythonSystemd.Journal

open Library Library.CheckedMemory Library.HandleProgram Program Python

/-! ### Items and fields -/

theorem unicodeFromString_eq_ok_iff {bytes : List UInt8} {text : Text} :
    unicodeFromString bytes = .ok text ↔ text.encodeUtf8 = some bytes := by
  unfold unicodeFromString
  constructor
  · intro h
    cases hdecode : decodeUtf8 bytes with
    | none =>
      rw [hdecode] at h
      cases h
    | some other =>
      rw [hdecode] at h
      obtain rfl := Except.ok.inj h
      exact encodeUtf8_of_decodeUtf8 hdecode
  · intro h
    rw [decodeUtf8_encodeUtf8 h]

/-- The name of an item comes before its first delimiter. -/
theorem splitField_eq_ok_iff {item name value : List UInt8} :
    splitField item = .ok (name, value) ↔ delimiter ∉ name ∧ item = line (name, value) := by
  constructor
  · intro h
    have hmem : delimiter ∈ item :=
      (exists_extractValue_iff item).mp ⟨value, extractValue_eq_ok_iff.mpr ⟨name, h⟩⟩
    obtain ⟨before, after, rfl, hbefore⟩ := List.eq_append_cons_of_mem hmem
    rw [splitField_append hbefore] at h
    cases h
    exact ⟨hbefore, rfl⟩
  · rintro ⟨hname, rfl⟩
    exact splitField_append hname value

theorem extract_eq_ok_iff {item : List UInt8} {field : Field} :
    extract item = .ok field ↔ ∃ name, delimiter ∉ name ∧ field.1.encodeUtf8 = some name ∧
      item = line (name, field.2) := by
  constructor
  · intro h
    obtain ⟨⟨name, value⟩, hsplit, hrest⟩ := returned_bind.mp h
    obtain ⟨key, hkey, hfield⟩ := returned_bind.mp hrest
    obtain rfl := Except.ok.inj hfield
    obtain ⟨hname, hitem⟩ := splitField_eq_ok_iff.mp hsplit
    exact ⟨name, hname, unicodeFromString_eq_ok_iff.mp hkey, hitem⟩
  · rintro ⟨name, hname, hkey, rfl⟩
    exact extract_append hname (unicodeFromString_eq_ok_iff.mpr hkey) field.2

section Entries

variable {items : List (List UInt8)} {fields : List Field} {entry : Entry}

/-- The fields are what is extracted from the items. -/
theorem mem_fields_iff
    (hfields : List.Forall₂ (fun item field ↦ extract item = .ok field) items fields)
    {field : Field} : field ∈ fields ↔ ∃ item ∈ items, extract item = .ok field := by
  induction hfields with
  | nil => exact iff_of_false List.not_mem_nil fun ⟨_, hitem, _⟩ ↦ List.not_mem_nil hitem
  | @cons item other items fields hitem _ ih =>
    rw [List.mem_cons, List.exists_mem_cons_iff, ih, hitem]
    exact or_congr_left ⟨fun h ↦ h ▸ rfl, fun h ↦ (Except.ok.inj h).symm⟩

/-- A field is extracted exactly where its line is an item. -/
theorem exists_extract_iff {key : Text} {name : List UInt8} (hkey : key.encodeUtf8 = some name)
    (hname : delimiter ∉ name) (value : List UInt8) :
    (∃ item ∈ items, extract item = .ok (key, value)) ↔ line (name, value) ∈ items := by
  constructor
  · rintro ⟨item, hitem, hextract⟩
    obtain ⟨other, -, hencoded, rfl⟩ := extract_eq_ok_iff.mp hextract
    rwa [Option.some.inj (hkey.symm.trans hencoded)]
  · intro hline
    exact ⟨_, hline, extract_eq_ok_iff.mpr ⟨name, hname, hkey, rfl⟩⟩

theorem extractValue_line {name : List UInt8} (hname : delimiter ∉ name) (value : List UInt8) :
    extractValue (line (name, value)) = .ok value :=
  extractValue_eq_ok_iff.mpr ⟨name, splitField_append hname value⟩

/-- The values that a dictionary has for a key. -/
def Entry.valuesAt (entry : Entry) (key : Text) : List (List UInt8) :=
  ((entry.get? key).map FieldData.values).getD []

theorem Groups.valuesAt_eq (h : Groups entry fields) (key : Text) :
    entry.valuesAt key = valuesOf key fields := by
  rw [Entry.valuesAt, h key]
  cases hvalues : FieldData.ofValues (valuesOf key fields) with
  | none => exact (FieldData.ofValues_eq_none_iff.mp hvalues).symm
  | some data => exact FieldData.values_of_ofValues_eq_some hvalues

/-- A dictionary has a value for a key exactly when one of the items is their line. -/
theorem GroupsItems.mem_valuesAt_iff (h : GroupsItems entry items) {key : Text} {name : List UInt8}
    (hkey : key.encodeUtf8 = some name) (hname : delimiter ∉ name) (value : List UInt8) :
    value ∈ entry.valuesAt key ↔ line (name, value) ∈ items := by
  obtain ⟨fields, hfields, hgroups⟩ := h
  rw [hgroups.valuesAt_eq, mem_valuesOf, mem_fields_iff hfields, exists_extract_iff hkey hname]

/-- A dictionary has the keys that are the names of items. -/
theorem GroupsItems.mem_keys_iff (h : GroupsItems entry items) {key : Text} :
    key ∈ entry.keys ↔ ∃ name value, key.encodeUtf8 = some name ∧ delimiter ∉ name ∧
      line (name, value) ∈ items := by
  obtain ⟨fields, hfields, hgroups⟩ := h
  rw [hgroups.mem_keys_iff, List.mem_map]
  constructor
  · rintro ⟨field, hfield, rfl⟩
    obtain ⟨item, hitem, hextract⟩ := (mem_fields_iff hfields).mp hfield
    obtain ⟨name, hname, hkey, rfl⟩ := extract_eq_ok_iff.mp hextract
    exact ⟨name, field.2, hkey, hname, hitem⟩
  · rintro ⟨name, value, hkey, hname, hitem⟩
    have hextract := (exists_extract_iff hkey hname value).mpr hitem
    exact ⟨(key, value), (mem_fields_iff hfields).mpr hextract, rfl⟩

/-- An item that is grouped has been extracted. -/
theorem GroupsItems.exists_extract (h : GroupsItems entry items) {item : List UInt8}
    (hitem : item ∈ items) : ∃ field, extract item = .ok field := by
  obtain ⟨fields, hfields, -⟩ := h
  induction hfields with
  | nil => cases hitem
  | @cons first field items fields hfirst _ ih =>
    rcases List.mem_cons.mp hitem with rfl | hrest
    · exact ⟨field, hfirst⟩
    · exact ih hrest

/-- The names of the items are those of the keys. -/
theorem GroupsItems.exists_key_iff (h : GroupsItems entry items) {name : List UInt8} :
    (∃ key ∈ entry.keys, key.encodeUtf8 = some name) ↔
      delimiter ∉ name ∧ ∃ value, line (name, value) ∈ items := by
  constructor
  · rintro ⟨key, hmem, hkey⟩
    obtain ⟨other, value, hother, hname, hitem⟩ := h.mem_keys_iff.mp hmem
    obtain rfl := Option.some.inj (hother.symm.trans hkey)
    exact ⟨hname, value, hitem⟩
  · rintro ⟨hname, value, hitem⟩
    obtain ⟨field, hextract⟩ := h.exists_extract hitem
    obtain ⟨other, hother, hkey, hline⟩ := extract_eq_ok_iff.mp hextract
    obtain ⟨rfl, rfl⟩ := Prod.mk.inj (line_injective hname hother hline)
    exact ⟨field.1, h.mem_keys_iff.mpr ⟨name, field.2, hkey, hname, hitem⟩, hkey⟩

theorem groupsItems_of_returns {outcomes : List (ℤ × List UInt8)}
    (h : (readerGetAll .null outcomes).Returns (.ok entry)) :
    GroupsItems entry (delivered outcomes) := by
  have hreturns := returns_readerGetAll outcomes
  rw [enumerated_eq_foldlM] at hreturns
  have hempty : GroupsItems OrderedDict.empty [] := ⟨[], .nil, fun _ ↦ rfl⟩
  exact collects_collectField.holds_foldlM hempty (hreturns.unique h)

end Entries

/-! ### What the library shows -/

/-- The reply for the data of a field is an item with that name, if the entry has one. -/
def GivesData (items : List (List UInt8)) (name : List UInt8) (reply : ℤ × List UInt8) : Prop :=
  (0 ≤ reply.1 ∧ ∃ value, reply.2 = line (name, value) ∧ line (name, value) ∈ items) ∨
    reply.1 = -ENOENT ∧ ∀ value, line (name, value) ∉ items

/-- An entry in the replies of the library: enumerating its data, and asking for one field. -/
structure ShownEntry (valid : List UInt8 → Prop) where
  outcomes : List (ℤ × List UInt8)
  data : List UInt8 → ℤ × List UInt8
  givesData : ∀ name, valid name → GivesData (delivered outcomes) name (data name)

/-- A journal in the replies of the library, which takes some names of fields to be valid: its
entries, the items of a field that occur in them, and the names that occur in them. -/
structure ShownJournal (valid : List UInt8 → Prop) where
  entries : List (ShownEntry valid)
  query : List UInt8 → ℤ
  unique : List UInt8 → List (ℤ × List UInt8)
  names : List (ℤ × List UInt8)
  query_nonneg : ∀ name, valid name → 0 ≤ query name
  mem_unique_iff : ∀ name item, valid name → (item ∈ delivered (unique name) ↔
    (∃ value, item = line (name, value)) ∧ ∃ entry ∈ entries, item ∈ delivered entry.outcomes)
  mem_names_iff : ∀ name, name ∈ delivered names ↔
    delimiter ∉ name ∧ ∃ value, ∃ entry ∈ entries, line (name, value) ∈ delivered entry.outcomes
  ending_names : ending names = 0

section Views

variable {valid : List UInt8 → Prop} {journal : ShownJournal valid} {entries : List Entry}
  {name : List UInt8} {key : Text}

/-- The dictionaries of the entries of a journal. -/
def ReadsEntries (journal : ShownJournal valid) (entries : List Entry) : Prop :=
  List.Forall₂ (fun shown entry ↦ (readerGetAll .null shown.outcomes).Returns (.ok entry))
    journal.entries entries

/-- What holds of the items of some entry holds of its dictionary. -/
theorem ReadsEntries.exists_iff (h : ReadsEntries journal entries)
    {holds : List (List UInt8) → Prop} {agrees : Entry → Prop}
    (hagrees : ∀ items entry, GroupsItems entry items → (agrees entry ↔ holds items)) :
    (∃ entry ∈ entries, agrees entry) ↔
      ∃ shown ∈ journal.entries, holds (delivered shown.outcomes) := by
  unfold ReadsEntries at h
  generalize journal.entries = stored at h ⊢
  induction h with
  | nil => simp only [List.not_mem_nil, false_and, exists_false]
  | @cons shown entry _ entries hreturns _ ih =>
    rw [List.exists_mem_cons_iff, List.exists_mem_cons_iff, ih,
      hagrees _ entry (groupsItems_of_returns hreturns)]

/-- `query_unique` returns the values that the dictionaries have for the key. -/
theorem exists_queryUnique (h : ReadsEntries journal entries) (hvalid : valid name)
    (hkey : key.encodeUtf8 = some name) (hname : delimiter ∉ name) :
    ∃ values, (readerQueryUnique (.tuple (.ok name)) journal.query (journal.unique name)).Returns
      (.ok values) ∧ ∀ value, value ∈ values ↔ ∃ entry ∈ entries, value ∈ entry.valuesAt key := by
  have hunique := journal.mem_unique_iff name
  have hreturns := returns_readerQueryUnique name journal.query (journal.unique name)
  have haccepts : ∀ item ∈ delivered (journal.unique name), delimiter ∈ item := by
    intro item hitem
    obtain ⟨⟨value, rfl⟩, -⟩ := (hunique item hvalid).mp hitem
    exact List.mem_append_right _ List.mem_cons_self
  have hempty : IsSetOf extractValue (∅ : Finset (List UInt8)) [] :=
    ⟨fun _ h ↦ absurd h List.not_mem_nil, fun _ h ↦ absurd h (Finset.notMem_empty _)⟩
  obtain ⟨values, hvalues⟩ :=
    (collects_collectValue.exists_foldlM_iff (delivered (journal.unique name)) ∅).mpr haccepts
  obtain ⟨hread, hfrom⟩ := collects_collectValue.holds_foldlM hempty hvalues
  rw [checked_of_nonneg (journal.query_nonneg name hvalid),
    unicodeFromString_eq_ok_iff.mpr hkey, enumerated_eq_foldlM, hvalues] at hreturns
  refine ⟨values, hreturns, fun value ↦ ?_⟩
  rw [h.exists_iff fun items entry hgroups ↦ hgroups.mem_valuesAt_iff hkey hname value]
  constructor
  · intro hmem
    obtain ⟨item, hitem, hvalue⟩ := hfrom value hmem
    obtain ⟨⟨other, rfl⟩, hshown⟩ := (hunique item hvalid).mp hitem
    obtain rfl := Except.ok.inj ((extractValue_line hname other).symm.trans hvalue)
    exact hshown
  · intro hshown
    obtain ⟨other, hother, hvalue⟩ :=
      hread _ ((hunique (line (name, value)) hvalid).mpr ⟨⟨value, rfl⟩, hshown⟩)
    obtain rfl := Except.ok.inj ((extractValue_line hname value).symm.trans hvalue)
    exact hother

/-- `enumerate_fields` returns the keys of the dictionaries. -/
theorem exists_enumerateFields {build : Build} (hbuild : build.haveEnumerateFields = true)
    (h : ReadsEntries journal entries) :
    ∃ names, (readerEnumerateFields build .null journal.names).Returns (.ok names) ∧
      ∀ key, key ∈ names ↔ ∃ entry ∈ entries, key ∈ entry.keys := by
  have haccepts : ∀ name ∈ delivered journal.names, ∃ text, unicodeFromString name = .ok text := by
    intro name hmem
    obtain ⟨hname, value, shown, hshown, hitem⟩ := (journal.mem_names_iff name).mp hmem
    obtain ⟨-, -, key, -, hkey⟩ :=
      (h.exists_iff fun items entry hgroups ↦ hgroups.exists_key_iff).mpr
        ⟨shown, hshown, hname, value, hitem⟩
    exact ⟨key, unicodeFromString_eq_ok_iff.mpr hkey⟩
  have hempty : IsSetOf unicodeFromString (∅ : Finset Text) [] :=
    ⟨fun _ h ↦ absurd h List.not_mem_nil, fun _ h ↦ absurd h (Finset.notMem_empty _)⟩
  obtain ⟨names, hnames⟩ :=
    (collects_collectName.exists_foldlM_iff (delivered journal.names) ∅).mpr haccepts
  obtain ⟨hread, hfrom⟩ := collects_collectName.holds_foldlM hempty hnames
  have hreturns := returns_readerEnumerateFields hbuild .null journal.names
  rw [hnames, journal.ending_names] at hreturns
  refine ⟨names, hreturns, fun key ↦ ?_⟩
  rw [h.exists_iff fun items entry hgroups ↦ hgroups.mem_keys_iff]
  constructor
  · intro hmem
    obtain ⟨name, hname, hkey⟩ := hfrom key hmem
    obtain ⟨hdelimiter, value, shown, hshown, hitem⟩ := (journal.mem_names_iff name).mp hname
    exact ⟨shown, hshown, name, value, unicodeFromString_eq_ok_iff.mp hkey, hdelimiter, hitem⟩
  · rintro ⟨shown, hshown, name, value, hkey, hdelimiter, hitem⟩
    obtain ⟨other, hother, hread⟩ :=
      hread name ((journal.mem_names_iff name).mpr ⟨hdelimiter, value, shown, hshown, hitem⟩)
    obtain rfl := Except.ok.inj ((unicodeFromString_eq_ok_iff.mpr hkey).symm.trans hread)
    exact hother

theorem returns_readerGet (name : List UInt8) (data : List UInt8 → ℤ × List UInt8) :
    (readerGet (.tuple (.ok name)) data).Returns
      (if (data name).1 = -ENOENT then .error (.keyError name)
      else checked (data name).1 (some "field name is not valid") >>= fun _ ↦
        extractValue (data name).2) := by
  change (act .use >>= fun _ ↦ if (data name).1 = -ENOENT then raise (.keyError name) else
    raiseError (data name).1 (some "field name is not valid") >>= fun _ ↦
      ofExcept (extractValue (data name).2)).Returns _
  refine (returns_act .use).ok_bind ?_
  split_ifs
  · exact returns_raise _
  · exact (returns_raiseError _ _).bind fun _ ↦ returns_ofExcept _

/-- `_get` returns one of the values that the dictionary of the entry has for the key, or raises
`KeyError` where it has none. -/
theorem readerGet_cases {shown : ShownEntry valid} {entry : Entry}
    (hentry : (readerGetAll .null shown.outcomes).Returns (.ok entry)) (hvalid : valid name)
    (hkey : key.encodeUtf8 = some name) (hname : delimiter ∉ name) :
    (∃ value ∈ entry.valuesAt key,
        (readerGet (.tuple (.ok name)) shown.data).Returns (.ok value)) ∨
      entry.valuesAt key = [] ∧
        (readerGet (.tuple (.ok name)) shown.data).Returns (.error (.keyError name)) := by
  have hmem := (groupsItems_of_returns hentry).mem_valuesAt_iff hkey hname
  have hreturns := returns_readerGet name shown.data
  rcases shown.givesData name hvalid with ⟨hpos, value, hdata, hitem⟩ | ⟨hmissing, hnone⟩
  · have hfound : ¬ (shown.data name).1 = -ENOENT := by
      intro hmissing
      rw [hmissing] at hpos
      exact absurd hpos (by decide)
    rw [if_neg hfound, checked_of_nonneg hpos, hdata, extractValue_line hname] at hreturns
    exact .inl ⟨value, (hmem value).mpr hitem, hreturns⟩
  · rw [if_pos hmissing] at hreturns
    refine .inr ⟨List.eq_nil_iff_forall_not_mem.mpr fun value hvalue ↦ ?_, hreturns⟩
    exact hnone value ((hmem value).mp hvalue)

/-- The ways to read a field agree, for a journal whose entries can be read. The set of its values
is what the dictionaries of the entries have for its key, the names in the journal are the keys of
the dictionaries, and what an entry gives for the field alone is one of its values in the dictionary
of that entry. -/
theorem views_agree {build : Build} (hbuild : build.haveEnumerateFields = true)
    (h : ReadsEntries journal entries) (hvalid : valid name) (hkey : key.encodeUtf8 = some name)
    (hname : delimiter ∉ name) :
    (∃ values, (readerQueryUnique (.tuple (.ok name)) journal.query (journal.unique name)).Returns
        (.ok values) ∧ ∀ value, value ∈ values ↔ ∃ entry ∈ entries, value ∈ entry.valuesAt key) ∧
      (∃ names, (readerEnumerateFields build .null journal.names).Returns (.ok names) ∧
        ∀ other, other ∈ names ↔ ∃ entry ∈ entries, other ∈ entry.keys) ∧
      List.Forall₂ (fun shown entry ↦
        (∃ value ∈ entry.valuesAt key,
            (readerGet (.tuple (.ok name)) shown.data).Returns (.ok value)) ∨
          entry.valuesAt key = [] ∧
            (readerGet (.tuple (.ok name)) shown.data).Returns (.error (.keyError name)))
        journal.entries entries :=
  ⟨exists_queryUnique h hvalid hkey hname, exists_enumerateFields hbuild h,
    h.imp fun _ _ hentry ↦ readerGet_cases hentry hvalid hkey hname⟩

end Views

/-! ### A journal of given items -/

/-- The item has this name. -/
def hasName (name item : List UInt8) : Bool :=
  match splitField item with
  | .error _ => false
  | .ok (other, _) => decide (other = name)

theorem hasName_iff {name : List UInt8} (hname : delimiter ∉ name) {item : List UInt8} :
    hasName name item = true ↔ ∃ value, item = line (name, value) := by
  unfold hasName
  constructor
  · intro h
    cases hsplit : splitField item with
    | error exception =>
      rw [hsplit] at h
      cases h
    | ok parts =>
      rw [hsplit] at h
      obtain rfl := of_decide_eq_true h
      exact ⟨parts.2, (splitField_eq_ok_iff.mp hsplit).2⟩
  · rintro ⟨value, rfl⟩
    rw [splitField_eq_ok_iff.mpr ⟨hname, rfl⟩]
    exact decide_eq_true rfl

/-- Every item is there, and then the enumeration ends. -/
def deliver (items : List (List UInt8)) : List (ℤ × List UInt8) :=
  items.map fun item ↦ (1, item)

theorem delivered_deliver (items : List (List UInt8)) : delivered (deliver items) = items := by
  induction items with
  | nil => rfl
  | cons item items ih => exact congrArg (item :: ·) ih

theorem ending_deliver (items : List (List UInt8)) : ending (deliver items) = 0 := by
  induction items with
  | nil => rfl
  | cons item items ih => exact ih

/-- The library gives the first item with the name. -/
def showEntry (items : List (List UInt8)) : ShownEntry (delimiter ∉ ·) where
  outcomes := deliver items
  data name :=
    match items.find? (hasName name) with
    | some item => (0, item)
    | none => (-ENOENT, [])
  givesData name hname := by
    rw [delivered_deliver]
    cases hfind : items.find? (hasName name) with
    | none =>
      refine .inr ⟨rfl, fun value hmem ↦ ?_⟩
      exact List.find?_eq_none.mp hfind _ hmem ((hasName_iff hname).mpr ⟨value, rfl⟩)
    | some item =>
      obtain ⟨value, rfl⟩ := (hasName_iff hname).mp (List.find?_some hfind)
      exact .inl ⟨le_rfl, value, rfl, List.mem_of_find?_eq_some hfind⟩

/-- The names of the items. -/
def namesOf (items : List (List UInt8)) : List (List UInt8) :=
  items.filterMap fun item ↦ (splitField item).toOption.map Prod.fst

theorem mem_namesOf {items : List (List UInt8)} {name : List UInt8} :
    name ∈ namesOf items ↔ delimiter ∉ name ∧ ∃ value, line (name, value) ∈ items := by
  rw [namesOf, List.mem_filterMap]
  constructor
  · rintro ⟨item, hitem, hname⟩
    cases hsplit : splitField item with
    | error exception =>
      rw [hsplit] at hname
      cases hname
    | ok parts =>
      rw [hsplit] at hname
      obtain rfl := Option.some.inj hname
      obtain ⟨hdelimiter, rfl⟩ := splitField_eq_ok_iff.mp hsplit
      exact ⟨hdelimiter, parts.2, hitem⟩
  · rintro ⟨hname, value, hitem⟩
    refine ⟨_, hitem, ?_⟩
    rw [splitField_eq_ok_iff.mpr ⟨hname, rfl⟩]
    rfl

theorem exists_showEntry_iff {entries : List (List (List UInt8))} {item : List UInt8} :
    (∃ shown ∈ entries.map showEntry, item ∈ delivered shown.outcomes) ↔
      ∃ items ∈ entries, item ∈ items := by
  constructor
  · rintro ⟨shown, hshown, hitem⟩
    obtain ⟨items, hitems, rfl⟩ := List.mem_map.mp hshown
    exact ⟨items, hitems, delivered_deliver items ▸ hitem⟩
  · rintro ⟨items, hitems, hitem⟩
    exact ⟨showEntry items, List.mem_map_of_mem hitems, (delivered_deliver items).symm ▸ hitem⟩

def showJournal (entries : List (List (List UInt8))) : ShownJournal (delimiter ∉ ·) where
  entries := entries.map showEntry
  query := fun _ ↦ 0
  unique name := deliver (entries.flatten.filter (hasName name)).dedup
  names := deliver (namesOf entries.flatten).dedup
  query_nonneg _ _ := le_rfl
  mem_unique_iff name item hname := by
    rw [delivered_deliver, List.mem_dedup, List.mem_filter, hasName_iff hname, and_comm,
      exists_showEntry_iff, List.mem_flatten]
  mem_names_iff name := by
    simp only [delivered_deliver, List.mem_dedup, mem_namesOf, exists_showEntry_iff,
      List.mem_flatten]
  ending_names := ending_deliver _

/-- Two entries, the first of which has the field `A` twice and a field `B`. -/
def sampleJournal : ShownJournal (delimiter ∉ ·) :=
  showJournal [[[65, 61, 49], [66, 61, 61], [65, 61, 50]], [[65, 61, 49]]]

def sampleEntries : List Entry :=
  [⟨[(.ofString "A", .many [[49], [50]]), (.ofString "B", .one [61])], by decide⟩,
    ⟨[(.ofString "A", .one [49])], by decide⟩]

theorem views_agree_sample :
    (∃ values, (readerQueryUnique (.tuple (.ok [65])) sampleJournal.query
          (sampleJournal.unique [65])).Returns (.ok values) ∧
        ∀ value, value ∈ values ↔ ∃ entry ∈ sampleEntries, value ∈ entry.valuesAt (.ofString "A")) ∧
      (∃ names, (readerEnumerateFields ⟨some 245, 245⟩ .null sampleJournal.names).Returns
          (.ok names) ∧
        ∀ other, other ∈ names ↔ ∃ entry ∈ sampleEntries, other ∈ entry.keys) ∧
      List.Forall₂ (fun shown entry ↦
        (∃ value ∈ entry.valuesAt (.ofString "A"),
            (readerGet (.tuple (.ok [65])) shown.data).Returns (.ok value)) ∨
          entry.valuesAt (.ofString "A") = [] ∧
            (readerGet (.tuple (.ok [65])) shown.data).Returns (.error (.keyError [65])))
        sampleJournal.entries sampleEntries := by
  have hreads : ReadsEntries sampleJournal sampleEntries :=
    .cons (returns_readerGetAll _) (.cons (returns_readerGetAll _) .nil)
  exact views_agree rfl hreads (by decide) (by decide) (by decide)

end PythonSystemd.Journal
