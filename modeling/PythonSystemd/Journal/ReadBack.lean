import PythonSystemd.Journal.Entries
import PythonSystemd.Journal.Send

/-!
# Reading back what was sent

A journal that keeps the lines of an entry as they were sent enumerates them when the entry is
read. The lines of `send` have distinct keys without a delimiter, so `Reader_get_all` gives a
dictionary with one value for every field: `readsBack_send`.

A `uuid.UUID` that is given as `MESSAGE_ID` is sent as its 32 digits and not as its string, which
has dashes.
-/

set_option autoImplicit false
set_option relaxedAutoImplicit false

namespace PythonSystemd.Journal

open Library Library.HandleProgram Program Python

/-! ### Splitting a line -/

/-- The character of the delimiter. -/
def equals : CodePoint := .ofChar '='

/-- The key and the value of a line are those of its field. -/
theorem extract_line {field : Text × FieldValue} {bytes : List UInt8 × List UInt8}
    (hencodes : Encodes field bytes) (hname : equals ∉ field.1) :
    extract (line bytes) = .ok (field.1, bytes.2) := by
  have hdelimiter : delimiter ∉ bytes.1 := not_mem_encodeUtf8 hencodes.name (by decide) hname
  have hkey : unicodeFromString bytes.1 = .ok field.1 := by
    rw [unicodeFromString, decodeUtf8_encodeUtf8 hencodes.name]
  exact extract_append hdelimiter hkey bytes.2

theorem collectField_line {entry : Entry} {field : Text × FieldValue}
    {bytes : List UInt8 × List UInt8} (hencodes : Encodes field bytes) (hname : equals ∉ field.1)
    (hnew : field.1 ∉ entry.keys) :
    collectField entry (line bytes) = .ok (entry.setItem field.1 (.one bytes.2)) := by
  refine collectField_eq_ok_iff.mpr ⟨_, extract_line hencodes hname, ?_⟩
  rw [OrderedDict.get?_eq_none_iff.mpr hnew]
  rfl

/-! ### Enumerating the lines -/

/-- The outcomes of enumerating an entry that was stored as these lines. -/
def stored (lines : List (List UInt8)) : List (ℤ × List UInt8) :=
  lines.map fun msg ↦ (1, msg)

/-- The item of the dictionary for a field. -/
def storedItem (field : Text × FieldValue) (bytes : List UInt8 × List UInt8) :
    Text × FieldData (List UInt8) :=
  (field.1, .one bytes.2)

theorem map_fst_zipWith_storedItem {fields : List (Text × FieldValue)}
    {encoded : List (List UInt8 × List UInt8)} (h : List.Forall₂ Encodes fields encoded) :
    (List.zipWith storedItem fields encoded).map Prod.fst = fields.map Prod.fst := by
  induction h with
  | nil => rfl
  | cons _ _ ih => exact congrArg _ ih

/-- Lines with new and distinct keys are set one after the other. -/
theorem enumerated_stored {fields : List (Text × FieldValue)}
    {encoded : List (List UInt8 × List UInt8)} (hencoded : List.Forall₂ Encodes fields encoded)
    (hnames : ∀ field ∈ fields, equals ∉ field.1) (hnodup : (fields.map Prod.fst).Nodup)
    {entry : Entry} (hnew : ∀ field ∈ fields, field.1 ∉ entry.keys) :
    enumerated collectField (stored (encoded.map line)) entry =
      .ok (entry.setAll (List.zipWith storedItem fields encoded)) := by
  induction hencoded generalizing entry with
  | nil => rfl
  | @cons field bytes fields encoded hfield _ ih =>
    rw [List.map_cons, List.nodup_cons] at hnodup
    have hstep := collectField_line hfield (hnames field List.mem_cons_self)
      (hnew field List.mem_cons_self)
    have hrest : ∀ other ∈ fields, other.1 ∉ (entry.setItem field.1 (.one bytes.2)).keys := by
      intro other hother hmem
      rcases OrderedDict.mem_keys_setItem.mp hmem with heq | hold
      · exact hnodup.1 (heq ▸ List.mem_map_of_mem hother)
      · exact hnew other (List.mem_cons_of_mem field hother) hold
    have htail := ih (fun other hother ↦ hnames other (List.mem_cons_of_mem field hother))
      hnodup.2 hrest
    change (collectField entry (line bytes) >>= fun next ↦
      enumerated collectField (stored (encoded.map line)) next) = _
    rw [hstep]
    exact htail

/-! ### The names of the fields -/

theorem map_fst_optionalField_sublist {α : Type} (name : String) (argument : Option α)
    (text : α → Text) :
    List.Sublist ((optionalField name argument text).map Prod.fst) [.ofString name] := by
  cases argument with
  | none => exact List.nil_sublist _
  | some value => exact List.Sublist.refl _

/-- The names are those of some parameters and those of the keyword arguments. -/
theorem map_fst_supplied (idText : MessageId → Text) (caller : StackFrame) (call : SendCall) :
    ∃ named, List.Sublist named sendParameters ∧
      (supplied idText caller call).map Prod.fst = named ++ call.kwargs.keys := by
  unfold supplied
  rw [List.map_append]
  refine ⟨_, ?_, rfl⟩
  simp only [List.map_append]
  have hmessage := List.Sublist.refl [Text.ofString "MESSAGE"]
  have hid := map_fst_optionalField_sublist "MESSAGE_ID" call.messageId idText
  have hfile := map_fst_optionalField_sublist "CODE_FILE" (call.code caller).1 (fun file ↦ file)
  have hline := map_fst_optionalField_sublist "CODE_LINE" (call.code caller).2.1
    (fun line ↦ .ofString (toString line))
  have hfunc := map_fst_optionalField_sublist "CODE_FUNC" (call.code caller).2.2 (fun func ↦ func)
  exact (((hmessage.append hid).append hfile).append hline).append hfunc

theorem nodup_sendParameters : sendParameters.Nodup := by
  decide

theorem equals_not_mem_sendParameters : ∀ name ∈ sendParameters, equals ∉ name := by
  decide

variable (idText : MessageId → Text) (caller : StackFrame) {call : SendCall}

/-- No two fields have the same name. -/
theorem nodup_map_fst_supplied : ((supplied idText caller call).map Prod.fst).Nodup := by
  obtain ⟨named, hsublist, hnames⟩ := map_fst_supplied idText caller call
  rw [hnames]
  refine List.Nodup.append (nodup_sendParameters.sublist hsublist) call.kwargs.nodup ?_
  intro name hnamed hkwargs
  exact call.kwargs_free name hkwargs (hsublist.subset hnamed)

theorem equals_not_mem_supplied (hnames : ∀ name ∈ call.kwargs.keys, equals ∉ name) :
    ∀ field ∈ supplied idText caller call, equals ∉ field.1 := by
  obtain ⟨named, hsublist, hsupplied⟩ := map_fst_supplied idText caller call
  intro field hfield
  have hname : field.1 ∈ named ++ call.kwargs.keys := hsupplied ▸ List.mem_map_of_mem hfield
  rcases List.mem_append.mp hname with hnamed | hkwargs
  · exact equals_not_mem_sendParameters field.1 (hsublist.subset hnamed)
  · exact hnames field.1 hkwargs

/-! ### Reading back -/

/-- What a call sends is read back: when lines are handed to the journal, the entry of these lines
is a dictionary that has just the fields of the call, each with one value, the bytes that the field
stands for; and no lines are handed over exactly when a name or a value cannot be encoded. -/
structure ReadsBack (call : SendCall) (sendv : List (List UInt8) → ℤ) : Prop where
  read : ∀ lines, (send caller call sendv).handed = some lines →
    ∃ entry, (readerGetAll .null (stored lines)).Returns (.ok entry) ∧
      entry.keys = (supplied idText caller call).map Prod.fst ∧
      ∀ field ∈ supplied idText caller call, ∃ value, field.2.encoded = some value ∧
        entry.get? field.1 = some (.one value)
  handed_none : (send caller call sendv).handed = none ↔
    ∃ field ∈ supplied idText caller call,
      field.1.encodeUtf8 = none ∨ field.2.encoded = none

/-- Every field of an entry is stored with the bytes it stands for. -/
theorem exists_storedItem_mem {fields : List (Text × FieldValue)}
    {encoded : List (List UInt8 × List UInt8)} (h : List.Forall₂ Encodes fields encoded)
    {field : Text × FieldValue} (hfield : field ∈ fields) :
    ∃ bytes, Encodes field bytes ∧
      storedItem field bytes ∈ List.zipWith storedItem fields encoded := by
  induction h with
  | nil => cases hfield
  | @cons first bytes fields encoded hfirst _ ih =>
    rcases List.mem_cons.mp hfield with rfl | hrest
    · exact ⟨bytes, hfirst, List.mem_cons_self⟩
    · obtain ⟨other, hother, hmem⟩ := ih hrest
      exact ⟨other, hother, List.mem_cons_of_mem _ hmem⟩

theorem exists_forall₂_encodes {fields : List (Text × FieldValue)}
    (h : ∀ field ∈ fields, ¬ (field.1.encodeUtf8 = none ∨ field.2.encoded = none)) :
    ∃ encoded, List.Forall₂ Encodes fields encoded := by
  induction fields with
  | nil => exact ⟨[], .nil⟩
  | cons field fields ih =>
    obtain ⟨encoded, hencoded⟩ := ih fun other hother ↦ h other (List.mem_cons_of_mem field hother)
    obtain ⟨hname, hvalue⟩ := not_or.mp (h field List.mem_cons_self)
    obtain ⟨name, hname⟩ := Option.ne_none_iff_exists'.mp hname
    obtain ⟨value, hvalue⟩ := Option.ne_none_iff_exists'.mp hvalue
    exact ⟨(name, value) :: encoded, .cons ⟨hname, hvalue⟩ hencoded⟩

theorem handed_send_eq_none_iff (sendv : List (List UInt8) → ℤ) :
    (send caller call sendv).handed = none ↔
      ∃ field ∈ supplied MessageId.id caller call,
        field.1.encodeUtf8 = none ∨ field.2.encoded = none := by
  constructor
  · intro hnone
    by_contra hall
    obtain ⟨encoded, hencoded⟩ := exists_forall₂_encodes
      fun field hfield hfail ↦ hall ⟨field, hfield, hfail⟩
    have hhanded := (handed_send_iff caller call sendv).mpr ⟨encoded, hencoded, rfl⟩
    rw [hnone] at hhanded
    cases hhanded
  · rintro ⟨field, hfield, hfail⟩
    by_contra hsome
    obtain ⟨lines, hlines⟩ := Option.ne_none_iff_exists'.mp hsome
    obtain ⟨encoded, hencoded, -⟩ := (handed_send_iff caller call sendv).mp hlines
    obtain ⟨bytes, ⟨hname, hvalue⟩, -⟩ := exists_storedItem_mem hencoded hfield
    rcases hfail with hfail | hfail
    · rw [hfail] at hname
      cases hname
    · rw [hfail] at hvalue
      cases hvalue

/-- The dictionary that is read back for a list of fields with distinct names. -/
theorem exists_returns_readerGetAll_stored {fields : List (Text × FieldValue)}
    {encoded : List (List UInt8 × List UInt8)} (hencoded : List.Forall₂ Encodes fields encoded)
    (hnames : ∀ field ∈ fields, equals ∉ field.1) (hnodup : (fields.map Prod.fst).Nodup) :
    ∃ entry : Entry, (readerGetAll .null (stored (encoded.map line))).Returns (.ok entry) ∧
      entry.items = List.zipWith storedItem fields encoded := by
  have hread := returns_readerGetAll (stored (encoded.map line))
  rw [enumerated_stored hencoded hnames hnodup fun _ _ ↦ List.not_mem_nil] at hread
  refine ⟨_, hread, ?_⟩
  have hfirst := map_fst_zipWith_storedItem hencoded
  refine (OrderedDict.items_setAll _ OrderedDict.empty ?_).trans (List.nil_append _)
  change ((List.zipWith storedItem fields encoded).map Prod.fst).Nodup
  rw [hfirst]
  exact hnodup

/-- What is read back after a call that handed over its lines. -/
theorem exists_entry_of_handed (caller : StackFrame) (call : SendCall)
    (hnames : ∀ name ∈ call.kwargs.keys, equals ∉ name) (sendv : List (List UInt8) → ℤ)
    {lines : List (List UInt8)} (hlines : (send caller call sendv).handed = some lines) :
    ∃ entry : Entry, (readerGetAll .null (stored lines)).Returns (.ok entry) ∧
      entry.keys = (supplied MessageId.id caller call).map Prod.fst ∧
      ∀ field ∈ supplied MessageId.id caller call, ∃ value, field.2.encoded = some value ∧
        entry.get? field.1 = some (.one value) := by
  obtain ⟨encoded, hencoded, rfl⟩ := (handed_send_iff caller call sendv).mp hlines
  obtain ⟨entry, hread, hitems⟩ := exists_returns_readerGetAll_stored hencoded
    (equals_not_mem_supplied MessageId.id caller hnames)
    (nodup_map_fst_supplied MessageId.id caller)
  refine ⟨entry, hread, ?_, fun field hfield ↦ ?_⟩
  · rw [OrderedDict.keys, hitems]
    exact map_fst_zipWith_storedItem hencoded
  · obtain ⟨bytes, hbytes, hmem⟩ := exists_storedItem_mem hencoded hfield
    refine ⟨bytes.2, hbytes.value, OrderedDict.get?_eq_some_iff.mpr ?_⟩
    rw [hitems]
    exact hmem

/-- Whatever is sent is read back, with `MESSAGE_ID` as the attribute `hex` of an object that has
one. -/
theorem readsBack_send (caller : StackFrame) (call : SendCall)
    (hnames : ∀ name ∈ call.kwargs.keys, equals ∉ name) (sendv : List (List UInt8) → ℤ) :
    ReadsBack MessageId.id caller call sendv where
  read := fun _ hlines ↦ exists_entry_of_handed caller call hnames sendv hlines
  handed_none := handed_send_eq_none_iff caller sendv

theorem binary_free :
    ∀ name ∈ (OrderedDict.empty.setItem (Text.ofString "BINARY")
      (FieldValue.bytes [0, 61, 10])).keys, name ∉ sendParameters := by
  decide

/-- A message with an id, as an object of `uuid.UUID`, and a binary field. -/
def uuidCall : SendCall where
  message := .ofString "hi"
  messageId := some (.uuid 1)
  codeFile := none
  codeLine := some 7
  codeFunc := none
  kwargs := OrderedDict.empty.setItem (.ofString "BINARY") (.bytes [0, 61, 10])
  kwargs_free := binary_free

def sampleFrame : StackFrame where
  filename := .ofString "a.py"
  lineno := 1
  name := .ofString "main"

theorem readsBack_uuidCall : ReadsBack MessageId.id sampleFrame uuidCall fun _ ↦ 0 :=
  readsBack_send sampleFrame uuidCall (by decide) fun _ ↦ 0

/-- The string of an id. -/
def MessageId.str : MessageId → Text
  | .text value => value
  | .uuid value => value.str

/-- A `uuid.UUID` is not read back as its string. -/
theorem not_readsBack_str : ¬ ReadsBack MessageId.str sampleFrame uuidCall fun _ ↦ 0 := by
  intro hstr
  have hhanded : (send sampleFrame uuidCall fun _ ↦ 0).handed ≠ none := by decide
  obtain ⟨lines, hlines⟩ := Option.ne_none_iff_exists'.mp hhanded
  obtain ⟨entry, hread, -, hfields⟩ := hstr.read lines hlines
  obtain ⟨sent, hsent, -, hsentFields⟩ :=
    exists_entry_of_handed sampleFrame uuidCall (by decide) (fun _ ↦ 0) hlines
  obtain rfl := Except.ok.inj (hread.unique hsent)
  obtain ⟨value, hvalue, hget⟩ := hfields (.ofString "MESSAGE_ID", .text (Uuid.str 1))
    (List.mem_cons_of_mem _ List.mem_cons_self)
  obtain ⟨hexValue, hhexValue, hhexGet⟩ := hsentFields (.ofString "MESSAGE_ID", .text (Uuid.hex 1))
    (List.mem_cons_of_mem _ List.mem_cons_self)
  obtain rfl := FieldData.one.inj (Option.some.inj (hget.symm.trans hhexGet))
  have htexts := (decodeUtf8_encodeUtf8 hvalue).symm.trans (decodeUtf8_encodeUtf8 hhexValue)
  exact absurd (congrArg List.length (Option.some.inj htexts)) (by decide)

end PythonSystemd.Journal
