import PythonSystemd.Journal.Reader

/-!
# The results of reading an entry

What the methods that read the current entry return, whatever the handle: `checked` is the error
check after one call of the library, and `enumerated` the result of an enumeration, with
`returns_readerGetAll` for the dictionary of the entry.

On top of it stands the conversion of entries in `journal.py`. A converter is applied to every
value of its field, and a value stays as it is where the converter raises a `ValueError`.
-/

set_option autoImplicit false
set_option relaxedAutoImplicit false

namespace PythonSystemd.Journal

open Library Library.CheckedMemory Library.HandleProgram Program Python

/-! ### Results of the methods -/

/-- The outcome of the error check after a call of the library. -/
def checked (r : ℤ) (invalidMessage : Option String) : Except PyException Unit :=
  match setError r none invalidMessage with
  | none => .ok ()
  | some exception => .error exception

theorem checked_of_nonneg {r : ℤ} (h : 0 ≤ r) (invalidMessage : Option String) :
    checked r invalidMessage = .ok () := by
  rw [checked, setError_eq_none_iff.mpr h]

theorem checked_of_neg {r : ℤ} (h : r < 0) (invalidMessage : Option String) :
    ∃ exception, checked r invalidMessage = .error exception := by
  unfold checked
  cases herror : setError r none invalidMessage with
  | none => exact absurd (setError_eq_none_iff.mp herror) (Int.not_le.mpr h)
  | some exception => exact ⟨exception, rfl⟩

theorem returns_raiseError (r : ℤ) (invalidMessage : Option String) :
    (raiseError r invalidMessage).Returns (checked r invalidMessage) := by
  unfold raiseError checked
  cases setError r none invalidMessage with
  | none => exact returns_pure ()
  | some exception => exact returns_raise exception

theorem returns_callLibrary (r : ℤ) (invalidMessage : Option String) :
    (callLibrary r invalidMessage).Returns (checked r invalidMessage) :=
  (returns_act .use).bind fun _ ↦ returns_raiseError r invalidMessage

/-- The result of an enumeration: the body is run on the items up to the first result that is not
positive. -/
def enumerated {σ : Type} (body : σ → List UInt8 → Except PyException σ) :
    (outcomes : List (ℤ × List UInt8)) → σ → Except PyException σ
  | [], collected => .ok collected
  | (r, data) :: outcomes, collected =>
    if 0 < r then do
      let collected ← body collected data
      enumerated body outcomes collected
    else .ok collected

theorem returns_enumerate {σ : Type} (body : σ → List UInt8 → Except PyException σ)
    (outcomes : List (ℤ × List UInt8)) (collected : σ) :
    (enumerate body outcomes collected).Returns (enumerated body outcomes collected) := by
  induction outcomes generalizing collected with
  | nil => exact (returns_act .use).bind fun _ ↦ returns_pure collected
  | cons outcome outcomes ih =>
    obtain ⟨r, data⟩ := outcome
    unfold enumerate enumerated
    refine Returns.ok_bind (returns_act .use) ?_
    split_ifs
    · exact (returns_ofExcept (body collected data)).bind ih
    · exact returns_pure collected

theorem returns_readerGetAll (outcomes : List (ℤ × List UInt8)) :
    (readerGetAll .null outcomes).Returns (enumerated collectField outcomes OrderedDict.empty) :=
  (returns_act .use).bind fun _ ↦ returns_enumerate collectField outcomes OrderedDict.empty

/-! ### Items -/

/-- An item is split at its first delimiter, wherever others stand in its value. -/
theorem splitField_append {name : List UInt8} (h : delimiter ∉ name) (value : List UInt8) :
    splitField (name ++ delimiter :: value) = .ok (name, value) := by
  have hname : ∀ byte ∈ name, decide (byte ≠ delimiter) = true := by
    intro byte hbyte
    exact decide_eq_true fun heq ↦ h (heq ▸ hbyte)
  unfold splitField
  rw [List.dropWhile_append_of_pos hname, List.takeWhile_append_of_pos hname]
  simp [delimiter]

/-- The key of an item is the text of its name. -/
theorem extract_append {name : List UInt8} {key : Text} (h : delimiter ∉ name)
    (hkey : unicodeFromString name = .ok key) (value : List UInt8) :
    extract (name ++ delimiter :: value) = .ok (key, value) := by
  unfold extract
  rw [splitField_append h]
  change (unicodeFromString name >>= fun key ↦ .ok (key, value)) = _
  rw [hkey]
  rfl

/-- What a dictionary has for a key after a further value. -/
def FieldData.add {α : Type} : Option (FieldData α) → α → FieldData α
  | none, value => .one value
  | some (.one current), value => .many [current, value]
  | some (.many values), value => .many (values ++ [value])

/-- The body of the loop adds the value of an item to those of its key. -/
theorem collectField_eq_ok_iff {entry after : Entry} {msg : List UInt8} :
    collectField entry msg = .ok after ↔
      ∃ field, extract msg = .ok field ∧
        after = entry.setItem field.1 (.add (entry.get? field.1) field.2) := by
  have hset : ∀ field : Text × List UInt8, extract msg = .ok field →
      collectField entry msg =
        .ok (entry.setItem field.1 (.add (entry.get? field.1) field.2)) := by
    intro field hextract
    unfold collectField
    rw [hextract]
    cases hget : entry.get? field.1 with
    | none =>
      simp only [bind, Except.bind, hget]
      rfl
    | some data =>
      cases data with
      | one current =>
        simp only [bind, Except.bind, hget]
        rfl
      | many values =>
        simp only [bind, Except.bind, hget]
        rfl
  constructor
  · intro h
    obtain ⟨field, hextract, -⟩ := returned_bind.mp h
    exact ⟨field, hextract, Except.ok.inj (h.symm.trans (hset field hextract))⟩
  · rintro ⟨field, hextract, rfl⟩
    exact hset field hextract

/-! ### Entries that are empty -/

/-- The enumeration delivers an item before it ends or fails. -/
def Delivers : (outcomes : List (ℤ × List UInt8)) → Prop
  | [] => False
  | (r, _) :: _ => 0 < r

theorem mem_keys_collectField {entry after : Entry} {msg : List UInt8}
    (h : collectField entry msg = .ok after) :
    (∃ key, key ∈ after.keys) ∧ ∀ key ∈ entry.keys, key ∈ after.keys := by
  obtain ⟨field, -, rfl⟩ := collectField_eq_ok_iff.mp h
  exact ⟨⟨field.1, OrderedDict.mem_keys_setItem.mpr (.inl rfl)⟩,
    fun other hother ↦ OrderedDict.mem_keys_setItem.mpr (.inr hother)⟩

/-- What an enumeration collects does not get lost. -/
theorem mem_keys_enumerated {outcomes : List (ℤ × List UInt8)} {entry after : Entry}
    (h : enumerated collectField outcomes entry = .ok after) :
    ∀ key ∈ entry.keys, key ∈ after.keys := by
  induction outcomes generalizing entry with
  | nil =>
    obtain rfl := Except.ok.inj h
    exact fun key hkey ↦ hkey
  | cons outcome outcomes ih =>
    obtain ⟨r, data⟩ := outcome
    unfold enumerated at h
    split_ifs at h with hpos
    · obtain ⟨next, hbody, h⟩ := returned_bind.mp h
      exact fun key hkey ↦ ih h key ((mem_keys_collectField hbody).2 key hkey)
    · obtain rfl := Except.ok.inj h
      exact fun key hkey ↦ hkey

/-- An entry whose enumeration delivers an item is not read as an empty dictionary. -/
theorem isEmpty_enumerated_of_delivers {outcomes : List (ℤ × List UInt8)} {entry : Entry}
    (h : enumerated collectField outcomes OrderedDict.empty = .ok entry)
    (hdelivers : Delivers outcomes) : entry.isEmpty = false := by
  cases outcomes with
  | nil => cases hdelivers
  | cons outcome outcomes =>
    obtain ⟨r, data⟩ := outcome
    have hpos : 0 < r := hdelivers
    unfold enumerated at h
    rw [if_pos hpos] at h
    obtain ⟨next, hbody, h⟩ := returned_bind.mp h
    obtain ⟨key, hkey⟩ := (mem_keys_collectField hbody).1
    exact OrderedDict.isEmpty_eq_false_iff.mpr ⟨key, mem_keys_enumerated h key hkey⟩

/-- An enumeration that fails at once collects nothing, without an error. -/
theorem enumerated_of_not_delivers {σ : Type} {body : σ → List UInt8 → Except PyException σ}
    {outcomes : List (ℤ × List UInt8)} (h : ¬ Delivers outcomes) (collected : σ) :
    enumerated body outcomes collected = .ok collected := by
  cases outcomes with
  | nil => rfl
  | cons outcome outcomes =>
    obtain ⟨r, data⟩ := outcome
    have hpos : ¬ 0 < r := h
    rw [enumerated, if_neg hpos]

/-! ### Conversion -/

/-- A value of an entry before its conversion. -/
inductive RawValue
  | bytes (value : List UInt8)
  | realtime (usec : UInt64)
  | monotonic (usec : UInt64) (bootid : List UInt8)
  | cursor (cursor : Text)

/-- A value after its conversion: left as it was, decoded, or what a converter has returned. -/
inductive Converted (ν : Type)
  | raw (value : RawValue)
  | text (value : Text)
  | object (value : ν)

/-- The attribute `converters` of a reader. -/
abbrev Converters (ν : Type) := OrderedDict Text (RawValue → Except PyException ν)

/-- The exceptions that are instances of `ValueError`. -/
def isValueError : PyException → Bool
  | .valueError _ | .unicodeEncodeError | .unicodeDecodeError => true
  | _ => false

/-- `bytes.decode`. -/
def bytesDecode : RawValue → Except PyException Text
  | .bytes value => unicodeFromString value
  | _ => .error (.typeError "descriptor 'decode' for 'bytes' objects doesn't apply")

variable {ν : Type}

/-- `Reader._convert_field`. -/
def convertField (converters : Converters ν) (key : Text) (value : RawValue) :
    Except PyException (Converted ν) :=
  let outcome :=
    match converters.get? key with
    | some convert => (convert value).map Converted.object
    | none => (bytesDecode value).map Converted.text
  match outcome with
  | .ok converted => .ok converted
  | .error exception => if isValueError exception then .ok (.raw value) else .error exception

/-- The two cases of the loop in `Reader._convert_entry`. -/
def convertData (converters : Converters ν) (key : Text) :
    FieldData RawValue → Except PyException (FieldData (Converted ν))
  | .one value => do
    let converted ← convertField converters key value
    return .one converted
  | .many values => do
    let converted ← values.mapM (convertField converters key)
    return .many converted

/-- The loop of `Reader._convert_entry`. -/
def convertItems (converters : Converters ν) :
    (items : List (Text × FieldData RawValue)) → OrderedDict Text (FieldData (Converted ν)) →
      Except PyException (OrderedDict Text (FieldData (Converted ν)))
  | [], result => .ok result
  | (key, data) :: items, result => do
    let converted ← convertData converters key data
    convertItems converters items (result.setItem key converted)

/-- `Reader._convert_entry`. -/
def convertEntry (converters : Converters ν) (entry : OrderedDict Text (FieldData RawValue)) :
    Except PyException (OrderedDict Text (FieldData (Converted ν))) :=
  convertItems converters entry.items OrderedDict.empty

theorem mem_keys_convertItems {converters : Converters ν}
    {items : List (Text × FieldData RawValue)}
    {result after : OrderedDict Text (FieldData (Converted ν))}
    (h : convertItems converters items result = .ok after) {key : Text} :
    key ∈ after.keys ↔ key ∈ items.map Prod.fst ∨ key ∈ result.keys := by
  induction items generalizing result with
  | nil =>
    obtain rfl := Except.ok.inj h
    simp
  | cons item items ih =>
    obtain ⟨itemKey, data⟩ := item
    unfold convertItems at h
    obtain ⟨converted, -, h⟩ := returned_bind.mp h
    rw [ih h, OrderedDict.mem_keys_setItem, List.map_cons, List.mem_cons]
    tauto

/-- A converted entry has the keys of the entry. -/
theorem mem_keys_convertEntry {converters : Converters ν}
    {entry : OrderedDict Text (FieldData RawValue)}
    {after : OrderedDict Text (FieldData (Converted ν))}
    (h : convertEntry converters entry = .ok after) {key : Text} :
    key ∈ after.keys ↔ key ∈ entry.keys := by
  rw [mem_keys_convertItems h]
  exact or_iff_left List.not_mem_nil

end PythonSystemd.Journal
