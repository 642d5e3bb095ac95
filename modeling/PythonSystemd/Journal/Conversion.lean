import PythonSystemd.Journal.Entries

/-!
# What a conversion can come to

`_convert_entry` goes through the values of an entry and stops at the first exception that is not a
`ValueError`. So it succeeds exactly when no conversion raises such an exception, and then every
value has become what its conversion returned, or has stayed where that raised
(`convertEntry_eq_ok_iff`).
-/

set_option autoImplicit false
set_option relaxedAutoImplicit false

namespace PythonSystemd.Journal

open Library Library.CheckedMemory Python

/-! ### Values of a field -/

namespace FieldData

variable {α β : Type}

/-- The values, one or several. -/
def values : FieldData α → List α
  | .one value => [value]
  | .many values => values

def map (f : α → β) : FieldData α → FieldData β
  | .one value => .one (f value)
  | .many values => .many (values.map f)

end FieldData

variable {ν : Type} {converters : Converters ν} {key : Text}

/-! ### One value -/

/-- What is attempted for a value: its converter, or else decoding it. -/
def conversion (converters : Converters ν) (key : Text) (value : RawValue) :
    Except PyException (Converted ν) :=
  match converters.get? key with
  | some convert => (convert value).map Converted.object
  | none => (bytesDecode value).map Converted.text

/-- The `except` clause of `Reader._convert_field`. -/
def exceptValueError (value : RawValue) :
    Except PyException (Converted ν) → Except PyException (Converted ν)
  | .ok converted => .ok converted
  | .error exception => if isValueError exception then .ok (.raw value) else .error exception

theorem convertField_eq (converters : Converters ν) (key : Text) (value : RawValue) :
    convertField converters key value =
      exceptValueError value (conversion converters key value) := by
  unfold convertField conversion
  cases converters.get? key with
  | none =>
    cases bytesDecode value with
    | ok text => rfl
    | error exception => rfl
  | some convert =>
    cases convert value with
    | ok converted => rfl
    | error exception => rfl

/-- The exceptions that the `except` clause catches. -/
def Caught (exception : PyException) : Prop :=
  isValueError exception = true

/-- The attempt raises nothing that is no `ValueError`. -/
def OnlyValueErrors (converters : Converters ν) (key : Text) (value : RawValue) : Prop :=
  RaisesOnly Caught (conversion converters key value)

/-- What the attempt returned, or the value as it was. -/
def convertedOrRaw (converters : Converters ν) (key : Text) (value : RawValue) : Converted ν :=
  match conversion converters key value with
  | .ok converted => converted
  | .error _ => .raw value

section Field

variable {value : RawValue}

theorem convertField_eq_ok (h : OnlyValueErrors converters key value) :
    convertField converters key value = .ok (convertedOrRaw converters key value) := by
  rw [convertField_eq]
  unfold convertedOrRaw
  cases hconversion : conversion converters key value with
  | ok converted => rfl
  | error exception => exact if_pos (h exception hconversion)

theorem onlyValueErrors_of_convertField {converted : Converted ν}
    (h : convertField converters key value = .ok converted) :
    OnlyValueErrors converters key value := by
  intro exception hconversion
  rw [convertField_eq, hconversion, exceptValueError] at h
  by_contra hother
  have hother : ¬ isValueError exception = true := hother
  rw [if_neg hother] at h
  cases h

/-- Without a converter the value is decoded, and bytes that are no text are a `ValueError`. -/
theorem onlyValueErrors_of_get?_eq_none {bytes : List UInt8} (h : converters.get? key = none) :
    OnlyValueErrors converters key (.bytes bytes) := by
  unfold OnlyValueErrors conversion
  rw [h]
  refine raisesOnly_map_iff.mpr ((raisesOnly_unicodeFromString bytes).mono ?_)
  rintro exception rfl
  rfl

end Field

/-! ### The values of an entry -/

section Values

variable {values : List RawValue} {data : FieldData RawValue}

theorem mapM_convertField_eq_ok (h : ∀ value ∈ values, OnlyValueErrors converters key value) :
    values.mapM (convertField converters key) =
      .ok (values.map (convertedOrRaw converters key)) := by
  induction values with
  | nil => rfl
  | cons value values ih =>
    obtain ⟨hvalue, hvalues⟩ := List.forall_mem_cons.mp h
    rw [List.mapM_cons, convertField_eq_ok hvalue, ih hvalues]
    rfl

theorem onlyValueErrors_of_mapM {converted : List (Converted ν)}
    (h : values.mapM (convertField converters key) = .ok converted) :
    ∀ value ∈ values, OnlyValueErrors converters key value := by
  induction values generalizing converted with
  | nil => exact List.forall_mem_nil _
  | cons value values ih =>
    rw [List.mapM_cons] at h
    obtain ⟨first, hfirst, h⟩ := returned_bind.mp h
    obtain ⟨rest, hrest, -⟩ := returned_bind.mp h
    exact List.forall_mem_cons.mpr ⟨onlyValueErrors_of_convertField hfirst, ih hrest⟩

theorem convertData_eq_ok (h : ∀ value ∈ data.values, OnlyValueErrors converters key value) :
    convertData converters key data = .ok (data.map (convertedOrRaw converters key)) := by
  cases data with
  | one value =>
    rw [convertData, convertField_eq_ok (h value List.mem_cons_self)]
    rfl
  | many values =>
    have hvalues := mapM_convertField_eq_ok h
    rw [FieldData.values] at hvalues
    rw [convertData, hvalues]
    rfl

theorem onlyValueErrors_of_convertData {converted : FieldData (Converted ν)}
    (h : convertData converters key data = .ok converted) :
    ∀ value ∈ data.values, OnlyValueErrors converters key value := by
  cases data with
  | one value =>
    obtain ⟨result, hresult, -⟩ := returned_bind.mp h
    intro other hother
    rw [List.mem_singleton.mp hother]
    exact onlyValueErrors_of_convertField hresult
  | many values =>
    obtain ⟨results, hresults, -⟩ := returned_bind.mp h
    exact onlyValueErrors_of_mapM hresults

end Values

/-! ### Entries -/

/-- The attempts for every value of the items raise nothing that is no `ValueError`. -/
def ItemsConvert (converters : Converters ν) (items : List (Text × FieldData RawValue)) : Prop :=
  ∀ item ∈ items, ∀ value ∈ item.2.values, OnlyValueErrors converters item.1 value

/-- An item after the attempts for its values. -/
def convertedItem (converters : Converters ν) (item : Text × FieldData RawValue) :
    Text × FieldData (Converted ν) :=
  (item.1, item.2.map (convertedOrRaw converters item.1))

theorem convertItems_eq_ok {items : List (Text × FieldData RawValue)}
    (h : ItemsConvert converters items) (result : OrderedDict Text (FieldData (Converted ν))) :
    convertItems converters items result =
      .ok (result.setAll (items.map (convertedItem converters))) := by
  induction items generalizing result with
  | nil => rfl
  | cons item items ih =>
    obtain ⟨hitem, hitems⟩ := List.forall_mem_cons.mp h
    obtain ⟨key, data⟩ := item
    have hdata : convertData converters key data = _ := convertData_eq_ok hitem
    rw [convertItems, hdata]
    exact ih hitems _

theorem itemsConvert_of_convertItems {items : List (Text × FieldData RawValue)}
    {result after : OrderedDict Text (FieldData (Converted ν))}
    (h : convertItems converters items result = .ok after) : ItemsConvert converters items := by
  induction items generalizing result with
  | nil => exact List.forall_mem_nil _
  | cons item items ih =>
    obtain ⟨key, data⟩ := item
    rw [convertItems] at h
    obtain ⟨converted, hconverted, h⟩ := returned_bind.mp h
    exact List.forall_mem_cons.mpr ⟨onlyValueErrors_of_convertData hconverted, ih h⟩

/-- The entry with every value converted or left as it was. -/
def convertedEntry (converters : Converters ν) (entry : OrderedDict Text (FieldData RawValue)) :
    OrderedDict Text (FieldData (Converted ν)) :=
  entry.mapEntries fun key data ↦ data.map (convertedOrRaw converters key)

/-- An entry is converted value by value exactly when no attempt raises anything else than a
`ValueError`. -/
theorem convertEntry_eq_ok_iff (converters : Converters ν)
    (entry : OrderedDict Text (FieldData RawValue)) :
    convertEntry converters entry = .ok (convertedEntry converters entry) ↔
      ItemsConvert converters entry.items := by
  refine ⟨itemsConvert_of_convertItems, fun h ↦ ?_⟩
  have hconvert := convertItems_eq_ok h (OrderedDict.empty : OrderedDict Text _)
  have hnodup : ((entry.items.map (convertedItem converters)).map Prod.fst).Nodup := by
    rw [List.map_map]
    exact entry.nodup
  have hitems := OrderedDict.items_setAll (entry.items.map (convertedItem converters))
    OrderedDict.empty hnodup
  refine hconvert.trans (congrArg Except.ok (OrderedDict.eq_of_items_eq ?_))
  exact hitems

end PythonSystemd.Journal
