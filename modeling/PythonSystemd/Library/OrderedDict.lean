import Mathlib.Data.List.Basic
import Mathlib.Data.List.Nodup
import Mathlib.Tactic.Common

/-!
# Dictionaries in insertion order

An `OrderedDict` is a list of items with distinct keys. Setting an item replaces the value of its
key where the key stands, or appends the item, and `update` sets the items of another dictionary
one after the other.

`get?_setItem` and `get?_update` are the rules for looking up what was set. A dictionary that is
filled with new keys only keeps them in the order in which they came (`items_setAll`).
-/

set_option autoImplicit false
set_option relaxedAutoImplicit false

namespace PythonSystemd.Library

/-- A finite map that remembers the order in which its keys were first set. -/
structure OrderedDict (κ ν : Type) where
  items : List (κ × ν)
  nodup : (items.map Prod.fst).Nodup

namespace OrderedDict

variable {κ ν : Type}

def empty : OrderedDict κ ν where
  items := []
  nodup := List.nodup_nil

def keys (dict : OrderedDict κ ν) : List κ :=
  dict.items.map Prod.fst

def isEmpty (dict : OrderedDict κ ν) : Bool :=
  dict.items.isEmpty

theorem isEmpty_eq_false_iff {dict : OrderedDict κ ν} :
    dict.isEmpty = false ↔ ∃ key, key ∈ dict.keys := by
  unfold isEmpty keys
  cases dict.items with
  | nil => simp
  | cons item items =>
    refine iff_of_true rfl ⟨item.1, ?_⟩
    rw [List.map_cons]
    exact List.mem_cons_self

/-- The same keys with other values. -/
def mapValues {μ : Type} (f : ν → μ) (dict : OrderedDict κ ν) : OrderedDict κ μ where
  items := dict.items.map fun item ↦ (item.1, f item.2)
  nodup := by
    rw [List.map_map]
    exact dict.nodup

/-- The same keys with values that may depend on the key. -/
def mapEntries {μ : Type} (f : κ → ν → μ) (dict : OrderedDict κ ν) : OrderedDict κ μ where
  items := dict.items.map fun item ↦ (item.1, f item.1 item.2)
  nodup := by
    rw [List.map_map]
    exact dict.nodup

theorem keys_mapEntries {μ : Type} (f : κ → ν → μ) (dict : OrderedDict κ ν) :
    (dict.mapEntries f).keys = dict.keys := by
  unfold keys mapEntries
  rw [List.map_map]
  rfl

theorem eq_of_items_eq {first second : OrderedDict κ ν} (h : first.items = second.items) :
    first = second := by
  cases first
  cases second
  obtain rfl := h
  rfl

variable [DecidableEq κ]

def get? (dict : OrderedDict κ ν) (key : κ) : Option ν :=
  dict.items.lookup key

/-- Replaces the value of a key in a list of items. -/
def replaceValue (key : κ) (value : ν) (items : List (κ × ν)) : List (κ × ν) :=
  items.map fun item ↦ if item.1 = key then (key, value) else item

theorem keys_replaceValue (key : κ) (value : ν) (items : List (κ × ν)) :
    (replaceValue key value items).map Prod.fst = items.map Prod.fst := by
  unfold replaceValue
  rw [List.map_map]
  refine List.map_congr_left fun item _ ↦ ?_
  by_cases h : item.1 = key
  · rw [Function.comp_apply, if_pos h, h]
  · rw [Function.comp_apply, if_neg h]

def setItem (dict : OrderedDict κ ν) (key : κ) (value : ν) : OrderedDict κ ν :=
  if h : key ∈ dict.keys then
    { items := replaceValue key value dict.items
      nodup := by
        rw [keys_replaceValue]
        exact dict.nodup }
  else
    { items := dict.items ++ [(key, value)]
      nodup := by
        rw [List.map_append]
        refine List.Nodup.append dict.nodup (List.nodup_singleton key) ?_
        intro other hother hkey
        rw [List.mem_singleton.mp hkey] at hother
        exact h hother }

/-- Sets the items one after the other. -/
def setAll (dict : OrderedDict κ ν) (items : List (κ × ν)) : OrderedDict κ ν :=
  items.foldl (fun dict item ↦ dict.setItem item.1 item.2) dict

def update (dict other : OrderedDict κ ν) : OrderedDict κ ν :=
  dict.setAll other.items

variable {dict other : OrderedDict κ ν} {key : κ} {value : ν}

/-! ### Looking up -/

theorem get?_eq_none_iff : dict.get? key = none ↔ key ∉ dict.keys := by
  unfold get? keys
  rw [List.lookup_eq_none_iff]
  constructor
  · intro hall hmem
    obtain ⟨item, hitem, rfl⟩ := List.mem_map.mp hmem
    simpa using hall item hitem
  · intro hnot item hitem
    have hne : key ≠ item.1 := fun heq ↦ hnot (heq ▸ List.mem_map_of_mem hitem)
    simpa using hne

theorem mem_keys_iff : key ∈ dict.keys ↔ ∃ value, dict.get? key = some value := by
  rw [← Option.isSome_iff_exists, Option.isSome_iff_ne_none, Ne, get?_eq_none_iff, not_not]

/-- A key has the value it stands with. -/
theorem get?_eq_some_iff : dict.get? key = some value ↔ (key, value) ∈ dict.items := by
  constructor
  · intro h
    obtain ⟨before, after, hitems, -⟩ := List.lookup_eq_some_iff.mp h
    rw [hitems]
    exact List.mem_append_right before List.mem_cons_self
  · intro h
    obtain ⟨before, after, hitems⟩ := List.append_of_mem h
    refine List.lookup_eq_some_iff.mpr ⟨before, after, hitems, fun item hitem ↦ ?_⟩
    have hnodup := dict.nodup
    rw [hitems, List.map_append, List.map_cons] at hnodup
    have hne := List.disjoint_of_nodup_append hnodup (List.mem_map_of_mem hitem)
    have hkey : key ≠ item.1 := fun heq ↦ hne (heq ▸ List.mem_cons_self)
    simpa using hkey

/-- Looking up a changed value is changing the value that is looked up. -/
theorem get?_mapEntries {μ : Type} (f : κ → ν → μ) (dict : OrderedDict κ ν) (key : κ) :
    (dict.mapEntries f).get? key = (dict.get? key).map (f key) := by
  cases hget : dict.get? key with
  | none =>
    rw [Option.map_none, get?_eq_none_iff, keys_mapEntries]
    exact get?_eq_none_iff.mp hget
  | some value =>
    rw [Option.map_some, get?_eq_some_iff]
    exact List.mem_map.mpr ⟨(key, value), get?_eq_some_iff.mp hget, rfl⟩

theorem get?_mapValues {μ : Type} (f : ν → μ) (dict : OrderedDict κ ν) (key : κ) :
    (dict.mapValues f).get? key = (dict.get? key).map f :=
  get?_mapEntries (fun _ ↦ f) dict key

theorem lookup_replaceValue_of_ne (items : List (κ × ν)) {wanted : κ} (h : wanted ≠ key) :
    (replaceValue key value items).lookup wanted = items.lookup wanted := by
  induction items with
  | nil => rfl
  | cons item items ih =>
    unfold replaceValue at ih ⊢
    rw [List.map_cons]
    by_cases hitem : item.1 = key
    · have hfalse : (wanted == item.1) = false := by simpa [hitem] using h
      have hkeyFalse : (wanted == key) = false := by simpa using h
      rw [if_pos hitem, List.lookup_cons, List.lookup_cons, hfalse, hkeyFalse, ih]
    · rw [if_neg hitem, List.lookup_cons, List.lookup_cons, ih]

/-- Setting an item gives its key the value and leaves the other keys alone. -/
theorem get?_setItem (dict : OrderedDict κ ν) (key : κ) (value : ν) (wanted : κ) :
    (dict.setItem key value).get? wanted =
      if wanted = key then some value else dict.get? wanted := by
  by_cases hwanted : wanted = key
  · rw [if_pos hwanted, hwanted, get?_eq_some_iff]
    unfold setItem
    split_ifs with hmem
    · obtain ⟨item, hitem, hkey⟩ := List.mem_map.mp hmem
      exact List.mem_map.mpr ⟨item, hitem, if_pos hkey⟩
    · exact List.mem_append_right _ List.mem_cons_self
  · rw [if_neg hwanted]
    unfold setItem get?
    split_ifs with hmem
    · exact lookup_replaceValue_of_ne dict.items hwanted
    · have hfalse : (wanted == key) = false := by simpa using hwanted
      rw [List.lookup_append, List.lookup_cons, hfalse, List.lookup_nil, Option.or_none]

theorem get?_setAll (items : List (κ × ν)) (dict : OrderedDict κ ν) (wanted : κ)
    (hnodup : (items.map Prod.fst).Nodup) :
    (dict.setAll items).get? wanted = (items.lookup wanted).or (dict.get? wanted) := by
  induction items generalizing dict with
  | nil => rfl
  | cons item items ih =>
    rw [List.map_cons, List.nodup_cons] at hnodup
    have hstep : (dict.setAll (item :: items)) = (dict.setItem item.1 item.2).setAll items := rfl
    rw [hstep, ih _ hnodup.2, get?_setItem, List.lookup_cons]
    by_cases hwanted : wanted = item.1
    · have hnone : items.lookup wanted = none := by
        rw [List.lookup_eq_none_iff]
        intro other hother
        have hne : wanted ≠ other.1 := fun heq ↦
          hnodup.1 (hwanted ▸ heq ▸ List.mem_map_of_mem hother)
        simpa using hne
      have htrue : (wanted == item.1) = true := by simpa using hwanted
      rw [hnone, if_pos hwanted, htrue]
      rfl
    · have hfalse : (wanted == item.1) = false := by simpa using hwanted
      rw [if_neg hwanted, hfalse]

/-- Whatever was set comes from the items or was there before. -/
theorem of_get?_setAll_eq_some {items : List (κ × ν)} {wanted : κ}
    (h : (dict.setAll items).get? wanted = some value) :
    (wanted, value) ∈ items ∨ dict.get? wanted = some value := by
  induction items generalizing dict with
  | nil => exact .inr h
  | cons item items ih =>
    rcases ih h with hmem | hget
    · exact .inl (List.mem_cons_of_mem item hmem)
    · rw [get?_setItem] at hget
      split_ifs at hget with hwanted
      · left
        rw [hwanted, ← Option.some.inj hget]
        exact List.mem_cons_self
      · exact .inr hget

theorem get?_setAll_of_not_mem {items : List (κ × ν)} {wanted : κ}
    (h : wanted ∉ items.map Prod.fst) : (dict.setAll items).get? wanted = dict.get? wanted := by
  induction items generalizing dict with
  | nil => rfl
  | cons item items ih =>
    rw [List.map_cons, List.mem_cons, not_or] at h
    have hstep : (dict.setAll (item :: items)) = (dict.setItem item.1 item.2).setAll items := rfl
    rw [hstep, ih h.2, get?_setItem, if_neg h.1]

theorem get?_setAll_of_mem {items : List (κ × ν)} (hnodup : (items.map Prod.fst).Nodup)
    (hmem : (key, value) ∈ items) : (dict.setAll items).get? key = some value := by
  have hlookup : (OrderedDict.mk items hnodup).get? key = some value := get?_eq_some_iff.mpr hmem
  rw [get?_setAll items dict key hnodup]
  change ((OrderedDict.mk items hnodup).get? key).or (dict.get? key) = some value
  rw [hlookup, Option.some_or]

/-- An update takes the value of the other dictionary where that has the key. -/
theorem get?_update (dict other : OrderedDict κ ν) (wanted : κ) :
    (dict.update other).get? wanted = (other.get? wanted).or (dict.get? wanted) :=
  get?_setAll other.items dict wanted other.nodup

/-! ### Keys -/

theorem mem_keys_setItem {wanted : κ} :
    wanted ∈ (dict.setItem key value).keys ↔ wanted = key ∨ wanted ∈ dict.keys := by
  rw [mem_keys_iff, mem_keys_iff, get?_setItem]
  by_cases h : wanted = key
  · simp [h]
  · simp [h]

theorem items_setItem_of_not_mem (h : key ∉ dict.keys) :
    (dict.setItem key value).items = dict.items ++ [(key, value)] := by
  rw [setItem, dif_neg h]

/-- New keys are appended in their order. -/
theorem items_setAll (items : List (κ × ν)) (dict : OrderedDict κ ν)
    (hnodup : ((dict.items ++ items).map Prod.fst).Nodup) :
    (dict.setAll items).items = dict.items ++ items := by
  induction items generalizing dict with
  | nil => exact (List.append_nil dict.items).symm
  | cons item items ih =>
    have hnew : item.1 ∉ dict.keys := by
      rw [List.map_append, List.map_cons] at hnodup
      exact fun hmem ↦ List.disjoint_of_nodup_append hnodup hmem List.mem_cons_self
    have hitems : (dict.setItem item.1 item.2).items = dict.items ++ [(item.1, item.2)] :=
      items_setItem_of_not_mem hnew
    have hstep : (dict.setAll (item :: items)) = (dict.setItem item.1 item.2).setAll items := rfl
    rw [hstep, ih, hitems, List.append_assoc, List.singleton_append]
    rw [hitems, List.append_assoc, List.singleton_append]
    exact hnodup

end OrderedDict

end PythonSystemd.Library
