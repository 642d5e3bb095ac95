import PythonSystemd.Library.CheckedMemory
import PythonSystemd.Library.OrderedDict
import PythonSystemd.Python.Pyutil

/-!
# Descriptors passed by name

`listen_fds_with_names` of `_daemon.c` and of `daemon.py`. The C function builds a tuple of the
number of descriptors and their names, with slots that are unset at first, and hands the interpreter
a result or a null pointer next to the exception that is set. The list of names is the array that
the library returns up to its null pointer.

A name that is not valid UTF-8 leaves its slot unset and its exception set, and the tuple is
returned all the same. `mapsOneToOne_iff` says that this is the only way for the function to fail.

Left out: failures to allocate memory. The number of descriptors and one more fits in an `int`,
since the library refuses more descriptors than it can number.
-/

set_option autoImplicit false
set_option relaxedAutoImplicit false

namespace PythonSystemd.Daemon

open Library Library.CheckedMemory Python

/-! ### The C function -/

/-- An object that the tuple holds. -/
inductive TupleItem
  | int (value : ℤ)
  | text (value : Text)
  deriving DecidableEq

/-- A tuple while it is filled; a slot may be unset. -/
abbrev PyTuple := List (Option TupleItem)

/-- `PyTuple_SetItem`, which takes a null pointer for an item. -/
def tupleSetItem (tpl : PyTuple) (i : ℕ) (item : Option TupleItem) :
    Except PyException PyTuple :=
  if i < tpl.length then .ok (tpl.set i item)
  else .error (.indexError "tuple assignment index out of range")

/-- `unicode_FromString`: the text or a null pointer, and the exception that is set afterwards. -/
def unicodeOrNull (pending : Option PyException) (name : List UInt8) : CallResult Text :=
  match unicodeFromString name with
  | .ok text => { value := some text, pending := pending }
  | .error exception => { value := none, pending := some exception }

/-- The loop of `listen_fds_with_names`, from `names[i]` on. -/
def fillNames (r i : ℕ) (tpl : PyTuple) (pending : Option PyException) :
    (names : List (List UInt8)) → CallResult PyTuple
  | [] => { value := some tpl, pending := pending }
  | name :: names =>
    if i < r then
      let item := unicodeOrNull pending name
      match tupleSetItem tpl (1 + i) (item.value.map TupleItem.text) with
      | .error exception => { value := none, pending := some exception }
      | .ok tpl => fillNames r (i + 1) tpl item.pending names
    else { value := some tpl, pending := pending }

/-- `listen_fds_with_names` of `_daemon.c`, for what the library returns where the module was
compiled against one that has the function. -/
def listenFdsWithNames
    (sdListenFdsWithNames : Option (Bool → ℤ × List (List UInt8)))
    (arguments : Except PyException (Option Bool)) : CallResult PyTuple :=
  match arguments, sdListenFdsWithNames with
  | .error exception, _ => { value := none, pending := some exception }
  | .ok _, none =>
    { value := none
      pending := setError (-ENOSYS) none
        (some "Compiled without support for sd_listen_fds_with_names") }
  | .ok unset, some listen =>
    let (r, names) := listen (unset.getD false)
    match setError r none none with
    | some exception => { value := none, pending := some exception }
    | none =>
      match tupleSetItem (List.replicate (r.toNat + 1) none) 0 (some (.int r)) with
      | .error exception => { value := none, pending := some exception }
      | .ok tpl => fillNames r.toNat 0 tpl none names

/-! ### The Python function -/

/-- `tpl[i]`; an unset slot is a null pointer. -/
def tupleGetItem (tpl : PyTuple) (i : ℕ) : Checked (Except PyException TupleItem) :=
  match tpl[i]? with
  | none => .ok (.error (.indexError "tuple index out of range"))
  | some none => .error .outOfBounds
  | some (some item) => .ok (.ok item)

/-- `LISTEN_FDS_START`, which is `SD_LISTEN_FDS_START`. -/
def listenFdsStart : ℤ := 3

/-- A dictionary of descriptors and what the tuple has as their names. -/
abbrev NamedFds := OrderedDict ℤ TupleItem

/-- The loop of `listen_fds_with_names` in `daemon.py` with `count` numbers of the range to go. -/
def collectNames (composite : PyTuple) : (count i : ℕ) → (retval : NamedFds) →
    Checked (Except PyException NamedFds)
  | 0, _, retval => .ok (.ok retval)
  | count + 1, i, retval => do
    match ← tupleGetItem composite (1 + i) with
    | .error exception => return .error exception
    | .ok item => collectNames composite count (i + 1) (retval.setItem (i + listenFdsStart) item)

/-- `listen_fds_with_names` of `daemon.py`. -/
def daemonListenFdsWithNames
    (sdListenFdsWithNames : Option (Bool → ℤ × List (List UInt8))) (unsetEnvironment : Bool) :
    Checked (Except PyException NamedFds) :=
  match checkFunctionResult
      (listenFdsWithNames sdListenFdsWithNames (.ok (some unsetEnvironment))) with
  | .error exception => .ok (.error exception)
  | .ok composite => do
    match ← tupleGetItem composite 0 with
    | .error exception => return .error exception
    | .ok (.text _) =>
      return .error (.typeError "'str' object cannot be interpreted as an integer")
    | .ok (.int number) => collectNames composite number.toNat 0 OrderedDict.empty

/-! ### Filling the tuple -/

/-- The name is valid UTF-8. -/
def IsText (name : List UInt8) : Prop :=
  (decodeUtf8 name).isSome = true

instance (name : List UInt8) : Decidable (IsText name) :=
  inferInstanceAs (Decidable ((decodeUtf8 name).isSome = true))

/-- The slot that the loop leaves for a name. -/
def slotOf (name : List UInt8) : Option TupleItem :=
  (decodeUtf8 name).map TupleItem.text

theorem unicodeOrNull_eq (pending : Option PyException) (name : List UInt8) :
    unicodeOrNull pending name =
      { value := decodeUtf8 name
        pending := if IsText name then pending else some .unicodeDecodeError } := by
  unfold unicodeOrNull unicodeFromString
  cases htext : decodeUtf8 name with
  | none =>
    have hname : ¬ IsText name := by
      rw [IsText, htext]
      exact Bool.false_ne_true
    rw [if_neg hname]
  | some text =>
    have hname : IsText name := by
      rw [IsText, htext]
      rfl
    rw [if_pos hname]

/-- The first slot behind those that are filled is set. -/
theorem tupleSetItem_next {filled : PyTuple} {i : ℕ} (h : filled.length = 1 + i)
    (item : Option TupleItem) (left : ℕ) :
    tupleSetItem (filled ++ List.replicate (left + 1) none) (1 + i) item =
      .ok (filled ++ [item] ++ List.replicate left none) := by
  rw [tupleSetItem, if_pos (by simp; omega), List.set_append_right _ _ (by omega), h,
    Nat.sub_self, List.append_assoc]
  rfl

/-- The number is set in a new tuple. -/
theorem tupleSetItem_number (count : ℕ) :
    tupleSetItem (List.replicate ((count : ℤ).toNat + 1) none) 0 (some (.int count)) =
      .ok ([some (.int count)] ++ List.replicate count none) := by
  rw [Int.toNat_natCast, tupleSetItem, if_pos (by simp)]
  rfl

theorem setError_count (count : ℕ) : setError (count : ℤ) none none = none :=
  setError_eq_none_iff.mpr (Int.natCast_nonneg count)

/-- The loop fills the slots behind those that are filled, one for each name, and the exception of
a name that is not valid stays set. -/
theorem fillNames_eq (names : List (List UInt8)) (filled : PyTuple) {r i : ℕ}
    (hfilled : filled.length = 1 + i) (hr : r = i + names.length)
    (pending : Option PyException) :
    fillNames r i (filled ++ List.replicate names.length none) pending names =
      { value := some (filled ++ names.map slotOf)
        pending := if ∀ name ∈ names, IsText name then pending else some .unicodeDecodeError } := by
  induction names generalizing filled i pending with
  | nil =>
    rw [fillNames, if_pos fun _ h ↦ absurd h List.not_mem_nil]
    rfl
  | cons name names ih =>
    rw [List.length_cons] at hr
    have hset : tupleSetItem (filled ++ List.replicate (name :: names).length none) (1 + i)
        (slotOf name) = .ok (filled ++ [slotOf name] ++ List.replicate names.length none) :=
      tupleSetItem_next hfilled (slotOf name) names.length
    have hitem : (unicodeOrNull pending name).value.map TupleItem.text = slotOf name := by
      rw [unicodeOrNull_eq]
      rfl
    have hrest := ih (filled ++ [slotOf name]) (i := i + 1) (by simp [hfilled]; omega)
      (by omega) (unicodeOrNull pending name).pending
    rw [fillNames, if_pos (by omega)]
    dsimp only
    rw [hitem, hset]
    dsimp only
    rw [hrest, unicodeOrNull_eq, List.append_assoc]
    dsimp only
    by_cases hname : IsText name
    · simp only [List.forall_mem_cons, hname, true_and, if_true]
      rfl
    · simp only [List.forall_mem_cons, hname, false_and, if_false, ite_self]
      rfl

/-- What the C function returns for a list of names. -/
theorem listenFdsWithNames_eq (names : List (List UInt8)) (unset : Bool) :
    listenFdsWithNames (some fun _ ↦ (names.length, names)) (.ok (some unset)) =
      { value := some (some (.int names.length) :: names.map slotOf)
        pending := if ∀ name ∈ names, IsText name then none else some .unicodeDecodeError } := by
  unfold listenFdsWithNames
  dsimp only
  rw [setError_count]
  dsimp only
  rw [tupleSetItem_number]
  exact fillNames_eq names _ rfl (by simp) none

/-! ### Reading the tuple -/

/-- The items of the dictionary for the names from descriptor `i` on. -/
def namedItems (i : ℕ) : (texts : List Text) → List (ℤ × TupleItem)
  | [] => []
  | text :: texts => (i + listenFdsStart, .text text) :: namedItems (i + 1) texts

/-- The loop reads the slots behind those that are read. -/
theorem collectNames_eq (texts : List Text) (read : PyTuple) {i : ℕ} (hread : read.length = 1 + i)
    (retval : NamedFds) :
    collectNames (read ++ texts.map fun text ↦ some (.text text)) texts.length i retval =
      .ok (.ok (retval.setAll (namedItems i texts))) := by
  induction texts generalizing read i retval with
  | nil => rfl
  | cons text texts ih =>
    have hget : tupleGetItem (read ++ (text :: texts).map fun text ↦ some (.text text)) (1 + i) =
        .ok (.ok (.text text)) := by
      rw [tupleGetItem, List.getElem?_append_right (by omega), hread, Nat.sub_self]
      rfl
    have hrest := ih (read ++ [some (.text text)]) (i := i + 1) (by simp [hread]; omega)
      (retval.setItem (i + listenFdsStart) (.text text))
    rw [List.append_assoc] at hrest
    rw [List.length_cons, collectNames, hget]
    exact hrest

theorem keys_namedItems (i : ℕ) (texts : List Text) :
    (namedItems i texts).map Prod.fst =
      (List.range' i texts.length).map fun number : ℕ ↦ (number : ℤ) + listenFdsStart := by
  induction texts generalizing i with
  | nil => rfl
  | cons text texts ih =>
    rw [namedItems, List.map_cons, ih, List.length_cons, List.range'_succ, List.map_cons]

theorem nodup_namedItems (i : ℕ) (texts : List Text) :
    ((namedItems i texts).map Prod.fst).Nodup := by
  rw [keys_namedItems]
  refine (List.nodup_range' ..).map fun first second h ↦ ?_
  have heq : (first : ℤ) + listenFdsStart = second + listenFdsStart := h
  omega

/-- The name of a descriptor is the item under its number. -/
theorem mem_namedItems (texts : List Text) (i : ℕ) {index : ℕ} (h : index < texts.length) :
    (((i + index : ℕ) : ℤ) + listenFdsStart, TupleItem.text texts[index]) ∈ namedItems i texts := by
  induction texts generalizing i index with
  | nil => exact absurd h (Nat.not_lt_zero index)
  | cons text texts ih =>
    cases index with
    | zero => exact List.mem_cons_self
    | succ index =>
      have hindex : index < texts.length := Nat.lt_of_succ_lt_succ h
      have hrest := ih (i + 1) hindex
      have hshift : i + 1 + index = i + (index + 1) := by omega
      rw [hshift] at hrest
      exact List.mem_cons_of_mem _ hrest

/-- Valid names and the texts that they are. -/
theorem exists_texts {names : List (List UInt8)} (h : ∀ name ∈ names, IsText name) :
    ∃ texts : List Text, names.map decodeUtf8 = texts.map some := by
  induction names with
  | nil => exact ⟨[], rfl⟩
  | cons name names ih =>
    obtain ⟨hname, hnames⟩ := List.forall_mem_cons.mp h
    obtain ⟨text, htext⟩ := Option.isSome_iff_exists.mp hname
    obtain ⟨texts, htexts⟩ := ih hnames
    exact ⟨text :: texts, by rw [List.map_cons, List.map_cons, htext, htexts]⟩

theorem daemonListenFdsWithNames_eq {names : List (List UInt8)} {texts : List Text}
    (htexts : names.map decodeUtf8 = texts.map some) (unset : Bool) :
    daemonListenFdsWithNames (some fun _ ↦ (names.length, names)) unset =
      .ok (.ok (OrderedDict.empty.setAll (namedItems 0 texts))) := by
  have hall : ∀ name ∈ names, IsText name := by
    intro name hname
    have hmem : decodeUtf8 name ∈ texts.map some := htexts ▸ List.mem_map_of_mem hname
    obtain ⟨text, -, htext⟩ := List.mem_map.mp hmem
    rw [IsText, ← htext]
    rfl
  have hslots : names.map slotOf = texts.map fun text ↦ some (.text text) := by
    have hmap := congrArg (List.map (Option.map TupleItem.text)) htexts
    rw [List.map_map, List.map_map] at hmap
    exact hmap
  have hlength : names.length = texts.length := by
    have hmap := congrArg List.length htexts
    rwa [List.length_map, List.length_map] at hmap
  unfold daemonListenFdsWithNames
  rw [listenFdsWithNames_eq, if_pos hall, hslots, hlength]
  exact collectNames_eq texts [some (.int texts.length)] rfl OrderedDict.empty

/-! ### One name for each descriptor -/

/-- What the functions are to return when the library returns these names: the dictionary with one
key for each name, in order, or the error of a name that is no text; and the C function returns no
tuple next to an exception or with an unset slot. -/
structure MapsOneToOne (names : List (List UInt8)) : Prop where
  named : (∀ name ∈ names, IsText name) → ∀ unset, ∃ retval : NamedFds,
    daemonListenFdsWithNames (some fun _ ↦ (names.length, names)) unset = .ok (.ok retval) ∧
      (retval.keys = (List.range names.length).map fun i : ℕ ↦ (i : ℤ) + listenFdsStart) ∧
      ∀ (i : ℕ) (name : List UInt8), names[i]? = some name → ∃ text,
        decodeUtf8 name = some text ∧ retval.get? (i + listenFdsStart) = some (.text text)
  raised : (∃ name ∈ names, ¬ IsText name) → ∀ unset,
    daemonListenFdsWithNames (some fun _ ↦ (names.length, names)) unset =
      .ok (.error .unicodeDecodeError)
  returned : ∀ unset tpl,
    (listenFdsWithNames (some fun _ ↦ (names.length, names)) (.ok (some unset))).value =
      some tpl →
    (listenFdsWithNames (some fun _ ↦ (names.length, names)) (.ok (some unset))).pending = none ∧
      none ∉ tpl

theorem named_of_forall {names : List (List UInt8)} (h : ∀ name ∈ names, IsText name)
    (unset : Bool) : ∃ retval : NamedFds,
    daemonListenFdsWithNames (some fun _ ↦ (names.length, names)) unset = .ok (.ok retval) ∧
      (retval.keys = (List.range names.length).map fun i : ℕ ↦ (i : ℤ) + listenFdsStart) ∧
      ∀ (i : ℕ) (name : List UInt8), names[i]? = some name → ∃ text,
        decodeUtf8 name = some text ∧ retval.get? (i + listenFdsStart) = some (.text text) := by
  obtain ⟨texts, htexts⟩ := exists_texts h
  have hlength : names.length = texts.length := by
    have hmap := congrArg List.length htexts
    rwa [List.length_map, List.length_map] at hmap
  have hitems : (OrderedDict.empty.setAll (namedItems 0 texts)).items = namedItems 0 texts :=
    OrderedDict.items_setAll (namedItems 0 texts) OrderedDict.empty (nodup_namedItems 0 texts)
  refine ⟨_, daemonListenFdsWithNames_eq htexts unset, ?_, fun i name hname ↦ ?_⟩
  · rw [OrderedDict.keys, hitems, keys_namedItems, hlength, List.range_eq_range']
  · have hmap := congrArg (fun list : List (Option Text) ↦ list[i]?) htexts
    rw [List.getElem?_map, hname, List.getElem?_map] at hmap
    obtain ⟨text, htext, heq⟩ := Option.map_eq_some_iff.mp hmap.symm
    obtain ⟨hlt, rfl⟩ := List.getElem?_eq_some_iff.mp htext
    refine ⟨texts[i], heq.symm, OrderedDict.get?_eq_some_iff.mpr ?_⟩
    rw [hitems]
    have hmem := mem_namedItems texts 0 hlt
    rwa [Nat.zero_add] at hmem

/-- The functions are right exactly when every name is valid UTF-8. -/
theorem mapsOneToOne_iff (names : List (List UInt8)) :
    MapsOneToOne names ↔ ∀ name ∈ names, IsText name := by
  constructor
  · intro h
    have hreturned := h.returned false
    rw [listenFdsWithNames_eq] at hreturned
    by_contra hnot
    have hpending := (hreturned _ rfl).1
    rw [if_neg hnot] at hpending
    cases hpending
  · intro hall
    refine ⟨fun _ unset ↦ named_of_forall hall unset, ?_, ?_⟩
    · rintro ⟨name, hname, hnot⟩
      exact absurd (hall name hname) hnot
    · intro unset tpl htpl
      rw [listenFdsWithNames_eq] at htpl ⊢
      obtain rfl := Option.some.inj htpl
      refine ⟨if_pos hall, fun hmem ↦ ?_⟩
      rcases List.mem_cons.mp hmem with hfirst | hrest
      · cases hfirst
      · obtain ⟨name, hname, hslot⟩ := List.mem_map.mp hrest
        have htext := hall name hname
        rw [IsText, Option.map_eq_none_iff.mp hslot] at htext
        cases htext

/-- With one name that is the byte `0xff`, the interpreter is handed a tuple next to the exception
and raises a `SystemError` of its own. -/
theorem not_mapsOneToOne_sample : ¬ MapsOneToOne [[255]] := by
  intro h
  have hnot : ¬ IsText [255] := by decide
  have hraised := h.raised ⟨[255], List.mem_singleton_self _, hnot⟩ true
  have hsystem : daemonListenFdsWithNames (some fun _ ↦ (1, [[255]])) true =
      .ok (.error .systemError) := by rfl
  have heq := Except.error.inj (Except.ok.inj (hsystem.symm.trans hraised))
  cases heq

end PythonSystemd.Daemon
