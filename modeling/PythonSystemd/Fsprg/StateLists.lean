import PythonSystemd.Fsprg.VerificationKey

/-!
# The lists that are taken for states

The copying loop of `evolve`, `get_epoch`, `get_key` and `seek` on every list. It raises when it
comes to an item that is no integer, it writes behind the array when it comes to an item for which
there is no room, and otherwise it hands its array on: the items cut down to bytes, and behind them
what was there before (`recoverState_of_other`, `recoverState_eq_error`, `recoverState_eq_ok`).

So the check that the loop makes is not the check that a state needs. `stateListValidated_iff` says
for which lists this makes no difference.
-/

set_option autoImplicit false
set_option relaxedAutoImplicit false

namespace PythonSystemd.Fsprg

open Library.CheckedMemory Python

/-! ### The copying loop -/

/-- What the cast stores for an item. -/
def itemByte (item : PyObject) : UInt8 :=
  (pyLongAsUnsignedLong item).1.toUInt8

/-- The exception that is set behind the conversion of the items. -/
def raisedBy (pending : Option PyException) (items : List PyObject) : Option PyException :=
  items.foldl (fun pending item ↦ (pyLongAsUnsignedLong item).2 <|> pending) pending

/-- The exception that the loop raises. -/
def notInteger : PyException :=
  .typeError "list items must be integers."

section Loop

variable (copied : List UInt8) (pending : Option PyException)

/-- An item is stored before it is looked at. -/
theorem recoverState_cons (cell : UInt8) (array : List UInt8) (item : PyObject)
    (items : List PyObject) :
    recoverState (copied ++ cell :: array) copied.length pending (item :: items) =
      if item = .other then .ok (.error notInteger)
      else recoverState (copied ++ [itemByte item] ++ array) (copied ++ [itemByte item]).length
        ((pyLongAsUnsignedLong item).2 <|> pending) items := by
  have hwrite := writeAt_cell copied array cell (itemByte item)
  rw [List.length_append, List.length_singleton]
  cases item with
  | int value =>
    rw [if_neg PyObject.noConfusion]
    simp only [recoverState]
    rw [← itemByte, hwrite, ok_bind]
  | other =>
    rw [if_pos rfl]
    simp only [recoverState]
    rw [← itemByte, hwrite, ok_bind]
    rfl

/-- For an item behind the end of the array there is no room. -/
theorem recoverState_cons_nil (item : PyObject) (items : List PyObject) :
    recoverState copied copied.length pending (item :: items) = .error .outOfBounds := by
  have hwrite := writeAt_length copied (itemByte item)
  simp only [recoverState]
  rw [← itemByte, hwrite, error_bind]

/-- The loop raises when it comes to an item that is no integer. -/
theorem recoverState_of_other {array : List UInt8} {items : List PyObject}
    (h : PyObject.other ∈ items.take array.length) :
    recoverState (copied ++ array) copied.length pending items = .ok (.error notInteger) := by
  induction array generalizing copied pending items with
  | nil => exact absurd h List.not_mem_nil
  | cons cell array ih =>
    cases items with
    | nil => exact absurd h List.not_mem_nil
    | cons item items =>
      rw [recoverState_cons]
      by_cases hitem : item = .other
      · rw [if_pos hitem]
      · rw [if_neg hitem]
        exact ih _ _ ((List.mem_cons.mp h).resolve_left (Ne.symm hitem))

/-- With more items than cells, all of them integers, the loop writes behind the array. -/
theorem recoverState_eq_error {array : List UInt8} {items : List PyObject}
    (h : PyObject.other ∉ items.take array.length) (hlong : array.length < items.length) :
    recoverState (copied ++ array) copied.length pending items = .error .outOfBounds := by
  induction array generalizing copied pending items with
  | nil =>
    obtain ⟨item, items, rfl⟩ := List.exists_cons_of_length_pos hlong
    rw [List.append_nil]
    exact recoverState_cons_nil copied pending item items
  | cons cell array ih =>
    obtain ⟨item, items, rfl⟩ := List.exists_cons_of_length_pos (Nat.zero_lt_of_lt hlong)
    obtain ⟨hitem, hitems⟩ := List.ne_and_not_mem_of_not_mem_cons h
    rw [recoverState_cons, if_neg (Ne.symm hitem)]
    exact ih _ _ hitems (Nat.lt_of_succ_lt_succ hlong)

/-- Integers for which there is room are stored, and the cells behind them stay. -/
theorem recoverState_eq_ok {array : List UInt8} {items : List PyObject}
    (h : PyObject.other ∉ items) (hshort : items.length ≤ array.length) :
    recoverState (copied ++ array) copied.length pending items =
      .ok (.ok (copied ++ items.map itemByte ++ array.drop items.length,
        raisedBy pending items)) := by
  induction items generalizing copied pending array with
  | nil =>
    rw [List.map_nil, List.append_nil]
    rfl
  | cons item items ih =>
    obtain ⟨cell, array, rfl⟩ :=
      List.exists_cons_of_length_pos (Nat.lt_of_lt_of_le (Nat.succ_pos _) hshort)
    obtain ⟨hitem, hitems⟩ := List.ne_and_not_mem_of_not_mem_cons h
    rw [recoverState_cons, if_neg (Ne.symm hitem), ih _ _ hitems (Nat.le_of_succ_le_succ hshort),
      List.append_assoc copied [itemByte item]]
    rfl

end Loop

/-! ### Lists of bytes -/

section Bytes

variable {gcrypt : Gcrypt} {bytes : List UInt8}

theorem evolve_map_byteObject (stack : StateStack)
    (hbytes : fsprgStateinbytes fsprgRecommendedSecpar = .ok bytes.length) :
    evolve stack (bytes.map byteObject) =
      fsprgEvolve bytes >>= fun next ↦ .ok (.ok (next.map byteObject)) := by
  have hlength := Except.ok.inj (stack.state_length.symm.trans hbytes)
  simp only [evolve, recoverState_bytes hlength, ok_bind, pure_eq_ok, checkFunctionResult]

theorem getEpoch_map_byteObject (stack : StateStack)
    (hbytes : fsprgStateinbytes fsprgRecommendedSecpar = .ok bytes.length) :
    getEpoch stack (bytes.map byteObject) =
      fsprgGetEpoch bytes >>= fun epoch ↦ .ok (.ok (.int epoch.toNat)) := by
  have hlength := Except.ok.inj (stack.state_length.symm.trans hbytes)
  simp only [getEpoch, recoverState_bytes hlength, ok_bind, pure_eq_ok, checkFunctionResult]

theorem getKey_map_byteObject (stack : StateStack)
    (hbytes : fsprgStateinbytes fsprgRecommendedSecpar = .ok bytes.length) :
    getKey gcrypt stack (bytes.map byteObject) =
      fsprgGetKey gcrypt bytes (List.replicate (256 / 8) 0) 0 >>= fun key ↦
        .ok (.ok (key.flatMap printByte)) := by
  have hlength := Except.ok.inj (stack.state_length.symm.trans hbytes)
  simp only [getKey, recoverState_bytes hlength, ok_bind, pure_eq_ok, checkFunctionResult]

end Bytes

/-! ### Lists of a state -/

/-- A list of `FSPRG_stateinbytes (1536)` integers from 0 to 255. -/
def IsStateList (pList : List PyObject) : Prop :=
  ∃ bytes : List UInt8, fsprgStateinbytes fsprgRecommendedSecpar = .ok bytes.length ∧
    pList = bytes.map byteObject

/-- Behind the copying loop the `FSPRG` function is called. -/
def ReachesFsprg (array : List UInt8) (pList : List PyObject) : Prop :=
  ∃ state pending, recoverState array 0 none pList = .ok (.ok (state, pending))

/-- The list is checked as a state has to be: an `FSPRG` function sees it only if it is a state
list, any other list raises, no item is stored behind the array, and what the array held before
does not matter. -/
structure StateListValidated (gcrypt : Gcrypt) (pList : List PyObject) : Prop where
  reaches_only : ∀ array : List UInt8, fsprgStateinbytes fsprgRecommendedSecpar = .ok array.length →
    ReachesFsprg array pList → IsStateList pList
  evolve_raises : ¬ IsStateList pList →
    ∀ stack, ∃ exception, evolve stack pList = .ok (.error exception)
  get_epoch_raises : ¬ IsStateList pList →
    ∀ stack, ∃ exception, getEpoch stack pList = .ok (.error exception)
  get_key_raises : ¬ IsStateList pList →
    ∀ stack, ∃ exception, getKey gcrypt stack pList = .ok (.error exception)
  seek_raises : ¬ IsStateList pList →
    ∀ sscanf stack goal key, ∃ exception,
      seek gcrypt sscanf stack pList goal key = .ok (.error exception)
  copies_inside : ∀ array : List UInt8,
    fsprgStateinbytes fsprgRecommendedSecpar = .ok array.length →
    ∃ outcome, recoverState array 0 none pList = .ok outcome
  evolve_same : ∀ stack stack', evolve stack pList = evolve stack' pList
  get_epoch_same : ∀ stack stack', getEpoch stack pList = getEpoch stack' pList
  get_key_same : ∀ stack stack', getKey gcrypt stack pList = getKey gcrypt stack' pList

section Validated

variable {gcrypt : Gcrypt} {pList : List PyObject}

/-- The arrays that the functions declare have 394 bytes. -/
theorem length_stateArray {array : List UInt8}
    (harray : fsprgStateinbytes fsprgRecommendedSecpar = .ok array.length) : array.length = 394 :=
  Except.ok.inj (harray.symm.trans (show _ = Except.ok 394 by decide))

/-- The loop on a list with an item that is no integer among the first 394. -/
theorem recoverState_stateArray_of_other {array : List UInt8}
    (harray : fsprgStateinbytes fsprgRecommendedSecpar = .ok array.length)
    (h : PyObject.other ∈ pList.take 394) :
    recoverState array 0 none pList = .ok (.error notInteger) :=
  recoverState_of_other [] none ((length_stateArray harray).symm ▸ h)

/-- Such a list is turned down everywhere. -/
theorem stateListValidated_of_other (h : PyObject.other ∈ pList.take 394) :
    StateListValidated gcrypt pList := by
  have hevolve : ∀ stack, evolve stack pList = .ok (.error notInteger) := by
    intro stack
    simp only [evolve, recoverState_stateArray_of_other stack.state_length h, ok_bind, pure_eq_ok]
  have hgetEpoch : ∀ stack, getEpoch stack pList = .ok (.error notInteger) := by
    intro stack
    simp only [getEpoch, recoverState_stateArray_of_other stack.state_length h, ok_bind,
      pure_eq_ok]
  have hgetKey : ∀ stack, getKey gcrypt stack pList = .ok (.error notInteger) := by
    intro stack
    simp only [getKey, recoverState_stateArray_of_other stack.state_length h, ok_bind, pure_eq_ok]
  exact {
    reaches_only := by
      rintro array harray ⟨state, pending, hreaches⟩
      cases hreaches.symm.trans (recoverState_stateArray_of_other harray h)
    evolve_raises := fun _ stack ↦ ⟨_, hevolve stack⟩
    get_epoch_raises := fun _ stack ↦ ⟨_, hgetEpoch stack⟩
    get_key_raises := fun _ stack ↦ ⟨_, hgetKey stack⟩
    seek_raises := by
      intro _ sscanf stack goal key
      rcases parseCString_cases key with ⟨-, exception, hkey⟩ | ⟨-, bytes, -, -, hkey⟩
      · refine ⟨.typeError "wrong parameter.", ?_⟩
        simp only [seek, hkey, pure_eq_ok]
      · refine ⟨notInteger, ?_⟩
        simp only [seek, hkey, recoverState_stateArray_of_other stack.state_length h, ok_bind,
          pure_eq_ok]
    copies_inside := fun array harray ↦ ⟨_, recoverState_stateArray_of_other harray h⟩
    evolve_same := fun stack stack' ↦ (hevolve stack).trans (hevolve stack').symm
    get_epoch_same := fun stack stack' ↦ (hgetEpoch stack).trans (hgetEpoch stack').symm
    get_key_same := fun stack stack' ↦ (hgetKey stack).trans (hgetKey stack').symm }

/-- A state list fills the array, so nothing of the stack is left in it. -/
theorem stateListValidated_of_isStateList (h : IsStateList pList) :
    StateListValidated gcrypt pList := by
  obtain ⟨bytes, hlength, rfl⟩ := id h
  have hloop : ∀ array : List UInt8,
      fsprgStateinbytes fsprgRecommendedSecpar = .ok array.length →
      recoverState array 0 none (bytes.map byteObject) = .ok (.ok (bytes, none)) :=
    fun array harray ↦ recoverState_bytes (Except.ok.inj (harray.symm.trans hlength))
  exact {
    reaches_only := fun _ _ _ ↦ h
    evolve_raises := absurd h
    get_epoch_raises := absurd h
    get_key_raises := absurd h
    seek_raises := absurd h
    copies_inside := fun array harray ↦ ⟨_, hloop array harray⟩
    evolve_same := fun stack stack' ↦ by
      simp only [evolve, hloop _ stack.state_length, hloop _ stack'.state_length]
    get_epoch_same := fun stack stack' ↦ by
      simp only [getEpoch, hloop _ stack.state_length, hloop _ stack'.state_length]
    get_key_same := fun stack stack' ↦ by
      simp only [getKey, hloop _ stack.state_length, hloop _ stack'.state_length] }

/-- The arrays of the functions of one argument, filled with a byte. -/
def StateStack.filled (byte : UInt8) : StateStack where
  state := (SeekStack.filled byte).state
  state_length := (SeekStack.filled byte).state_length

/-- Lists are checked as a state has to be exactly when they are state lists or turned down for
the type of one of their first 394 items. -/
theorem stateListValidated_iff (gcrypt : Gcrypt) (pList : List PyObject) :
    StateListValidated gcrypt pList ↔ IsStateList pList ∨ PyObject.other ∈ pList.take 394 := by
  constructor
  · intro hvalidated
    by_contra hneither
    obtain ⟨hlist, hother⟩ := not_or.mp hneither
    have harray := (StateStack.filled 0).state_length
    have hlength := length_stateArray harray
    by_cases hlong : 394 < pList.length
    · obtain ⟨outcome, hinside⟩ := hvalidated.copies_inside _ harray
      have hbehind := recoverState_eq_error [] none (hlength.symm ▸ hother)
        (hlength.symm ▸ hlong)
      cases hinside.symm.trans hbehind
    · have hall : PyObject.other ∉ pList := by
        rwa [List.take_of_length_le (not_lt.mp hlong)] at hother
      have hreaches := recoverState_eq_ok [] none hall (hlength.symm ▸ not_lt.mp hlong)
      exact hlist (hvalidated.reaches_only _ harray ⟨_, _, hreaches⟩)
  · rintro (hlist | hother)
    · exact stateListValidated_of_isStateList hlist
    · exact stateListValidated_of_other hother

/-- For the empty list `get_epoch` gives what lies on the stack. -/
theorem not_stateListValidated_nil : ¬ StateListValidated sampleGcrypt [] := by
  intro hvalidated
  have hsame := hvalidated.get_epoch_same (StateStack.filled 0) (StateStack.filled 1)
  revert hsame
  decide

end Validated

end PythonSystemd.Fsprg
