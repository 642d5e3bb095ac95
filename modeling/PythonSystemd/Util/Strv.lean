import Mathlib.Data.List.Forall2
import Mathlib.Data.List.Nodup
import PythonSystemd.Library.OwnedHeap

/-!
# String vectors

`strv_clear` and `strv_free` of `strv.c`, over a heap of strings and of arrays of pointers. A string
vector is an array of pointers to strings that ends with a null pointer; `HoldsStrv` says that the
heap has one. Freeing it gives back the array and its strings, each once, and nothing else:
`strvFree_of_holds`.
-/

set_option autoImplicit false
set_option relaxedAutoImplicit false

namespace PythonSystemd.Util

open Library.OwnedHeap

/-! ### Blocks -/

/-- A string in front of its terminating zero, or an array. -/
inductive Block
  | string (bytes : List UInt8)
  | pointers (cells : List ℕ)
  | ints (values : List ℤ)
  deriving DecidableEq

def loadPointers (l : ℕ) : HeapProgram Block (List ℕ) := do
  match ← load l with
  | .pointers cells => return cells
  | _ => fault .invalidAccess

def loadString (s : ℕ) : HeapProgram Block (List UInt8) := do
  match ← load s with
  | .string bytes => return bytes
  | _ => fault .invalidAccess

/-- `l[k]`. -/
def loadCell (l k : ℕ) : HeapProgram Block ℕ := do
  let cells ← loadPointers l
  match cells[k]? with
  | some cell => return cell
  | none => fault .invalidAccess

/-- `l[k] = value`. -/
def storeCell (l k value : ℕ) : HeapProgram Block Unit := do
  let cells ← loadPointers l
  if k < cells.length then store l (.pointers (cells.set k value)) else fault .invalidAccess

def loadInts (list : ℕ) : HeapProgram Block (List ℤ) := do
  match ← load list with
  | .ints values => return values
  | _ => fault .invalidAccess

/-- `list[k] = value`. -/
def storeInt (list k : ℕ) (value : ℤ) : HeapProgram Block Unit := do
  let values ← loadInts list
  if k < values.length then store list (.ints (values.set k value)) else fault .invalidAccess

/-- What a library reads of an array of descriptors. -/
def readInts (list count : ℕ) : HeapProgram Block (List Int32) := do
  let values ← loadInts list
  if count ≤ values.length then return (values.take count).map Int32.ofInt
  else fault .invalidAccess

/-! ### strv.c -/

/-- The loop of `strv_clear` from index `k` on. It ends at the null pointer, or behind the array. -/
def clearFrom (l : ℕ) : (count k : ℕ) → HeapProgram Block Unit
  | 0, _ => fault .invalidAccess
  | count + 1, k => do
    let cell ← loadCell l k
    if cell = 0 then return ()
    else do
      free cell
      clearFrom l count (k + 1)

def strvClear (l : ℕ) : HeapProgram Block Unit :=
  if l = 0 then return ()
  else do
    let cells ← loadPointers l
    clearFrom l (cells.length + 1) 0
    storeCell l 0 0

def strvFree (l : ℕ) : HeapProgram Block Unit := do
  strvClear l
  free l

/-- What a library reads of a vector from index `k` on. -/
def readFrom (l : ℕ) : (count k : ℕ) → HeapProgram Block (List (List UInt8))
  | 0, _ => fault .invalidAccess
  | count + 1, k => do
    let cell ← loadCell l k
    if cell = 0 then return []
    else do
      let string ← loadString cell
      let strings ← readFrom l count (k + 1)
      return string :: strings

def readStrv (l : ℕ) : HeapProgram Block (List (List UInt8)) := do
  let cells ← loadPointers l
  readFrom l (cells.length + 1) 0

/-! ### Vectors in a heap -/

/-- The strings at some addresses, all different. -/
structure HoldsStrings (heap : Heap Block) (cells : List ℕ) (strings : List (List UInt8)) :
    Prop where
  block : List.Forall₂ (fun cell string ↦ heap.block cell = some (.string string)) cells strings
  nodup : cells.Nodup

/-- A string vector. Behind its null pointer the array may go on. -/
structure HoldsStrv (heap : Heap Block) (l : ℕ) (cells : List ℕ) (strings : List (List UInt8)) :
    Prop extends HoldsStrings heap cells strings where
  array : ∃ slack, heap.block l = some (.pointers (cells ++ 0 :: slack))

section Blocks

variable {heap after : Heap Block} {l : ℕ} {cells : List ℕ} {strings : List (List UInt8)}

theorem lt_next {address : ℕ} {content : Block} (h : heap.block address = some content) :
    address < heap.next := by
  by_contra hle
  rw [heap.fresh address (not_lt.mp hle)] at h
  cases h

theorem HoldsStrings.valid (h : HoldsStrings heap cells strings) {cell : ℕ}
    (hcell : cell ∈ cells) : ∃ string, heap.block cell = some (.string string) := by
  obtain ⟨block, -⟩ := h
  induction block with
  | nil => cases hcell
  | cons hfirst _ ih =>
    rcases List.mem_cons.mp hcell with rfl | hcell
    · exact ⟨_, hfirst⟩
    · exact ih hcell

theorem HoldsStrings.cell_ne_zero (h : HoldsStrings heap cells strings) {cell : ℕ}
    (hcell : cell ∈ cells) : cell ≠ 0 := by
  obtain ⟨string, hstring⟩ := h.valid hcell
  rintro rfl
  rw [heap.null] at hstring
  cases hstring

/-- The strings stand where their blocks are the same. -/
theorem HoldsStrings.congr (h : HoldsStrings heap cells strings)
    (hsame : ∀ cell ∈ cells, after.block cell = heap.block cell) :
    HoldsStrings after cells strings where
  block := by
    obtain ⟨block, -⟩ := h
    induction block with
    | nil => exact .nil
    | cons hfirst _ ih =>
      obtain ⟨hhead, htail⟩ := List.forall_mem_cons.mp hsame
      exact .cons (hhead.trans hfirst) (ih htail)
  nodup := h.nodup

theorem HoldsStrings.ne_next (h : HoldsStrings heap cells strings) {cell : ℕ}
    (hcell : cell ∈ cells) : cell ≠ heap.next := by
  obtain ⟨string, hstring⟩ := h.valid hcell
  exact (lt_next hstring).ne

theorem HoldsStrings.insert (h : HoldsStrings heap cells strings) (content : Block) :
    HoldsStrings (heap.insert content) cells strings :=
  h.congr fun _ hcell ↦ heap.block_insert_of_ne (h.ne_next hcell)

/-- One more string, at the next address. -/
theorem HoldsStrings.concat (h : HoldsStrings heap cells strings) (string : List UInt8) :
    HoldsStrings (heap.insert (.string string)) (cells ++ [heap.next]) (strings ++ [string]) where
  block := List.rel_append (h.insert (.string string)).block
    (.cons (heap.block_insert_next (.string string)) .nil)
  nodup := by
    refine h.nodup.append (List.nodup_singleton _) fun cell hcell hlast ↦ ?_
    exact h.ne_next hcell (List.mem_singleton.mp hlast)

/-- The array of a vector is no string. -/
theorem HoldsStrv.array_notMem (h : HoldsStrv heap l cells strings) : l ∉ cells := by
  intro hmem
  obtain ⟨slack, harray⟩ := h.array
  obtain ⟨string, hstring⟩ := h.valid hmem
  rw [harray] at hstring
  cases hstring

theorem HoldsStrv.ne_zero (h : HoldsStrv heap l cells strings) : l ≠ 0 := by
  rintro rfl
  obtain ⟨slack, harray⟩ := h.array
  rw [heap.null] at harray
  cases harray

end Blocks

/-! ### Freeing -/

section Free

variable {heap : Heap Block} {l : ℕ} {cells : List ℕ} {strings : List (List UInt8)}

theorem loadPointers_eq (h : heap.block l = some (.pointers cells)) :
    loadPointers l heap = .ok (cells, heap) := by
  rw [loadPointers, bind_of_ok (load_of_valid h)]
  rfl

theorem loadString_eq {s : ℕ} {bytes : List UInt8} (h : heap.block s = some (.string bytes)) :
    loadString s heap = .ok (bytes, heap) := by
  rw [loadString, bind_of_ok (load_of_valid h)]
  rfl

theorem loadCell_append {before after : List ℕ} {cell : ℕ}
    (h : heap.block l = some (.pointers (before ++ cell :: after))) :
    loadCell l before.length heap = .ok (cell, heap) := by
  have hcell : (before ++ cell :: after)[before.length]? = some cell := by
    rw [List.getElem?_append_right le_rfl, Nat.sub_self, List.getElem?_cons_zero]
  rw [loadCell, bind_of_ok (loadPointers_eq h), hcell]
  rfl

theorem storeCell_eq {k value : ℕ} (h : heap.block l = some (.pointers cells))
    (hk : k < cells.length) :
    storeCell l k value heap = .ok ((), heap.replace l (.pointers (cells.set k value))
      (by rw [h]; exact Option.some_ne_none _)) := by
  have hvalid : heap.block l ≠ none := by
    rw [h]
    exact Option.some_ne_none _
  rw [storeCell, bind_of_ok (loadPointers_eq h), if_pos hk, store_of_valid hvalid]

theorem loadInts_eq {values : List ℤ} (h : heap.block l = some (.ints values)) :
    loadInts l heap = .ok (values, heap) := by
  rw [loadInts, bind_of_ok (load_of_valid h)]
  rfl

theorem readInts_eq {fds : List Int32} (h : heap.block l = some (.ints (fds.map Int32.toInt))) :
    readInts l fds.length heap = .ok (fds, heap) := by
  have hle : fds.length ≤ (fds.map Int32.toInt).length := by rw [List.length_map]
  have hsame : (fds.map Int32.toInt).map Int32.ofInt = fds := by
    rw [List.map_map]
    exact List.map_id'' Int32.ofInt_toInt fds
  rw [readInts, bind_of_ok (loadInts_eq h), if_pos hle, List.take_of_length_le (by simp), hsame]
  rfl

theorem storeInt_append {before after : List ℤ} {old : ℤ}
    (h : heap.block l = some (.ints (before ++ old :: after))) (value : ℤ) :
    ∃ hvalid, storeInt l before.length value heap =
      .ok ((), heap.replace l (.ints (before ++ value :: after)) hvalid) := by
  have hvalid : heap.block l ≠ none := by
    rw [h]
    exact Option.some_ne_none _
  have hlt : before.length < (before ++ old :: after).length := by
    rw [List.length_append, List.length_cons]
    omega
  have hset : (before ++ old :: after).set before.length value = before ++ value :: after := by
    rw [List.set_append_right _ _ le_rfl, Nat.sub_self, List.set_cons_zero]
  refine ⟨hvalid, ?_⟩
  rw [storeInt, bind_of_ok (loadInts_eq h), if_pos hlt, store_of_valid hvalid]
  simp only [hset]

theorem storeCell_append {before after : List ℕ} {cell : ℕ}
    (h : heap.block l = some (.pointers (before ++ cell :: after))) (value : ℕ) :
    ∃ hvalid, storeCell l before.length value heap =
      .ok ((), heap.replace l (.pointers (before ++ value :: after)) hvalid) := by
  have hvalid : heap.block l ≠ none := by
    rw [h]
    exact Option.some_ne_none _
  have hlt : before.length < (before ++ cell :: after).length := by
    rw [List.length_append, List.length_cons]
    omega
  have hset : (before ++ cell :: after).set before.length value = before ++ value :: after := by
    rw [List.set_append_right _ _ le_rfl, Nat.sub_self, List.set_cons_zero]
  refine ⟨hvalid, ?_⟩
  rw [storeCell_eq h hlt]
  simp only [hset]

/-- The loop frees the strings that are left and stops at the null pointer. -/
theorem clearFrom_eq {count : ℕ} (before slack : List ℕ)
    (harray : heap.block l = some (.pointers (before ++ cells ++ 0 :: slack)))
    (hcells : HoldsStrings heap cells strings) (hnot : l ∉ cells) (hcount : cells.length < count) :
    clearFrom l count before.length heap = .ok ((), heap.eraseAll cells) := by
  induction cells generalizing heap before count strings with
  | nil =>
    obtain ⟨count, rfl⟩ := Nat.exists_eq_add_one.mpr hcount
    rw [List.append_nil] at harray
    rw [clearFrom, bind_of_ok (loadCell_append harray), if_pos rfl, heap.eraseAll_nil]
    rfl
  | cons cell cells ih =>
    obtain ⟨count, rfl⟩ := Nat.exists_eq_add_one.mpr (Nat.zero_lt_of_lt hcount)
    obtain ⟨string, hstring⟩ := hcells.valid List.mem_cons_self
    have hne := hcells.cell_ne_zero List.mem_cons_self
    obtain ⟨hfirst, hrest⟩ := List.nodup_cons.mp hcells.nodup
    obtain ⟨hl, hnot⟩ := List.ne_and_not_mem_of_not_mem_cons hnot
    have hkept : ∀ address, address ≠ cell →
        (heap.eraseAll [cell]).block address = heap.block address := fun address hother ↦ by
      rw [heap.block_eraseAll, if_neg (by simpa using hother)]
    have harray' : (heap.eraseAll [cell]).block l =
        some (.pointers (before ++ [cell] ++ cells ++ 0 :: slack)) := by
      rw [hkept l hl, harray, List.append_assoc before [cell], List.singleton_append]
    have hloaded : heap.block l = some (.pointers (before ++ cell :: (cells ++ 0 :: slack))) := by
      rw [harray, List.append_assoc, List.cons_append]
    obtain ⟨tail, htail⟩ : ∃ tail, HoldsStrings (heap.eraseAll [cell]) cells tail := by
      cases hcells.block with
      | cons _ hblocks =>
        exact ⟨_, HoldsStrings.congr ⟨hblocks, hrest⟩ fun address hmem ↦
          hkept address fun heq ↦ hfirst (heq ▸ hmem)⟩
    have hloop := ih (before ++ [cell]) harray' htail hnot (Nat.lt_of_succ_lt_succ hcount)
    rw [List.length_append, List.length_singleton] at hloop
    rw [clearFrom, bind_of_ok (loadCell_append hloaded), if_neg hne,
      bind_of_ok (free_of_valid hstring), hloop, heap.eraseAll_eraseAll, List.singleton_append]

/-- Freeing a vector gives back its array and its strings. -/
theorem strvFree_of_holds (h : HoldsStrv heap l cells strings) :
    strvFree l heap = .ok ((), heap.eraseAll (cells ++ [l])) := by
  obtain ⟨slack, harray⟩ := h.array
  have hnot := h.array_notMem
  have hroom : cells.length < (cells ++ 0 :: slack).length + 1 := by
    rw [List.length_append]
    omega
  have hloop : clearFrom l _ 0 heap = _ := clearFrom_eq [] slack harray h.toHoldsStrings hnot hroom
  have harray' : (heap.eraseAll cells).block l = some (.pointers (cells ++ 0 :: slack)) := by
    rw [heap.block_eraseAll, if_neg hnot, harray]
  have hclear : strvClear l heap = .ok ((), (heap.eraseAll cells).replace l
      (.pointers ((cells ++ 0 :: slack).set 0 0))
        (by rw [harray']; exact Option.some_ne_none _)) := by
    rw [strvClear, if_neg h.ne_zero, bind_of_ok (loadPointers_eq harray), bind_of_ok hloop,
      storeCell_eq harray' (by rw [List.length_append, List.length_cons]; omega)]
  have hvalid : ((heap.eraseAll cells).replace l (.pointers ((cells ++ 0 :: slack).set 0 0))
      (by rw [harray']; exact Option.some_ne_none _)).block l =
        some (.pointers ((cells ++ 0 :: slack).set 0 0)) := if_pos rfl
  rw [strvFree, bind_of_ok hclear, free_of_valid hvalid,
    Heap.eraseAll_replace _ List.mem_cons_self, heap.eraseAll_eraseAll]

theorem strvFree_zero (heap : Heap Block) : strvFree 0 heap = .ok ((), heap) :=
  rfl

end Free

/-! ### Filling an array of numbers -/

/-- An array on top of the blocks of a heap that holds some numbers, with room for more. No
allocation has failed. -/
structure FillingInts (start : Heap Block) (l : ℕ) (values : List ℤ) (room : ℕ)
    (heap : Heap Block) : Prop where
  array : heap.block l = some (.ints (values ++ List.replicate room 0))
  owned : Extends start [l] heap
  succeeded : Succeeded start heap

theorem mapM_cons_of_error {ι ε α : Type} {convert : ι → Except ε α} {item : ι} {exception : ε}
    (h : convert item = .error exception) (items : List ι) :
    (item :: items).mapM convert = .error exception := by
  rw [List.mapM_cons, h]
  rfl

theorem mapM_cons_of_ok {ι ε α : Type} {convert : ι → Except ε α} {item : ι} {value : α}
    (h : convert item = .ok value) (items : List ι) :
    (item :: items).mapM convert = (items.mapM convert).map (value :: ·) := by
  rw [List.mapM_cons, h]
  cases items.mapM convert with
  | error exception => rfl
  | ok values => rfl

section FillingInts

variable {start heap : Heap Block} {l room : ℕ} {values : List ℤ}

theorem fillingInts_insert (hfails : ¬ start.fails start.next = true) (count : ℕ) :
    FillingInts start start.next [] count (start.insert (.ints (List.replicate count 0))) where
  array := start.block_insert_next _
  owned := (Extends.refl start).insert _
  succeeded := (Succeeded.refl start).insert hfails _

/-- One number is stored. -/
theorem FillingInts.store (h : FillingInts start l values (room + 1) heap) (value : ℤ) :
    ∃ after, storeInt l values.length value heap = .ok ((), after) ∧
      FillingInts start l (values ++ [value]) room after := by
  have harray := h.array
  rw [List.replicate_succ] at harray
  obtain ⟨hvalid, hstore⟩ := storeInt_append harray value
  refine ⟨_, hstore, ?_, h.owned.replace _ hvalid List.mem_cons_self, h.succeeded.replace⟩
  rw [List.append_assoc, List.singleton_append]
  exact if_pos rfl

/-- A loop that converts the items in turn and stores what they are converted to fills the array,
up to the first item that cannot be converted. -/
theorem FillingInts.loop {ι ε : Type} {convert : ι → Except ε Int32}
    {loop : List ι → ℕ → HeapProgram Block (Except ε Unit)}
    (hnil : ∀ i heap, loop [] i heap = .ok (.ok (), heap))
    (herror : ∀ {item items exception values heap}, convert item = .error exception →
      FillingInts start l values (items.length + 1) heap →
        ∃ after filled left, loop (item :: items) values.length heap =
          .ok (.error exception, after) ∧ FillingInts start l filled left after)
    (hok : ∀ {item items fd i heap after}, convert item = .ok fd →
      storeInt l i fd.toInt heap = .ok ((), after) →
        loop (item :: items) i heap = loop items (i + 1) after)
    {items : List ι} (h : FillingInts start l values items.length heap) :
    ∃ after filled left, loop items values.length heap =
        .ok ((items.mapM convert).map fun _ ↦ (), after) ∧
      FillingInts start l filled left after ∧
      ∀ fds, items.mapM convert = .ok fds →
        filled = values ++ fds.map Int32.toInt ∧ left = 0 ∧ fds.length = items.length := by
  induction items generalizing heap values with
  | nil =>
    refine ⟨heap, values, 0, hnil _ heap, h, fun fds hfds ↦ ?_⟩
    obtain rfl := Except.ok.inj hfds
    exact ⟨(List.append_nil values).symm, rfl, rfl⟩
  | cons item items ih =>
    cases hfd : convert item with
    | error exception =>
      obtain ⟨after, filled, left, hrun, hfilled⟩ := herror hfd h
      rw [mapM_cons_of_error hfd]
      exact ⟨after, filled, left, hrun, hfilled, fun fds hfds ↦ by cases hfds⟩
    | ok fd =>
      obtain ⟨next, hstore, hnext⟩ := h.store fd.toInt
      obtain ⟨after, filled, left, hrun, hfilled, hfds⟩ := ih hnext
      rw [List.length_append, List.length_singleton, ← hok hfd hstore] at hrun
      rw [mapM_cons_of_ok hfd]
      cases hrest : items.mapM convert with
      | error exception =>
        rw [hrest] at hrun
        exact ⟨after, filled, left, hrun, hfilled, fun fds hfds ↦ by cases hfds⟩
      | ok rest =>
        rw [hrest] at hrun
        obtain ⟨rfl, rfl, hlength⟩ := hfds rest hrest
        refine ⟨after, _, 0, hrun, hfilled, fun fds hall ↦ ?_⟩
        obtain rfl := Except.ok.inj hall
        exact ⟨List.append_assoc .., rfl, congrArg (· + 1) hlength⟩

/-- A filled array is read and freed, and then the heap is as it was. -/
theorem FillingInts.readInts (h : FillingInts start l values 0 heap) {fds : List Int32}
    (hfds : values = fds.map Int32.toInt) : Util.readInts l fds.length heap = .ok (fds, heap) := by
  refine readInts_eq ?_
  rw [h.array, hfds]
  exact congrArg (some ∘ Block.ints) (List.append_nil _)

theorem FillingInts.free (h : FillingInts start l values room heap) :
    ∃ after, Library.OwnedHeap.free l heap = .ok ((), after) ∧ after.block = start.block ∧
      Succeeded start after :=
  ⟨_, free_of_valid h.array, h.owned.block_eraseAll, h.succeeded.eraseAll _⟩

end FillingInts

/-! ### Vectors from a library -/

/-- A block that a library hands over. -/
def give (content : Block) : HeapProgram Block ℕ := fun heap ↦
  .ok (heap.next, heap.insert content)

def giveStrings : (strings : List (List UInt8)) → HeapProgram Block (List ℕ)
  | [] => return []
  | string :: strings => do
    let cell ← give (.string string)
    let cells ← giveStrings strings
    return cell :: cells

/-- A vector of strings, which the caller has to free. -/
def giveStrv (strings : List (List UInt8)) : HeapProgram Block ℕ := do
  let cells ← giveStrings strings
  give (.pointers (cells ++ [0]))

/-- What a function of the library that fills a pointer returns: a negative number, zero next to a
null pointer, or the number of items next to a block. -/
inductive ListReply (ν : Type)
  | failed (r : ℤ) (negative : r < 0)
  | empty
  | given (items : List ν)

/-- A call that hands over a vector of strings. -/
def ListReply.strings : ListReply (List UInt8) → HeapProgram Block (ℤ × ℕ)
  | .failed r _ => return (r, 0)
  | .empty => return (0, 0)
  | .given names => do
    let list ← giveStrv names
    return (names.length, list)

/-- A call that hands over an array of numbers. -/
def ListReply.numbers : ListReply ℤ → HeapProgram Block (ℤ × ℕ)
  | .failed r _ => return (r, 0)
  | .empty => return (0, 0)
  | .given values => do
    let list ← give (.ints values)
    return (values.length, list)

section Give

variable {start heap : Heap Block} {owned : List ℕ}

/-- The strings are given one behind the other, at addresses that were not valid. -/
theorem giveStrings_eq (h : Extends start owned heap) {cells : List ℕ}
    {given : List (List UInt8)} (hgiven : HoldsStrings heap cells given)
    (strings : List (List UInt8)) :
    ∃ new after, giveStrings strings heap = .ok (new, after) ∧
      Extends start (new.reverse ++ owned) after ∧
      HoldsStrings after (cells ++ new) (given ++ strings) := by
  induction strings generalizing heap owned cells given with
  | nil =>
    refine ⟨[], heap, rfl, h, ?_⟩
    rwa [List.append_nil, List.append_nil]
  | cons string strings ih =>
    obtain ⟨new, after, hrun, hextends, hholds⟩ := ih (h.insert (.string string))
      (hgiven.concat string)
    refine ⟨heap.next :: new, after, ?_, ?_, ?_⟩
    · have hgive : give (.string string) heap = .ok (heap.next, heap.insert (.string string)) := rfl
      rw [giveStrings, bind_of_ok hgive, bind_of_ok hrun]
      rfl
    · rwa [List.reverse_cons, List.append_assoc, List.singleton_append]
    · rwa [List.append_cons, List.append_cons given]

theorem giveStrv_eq (heap : Heap Block) (strings : List (List UInt8)) :
    ∃ l cells after, giveStrv strings heap = .ok (l, after) ∧ HoldsStrv after l cells strings ∧
      Extends heap (cells ++ [l]) after := by
  obtain ⟨cells, filled, hrun, hextends, hholds⟩ :=
    giveStrings_eq (Extends.refl heap) ⟨.nil, List.nodup_nil⟩ strings
  rw [List.append_nil] at hextends
  rw [List.nil_append, List.nil_append] at hholds
  have hinsert := hextends.insert (.pointers (cells ++ [0]))
  refine ⟨filled.next, cells, filled.insert (.pointers (cells ++ [0])), ?_,
    { hholds.insert _ with array := ⟨[], filled.block_insert_next _⟩ }, ?_⟩
  · rw [giveStrv, bind_of_ok hrun]
    rfl
  · refine hinsert.of_mem_iff fun address ↦ ?_
    rw [List.mem_append, List.mem_singleton, List.mem_cons, List.mem_reverse]
    exact or_comm

theorem ListReply.strings_given (heap : Heap Block) (names : List (List UInt8)) :
    ∃ l cells after,
      (ListReply.given names).strings heap = .ok ((↑names.length, l), after) ∧
      HoldsStrv after l cells names ∧ Extends heap (cells ++ [l]) after := by
  obtain ⟨l, cells, after, hgive, hholds, hextends⟩ := giveStrv_eq heap names
  refine ⟨l, cells, after, ?_, hholds, hextends⟩
  rw [ListReply.strings, bind_of_ok hgive]
  rfl

end Give

end PythonSystemd.Util
