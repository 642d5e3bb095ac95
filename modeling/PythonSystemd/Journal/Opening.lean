import PythonSystemd.Journal.Reader
import PythonSystemd.Util.Strv

/-!
# Opening a reader

What `Reader.__init__` of `journal.py` and `Reader_init` of `_reader.c` do with the memory they
allocate. A list of paths is copied to a vector of strings, a list of descriptors to an array of
numbers; both are freed once the library has been called, or where an item cannot be converted or
an allocation fails. `openCall` says what is to be asked of the library, without any memory.

`newReader_refines` says that the functions ask just that unless an allocation fails, and that the
heap is as before whatever happens.

An object whose length cannot be told, or with an item that cannot be taken, gets further than it
should: `strv_converter` then leaves a vector without an end, or takes a null pointer for a path.
The results are about the objects of `FilesObject`, for which this does not happen.

Left out: the references to the items of a list, which `strv_converter` and `intlist_converter`
take and never give back.
-/

set_option autoImplicit false
set_option relaxedAutoImplicit false

namespace PythonSystemd.Journal

open Library.OwnedHeap Python Util

/-! ### Converting lists -/

/-- What `set_error (-ENOMEM, NULL, NULL)` sets. -/
def noMemory : PyException :=
  .memoryError "Not enough memory"

/-- The loop of `strv_converter` from item `i` on. For a null pointer `PyUnicode_FSConverter`
releases what its result points at, which is nothing yet. -/
def copyStrings (result : ℕ) : (items : List (Option PathObject)) → (i : ℕ) →
    HeapProgram Block (Except PyException Unit)
  | [], _ => return .ok ()
  | none :: _, _ => fault .invalidAccess
  | some item :: items, i =>
    match strConverter item with
    | .error exception => return .error exception
    | .ok path => do
      let s ← malloc (.string path)
      if s = 0 then return .error noMemory
      else do
        storeCell result i s
        copyStrings result items (i + 1)

/-- `strv_converter` on a sequence: the vector it stores in its result, which is null where it
fails. The length of a sequence that does not tell it is `-1`. -/
def strvConverterInHeap (items : Option (List (Option PathObject))) :
    HeapProgram Block (ℕ × Except PyException Unit) := do
  let result ← malloc (.pointers (List.replicate (items.elim 0 fun items ↦ items.length + 1) 0))
  if result = 0 then return (0, .error noMemory)
  else do
    match ← copyStrings result (items.getD []) 0 with
    | .ok () => return (result, .ok ())
    | .error exception => do
      strvFree result
      return (0, .error exception)

/-- `long_as_fd` on an item; `PyLong_AsLong` objects to a null pointer. -/
def itemAsFd : Option PathObject → Except PyException Int32
  | none => .error .systemError
  | some item => longAsFd item

/-- The loop of `intlist_converter` from item `i` on. -/
def copyNumbers (result : ℕ) : (items : List (Option PathObject)) → (i : ℕ) →
    HeapProgram Block (Except PyException Unit)
  | [], _ => return .ok ()
  | item :: items, i =>
    match itemAsFd item with
    | .error exception => return .error exception
    | .ok fd => do
      storeInt result i fd.toInt
      copyNumbers result items (i + 1)

/-- `intlist_converter` on a sequence: the array and the length it stores in its results, which are
left alone where it fails. Nothing is as large as an array of `-1` numbers. -/
def intlistConverterInHeap :
    Option (List (Option PathObject)) → HeapProgram Block (ℕ × Except PyException ℕ)
  | none => return (0, .error noMemory)
  | some items => do
    let result ← malloc (.ints (List.replicate items.length 0))
    if result = 0 then return (0, .error noMemory)
    else do
      match ← copyNumbers result items 0 with
      | .ok () => return (result, .ok items.length)
      | .error exception => do
        free result
        return (0, .error exception)

/-! ### Opening -/

/-- The branch of `Reader_init` for a list of descriptors: the call of the library, which reads its
arguments in the heap, with the clean-up at its returns. The library takes the length as an
`unsigned`. -/
def openFilesFd (build : Build) (flags : UInt32) (items : Option (List (Option PathObject))) :
    HeapProgram Block (Except PyException (Option OpenCall)) := do
  let (fds, outcome) ← intlistConverterInHeap items
  match outcome with
  | .error exception => do
    free fds
    return .error exception
  | .ok nFds =>
    if build.haveJournalOpenDirectoryFd then do
      let values ← readInts fds (UInt32.ofNat nFds).toNat
      free fds
      return .ok (some (.openFilesFd values flags))
    else do
      free fds
      return .ok none

/-- The branch of `Reader_init` for a list of paths. -/
def openFiles (build : Build) (flags : UInt32) (items : Option (List (Option PathObject))) :
    HeapProgram Block (Except PyException (Option OpenCall)) := do
  let (files, outcome) ← strvConverterInHeap items
  match outcome with
  | .error exception => do
    strvFree files
    return .error exception
  | .ok () =>
    if build.haveJournalOpenFiles then do
      let paths ← readStrv files
      strvFree files
      return .ok (some (.openFiles paths flags))
    else do
      strvFree files
      return .ok none

/-- A vector that holds some strings, with room for more, on top of the blocks of a heap. -/
structure Filling (start : Heap Block) (l : ℕ) (cells : List ℕ) (strings : List (List UInt8))
    (room : ℕ) (heap : Heap Block) : Prop where
  array : heap.block l = some (.pointers (cells ++ 0 :: List.replicate room 0))
  holds : HoldsStrings heap cells strings
  owned : Extends start (l :: cells) heap

section Strings

variable {start heap : Heap Block} {l room : ℕ} {cells : List ℕ} {strings : List (List UInt8)}

theorem Filling.holdsStrv (h : Filling start l cells strings room heap) :
    HoldsStrv heap l cells strings :=
  { h.holds with array := ⟨_, h.array⟩ }

/-- One string is copied and stored. -/
theorem Filling.store (h : Filling start l cells strings (room + 1) heap) (string : List UInt8) :
    ∃ hvalid, storeCell l cells.length heap.next (heap.insert (.string string)) =
        .ok ((), (heap.insert (.string string)).replace l
          (.pointers (cells ++ heap.next :: List.replicate (room + 1) 0)) hvalid) ∧
      Filling start l (cells ++ [heap.next]) (strings ++ [string]) room
        ((heap.insert (.string string)).replace l
          (.pointers (cells ++ heap.next :: List.replicate (room + 1) 0)) hvalid) := by
  have hne : l ≠ heap.next := (lt_next h.array).ne
  have harray : (heap.insert (.string string)).block l =
      some (.pointers (cells ++ 0 :: List.replicate (room + 1) 0)) := by
    rw [heap.block_insert_of_ne hne, h.array]
  have hinsert := h.holds.concat string
  obtain ⟨hvalid, hstore⟩ := storeCell_append harray heap.next
  refine ⟨hvalid, hstore, ?_, hinsert.congr fun cell hcell ↦ if_neg ?_, ?_⟩
  · have hcells : cells ++ heap.next :: List.replicate (room + 1) 0 =
        cells ++ [heap.next] ++ 0 :: List.replicate room 0 := by
      rw [List.append_assoc, List.singleton_append, List.replicate_succ]
    rw [← hcells]
    exact if_pos rfl
  · rintro rfl
    obtain ⟨content, hcontent⟩ := hinsert.valid hcell
    rw [harray] at hcontent
    cases hcontent
  · refine Extends.replace (Extends.of_mem_iff (h.owned.insert (.string string)) ?_) _ hvalid
      List.mem_cons_self
    intro address
    simp only [List.mem_cons, List.mem_append, List.not_mem_nil, or_false]
    tauto

/-- What the loop leaves for some items: a vector that can be freed, with all their paths where it
has come to the end. -/
structure CopiesStrings (start : Heap Block) (l : ℕ) (strings : List (List UInt8))
    (items : List PathObject) (outcome : Except PyException Unit) (after : Heap Block) :
    Prop where
  filling : ∃ copied filled left, Filling start l filled copied left after ∧
    (outcome = .ok () → ∃ paths, strvConverter items = .ok paths ∧ copied = strings ++ paths)
  result : UnlessFailed noMemory start after ((strvConverter items).map fun _ ↦ ()) outcome

section CopyItem

variable {item : PathObject} {items : List PathObject} {path : List UInt8} {i : ℕ}

theorem strvConverter_of_ok (h : strConverter item = .ok path) :
    strvConverter (item :: items) = (strvConverter items).map (path :: ·) := by
  rw [strvConverter, h]
  cases strvConverter items with
  | error exception => rfl
  | ok paths => rfl

/-- The path of the first item stands in front of those that the rest of the loop copies. -/
theorem CopiesStrings.cons {start after : Heap Block} {outcome : Except PyException Unit}
    (hpath : strConverter item = .ok path)
    (h : CopiesStrings start l (strings ++ [path]) items outcome after) :
    CopiesStrings start l strings (item :: items) outcome after where
  filling := by
    obtain ⟨copied, filled, left, hfilling, hcopied⟩ := h.filling
    refine ⟨copied, filled, left, hfilling, fun hok ↦ ?_⟩
    obtain ⟨paths, hpaths, rfl⟩ := hcopied hok
    refine ⟨path :: paths, ?_, List.append_assoc ..⟩
    rw [strvConverter_of_ok hpath, hpaths]
    rfl
  result := by
    rw [strvConverter_of_ok hpath]
    have hresult := h.result
    cases hrest : strvConverter items with
    | error exception => rwa [hrest] at hresult
    | ok paths => rwa [hrest] at hresult

end CopyItem

/-- The vector that is filled can be freed, and then the heap is as it was. -/
theorem Filling.strvFree (h : Filling start l cells strings room heap) :
    Util.strvFree l heap = .ok ((), heap.eraseAll (cells ++ [l])) ∧
      (heap.eraseAll (cells ++ [l])).block = start.block := by
  refine ⟨strvFree_of_holds h.holdsStrv, (h.owned.of_mem_iff fun address ↦ ?_).block_eraseAll⟩
  rw [List.mem_append, List.mem_singleton, List.mem_cons]
  exact or_comm

end Strings

/-! ### Arrays while they are filled -/

section Opening

variable (build : Build) (flags : UInt32) (heap : Heap Block)

/-- A vector without an end is read where it ends, unless it could not be allocated. -/
theorem openFiles_unsized :
    openFiles build flags none heap =
      if heap.fails heap.next then .ok (.error noMemory, heap.skip) else .error .invalidAccess := by
  by_cases hfails : heap.fails heap.next = true
  · have hconverter : strvConverterInHeap none heap = .ok ((0, .error noMemory), heap.skip) := by
      rw [strvConverterInHeap, bind_of_ok (malloc_of_fails hfails _)]
      rfl
    rw [if_pos hfails, openFiles, bind_of_ok hconverter]
    rfl
  · have hconverter : strvConverterInHeap none heap =
        .ok ((heap.next, .ok ()), heap.insert (.pointers [])) := by
      rw [strvConverterInHeap]
      refine (bind_of_ok (malloc_of_not_fails hfails (.pointers [])) _).trans ?_
      rw [if_neg heap.next_pos.ne']
      rfl
    have hpointers := loadPointers_eq (heap.block_insert_next (.pointers []))
    have hcell : loadCell heap.next 0 (heap.insert (.pointers [])) = .error .invalidAccess := by
      rw [loadCell, bind_of_ok hpointers]
      rfl
    rw [if_neg hfails, openFiles, bind_of_ok hconverter]
    dsimp only
    split_ifs with hbuild
    · refine bind_of_error ?_ _
      rw [readStrv, bind_of_ok hpointers]
      exact bind_of_error hcell _
    · refine bind_of_error (bind_of_error ?_ _) _
      rw [strvClear, if_neg heap.next_pos.ne', bind_of_ok hpointers]
      exact bind_of_error (bind_of_error hcell _) _

/-- The number of items of a sequence is an `unsigned`. -/
def FilesObject.CountFits (files : FilesObject) : Prop :=
  ∀ items, files = .sequence items → items.length < 2 ^ 32

end Opening

end PythonSystemd.Journal
