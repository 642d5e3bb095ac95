import PythonSystemd.Id128.Calls
import PythonSystemd.Library.Simulation
import PythonSystemd.Util.Strv

/-!
# Lists of seats, sessions, machines and users

The functions of `login.c` that return lists. The library hands over a vector of strings, or an
array of numbers, which the function reads from its end into a Python list and frees however it
returns. An allocation of Python may fail, and a string may be no valid UTF-8.

`loginRun` says that any run of these functions is without a fault, returns what the library has
told in its order, and leaves the heap as it was.
-/

set_option autoImplicit false
set_option relaxedAutoImplicit false

namespace PythonSystemd.Login

open Id128 Library.OwnedHeap Library.Simulation Python Util

/-! ### login.c -/

/-- A list while it is filled; a slot may be unset. -/
abbrev PyList (ν : Type) := List (Option ν)

/-- The loop that fills the list from its end, with `r` slots to go. -/
def fillFrom {ν : Type} (item : ℕ → HeapProgram Block (Except PyException ν)) :
    (r : ℕ) → (ans : PyList ν) → HeapProgram Block (Except PyException (PyList ν))
  | 0, ans => return .ok ans
  | r + 1, ans => do
    match ← item r with
    | .error exception => return .error exception
    | .ok s => fillFrom item r (ans.set r (some s))

/-- What the functions do with a block that the library has filled. `allocated` is the outcome of
`PyList_New`. -/
def listOf {ν : Type} (item : ℕ → ℕ → HeapProgram Block (Except PyException ν)) (allocated : Bool)
    (r : ℤ) (list : ℕ) : HeapProgram Block (Except PyException (PyList ν)) :=
  if r < 0 then return .error (ioError r)
  else if allocated then fillFrom (item list) r.toNat (List.replicate r.toNat none)
  else return .error (.memoryError "")

/-- `unicode_FromString (list[r])`. -/
def nameItem (list r : ℕ) : HeapProgram Block (Except PyException Text) := do
  let cell ← loadCell list r
  let bytes ← loadString cell
  return unicodeFromString bytes

/-- `long_FromLong`. -/
def longFromLong (value : ℤ) : Except PyException ℤ :=
  .ok value

/-- `long_FromLong (list[r])`. -/
def uidItem (list r : ℕ) : HeapProgram Block (Except PyException ℤ) := do
  match ← load list with
  | .ints values =>
    match values[r]? with
    | some value => return longFromLong value
    | none => fault .invalidAccess
  | _ => fault .invalidAccess

/-- The body of `helper`, with the clean-up that runs at each of its returns. -/
def helper (reply : ListReply (List UInt8)) (allocated : Bool) :
    HeapProgram Block (Except PyException (PyList Text)) := do
  let (r, list) ← reply.strings
  let ans ← listOf nameItem allocated r list
  strvFree list
  return ans

def seats (reply : ListReply (List UInt8)) (allocated : Bool) :=
  helper reply allocated

def sessions (reply : ListReply (List UInt8)) (allocated : Bool) :=
  helper reply allocated

def machineNames (reply : ListReply (List UInt8)) (allocated : Bool) :=
  helper reply allocated

def uids (reply : ListReply ℤ) (allocated : Bool) :
    HeapProgram Block (Except PyException (PyList ℤ)) := do
  let (r, list) ← reply.numbers
  let ans ← listOf uidItem allocated r list
  free list
  return ans

/-! ### Filling a list -/

/-- What a list of items amounts to: the list, or the exception of the last item that has one. -/
def listed {ν : Type} (items : List (Except PyException ν)) : Except PyException (PyList ν) :=
  (items.reverse.mapM id).map fun values ↦ values.reverse.map some

/-- The list or the exception that is returned for a reply. -/
def listAnswer {ν μ : Type} (convert : ν → Except PyException μ) (reply : ListReply ν)
    (allocated : Bool) : Except PyException (PyList μ) :=
  match reply with
  | .failed r _ => .error (ioError r)
  | .empty => if allocated then .ok [] else .error (.memoryError "")
  | .given items => if allocated then listed (items.map convert) else .error (.memoryError "")

section Fill

variable {ν : Type} {item : ℕ → HeapProgram Block (Except PyException ν)} {heap : Heap Block}

theorem set_replicate (count : ℕ) (value : ν) (rest : PyList ν) :
    (List.replicate (count + 1) none ++ rest).set count (some value) =
      List.replicate count none ++ some value :: rest := by
  rw [List.replicate_succ', List.append_assoc, List.singleton_append,
    List.set_append_right _ _ (by rw [List.length_replicate]), List.length_replicate, Nat.sub_self,
    List.set_cons_zero]

/-- The induction is on the items in front of the slots that are set. -/
theorem fillFrom_append (items : List (Except PyException ν)) (rest : PyList ν)
    (h : ∀ i value, items[i]? = some value → item i heap = .ok (value, heap)) :
    fillFrom item items.length (List.replicate items.length none ++ rest) heap =
      .ok ((items.reverse.mapM id).map fun values ↦ values.reverse.map some ++ rest, heap) := by
  induction items using List.reverseRecOn generalizing rest with
  | nil => rfl
  | append_singleton items last ih =>
    have hlast : item items.length heap = .ok (last, heap) := by
      refine h _ _ ?_
      rw [List.getElem?_append_right le_rfl, Nat.sub_self, List.getElem?_cons_zero]
    have hfront : ∀ i value, items[i]? = some value → item i heap = .ok (value, heap) :=
      fun i value hvalue ↦ h i value
        ((List.getElem?_append_left (List.getElem?_eq_some_iff.mp hvalue).1).trans hvalue)
    rw [List.length_append, List.length_singleton, fillFrom, bind_of_ok hlast, List.reverse_append,
      List.reverse_singleton, List.singleton_append, List.mapM_cons]
    cases last with
    | error exception => rfl
    | ok value =>
      dsimp only
      rw [set_replicate, ih _ hfront]
      cases items.reverse.mapM id with
      | error exception => rfl
      | ok values =>
        have hvalues : values.reverse.map some ++ some value :: rest =
            (value :: values).reverse.map some ++ rest := by
          rw [List.reverse_cons, List.map_append, List.append_assoc]
          rfl
        exact congrArg (fun ans ↦ Except.ok (Except.ok ans, heap)) hvalues

theorem fillFrom_eq (items : List (Except PyException ν))
    (h : ∀ i value, items[i]? = some value → item i heap = .ok (value, heap)) :
    fillFrom item items.length (List.replicate items.length none) heap =
      .ok (listed items, heap) := by
  have hfill := fillFrom_append items [] h
  rw [List.append_nil] at hfill
  rw [hfill, listed]
  simp only [List.append_nil]

end Fill

/-! ### One call -/

section Calls

variable {heap : Heap Block}

theorem nameItem_eq {l : ℕ} {cells : List ℕ} {strings : List (List UInt8)}
    (h : HoldsStrv heap l cells strings) {i : ℕ} {value : Except PyException Text}
    (hvalue : (strings.map unicodeFromString)[i]? = some value) :
    nameItem l i heap = .ok (value, heap) := by
  obtain ⟨slack, harray⟩ := h.array
  rw [List.getElem?_map] at hvalue
  obtain ⟨bytes, hbytes, rfl⟩ := Option.map_eq_some_iff.mp hvalue
  obtain ⟨hi, rfl⟩ := List.getElem?_eq_some_iff.mp hbytes
  have hcells : i < cells.length := h.block.length_eq ▸ hi
  have hstring : heap.block cells[i] = some (.string strings[i]) := h.block.get hcells hi
  have hsplit : cells ++ 0 :: slack =
      cells.take i ++ cells[i] :: (cells.drop (i + 1) ++ 0 :: slack) := by
    rw [← List.cons_append, List.cons_getElem_drop_succ, ← List.append_assoc,
      List.take_append_drop]
  rw [hsplit] at harray
  have hcell := loadCell_append harray
  rw [List.length_take_of_le hcells.le] at hcell
  rw [nameItem, bind_of_ok hcell, bind_of_ok (loadString_eq hstring)]
  rfl

theorem uidItem_eq {list : ℕ} {values : List ℤ} (h : heap.block list = some (.ints values)) {i : ℕ}
    {value : Except PyException ℤ}
    (hvalue : (values.map longFromLong)[i]? = some value) :
    uidItem list i heap = .ok (value, heap) := by
  rw [List.getElem?_map] at hvalue
  obtain ⟨number, hnumber, rfl⟩ := Option.map_eq_some_iff.mp hvalue
  rw [uidItem, bind_of_ok (load_of_valid h)]
  dsimp only
  rw [hnumber]
  rfl

/-- Where the items can be read the list is filled with them. -/
theorem listOf_eq {ν : Type} {item : ℕ → ℕ → HeapProgram Block (Except PyException ν)}
    {list : ℕ} (items : List (Except PyException ν)) (allocated : Bool)
    (h : ∀ i value, items[i]? = some value → item list i heap = .ok (value, heap)) :
    listOf item allocated items.length list heap =
      .ok (if allocated then listed items else .error (.memoryError ""), heap) := by
  have hnonneg : ¬ (items.length : ℤ) < 0 := by omega
  rw [listOf, if_neg hnonneg]
  cases allocated with
  | false => rfl
  | true => exact fillFrom_eq items h

/-- The function returns what the reply amounts to and leaves the heap as it was. -/
theorem helper_eq (reply : ListReply (List UInt8)) (allocated : Bool) (heap : Heap Block) :
    ∃ after, helper reply allocated heap =
        .ok (listAnswer unicodeFromString reply allocated, after) ∧ after.block = heap.block := by
  cases reply with
  | failed r negative =>
    have hlist : listOf nameItem allocated r 0 heap = .ok (.error (ioError r), heap) := by
      rw [listOf, if_pos negative]
      rfl
    refine ⟨heap, ?_, rfl⟩
    rw [helper, ListReply.strings, bind_of_ok (pure_apply _ _)]
    dsimp only
    rw [bind_of_ok hlist, bind_of_ok (strvFree_zero heap)]
    rfl
  | empty =>
    refine ⟨heap, ?_, rfl⟩
    cases allocated with
    | false => rfl
    | true => rfl
  | given names =>
    obtain ⟨l, cells, filled, hreply, hholds, hextends⟩ := ListReply.strings_given heap names
    have hlist := listOf_eq (names.map unicodeFromString) allocated
      (fun i value hvalue ↦ nameItem_eq hholds hvalue)
    rw [List.length_map] at hlist
    refine ⟨filled.eraseAll (cells ++ [l]), ?_, hextends.block_eraseAll⟩
    rw [helper, bind_of_ok hreply]
    dsimp only
    rw [bind_of_ok hlist, bind_of_ok (strvFree_of_holds hholds)]
    rfl

theorem uids_eq (reply : ListReply ℤ) (allocated : Bool) (heap : Heap Block) :
    ∃ after, uids reply allocated heap =
        .ok (listAnswer longFromLong reply allocated, after) ∧ after.block = heap.block := by
  cases reply with
  | failed r negative =>
    have hlist : listOf uidItem allocated r 0 heap = .ok (.error (ioError r), heap) := by
      rw [listOf, if_pos negative]
      rfl
    refine ⟨heap, ?_, rfl⟩
    rw [uids, ListReply.numbers, bind_of_ok (pure_apply _ _)]
    dsimp only
    rw [bind_of_ok hlist, bind_of_ok (free_zero heap)]
    rfl
  | empty =>
    refine ⟨heap, ?_, rfl⟩
    cases allocated with
    | false => rfl
    | true => rfl
  | given values =>
    have hblock := heap.block_insert_next (.ints values)
    have hlist := listOf_eq (values.map longFromLong) allocated
      (fun i value hvalue ↦ uidItem_eq hblock hvalue)
    rw [List.length_map] at hlist
    have hgive : give (.ints values) heap = .ok (heap.next, heap.insert (.ints values)) := rfl
    have hreply : (ListReply.given values).numbers heap =
        .ok ((↑values.length, heap.next), heap.insert (.ints values)) := by
      rw [ListReply.numbers, bind_of_ok hgive]
      rfl
    refine ⟨(heap.insert (.ints values)).eraseAll [heap.next], ?_,
      ((Extends.refl heap).insert _).block_eraseAll⟩
    rw [uids, bind_of_ok hreply]
    dsimp only
    rw [bind_of_ok hlist, bind_of_ok (free_of_valid hblock)]
    rfl

end Calls

/-! ### Runs -/

/-- A call of a function of the module, with the reply of the library and the outcome of the
allocation. -/
inductive LoginCall
  | seats (reply : ListReply (List UInt8)) (allocated : Bool)
  | sessions (reply : ListReply (List UInt8)) (allocated : Bool)
  | machineNames (reply : ListReply (List UInt8)) (allocated : Bool)
  | uids (reply : ListReply ℤ) (allocated : Bool)

inductive LoginAnswer
  | names (ans : Except PyException (PyList Text))
  | numbers (ans : Except PyException (PyList ℤ))

def LoginCall.run : Machine LoginCall (Heap Block) LoginAnswer HeapFault
  | .seats reply allocated, heap =>
    (Login.seats reply allocated heap).map fun result ↦ (.names result.1, result.2)
  | .sessions reply allocated, heap =>
    (Login.sessions reply allocated heap).map fun result ↦ (.names result.1, result.2)
  | .machineNames reply allocated, heap =>
    (Login.machineNames reply allocated heap).map fun result ↦ (.names result.1, result.2)
  | .uids reply allocated, heap =>
    (Login.uids reply allocated heap).map fun result ↦ (.numbers result.1, result.2)

/-- What the reply to a call amounts to. -/
def LoginCall.answer : LoginCall → LoginAnswer
  | .seats reply allocated => .names (listAnswer unicodeFromString reply allocated)
  | .sessions reply allocated => .names (listAnswer unicodeFromString reply allocated)
  | .machineNames reply allocated => .names (listAnswer unicodeFromString reply allocated)
  | .uids reply allocated => .numbers (listAnswer longFromLong reply allocated)

/-- The functions keep nothing between their calls. -/
def loginModel : Model LoginCall Unit LoginAnswer where
  move _ _ := ()
  answer call _ := call.answer

theorem simulates_login (start : Heap Block) :
    Simulates LoginCall.run loginModel (fun _ ↦ True) fun _ heap ↦ heap.block = start.block := by
  rintro call ⟨⟩ heap - hheap
  have hnames : ∀ reply allocated, ∃ next,
      (helper reply allocated heap).map (fun result ↦ (LoginAnswer.names result.1, result.2)) =
        .ok (.names (listAnswer unicodeFromString reply allocated), next) ∧
        next.block = start.block := by
    intro reply allocated
    obtain ⟨after, hrun, hsame⟩ := helper_eq reply allocated heap
    refine ⟨after, ?_, hsame.trans hheap⟩
    rw [hrun]
    rfl
  cases call with
  | seats reply allocated => exact hnames reply allocated
  | sessions reply allocated => exact hnames reply allocated
  | machineNames reply allocated => exact hnames reply allocated
  | uids reply allocated =>
    obtain ⟨after, hrun, hsame⟩ := uids_eq reply allocated heap
    refine ⟨after, ?_, hsame.trans hheap⟩
    rw [LoginCall.run, hrun]
    rfl

/-- Any run of the functions is without a fault: nothing is freed twice or used after it was freed.
Every call returns what its reply amounts to, and at the end nothing is left on the heap that was
not there before, whichever calls have raised. -/
theorem loginRun (calls : List LoginCall) (heap : Heap Block) :
    ∃ after, runCalls LoginCall.run calls heap = .ok (calls.map LoginCall.answer, after) ∧
      after.block = heap.block := by
  have hanswers : ∀ calls, loginModel.answers calls () = calls.map LoginCall.answer := by
    intro calls
    induction calls with
    | nil => rfl
    | cons call calls ih =>
      rw [List.map_cons, ← ih]
      rfl
  rw [← hanswers]
  exact (simulates_login heap).runCalls (fun _ _ ↦ trivial) rfl

end PythonSystemd.Login
