import PythonSystemd.Journal.Send
import PythonSystemd.Util.Strv

/-!
# The objects behind a vector of lines

`journal_sendv` of `_journal.c` with its memory. The library is handed a vector of addresses and
lengths, which point into the bytes objects of the arguments and into objects that were encoded for
the call. These are released at `out`, wherever the function comes from, and an allocation of one of
them may fail.

`journalSendvInHeap_eq` says that the objects are alive when the library reads them and hold the
lines, that those encoded are released once, and that `journalSendv`, which ignores memory, is what
comes of the call.
-/

set_option autoImplicit false
set_option relaxedAutoImplicit false

namespace PythonSystemd.Journal

open Library.OwnedHeap Python Util

/-! ### journal_sendv -/

/-- An element of the tuple: a string, a bytes object at its address, or an object of another
type. -/
inductive SendvItem
  | text (value : Text)
  | bytes (address : ℕ)
  | other (typeName : String)

/-- `struct iovec`. -/
structure Iovec where
  base : ℕ
  len : ℕ

/-- The two arrays on the stack. `encoded` is zeroed; an entry of `iov` may be unset. -/
structure SendvStack where
  encoded : List ℕ
  iov : List (Option Iovec)

/-- A heap of bytes objects. -/
abbrev BytesHeap := Heap (List UInt8)

/-- `PyUnicode_AsEncodedString` with a new object for the encoded string. -/
def asEncodedString (value : Text) : HeapProgram (List UInt8) (Except PyException ℕ) :=
  match encodeStrict value with
  | .error exception => return .error exception
  | .ok bytes => do
    let address ← malloc bytes
    if address = 0 then return .error (.memoryError "") else return .ok address

/-- `PyBytes_AsStringAndSize` of a bytes object. -/
def bytesAsStringAndSize (address : ℕ) : HeapProgram (List UInt8) Iovec := do
  let content ← load address
  return { base := address, len := content.length }

/-- What `PyBytes_AsStringAndSize` raises for an object of another type. -/
def expectedBytes (typeName : String) : PyException :=
  .typeError ("expected bytes, " ++ typeName ++ " found")

/-- The loop that fills the vector, from the element `i` on. -/
def fillVector : (args : List SendvItem) → (i : ℕ) → (stack : SendvStack) →
    HeapProgram (List UInt8) (Except PyException Unit × SendvStack)
  | [], _, stack => return (.ok (), stack)
  | .text value :: args, i, stack => do
    match ← asEncodedString value with
    | .error exception => return (.error exception, stack)
    | .ok address => do
      let iovec ← bytesAsStringAndSize address
      fillVector args (i + 1)
        { encoded := stack.encoded.set i address, iov := stack.iov.set i (some iovec) }
  | .bytes address :: args, i, stack => do
    let iovec ← bytesAsStringAndSize address
    fillVector args (i + 1) { stack with iov := stack.iov.set i (some iovec) }
  | .other typeName :: _, _, stack => return (.error (expectedBytes typeName), stack)

/-- What the library reads: no unset entry, and nothing behind the end of an object. -/
def readVector : List (Option Iovec) → HeapProgram (List UInt8) (List (List UInt8))
  | [] => return []
  | none :: _ => fault .invalidAccess
  | some iovec :: iov => do
    let content ← load iovec.base
    if content.length < iovec.len then fault .invalidAccess
    else do
      let lines ← readVector iov
      return content.take iovec.len :: lines

/-- `journal_sendv`, for the result of `sd_journal_sendv`. The number of arguments fits in `argc`,
an `int`, and the two arrays fit on the stack. -/
def journalSendvInHeap (args : List SendvItem) (sendv : List (List UInt8) → ℤ) :
    HeapProgram (List UInt8) SendOutcome := do
  let (filled, stack) ← fillVector args 0
    { encoded := List.replicate args.length 0, iov := List.replicate args.length none }
  match filled with
  | .error exception => do
    freeAll stack.encoded
    return { handed := none, result := .error exception }
  | .ok () => do
    let lines ← readVector stack.iov
    freeAll stack.encoded
    return {
      handed := some lines
      result := if sendv lines < 0 then .error (.osError (-sendv lines) none) else .ok () }

/-! ### What the arguments say -/

/-- The line of an element, for the bytes objects of a heap. -/
def SendvItem.line (heap : BytesHeap) : SendvItem → Except PyException (List UInt8)
  | .text value => encodeStrict value
  | .bytes address => .ok ((heap.block address).getD [])
  | .other typeName => .error (expectedBytes typeName)

/-- What comes of the lines, or of the exception of the first element that has none. -/
def sendvOutcome (sendv : List (List UInt8) → ℤ) :
    Except PyException (List (List UInt8)) → SendOutcome
  | .error exception => { handed := none, result := .error exception }
  | .ok lines =>
    { handed := some lines
      result := if sendv lines < 0 then .error (.osError (-sendv lines) none) else .ok () }

/-- The elements as arguments of `journalSendv`. -/
inductive SendvItem.Is (heap : BytesHeap) : SendvItem → Item → Prop
  | text (value : Text) : Is heap (.text value) (.text value)
  | bytes {address : ℕ} {content : List UInt8} (h : heap.block address = some content) :
    Is heap (.bytes address) (.bytes content)

theorem SendvItem.Is.line_eq {heap : BytesHeap} {object : SendvItem} {item : Item}
    (h : object.Is heap item) : object.line heap = encodeItem item := by
  cases h with
  | text value => rfl
  | bytes h =>
    rw [SendvItem.line, h]
    rfl

theorem mapM_line_eq {heap : BytesHeap} {args : List SendvItem} {items : List Item}
    (h : List.Forall₂ (SendvItem.Is heap) args items) :
    args.mapM (SendvItem.line heap) = fillIov items := by
  induction h with
  | nil => rfl
  | cons hitem _ ih =>
    rw [List.mapM_cons, hitem.line_eq, ih]
    rfl

/-- The outcome is that of the function that ignores memory. -/
theorem sendvOutcome_eq {heap : BytesHeap} {args : List SendvItem} {items : List Item}
    (h : List.Forall₂ (SendvItem.Is heap) args items) (sendv : List (List UInt8) → ℤ) :
    sendvOutcome sendv (args.mapM (SendvItem.line heap)) = journalSendv items sendv := by
  rw [mapM_line_eq h, journalSendv]
  cases fillIov items with
  | error exception => rfl
  | ok lines => rfl

/-! ### The vector while it is filled -/

/-- The entries point at live objects that hold some lines. -/
def PointsAt (heap : BytesHeap) : List Iovec → List (List UInt8) → Prop :=
  List.Forall₂ fun iovec line ↦ heap.block iovec.base = some line ∧ iovec.len = line.length

/-- Some objects on top of the blocks of a heap, with null addresses in between. -/
structure Encoded (start : BytesHeap) (addresses : List ℕ) (heap : BytesHeap) : Prop where
  owned : Extends start (nonnull addresses) heap
  alive : ∀ address ∈ nonnull addresses, heap.block address ≠ none
  nodup : (nonnull addresses).Nodup

section Fill

variable {start heap : BytesHeap} {addresses : List ℕ} {iovecs : List Iovec}
  {lines : List (List UInt8)}

theorem nonnull_append_zeros (addresses : List ℕ) (count : ℕ) :
    nonnull (addresses ++ List.replicate count 0) = nonnull addresses := by
  rw [nonnull_append, nonnull_replicate, List.append_nil]

theorem Encoded.nil (start : BytesHeap) : Encoded start [] start :=
  ⟨Extends.refl start, fun _ h ↦ absurd h List.not_mem_nil, List.nodup_nil⟩

theorem Encoded.zeros (h : Encoded start addresses heap) (count : ℕ) :
    Encoded start (addresses ++ List.replicate count 0) heap := by
  have hsame := nonnull_append_zeros addresses count
  exact ⟨hsame ▸ h.owned, hsame ▸ h.alive, hsame ▸ h.nodup⟩

/-- A new object is at an address of its own. -/
theorem Encoded.concat (h : Encoded start addresses heap) (content : List UInt8) :
    Encoded start (addresses ++ [heap.next]) (heap.insert content) := by
  have hnot : heap.next ∉ nonnull addresses := fun hmem ↦
    h.alive heap.next hmem (heap.fresh heap.next le_rfl)
  have hsame : nonnull (addresses ++ [heap.next]) = nonnull addresses ++ [heap.next] := by
    rw [nonnull_append, nonnull_cons heap.next_pos.ne']
    rfl
  refine ⟨?_, fun address hmem ↦ ?_, ?_⟩
  · rw [hsame]
    refine (h.owned.insert content).of_mem_iff fun address ↦ ?_
    rw [List.mem_append, List.mem_singleton, List.mem_cons]
    exact or_comm
  · rw [hsame] at hmem
    rcases List.mem_append.mp hmem with hmem | hmem
    · rw [heap.block_insert_of_ne fun heq ↦ hnot (heq ▸ hmem)]
      exact h.alive address hmem
    · rw [List.mem_singleton.mp hmem, heap.block_insert_next]
      exact Option.some_ne_none _
  · rw [hsame, ← List.concat_eq_append]
    exact h.nodup.concat hnot

/-- The objects are released, and then the heap is as it was. -/
theorem Encoded.freeAll (h : Encoded start addresses heap) :
    freeAll addresses heap = .ok ((), heap.eraseAll (nonnull addresses)) ∧
      (heap.eraseAll (nonnull addresses)).block = start.block :=
  ⟨freeAll_of_valid h.alive h.nodup, h.owned.block_eraseAll⟩

/-- What is alive is not overwritten by a new object. -/
theorem PointsAt.insert (h : PointsAt heap iovecs lines) (content : List UInt8) :
    PointsAt (heap.insert content) iovecs lines := by
  refine List.Forall₂.imp (fun iovec line hline ↦ ⟨?_, hline.2⟩) h
  rw [heap.block_insert_of_ne, hline.1]
  intro heq
  rw [heq, heap.fresh _ le_rfl] at hline
  cases hline.1

theorem PointsAt.concat (h : PointsAt heap iovecs lines) {address : ℕ} {line : List UInt8}
    (hblock : heap.block address = some line) :
    PointsAt heap (iovecs ++ [{ base := address, len := line.length }]) (lines ++ [line]) :=
  List.rel_append h (.cons ⟨hblock, rfl⟩ .nil)

/-- The library reads the lines. -/
theorem readVector_eq (h : PointsAt heap iovecs lines) :
    readVector (iovecs.map some) heap = .ok (lines, heap) := by
  induction h with
  | nil => rfl
  | @cons iovec line iovecs lines hline _ ih =>
    obtain ⟨hblock, hlen⟩ := hline
    rw [List.map_cons, readVector, bind_of_ok (load_of_valid hblock), hlen,
      if_neg (lt_irrefl _), bind_of_ok ih, List.take_length]
    rfl

theorem bytesAsStringAndSize_eq {address : ℕ} {line : List UInt8}
    (hblock : heap.block address = some line) :
    bytesAsStringAndSize address heap = .ok ({ base := address, len := line.length }, heap) := by
  rw [bytesAsStringAndSize, bind_of_ok (load_of_valid hblock)]
  rfl

theorem set_append_replicate {α : Type} (values : List α) (value unset : α) (count : ℕ) :
    (values ++ List.replicate (count + 1) unset).set values.length value =
      (values ++ [value]) ++ List.replicate count unset := by
  rw [List.set_append_right _ _ le_rfl, Nat.sub_self, List.replicate_succ, List.set_cons_zero,
    List.append_assoc, List.singleton_append]

/-- The arrays after some elements, with room for more. -/
def stackOf (addresses : List ℕ) (iovecs : List Iovec) (room : ℕ) : SendvStack where
  encoded := addresses ++ List.replicate room 0
  iov := iovecs.map some ++ List.replicate room none

/-- The vector has been filled with some lines, and no allocation has failed. -/
structure FillingVector (start : BytesHeap) (addresses : List ℕ) (iovecs : List Iovec)
    (lines : List (List UInt8)) (heap : BytesHeap) : Prop where
  encoded : Encoded start addresses heap
  points : PointsAt heap iovecs lines
  length_eq : addresses.length = iovecs.length
  succeeded : Succeeded start heap

namespace FillingVector

theorem set_iov (h : FillingVector start addresses iovecs lines heap) (iovec : Iovec)
    (room : ℕ) :
    (stackOf addresses iovecs (room + 1)).iov.set addresses.length (some iovec) =
      (iovecs ++ [iovec]).map some ++ List.replicate room none := by
  have hset := set_append_replicate (iovecs.map some) (some iovec) none room
  rw [List.length_map, ← h.length_eq] at hset
  rw [List.map_append]
  exact hset

theorem length_concat (h : FillingVector start addresses iovecs lines heap) (address : ℕ)
    (iovec : Iovec) :
    (addresses ++ [address]).length = (iovecs ++ [iovec]).length := by
  rw [List.length_append, List.length_append, h.length_eq]
  rfl

/-- A string is encoded into a new object. -/
theorem text (h : FillingVector start addresses iovecs lines heap) {value : Text}
    {line : List UInt8} (hencode : encodeStrict value = .ok line)
    (hfails : ¬ heap.fails heap.next = true) (args : List SendvItem) :
    ∃ address iovec after,
      fillVector (.text value :: args) addresses.length
          (stackOf addresses iovecs (args.length + 1)) heap =
        fillVector args (addresses ++ [address]).length
          (stackOf (addresses ++ [address]) (iovecs ++ [iovec]) args.length) after ∧
      FillingVector start (addresses ++ [address]) (iovecs ++ [iovec]) (lines ++ [line])
        after := by
  have hblock := heap.block_insert_next line
  have hencoded : asEncodedString value heap = .ok (.ok heap.next, heap.insert line) := by
    rw [asEncodedString, hencode]
    dsimp only
    rw [bind_of_ok (malloc_of_not_fails hfails line), if_neg heap.next_pos.ne']
    rfl
  refine ⟨heap.next, _, heap.insert line, ?_, h.encoded.concat line,
    (h.points.insert line).concat hblock, h.length_concat _ _, h.succeeded.insert hfails line⟩
  rw [fillVector, bind_of_ok hencoded]
  dsimp only
  rw [bind_of_ok (bytesAsStringAndSize_eq hblock), h.set_iov, List.length_append,
    List.length_singleton, stackOf, stackOf, set_append_replicate]

/-- A bytes object is not encoded; no new object can be where it is. -/
theorem bytes (h : FillingVector start addresses iovecs lines heap) {address : ℕ}
    {line : List UInt8} (hlive : start.block address = some line) (args : List SendvItem) :
    ∃ iovec,
      fillVector (.bytes address :: args) addresses.length
          (stackOf addresses iovecs (args.length + 1)) heap =
        fillVector args (addresses ++ [0]).length
          (stackOf (addresses ++ [0]) (iovecs ++ [iovec]) args.length) heap ∧
      FillingVector start (addresses ++ [0]) (iovecs ++ [iovec]) (lines ++ [line]) heap := by
  have hnot : address ∉ nonnull addresses := by
    intro hmem
    rw [h.encoded.owned.new address hmem] at hlive
    cases hlive
  have hblock : heap.block address = some line := (h.encoded.owned.kept address hnot).trans hlive
  have hzeros : addresses ++ List.replicate (args.length + 1) 0 =
      (addresses ++ [0]) ++ List.replicate args.length 0 := by
    rw [List.replicate_succ, List.append_assoc, List.singleton_append]
  refine ⟨_, ?_, h.encoded.zeros 1, h.points.concat hblock, h.length_concat _ _, h.succeeded⟩
  rw [fillVector, bind_of_ok (bytesAsStringAndSize_eq hblock), h.set_iov, List.length_append,
    List.length_singleton, stackOf, stackOf, hzeros]

/-- The function stops here with an exception. -/
theorem stopped (h : FillingVector start addresses iovecs lines heap) (room : ℕ) :
    Encoded start (stackOf addresses iovecs room).encoded heap :=
  h.encoded.zeros room

end FillingVector

/-- What is to be shown of the loop over the elements `args`, behind some lines. -/
def Fills (start : BytesHeap) (args : List SendvItem) (lines : List (List UInt8))
    (outcome : Except PyException Unit) (stack : SendvStack) (after : BytesHeap) : Prop :=
  Encoded start stack.encoded after ∧
    UnlessFailed (.memoryError "") start after
      ((args.mapM (SendvItem.line start)).map fun _ ↦ ()) outcome ∧
    ∀ new, outcome = .ok () → args.mapM (SendvItem.line start) = .ok new →
      readVector stack.iov after = .ok (lines ++ new, after)

variable {item : SendvItem} {args : List SendvItem}

/-- The loop has stopped at an element. -/
theorem Fills.of_error {exception : PyException} {stack : SendvStack}
    (hencoded : Encoded start stack.encoded heap)
    (hresult : Succeeded start heap ∧ item.line start = .error exception ∨
      Failed start heap ∧ exception = .memoryError "") :
    Fills start (item :: args) lines (.error exception) stack heap := by
  refine ⟨hencoded, ?_, fun new hok ↦ by cases hok⟩
  rcases hresult with ⟨hsucceeded, hline⟩ | ⟨hfailed, rfl⟩
  · rw [mapM_cons_of_error hline]
    exact .inl ⟨hsucceeded, rfl⟩
  · exact .inr ⟨hfailed, rfl⟩

/-- The loop goes on behind an element. -/
theorem Fills.cons {outcome : Except PyException Unit} {stack : SendvStack} {line : List UInt8}
    (hline : item.line start = .ok line)
    (h : Fills start args (lines ++ [line]) outcome stack heap) :
    Fills start (item :: args) lines outcome stack heap := by
  obtain ⟨hencoded, hresult, hread⟩ := h
  rw [Fills, mapM_cons_of_ok hline]
  cases hrest : args.mapM (SendvItem.line start) with
  | error exception =>
    rw [hrest] at hresult
    exact ⟨hencoded, hresult, fun new _ hnew ↦ by cases hnew⟩
  | ok rest =>
    rw [hrest] at hresult
    refine ⟨hencoded, hresult, fun new hok hnew ↦ ?_⟩
    obtain rfl := Except.ok.inj hnew
    rw [hread rest hok hrest, List.append_assoc, List.singleton_append]

/-- The loop encodes the strings up to the first element that has no line, or up to an allocation
that fails. When it has come to its end the library reads all lines. -/
theorem fillVector_eq (hlive : ∀ address, .bytes address ∈ args → start.block address ≠ none)
    (h : FillingVector start addresses iovecs lines heap) :
    ∃ outcome stack after,
      fillVector args addresses.length (stackOf addresses iovecs args.length) heap =
        .ok ((outcome, stack), after) ∧ Fills start args lines outcome stack after := by
  induction args generalizing addresses iovecs lines heap with
  | nil =>
    have hread : readVector (iovecs.map some ++ List.replicate 0 none) heap =
        .ok (lines, heap) := by
      rw [List.replicate_zero, List.append_nil, readVector_eq h.points]
    refine ⟨.ok (), _, heap, rfl, h.stopped 0, .inl ⟨h.succeeded, rfl⟩, fun new _ hnew ↦ ?_⟩
    obtain rfl : [] = new := Except.ok.inj hnew
    rw [List.append_nil]
    exact hread
  | cons item args ih =>
    have hrest : ∀ address, .bytes address ∈ args → start.block address ≠ none :=
      fun address hmem ↦ hlive address (List.mem_cons_of_mem item hmem)
    have hstop := h.stopped (args.length + 1)
    cases item with
    | text value =>
      cases hencode : encodeStrict value with
      | error exception =>
        have hencoded : asEncodedString value heap = .ok (.error exception, heap) := by
          rw [asEncodedString, hencode]
          rfl
        refine ⟨.error exception, _, heap, ?_, .of_error hstop (.inl ⟨h.succeeded, hencode⟩)⟩
        rw [fillVector, bind_of_ok hencoded]
        rfl
      | ok line =>
        by_cases hfails : heap.fails heap.next = true
        · have hencoded : asEncodedString value heap =
              .ok (.error (.memoryError ""), heap.skip) := by
            rw [asEncodedString, hencode]
            dsimp only
            rw [bind_of_ok (malloc_of_fails hfails line), if_pos rfl]
            rfl
          refine ⟨.error (.memoryError ""), _, heap.skip, ?_, .of_error
            ⟨hstop.owned.skip, hstop.alive, hstop.nodup⟩
            (.inr ⟨h.succeeded.failed_skip hfails, rfl⟩)⟩
          rw [List.length_cons, fillVector, bind_of_ok hencoded]
          rfl
        · obtain ⟨address, iovec, next, hstep, hnext⟩ := h.text hencode hfails args
          obtain ⟨outcome, stack, after, hrun, hfills⟩ := ih hrest hnext
          exact ⟨outcome, stack, after, hstep.trans hrun, hfills.cons hencode⟩
    | bytes address =>
      obtain ⟨line, hblock⟩ :=
        Option.ne_none_iff_exists'.mp (hlive address List.mem_cons_self)
      have hline : (SendvItem.bytes address).line start = .ok line := by
        rw [SendvItem.line, hblock]
        rfl
      obtain ⟨iovec, hstep, hnext⟩ := h.bytes hblock args
      obtain ⟨outcome, stack, after, hrun, hfills⟩ := ih hrest hnext
      exact ⟨outcome, stack, after, hstep.trans hrun, hfills.cons hline⟩
    | other typeName =>
      exact ⟨.error (expectedBytes typeName), _, heap, rfl,
        .of_error hstop (.inl ⟨h.succeeded, rfl⟩)⟩

end Fill

/-! ### One call -/

/-- Whatever the elements and whichever objects cannot be allocated, no object is used after it was
released or released twice, no unset entry is read and nothing behind the end of an object, and at
the end the heap is as it was. The library is handed all lines in their order and its answer
returned, or the exception of the first element without a line is raised and the library is not
called; where an allocation fails it is a `MemoryError`. For strings and bytes this is what
`journalSendv` does. -/
theorem journalSendvInHeap_eq (heap : BytesHeap) (args : List SendvItem)
    (hlive : ∀ address, .bytes address ∈ args → heap.block address ≠ none)
    (sendv : List (List UInt8) → ℤ) :
    ∃ outcome after, journalSendvInHeap args sendv heap = .ok (outcome, after) ∧
      after.block = heap.block ∧
      (Succeeded heap after ∧ outcome = sendvOutcome sendv (args.mapM (SendvItem.line heap)) ∧
          (∀ items, List.Forall₂ (SendvItem.Is heap) args items →
            outcome = journalSendv items sendv) ∨
        Failed heap after ∧ outcome = { handed := none, result := .error (.memoryError "") }) := by
  have hstart : FillingVector heap [] [] [] heap := ⟨.nil heap, .nil, rfl, .refl heap⟩
  obtain ⟨filled, stack, full, hrun, hencoded, hresult, hread⟩ := fillVector_eq hlive hstart
  obtain ⟨hfree, hblock⟩ := hencoded.freeAll
  have hempty : stackOf [] [] args.length = { encoded := List.replicate args.length 0
                                              iov := List.replicate args.length none } := rfl
  rw [hempty, List.length_nil] at hrun
  rw [journalSendvInHeap, bind_of_ok hrun]
  cases filled with
  | error exception =>
    dsimp only
    rw [bind_of_ok hfree]
    refine ⟨_, _, rfl, hblock, ?_⟩
    rcases hresult with ⟨hsucceeded, hlines⟩ | ⟨hfailed, hexception⟩
    · cases hmap : args.mapM (SendvItem.line heap) with
      | ok lines =>
        rw [hmap] at hlines
        cases hlines
      | error first =>
        rw [hmap] at hlines
        cases hlines
        refine .inl ⟨hsucceeded.eraseAll _, rfl, fun items hitems ↦ ?_⟩
        rw [← sendvOutcome_eq hitems, hmap]
        rfl
    · cases hexception
      exact .inr ⟨hfailed, rfl⟩
  | ok _ =>
    rcases hresult with ⟨hsucceeded, hlines⟩ | ⟨-, hexception⟩
    · cases hmap : args.mapM (SendvItem.line heap) with
      | error first =>
        rw [hmap] at hlines
        cases hlines
      | ok lines =>
        dsimp only
        rw [bind_of_ok (hread lines rfl hmap), List.nil_append, bind_of_ok hfree]
        refine ⟨_, _, rfl, hblock, .inl ⟨hsucceeded.eraseAll _, rfl, fun items hitems ↦ ?_⟩⟩
        rw [← sendvOutcome_eq hitems, hmap]
        rfl
    · cases hexception

/-- A heap with one bytes object, in which the allocation at one address fails. -/
def lineHeap (failing : ℕ) : BytesHeap :=
  (Heap.empty fun address ↦ address == failing).insert [66, 61, 10]

/-- A string, the bytes object and a string. -/
def lineArgs : List SendvItem :=
  [.text (.ofString "A=é"), .bytes 1, .text (.ofString "C=")]

theorem journalSendvInHeap_eq_sample :
    ∃ outcome after, journalSendvInHeap lineArgs (fun _ ↦ 0) (lineHeap 3) = .ok (outcome, after) ∧
      after.block = (lineHeap 3).block ∧
      (Succeeded (lineHeap 3) after ∧
          outcome = sendvOutcome (fun _ ↦ 0) (lineArgs.mapM (SendvItem.line (lineHeap 3))) ∧
          (∀ items, List.Forall₂ (SendvItem.Is (lineHeap 3)) lineArgs items →
            outcome = journalSendv items fun _ ↦ 0) ∨
        Failed (lineHeap 3) after ∧
          outcome = { handed := none, result := .error (.memoryError "") }) := by
  refine journalSendvInHeap_eq (lineHeap 3) lineArgs (fun address hmem ↦ ?_) fun _ ↦ 0
  have hone : address = 1 := by
    rcases List.mem_cons.mp hmem with h | hmem
    · cases h
    · rcases List.mem_cons.mp hmem with h | hmem
      · cases h
        rfl
      · cases List.mem_singleton.mp hmem
  rw [hone]
  exact Option.some_ne_none _

-- The second string is encoded at the third address.
example :
    (journalSendvInHeap lineArgs (fun _ ↦ 0) (lineHeap 0)).map (fun run ↦ run.1.handed) =
      .ok (some [[65, 61, 195, 169], [66, 61, 10], [67, 61]]) :=
  rfl

example :
    (journalSendvInHeap lineArgs (fun _ ↦ 0) (lineHeap 3)).map (fun run ↦ run.1.handed) =
      .ok none :=
  rfl

end PythonSystemd.Journal
