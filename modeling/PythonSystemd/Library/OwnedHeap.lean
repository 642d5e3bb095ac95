import Mathlib.Data.List.Basic
import Mathlib.Order.Lattice
import Mathlib.Tactic.Common

/-!
# A heap of owned blocks

Programs that allocate blocks, use them and give them back. An address that was given back, or never
given out, is not valid: freeing it or using it is a fault, so that a program that ends without one
has freed nothing twice and used nothing it had freed. An allocation may fail, and which one does is
up to the heap. The null address is zero.

`Extends` says which addresses a program holds on top of the heap it began with. Once it has given
back just these, the heap is as before: `Extends.block_eraseAll`.
-/

set_option autoImplicit false
set_option relaxedAutoImplicit false

namespace PythonSystemd.Library.OwnedHeap

/-! ### Heaps -/

inductive HeapFault
  | invalidFree
  | invalidAccess
  deriving DecidableEq

/-- The blocks at the valid addresses, and where the next one goes unless the allocation fails. -/
@[ext] structure Heap (β : Type) where
  block : ℕ → Option β
  next : ℕ
  fails : ℕ → Bool
  null : block 0 = none
  fresh : ∀ address, next ≤ address → block address = none
  next_pos : 0 < next

variable {β α γ : Type}

namespace Heap

variable (heap : Heap β)

def empty (fails : ℕ → Bool) : Heap β where
  block := fun _ ↦ none
  next := 1
  fails := fails
  null := rfl
  fresh := fun _ _ ↦ rfl
  next_pos := Nat.one_pos

/-- The heap after an allocation that failed. -/
def skip : Heap β :=
  { heap with
    next := heap.next + 1
    fresh := fun address h ↦ heap.fresh address (Nat.le_of_succ_le h)
    next_pos := Nat.succ_pos _ }

/-- The heap with a block at the next address. -/
def insert (content : β) : Heap β where
  block := fun address ↦ if address = heap.next then some content else heap.block address
  next := heap.next + 1
  fails := heap.fails
  null := by rw [if_neg heap.next_pos.ne, heap.null]
  fresh := fun address h ↦ by rw [if_neg (by omega), heap.fresh address (by omega)]
  next_pos := Nat.succ_pos _

/-- The heap with another content of a valid block. -/
def replace (address : ℕ) (content : β) (h : heap.block address ≠ none) : Heap β :=
  { heap with
    block := fun other ↦ if other = address then some content else heap.block other
    null := by
      rw [if_neg, heap.null]
      rintro rfl
      exact h heap.null
    fresh := fun other hother ↦ by
      rw [if_neg, heap.fresh other hother]
      rintro rfl
      exact h (heap.fresh other hother) }

/-- The heap without some blocks. -/
def eraseAll (addresses : List ℕ) : Heap β :=
  { heap with
    block := fun address ↦ if addresses.contains address then none else heap.block address
    null := by rw [heap.null, ite_self]
    fresh := fun address h ↦ by rw [heap.fresh address h, ite_self] }

theorem block_eraseAll (addresses : List ℕ) (address : ℕ) :
    (heap.eraseAll addresses).block address =
      if address ∈ addresses then none else heap.block address := by
  change (if addresses.contains address then none else heap.block address) = _
  simp only [List.contains_iff_mem]

theorem block_insert_of_ne {content : β} {address : ℕ} (h : address ≠ heap.next) :
    (heap.insert content).block address = heap.block address :=
  if_neg h

theorem block_insert_next (content : β) : (heap.insert content).block heap.next = some content :=
  if_pos rfl

theorem eraseAll_nil : heap.eraseAll [] = heap :=
  rfl

theorem eraseAll_eraseAll (first second : List ℕ) :
    (heap.eraseAll first).eraseAll second = heap.eraseAll (first ++ second) := by
  ext1
  · funext address
    rw [block_eraseAll, block_eraseAll, block_eraseAll]
    by_cases hsecond : address ∈ second
    · rw [if_pos hsecond, if_pos (List.mem_append_right _ hsecond)]
    · rw [if_neg hsecond]
      by_cases hfirst : address ∈ first
      · rw [if_pos hfirst, if_pos (List.mem_append_left _ hfirst)]
      · rw [if_neg hfirst, if_neg]
        exact fun h ↦ (List.mem_append.mp h).elim hfirst hsecond
  · rfl
  · rfl

/-- What becomes of a block does not matter once it is freed. -/
theorem eraseAll_replace {address : ℕ} {content : β} {h : heap.block address ≠ none}
    {addresses : List ℕ} (hmem : address ∈ addresses) :
    (heap.replace address content h).eraseAll addresses = heap.eraseAll addresses := by
  ext1
  · funext other
    rw [block_eraseAll, block_eraseAll]
    by_cases hother : other ∈ addresses
    · rw [if_pos hother, if_pos hother]
    · rw [if_neg hother, if_neg hother]
      have hne : other ≠ address := fun heq ↦ hother (heq ▸ hmem)
      exact if_neg hne
  · rfl
  · rfl

end Heap

/-! ### What a program holds -/

/-- On top of the blocks of a heap those at the owned addresses. -/
structure Extends (heap : Heap β) (owned : List ℕ) (after : Heap β) : Prop where
  kept : ∀ address, address ∉ owned → after.block address = heap.block address
  new : ∀ address, address ∈ owned → heap.block address = none

namespace Extends

variable {heap after : Heap β} {owned : List ℕ}

theorem refl (heap : Heap β) : Extends heap [] heap :=
  ⟨fun _ _ ↦ rfl, fun _ h ↦ absurd h List.not_mem_nil⟩

theorem of_mem_iff (h : Extends heap owned after) {addresses : List ℕ}
    (hsame : ∀ address, address ∈ addresses ↔ address ∈ owned) : Extends heap addresses after where
  kept := fun address hmem ↦ h.kept address fun howned ↦ hmem ((hsame address).mpr howned)
  new := fun address hmem ↦ h.new address ((hsame address).mp hmem)

/-- Without the owned blocks the heap is as it was. -/
theorem block_eraseAll (h : Extends heap owned after) :
    (after.eraseAll owned).block = heap.block := by
  funext address
  rw [Heap.block_eraseAll]
  by_cases hmem : address ∈ owned
  · rw [if_pos hmem, h.new address hmem]
  · rw [if_neg hmem, h.kept address hmem]

theorem skip (h : Extends heap owned after) : Extends heap owned after.skip :=
  ⟨h.kept, h.new⟩

/-- An address that was not valid before was not valid at the start either, unless it is owned. -/
theorem insert (h : Extends heap owned after) (content : β) :
    Extends heap (after.next :: owned) (after.insert content) where
  kept := fun address hmem ↦ by
    obtain ⟨hne, hnot⟩ := List.ne_and_not_mem_of_not_mem_cons hmem
    rw [Heap.block_insert_of_ne _ hne, h.kept address hnot]
  new := fun address hmem ↦ by
    rcases List.mem_cons.mp hmem with rfl | hmem
    · by_cases howned : after.next ∈ owned
      · exact h.new _ howned
      · rw [← h.kept _ howned, after.fresh _ le_rfl]
    · exact h.new address hmem

theorem replace (h : Extends heap owned after) {address : ℕ} (content : β)
    (hvalid : after.block address ≠ none) (hmem : address ∈ owned) :
    Extends heap owned (after.replace address content hvalid) where
  kept := fun other hother ↦ by
    have hne : other ≠ address := fun heq ↦ hother (heq ▸ hmem)
    exact (if_neg hne).trans (h.kept other hother)
  new := h.new

end Extends

/-! ### Which allocations fail -/

/-- From the first heap to the second no allocation has failed. -/
structure Succeeded (heap after : Heap β) : Prop where
  fails : after.fails = heap.fails
  next_le : heap.next ≤ after.next
  not_fails : ∀ address, heap.next ≤ address → address < after.next → ¬ heap.fails address = true

/-- From the first heap to the second an allocation has failed. -/
def Failed (heap after : Heap β) : Prop :=
  ∃ address, heap.next ≤ address ∧ address < after.next ∧ heap.fails address = true

namespace Succeeded

variable {heap after : Heap β}

theorem refl (heap : Heap β) : Succeeded heap heap :=
  ⟨rfl, le_rfl, fun _ hle hlt ↦ absurd hlt (not_lt.mpr hle)⟩

theorem skip (h : Succeeded heap after) (hnot : ¬ after.fails after.next = true) :
    Succeeded heap after.skip where
  fails := h.fails
  next_le := h.next_le.trans (Nat.le_succ _)
  not_fails := fun address hle hlt ↦ by
    by_cases hnext : address = after.next
    · rw [hnext, ← h.fails]
      exact hnot
    · exact h.not_fails address hle (Nat.lt_of_le_of_ne (Nat.le_of_lt_succ hlt) hnext)

theorem insert (h : Succeeded heap after) (hnot : ¬ after.fails after.next = true) (content : β) :
    Succeeded heap (after.insert content) :=
  ⟨h.fails, (h.skip hnot).next_le, (h.skip hnot).not_fails⟩

theorem replace (h : Succeeded heap after) {address : ℕ} {content : β}
    {hvalid : after.block address ≠ none} :
    Succeeded heap (after.replace address content hvalid) :=
  ⟨h.fails, h.next_le, h.not_fails⟩

theorem eraseAll (h : Succeeded heap after) (addresses : List ℕ) :
    Succeeded heap (after.eraseAll addresses) :=
  ⟨h.fails, h.next_le, h.not_fails⟩

theorem failed_skip (h : Succeeded heap after) (hfails : after.fails after.next = true) :
    Failed heap after.skip :=
  ⟨after.next, h.next_le, Nat.lt_succ_self _, h.fails ▸ hfails⟩

end Succeeded

/-- The result is the expected one unless an allocation has failed, and then it is an error of its
own. -/
def UnlessFailed {ε : Type} (failure : ε) (heap after : Heap β) (expected result : Except ε α) :
    Prop :=
  Succeeded heap after ∧ result = expected ∨ Failed heap after ∧ result = .error failure

theorem UnlessFailed.eraseAll {ε : Type} {failure : ε} {heap after : Heap β}
    {expected result : Except ε α} (h : UnlessFailed failure heap after expected result)
    (addresses : List ℕ) : UnlessFailed failure heap (after.eraseAll addresses) expected result :=
  h.imp (fun hsame ↦ ⟨hsame.1.eraseAll addresses, hsame.2⟩) id

/-! ### Programs -/

/-- A program over a heap. -/
def HeapProgram (β α : Type) := Heap β → Except HeapFault (α × Heap β)

instance : Monad (HeapProgram β) where
  pure value := fun heap ↦ .ok (value, heap)
  bind program next := fun heap ↦
    match program heap with
    | .error fault => .error fault
    | .ok (value, after) => next value after

/-- `malloc`, for a block that is filled at once. -/
def malloc (content : β) : HeapProgram β ℕ := fun heap ↦
  if heap.fails heap.next then .ok (0, heap.skip) else .ok (heap.next, heap.insert content)

def free (address : ℕ) : HeapProgram β Unit := fun heap ↦
  if address = 0 then .ok ((), heap)
  else
    match heap.block address with
    | none => .error .invalidFree
    | some _ => .ok ((), heap.eraseAll [address])

def load (address : ℕ) : HeapProgram β β := fun heap ↦
  match heap.block address with
  | none => .error .invalidAccess
  | some content => .ok (content, heap)

def store (address : ℕ) (content : β) : HeapProgram β Unit := fun heap ↦
  if h : heap.block address ≠ none then .ok ((), heap.replace address content h)
  else .error .invalidAccess

/-- The addresses that are not null. -/
def nonnull (addresses : List ℕ) : List ℕ :=
  addresses.filter (· != 0)

/-- Runs a program for each of a list of addresses. -/
def forEach (program : ℕ → HeapProgram β Unit) : (addresses : List ℕ) → HeapProgram β Unit
  | [] => return ()
  | address :: addresses => do
    program address
    forEach program addresses

/-- Frees the blocks of a list of addresses, some of them null. -/
def freeAll (addresses : List ℕ) : HeapProgram β Unit :=
  forEach free addresses

def fault (fault : HeapFault) : HeapProgram β α := fun _ ↦
  .error fault

theorem bind_of_ok {program : HeapProgram β α} {heap after : Heap β} {value : α}
    (h : program heap = .ok (value, after)) (next : α → HeapProgram β γ) :
    (program >>= next) heap = next value after := by
  change (match program heap with
    | .error fault => Except.error fault
    | .ok (value, after) => next value after) = _
  rw [h]

theorem bind_of_error {program : HeapProgram β α} {heap : Heap β} {fault : HeapFault}
    (h : program heap = .error fault) (next : α → HeapProgram β γ) :
    (program >>= next) heap = .error fault := by
  change (match program heap with
    | .error fault => Except.error fault
    | .ok (value, after) => next value after) = _
  rw [h]

theorem pure_apply (value : α) (heap : Heap β) :
    (pure value : HeapProgram β α) heap = .ok (value, heap) :=
  rfl

theorem malloc_of_fails {heap : Heap β} (h : heap.fails heap.next = true) (content : β) :
    malloc content heap = .ok (0, heap.skip) :=
  if_pos h

theorem malloc_of_not_fails {heap : Heap β} (h : ¬ heap.fails heap.next = true) (content : β) :
    malloc content heap = .ok (heap.next, heap.insert content) :=
  if_neg h

theorem nonnull_zero_cons (addresses : List ℕ) : nonnull (0 :: addresses) = nonnull addresses :=
  rfl

theorem nonnull_cons {address : ℕ} (h : address ≠ 0) (addresses : List ℕ) :
    nonnull (address :: addresses) = address :: nonnull addresses :=
  List.filter_cons_of_pos (bne_iff_ne.mpr h)

theorem nonnull_append (first second : List ℕ) :
    nonnull (first ++ second) = nonnull first ++ nonnull second :=
  List.filter_append ..

theorem nonnull_replicate (count : ℕ) : nonnull (List.replicate count 0) = [] := by
  induction count with
  | zero => rfl
  | succ count ih => rw [List.replicate_succ, nonnull_zero_cons, ih]

theorem free_zero (heap : Heap β) : free 0 heap = .ok ((), heap) :=
  rfl

theorem free_of_valid {heap : Heap β} {address : ℕ} {content : β}
    (h : heap.block address = some content) :
    free address heap = .ok ((), heap.eraseAll [address]) := by
  have hne : address ≠ 0 := by
    rintro rfl
    rw [heap.null] at h
    cases h
  rw [free, if_neg hne, h]

/-- Blocks at different addresses are freed one after the other. -/
theorem freeAll_of_valid {heap : Heap β} {addresses : List ℕ}
    (hvalid : ∀ address ∈ nonnull addresses, heap.block address ≠ none)
    (hnodup : (nonnull addresses).Nodup) :
    freeAll addresses heap = .ok ((), heap.eraseAll (nonnull addresses)) := by
  induction addresses generalizing heap with
  | nil => rfl
  | cons address addresses ih =>
    by_cases hzero : address = 0
    · rw [hzero, nonnull_zero_cons] at hvalid hnodup ⊢
      rw [freeAll, forEach, bind_of_ok (free_zero heap)]
      exact ih hvalid hnodup
    · rw [nonnull_cons hzero] at hvalid hnodup ⊢
      obtain ⟨hhead, htail⟩ := List.forall_mem_cons.mp hvalid
      obtain ⟨hnot, hrest⟩ := List.nodup_cons.mp hnodup
      obtain ⟨content, hcontent⟩ := Option.ne_none_iff_exists'.mp hhead
      have hkept : ∀ other ∈ nonnull addresses, (heap.eraseAll [address]).block other ≠ none := by
        intro other hmem
        have hother : other ∉ [address] := fun h ↦ hnot (List.mem_singleton.mp h ▸ hmem)
        rw [heap.block_eraseAll, if_neg hother]
        exact htail other hmem
      have hfreed := ih hkept hrest
      rw [freeAll] at hfreed
      rw [freeAll, forEach, bind_of_ok (free_of_valid hcontent), hfreed, Heap.eraseAll_eraseAll,
        List.singleton_append]

theorem load_of_valid {heap : Heap β} {address : ℕ} {content : β}
    (h : heap.block address = some content) : load address heap = .ok (content, heap) := by
  rw [load, h]

theorem store_of_valid {heap : Heap β} {address : ℕ} (h : heap.block address ≠ none)
    (content : β) : store address content heap = .ok ((), heap.replace address content h) :=
  dif_pos h

end PythonSystemd.Library.OwnedHeap
