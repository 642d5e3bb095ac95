import Mathlib.Data.List.Basic
import Mathlib.Order.Lattice
import Mathlib.Tactic.Common

/-!
# Checked memory

A C function that reads and writes through pointers is modelled as a function on lists of cells
that either returns or stops at the first `Fault`: a failed assertion, an access outside the
object it was given, a division by zero or a shift by the width of its operand. `readAt` and
`writeAt` check their bounds, so a computation that ends in `Except.ok` has touched nothing
outside the lists it was given.

`readAt_append` and `writeAt_append` are the two rules the proofs use: in a buffer that is cut
into consecutive fields, reading a field gives that field and writing a field of the same length
replaces it.
-/

set_option autoImplicit false
set_option relaxedAutoImplicit false

namespace PythonSystemd.Library.CheckedMemory

/-- The ways a checked computation stops without a result. -/
inductive Fault
  | assertion
  | outOfBounds
  | divisionByZero
  | undefinedShift
  | nonTermination
  deriving DecidableEq, Repr

/-- A computation that returns a value or stops at a fault. -/
abbrev Checked (α : Type) := Except Fault α

/-- The `assert` of C. -/
def assert (condition : Prop) [Decidable condition] : Checked Unit :=
  if condition then .ok () else .error .assertion

/-! ### Running checked computations -/

section Runs

variable {α β : Type}

theorem assert_of {condition : Prop} {decision : Decidable condition} (h : condition) :
    assert condition = .ok () :=
  if_pos h

theorem assert_of_not {condition : Prop} {decision : Decidable condition} (h : ¬ condition) :
    assert condition = .error .assertion :=
  if_neg h

@[simp] theorem ok_bind (value : α) (next : α → Checked β) :
    (Except.ok value >>= next) = next value :=
  rfl

@[simp] theorem error_bind (fault : Fault) (next : α → Checked β) :
    ((Except.error fault : Checked α) >>= next) = .error fault :=
  rfl

@[simp] theorem pure_eq_ok (value : α) : (pure value : Checked α) = .ok value :=
  rfl

/-- Code that runs after other code returns only if that has. -/
theorem returned_bind {ε : Type} {first : Except ε α} {next : α → Except ε β} {result : β} :
    (first >>= next) = .ok result ↔ ∃ value, first = .ok value ∧ next value = .ok result := by
  cases first with
  | error exception =>
    refine iff_of_false (fun h ↦ by cases h) ?_
    rintro ⟨value, hvalue, -⟩
    cases hvalue
  | ok value =>
    constructor
    · intro h
      exact ⟨value, rfl, h⟩
    · rintro ⟨other, hother, h⟩
      obtain rfl := Except.ok.inj hother
      exact h

end Runs

/-! ### Buffers -/

section Buffers

variable {α : Type}

/-- The `length` cells at `offset`. -/
def readAt (memory : List α) (offset length : ℕ) : Checked (List α) :=
  if offset + length ≤ memory.length then .ok ((memory.drop offset).take length)
  else .error .outOfBounds

/-- The memory with `data` stored at `offset`. -/
def writeAt (memory : List α) (offset : ℕ) (data : List α) : Checked (List α) :=
  if offset + data.length ≤ memory.length then
    .ok (memory.take offset ++ data ++ memory.drop (offset + data.length))
  else .error .outOfBounds

/-- The cell at `index`. -/
def cellAt (memory : List α) (index : ℕ) : Checked α :=
  match memory[index]? with
  | some cell => .ok cell
  | none => .error .outOfBounds

/-- The memory with the cell at `index` changed by `change`. -/
def modifyAt (memory : List α) (index : ℕ) (change : α → α) : Checked (List α) :=
  if index < memory.length then .ok (memory.modify index change) else .error .outOfBounds

theorem cellAt_of_lt {memory : List α} {index : ℕ} (h : index < memory.length) :
    cellAt memory index = .ok memory[index] := by
  unfold cellAt
  rw [List.getElem?_eq_getElem h]

/-- Reading a field of a buffer cut into fields. -/
theorem readAt_append (before field after : List α) {offset length : ℕ}
    (hoffset : before.length = offset) (hlength : field.length = length) :
    readAt (before ++ field ++ after) offset length = .ok field := by
  subst hoffset hlength
  unfold readAt
  rw [if_pos (by simp), List.append_assoc, List.drop_left, List.take_left]

/-- Reading the cell behind the first `index` cells. -/
theorem cellAt_append (before after : List α) (cell : α) {index : ℕ}
    (hindex : before.length = index) : cellAt (before ++ cell :: after) index = .ok cell := by
  subst hindex
  unfold cellAt
  rw [List.getElem?_append_right le_rfl, Nat.sub_self]
  rfl

/-- Writing a field of a buffer cut into fields. -/
theorem writeAt_append (before field after data : List α) {offset : ℕ}
    (hoffset : before.length = offset) (hlength : field.length = data.length) :
    writeAt (before ++ field ++ after) offset data = .ok (before ++ data ++ after) := by
  subst hoffset
  unfold writeAt
  rw [if_pos (by simp [hlength]), ← hlength, ← List.length_append, List.drop_left,
    List.append_assoc before field after, List.take_left]

/-- Writing the cell behind the first cells. -/
theorem writeAt_cell (before after : List α) (old cell : α) :
    writeAt (before ++ old :: after) before.length [cell] = .ok (before ++ [cell] ++ after) := by
  have hwrite := writeAt_append before [old] after [cell] rfl rfl
  rwa [List.append_assoc before [old], List.singleton_append] at hwrite

/-- Behind the last cell nothing is written. -/
theorem writeAt_length (memory : List α) (cell : α) :
    writeAt memory memory.length [cell] = .error .outOfBounds :=
  if_neg (by simp)

/-- A buffer of at least `first` cells is cut into its first `first` cells and the rest. -/
theorem exists_front (memory : List α) (first : ℕ) (h : first ≤ memory.length) :
    ∃ front rest, memory = front ++ rest ∧ front.length = first :=
  ⟨memory.take first, memory.drop first, (List.take_append_drop _ _).symm,
    List.length_take_of_le h⟩

/-- A buffer of at least `first + second` cells is cut into its first `first` cells, the next
`second` cells and the rest. -/
theorem exists_fields (memory : List α) (first second : ℕ)
    (h : first + second ≤ memory.length) :
    ∃ before field after, memory = before ++ field ++ after ∧ before.length = first ∧
      field.length = second := by
  refine ⟨memory.take first, (memory.drop first).take second,
    (memory.drop first).drop second, ?_, ?_, ?_⟩
  · rw [List.append_assoc, List.take_append_drop, List.take_append_drop]
  · rw [List.length_take, min_eq_left (by omega)]
  · rw [List.length_take, List.length_drop, min_eq_left (by omega)]

end Buffers

end PythonSystemd.Library.CheckedMemory
