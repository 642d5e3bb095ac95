import Mathlib.Data.List.Basic
import Mathlib.Order.Lattice

/-!
# Block streams

A function that consumes its input in blocks of a fixed size sees the full blocks of everything it
has been given, and keeps the rest pending. `blocks` and `pending` are these two parts of a
message. Their append laws `blocks_append` and `pending_append` say what a further chunk adds: the
blocks of the pending part and the chunk together. They are all that a proof about a streaming
interface needs, whatever the sizes of the chunks.
-/

set_option autoImplicit false
set_option relaxedAutoImplicit false

namespace PythonSystemd.Library.BlockStream

variable {α : Type*} {size : ℕ}

/-- The full blocks of a message. -/
def blocks (size : ℕ) (message : List α) : List (List α) :=
  (List.range (message.length / size)).map fun index ↦ (message.drop (size * index)).take size

/-- What is left of a message after its full blocks. -/
def pending (size : ℕ) (message : List α) : List α :=
  message.drop (size * (message.length / size))

theorem length_pending (size : ℕ) (message : List α) :
    (pending size message).length = message.length % size := by
  rw [pending, List.length_drop]
  have := Nat.div_add_mod message.length size
  omega

theorem length_pending_lt (hsize : 0 < size) (message : List α) :
    (pending size message).length < size := by
  rw [length_pending]
  exact Nat.mod_lt _ hsize

theorem blocks_of_lt {message : List α} (h : message.length < size) :
    blocks size message = [] := by
  rw [blocks, Nat.div_eq_of_lt h, List.range_zero, List.map_nil]

theorem pending_of_lt {message : List α} (h : message.length < size) :
    pending size message = message := by
  rw [pending, Nat.div_eq_of_lt h, Nat.mul_zero, List.drop_zero]

/-- A leading block is the first block. -/
theorem blocks_block_append {block : List α} (hsize : 0 < size) (hblock : block.length = size)
    (rest : List α) : blocks size (block ++ rest) = block :: blocks size rest := by
  have hcount : (block ++ rest).length / size = rest.length / size + 1 := by
    rw [List.length_append, hblock, Nat.add_comm, Nat.add_div_right _ hsize]
  have hlater : ∀ index, (block ++ rest).drop (size * (index + 1)) = rest.drop (size * index) := by
    intro index
    rw [Nat.mul_succ, Nat.add_comm, ← hblock, List.drop_length_add_append]
  rw [blocks, hcount, List.range_succ_eq_map, List.map_cons, List.map_map, Nat.mul_zero,
    List.drop_zero, ← hblock, List.take_left, hblock]
  refine congrArg (block :: ·) (List.map_congr_left fun index _ ↦ ?_)
  rw [Function.comp_apply, Nat.succ_eq_add_one, hlater]

theorem pending_block_append {block : List α} (hsize : 0 < size) (hblock : block.length = size)
    (rest : List α) : pending size (block ++ rest) = pending size rest := by
  have hcount : (block ++ rest).length / size = rest.length / size + 1 := by
    rw [List.length_append, hblock, Nat.add_comm, Nat.add_div_right _ hsize]
  rw [pending, hcount, Nat.mul_succ, Nat.add_comm, ← hblock, List.drop_length_add_append, hblock,
    pending]

/-- A further chunk adds the blocks of what was pending and the chunk together. -/
theorem blocks_append (hsize : 0 < size) (message chunk : List α) :
    blocks size (message ++ chunk) =
      blocks size message ++ blocks size (pending size message ++ chunk) := by
  induction hlength : message.length using Nat.strong_induction_on generalizing message with
  | h length ih =>
    by_cases hlt : message.length < size
    · rw [blocks_of_lt hlt, pending_of_lt hlt, List.nil_append]
    · have hfirst : (message.take size).length = size := by
        rw [List.length_take]
        omega
      have hrest := ih (message.drop size).length (by rw [List.length_drop]; omega)
        (message.drop size) rfl
      rw [← List.take_append_drop size message, List.append_assoc,
        blocks_block_append hsize hfirst, blocks_block_append hsize hfirst,
        pending_block_append hsize hfirst, hrest, List.cons_append]

theorem pending_append (hsize : 0 < size) (message chunk : List α) :
    pending size (message ++ chunk) = pending size (pending size message ++ chunk) := by
  induction hlength : message.length using Nat.strong_induction_on generalizing message with
  | h length ih =>
    by_cases hlt : message.length < size
    · rw [pending_of_lt hlt]
    · have hfirst : (message.take size).length = size := by
        rw [List.length_take]
        omega
      have hrest := ih (message.drop size).length (by rw [List.length_drop]; omega)
        (message.drop size) rfl
      rw [← List.take_append_drop size message, List.append_assoc,
        pending_block_append hsize hfirst, pending_block_append hsize hfirst, hrest]

end PythonSystemd.Library.BlockStream
