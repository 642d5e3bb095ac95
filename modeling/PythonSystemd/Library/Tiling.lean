import PythonSystemd.Library.CheckedMemory

/-!
# Tilings of a buffer

A list of stores into one buffer, each a block of cells with its offset. The blocks tile the first
`size` cells when each of these cells is stored to exactly once and no other cell at all. Blocks
that follow each other without a gap tile what they span (`Consecutive.tiles`), and storing them
gives their concatenation, whatever the buffer held before (`Consecutive.storeAll_append`). Cells
outside the blocks are kept (`getElem?_of_storeAll`).
-/

set_option autoImplicit false
set_option relaxedAutoImplicit false

namespace PythonSystemd.Library.Tiling

open CheckedMemory

variable {α : Type}

/-- A block of cells and the offset it is stored at. -/
structure Block (α : Type) where
  offset : ℕ
  cells : List α

/-- The block is stored over the cell at `index`. -/
def Block.Covers (block : Block α) (index : ℕ) : Prop :=
  block.offset ≤ index ∧ index < block.offset + block.cells.length

instance (block : Block α) (index : ℕ) : Decidable (block.Covers index) :=
  inferInstanceAs (Decidable (_ ∧ _))

/-- The blocks stored one after the other. -/
def storeAll (memory : List α) (blocks : List (Block α)) : Checked (List α) :=
  blocks.foldlM (fun memory block ↦ writeAt memory block.offset block.cells) memory

theorem storeAll_cons (memory : List α) (block : Block α) (blocks : List (Block α)) :
    storeAll memory (block :: blocks) =
      writeAt memory block.offset block.cells >>= fun memory ↦ storeAll memory blocks :=
  List.foldlM_cons

/-- The first `size` cells are stored to exactly once, all others never. -/
def Tiles (blocks : List (Block α)) (size : ℕ) : Prop :=
  ∀ index, blocks.countP (fun block ↦ block.Covers index) = if index < size then 1 else 0

/-- Each block starts where the one before it ends. -/
def Consecutive : (start : ℕ) → (blocks : List (Block α)) → (stop : ℕ) → Prop
  | start, [], stop => start = stop
  | start, block :: blocks, stop =>
    block.offset = start ∧ Consecutive (start + block.cells.length) blocks stop

namespace Consecutive

variable {start stop : ℕ} {blocks : List (Block α)}

theorem le (h : Consecutive start blocks stop) : start ≤ stop := by
  induction blocks generalizing start with
  | nil => exact Nat.le_of_eq h
  | cons block blocks ih => exact Nat.le_of_add_right_le (ih h.2)

/-- A cell of the span is in one block, any other cell in none. -/
theorem countP_covers (h : Consecutive start blocks stop) (index : ℕ) :
    blocks.countP (fun block ↦ block.Covers index) =
      if start ≤ index ∧ index < stop then 1 else 0 := by
  induction blocks generalizing start with
  | nil =>
    obtain rfl : start = stop := h
    rw [List.countP_nil, if_neg (by omega)]
  | cons block blocks ih =>
    obtain ⟨hoffset, hrest⟩ := h
    have hle := hrest.le
    rw [List.countP_cons, ih hrest]
    by_cases hcovers : block.Covers index
    · have hspan : block.offset ≤ index ∧ index < block.offset + block.cells.length := hcovers
      rw [if_neg (by omega), if_pos (decide_eq_true hcovers), if_pos (by omega)]
    · have hother : index < start ∨ start + block.cells.length ≤ index := by
        unfold Block.Covers at hcovers
        omega
      have hrange : (start + block.cells.length ≤ index ∧ index < stop) ↔
          (start ≤ index ∧ index < stop) := by omega
      rw [if_neg (mt of_decide_eq_true hcovers), Nat.add_zero]
      exact if_congr hrange rfl rfl

theorem tiles (h : Consecutive 0 blocks stop) : Tiles blocks stop := by
  intro index
  rw [h.countP_covers index]
  exact if_congr (and_iff_right index.zero_le) rfl rfl

/-- Storing consecutive blocks replaces what they span by their concatenation. -/
theorem storeAll_append {before field : List α} (after : List α)
    (h : Consecutive before.length blocks (before.length + field.length)) :
    storeAll (before ++ field ++ after) blocks =
      .ok (before ++ blocks.flatMap Block.cells ++ after) := by
  induction blocks generalizing before field with
  | nil =>
    have hfield : field = [] := List.length_eq_zero_iff.mp (Nat.left_eq_add.mp h)
    rw [hfield, List.flatMap_nil]
    rfl
  | cons block blocks ih =>
    obtain ⟨hoffset, hrest⟩ := h
    have hfits : block.cells.length ≤ field.length := Nat.le_of_add_le_add_left hrest.le
    have htake : (field.take block.cells.length).length = block.cells.length :=
      List.length_take_of_le hfits
    have hstore : writeAt (before ++ field ++ after) block.offset block.cells =
        .ok (before ++ block.cells ++ field.drop block.cells.length ++ after) := by
      have hwrite := writeAt_append before (field.take block.cells.length)
        (field.drop block.cells.length ++ after) block.cells hoffset.symm htake
      rwa [← List.append_assoc, List.append_assoc before, List.take_append_drop,
        ← List.append_assoc] at hwrite
    have hnext : Consecutive (before ++ block.cells).length blocks
        ((before ++ block.cells).length + (field.drop block.cells.length).length) := by
      rw [List.length_append, List.length_drop, Nat.add_assoc, Nat.add_sub_cancel' hfits]
      exact hrest
    rw [storeAll_cons, hstore, ok_bind, ih hnext, List.flatMap_cons, List.append_assoc before]

end Consecutive

/-! ### What is kept -/

theorem length_of_writeAt {memory next data : List α} {offset : ℕ}
    (h : writeAt memory offset data = .ok next) : next.length = memory.length := by
  unfold writeAt at h
  split_ifs at h with hroom
  obtain rfl := Except.ok.inj h
  simp only [List.length_append, List.length_take, List.length_drop]
  omega

theorem getElem?_of_writeAt {memory next data : List α} {offset index : ℕ}
    (h : writeAt memory offset data = .ok next)
    (hindex : index < offset ∨ offset + data.length ≤ index) : next[index]? = memory[index]? := by
  unfold writeAt at h
  split_ifs at h with hroom
  obtain rfl := Except.ok.inj h
  have htake : (memory.take offset).length = offset := List.length_take_of_le (by omega)
  rcases hindex with hlow | hhigh
  · rw [List.append_assoc, List.getElem?_append_left (by omega), List.getElem?_take_of_lt hlow]
  · have hfront : (memory.take offset ++ data).length = offset + data.length := by
      rw [List.length_append, htake]
    rw [List.getElem?_append_right (by omega), hfront, List.getElem?_drop,
      Nat.add_sub_cancel' hhigh]

variable {memory next : List α} {blocks : List (Block α)}

theorem length_of_storeAll (h : storeAll memory blocks = .ok next) :
    next.length = memory.length := by
  induction blocks generalizing memory with
  | nil => exact congrArg List.length (Except.ok.inj h).symm
  | cons block blocks ih =>
    rw [storeAll_cons] at h
    obtain ⟨middle, hwrite, hrest⟩ := returned_bind.mp h
    exact (ih hrest).trans (length_of_writeAt hwrite)

/-- A cell that no block covers is kept. -/
theorem getElem?_of_storeAll (h : storeAll memory blocks = .ok next) {index : ℕ}
    (hindex : ∀ block ∈ blocks, ¬ block.Covers index) : next[index]? = memory[index]? := by
  induction blocks generalizing memory with
  | nil => exact congrArg (·[index]?) (Except.ok.inj h).symm
  | cons block blocks ih =>
    rw [storeAll_cons] at h
    obtain ⟨middle, hwrite, hrest⟩ := returned_bind.mp h
    have houtside : index < block.offset ∨ block.offset + block.cells.length ≤ index := by
      have hnot := hindex block List.mem_cons_self
      unfold Block.Covers at hnot
      omega
    rw [ih hrest fun other hother ↦ hindex other (List.mem_cons_of_mem _ hother),
      getElem?_of_writeAt hwrite houtside]

end PythonSystemd.Library.Tiling
