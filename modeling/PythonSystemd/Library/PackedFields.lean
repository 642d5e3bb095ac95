import Mathlib.Algebra.Ring.Nat
import Mathlib.Data.List.Basic
import Mathlib.Order.Lattice
import Mathlib.Tactic.Common

/-!
# Fields of fixed widths

A packed record is the concatenation of fields of fixed widths. `cut` takes a string apart at these
widths. Cutting what was put together gives the fields back (`cut_flatten_append`), and putting
together what was cut gives the string back (`flatten_cut`).
-/

set_option autoImplicit false
set_option relaxedAutoImplicit false

namespace PythonSystemd.Library.PackedFields

variable {α : Type}

/-- The fields of the widths, one behind the other. -/
def cut : (widths : List ℕ) → List α → List (List α)
  | [], _ => []
  | width :: widths, contents => contents.take width :: cut widths (contents.drop width)

theorem flatten_cut (widths : List ℕ) (contents : List α) :
    (cut widths contents).flatten ++ contents.drop widths.sum = contents := by
  induction widths generalizing contents with
  | nil => rfl
  | cons width widths ih =>
    have hrest := ih (contents.drop width)
    rw [List.drop_drop] at hrest
    rw [cut, List.flatten_cons, List.sum_cons, List.append_assoc, hrest, List.take_append_drop]

theorem cut_flatten_append {widths : List ℕ} {fields : List (List α)}
    (h : fields.map List.length = widths) (rest : List α) :
    cut widths (fields.flatten ++ rest) = fields := by
  induction fields generalizing widths with
  | nil =>
    subst h
    rfl
  | cons field fields ih =>
    subst h
    rw [List.map_cons, cut, List.flatten_cons, List.append_assoc, List.take_left, List.drop_left,
      ih rfl]

theorem map_length_cut {widths : List ℕ} {contents : List α}
    (h : widths.sum ≤ contents.length) :
    (cut widths contents).map List.length = widths := by
  induction widths generalizing contents with
  | nil => rfl
  | cons width widths ih =>
    rw [List.sum_cons] at h
    have hrest : widths.sum ≤ (contents.drop width).length := by
      rw [List.length_drop]
      omega
    rw [cut, List.map_cons, ih hrest, List.length_take_of_le (by omega)]

end PythonSystemd.Library.PackedFields
