import Nazm.Library.Tiling

/-!
Lists laid out in rows.

Owns how a list is cut into rows of at most a given width, at least one, each
with the place it starts at; the rows give the list back and lie one after the
other.

Does not own how a row is printed.
-/

namespace Rows

open Tiling

variable {α : Type}

/-- The rows of a list that starts at a place: an empty list has one. -/
def rowsOf (width start : Nat) (items : List α) : List (Nat × List α) :=
  if width < items.length ∧ 0 < width then
    (start, items.take width) :: rowsOf width (start + width) (items.drop width)
  else [(start, items)]
termination_by items.length
decreasing_by
  rw [List.length_drop]
  omega

theorem rowsOf_ne_nil (width start : Nat) (items : List α) : rowsOf width start items ≠ [] := by
  rw [rowsOf]
  split <;> exact List.cons_ne_nil _ _

/-- Every row fits. -/
theorem length_le_of_mem_rowsOf {width start : Nat} {items : List α} (positive : 0 < width)
    {row : Nat × List α} (member : row ∈ rowsOf width start items) : row.2.length ≤ width := by
  induction start, items using rowsOf.induct width with
  | case1 start items long inductionHypothesis =>
      rw [rowsOf, if_pos long, List.mem_cons] at member
      rcases member with rfl | later
      · exact List.length_take_le width items
      · exact inductionHypothesis later
  | case2 start items short =>
      rw [rowsOf, if_neg short, List.mem_singleton] at member
      subst member
      show items.length ≤ width
      omega

/-- The rows in order are the list. -/
theorem flatMap_rowsOf (width start : Nat) (items : List α) :
    (rowsOf width start items).flatMap Prod.snd = items := by
  induction start, items using rowsOf.induct width with
  | case1 start items long inductionHypothesis =>
      rw [rowsOf, if_pos long, List.flatMap_cons, inductionHypothesis]
      exact List.take_append_drop width items
  | case2 start items short =>
      rw [rowsOf, if_neg short, List.flatMap_singleton]

/-- Each row starts where the one before it ends. -/
theorem contiguous_rowsOf (width start : Nat) (items : List α) :
    Contiguous Prod.fst (fun row => row.2.length) start (rowsOf width start items)
      (start + items.length) := by
  induction start, items using rowsOf.induct width with
  | case1 start items long inductionHypothesis =>
      rw [rowsOf, if_pos long]
      have taken : (items.take width).length = width := List.length_take_of_le (by omega)
      have total : start + width + (items.drop width).length = start + items.length := by
        rw [List.length_drop]
        omega
      refine ⟨rfl, ?_⟩
      dsimp only
      rw [taken, ← total]
      exact inductionHypothesis
  | case2 start items short =>
      rw [rowsOf, if_neg short]
      exact ⟨rfl, rfl⟩

end Rows
