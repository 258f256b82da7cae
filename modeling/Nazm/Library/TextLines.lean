import Mathlib.Data.List.Basic
import Mathlib.Data.List.TakeWhile

/-!
The lines of a text.

Owns the text from the start of a line on, that a reader may move to the next
line from there, and that what stands before the next separator is the line that
splitting the text gives.

Does not own what separates lines.
-/

namespace TextLines

variable {α : Type} [BEq α] {separator : α}

/-- What follows the first separator. -/
def afterLine (separator : α) (text : List α) : List α :=
  (text.dropWhile fun item => item != separator).drop 1

/-- The text from its `count`-th line on. -/
def fromLine (separator : α) : Nat → List α → List α
  | 0, text => text
  | count + 1, text => fromLine separator count (afterLine separator text)

theorem fromLine_succ (count : Nat) (text : List α) :
    fromLine separator (count + 1) text = afterLine separator (fromLine separator count text) := by
  induction count generalizing text with
  | zero => rfl
  | succ count inductionHypothesis => exact inductionHypothesis _

/-- Once a text is used up, no later line has text. -/
theorem fromLine_eq_nil_of_le {first later : Nat} {text : List α} (le : first ≤ later)
    (usedUp : fromLine separator first text = []) : fromLine separator later text = [] := by
  induction le with
  | refl => exact usedUp
  | step le inductionHypothesis =>
      rw [fromLine_succ, inductionHypothesis]
      rfl

/-- A text has one line more than separators. -/
theorem length_splitOn (text : List α) :
    (text.splitOn separator).length = text.count separator + 1 := by
  induction text with
  | nil => rfl
  | cons head tail inductionHypothesis =>
      rw [List.splitOn_eq_splitOnP] at inductionHypothesis ⊢
      rw [List.splitOnP_cons_eq_if_modifyHead, List.count_cons]
      split
      · rw [List.length_cons, inductionHypothesis]
      · rw [List.length_modifyHead, inductionHypothesis, Nat.add_zero]

variable [LawfulBEq α]

/-- The first line, and the lines of what follows it. -/
theorem splitOn_eq (text : List α) :
    text.splitOn separator = text.takeWhile (fun item => item != separator) ::
      (if separator ∈ text then (afterLine separator text).splitOn separator else []) := by
  induction text with
  | nil => rfl
  | cons head tail inductionHypothesis =>
      rw [List.splitOn_eq_splitOnP] at inductionHypothesis ⊢
      rw [List.splitOnP_cons_eq_if_modifyHead]
      by_cases isSeparator : head = separator
      · subst isSeparator
        simp [afterLine, List.splitOn_eq_splitOnP]
      · have differs : (head == separator) = false := beq_false_of_ne isSeparator
        rw [if_neg (by simp [differs]), inductionHypothesis]
        simp [afterLine, bne, differs, Ne.symm isSeparator]

/-- A line is what stands before the first separator of the text from it on. -/
theorem takeWhile_fromLine (count : Nat) (text : List α) :
    (fromLine separator count text).takeWhile (fun item => item != separator) =
      ((text.splitOn separator)[count]?).getD [] := by
  induction count generalizing text with
  | zero =>
      rw [splitOn_eq]
      rfl
  | succ count inductionHypothesis =>
      rw [fromLine, inductionHypothesis, splitOn_eq text, List.getElem?_cons_succ]
      split
      · rfl
      · next absent =>
          have usedUp : afterLine separator text = [] := by
            rw [afterLine, List.dropWhile_eq_nil_iff.mpr, List.drop_nil]
            intro item member
            simp only [bne_iff_ne]
            exact fun isSeparator => absent (isSeparator ▸ member)
          rw [usedUp]
          cases count <;> rfl

end TextLines
