import Nazm.Diagnostics.Error

/-!
Error lists put together.

Owns the list of two lists of errors up to the cap of the list, and that a report
commutes with it.

Does not own where errors come from.
-/

namespace Nazm.Diagnostics

namespace ErrorList

/-- One list after another, up to the cap. -/
def join (first second : ErrorList) : ErrorList where
  errors := (first.errors ++ second.errors).take nazmMaxErrors
  fatal := first.fatal || second.fatal ||
    decide (nazmMaxErrors < first.errors.length + second.errors.length)

/-- A list that reports made is no longer than the cap. -/
def Capped (list : ErrorList) : Prop := list.errors.length ≤ nazmMaxErrors

theorem capped_empty : Capped .empty := Nat.zero_le _

theorem capped_join (first second : ErrorList) : Capped (first.join second) :=
  List.length_take_le _ _

theorem Capped.join_empty {list : ErrorList} (capped : list.Capped) : list.join .empty = list := by
  simp [join, empty, List.take_of_length_le capped, Nat.not_lt.mpr capped]

theorem length_join (first second : ErrorList) : (first.join second).errors.length =
    min nazmMaxErrors (first.errors.length + second.errors.length) := by
  rw [join, List.length_take, List.length_append]

/-- Lists one after another, up to the cap. -/
def joinAll (lists : List ErrorList) : ErrorList := lists.foldl join .empty

theorem foldl_join (lists : List ErrorList) {base : ErrorList} (capped : base.Capped) :
    (lists.foldl join base).errors =
        (base.errors ++ lists.flatMap ErrorList.errors).take nazmMaxErrors ∧
      (lists.foldl join base).fatal = (base.fatal || lists.any ErrorList.fatal ||
        decide (nazmMaxErrors < base.errors.length + (lists.flatMap ErrorList.errors).length)) := by
  induction lists generalizing base with
  | nil =>
      have noMore := Nat.not_lt.mpr capped
      simp [List.take_of_length_le capped, noMore]
  | cons list lists inductionHypothesis =>
      obtain ⟨errors, fatal⟩ := inductionHypothesis (capped_join base list)
      rw [length_join] at fatal
      constructor
      · rw [List.foldl_cons, errors, join, List.flatMap_cons, ← List.append_assoc]
        dsimp only
        by_cases full : (base.errors ++ list.errors).length ≤ nazmMaxErrors
        · rw [List.take_of_length_le full]
        · have left : ((base.errors ++ list.errors).take nazmMaxErrors ++
              lists.flatMap ErrorList.errors).take nazmMaxErrors =
              (base.errors ++ list.errors).take nazmMaxErrors :=
            List.take_left' (by rw [List.length_take]; omega)
          have right : (base.errors ++ list.errors ++ lists.flatMap ErrorList.errors).take
              nazmMaxErrors = (base.errors ++ list.errors).take nazmMaxErrors :=
            List.take_append_of_le_length (by omega)
          rw [left, right]
      · rw [List.foldl_cons, fatal, join, List.flatMap_cons, List.length_append, List.any_cons]
        dsimp only
        generalize (lists.flatMap ErrorList.errors).length = later
        by_cases full : nazmMaxErrors < base.errors.length + list.errors.length
        · have overflows : nazmMaxErrors < base.errors.length +
              (list.errors.length + later) := by omega
          simp [full, overflows]
        · rw [Nat.min_eq_right (Nat.not_lt.mp full), Nat.add_assoc, decide_eq_false full]
          simp [Bool.or_assoc]

theorem joinAll_errors (lists : List ErrorList) :
    (joinAll lists).errors = (lists.flatMap ErrorList.errors).take nazmMaxErrors :=
  (foldl_join lists capped_empty).1

theorem joinAll_fatal (lists : List ErrorList) :
    (joinAll lists).fatal = (lists.any ErrorList.fatal ||
      decide (nazmMaxErrors < (lists.flatMap ErrorList.errors).length)) := by
  rw [joinAll, (foldl_join lists capped_empty).2]
  simp only [empty, Bool.false_or, List.length_nil, Nat.zero_add]

end ErrorList

variable (file : Option (List UInt8)) (line col endCol : Nat) (message : List UInt8)

/-- A report to the second list is a report to both. -/
theorem errorAddSpan_join (first second : ErrorList) :
    errorAddSpan (first.join second) file line col endCol message =
      first.join (errorAddSpan second file line col endCol message) := by
  unfold errorAddSpan
  rw [ErrorList.length_join]
  by_cases full : nazmMaxErrors ≤ second.errors.length
  · rw [if_pos (by omega), if_pos full]
    simp [ErrorList.join]
  · rw [if_neg full]
    by_cases joined : nazmMaxErrors ≤ first.errors.length + second.errors.length
    · rw [if_pos (by omega)]
      have cut : ∀ error : NazmError, (first.errors ++ (second.errors ++ [error])).take nazmMaxErrors =
          (first.errors ++ second.errors).take nazmMaxErrors := by
        intro error
        rw [← List.append_assoc, List.take_append_of_le_length]
        rwa [List.length_append]
      have overflows : nazmMaxErrors < first.errors.length + (second.errors.length + 1) := by omega
      simp only [ErrorList.join, cut, List.length_append, List.length_singleton,
        decide_eq_true overflows, Bool.or_true]
    · rw [if_neg (by omega)]
      have kept : ∀ error : NazmError, (first.errors ++ (second.errors ++ [error])).take nazmMaxErrors =
          (first.errors ++ second.errors).take nazmMaxErrors ++ [error] := by
        intro error
        have one : (first.errors ++ second.errors).length ≤ nazmMaxErrors := by
          rw [List.length_append]
          omega
        have two : (first.errors ++ second.errors ++ [error]).length ≤ nazmMaxErrors := by
          rw [List.length_append, List.length_append, List.length_singleton]
          omega
        rw [← List.append_assoc, List.take_of_length_le one, List.take_of_length_le two]
      have under : ¬nazmMaxErrors < first.errors.length + (second.errors.length + 1) := by omega
      have under' : ¬nazmMaxErrors < first.errors.length + second.errors.length := by omega
      simp only [ErrorList.join, kept, List.length_append, List.length_singleton,
        decide_eq_false under, decide_eq_false under']

end Nazm.Diagnostics
