import Nazm.Diagnostics.Joined
import Nazm.Passes.Layout

/-!
What pass 1 reports of each statement.

Owns the report of a single turn, the report that the check after the walk makes
of a single statement, and that the errors of pass 1 are these reports one after
another.

Does not own when a statement is reported.
-/

namespace Nazm.Passes

open Nazm.Encoder Nazm.Parser Nazm.Symtable Nazm.Unicode Nazm.Diagnostics

/-- A state with earlier errors in front of its own. -/
def Pass1State.prepend (base : ErrorList) (state : Pass1State) : Pass1State :=
  { state with errors := base.join state.errors }

section Turn

variable {instructions : InstructionList} (base : ErrorList) (state : Pass1State)
  (instr : Instruction)

theorem addDirectiveError_join (errors : ErrorList) (index : Option Nat) (message : List UInt8) :
    addDirectiveError (base.join errors) instructions instr index message =
      base.join (addDirectiveError errors instructions instr index message) :=
  errorAddSpan_join _ _ _ _ _ _ _

theorem pass1Fault_prepend (fault : DirectiveFault) :
    pass1Fault instructions (state.prepend base) instr fault =
      (pass1Fault instructions state instr fault).prepend base := by
  simp only [pass1Fault, Pass1State.prepend, addDirectiveError_join]

theorem pass1VisibilityError_prepend (message : List UInt8) :
    pass1VisibilityError instructions (state.prepend base) instr message =
      (pass1VisibilityError instructions state instr message).prepend base := by
  simp only [pass1VisibilityError, Pass1State.prepend, addVisibilityError, addDirectiveError_join]

theorem pass1Label_prepend :
    pass1Label instructions (state.prepend base) instr =
      (pass1Label instructions state instr).prepend base := by
  unfold pass1Label
  cases instr.label with
  | none => rfl
  | some label =>
      dsimp only [Pass1State.prepend]
      split
      · rfl
      · rw [errorAddSpan_join]

theorem pass1External_prepend :
    pass1External instructions (state.prepend base) instr =
      (pass1External instructions state instr).prepend base := by
  unfold pass1External
  split
  · dsimp only [Pass1State.prepend]
    split
    · rfl
    · exact pass1VisibilityError_prepend base state instr _
  · exact pass1VisibilityError_prepend base state instr _

theorem pass1Visibility_prepend (binding : SymbolBinding) :
    pass1Visibility instructions (state.prepend base) instr binding =
      (pass1Visibility instructions state instr binding).prepend base := by
  unfold pass1Visibility
  split
  · dsimp only [Pass1State.prepend]
    split
    · rfl
    · exact pass1VisibilityError_prepend base state instr _
  · exact pass1VisibilityError_prepend base state instr _

theorem pass1DebugFile_prepend :
    pass1DebugFile instructions (state.prepend base) instr =
      (pass1DebugFile instructions state instr).prepend base := by
  unfold pass1DebugFile
  dsimp only [Pass1State.prepend]
  split
  · rfl
  · exact pass1Fault_prepend base state instr _

theorem pass1DebugLocation_prepend :
    pass1DebugLocation instructions (state.prepend base) instr =
      (pass1DebugLocation instructions state instr).prepend base := by
  unfold pass1DebugLocation
  split
  · rfl
  · exact pass1Fault_prepend base state instr _

theorem pass1DataDirective_prepend :
    pass1DataDirective instructions (state.prepend base) instr =
      (pass1DataDirective instructions state instr).prepend base := by
  have fault := @pass1Fault_prepend instructions base state instr
  have label := @pass1Label_prepend instructions base
    { state with alignments := pass1NoteAlignment state.alignments state.currentSection instr } instr
  have sameSection : (state.prepend base).currentSection = state.currentSection := rfl
  unfold pass1DataDirective
  rw [sameSection]
  split
  · exact fault _
  · split
    · exact fault _
    · split
      · exact fault _
      · dsimp only [Pass1State.prepend] at label ⊢
        rw [label]
        split <;> rfl

theorem pass1Statement_prepend :
    pass1Statement instructions (state.prepend base) instr =
      (pass1Statement instructions state instr).prepend base := by
  unfold pass1Statement
  rw [pass1Label_prepend]
  dsimp only [Pass1State.prepend]
  split
  · rfl
  · split <;> rfl

/-- A turn does not look at the errors before it. -/
theorem pass1Step_prepend :
    pass1Step instructions (state.prepend base) instr =
      (pass1Step instructions state instr).prepend base := by
  unfold pass1Step
  split
  · exact pass1Statement_prepend base state instr
  · rfl
  · rfl
  · rfl
  · rfl
  · exact pass1External_prepend base state instr
  · exact pass1DebugFile_prepend base state instr
  · exact pass1DebugFile_prepend base state instr
  · exact pass1DebugLocation_prepend base state instr
  · exact pass1Visibility_prepend base state instr _
  · exact pass1Visibility_prepend base state instr _
  · exact pass1Fault_prepend base state instr _
  all_goals exact pass1DataDirective_prepend base state instr

end Turn

/-! ## Reports -/

/-- A state that has reported nothing. -/
def Pass1State.silent (state : Pass1State) : Pass1State := { state with errors := .empty }

/-- What the turn of a statement reports, after the statements before it. -/
def turnReport (instructions : InstructionList) (before : List Instruction) (instr : Instruction) :
    ErrorList :=
  (pass1Step instructions (pass1Walk instructions before).silent instr).errors

/-- What the check of locations reports of a statement. -/
def locationReport (instructions : InstructionList) (instr : Instruction) : ErrorList :=
  validateDebugLocationFiles { instructions with data := [instr] }
    (pass1Walk instructions instructions.data).debugFiles .empty

/-- What pass 1 reports of visibility lines without a definition. -/
def undefinedReport (instructions : InstructionList) : ErrorList :=
  reportUndefinedVisibilitySymbols instructions
    (pass1Walk instructions instructions.data).symtable .empty

section Run

variable {instructions : InstructionList}

theorem pass1Walk_capped (before : List Instruction) :
    (pass1Walk instructions before).errors.Capped := by
  induction before using List.reverseRecOn with
  | nil => exact ErrorList.capped_empty
  | append_singleton before instr inductionHypothesis =>
      have state : pass1Walk instructions before =
          (pass1Walk instructions before).silent.prepend (pass1Walk instructions before).errors := by
        simp only [Pass1State.silent, Pass1State.prepend, inductionHypothesis.join_empty]
      rw [pass1Walk_snoc, state, pass1Step_prepend]
      exact ErrorList.capped_join _ _

/-- A turn adds its report to the errors. -/
theorem pass1Walk_errors_snoc (before : List Instruction) (instr : Instruction) :
    (pass1Walk instructions (before ++ [instr])).errors =
      (pass1Walk instructions before).errors.join (turnReport instructions before instr) := by
  have capped := @pass1Walk_capped instructions before
  have state : pass1Walk instructions before =
      (pass1Walk instructions before).silent.prepend (pass1Walk instructions before).errors := by
    simp only [Pass1State.silent, Pass1State.prepend, capped.join_empty]
  have step := @pass1Step_prepend instructions (pass1Walk instructions before).errors
    (pass1Walk instructions before).silent instr
  rw [← state] at step
  rw [pass1Walk_snoc, step]
  rfl

theorem reportUndefinedVisibilitySymbols_join (symtable : SymbolTable) (base errors : ErrorList) :
    reportUndefinedVisibilitySymbols instructions symtable (base.join errors) =
      base.join (reportUndefinedVisibilitySymbols instructions symtable errors) := by
  unfold reportUndefinedVisibilitySymbols
  generalize symtable.entries = entries
  induction entries generalizing errors with
  | nil => rfl
  | cons entry entries inductionHypothesis =>
      rw [List.foldl_cons, List.foldl_cons]
      split
      · exact inductionHypothesis errors
      · split
        · exact inductionHypothesis errors
        · rw [addVisibilityError, addDirectiveError_join]
          exact inductionHypothesis _

theorem validateDebugLocationFiles_eq {files : List DebugFile} {errors : ErrorList}
    (capped : errors.Capped) :
    validateDebugLocationFiles instructions files errors =
      (instructions.data.map fun instr =>
        validateDebugLocationFiles { instructions with data := [instr] } files .empty).foldl
          ErrorList.join errors := by
  unfold validateDebugLocationFiles
  generalize instructions.data = statements
  induction statements generalizing errors with
  | nil => rfl
  | cons instr statements inductionHypothesis =>
      simp only [List.foldl_cons, List.map_cons, List.foldl_nil] at inductionHypothesis ⊢
      split
      · rw [capped.join_empty]
        exact inductionHypothesis capped
      · split
        · rw [capped.join_empty]
          exact inductionHypothesis capped
        · have added : addDirectiveError errors instructions instr (some 0)
              (utf8 "معرف الملف في '.موضع' غير معلن بتوجيه '.ملف'") =
              errors.join (addDirectiveError .empty instructions instr (some 0)
                (utf8 "معرف الملف في '.موضع' غير معلن بتوجيه '.ملف'")) := by
            rw [← addDirectiveError_join, capped.join_empty]
          rw [added]
          exact inductionHypothesis (ErrorList.capped_join _ _)

/-- The errors of pass 1: those of the turns, then those of visibility lines,
then those of locations. -/
theorem pass1Run_errors :
    (pass1Run instructions).errors =
      (instructions.data.map (locationReport instructions)).foldl ErrorList.join
        ((pass1Walk instructions instructions.data).errors.join (undefinedReport instructions)) := by
  have capped := @pass1Walk_capped instructions instructions.data
  have undefined_ := @reportUndefinedVisibilitySymbols_join instructions
    (pass1Walk instructions instructions.data).symtable
    (pass1Walk instructions instructions.data).errors .empty
  rw [capped.join_empty] at undefined_
  dsimp only [pass1Run]
  rw [undefined_, validateDebugLocationFiles_eq (ErrorList.capped_join _ _)]
  rfl

end Run

end Nazm.Passes
