import Mathlib.Data.List.Forall2
import Nazm.Encoder.Names
import Nazm.Parser.Statements

/-!
The symbols of statements.

Owns the names that statements use, their renaming, which also drops spans, and
when one list of statements is another renamed.

Does not own what the passes do with names.
-/

namespace Nazm.Parser

open Nazm.Encoder

/-! ## Names -/

/-- The names of a statement: its label and its symbolic operands. -/
def instructionNames (instr : Instruction) : List (List UInt8) :=
  instr.label.toList ++ instr.ops.filterMap symbolName?

def programNames (statements : List Instruction) : List (List UInt8) :=
  statements.flatMap instructionNames

/-! ## Renaming -/

/-- A statement with its symbols renamed and without its spans. -/
def Instruction.renamed (rename : List UInt8 → List UInt8) (instr : Instruction) : Instruction where
  opcode := instr.opcode
  ops := instr.ops.map (Operand.renamed rename)
  label := instr.label.map rename
  directive := instr.directive
  directiveKind := instr.directiveKind
  line := 0
  col := 0
  endCol := 0
  labelLine := 0
  labelCol := 0
  labelEndCol := 0

/-- The second statement is the first renamed, up to spans. -/
def Renamed (rename : List UInt8 → List UInt8) (instr instr' : Instruction) : Prop :=
  instr'.renamed id = instr.renamed rename

theorem map_renamed {rename : List UInt8 → List UInt8} {statements statements' : List Instruction}
    (renamed : List.Forall₂ (Renamed rename) statements statements') :
    statements'.map (Instruction.renamed id) = statements.map (Instruction.renamed rename) := by
  induction renamed with
  | nil => rfl
  | cons one _ inductionHypothesis =>
      rw [List.map_cons, List.map_cons, inductionHypothesis]
      exact congrArg (· :: _) one

theorem renamed_of_map {rename : List UInt8 → List UInt8}
    {statements statements' : List Instruction}
    (same : statements'.map (Instruction.renamed id) =
      statements.map (Instruction.renamed rename)) :
    List.Forall₂ (Renamed rename) statements statements' := by
  induction statements generalizing statements' with
  | nil =>
      rw [List.map_eq_nil_iff.mp same]
      exact .nil
  | cons instr statements inductionHypothesis =>
      obtain ⟨instr', rest, rfl, one, more⟩ := List.map_eq_cons_iff.mp same
      exact .cons one (inductionHypothesis more)

theorem mem_programNames {statements : List Instruction} {instr : Instruction} {name : List UInt8}
    (member : instr ∈ statements) (named : name ∈ instructionNames instr) :
    name ∈ programNames statements :=
  List.mem_flatMap.mpr ⟨instr, member, named⟩

theorem mem_names_of_label {instr : Instruction} {name : List UInt8}
    (isLabel : instr.label = some name) : name ∈ instructionNames instr := by
  rw [instructionNames, isLabel]
  exact List.mem_append_left _ List.mem_cons_self

theorem mem_names_of_operand {instr : Instruction} {op : Operand} {name : List UInt8}
    (member : op ∈ instr.ops) (named : symbolName? op = some name) :
    name ∈ instructionNames instr :=
  List.mem_append_right _ (List.mem_filterMap.mpr ⟨op, member, named⟩)

end Nazm.Parser
