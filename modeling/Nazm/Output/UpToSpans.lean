import Nazm.Output.Symbols
import Nazm.Passes.RenamedResults

/-!
What spans mean to the object.

Owns what the passes give the writers for any list of statements, and that it
does not depend on the spans of the statements.

Does not own how a list of statements is read.
-/

namespace Nazm.Output

open Nazm.Encoder Nazm.Parser Nazm.Lexer Nazm.Symtable Nazm.Passes Nazm.Diagnostics

/-- The `output_input` of a list of statements. -/
def listOutput (instructions : InstructionList) (sourceName : Option (List UInt8)) : OutputInput :=
  let pass1 := pass1Run instructions
  let pass2 := pass2Run instructions pass1
  { textBytes := pass2.textBytes
    dataBytes := pass2.dataBytes
    readOnlyDataBytes := pass2.readOnlyDataBytes
    bssSize := pass2.bssSize
    dataAlignment := pass1.alignments.data
    readOnlyDataAlignment := pass1.alignments.readOnlyData
    bssAlignment := pass1.alignments.bss
    symtable := pass1.symtable
    relocations := pass2.relocations
    debugFiles := pass1.debugFiles
    debugLines := pass2.debugLines
    sourceName := sourceName }

/-- The second list holds the statements of the first, up to spans. -/
def SameStatements (first second : InstructionList) : Prop :=
  List.Forall₂ (Renamed id) first.data second.data

section Lists

variable {first second : InstructionList}

theorem map_relocation_id (relocations : List Relocation) :
    relocations.map (Relocation.renamed id) = relocations :=
  List.map_id relocations

/-- The passes accept the same statements, whatever their spans. -/
theorem programAccepted_of_spans (same : SameStatements first second) :
    ProgramAccepted second ↔ ProgramAccepted first := by
  obtain ⟨sized, encoded, -⟩ := passes_renamed same (Set.injOn_id _)
  constructor
  · rintro ⟨sized', encoded'⟩
    exact ⟨sized.mp sized', (encoded (sized.mp sized')).mp encoded'⟩
  · rintro ⟨sized', encoded'⟩
    exact ⟨sized.mpr sized', (encoded sized').mpr encoded'⟩

/-- The writers get the same for the same statements, whatever their spans. -/
theorem listOutput_of_spans (same : SameStatements first second)
    (accepted : ProgramAccepted first) (sourceName : Option (List UInt8)) :
    listOutput second sourceName = listOutput first sourceName := by
  have results := (passes_renamed same (Set.injOn_id _)).2.2 accepted
  have symtable := symtable_of_spans same accepted.sized
  have bss := congrArg SectionSizes.bss results.sizes
  have relocations := results.relocations.trans (map_relocation_id _)
  rw [listOutput, listOutput, OutputInput.mk.injEq]
  exact ⟨results.bytes .text, results.bytes .data, results.bytes .readOnlyData, bss,
    congrArg _ results.alignments, congrArg _ results.alignments, congrArg _ results.alignments,
    symtable, relocations, results.debugFiles, results.debugLines, rfl⟩

end Lists

end Nazm.Output
