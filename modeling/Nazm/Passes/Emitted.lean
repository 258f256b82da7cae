import Nazm.Passes.Labels
import Nazm.Passes.Spans

/-!
Which instructions pass 2 emits.

Owns what it means that no instruction of a source vanishes, and exactly when
that is so.

Does not own where branches go.
-/

namespace Nazm.Passes

open Nazm.Encoder Nazm.Parser Nazm.Lexer Nazm.Symtable Nazm.Unicode Nazm.Diagnostics

/-- The span of a statement holds what the encoder returns for it. -/
def InstructionEmitted (src : SourceBuffer) (index : Nat) (instr : Instruction) : Prop :=
  ∃ span bytes, (sourcePass2 src).emissions[index]? = some span ∧
    encoderEncode instr.opcode instr.ops
      (Int64.ofInt (branchDisplacement (sourcePass1 src).symtable instr span.offset)) =
        some bytes ∧
    (sourcePass2 src).spanBytes span = bytes

/-- No instruction of the source vanishes. -/
def InstructionsEmitted (src : SourceBuffer) : Prop :=
  ∀ before instr after, (sourceInstructions src).data = before ++ instr :: after →
    instr.opcode ≠ .invalid → InstructionEmitted src before.length instr

/-- Every instruction of the source stands in `.text`. -/
def InstructionsInText (src : SourceBuffer) : Prop :=
  ∀ before instr after, (sourceInstructions src).data = before ++ instr :: after →
    instr.opcode ≠ .invalid → currentSection before = .text

/-- A named opcode stands in a statement that is no directive. -/
theorem directiveKind_of_named {src : SourceBuffer} {instr : Instruction}
    (member : instr ∈ (sourceInstructions src).data) (named : instr.opcode ≠ .invalid) :
    instr.directiveKind = .none :=
  (parse_wellFormed src instr member).exclusive.resolve_left named

section Statements

variable {src : SourceBuffer} {before after : List Instruction} {instr : Instruction}

theorem instructionEmitted_of_text (accepted : Accepted src)
    (split : (sourceInstructions src).data = before ++ instr :: after)
    (named : instr.opcode ≠ .invalid) (text : currentSection before = .text) :
    InstructionEmitted src before.length instr := by
  have none := directiveKind_of_named (by rw [split]; simp) named
  have emits : (Layout.after before).Emits instr :=
    ⟨none, named, (currentSection_eq before).trans text⟩
  obtain ⟨bytes, encoded⟩ := (accepted.checked split).encoded emits
  have span := accepted.emission split
  have covered := accepted.spanBytes split
  rw [emits.statementBytes_eq, encoded] at covered
  refine ⟨_, bytes, span, ?_, covered⟩
  rw [emits.statementSpan_eq]
  exact encoded

/-- Outside `.text` the span is empty, and no encoding is. -/
theorem not_instructionEmitted (accepted : Accepted src)
    (split : (sourceInstructions src).data = before ++ instr :: after)
    (named : instr.opcode ≠ .invalid) (outside : (Layout.after before).section_ ≠ .text) :
    ¬ InstructionEmitted src before.length instr := by
  rintro ⟨span, bytes, isSpan, encoded, covered⟩
  have none := directiveKind_of_named (by rw [split]; simp) named
  have notEmits : ¬ (Layout.after before).Emits instr := fun emits => outside emits.2.2
  have notStores : ¬ (Layout.after before).Stores instr := by
    rintro ⟨isData, -⟩
    rw [none] at isData
    contradiction
  have here := (accepted.emission split).symm.trans isSpan
  rw [Option.some.injEq] at here
  have empty := accepted.spanBytes split
  rw [statementBytes_of_empty notEmits notStores, here] at empty
  exact encoderEncode_ne_nil encoded (covered.symm.trans empty)

end Statements

/-- No instruction vanishes exactly when every instruction stands in `.text`. -/
theorem instructions_emitted_iff (src : SourceBuffer) (accepted : Accepted src) :
    InstructionsEmitted src ↔ InstructionsInText src := by
  constructor
  · intro emitted before instr after split named
    by_contra outside
    rw [← currentSection_eq] at outside
    exact not_instructionEmitted accepted split named outside
      (emitted before instr after split named)
  · intro inText before instr after split named
    exact instructionEmitted_of_text accepted split named (inText before instr after split named)

theorem instructions_emitted_iff_return :
    InstructionsEmitted ⟨utf8 "ارجع\n", none⟩ ↔ InstructionsInText ⟨utf8 "ارجع\n", none⟩ :=
  instructions_emitted_iff _ (by decide +kernel)

/-- A return in `.بيانات`. -/
def returnInData : SourceBuffer := ⟨utf8 ".بيانات\nارجع\n", none⟩

theorem return_vanishes_in_data :
    Accepted returnInData ∧ (sourcePass2 returnInData).textBytes = [] ∧
      ¬ InstructionsEmitted returnInData := by
  have accepted : Accepted returnInData := by decide +kernel
  refine ⟨accepted, by decide +kernel, fun emitted => ?_⟩
  obtain ⟨⟨layout, instr⟩, member, named, outside⟩ :
      ∃ place ∈ Layout.start.places (sourceInstructions returnInData).data,
        place.2.opcode ≠ .invalid ∧ place.1.section_ ≠ .text := by decide +kernel
  obtain ⟨before, after, split, rfl⟩ := mem_places.mp member
  exact not_instructionEmitted accepted split named outside
    (emitted before instr after split named)

end Nazm.Passes
