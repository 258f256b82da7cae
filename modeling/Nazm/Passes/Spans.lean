import Nazm.Library.FieldEdits
import Nazm.Passes.Image

/-!
The emission spans of an accepted program.

Owns where the span of each statement stands in the result of pass 2, and that
the bytes under it are the bytes of the statement.

Does not own what the bytes mean.
-/

namespace Nazm.Passes

open FieldEdits
open Nazm.Encoder Nazm.Parser Nazm.Lexer Nazm.Symtable Nazm.Diagnostics

/-! ## Bytes under a span -/

/-- The bytes that an emission span covers. -/
def Pass2Result.spanBytes (result : Pass2Result) (span : EmissionSpan) : List UInt8 :=
  slice (result.bytesIn span.section_) span.offset span.size

theorem length_bytesIn (result : Pass2Result) {section_ : SymbolSection}
    (hasBytes : section_ ≠ .bss) :
    (result.bytesIn section_).length = result.sizes.get section_ := by
  cases section_ <;> first | rfl | contradiction

theorem slice_zero {α : Type} (list : List α) (offset : Nat) : slice list offset 0 = [] :=
  List.take_zero

section Statements

variable {symtable : SymbolTable} {layout : Layout} {instr : Instruction}

theorem Layout.Emits.statementBytes_eq (emits : layout.Emits instr) :
    statementBytes symtable layout instr =
      (instructionBytes symtable instr layout.sizes.text).getD [] :=
  if_pos emits

theorem Layout.Stores.not_emits (stores : layout.Stores instr) : ¬ layout.Emits instr := by
  rintro ⟨none, -⟩
  have isData := stores.1
  rw [none] at isData
  contradiction

theorem Layout.Stores.statementBytes_eq (stores : layout.Stores instr) :
    statementBytes symtable layout instr = dataDirectiveBytes instr layout.offset := by
  rw [statementBytes, if_neg stores.not_emits, if_pos stores]

/-- The span of an instruction in `.text`. -/
theorem Layout.Emits.statementSpan_eq (emits : layout.Emits instr) :
    statementSpan layout instr = ⟨.text, layout.sizes.text, instructionSize instr⟩ := by
  obtain ⟨none, named, text⟩ := emits
  simp [statementSpan, Layout.sectionAfter, Layout.statementSize, none, named, text, sectionSwitch?,
    SectionSizes.get]

/-- The span of a data directive in a section with bytes. -/
theorem Layout.Stores.statementSpan_eq (stores : layout.Stores instr) :
    statementSpan layout instr =
      ⟨layout.section_, layout.offset, layout.statementSize instr⟩ := by
  have placed := layout.place_of_data stores.1
  have stays : layout.sectionAfter instr = layout.section_ := congrArg Layout.section_ placed
  have notBss : layout.section_ ≠ .bss := by
    rcases stores.2 with data | readOnly
    · simp [data]
    · simp [readOnly]
  rw [statementSpan, stays, if_neg notBss]
  rfl

/-- Every other statement that is accepted covers nothing. -/
theorem statementSpan_size_of_empty (accepted : StatementAccepted layout.section_ instr)
    (notEmits : ¬ layout.Emits instr) (notStores : ¬ layout.Stores instr) :
    (statementSpan layout instr).size = 0 := by
  unfold statementSpan Layout.statementSize
  dsimp only
  split
  · rfl
  · next notBss =>
      split
      · next none =>
          rw [if_pos]
          by_contra both
          rw [not_or, ne_eq, not_not] at both
          exact notEmits ⟨none, both.1, both.2⟩
      · split
        · next isData =>
            have written : layout.section_ = .data ∨ layout.section_ = .readOnlyData := by
              have notText := accepted.notText isData
              cases section_ : layout.section_ <;> simp [section_] at notBss notText ⊢
            exact absurd ⟨isData, written⟩ notStores
        · rfl

theorem statementBytes_of_empty (notEmits : ¬ layout.Emits instr)
    (notStores : ¬ layout.Stores instr) : statementBytes symtable layout instr = [] := by
  rw [statementBytes, if_neg notEmits, if_neg notStores]

/-- A statement fills its span. -/
theorem length_statementBytes (accepted : StatementAccepted layout.section_ instr)
    (checked : StatementChecked symtable layout instr) :
    (statementBytes symtable layout instr).length = (statementSpan layout instr).size := by
  by_cases emits : layout.Emits instr
  · obtain ⟨bytes, encoded⟩ := checked.encoded emits
    rw [emits.statementBytes_eq, emits.statementSpan_eq, encoded]
    exact instructionSize_of_encoded encoded
  · by_cases stores : layout.Stores instr
    · rw [stores.statementBytes_eq, stores.statementSpan_eq, checked.stored stores]
    · rw [statementBytes_of_empty emits stores, statementSpan_size_of_empty accepted emits stores]
      rfl

end Statements

/-! ## The span of a statement -/

theorem sectionImage_split (symtable : SymbolTable) (section_ : SymbolSection)
    (before after : List Instruction) (instr : Instruction) :
    ∃ back, sectionImage symtable section_ (before ++ instr :: after) =
      sectionImage symtable section_ before ++
        (if (Layout.after before).section_ = section_ then
          statementBytes symtable (Layout.after before) instr
        else []) ++ back := by
  refine ⟨((Layout.after (before ++ [instr])).places after).flatMap fun place =>
    if place.1.section_ = section_ then statementBytes symtable place.1 place.2 else [], ?_⟩
  rw [← sectionImage_snoc, sectionImage, sectionImage, ← List.flatMap_append,
    List.append_cons, Layout.places_append Layout.start (before ++ [instr])]
  rfl

section Programs

variable {instructions : InstructionList}

/-- The image of the statements before a point is as long as pass 1 counted. -/
theorem length_sectionImage (accepted : ProgramAccepted instructions)
    {before after : List Instruction} (split : instructions.data = before ++ after)
    {section_ : SymbolSection} (hasBytes : section_ ≠ .bss) :
    (sectionImage (pass1Run instructions).symtable section_ before).length =
      (Layout.after before).sizes.get section_ := by
  obtain ⟨state, reached, -⟩ := pass2Walk_clean accepted.encoded split
  have holds := pass2Walk_image accepted split reached
  rw [← holds.bytes, length_bytesIn _ hasBytes, ← holds.layout]
  rfl

/-- The span of a statement, at the index of the statement. -/
theorem emissions_getElem? (accepted : ProgramAccepted instructions)
    {before after : List Instruction} {instr : Instruction}
    (split : instructions.data = before ++ instr :: after) :
    (pass2Run instructions (pass1Run instructions)).emissions[before.length]? =
      some (statementSpan (Layout.after before) instr) := by
  rw [(pass2Run_image accepted).2.2.1, split, programSpans, Layout.places_append, List.map_append,
    List.getElem?_append_right]
  · have front := length_programSpans before
    rw [programSpans] at front
    rw [front, Nat.sub_self]
    rfl
  · exact Nat.le_of_eq (length_programSpans before)

/-- The bytes under the span of a statement are the bytes of the statement. -/
theorem spanBytes_statementSpan (accepted : ProgramAccepted instructions)
    {before after : List Instruction} {instr : Instruction}
    (split : instructions.data = before ++ instr :: after) :
    (pass2Run instructions (pass1Run instructions)).spanBytes
        (statementSpan (Layout.after before) instr) =
      statementBytes (pass1Run instructions).symtable (Layout.after before) instr := by
  have sized := length_statementBytes (statementAccepted accepted.sized split)
    (statementChecked accepted split)
  by_cases empty : statementBytes (pass1Run instructions).symtable (Layout.after before) instr = []
  · rw [empty, List.length_nil] at sized
    rw [Pass2Result.spanBytes, ← sized, slice_zero, empty]
  · -- only statements that stay in a section with bytes have bytes
    obtain ⟨here, offset, hasBytes⟩ : (statementSpan (Layout.after before) instr).section_ =
        (Layout.after before).section_ ∧
        (statementSpan (Layout.after before) instr).offset = (Layout.after before).offset ∧
        (Layout.after before).section_ ≠ .bss := by
      by_cases emits : (Layout.after before).Emits instr
      · rw [emits.statementSpan_eq]
        refine ⟨emits.2.2.symm, ?_, by simp [emits.2.2]⟩
        rw [Layout.offset, emits.2.2]
        rfl
      · by_cases stores : (Layout.after before).Stores instr
        · rw [stores.statementSpan_eq]
          refine ⟨rfl, rfl, ?_⟩
          rcases stores.2 with data | readOnly
          · simp [data]
          · simp [readOnly]
        · exact absurd (statementBytes_of_empty emits stores) empty
    obtain ⟨back, image⟩ := sectionImage_split (pass1Run instructions).symtable
      (Layout.after before).section_ before after instr
    rw [if_pos rfl] at image
    rw [Pass2Result.spanBytes, here, offset, ← sized, (pass2Run_image accepted).1, split, image,
      Layout.offset, ← length_sectionImage accepted split hasBytes, slice_middle]

end Programs

section Sources

variable {src : SourceBuffer} {before after : List Instruction} {instr : Instruction}

theorem Accepted.emission (accepted : Accepted src)
    (split : (sourceInstructions src).data = before ++ instr :: after) :
    (sourcePass2 src).emissions[before.length]? =
      some (statementSpan (Layout.after before) instr) :=
  emissions_getElem? accepted.program split

theorem Accepted.spanBytes (accepted : Accepted src)
    (split : (sourceInstructions src).data = before ++ instr :: after) :
    (sourcePass2 src).spanBytes (statementSpan (Layout.after before) instr) =
      statementBytes (sourcePass1 src).symtable (Layout.after before) instr :=
  spanBytes_statementSpan accepted.program split

end Sources

end Nazm.Passes
