import Nazm.Library.Tiling
import Nazm.Passes.Spans

/-!
Emission spans tile the sections.

Owns that pass 2 records one span for each statement, and that the spans of a
section with bytes lie one after the other, from offset zero to the size of the
section.

Does not own the bytes under a span.
-/

namespace Nazm.Passes

open Tiling
open Nazm.Encoder Nazm.Parser Nazm.Lexer Nazm.Symtable Nazm.Unicode Nazm.Diagnostics

/-! ## One turn -/

/-- A turn that lays its statement out and records its span. -/
structure SpanTurn (state next : Pass2State) (instr : Instruction) : Prop where
  layout : next.layout = state.layout.place instr
  emissions : next.result.emissions =
    state.result.emissions ++ [statementSpan state.layout instr]

section Turns

variable {instructions : InstructionList} {pass1 : Pass1Result} {state next : Pass2State}
  {instr : Instruction}

/-- An instruction in `.text` of the predicted size. -/
theorem spanTurn_of_emits (emits : state.layout.Emits instr)
    (nextSection : next.currentSection = state.currentSection)
    (sizes : next.result.sizes = state.result.sizes.add .text (instructionSize instr))
    (emissions : next.result.emissions = state.result.emissions ++
      [⟨.text, state.result.textBytes.length, instructionSize instr⟩]) :
    SpanTurn state next instr where
  layout := by
    obtain ⟨none, named, text⟩ := emits
    have section_ : state.currentSection = .text := text
    simp [Pass2State.layout, Layout.place, Layout.sectionAfter, Layout.statementSize, nextSection,
      sizes, none, named, section_, sectionSwitch?]
  emissions := by
    rw [emissions, emits.statementSpan_eq]
    rfl

/-- What the NOPs of a failed instruction do, where they go on. -/
theorem fillNops_ok {textCap sz : Nat} (turn : fillNops textCap state instr sz = .ok next) :
    next.currentSection = state.currentSection ∧
      next.result =
        { state.result with
          textBytes := state.result.textBytes ++ List.replicate sz 0x90
          emissions := state.result.emissions ++ [⟨.text, state.result.textBytes.length, sz⟩] } := by
  unfold fillNops at turn
  split at turn
  · contradiction
  · next bytes fill =>
      obtain ⟨-, rfl⟩ := bufferAppend_eq_some.mp fill
      obtain rfl := Except.ok.inj turn
      exact ⟨rfl, rfl⟩

/-- An instruction has its span whether it is encoded or replaced by NOPs. -/
theorem pass2Instruction_spans (emits : state.layout.Emits instr)
    (turn : pass2Instruction instructions pass1 state instr = .ok next) :
    SpanTurn state next instr := by
  unfold pass2Instruction at turn
  dsimp only at turn
  split at turn
  · obtain ⟨nextSection, result⟩ := fillNops_ok turn
    refine spanTurn_of_emits emits nextSection ?_ (by rw [result])
    simp only [result, Pass2Result.sizes, SectionSizes.add, List.length_append,
      List.length_replicate]
  · split at turn
    · obtain ⟨nextSection, result⟩ := fillNops_ok turn
      refine spanTurn_of_emits emits nextSection ?_ (by rw [result])
      simp only [result, Pass2Result.sizes, SectionSizes.add, List.length_append,
        List.length_replicate]
    · obtain ⟨sized, nextSection, result⟩ := appendInstruction_ok turn
      refine spanTurn_of_emits emits nextSection ?_ ?_
      · simp only [result, Pass2Result.sizes, SectionSizes.add, List.length_append, sized]
      · simp only [result, sized]

theorem pass2Step_spans (accepted : StatementAccepted state.currentSection instr)
    (turn : pass2Step instructions pass1 state instr = .ok next)
    (clean : errorHasAny next.result.errors = false) : SpanTurn state next instr := by
  by_cases emits : state.layout.Emits instr
  · have step : pass2Step instructions pass1 state instr =
        pass2Instruction instructions pass1 state instr := by
      rw [pass2Step, emits.1]
      exact if_neg fun nothing => nothing.elim emits.2.1 fun elsewhere => elsewhere emits.2.2
    rw [step] at turn
    exact pass2Instruction_spans emits turn
  · have image := pass2Step_clean accepted turn clean
    exact ⟨image.layout, image.emissions⟩

end Turns

/-! ## Runs -/

/-- The passes record the spans of the layout, and end at its sizes. -/
theorem pass2Run_spans {instructions : InstructionList}
    (sized : errorHasAny (pass1Run instructions).errors = false)
    (encoded : errorHasAny (pass2Run instructions (pass1Run instructions)).errors = false) :
    (pass2Run instructions (pass1Run instructions)).emissions = programSpans instructions.data ∧
      (pass2Run instructions (pass1Run instructions)).sizes =
        (Layout.after instructions.data).sizes := by
  have invariant : ∀ {before after : List Instruction} {state : Pass2State},
      instructions.data = before ++ after →
      pass2Walk instructions (pass1Run instructions) before = .ok state →
      state.layout = Layout.after before ∧ state.result.emissions = programSpans before := by
    intro before after state split reached
    refine Walk.run_invariant instructions.data (fun before (state : Pass2State) =>
      state.layout = Layout.after before ∧ state.result.emissions = programSpans before)
      ⟨rfl, rfl⟩ ?_ split reached
    intro before instr after state next split reached holds turn
    obtain ⟨final, walked, finalClean⟩ :=
      @pass2Walk_clean _ encoded (before ++ [instr]) after (by simpa using split)
    have same : final = next :=
      Except.ok.inj (walked.symm.trans (Walk.run_snoc_of_ok reached turn))
    have accepted := statementAccepted sized split
    rw [← holds.1] at accepted
    have added := pass2Step_spans accepted turn (same ▸ finalClean)
    exact ⟨by rw [added.layout, holds.1, Layout.after_snoc],
      by rw [added.emissions, holds.1, holds.2, programSpans_snoc]⟩
  obtain ⟨state, walked, result, -⟩ := pass2Run_clean encoded
  obtain ⟨layout, emissions⟩ := invariant (List.append_nil _).symm walked
  rw [result]
  exact ⟨emissions, congrArg Layout.sizes layout⟩

/-! ## Sections -/

/-- The spans of a section, in the order of the statements. -/
def spansIn (spans : List EmissionSpan) (section_ : SymbolSection) : List EmissionSpan :=
  spans.filter fun span => decide (span.section_ = section_)

theorem spansIn_snoc (before : List Instruction) (instr : Instruction) (section_ : SymbolSection) :
    spansIn (programSpans (before ++ [instr])) section_ =
      spansIn (programSpans before) section_ ++
        (if (Layout.after before).sectionAfter instr = section_ then
          [statementSpan (Layout.after before) instr]
        else []) := by
  rw [programSpans_snoc, spansIn, List.filter_append]
  congr 1
  simp [List.filter_cons, statementSpan]

/-- The span of a statement takes what the statement adds to its section. -/
theorem place_size (layout : Layout) (instr : Instruction) {section_ : SymbolSection}
    (hasBytes : section_ ≠ .bss) :
    (layout.place instr).sizes.get section_ = layout.sizes.get section_ +
      (if layout.sectionAfter instr = section_ then (statementSpan layout instr).size else 0) := by
  cases switch : sectionSwitch? instr.directiveKind with
  | none =>
      have stays : layout.sectionAfter instr = layout.section_ := by
        rw [Layout.sectionAfter, switch, Option.getD_none]
      simp only [Layout.place, SectionSizes.get_add, stays, statementSpan]
      by_cases here : layout.section_ = section_
      · simp [here, hasBytes]
      · simp [here]
  | some target =>
      rw [Layout.place_of_switch layout switch]
      have directive : instr.directiveKind ≠ .none := by
        intro none
        rw [none] at switch
        contradiction
      have noData := noData_of_switch switch
      simp [statementSpan, Layout.statementSize, directive, noData]

/-- The spans of a section with bytes tile it. -/
theorem programSpans_contiguous (statements : List Instruction) {section_ : SymbolSection}
    (hasBytes : section_ ≠ .bss) :
    Contiguous EmissionSpan.offset EmissionSpan.size 0
      (spansIn (programSpans statements) section_)
      ((Layout.after statements).sizes.get section_) := by
  induction statements using List.reverseRecOn with
  | nil => cases section_ <;> rfl
  | append_singleton before instr inductionHypothesis =>
      rw [spansIn_snoc, Layout.after_snoc, place_size _ _ hasBytes]
      split
      · next here =>
          refine inductionHypothesis.snoc ?_
          rw [statementSpan, here]
      · rw [List.append_nil, Nat.add_zero]
        exact inductionHypothesis

/-- The spans of `.bss` are empty, and only move forward. -/
structure BssSpans (spans : List EmissionSpan) (size : Nat) : Prop where
  empty : ∀ span ∈ spansIn spans .bss, span.size = 0
  ordered : (spansIn spans .bss).Pairwise fun first second => first.offset ≤ second.offset
  inside : ∀ span ∈ spansIn spans .bss, span.offset ≤ size

theorem statementSpan_of_bss (layout : Layout) {instr : Instruction}
    (here : layout.sectionAfter instr = .bss) :
    (statementSpan layout instr).size = 0 ∧
      (statementSpan layout instr).offset = layout.sizes.bss := by
  refine ⟨?_, by rw [statementSpan, here]; rfl⟩
  cases switch : sectionSwitch? instr.directiveKind with
  | none =>
      rw [Layout.sectionAfter, switch, Option.getD_none] at here
      rw [statementSpan, if_pos here]
  | some target =>
      have directive : instr.directiveKind ≠ .none := by
        intro none
        rw [none] at switch
        contradiction
      simp [statementSpan, Layout.statementSize, directive, noData_of_switch switch]

theorem programSpans_bss (statements : List Instruction) :
    BssSpans (programSpans statements) (Layout.after statements).sizes.bss := by
  induction statements using List.reverseRecOn with
  | nil => exact ⟨by simp [programSpans, Layout.places, spansIn], .nil,
      by simp [programSpans, Layout.places, spansIn]⟩
  | append_singleton before instr inductionHypothesis =>
      obtain ⟨empty, ordered, inside⟩ := inductionHypothesis
      have grows := (Layout.after before).get_le_place instr .bss
      simp only [SectionSizes.get] at grows
      rw [Layout.after_snoc]
      by_cases here : (Layout.after before).sectionAfter instr = .bss
      · obtain ⟨size, offset⟩ := statementSpan_of_bss _ here
        have added := spansIn_snoc before instr .bss
        rw [if_pos here] at added
        refine ⟨?_, ?_, ?_⟩
        · rw [added]
          simp only [List.mem_append, List.mem_singleton]
          rintro span (earlier | rfl)
          · exact empty span earlier
          · exact size
        · rw [added, List.pairwise_append]
          refine ⟨ordered, List.pairwise_singleton _ _, fun first inFront second isLast => ?_⟩
          rw [List.mem_singleton.mp isLast, offset]
          exact inside first inFront
        · rw [added]
          simp only [List.mem_append, List.mem_singleton]
          rintro span (earlier | rfl)
          · have before := inside span earlier
            omega
          · omega
      · have added := spansIn_snoc before instr .bss
        rw [if_neg here, List.append_nil] at added
        rw [← added] at empty ordered inside
        exact ⟨empty, ordered, fun span member => Nat.le_trans (inside span member) grows⟩

/-- The spans of a section with bytes: they lie one after the other from offset
zero to its size, apart, and each byte is in one of them. -/
structure SectionTiled (spans : List EmissionSpan) (section_ : SymbolSection) (size : Nat) :
    Prop where
  contiguous : Contiguous EmissionSpan.offset EmissionSpan.size 0 (spansIn spans section_) size
  apart : (spansIn spans section_).Pairwise fun first second =>
    first.offset + first.size ≤ second.offset
  owned : ∀ place < size, spans.countP (fun span =>
    decide (span.section_ = section_) && covers EmissionSpan.offset EmissionSpan.size place span) =
      1

theorem sectionTiled_of_contiguous {spans : List EmissionSpan} {section_ : SymbolSection}
    {size : Nat} (contiguous : Contiguous EmissionSpan.offset EmissionSpan.size 0
      (spansIn spans section_) size) : SectionTiled spans section_ size where
  contiguous := contiguous
  apart := contiguous.apart
  owned place less := by
    have once := contiguous.covered (Nat.zero_le place) less
    rw [spansIn, List.countP_filter] at once
    rw [← once]
    exact List.countP_congr fun span _ => by rw [Bool.and_comm]

/-- Emission spans tile the sections: one span for each statement; in each
section with bytes they cover it from start to end, and in `.bss` they are empty. -/
theorem spans_tile_sections (instructions : InstructionList)
    (sized : errorHasAny (pass1Run instructions).errors = false)
    (encoded : errorHasAny (pass2Run instructions (pass1Run instructions)).errors = false) :
    let result := pass2Run instructions (pass1Run instructions)
    result.emissions.length = instructions.data.length ∧
      SectionTiled result.emissions .text result.textBytes.length ∧
      SectionTiled result.emissions .data result.dataBytes.length ∧
      SectionTiled result.emissions .readOnlyData result.readOnlyDataBytes.length ∧
      BssSpans result.emissions result.bssSize := by
  obtain ⟨emissions, sizes⟩ := pass2Run_spans sized encoded
  have contiguous := fun section_ => @programSpans_contiguous instructions.data section_
  simp only [← emissions, ← sizes] at contiguous
  have bss := programSpans_bss instructions.data
  rw [← emissions, ← sizes] at bss
  refine ⟨by rw [emissions, length_programSpans], ?_, ?_, ?_, bss⟩
  · exact sectionTiled_of_contiguous (contiguous .text (by decide))
  · exact sectionTiled_of_contiguous (contiguous .data (by decide))
  · exact sectionTiled_of_contiguous (contiguous .readOnlyData (by decide))

/-- Sections left and entered again, with alignment padding. -/
def interleavedSections : SourceBuffer :=
  ⟨utf8 (".بيانات\n.عدد٨ 1\n.نص\nارجع\n.بيانات\n.محاذاة 4\n.عدد٣٢ 7\n" ++
    ".غير_مهيأة\n.مساحة_صفرية 3\n.نص\nارجع\n"), none⟩

theorem spans_tile_interleavedSections :
    (spansIn (sourcePass2 interleavedSections).emissions .data =
        [⟨.data, 0, 0⟩, ⟨.data, 0, 1⟩, ⟨.data, 1, 0⟩, ⟨.data, 1, 3⟩, ⟨.data, 4, 4⟩] ∧
      (sourcePass2 interleavedSections).dataBytes.length = 8) ∧
      SectionTiled (sourcePass2 interleavedSections).emissions .data
        (sourcePass2 interleavedSections).dataBytes.length :=
  ⟨by decide +kernel,
    (spans_tile_sections (sourceInstructions interleavedSections) (by decide +kernel)
      (by decide +kernel)).2.2.1⟩

end Nazm.Passes
