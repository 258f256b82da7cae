import Nazm.Passes.DataBytes
import Nazm.Passes.Source

/-!
The two passes agree on the layout.

Owns the total correctness of the walk of pass 2: after a pass 1 without
errors it never stops, whatever source errors it reports, and at every
statement it has reached the layout pass 1 had reached there.

Does not own the bytes that it writes.
-/

namespace Nazm.Passes

open Nazm.Encoder Nazm.Parser Nazm.Lexer Nazm.Symtable Nazm.Unicode Nazm.Diagnostics

/-- The layout reached by pass 2. -/
def Pass2State.layout (state : Pass2State) : Layout := ⟨state.currentSection, state.result.sizes⟩

@[simp] theorem emit_layout (state : Pass2State) (section_ : SymbolSection) (offset size : Nat) :
    (state.emit section_ offset size).layout = state.layout := rfl

@[simp] theorem emitNothing_layout (state : Pass2State) : state.emitNothing.layout = state.layout :=
  rfl

/-! ## Instructions -/

/-- An instruction that encodes is one that was sized. -/
theorem instructionSize_of_encoded {instr : Instruction} {resolvedTarget : Int64}
    {bytes : List UInt8}
    (encoded : encoderEncode instr.opcode instr.ops resolvedTarget = some bytes) :
    bytes.length = instructionSize instr := by
  have length := encoderEncode_length encoded
  have positive := List.length_pos_iff.mpr (encoderEncode_ne_nil encoded)
  rw [instructionSize, if_neg (by omega), length]

theorem instructionSize_bounds (instr : Instruction) :
    0 < instructionSize instr ∧ instructionSize instr ≤ 15 := by
  have bound := encoderInstructionSize_le instr.opcode instr.ops
  unfold instructionSize
  dsimp only
  split
  · decide
  · omega

/-- An admitted operand count, as the field lemmas take it. -/
theorem nullary_of_arityChecked {instr : Instruction} (checked : ArityChecked instr)
    (named : instr.opcode ≠ .invalid) : getArity instr.opcode = (0, 0) → instr.ops = [] :=
  nil_of_arityAdmits (checked named)

theorem fillNops_goesOn {textCap : Nat} {state : Pass2State} {instr : Instruction} {sz : Nat}
    (text : state.currentSection = .text)
    (room : state.result.textBytes.length + sz ≤ textCap) :
    ∃ next, fillNops textCap state instr sz = .ok next ∧
      next.layout = ⟨.text, state.result.sizes.add .text sz⟩ := by
  have fits : state.result.textBytes.length + (List.replicate sz (0x90 : UInt8)).length ≤ textCap := by
    rw [List.length_replicate]
    exact room
  refine ⟨_, by rw [fillNops, bufferFill, bufferAppend_of_fits fits], ?_⟩
  simp [Pass2State.layout, Pass2State.emit, text, Pass2Result.sizes, SectionSizes.add]

theorem appendInstruction_goesOn {textCap : Nat} {state : Pass2State} {instr : Instruction}
    {sz : Nat} {bytes : List UInt8} (text : state.currentSection = .text)
    (sized : bytes.length = sz)
    (holdsField : instr.ops.any isRipRelativeSymbolOperand = true → 4 ≤ bytes.length)
    (room : state.result.textBytes.length + sz ≤ textCap) :
    ∃ next, appendInstruction textCap state instr sz bytes = .ok next ∧
      next.layout = ⟨.text, state.result.sizes.add .text sz⟩ := by
  have fits : state.result.textBytes.length + bytes.length ≤ textCap := by rw [sized]; exact room
  have holds : ¬((instr.ops.any isRipRelativeSymbolOperand && decide (bytes.length < 4)) = true) := by
    rw [Bool.and_eq_true, decide_eq_true_eq]
    rintro ⟨rip, short⟩
    have long := holdsField rip
    omega
  refine ⟨_, by
    simp only [appendInstruction, if_neg (not_not.mpr sized), if_neg holds,
      bufferAppend_of_fits fits]
    rfl, ?_⟩
  simp [Pass2State.layout, Pass2State.emit, text, Pass2Result.sizes, SectionSizes.add, sized]

theorem pass2Instruction_goesOn {instructions : InstructionList} {pass1 : Pass1Result}
    {state : Pass2State} {instr : Instruction} (text : state.currentSection = .text)
    (nullary : getArity instr.opcode = (0, 0) → instr.ops = [])
    (room : state.result.textBytes.length + instructionSize instr ≤ pass1.sizes.text) :
    ∃ next, pass2Instruction instructions pass1 state instr = .ok next ∧
      next.layout = ⟨.text, state.result.sizes.add .text (instructionSize instr)⟩ := by
  unfold pass2Instruction
  dsimp only
  split
  · exact fillNops_goesOn text room
  · split
    · exact fillNops_goesOn text room
    · next bytes encoded =>
        refine appendInstruction_goesOn text (instructionSize_of_encoded encoded) ?_ room
        exact fun rip => (encoderEncode_ripField nullary encoded rip).2.1.four_le

/-! ## Data directives -/

theorem sizes_setSectionBytes {result : Pass2Result} {section_ : SymbolSection}
    (written : section_ = .data ∨ section_ = .readOnlyData) (added : List UInt8) :
    (result.setSectionBytes section_ (result.sectionBytes section_ ++ added)).sizes =
      result.sizes.add section_ added.length := by
  rcases written with rfl | rfl <;>
    simp [Pass2Result.setSectionBytes, Pass2Result.sectionBytes, Pass2Result.sizes,
      SectionSizes.add]

theorem length_sectionBytes {result : Pass2Result} {section_ : SymbolSection}
    (written : section_ = .data ∨ section_ = .readOnlyData) :
    (result.sectionBytes section_).length = result.sizes.get section_ := by
  rcases written with rfl | rfl <;> rfl

theorem pass2SectionCapacity_eq {pass1 : Pass1Result} {section_ : SymbolSection}
    (written : section_ = .data ∨ section_ = .readOnlyData) :
    pass2SectionCapacity pass1 section_ = pass1.sizes.get section_ := by
  rcases written with rfl | rfl <;> rfl

theorem pass2DataBytes_goesOn {instructions : InstructionList} {pass1 : Pass1Result}
    {state : Pass2State} {instr : Instruction} {expected : Int}
    (written : state.currentSection = .data ∨ state.currentSection = .readOnlyData)
    (sized : expected = (dataDirectiveBytes instr
      (state.result.sizes.get state.currentSection)).length)
    (room : state.result.sizes.get state.currentSection + expected.toNat ≤
      pass1.sizes.get state.currentSection) :
    ∃ next, pass2DataBytes instructions pass1 state instr expected = .ok next ∧
      next.layout = ⟨state.currentSection,
        state.result.sizes.add state.currentSection expected.toNat⟩ := by
  have length := @length_sectionBytes state.result _ written
  have emitted : emitDataDirective instr (pass2SectionCapacity pass1 state.currentSection)
      (state.result.sectionBytes state.currentSection) =
      (state.result.sectionBytes state.currentSection ++
        dataDirectiveBytes instr (state.result.sizes.get state.currentSection), true) := by
    have fits := @emitDataDirective_of_fits instr
      (pass2SectionCapacity pass1 state.currentSection)
      (state.result.sectionBytes state.currentSection)
    rw [length] at fits
    refine fits ?_
    rw [pass2SectionCapacity_eq written]
    omega
  -- whatever the symbol operands add, the buffers are those of the state
  have sizes : ∀ relocations errors added,
      (({ state.result with relocations := relocations, errors := errors }).setSectionBytes
        state.currentSection (state.result.sectionBytes state.currentSection ++ added)).sizes =
      state.result.sizes.add state.currentSection added.length := by
    intro relocations errors added
    have result := @sizes_setSectionBytes
      { state.result with relocations := relocations, errors := errors } _ written added
    have bytes : ({ state.result with relocations := relocations, errors := errors }).sectionBytes
        state.currentSection = state.result.sectionBytes state.currentSection := by
      rcases written with same | same <;> rw [same] <;> rfl
    rw [bytes] at result
    exact result
  have actual : ((((state.result.sectionBytes state.currentSection ++
      dataDirectiveBytes instr (state.result.sizes.get state.currentSection)).length -
      (state.result.sectionBytes state.currentSection).length : Nat) : Int)) = expected := by
    rw [List.length_append, Nat.add_sub_cancel_left, sized]
  unfold pass2DataBytes
  dsimp only
  rw [emitted]
  dsimp only
  rw [if_neg (by simp), if_neg (not_not.mpr actual)]
  refine ⟨_, rfl, ?_⟩
  rw [emit_layout]
  simp only [Pass2State.layout, sizes, sized, Int.toNat_natCast]

theorem pass2DataDirective_goesOn {instructions : InstructionList} {pass1 : Pass1Result}
    {state : Pass2State} {instr : Instruction} (notText : state.currentSection ≠ .text)
    (isData : isDataDirective instr.directiveKind = true)
    (faultless : dataDirectiveFault instr = none) (small : operandsWeight instr.ops < 2 ^ 31)
    (room : state.result.sizes.get state.currentSection +
      (dataDirectiveSizeAt instr (state.result.sizes.get state.currentSection)).toNat ≤
      pass1.sizes.get state.currentSection) :
    ∃ next, pass2DataDirective instructions pass1 state instr = .ok next ∧
      next.layout = ⟨state.currentSection, state.result.sizes.add state.currentSection
        (dataDirectiveSizeAt instr (state.result.sizes.get state.currentSection)).toNat⟩ := by
  have sized := dataDirectiveSizeAt_eq isData faultless small
    (state.result.sizes.get state.currentSection)
  unfold pass2DataDirective
  dsimp only
  rw [if_neg notText, if_neg (by omega)]
  split
  · next bss =>
      refine ⟨_, rfl, ?_⟩
      simp [Pass2State.layout, Pass2State.emitNothing, Pass2State.emit, bss, Pass2Result.sizes,
        SectionSizes.add, SectionSizes.get]
  · next notBss =>
      have written : state.currentSection = .data ∨ state.currentSection = .readOnlyData := by
        cases section_ : state.currentSection <;> simp [section_] at notText notBss ⊢
      exact pass2DataBytes_goesOn written sized room

/-! ## Steps and walks -/

/-- Pass 2 goes on after every statement that pass 1 accepts, where the section
has the room that pass 1 computed. -/
theorem pass2Step_goesOn {instructions : InstructionList} {pass1 : Pass1Result}
    {state : Pass2State} {instr : Instruction}
    (accepted : StatementAccepted state.currentSection instr) (checked : ArityChecked instr)
    (small : operandsWeight instr.ops < 2 ^ 31)
    (room : ∀ section_, (state.layout.place instr).sizes.get section_ ≤ pass1.sizes.get section_) :
    ∃ next, pass2Step instructions pass1 state instr = .ok next ∧
      next.layout = state.layout.place instr := by
  have roomHere := room state.currentSection
  simp only [Layout.place, SectionSizes.get_add, Pass2State.layout, if_true] at roomHere
  have data : isDataDirective instr.directiveKind = true →
      pass2Step instructions pass1 state instr =
        pass2DataDirective instructions pass1 state instr →
      ∃ next, pass2Step instructions pass1 state instr = .ok next ∧
        next.layout = state.layout.place instr := by
    intro isData step
    have directive : instr.directiveKind ≠ .none := by
      intro none
      simp [none, isDataDirective] at isData
    simp only [Layout.statementSize, if_neg directive, isData, if_true, Layout.offset] at roomHere
    obtain ⟨next, turn, layout⟩ := @pass2DataDirective_goesOn instructions pass1 state instr
      (accepted.notText isData) isData (accepted.faultless isData) small roomHere
    refine ⟨next, step.trans turn, ?_⟩
    rw [layout, Layout.place_of_data _ isData]
    rfl
  cases kind : instr.directiveKind with
  | none =>
      rw [pass2Step, kind]
      dsimp only
      split
      · next empty =>
          refine ⟨_, rfl, ?_⟩
          simp only [emitNothing_layout, Layout.place, Layout.sectionAfter, Layout.statementSize,
            kind, sectionSwitch?, Option.getD_none, if_true]
          rw [if_pos (by exact empty), SectionSizes.add_zero]
      · next emits =>
          have text : state.currentSection = .text := by
            by_contra elsewhere
            exact emits (.inr elsewhere)
          have named : instr.opcode ≠ .invalid := fun invalid => emits (.inl invalid)
          simp only [Layout.statementSize, kind, if_true, text, named] at roomHere
          obtain ⟨next, turn, layout⟩ :=
            @pass2Instruction_goesOn instructions pass1 state instr text (nullary_of_arityChecked checked named)
              (by simpa [named, SectionSizes.get, Pass2Result.sizes] using roomHere)
          refine ⟨next, turn, ?_⟩
          rw [layout]
          simp [Layout.place, Layout.sectionAfter, Layout.statementSize, kind, sectionSwitch?,
            Pass2State.layout, text, named]
  | text | data | readOnlyData | bss =>
      rw [pass2Step, kind]
      refine ⟨_, rfl, ?_⟩
      rw [Layout.place_of_switch _ (by rw [kind]; rfl)]
      rfl
  | int8 | int16 | int32 | int64 | alignment | zeroSpace | nulString =>
      exact data (by rw [kind]; rfl) (by rw [pass2Step, kind])
  | invalid => exact absurd kind accepted.known
  | global | «local» | external | debugFile | debugFileBytes =>
      rw [pass2Step, kind]
      refine ⟨_, rfl, ?_⟩
      rw [Layout.place_of_aside _ (by rw [kind]; rfl) (by rw [kind]; rfl) (by simp [kind]),
        emitNothing_layout]
  | debugLocation =>
      rw [pass2Step, kind]
      dsimp only
      rw [Layout.place_of_aside _ (by rw [kind]; rfl) (by rw [kind]; rfl) (by simp [kind])]
      unfold pass2DebugLocation
      split
      · exact ⟨_, rfl, rfl⟩
      · exact ⟨_, rfl, rfl⟩

theorem operandsWeight_le_of_mem {statements : List Instruction} {instr : Instruction}
    (member : instr ∈ statements) : operandsWeight instr.ops ≤ instructionsWeight statements := by
  induction statements with
  | nil => contradiction
  | cons head tail inductionHypothesis =>
      rw [instructionsWeight_cons]
      rcases List.mem_cons.mp member with rfl | inTail
      · rw [instructionWeight]
        omega
      · have bound := inductionHypothesis inTail
        omega

/-- Pass 2 reaches the end of every list that pass 1 accepts, layout by layout. -/
theorem pass2Walk_goesOn {instructions : InstructionList}
    (accepted : errorHasAny (pass1Run instructions).errors = false)
    (checked : ∀ instr ∈ instructions.data, ArityChecked instr)
    (small : instructionsWeight instructions.data < 2 ^ 31)
    {before after : List Instruction} (split : instructions.data = before ++ after) :
    ∃ state, pass2Walk instructions (pass1Run instructions) before = .ok state ∧
      state.layout = Layout.after before := by
  refine Walk.run_total instructions.data
    (fun before (state : Pass2State) => state.layout = Layout.after before) rfl ?_ before after split
  intro before instr after state split _ layout
  have member : instr ∈ instructions.data := by rw [split]; simp
  have bound := operandsWeight_le_of_mem member
  have sectionSame : state.currentSection = (Layout.after before).section_ :=
    congrArg Layout.section_ layout
  obtain ⟨next, turn, nextLayout⟩ :=
    @pass2Step_goesOn instructions (pass1Run instructions) state instr
      (by rw [sectionSame]; exact statementAccepted accepted split)
      (checked instr member) (by omega)
      (by
        intro section_
        have grows := Layout.get_after_le (before ++ [instr]) after section_
        rw [layout, ← Layout.after_snoc, pass1Run_sizes accepted, split]
        simpa using grows)
  refine ⟨next, turn, ?_⟩
  rw [nextLayout, layout, Layout.after_snoc]

/-- The two passes agree: on a list parsed without error from a source within
the size limit, and accepted by pass 1, pass 2 stops for no internal error, at
every statement it has reached the section and the offsets of pass 1, and the
final sizes are equal. -/
theorem passes_agree (src : SourceBuffer) (limit : src.data.length ≤ nazmApiMaxSourceSize)
    (parsed : errorHasAny (sourceParse src).errors = false)
    (accepted : errorHasAny (sourcePass1 src).errors = false) :
    (∀ before after, (sourceInstructions src).data = before ++ after →
      ∃ state, pass2Walk (sourceInstructions src) (sourcePass1 src) before = .ok state ∧
        state.currentSection = (pass1Walk (sourceInstructions src) before).currentSection ∧
        state.result.sizes = (pass1Walk (sourceInstructions src) before).offsets) ∧
      (pass2Finish (sourcePass1 src)
        (pass2Walk (sourceInstructions src) (sourcePass1 src) (sourceInstructions src).data)).2 =
          none ∧
      (sourcePass2 src).sizes = (sourcePass1 src).sizes := by
  have small : instructionsWeight (sourceInstructions src).data < 2 ^ 31 := by
    have weight := parse_weight src
    rw [nazmApiMaxSourceSize] at limit
    exact Nat.lt_of_le_of_lt weight (by omega)
  have walk : ∀ before after, (sourceInstructions src).data = before ++ after →
      ∃ state, pass2Walk (sourceInstructions src) (sourcePass1 src) before = .ok state ∧
        state.layout = Layout.after before := fun before after split =>
    pass2Walk_goesOn accepted (parse_arity _ parsed) small split
  refine ⟨fun before after split => ?_, ?_⟩
  · obtain ⟨state, reached, layout⟩ := walk before after split
    have same : state.layout = (pass1Walk (sourceInstructions src) before).layout := by
      rw [layout, pass1Walk_layout accepted split]
    exact ⟨state, reached, congrArg Layout.section_ same, congrArg Layout.sizes same⟩
  · obtain ⟨state, reached, layout⟩ := walk _ _ (List.append_nil _).symm
    have sizes : state.result.sizes = (sourcePass1 src).sizes := by
      rw [sourcePass1, pass1Run_sizes accepted]
      exact congrArg Layout.sizes layout
    have finished : pass2Finish (sourcePass1 src)
        (pass2Walk (sourceInstructions src) (sourcePass1 src) (sourceInstructions src).data) =
        (state.result, none) := by
      rw [reached, pass2Finish]
      exact if_neg (not_not.mpr sizes)
    refine ⟨by rw [finished], ?_⟩
    rw [sourcePass2, pass2Run, finished]
    exact sizes

/-- A jump to an undefined label: pass 2 reports it and fills the jump with NOPs. -/
def undefinedJump : SourceBuffer := ⟨utf8 "اقفز مجهول\nارجع\n", none⟩

theorem passes_agree_undefinedJump :
    errorHasAny (sourcePass2 undefinedJump).errors = true ∧
      (∀ before after, (sourceInstructions undefinedJump).data = before ++ after →
        ∃ state,
          pass2Walk (sourceInstructions undefinedJump) (sourcePass1 undefinedJump) before =
            .ok state ∧
          state.currentSection =
            (pass1Walk (sourceInstructions undefinedJump) before).currentSection ∧
          state.result.sizes = (pass1Walk (sourceInstructions undefinedJump) before).offsets) ∧
      (pass2Finish (sourcePass1 undefinedJump)
        (pass2Walk (sourceInstructions undefinedJump) (sourcePass1 undefinedJump)
          (sourceInstructions undefinedJump).data)).2 = none ∧
      (sourcePass2 undefinedJump).sizes = (sourcePass1 undefinedJump).sizes :=
  ⟨by decide +kernel,
    passes_agree undefinedJump (by decide +kernel) (by decide +kernel) (by decide +kernel)⟩

end Nazm.Passes
