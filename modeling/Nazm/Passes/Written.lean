import Nazm.Passes.Tiling

/-!
What pass 2 has written wherever it has arrived.

Owns that a turn that goes on lays its statement out and only appends, whatever
errors it reports, and what the turn of a data directive appends: so the bytes
of the directive stand at its offset in every later state.

Does not own what the bytes of a directive mean.
-/

namespace Nazm.Passes

open FieldEdits
open Nazm.Encoder Nazm.Parser Nazm.Lexer Nazm.Symtable Nazm.Unicode Nazm.Diagnostics

section Turns

variable {instructions : InstructionList} {pass1 : Pass1Result} {state next : Pass2State}
  {instr : Instruction}

/-! ## Data directives -/

/-- A turn that appends bytes to the current section, and its span. -/
structure DataWritten (state next : Pass2State) (added : List UInt8) : Prop where
  layout : next.layout = ⟨state.currentSection,
    state.result.sizes.add state.currentSection added.length⟩
  bytes : ∀ section_, next.result.bytesIn section_ =
    state.result.bytesIn section_ ++ (if state.currentSection = section_ then added else [])
  emissions : next.result.emissions = state.result.emissions ++
    [⟨state.currentSection, state.result.sizes.get state.currentSection, added.length⟩]

/-- A data directive that goes on in a section with bytes. -/
theorem pass2DataBytes_written {expected : Int}
    (written : state.currentSection = .data ∨ state.currentSection = .readOnlyData)
    (turn : pass2DataBytes instructions pass1 state instr expected = .ok next) :
    DataWritten state next
        (dataDirectiveBytes instr (state.result.sizes.get state.currentSection)) ∧
      ((dataDirectiveBytes instr (state.result.sizes.get state.currentSection)).length : Int) =
        expected := by
  obtain ⟨resolved, -, nextIs, sized⟩ := pass2DataBytes_ok turn
  rw [length_sectionBytes written] at nextIs sized
  generalize dataDirectiveBytes instr (state.result.sizes.get state.currentSection) = bytes
    at nextIs sized ⊢
  have same : ({ state.result with
      relocations := resolved.1, errors := resolved.2 }).sectionBytes state.currentSection =
      state.result.sectionBytes state.currentSection := by
    rcases written with same | same <;> rw [same] <;> rfl
  have buffer : state.result.sectionBytes state.currentSection =
      state.result.bytesIn state.currentSection := by
    rcases written with same | same <;> rw [same] <;> rfl
  refine ⟨⟨?_, fun other => ?_, ?_⟩, sized⟩
  · have sizes := @sizes_setSectionBytes { state.result with
      relocations := resolved.1, errors := resolved.2 } state.currentSection written bytes
    rw [same] at sizes
    rw [nextIs, emit_layout]
    exact congrArg (Layout.mk state.currentSection) sizes
  · rw [nextIs]
    simp only [Pass2State.emit]
    change (Pass2Result.setSectionBytes _ _ _).bytesIn other = _
    rw [bytesIn_setSectionBytes written, buffer]
    split
    · next here => rw [here]
    · rw [List.append_nil]
      cases other <;> rfl
  · rw [nextIs]
    have rest := (@setSectionBytes_rest { state.result with
      relocations := resolved.1, errors := resolved.2 } state.currentSection
      (state.result.sectionBytes state.currentSection ++ bytes)).2.1
    simp only [Pass2State.emit, rest]

/-- A data directive that goes on lays its bytes out. -/
theorem pass2DataDirective_layout (notText : state.currentSection ≠ .text)
    (turn : pass2DataDirective instructions pass1 state instr = .ok next) :
    next.layout = ⟨state.currentSection, state.result.sizes.add state.currentSection
      (dataDirectiveSizeAt instr (state.result.sizes.get state.currentSection)).toNat⟩ := by
  unfold pass2DataDirective at turn
  dsimp only at turn
  rw [if_neg notText] at turn
  split at turn
  · contradiction
  · split at turn
    · next bss =>
        obtain rfl := Except.ok.inj turn
        simp [Pass2State.layout, Pass2State.emitNothing, Pass2State.emit, bss, Pass2Result.sizes,
          SectionSizes.add, SectionSizes.get]
    · next notBss =>
        have written : state.currentSection = .data ∨ state.currentSection = .readOnlyData := by
          cases section_ : state.currentSection <;> simp [section_] at notText notBss ⊢
        obtain ⟨holds, sized⟩ := pass2DataBytes_written written turn
        rw [holds.layout, ← sized, Int.toNat_natCast]

/-! ## One turn -/

/-- A turn that goes on lays its statement out. -/
theorem pass2Step_layout (accepted : StatementAccepted state.currentSection instr)
    (turn : pass2Step instructions pass1 state instr = .ok next) :
    next.layout = state.layout.place instr := by
  have data : isDataDirective instr.directiveKind = true →
      pass2DataDirective instructions pass1 state instr = .ok next →
      next.layout = state.layout.place instr := by
    intro isData turn
    rw [pass2DataDirective_layout (accepted.notText isData) turn, Layout.place_of_data _ isData]
    rfl
  rw [pass2Step] at turn
  cases kind : instr.directiveKind with
  | none =>
      rw [kind] at turn
      dsimp only at turn
      split at turn
      · next empty =>
          obtain rfl := Except.ok.inj turn
          simp only [emitNothing_layout, Layout.place, Layout.sectionAfter, Layout.statementSize,
            kind, sectionSwitch?, Option.getD_none, if_true]
          rw [if_pos (by exact empty), SectionSizes.add_zero]
      · next emits =>
          rw [not_or, not_not] at emits
          exact (pass2Instruction_spans ⟨kind, emits⟩ turn).layout
  | text | data | readOnlyData | bss =>
      rw [kind] at turn
      obtain rfl := Except.ok.inj turn
      rw [Layout.place_of_switch _ (by rw [kind]; rfl)]
      rfl
  | int8 | int16 | int32 | int64 | alignment | zeroSpace | nulString =>
      rw [kind] at turn
      exact data (by rw [kind]; rfl) turn
  | invalid => exact absurd kind accepted.known
  | global | «local» | external | debugFile | debugFileBytes =>
      rw [kind] at turn
      obtain rfl := Except.ok.inj turn
      rw [Layout.place_of_aside _ (by rw [kind]; rfl) (by rw [kind]; rfl) (by simp [kind]),
        emitNothing_layout]
  | debugLocation =>
      rw [kind] at turn
      dsimp only at turn
      rw [Layout.place_of_aside _ (by rw [kind]; rfl) (by rw [kind]; rfl) (by simp [kind])]
      unfold pass2DebugLocation at turn
      split at turn <;> obtain rfl := Except.ok.inj turn <;> rfl

/-- Sections only grow at their end. -/
def Grows (state next : Pass2State) : Prop :=
  ∀ section_, state.result.bytesIn section_ <+: next.result.bytesIn section_

theorem Grows.of_text {text : List UInt8} (data : next.result.dataBytes = state.result.dataBytes)
    (readOnly : next.result.readOnlyDataBytes = state.result.readOnlyDataBytes)
    (added : next.result.textBytes = state.result.textBytes ++ text) : Grows state next := by
  intro section_
  cases section_ with
  | text => exact ⟨text, added.symm⟩
  | data => exact ⟨[], (List.append_nil _).trans data.symm⟩
  | readOnlyData => exact ⟨[], (List.append_nil _).trans readOnly.symm⟩
  | bss => exact List.prefix_refl _

theorem Grows.of_same (same : ∀ section_, next.result.bytesIn section_ =
    state.result.bytesIn section_) : Grows state next :=
  fun section_ => same section_ ▸ List.prefix_refl _

theorem pass2Instruction_grows
    (turn : pass2Instruction instructions pass1 state instr = .ok next) : Grows state next := by
  unfold pass2Instruction at turn
  dsimp only at turn
  split at turn
  · obtain ⟨-, result⟩ := fillNops_ok turn
    exact .of_text (by rw [result]) (by rw [result]) (by rw [result])
  · split at turn
    · obtain ⟨-, result⟩ := fillNops_ok turn
      exact .of_text (by rw [result]) (by rw [result]) (by rw [result])
    · obtain ⟨-, -, result⟩ := appendInstruction_ok turn
      exact .of_text (by rw [result]) (by rw [result]) (by rw [result])

theorem pass2DataDirective_grows
    (turn : pass2DataDirective instructions pass1 state instr = .ok next) : Grows state next := by
  unfold pass2DataDirective at turn
  dsimp only at turn
  split at turn
  · obtain rfl := Except.ok.inj turn
    exact .of_same fun section_ => by cases section_ <;> rfl
  · next notText =>
      split at turn
      · contradiction
      · split at turn
        · obtain rfl := Except.ok.inj turn
          exact .of_same fun section_ => by cases section_ <;> rfl
        · next notBss =>
            have written : state.currentSection = .data ∨
                state.currentSection = .readOnlyData := by
              cases section_ : state.currentSection <;> simp [section_] at notText notBss ⊢
            intro section_
            rw [(pass2DataBytes_written written turn).1.bytes section_]
            exact List.prefix_append _ _

theorem pass2Step_grows (turn : pass2Step instructions pass1 state instr = .ok next) :
    Grows state next := by
  rw [pass2Step] at turn
  cases kind : instr.directiveKind with
  | none =>
      rw [kind] at turn
      dsimp only at turn
      split at turn
      · obtain rfl := Except.ok.inj turn
        exact .of_same fun section_ => by cases section_ <;> rfl
      · exact pass2Instruction_grows turn
  | int8 | int16 | int32 | int64 | alignment | zeroSpace | nulString | invalid =>
      rw [kind] at turn
      exact pass2DataDirective_grows turn
  | text | data | readOnlyData | bss | global | «local» | external | debugFile | debugFileBytes =>
      rw [kind] at turn
      obtain rfl := Except.ok.inj turn
      exact .of_same fun section_ => by cases section_ <;> rfl
  | debugLocation =>
      rw [kind] at turn
      dsimp only at turn
      unfold pass2DebugLocation at turn
      split at turn <;> obtain rfl := Except.ok.inj turn <;>
        exact .of_same fun section_ => by cases section_ <;> rfl

end Turns

/-! ## Runs -/

section Runs

variable {instructions : InstructionList} {before after : List Instruction} {state : Pass2State}

/-- Wherever pass 2 has arrived, the statements behind it are laid out. -/
theorem pass2Walk_layout (sized : errorHasAny (pass1Run instructions).errors = false)
    (split : instructions.data = before ++ after)
    (reached : pass2Walk instructions (pass1Run instructions) before = .ok state) :
    state.layout = Layout.after before := by
  refine Walk.run_invariant instructions.data
    (fun before (state : Pass2State) => state.layout = Layout.after before) rfl ?_ split reached
  intro before instr after state next split _ layout turn
  have accepted := statementAccepted sized split
  rw [← layout] at accepted
  rw [pass2Step_layout accepted turn, layout, Layout.after_snoc]

/-- What was written stays. -/
theorem pass2Walk_grows {later : Pass2State} {statements : List Instruction}
    (reached : pass2Walk instructions (pass1Run instructions) before = .ok state)
    (goesOn : pass2Walk instructions (pass1Run instructions) (before ++ statements) = .ok later) :
    Grows state later := by
  induction statements using List.reverseRecOn generalizing later with
  | nil =>
      rw [List.append_nil, reached] at goesOn
      exact Except.ok.inj goesOn ▸ fun _ => List.prefix_refl _
  | append_singleton statements instr inductionHypothesis =>
      rw [← List.append_assoc] at goesOn
      obtain ⟨middle, reachedMiddle, turn⟩ := Walk.run_snoc_eq_ok.mp goesOn
      exact fun section_ => (inductionHypothesis reachedMiddle section_).trans
        (pass2Step_grows turn section_)

/-- A data directive in a section with bytes, where pass 2 arrives at it: its
bytes are appended, and stand at its offset in every later state. -/
structure DirectiveWritten (instructions : InstructionList) (before : List Instruction)
    (instr : Instruction) (state : Pass2State) (bytes : List UInt8) : Prop where
  section_ : state.currentSection = .data ∨ state.currentSection = .readOnlyData
  turn : ∃ next, pass2Step instructions (pass1Run instructions) state instr = .ok next ∧
    DataWritten state next bytes
  later : ∀ statements later,
    pass2Walk instructions (pass1Run instructions) (before ++ instr :: statements) = .ok later →
    slice (later.result.bytesIn state.currentSection)
      (state.result.sizes.get state.currentSection) bytes.length = bytes

theorem directiveWritten {instr : Instruction}
    (sized : errorHasAny (pass1Run instructions).errors = false)
    (split : instructions.data = before ++ instr :: after)
    (reached : pass2Walk instructions (pass1Run instructions) before = .ok state)
    (isData : isDataDirective instr.directiveKind = true) (notBss : state.currentSection ≠ .bss)
    (size : dataDirectiveSizeAt instr (state.result.sizes.get state.currentSection) =
      (dataDirectiveBytes instr (state.result.sizes.get state.currentSection)).length) :
    DirectiveWritten instructions before instr state
      (dataDirectiveBytes instr (state.result.sizes.get state.currentSection)) := by
  have layout := pass2Walk_layout sized split reached
  have accepted := statementAccepted sized split
  rw [← layout] at accepted
  have notText : state.currentSection ≠ .text := accepted.notText isData
  have written : state.currentSection = .data ∨ state.currentSection = .readOnlyData := by
    cases section_ : state.currentSection <;> simp [section_] at notText notBss ⊢
  have room : state.result.sizes.get state.currentSection +
      (dataDirectiveSizeAt instr (state.result.sizes.get state.currentSection)).toNat ≤
      (pass1Run instructions).sizes.get state.currentSection := by
    have grows := Layout.get_after_le (before ++ [instr]) after state.currentSection
    rw [Layout.after_snoc, ← layout, Layout.place_of_data _ isData, SectionSizes.get_add,
      if_pos (by rfl)] at grows
    rw [pass1Run_sizes sized, split]
    rw [List.append_assoc] at grows
    exact grows
  obtain ⟨next, goesOn, -⟩ := @pass2DataBytes_goesOn instructions (pass1Run instructions) state
    instr _ written size room
  have step : pass2Step instructions (pass1Run instructions) state instr = .ok next := by
    have directive : pass2Step instructions (pass1Run instructions) state instr =
        pass2DataDirective instructions (pass1Run instructions) state instr := by
      rw [pass2Step]
      cases kind : instr.directiveKind <;> first | rfl | (rw [kind] at isData; contradiction)
    rw [directive, pass2DataDirective]
    dsimp only
    rw [if_neg notText, if_neg (by omega), if_neg notBss, goesOn]
  have holds := (pass2DataBytes_written written goesOn).1
  refine ⟨written, ⟨next, step, holds⟩, fun statements later goesOn => ?_⟩
  have here := Walk.run_snoc_of_ok reached step
  rw [List.append_cons] at goesOn
  obtain ⟨rest, grown⟩ := pass2Walk_grows here goesOn state.currentSection
  rw [← grown, holds.bytes, if_pos rfl, ← length_bytesIn _ notBss, slice_middle]

end Runs

end Nazm.Passes
