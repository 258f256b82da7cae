import Nazm.Passes.Emission

/-!
Pass 2 writes the image of the program.

Owns the spec of one turn of pass 2 that reports nothing, the run lemma that
follows for whole walks, and the result of pass 2 on an accepted source as the
image of its statements.

Does not own the properties of the image.
-/

namespace Nazm.Passes

open Nazm.Encoder Nazm.Parser Nazm.Lexer Nazm.Symtable Nazm.Unicode Nazm.Diagnostics

/-! ## One turn -/

/-- The bytes of a section in the result; `.bss` has none. -/
def Pass2Result.bytesIn (result : Pass2Result) : SymbolSection → List UInt8
  | .text => result.textBytes
  | .data => result.dataBytes
  | .readOnlyData => result.readOnlyDataBytes
  | .bss => []

/-- What pass 2 has checked of a statement it emitted without an error. -/
structure StatementChecked (symtable : SymbolTable) (layout : Layout) (instr : Instruction) :
    Prop where
  encoded : layout.Emits instr →
    ∃ bytes, instructionBytes symtable instr layout.sizes.text = some bytes
  resolved : layout.Emits instr →
    ∀ op ∈ instr.ops, OperandResolved symtable instr layout.sizes.text op
  stored : layout.Stores instr →
    (dataDirectiveBytes instr layout.offset).length = layout.statementSize instr
  known : layout.Stores instr → instr.directiveKind = .int64 →
    ∀ op ∈ instr.ops, ∀ label, op.kind = .label label → symbolKnown symtable label = true

/-- A turn that adds the image of its statement. -/
structure CleanTurn (pass1 : Pass1Result) (state next : Pass2State) (instr : Instruction) :
    Prop where
  layout : next.layout = state.layout.place instr
  bytes : ∀ section_, next.result.bytesIn section_ =
    state.result.bytesIn section_ ++
      (if state.layout.section_ = section_ then statementBytes pass1.symtable state.layout instr
      else [])
  relocations : next.result.relocations =
    state.result.relocations ++ statementRelocations pass1.symtable state.layout instr
  emissions : next.result.emissions =
    state.result.emissions ++ [statementSpan state.layout instr]
  checked : StatementChecked pass1.symtable state.layout instr

section Turns

variable {instructions : InstructionList} {pass1 : Pass1Result} {state next : Pass2State}
  {instr : Instruction}

/-- A statement without bytes or relocations: only its span is recorded. -/
theorem cleanTurn_of_nothing (layout : next.layout = state.layout.place instr)
    (bytes : ∀ section_, next.result.bytesIn section_ = state.result.bytesIn section_)
    (relocations : next.result.relocations = state.result.relocations)
    (emissions : next.result.emissions = state.result.emissions ++ [statementSpan state.layout instr])
    (notEmits : ¬ state.layout.Emits instr) (notStores : ¬ state.layout.Stores instr) :
    CleanTurn pass1 state next instr where
  layout := layout
  bytes section_ := by
    rw [bytes, statementBytes, if_neg notEmits, if_neg notStores, ite_self, List.append_nil]
  relocations := by
    rw [relocations, statementRelocations, if_neg notEmits, if_neg (fun both => notStores both.1),
      List.append_nil]
  emissions := emissions
  checked :=
    ⟨fun emits => absurd emits notEmits, fun emits => absurd emits notEmits,
      fun stores => absurd stores notStores, fun stores => absurd stores notStores⟩

theorem fillNops_errors {textCap sz : Nat} (turn : fillNops textCap state instr sz = .ok next) :
    next.result.errors = state.result.errors := by
  unfold fillNops at turn
  split at turn
  · contradiction
  · obtain rfl := Except.ok.inj turn
    rfl

/-- What appending an instruction does, where it goes on. -/
theorem appendInstruction_ok {textCap sz : Nat} {bytes : List UInt8}
    (turn : appendInstruction textCap state instr sz bytes = .ok next) :
    bytes.length = sz ∧ next.currentSection = state.currentSection ∧
      next.result =
        { state.result with
          textBytes := state.result.textBytes ++ bytes
          emissions := state.result.emissions ++
            [⟨.text, state.result.textBytes.length, bytes.length⟩]
          relocations := state.result.relocations ++
            ripRelocations state.result.textBytes.length bytes.length instr.ops } := by
  unfold appendInstruction at turn
  dsimp only at turn
  split at turn
  · contradiction
  · next sized =>
      split at turn
      · contradiction
      · split at turn
        · contradiction
        · next appended append =>
            obtain ⟨-, rfl⟩ := bufferAppend_eq_some.mp append
            obtain rfl := Except.ok.inj turn
            exact ⟨not_not.mp sized, rfl, rfl⟩

theorem pass2Instruction_clean (emits : state.layout.Emits instr)
    (turn : pass2Instruction instructions pass1 state instr = .ok next)
    (clean : errorHasAny next.result.errors = false) : CleanTurn pass1 state next instr := by
  obtain ⟨kind, named, text⟩ := emits
  have section_ : state.currentSection = .text := text
  unfold pass2Instruction at turn
  dsimp only at turn
  generalize resolution_eq : resolveOperands instructions pass1.symtable instr
    state.result.textBytes.length (instructionSize instr) 0 instr.ops
    ⟨state.result.relocations, state.result.errors, 0, false⟩ = resolution at turn
  -- the resolution reported nothing, whichever way the turn ended
  have quiet : errorHasAny resolution.errors = false := by
    by_contra dirty
    rw [Bool.not_eq_false] at dirty
    split at turn
    · rw [fillNops_errors turn] at clean
      rw [dirty] at clean
      contradiction
    · split at turn
      · rw [fillNops_errors turn] at clean
        simp [encodeError] at clean
      · rw [(appendInstruction_ok turn).2.2] at clean
        rw [dirty] at clean
        contradiction
  have clean' := quiet
  rw [← resolution_eq] at clean'
  obtain ⟨resolved, operands⟩ := resolveOperands_clean _ clean'
  rw [resolution_eq] at resolved
  rw [resolved.resolutionError, if_neg (by simp)] at turn
  split at turn
  · rw [fillNops_errors turn] at clean
    simp [encodeError] at clean
  · next bytes encoded =>
      obtain ⟨sized, nextSection, result⟩ := appendInstruction_ok turn
      have target := resolveOperands_target (singleton_of_encoded encoded) clean'
      rw [resolution_eq] at target
      rw [target] at encoded
      have emits' : state.layout.Emits instr := ⟨kind, named, text⟩
      have image : statementBytes pass1.symtable state.layout instr = bytes := by
        rw [statementBytes, if_pos emits']
        exact congrArg (Option.getD · []) encoded
      refine ⟨?_, fun other => ?_, ?_, ?_, ⟨fun _ => ⟨bytes, encoded⟩, fun _ => operands, ?_, ?_⟩⟩
      · simp only [Pass2State.layout, nextSection, result]
        simp [Layout.place, Layout.sectionAfter, Layout.statementSize, kind, sectionSwitch?,
          section_, named, Pass2Result.sizes, SectionSizes.add, sized]
      · rw [image, result, text]
        cases other <;> simp [Pass2Result.bytesIn]
      · rw [result, statementRelocations, if_pos emits']
        simp only [resolved.relocations, List.append_assoc, sized]
        rfl
      · rw [result]
        simp [statementSpan, Layout.sectionAfter, Layout.statementSize, kind, sectionSwitch?, named,
          sized, Pass2State.layout, section_, Pass2Result.sizes, SectionSizes.get]
      · rintro ⟨isData, -⟩
        rw [kind] at isData
        contradiction
      · rintro ⟨isData, -⟩
        rw [kind] at isData
        contradiction

theorem bytesIn_setSectionBytes {result : Pass2Result} {section_ : SymbolSection}
    (written : section_ = .data ∨ section_ = .readOnlyData) (bytes : List UInt8)
    (other : SymbolSection) :
    (result.setSectionBytes section_ bytes).bytesIn other =
      if section_ = other then bytes else result.bytesIn other := by
  rcases written with rfl | rfl <;> cases other <;> rfl

theorem setSectionBytes_rest {result : Pass2Result} (section_ : SymbolSection)
    (bytes : List UInt8) :
    (result.setSectionBytes section_ bytes).relocations = result.relocations ∧
      (result.setSectionBytes section_ bytes).emissions = result.emissions ∧
      (result.setSectionBytes section_ bytes).errors = result.errors := by
  cases section_ <;> exact ⟨rfl, rfl, rfl⟩

/-- What a data directive does to the result, where it goes on. -/
theorem pass2DataBytes_ok {expected : Int}
    (turn : pass2DataBytes instructions pass1 state instr expected = .ok next) :
    ∃ resolved : List Relocation × ErrorList,
      resolved = (if instr.directiveKind = .int64 then
        resolveDataOperands instructions pass1.symtable instr state.currentSection
          (state.result.sectionBytes state.currentSection).length 0 instr.ops
          (state.result.relocations, state.result.errors)
      else (state.result.relocations, state.result.errors)) ∧
      next = ({ state with
        result := ({ state.result with
          relocations := resolved.1, errors := resolved.2 }).setSectionBytes
            state.currentSection (state.result.sectionBytes state.currentSection ++
              dataDirectiveBytes instr
                (state.result.sectionBytes state.currentSection).length) }).emit
        state.currentSection (state.result.sectionBytes state.currentSection).length
        (dataDirectiveBytes instr (state.result.sectionBytes state.currentSection).length).length ∧
      ((dataDirectiveBytes instr
        (state.result.sectionBytes state.currentSection).length).length : Int) = expected := by
  refine ⟨_, rfl, ?_⟩
  unfold pass2DataBytes at turn
  dsimp only at turn
  split at turn
  · contradiction
  · next written =>
      have value := emitDataDirective_value (by simpa using written)
      rw [value] at turn
      have actual : ∀ front added : List UInt8,
          (front ++ added).length - front.length = added.length := by simp
      rw [actual] at turn
      split at turn
      · contradiction
      · next sized => exact ⟨(Except.ok.inj turn).symm, not_not.mp sized⟩

theorem pass2DataBytes_clean (isData : isDataDirective instr.directiveKind = true)
    (written : state.currentSection = .data ∨ state.currentSection = .readOnlyData)
    (turn : pass2DataBytes instructions pass1 state instr
      (dataDirectiveSizeAt instr (state.result.sizes.get state.currentSection)) = .ok next)
    (clean : errorHasAny next.result.errors = false) : CleanTurn pass1 state next instr := by
  obtain ⟨resolved, resolvedIs, nextIs, sized⟩ := pass2DataBytes_ok turn
  have directive : instr.directiveKind ≠ .none := by
    intro none
    rw [none] at isData
    contradiction
  have notEmits : ¬ state.layout.Emits instr := fun emits => directive emits.1
  have stores : state.layout.Stores instr := ⟨isData, written⟩
  have length : (state.result.sectionBytes state.currentSection).length = state.layout.offset :=
    length_sectionBytes written
  rw [length] at resolvedIs nextIs sized
  have bytes : state.result.sectionBytes state.currentSection =
      state.result.bytesIn state.currentSection := by
    rcases written with same | same <;> rw [same] <;> rfl
  have statementSize : state.layout.statementSize instr =
      (dataDirectiveBytes instr state.layout.offset).length := by
    have size : dataDirectiveSizeAt instr state.layout.offset = _ := sized.symm
    rw [Layout.statementSize, if_neg directive, if_pos isData, size, Int.toNat_natCast]
  have quiet : errorHasAny resolved.2 = false := by
    rw [nextIs] at clean
    have errors := (@setSectionBytes_rest { state.result with
      relocations := resolved.1, errors := resolved.2 } state.currentSection
      (state.result.sectionBytes state.currentSection ++
        dataDirectiveBytes instr state.layout.offset)).2.2
    simp only [Pass2State.emit, errors] at clean
    exact clean
  -- the relocations are those of the directive
  have relocations : resolved.1 =
      state.result.relocations ++ statementRelocations pass1.symtable state.layout instr ∧
      (instr.directiveKind = .int64 → ∀ op ∈ instr.ops, ∀ label, op.kind = .label label →
        symbolKnown pass1.symtable label = true) := by
    rw [statementRelocations, if_neg notEmits]
    by_cases wide : instr.directiveKind = .int64
    · rw [if_pos wide] at resolvedIs
      rw [resolvedIs] at quiet
      obtain ⟨equal, known⟩ := resolveDataOperands_clean _ quiet
      rw [equal] at resolvedIs
      rw [if_pos ⟨stores, wide⟩, resolvedIs]
      exact ⟨rfl, fun _ => known⟩
    · rw [if_neg wide] at resolvedIs
      rw [if_neg (fun both => wide both.2), resolvedIs, List.append_nil]
      exact ⟨rfl, fun same => absurd same wide⟩
  refine ⟨?_, fun other => ?_, ?_, ?_, ⟨fun emits => absurd emits notEmits,
    fun emits => absurd emits notEmits, fun _ => statementSize.symm, fun _ => relocations.2⟩⟩
  · rw [nextIs, emit_layout, Layout.place_of_data _ isData]
    have sizes := @sizes_setSectionBytes { state.result with
      relocations := resolved.1, errors := resolved.2 } state.currentSection written
      (dataDirectiveBytes instr state.layout.offset)
    have same : ({ state.result with
        relocations := resolved.1, errors := resolved.2 }).sectionBytes state.currentSection =
        state.result.sectionBytes state.currentSection := by
      rcases written with same | same <;> rw [same] <;> rfl
    have size : dataDirectiveSizeAt instr state.layout.offset = _ := sized.symm
    rw [same] at sizes
    rw [size, Int.toNat_natCast]
    exact congrArg (Layout.mk state.currentSection) sizes
  · rw [nextIs]
    simp only [Pass2State.emit]
    change (Pass2Result.setSectionBytes _ _ _).bytesIn other = _
    rw [bytesIn_setSectionBytes written, statementBytes, if_neg notEmits, if_pos stores, bytes]
    change _ = _ ++ (if state.currentSection = other then _ else _)
    split
    · next same => rw [same]
    · rw [List.append_nil]
      cases other <;> rfl
  · rw [nextIs]
    have rest := (@setSectionBytes_rest { state.result with
      relocations := resolved.1, errors := resolved.2 } state.currentSection
      (state.result.sectionBytes state.currentSection ++
        dataDirectiveBytes instr state.layout.offset)).1
    simp only [Pass2State.emit, rest]
    exact relocations.1
  · rw [nextIs]
    have rest := (@setSectionBytes_rest { state.result with
      relocations := resolved.1, errors := resolved.2 } state.currentSection
      (state.result.sectionBytes state.currentSection ++
        dataDirectiveBytes instr state.layout.offset)).2.1
    have after : state.layout.sectionAfter instr = state.currentSection :=
      congrArg Layout.section_ (Layout.place_of_data state.layout isData)
    have notBss : state.layout.section_ ≠ .bss := by
      intro bss
      rcases written with same | same <;> simp [Pass2State.layout, same] at bss
    simp only [Pass2State.emit, rest, statementSpan, after, if_neg notBss, statementSize]
    rfl

theorem pass2DataDirective_clean (isData : isDataDirective instr.directiveKind = true)
    (notText : state.currentSection ≠ .text)
    (turn : pass2DataDirective instructions pass1 state instr = .ok next)
    (clean : errorHasAny next.result.errors = false) : CleanTurn pass1 state next instr := by
  unfold pass2DataDirective at turn
  dsimp only at turn
  rw [if_neg notText] at turn
  split at turn
  · contradiction
  · split at turn
    · next bss =>
        obtain rfl := Except.ok.inj turn
        have directive : instr.directiveKind ≠ .none := by
          intro none
          rw [none] at isData
          contradiction
        have after : state.layout.sectionAfter instr = .bss :=
          (congrArg Layout.section_ (Layout.place_of_data state.layout isData)).trans bss
        have here : state.layout.section_ = .bss := bss
        refine cleanTurn_of_nothing ?_ (fun section_ => by cases section_ <;> rfl) rfl ?_
          (fun emits => directive emits.1) ?_
        · rw [Layout.place_of_data _ isData, here, Layout.offset, here]
          simp [Pass2State.layout, Pass2State.emitNothing, Pass2State.emit, bss, Pass2Result.sizes,
            SectionSizes.add, SectionSizes.get]
        · simp only [statementSpan, after, if_pos here, Pass2State.emitNothing, Pass2State.emit, bss]
          rfl
        · rintro ⟨-, data | readOnly⟩
          · rw [here] at data
            contradiction
          · rw [here] at readOnly
            contradiction
    · next notBss =>
        have written : state.currentSection = .data ∨ state.currentSection = .readOnlyData := by
          cases section_ : state.currentSection <;> simp [section_] at notText notBss ⊢
        exact pass2DataBytes_clean isData written turn clean

/-- A directive without data, in pass 2. -/
theorem cleanTurn_of_aside (noSwitch : sectionSwitch? instr.directiveKind = none)
    (noData : isDataDirective instr.directiveKind = false)
    (directive : instr.directiveKind ≠ .none) (layout : next.layout = state.layout)
    (result : next.result = state.emitNothing.result) : CleanTurn pass1 state next instr := by
  refine cleanTurn_of_nothing ?_ (fun section_ => ?_) ?_ ?_ (fun emits => directive emits.1)
    fun stores => ?_
  · rw [layout, Layout.place_of_aside _ noSwitch noData directive]
  · rw [result]
    cases section_ <;> rfl
  · rw [result]
    rfl
  · rw [result]
    simp only [statementSpan, Layout.sectionAfter, Layout.statementSize, noSwitch, noData,
      directive, Option.getD_none, if_false, ite_self, Bool.false_eq_true]
    rfl
  · rw [stores.1] at noData
    contradiction

/-- A section switch, in pass 2. -/
theorem cleanTurn_of_switch {section_ : SymbolSection}
    (switch : sectionSwitch? instr.directiveKind = some section_) :
    CleanTurn pass1 state { state with currentSection := section_ }.emitNothing instr := by
  have directive : instr.directiveKind ≠ .none := by
    intro none
    rw [none] at switch
    contradiction
  have noData := noData_of_switch switch
  refine cleanTurn_of_nothing ?_ (fun section_ => by cases section_ <;> rfl) rfl ?_
    (fun emits => directive emits.1) fun stores => ?_
  · rw [Layout.place_of_switch _ switch]
    rfl
  · simp only [statementSpan, Layout.sectionAfter, Layout.statementSize, switch, directive, noData,
      Option.getD_some, Bool.false_eq_true, if_false, ite_self]
    rfl
  · rw [stores.1] at noData
    contradiction

/-- A turn of pass 2 that reports nothing adds the image of its statement. -/
theorem pass2Step_clean (accepted : StatementAccepted state.currentSection instr)
    (turn : pass2Step instructions pass1 state instr = .ok next)
    (clean : errorHasAny next.result.errors = false) : CleanTurn pass1 state next instr := by
  have data : isDataDirective instr.directiveKind = true →
      pass2Step instructions pass1 state instr =
        pass2DataDirective instructions pass1 state instr → CleanTurn pass1 state next instr := by
    intro isData step
    rw [step] at turn
    exact pass2DataDirective_clean isData (accepted.notText isData) turn clean
  cases kind : instr.directiveKind with
  | none =>
      rw [pass2Step, kind] at turn
      dsimp only at turn
      split at turn
      · next empty =>
          obtain rfl := Except.ok.inj turn
          have layout : state.layout.place instr = state.layout := by
            simp only [Layout.place, Layout.sectionAfter, Layout.statementSize, kind,
              sectionSwitch?, Option.getD_none, if_true]
            rw [if_pos (by exact empty), SectionSizes.add_zero]
          refine cleanTurn_of_nothing ?_ (fun section_ => by cases section_ <;> rfl) rfl ?_ ?_ ?_
          · rw [layout, emitNothing_layout]
          · have nothing : instr.opcode = .invalid ∨ state.layout.section_ ≠ .text := empty
            simp only [statementSpan, Layout.sectionAfter, Layout.statementSize, kind,
              sectionSwitch?, Option.getD_none, if_true, if_pos nothing, ite_self]
            rfl
          · rintro ⟨-, named, text⟩
            exact empty.elim named fun elsewhere => elsewhere text
          · rintro ⟨isData, -⟩
            rw [kind] at isData
            contradiction
      · next emits =>
          have text : state.currentSection = .text := by
            by_contra elsewhere
            exact emits (.inr elsewhere)
          have stands : state.layout.Emits instr := ⟨kind, fun invalid => emits (.inl invalid), text⟩
          exact pass2Instruction_clean stands turn clean
  | text | data | readOnlyData | bss =>
      rw [pass2Step, kind] at turn
      obtain rfl := Except.ok.inj turn
      exact cleanTurn_of_switch (by rw [kind]; rfl)
  | int8 | int16 | int32 | int64 | alignment | zeroSpace | nulString =>
      exact data (by rw [kind]; rfl) (by rw [pass2Step, kind])
  | invalid => exact absurd kind accepted.known
  | global | «local» | external | debugFile | debugFileBytes =>
      rw [pass2Step, kind] at turn
      obtain rfl := Except.ok.inj turn
      exact cleanTurn_of_aside (by rw [kind]; rfl) (by rw [kind]; rfl) (by simp [kind]) rfl rfl
  | debugLocation =>
      rw [pass2Step, kind] at turn
      dsimp only at turn
      unfold pass2DebugLocation at turn
      split at turn
      all_goals
        obtain rfl := Except.ok.inj turn
        exact cleanTurn_of_aside (by rw [kind]; rfl) (by rw [kind]; rfl) (by simp [kind]) rfl rfl

/-! ## Errors are kept -/

theorem pass2Instruction_keeps_dirty (dirty : errorHasAny state.result.errors = true)
    (turn : pass2Instruction instructions pass1 state instr = .ok next) :
    errorHasAny next.result.errors = true := by
  unfold pass2Instruction at turn
  dsimp only at turn
  have resolved : ∀ relocations, errorHasAny (resolveOperands instructions pass1.symtable instr
      state.result.textBytes.length (instructionSize instr) 0 instr.ops
      ⟨relocations, state.result.errors, 0, false⟩).errors = true :=
    fun relocations => resolveOperands_keeps_dirty _ dirty
  split at turn
  · rw [fillNops_errors turn]
    exact resolved _
  · split at turn
    · rw [fillNops_errors turn]
      exact errorHasAny_errorAddSpan _ _ _ _ _ _
    · rw [(appendInstruction_ok turn).2.2]
      exact resolved _

theorem pass2DataDirective_keeps_dirty (dirty : errorHasAny state.result.errors = true)
    (turn : pass2DataDirective instructions pass1 state instr = .ok next) :
    errorHasAny next.result.errors = true := by
  unfold pass2DataDirective at turn
  dsimp only at turn
  split at turn
  · obtain rfl := Except.ok.inj turn
    exact dirty
  · split at turn
    · contradiction
    · split at turn
      · obtain rfl := Except.ok.inj turn
        exact dirty
      · obtain ⟨resolved, resolvedIs, rfl, -⟩ := pass2DataBytes_ok turn
        have errors := (@setSectionBytes_rest { state.result with
          relocations := resolved.1, errors := resolved.2 } state.currentSection
          (state.result.sectionBytes state.currentSection ++
            dataDirectiveBytes instr
              (state.result.sectionBytes state.currentSection).length)).2.2
        simp only [Pass2State.emit, errors]
        rw [resolvedIs]
        split
        · exact resolveDataOperands_keeps_dirty _ dirty
        · exact dirty

theorem pass2Step_keeps_dirty (dirty : errorHasAny state.result.errors = true)
    (turn : pass2Step instructions pass1 state instr = .ok next) :
    errorHasAny next.result.errors = true := by
  unfold pass2Step at turn
  split at turn
  · split at turn
    · obtain rfl := Except.ok.inj turn
      exact dirty
    · exact pass2Instruction_keeps_dirty dirty turn
  all_goals first
    | exact pass2DataDirective_keeps_dirty dirty turn
    | obtain rfl := Except.ok.inj turn
      exact dirty
    | unfold pass2DebugLocation at turn
      split at turn
      all_goals
        obtain rfl := Except.ok.inj turn
        exact dirty

theorem run_keeps_clean {statements : List Instruction}
    (reached : Walk.run (pass2Step instructions pass1) statements state = .ok next)
    (clean : errorHasAny next.result.errors = false) : errorHasAny state.result.errors = false := by
  induction statements generalizing state with
  | nil =>
      obtain rfl := Except.ok.inj reached
      exact clean
  | cons instr statements inductionHypothesis =>
      rw [Walk.run] at reached
      cases turn : pass2Step instructions pass1 state instr with
      | error stop => simp [turn] at reached
      | ok middle =>
          rw [turn] at reached
          have middleClean := inductionHypothesis reached
          by_contra dirty
          rw [pass2Step_keeps_dirty (by simpa using dirty) turn] at middleClean
          contradiction

end Turns

/-! ## Walks -/

/-- A state of pass 2 that holds the image of the statements walked so far. -/
structure HoldsImage (symtable : SymbolTable) (before : List Instruction) (state : Pass2State) :
    Prop where
  layout : state.layout = Layout.after before
  bytes : ∀ section_, state.result.bytesIn section_ = sectionImage symtable section_ before
  relocations : state.result.relocations = programRelocations symtable before
  emissions : state.result.emissions = programSpans before

theorem HoldsImage.start (symtable : SymbolTable) : HoldsImage symtable [] .init where
  layout := rfl
  bytes section_ := by cases section_ <;> rfl
  relocations := rfl
  emissions := rfl

theorem HoldsImage.turn {pass1 : Pass1Result} {before : List Instruction}
    {state next : Pass2State} {instr : Instruction}
    (holds : HoldsImage pass1.symtable before state) (turn : CleanTurn pass1 state next instr) :
    HoldsImage pass1.symtable (before ++ [instr]) next where
  layout := by rw [turn.layout, holds.layout, Layout.after_snoc]
  bytes section_ := by rw [turn.bytes, holds.bytes, holds.layout, sectionImage_snoc]
  relocations := by rw [turn.relocations, holds.relocations, holds.layout, programRelocations_snoc]
  emissions := by rw [turn.emissions, holds.emissions, holds.layout, programSpans_snoc]

/-- The lists that the theorems about accepted programs speak of. -/
structure ProgramAccepted (instructions : InstructionList) : Prop where
  sized : errorHasAny (pass1Run instructions).errors = false
  encoded : errorHasAny (pass2Run instructions (pass1Run instructions)).errors = false

theorem Accepted.program {src : SourceBuffer} (accepted : Accepted src) :
    ProgramAccepted (sourceInstructions src) :=
  ⟨accepted.sized, accepted.encoded⟩

section Walks

variable {instructions : InstructionList}

/-- A run of pass 2 without errors reached the end of the list. -/
theorem pass2Run_clean {pass1 : Pass1Result}
    (clean : errorHasAny (pass2Run instructions pass1).errors = false) :
    ∃ state, pass2Walk instructions pass1 instructions.data = .ok state ∧
      pass2Run instructions pass1 = state.result ∧ state.result.sizes = pass1.sizes := by
  cases walked : pass2Walk instructions pass1 instructions.data with
  | error stop => simp [pass2Run, walked, pass2Finish, addInternalError] at clean
  | ok state =>
      by_cases sizes : state.result.sizes = pass1.sizes
      · exact ⟨state, rfl, by simp [pass2Run, walked, pass2Finish, sizes], sizes⟩
      · simp [pass2Run, walked, pass2Finish, sizes, addInternalError] at clean

/-- Without errors, pass 2 passes through a state without errors at every statement. -/
theorem pass2Walk_clean
    (encoded : errorHasAny (pass2Run instructions (pass1Run instructions)).errors = false)
    {before after : List Instruction} (split : instructions.data = before ++ after) :
    ∃ state, pass2Walk instructions (pass1Run instructions) before = .ok state ∧
      errorHasAny state.result.errors = false := by
  obtain ⟨last, walked, result, -⟩ := pass2Run_clean encoded
  have lastClean : errorHasAny last.result.errors = false := result ▸ encoded
  rw [pass2Walk, split] at walked
  obtain ⟨state, reached, rest⟩ := Walk.run_append_eq_ok.mp walked
  exact ⟨state, reached, run_keeps_clean rest lastClean⟩

/-- At every statement of an accepted program, pass 2 holds the image of those before it. -/
theorem pass2Walk_image (accepted : ProgramAccepted instructions)
    {before after : List Instruction} (split : instructions.data = before ++ after)
    {state : Pass2State}
    (reached : pass2Walk instructions (pass1Run instructions) before = .ok state) :
    HoldsImage (pass1Run instructions).symtable before state := by
  refine Walk.run_invariant instructions.data (HoldsImage (pass1Run instructions).symtable)
    (HoldsImage.start _) ?_ split reached
  intro before instr after state next split reached holds turn
  have sectionSame : state.currentSection = (Layout.after before).section_ :=
    congrArg Layout.section_ holds.layout
  obtain ⟨final, walked, finalClean⟩ :=
    @pass2Walk_clean _ accepted.encoded (before ++ [instr]) after (by simpa using split)
  have nextReached : pass2Walk instructions (pass1Run instructions) (before ++ [instr]) = .ok next :=
    Walk.run_snoc_of_ok reached turn
  rw [walked, Except.ok.injEq] at nextReached
  refine holds.turn (pass2Step_clean ?_ turn ?_)
  · rw [sectionSame]
    exact statementAccepted accepted.sized split
  · rw [← nextReached]
    exact finalClean

/-- What pass 2 checked of each statement of an accepted program. -/
theorem statementChecked (accepted : ProgramAccepted instructions)
    {before after : List Instruction} {instr : Instruction}
    (split : instructions.data = before ++ instr :: after) :
    StatementChecked (pass1Run instructions).symtable (Layout.after before) instr := by
  obtain ⟨next, walked, nextClean⟩ :=
    @pass2Walk_clean _ accepted.encoded (before ++ [instr]) after (by simpa using split)
  obtain ⟨state, reached, turn⟩ := Walk.run_snoc_eq_ok.mp walked
  have holds := pass2Walk_image accepted split reached
  have sectionSame : state.currentSection = (Layout.after before).section_ :=
    congrArg Layout.section_ holds.layout
  rw [← holds.layout]
  refine (pass2Step_clean ?_ turn nextClean).checked
  rw [sectionSame]
  exact statementAccepted accepted.sized split

/-- The result of pass 2 on an accepted program is the image of the program. -/
theorem pass2Run_image (accepted : ProgramAccepted instructions) :
    (∀ section_, (pass2Run instructions (pass1Run instructions)).bytesIn section_ =
      sectionImage (pass1Run instructions).symtable section_ instructions.data) ∧
    (pass2Run instructions (pass1Run instructions)).relocations =
      programRelocations (pass1Run instructions).symtable instructions.data ∧
    (pass2Run instructions (pass1Run instructions)).emissions = programSpans instructions.data ∧
    (pass2Run instructions (pass1Run instructions)).sizes =
      (Layout.after instructions.data).sizes := by
  obtain ⟨state, walked, result, sizes⟩ := pass2Run_clean accepted.encoded
  have holds := pass2Walk_image accepted (List.append_nil _).symm walked
  rw [result]
  exact ⟨holds.bytes, holds.relocations, holds.emissions,
    congrArg Layout.sizes holds.layout⟩

end Walks

/-- The result of pass 2 on a source is the image of its statements. -/
structure SourceImage (src : SourceBuffer) : Prop where
  bytes : ∀ section_, (sourcePass2 src).bytesIn section_ =
    sectionImage (sourcePass1 src).symtable section_ (sourceInstructions src).data
  relocations : (sourcePass2 src).relocations =
    programRelocations (sourcePass1 src).symtable (sourceInstructions src).data
  emissions : (sourcePass2 src).emissions = programSpans (sourceInstructions src).data
  sizes : (sourcePass2 src).sizes = (Layout.after (sourceInstructions src).data).sizes

theorem Accepted.image {src : SourceBuffer} (accepted : Accepted src) : SourceImage src := by
  obtain ⟨bytes, relocations, emissions, sizes⟩ := pass2Run_image accepted.program
  exact ⟨bytes, relocations, emissions, sizes⟩

theorem Accepted.checked {src : SourceBuffer} (accepted : Accepted src)
    {before after : List Instruction} {instr : Instruction}
    (split : (sourceInstructions src).data = before ++ instr :: after) :
    StatementChecked (sourcePass1 src).symtable (Layout.after before) instr :=
  statementChecked accepted.program split

end Nazm.Passes
