import Nazm.Parser.Statements
import Nazm.Passes.SymbolFields

/-!
The layout of a program, and that both passes follow it.

Owns the abstract layout (which section a statement stands in, at which offset,
and how many bytes it takes), the statements pass 1 accepts, and the refinement
of the layout by the walks of pass 1 and pass 2.

Does not own what the bytes are.
-/

namespace Nazm.Passes

open Nazm.Encoder Nazm.Parser Nazm.Lexer Nazm.Symtable Nazm.Unicode Nazm.Diagnostics

/-! ## Section sizes -/

@[simp] theorem SectionSizes.get_add (sizes : SectionSizes) (section_ other : SymbolSection)
    (amount : Nat) :
    (sizes.add section_ amount).get other =
      if section_ = other then sizes.get other + amount else sizes.get other := by
  cases section_ <;> cases other <;> rfl

@[simp] theorem SectionSizes.add_zero (sizes : SectionSizes) (section_ : SymbolSection) :
    sizes.add section_ 0 = sizes := by
  cases section_ <;> rfl

theorem SectionSizes.ext_get {first second : SectionSizes}
    (equal : ∀ section_, first.get section_ = second.get section_) : first = second := by
  obtain ⟨text, data, readOnlyData, bss⟩ := first
  have textEqual := equal .text
  have dataEqual := equal .data
  have readOnlyEqual := equal .readOnlyData
  have bssEqual := equal .bss
  simp only [SectionSizes.get] at textEqual dataEqual readOnlyEqual bssEqual
  rw [textEqual, dataEqual, readOnlyEqual, bssEqual]

/-! ## Kinds of directives -/

theorem noSwitch_of_data {kind : DirectiveKind} (isData : isDataDirective kind = true) :
    sectionSwitch? kind = none := by
  cases kind <;> first | rfl | contradiction

theorem noData_of_switch {kind : DirectiveKind} {section_ : SymbolSection}
    (switch : sectionSwitch? kind = some section_) : isDataDirective kind = false := by
  cases kind <;> first | rfl | contradiction

/-! ## The abstract layout -/

/-- Where the next statement goes: the current section, and the size of each. -/
structure Layout where
  section_ : SymbolSection
  sizes : SectionSizes
deriving DecidableEq, Repr

namespace Layout

def start : Layout := ⟨.text, .zero⟩

/-- The offset of the next statement in its section. -/
def offset (layout : Layout) : Nat := layout.sizes.get layout.section_

/-- The bytes a statement takes there. -/
def statementSize (layout : Layout) (instr : Instruction) : Nat :=
  if instr.directiveKind = .none then
    if instr.opcode = .invalid ∨ layout.section_ ≠ .text then 0 else instructionSize instr
  else if isDataDirective instr.directiveKind then
    (dataDirectiveSizeAt instr layout.offset).toNat
  else 0

/-- The section a statement leaves the program in. -/
def sectionAfter (layout : Layout) (instr : Instruction) : SymbolSection :=
  (sectionSwitch? instr.directiveKind).getD layout.section_

/-- Lay out one statement. -/
def place (layout : Layout) (instr : Instruction) : Layout :=
  ⟨layout.sectionAfter instr,
    layout.sizes.add layout.section_ (layout.statementSize instr)⟩

/-- A directive that neither switches sections nor holds data. -/
theorem place_of_aside (layout : Layout) {instr : Instruction}
    (noSwitch : sectionSwitch? instr.directiveKind = none)
    (noData : isDataDirective instr.directiveKind = false)
    (directive : instr.directiveKind ≠ .none) : layout.place instr = layout := by
  simp [place, sectionAfter, statementSize, noSwitch, noData, directive]

theorem place_of_switch (layout : Layout) {instr : Instruction} {section_ : SymbolSection}
    (switch : sectionSwitch? instr.directiveKind = some section_) :
    layout.place instr = ⟨section_, layout.sizes⟩ := by
  have directive : instr.directiveKind ≠ .none := by
    intro none
    simp [none, sectionSwitch?] at switch
  have noData := noData_of_switch switch
  simp [place, sectionAfter, statementSize, switch, directive, noData]

/-- A data directive stays in its section. -/
theorem place_of_data (layout : Layout) {instr : Instruction}
    (isData : isDataDirective instr.directiveKind = true) :
    layout.place instr =
      ⟨layout.section_,
        layout.sizes.add layout.section_ (dataDirectiveSizeAt instr layout.offset).toNat⟩ := by
  have directive : instr.directiveKind ≠ .none := by
    intro none
    simp [none, isDataDirective] at isData
  have noSwitch := noSwitch_of_data isData
  simp [place, sectionAfter, statementSize, noSwitch, isData, directive]

/-- The layout after the first statements of a program. -/
def after (statements : List Instruction) : Layout := statements.foldl place start

@[simp] theorem after_snoc (statements : List Instruction) (instr : Instruction) :
    after (statements ++ [instr]) = (after statements).place instr := by
  simp [after]

/-! ### Sections only grow -/

theorem get_le_place (layout : Layout) (instr : Instruction) (section_ : SymbolSection) :
    layout.sizes.get section_ ≤ (layout.place instr).sizes.get section_ := by
  simp only [place, SectionSizes.get_add]
  split <;> omega

theorem get_le_foldl (layout : Layout) (statements : List Instruction)
    (section_ : SymbolSection) :
    layout.sizes.get section_ ≤ (statements.foldl place layout).sizes.get section_ := by
  induction statements generalizing layout with
  | nil => exact Nat.le_refl _
  | cons instr statements inductionHypothesis =>
      exact Nat.le_trans (layout.get_le_place instr section_) (inductionHypothesis _)

theorem get_after_le (before after_ : List Instruction) (section_ : SymbolSection) :
    (after before).sizes.get section_ ≤ (after (before ++ after_)).sizes.get section_ := by
  simp only [after, List.foldl_append]
  exact get_le_foldl _ _ _

end Layout

/-! ## Statements that pass 1 accepts -/

/-- What pass 1 requires of a statement in a section, beside its symbols. -/
structure StatementAccepted (section_ : SymbolSection) (instr : Instruction) : Prop where
  known : instr.directiveKind ≠ .invalid
  notText : isDataDirective instr.directiveKind = true → section_ ≠ .text
  faultless : isDataDirective instr.directiveKind = true → dataDirectiveFault instr = none
  bssOnly : isDataDirective instr.directiveKind = true → section_ = .bss →
    instr.directiveKind = .zeroSpace ∨ instr.directiveKind = .alignment

/-- The layout reached by pass 1. -/
def Pass1State.layout (state : Pass1State) : Layout := ⟨state.currentSection, state.offsets⟩

section Pass1

variable (instructions : InstructionList)

@[simp] theorem addDirectiveError_dirty (errors : ErrorList) (instr : Instruction)
    (index : Option Nat) (message : List UInt8) :
    errorHasAny (addDirectiveError errors instructions instr index message) = true :=
  errorHasAny_errorAddSpan _ _ _ _ _ _

@[simp] theorem addVisibilityError_dirty (errors : ErrorList) (instr : Instruction)
    (message : List UInt8) :
    errorHasAny (addVisibilityError errors instructions instr message) = true :=
  errorHasAny_errorAddSpan _ _ _ _ _ _

@[simp] theorem pass1Fault_dirty (state : Pass1State) (instr : Instruction)
    (fault : DirectiveFault) :
    errorHasAny (pass1Fault instructions state instr fault).errors = true :=
  addDirectiveError_dirty _ _ _ _ _

@[simp] theorem pass1VisibilityError_dirty (state : Pass1State) (instr : Instruction)
    (message : List UInt8) :
    errorHasAny (pass1VisibilityError instructions state instr message).errors = true :=
  addVisibilityError_dirty _ _ _ _

/-- Entering a label does not move anything. -/
theorem pass1Label_layout (state : Pass1State) (instr : Instruction) :
    (pass1Label instructions state instr).layout = state.layout := by
  unfold pass1Label
  split
  · rfl
  · split <;> rfl

/-- A step that reports nothing leaves the errors as they were. -/
def Quiet (state next : Pass1State) : Prop :=
  errorHasAny next.errors = false → next.errors = state.errors

variable {instructions}

theorem quiet_of_dirty {state next : Pass1State} (dirty : errorHasAny next.errors = true) :
    Quiet state next := fun clean => by
  rw [dirty] at clean
  contradiction

theorem pass1Label_quiet (state : Pass1State) (instr : Instruction) :
    Quiet state (pass1Label instructions state instr) := by
  unfold pass1Label
  split
  · exact fun _ => rfl
  · split
    · exact fun _ => rfl
    · exact quiet_of_dirty (errorHasAny_errorAddSpan _ _ _ _ _ _)

theorem pass1External_spec (state : Pass1State) (instr : Instruction) :
    (pass1External instructions state instr).layout = state.layout ∧
      Quiet state (pass1External instructions state instr) := by
  unfold pass1External
  split
  · split
    · exact ⟨rfl, fun _ => rfl⟩
    · exact ⟨rfl, quiet_of_dirty (pass1VisibilityError_dirty _ _ _ _)⟩
  · exact ⟨rfl, quiet_of_dirty (pass1VisibilityError_dirty _ _ _ _)⟩

theorem pass1Visibility_spec (state : Pass1State) (instr : Instruction) (binding : SymbolBinding) :
    (pass1Visibility instructions state instr binding).layout = state.layout ∧
      Quiet state (pass1Visibility instructions state instr binding) := by
  unfold pass1Visibility
  split
  · split
    · exact ⟨rfl, fun _ => rfl⟩
    · exact ⟨rfl, quiet_of_dirty (pass1VisibilityError_dirty _ _ _ _)⟩
  · exact ⟨rfl, quiet_of_dirty (pass1VisibilityError_dirty _ _ _ _)⟩

theorem pass1DebugFile_spec (state : Pass1State) (instr : Instruction) :
    (pass1DebugFile instructions state instr).layout = state.layout ∧
      Quiet state (pass1DebugFile instructions state instr) := by
  unfold pass1DebugFile
  split
  · exact ⟨rfl, fun _ => rfl⟩
  · exact ⟨rfl, quiet_of_dirty (pass1Fault_dirty _ _ _ _)⟩

theorem pass1DebugLocation_spec (state : Pass1State) (instr : Instruction) :
    (pass1DebugLocation instructions state instr).layout = state.layout ∧
      Quiet state (pass1DebugLocation instructions state instr) := by
  unfold pass1DebugLocation
  split
  · exact ⟨rfl, fun _ => rfl⟩
  · exact ⟨rfl, quiet_of_dirty (pass1Fault_dirty _ _ _ _)⟩

/-- What a data directive does when pass 1 reports nothing. -/
structure DataAccepted (instructions : InstructionList) (state : Pass1State)
    (instr : Instruction) : Prop where
  notText : state.currentSection ≠ .text
  faultless : dataDirectiveFault instr = none
  bssOnly : state.currentSection = .bss →
    instr.directiveKind = .zeroSpace ∨ instr.directiveKind = .alignment
  labelled : ∃ noted : Pass1State,
    noted.layout = state.layout ∧ noted.symtable = state.symtable ∧
    noted.errors = state.errors ∧ noted.debugFiles = state.debugFiles ∧
    (pass1DataDirective instructions state instr).errors =
      (pass1Label instructions noted instr).errors ∧
    (pass1DataDirective instructions state instr).symtable =
      (pass1Label instructions noted instr).symtable
  offsets : (pass1DataDirective instructions state instr).layout =
    ⟨state.currentSection,
      state.offsets.add state.currentSection
        (dataDirectiveSizeAt instr (state.offsets.get state.currentSection)).toNat⟩

theorem pass1DataDirective_cases (state : Pass1State) (instr : Instruction)
    (clean : errorHasAny (pass1DataDirective instructions state instr).errors = false) :
    DataAccepted instructions state instr := by
  by_cases text : state.currentSection = .text
  · simp [pass1DataDirective, text] at clean
  cases fault : dataDirectiveFault instr with
  | some found => simp [pass1DataDirective, text, fault] at clean
  | none =>
      by_cases refused : state.currentSection = .bss ∧ instr.directiveKind ≠ .zeroSpace ∧
          instr.directiveKind ≠ .alignment
      · simp only [pass1DataDirective, if_neg text, fault, if_pos refused, pass1Fault_dirty] at clean
        contradiction
      · have moved := pass1Label_layout instructions
          { state with
            alignments := pass1NoteAlignment state.alignments state.currentSection instr } instr
        have sectionSame := congrArg Layout.section_ moved
        have sizesSame := congrArg Layout.sizes moved
        simp only [Pass1State.layout] at sectionSame sizesSame
        refine ⟨text, fault, fun bss => ?_, ⟨{ state with
          alignments := pass1NoteAlignment state.alignments state.currentSection instr },
          rfl, rfl, rfl, rfl, ?_, ?_⟩, ?_⟩
        · by_contra neither
          exact refused ⟨bss, not_or.mp neither⟩
        all_goals simp only [pass1DataDirective, if_neg text, fault, if_neg refused]
        · split <;> rfl
        · split <;> rfl
        · split
          · simp only [Pass1State.layout, sectionSame, sizesSame]
          · next empty =>
              rw [Int.toNat_of_nonpos (by omega), SectionSizes.add_zero]
              simp only [Pass1State.layout, sectionSame, sizesSame]

theorem pass1Statement_layout (state : Pass1State) {instr : Instruction}
    (kind : instr.directiveKind = .none) :
    (pass1Statement instructions state instr).layout = state.layout.place instr := by
  have moved := pass1Label_layout instructions state instr
  have sectionSame := congrArg Layout.section_ moved
  have sizesSame := congrArg Layout.sizes moved
  simp only [Pass1State.layout] at sectionSame sizesSame
  unfold pass1Statement
  simp only [Layout.place, Layout.sectionAfter, Layout.statementSize, kind, sectionSwitch?,
    Pass1State.layout, Option.getD_none, if_true]
  split
  · next empty => simp [empty, sectionSame, sizesSame]
  · next named =>
      split
      · next elsewhere =>
          rw [sectionSame] at elsewhere
          simp [elsewhere, sectionSame, sizesSame]
      · next text =>
          rw [sectionSame] at text
          simp only [ne_eq, not_not] at text
          simp [sectionSame, sizesSame, named, text]

theorem pass1Statement_errors (state : Pass1State) (instr : Instruction) :
    (pass1Statement instructions state instr).errors =
      (pass1Label instructions state instr).errors := by
  unfold pass1Statement
  dsimp only
  split
  · rfl
  · split <;> rfl

theorem pass1Statement_symtable (state : Pass1State) (instr : Instruction) :
    (pass1Statement instructions state instr).symtable =
      (pass1Label instructions state instr).symtable := by
  unfold pass1Statement
  dsimp only
  split
  · rfl
  · split <;> rfl

/-- A step of pass 1 that reports nothing lays its statement out, and accepts it. -/
theorem pass1Step_layout (state : Pass1State) (instr : Instruction)
    (clean : errorHasAny (pass1Step instructions state instr).errors = false) :
    (pass1Step instructions state instr).layout = state.layout.place instr ∧
      StatementAccepted state.currentSection instr ∧ errorHasAny state.errors = false := by
  -- a directive that leaves the layout alone
  have aside : ∀ next : Pass1State, next.layout = state.layout ∧ Quiet state next →
      errorHasAny next.errors = false → sectionSwitch? instr.directiveKind = none →
      isDataDirective instr.directiveKind = false → instr.directiveKind ≠ .none →
      instr.directiveKind ≠ .invalid →
      next.layout = state.layout.place instr ∧ StatementAccepted state.currentSection instr ∧
        errorHasAny state.errors = false := by
    intro next spec nextClean noSwitch noData directive known
    refine ⟨?_, ⟨known, ?_, ?_, ?_⟩, ?_⟩
    · rw [spec.1, Layout.place_of_aside _ noSwitch noData directive]
    · simp [noData]
    · simp [noData]
    · simp [noData]
    · rw [← spec.2 nextClean]
      exact nextClean
  have data : isDataDirective instr.directiveKind = true →
      pass1Step instructions state instr = pass1DataDirective instructions state instr →
      (pass1Step instructions state instr).layout = state.layout.place instr ∧
        StatementAccepted state.currentSection instr ∧ errorHasAny state.errors = false := by
    intro isData step
    rw [step] at clean ⊢
    have accepted := pass1DataDirective_cases state instr clean
    have known : instr.directiveKind ≠ .invalid := by
      intro invalid
      simp [invalid, isDataDirective] at isData
    refine ⟨?_, ⟨known, fun _ => accepted.notText, fun _ => accepted.faultless,
      fun _ => accepted.bssOnly⟩, ?_⟩
    · rw [accepted.offsets, Layout.place_of_data _ isData]
      rfl
    · obtain ⟨noted, -, -, sameErrors, -, errors, -⟩ := accepted.labelled
      rw [errors] at clean
      have quiet := pass1Label_quiet noted instr clean
      rw [← sameErrors, ← quiet]
      exact clean
  cases kind : instr.directiveKind with
  | none =>
      have step : pass1Step instructions state instr = pass1Statement instructions state instr := by
        rw [pass1Step, kind]
      rw [step] at clean ⊢
      refine ⟨?_, ⟨by simp [kind], by simp [kind, isDataDirective], by simp [kind, isDataDirective],
        by simp [kind, isDataDirective]⟩, ?_⟩
      · exact pass1Statement_layout state kind
      · rw [pass1Statement_errors] at clean
        rw [← pass1Label_quiet state instr clean]
        exact clean
  | text | data | readOnlyData | bss =>
      rw [pass1Step, kind] at clean ⊢
      refine ⟨?_, ⟨by simp [kind], by simp [kind, isDataDirective], by simp [kind, isDataDirective],
        by simp [kind, isDataDirective]⟩, clean⟩
      rw [Layout.place_of_switch _ (by rw [kind]; rfl)]
      rfl
  | int8 | int16 | int32 | int64 | alignment | zeroSpace | nulString =>
      exact data (by rw [kind]; rfl) (by rw [pass1Step, kind])
  | invalid => simp [pass1Step, kind] at clean
  | external =>
      rw [pass1Step, kind] at clean ⊢
      exact aside _ (pass1External_spec state instr) clean (by rw [kind]; rfl) (by rw [kind]; rfl)
        (by simp [kind]) (by simp [kind])
  | debugFile | debugFileBytes =>
      rw [pass1Step, kind] at clean ⊢
      exact aside _ (pass1DebugFile_spec state instr) clean (by rw [kind]; rfl) (by rw [kind]; rfl)
        (by simp [kind]) (by simp [kind])
  | debugLocation =>
      rw [pass1Step, kind] at clean ⊢
      exact aside _ (pass1DebugLocation_spec state instr) clean (by rw [kind]; rfl)
        (by rw [kind]; rfl) (by simp [kind]) (by simp [kind])
  | global =>
      rw [pass1Step, kind] at clean ⊢
      exact aside _ (pass1Visibility_spec state instr _) clean (by rw [kind]; rfl)
        (by rw [kind]; rfl) (by simp [kind]) (by simp [kind])
  | «local» =>
      rw [pass1Step, kind] at clean ⊢
      exact aside _ (pass1Visibility_spec state instr _) clean (by rw [kind]; rfl)
        (by rw [kind]; rfl) (by simp [kind]) (by simp [kind])

/-! ### Whole walks -/

theorem clean_of_foldl (statements : List Instruction) (state : Pass1State)
    (clean : errorHasAny (statements.foldl (pass1Step instructions) state).errors = false) :
    errorHasAny state.errors = false := by
  induction statements generalizing state with
  | nil => exact clean
  | cons instr statements inductionHypothesis =>
      exact (pass1Step_layout state instr (inductionHypothesis _ clean)).2.2

theorem reportUndefinedVisibilitySymbols_clean {symtable : SymbolTable} {errors : ErrorList}
    (clean : errorHasAny (reportUndefinedVisibilitySymbols instructions symtable errors) = false) :
    errorHasAny errors = false := by
  unfold reportUndefinedVisibilitySymbols at clean
  generalize symtable.entries = entries at clean
  induction entries generalizing errors with
  | nil => exact clean
  | cons entry entries inductionHypothesis =>
      have rest := inductionHypothesis clean
      dsimp only at rest
      split at rest
      · exact rest
      · split at rest
        · exact rest
        · simp at rest

theorem validateDebugLocationFiles_clean {files : List DebugFile} {errors : ErrorList}
    (clean : errorHasAny (validateDebugLocationFiles instructions files errors) = false) :
    errorHasAny errors = false := by
  unfold validateDebugLocationFiles at clean
  generalize instructions.data = statements at clean
  induction statements generalizing errors with
  | nil => exact clean
  | cons instr statements inductionHypothesis =>
      have rest := inductionHypothesis clean
      dsimp only at rest
      split at rest
      · exact rest
      · split at rest
        · exact rest
        · simp at rest

/-- Pass 1 reports nothing during its walk when it reports nothing at all. -/
theorem pass1Walk_clean (accepted : errorHasAny (pass1Run instructions).errors = false)
    {before after : List Instruction} (split : instructions.data = before ++ after) :
    errorHasAny (pass1Walk instructions before).errors = false := by
  have walked := reportUndefinedVisibilitySymbols_clean (validateDebugLocationFiles_clean accepted)
  rw [pass1Walk, split, List.foldl_append] at walked
  exact clean_of_foldl after _ walked

theorem pass1Walk_snoc (before : List Instruction) (instr : Instruction) :
    pass1Walk instructions (before ++ [instr]) =
      pass1Step instructions (pass1Walk instructions before) instr := by
  simp [pass1Walk]

/-- At every statement, pass 1 has reached the layout of the statements before it. -/
theorem pass1Walk_layout (accepted : errorHasAny (pass1Run instructions).errors = false)
    {before after : List Instruction} (split : instructions.data = before ++ after) :
    (pass1Walk instructions before).layout = Layout.after before := by
  refine Walk.foldl_invariant instructions.data
    (fun before (state : Pass1State) => state.layout = Layout.after before) rfl ?_ split
  intro before instr after split layout
  have clean := @pass1Walk_clean _ accepted (before ++ [instr]) after (by simpa using split)
  rw [pass1Walk_snoc] at clean
  rw [Layout.after_snoc, ← layout]
  exact (pass1Step_layout _ instr clean).1

/-- Pass 1 accepts each statement where it stands. -/
theorem statementAccepted (accepted : errorHasAny (pass1Run instructions).errors = false)
    {before after : List Instruction} {instr : Instruction}
    (split : instructions.data = before ++ instr :: after) :
    StatementAccepted (Layout.after before).section_ instr := by
  have clean := @pass1Walk_clean _ accepted (before ++ [instr]) after (by simpa using split)
  rw [pass1Walk_snoc] at clean
  rw [← pass1Walk_layout accepted split]
  exact (pass1Step_layout _ instr clean).2.1

theorem pass1Run_sizes (accepted : errorHasAny (pass1Run instructions).errors = false) :
    (pass1Run instructions).sizes = (Layout.after instructions.data).sizes :=
  congrArg Layout.sizes (pass1Walk_layout accepted (List.append_nil _).symm)

end Pass1

end Nazm.Passes
