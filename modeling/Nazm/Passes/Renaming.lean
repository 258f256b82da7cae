import Nazm.Parser.Names
import Nazm.Passes.Sections
import Nazm.Symtable.Renaming

/-!
Programs under a renaming of their symbols.

Owns what renaming the symbols of a program does to its layout, checks, events
and debug rows.

Does not own symbol tables, nor the results of the passes.
-/

namespace Nazm.Passes

open Nazm.Encoder Nazm.Parser Nazm.Symtable Nazm.Unicode Nazm.Diagnostics

section Statements

variable (rename : List UInt8 → List UInt8) (instr : Instruction)

/-! ## Sizes and checks -/

@[simp] theorem directiveKind_renamed : (instr.renamed rename).directiveKind = instr.directiveKind :=
  rfl

@[simp] theorem opcode_renamed : (instr.renamed rename).opcode = instr.opcode := rfl

@[simp] theorem ops_renamed :
    (instr.renamed rename).ops = instr.ops.map (Operand.renamed rename) :=
  rfl

theorem instructionSize_renamed : instructionSize (instr.renamed rename) = instructionSize instr := by
  rw [instructionSize, instructionSize, opcode_renamed, ops_renamed, encoderInstructionSize_renamed]

theorem addStringSize_renamed (total : Int) (op : Operand) :
    addStringSize total (op.renamed rename) = addStringSize total op := by
  obtain ⟨kind, line, col, endCol⟩ := op
  cases kind <;> rfl

theorem dataDirectiveSize_renamed :
    dataDirectiveSize (instr.renamed rename) = dataDirectiveSize instr := by
  unfold dataDirectiveSize
  rw [directiveKind_renamed, ops_renamed]
  split
  · rw [List.foldl_map]
    simp only [addStringSize_renamed]
  · rw [List.length_map]
  · rw [List.length_map]
  · rw [List.length_map]
  · rw [List.length_map]
  · match instr.ops with
    | [] => rfl
    | ⟨kind, _, _, _⟩ :: _ => cases kind <;> rfl
  · rfl

theorem alignmentBoundary?_renamed :
    alignmentBoundary? (instr.renamed rename) = alignmentBoundary? instr := by
  unfold alignmentBoundary?
  rw [directiveKind_renamed, ops_renamed]
  match instr.ops with
  | [] => rfl
  | [⟨kind, _, _, _⟩] => cases instr.directiveKind <;> cases kind <;> rfl
  | ⟨kind, _, _, _⟩ :: _ :: _ => cases instr.directiveKind <;> cases kind <;> rfl

theorem dataDirectiveSizeAt_renamed (offset : Nat) :
    dataDirectiveSizeAt (instr.renamed rename) offset = dataDirectiveSizeAt instr offset := by
  rw [dataDirectiveSizeAt, dataDirectiveSizeAt, alignmentBoundary?_renamed,
    dataDirectiveSize_renamed]

theorem stringOperandsFault_renamed (index : Nat) (ops : List Operand) :
    stringOperandsFault index (ops.map (Operand.renamed rename)) = stringOperandsFault index ops := by
  induction ops generalizing index with
  | nil => rfl
  | cons op ops inductionHypothesis =>
      obtain ⟨kind, line, col, endCol⟩ := op
      cases kind <;> first | rfl | exact inductionHypothesis _

theorem integerOperandsFault_renamed (bits index : Nat) (ops : List Operand) :
    integerOperandsFault bits index (ops.map (Operand.renamed rename)) =
      integerOperandsFault bits index ops := by
  induction ops generalizing index with
  | nil => rfl
  | cons op ops inductionHypothesis =>
      obtain ⟨kind, line, col, endCol⟩ := op
      cases kind with
      | imm value =>
          have next := inductionHypothesis (index + 1)
          simp only [List.map_cons, Operand.renamed, OperandKind.renamed, integerOperandsFault, next]
      | label name =>
          have next := inductionHypothesis (index + 1)
          simp only [List.map_cons, Operand.renamed, OperandKind.renamed, integerOperandsFault, next]
      | _ => rfl

theorem map_renamed_eq_nil (ops : List Operand) :
    ops.map (Operand.renamed rename) = [] ↔ ops = [] :=
  List.map_eq_nil_iff

theorem dataDirectiveFault_renamed :
    dataDirectiveFault (instr.renamed rename) = dataDirectiveFault instr := by
  unfold dataDirectiveFault
  rw [directiveKind_renamed, ops_renamed]
  split
  · simp only [map_renamed_eq_nil, stringOperandsFault_renamed]
  · match instr.ops with
    | [] => rfl
    | [⟨kind, _, _, _⟩] => cases kind <;> rfl
    | ⟨kind, _, _, _⟩ :: _ :: _ => cases kind <;> rfl
  · match instr.ops with
    | [] => rfl
    | [⟨kind, _, _, _⟩] => cases kind <;> rfl
    | ⟨kind, _, _, _⟩ :: _ :: _ => cases kind <;> rfl
  · simp only [map_renamed_eq_nil, integerOperandsFault_renamed]

/-! ## Debug directives -/

theorem debugFileDirective_renamed (files : List DebugFile) :
    debugFileDirective files (instr.renamed rename) = debugFileDirective files instr := by
  unfold debugFileDirective
  rw [directiveKind_renamed, ops_renamed]
  match instr.ops with
  | [] => rfl
  | [⟨first, _, _, _⟩] => cases first <;> rfl
  | [⟨first, _, _, _⟩, ⟨second, _, _, _⟩] => cases first <;> cases second <;> rfl
  | ⟨first, _, _, _⟩ :: ⟨second, _, _, _⟩ :: _ :: _ => cases first <;> cases second <;> rfl

theorem debugLocationFault_renamed :
    debugLocationFault (instr.renamed rename) = debugLocationFault instr := by
  unfold debugLocationFault
  rw [ops_renamed]
  match instr.ops with
  | [] => rfl
  | [⟨first, _, _, _⟩] => cases first <;> rfl
  | [⟨first, _, _, _⟩, ⟨second, _, _, _⟩] => cases first <;> cases second <;> rfl
  | [⟨first, _, _, _⟩, ⟨second, _, _, _⟩, ⟨third, _, _, _⟩] =>
      cases first <;> cases second <;> cases third <;> rfl
  | ⟨first, _, _, _⟩ :: ⟨second, _, _, _⟩ :: ⟨third, _, _, _⟩ :: _ :: _ =>
      cases first <;> cases second <;> cases third <;> rfl

theorem debugLocationFile?_renamed :
    debugLocationFile? (instr.renamed rename) = debugLocationFile? instr := by
  unfold debugLocationFile?
  rw [directiveKind_renamed, ops_renamed]
  match instr.ops with
  | [] => rfl
  | [⟨first, _, _, _⟩] => cases instr.directiveKind <;> cases first <;> rfl
  | [⟨first, _, _, _⟩, _] => cases instr.directiveKind <;> cases first <;> rfl
  | [⟨first, _, _, _⟩, _, _] => cases instr.directiveKind <;> cases first <;> rfl
  | ⟨first, _, _, _⟩ :: _ :: _ :: _ :: _ => cases instr.directiveKind <;> cases first <;> rfl

theorem location?_renamed : location? (instr.renamed rename) = location? instr := by
  by_cases isLocation : instr.directiveKind = .debugLocation
  · unfold location?
    rw [directiveKind_renamed, ops_renamed, isLocation]
    match instr.ops with
    | [] => rfl
    | [⟨first, _, _, _⟩] => cases first <;> rfl
    | [⟨first, _, _, _⟩, ⟨second, _, _, _⟩] => cases first <;> cases second <;> rfl
    | [⟨first, _, _, _⟩, ⟨second, _, _, _⟩, ⟨third, _, _, _⟩] =>
        cases first <;> cases second <;> cases third <;> rfl
    | ⟨first, _, _, _⟩ :: ⟨second, _, _, _⟩ :: ⟨third, _, _, _⟩ :: _ :: _ =>
        cases first <;> cases second <;> cases third <;> rfl
  · have none : location? (instr.renamed rename) = none := location?_of_other isLocation
    rw [none, location?_of_other isLocation]

theorem isDebugFile_renamed : isDebugFile (instr.renamed rename) = isDebugFile instr := rfl

theorem declaredFile?_renamed : declaredFile? (instr.renamed rename) = declaredFile? instr := by
  rw [declaredFile?, declaredFile?, isDebugFile_renamed, debugFileDirective_renamed]

/-! ## Layout -/

theorem statementSize_renamed (layout : Layout) :
    layout.statementSize (instr.renamed rename) = layout.statementSize instr := by
  rw [Layout.statementSize, Layout.statementSize, directiveKind_renamed, opcode_renamed,
    instructionSize_renamed, dataDirectiveSizeAt_renamed]

theorem place_renamed (layout : Layout) : layout.place (instr.renamed rename) = layout.place instr := by
  rw [Layout.place, Layout.place, statementSize_renamed]
  rfl

theorem statementRows_renamed (location : DebugLocation) (layout : Layout) :
    statementRows location layout (instr.renamed rename) = statementRows location layout instr :=
  rfl

theorem pass1NoteAlignment_renamed (alignments : SectionAlignments) (section_ : SymbolSection) :
    pass1NoteAlignment alignments section_ (instr.renamed rename) =
      pass1NoteAlignment alignments section_ instr := by
  rw [pass1NoteAlignment, pass1NoteAlignment, alignmentBoundary?_renamed]

/-! ## Events -/

theorem declaration?_renamed :
    declaration? (instr.renamed rename) = (declaration? instr).map (SymbolEvent.renamed rename) := by
  unfold declaration?
  rw [directiveKind_renamed, ops_renamed]
  match instr.ops with
  | [] => cases instr.directiveKind <;> rfl
  | [⟨kind, _, _, _⟩] => cases instr.directiveKind <;> cases kind <;> rfl
  | ⟨kind, _, _, _⟩ :: _ :: _ => cases instr.directiveKind <;> cases kind <;> rfl

theorem definedLabel?_renamed :
    definedLabel? (instr.renamed rename) = (definedLabel? instr).map rename := by
  rw [definedLabel?, definedLabel?]
  by_cases enters : EntersLabel instr
  · have enters' : EntersLabel (instr.renamed rename) := enters
    rw [if_pos enters, if_pos enters']
    rfl
  · have skips : ¬ EntersLabel (instr.renamed rename) := enters
    rw [if_neg enters, if_neg skips]
    rfl

theorem statementEvent?_renamed (layout : Layout) :
    statementEvent? layout (instr.renamed rename) =
      (statementEvent? layout instr).map (SymbolEvent.renamed rename) := by
  rw [statementEvent?, statementEvent?, directiveKind_renamed, declaration?_renamed, definition?,
    definition?, definedLabel?_renamed]
  split
  · rfl
  · rw [Option.map_map, Option.map_map]
    rfl

theorem statementPasses_renamed (section_ : SymbolSection) :
    StatementPasses section_ (instr.renamed rename) ↔ StatementPasses section_ instr := by
  have accepted : StatementAccepted section_ (instr.renamed rename) ↔
      StatementAccepted section_ instr := by
    constructor
    · rintro ⟨known, notText, faultless, bssOnly⟩
      rw [dataDirectiveFault_renamed] at faultless
      exact ⟨known, notText, faultless, bssOnly⟩
    · rintro ⟨known, notText, faultless, bssOnly⟩
      rw [← dataDirectiveFault_renamed rename] at faultless
      exact ⟨known, notText, faultless, bssOnly⟩
  have declares : (declaration? (instr.renamed rename)).isSome = (declaration? instr).isSome := by
    rw [declaration?_renamed, Option.isSome_map]
  constructor
  · rintro ⟨isAccepted, visible, file, location⟩
    rw [declares] at visible
    rw [declaredFile?_renamed] at file
    rw [debugLocationFault_renamed] at location
    exact ⟨accepted.mp isAccepted, visible, file, location⟩
  · rintro ⟨isAccepted, visible, file, location⟩
    rw [← declares] at visible
    rw [← declaredFile?_renamed rename] at file
    rw [← debugLocationFault_renamed rename] at location
    exact ⟨accepted.mpr isAccepted, visible, file, location⟩

end Statements

section Programs

variable (rename : List UInt8 → List UInt8) (statements : List Instruction)

/-! ## Programs -/

theorem places_renamed (layout : Layout) :
    layout.places (statements.map (Instruction.renamed rename)) =
      (layout.places statements).map fun place => (place.1, place.2.renamed rename) := by
  induction statements generalizing layout with
  | nil => rfl
  | cons instr statements inductionHypothesis =>
      rw [List.map_cons, Layout.places, Layout.places, place_renamed, inductionHypothesis]
      rfl

theorem after_renamed :
    Layout.after (statements.map (Instruction.renamed rename)) = Layout.after statements := by
  rw [Layout.after, Layout.after, List.foldl_map]
  simp only [place_renamed]

theorem programEvents_renamed :
    programEvents (statements.map (Instruction.renamed rename)) =
      (programEvents statements).map (SymbolEvent.renamed rename) := by
  rw [programEvents, programEvents, places_renamed, List.filterMap_map, List.map_filterMap]
  refine List.filterMap_congr fun place _ => ?_
  exact statementEvent?_renamed rename place.2 place.1

theorem programAlignments_renamed :
    programAlignments (statements.map (Instruction.renamed rename)) =
      programAlignments statements := by
  rw [programAlignments, programAlignments, places_renamed, List.foldl_map]
  simp only [pass1NoteAlignment_renamed]

theorem declaredFiles_renamed :
    (statements.map (Instruction.renamed rename)).filterMap declaredFile? =
      statements.filterMap declaredFile? := by
  rw [List.filterMap_map]
  exact List.filterMap_congr fun instr _ => declaredFile?_renamed rename instr

theorem rowsFrom_renamed (location : DebugLocation) (places : List (Layout × Instruction)) :
    rowsFrom location (places.map fun place => (place.1, place.2.renamed rename)) =
      rowsFrom location places := by
  induction places generalizing location with
  | nil => rfl
  | cons place places inductionHypothesis =>
      rw [List.map_cons, rowsFrom, rowsFrom, statementRows_renamed, location?_renamed,
        inductionHypothesis]

theorem programRows_renamed :
    programRows (statements.map (Instruction.renamed rename)) = programRows statements := by
  rw [programRows, programRows, places_renamed, rowsFrom_renamed]

variable {rename statements}

/-- The name of an event of a program is a name of the program. -/
theorem name_mem_of_event {event : SymbolEvent} (member : event ∈ programEvents statements) :
    event.name ∈ programNames statements := by
  obtain ⟨⟨layout, instr⟩, inPlaces, isEvent⟩ := List.mem_filterMap.mp member
  have inStatements : instr ∈ statements := by
    rw [← map_snd_places Layout.start statements]
    exact List.mem_map.mpr ⟨_, inPlaces, rfl⟩
  refine mem_programNames inStatements ?_
  dsimp only at isEvent
  unfold statementEvent? at isEvent
  split at isEvent
  · obtain ⟨label, line, col, endCol, ops, same⟩ := declaration?_eq_some isEvent
    have named : event.name = label := by
      rcases same with ⟨-, rfl⟩ | ⟨-, rfl⟩ | ⟨-, rfl⟩ <;> rfl
    rw [named]
    have member : ⟨.label label, line, col, endCol⟩ ∈ instr.ops := by
      rw [ops]
      exact List.mem_singleton_self _
    exact mem_names_of_operand member rfl
  · obtain ⟨label, isLabel, rfl⟩ := Option.map_eq_some_iff.mp isEvent
    refine mem_names_of_label ?_
    unfold definedLabel? at isLabel
    split at isLabel
    · exact isLabel
    · contradiction

/-- A renaming under which no two names of a program become one. -/
def Distinguishes (rename : List UInt8 → List UInt8) (statements : List Instruction) : Prop :=
  Set.InjOn rename {name | name ∈ programNames statements}

theorem Distinguishes.keepsApart (distinguishes : Distinguishes rename statements) :
    KeepsApart rename (programEvents statements) := by
  rintro _ ⟨first, inFirst, rfl⟩ _ ⟨second, inSecond, rfl⟩ equal
  exact distinguishes (name_mem_of_event inFirst) (name_mem_of_event inSecond) equal

theorem visibilityResolved_renamed (apart : KeepsApart rename (programEvents statements)) :
    VisibilityResolved ((programEvents statements).map (SymbolEvent.renamed rename)) ↔
      VisibilityResolved (programEvents statements) := by
  constructor
  · intro resolved name binding declared
    rcases resolved (rename name) binding (mem_renamed_declare.mpr ⟨name, rfl, declared⟩) with
      defined | isExternal
    · rw [definedNames_renamed, List.mem_map] at defined
      obtain ⟨other, isDefined, equal⟩ := defined
      have same : other = name :=
        apart (exists_define_of_definedName isDefined) ⟨_, declared, rfl⟩ equal
      exact .inl (same ▸ isDefined)
    · obtain ⟨other, equal, isExternal⟩ := mem_renamed_external.mp isExternal
      have same : name = other := apart ⟨_, declared, rfl⟩ ⟨_, isExternal, rfl⟩ equal
      exact .inr (same ▸ isExternal)
  · intro resolved name binding declared
    obtain ⟨old, rfl, declaredOld⟩ := mem_renamed_declare.mp declared
    rcases resolved old binding declaredOld with defined | isExternal
    · rw [definedNames_renamed]
      exact .inl (List.mem_map_of_mem defined)
    · exact .inr (mem_renamed_external.mpr ⟨old, rfl, isExternal⟩)

theorem locationsDeclared_renamed :
    LocationsDeclared (statements.map (Instruction.renamed rename)) ↔
      LocationsDeclared statements := by
  rw [LocationsDeclared, LocationsDeclared, declaredFiles_renamed, List.forall_mem_map]
  simp only [debugLocationFile?_renamed]

theorem walkAccepts_renamed (apart : KeepsApart rename (programEvents statements)) :
    WalkAccepts (statements.map (Instruction.renamed rename)) ↔ WalkAccepts statements := by
  constructor
  · rintro ⟨passes, events, files⟩
    rw [programEvents_renamed, eventsConsistent_renamed apart] at events
    rw [declaredFiles_renamed] at files
    refine ⟨fun before instr after split => ?_, events, files⟩
    have here := passes (before.map (Instruction.renamed rename)) (instr.renamed rename)
      (after.map (Instruction.renamed rename)) (by rw [split]; simp)
    rwa [after_renamed, statementPasses_renamed] at here
  · rintro ⟨passes, events, files⟩
    refine ⟨fun before instr after split => ?_, ?_, ?_⟩
    · obtain ⟨front, rest, rfl, rfl, equal⟩ := List.map_eq_append_iff.mp split
      obtain ⟨old, back, rfl, rfl, rfl⟩ := List.map_eq_cons_iff.mp equal
      rw [after_renamed, statementPasses_renamed]
      exact passes front old back rfl
    · rwa [programEvents_renamed, eventsConsistent_renamed apart]
    · rwa [declaredFiles_renamed]

/-- Pass 1 accepts a renamed program as it accepts the program. -/
theorem programPasses_renamed (distinguishes : Distinguishes rename statements) :
    ProgramPasses (statements.map (Instruction.renamed rename)) ↔ ProgramPasses statements := by
  have apart := distinguishes.keepsApart
  constructor
  · rintro ⟨walk, resolved, located⟩
    rw [programEvents_renamed, visibilityResolved_renamed apart] at resolved
    exact ⟨(walkAccepts_renamed apart).mp walk, resolved, locationsDeclared_renamed.mp located⟩
  · rintro ⟨walk, resolved, located⟩
    refine ⟨(walkAccepts_renamed apart).mpr walk, ?_, locationsDeclared_renamed.mpr located⟩
    rwa [programEvents_renamed, visibilityResolved_renamed apart]

end Programs

end Nazm.Passes
