import Mathlib.Data.List.Perm.Basic
import Nazm.Passes.Sections

/-!
Sections do not interfere.

Owns the orders of a list of statements that keep each section as it is, and
that both passes then accept each of them and return the same.

Does not own the passes on one list.
-/

namespace Nazm.Passes

open Nazm.Encoder Nazm.Parser Nazm.Lexer Nazm.Symtable Nazm.Unicode Nazm.Diagnostics

/-! ## Definitions by section -/

/-- The definitions in a section. -/
def definitionsIn (section_ : SymbolSection) (statements : List Instruction) : List SymbolEvent :=
  (taggedPlaces section_ statements).filterMap fun (offset, instr) =>
    definition? (Layout.alone section_ offset) instr

theorem definitionsIn_snoc (section_ : SymbolSection) (before : List Instruction)
    (instr : Instruction) :
    definitionsIn section_ (before ++ [instr]) = definitionsIn section_ before ++
      (if (Layout.after before).section_ = section_ then
        (definition? (Layout.after before) instr).toList
      else []) := by
  have given := @ite_tagged (Layout.after before) instr section_ _
    (fun layout => (definition? layout instr).toList) []
    (fun unplaced _ => by rw [definition?_of_unplaced unplaced]; rfl)
    (congrArg Option.toList definition?_alone)
  rw [given, definitionsIn, taggedPlaces_snoc, List.filterMap_append]
  congr 1
  split
  · cases definition : definition?
        (Layout.alone section_ ((Layout.after before).sizes.get section_)) instr <;>
      simp [definition]
  · rfl

/-- A statement declares or defines. -/
theorem statementEvent?_parts (layout : Layout) (instr : Instruction) :
    (statementEvent? layout instr).toList =
      (declaration? instr).toList ++ (definition? layout instr).toList := by
  rw [statementEvent?]
  split
  · next visible =>
      have skips : ¬ EntersLabel instr := by
        rw [EntersLabel]
        revert visible
        cases instr.directiveKind <;> simp [isVisibility, isDataDirective]
      rw [definition?, definedLabel?, if_neg skips]
      simp
  · next silent =>
      cases declared : declaration? instr with
      | none => simp
      | some event => exact absurd (isVisibility_of_declared declared) silent

/-- The events of a program are its declarations and the definitions of its sections. -/
theorem programEvents_sections (statements : List Instruction) :
    (programEvents statements).Perm
      (statements.filterMap declaration? ++ (definitionsIn .text statements ++
        definitionsIn .data statements ++ definitionsIn .readOnlyData statements ++
        definitionsIn .bss statements)) := by
  induction statements using List.reverseRecOn with
  | nil => exact .nil
  | append_singleton before instr inductionHypothesis =>
      have declarations : (before ++ [instr]).filterMap declaration? =
          before.filterMap declaration? ++ (declaration? instr).toList := by
        rw [List.filterMap_append]
        cases declared : declaration? instr <;> simp [declared]
      rw [programEvents_snoc, statementEvent?_parts, declarations]
      simp only [definitionsIn_snoc]
      rw [List.perm_iff_count] at inductionHypothesis ⊢
      intro event
      have before := inductionHypothesis event
      simp only [List.count_append] at before ⊢
      cases section_ : (Layout.after _).section_ <;> simp <;> omega

/-! ## Orders -/

def isSwitch (instr : Instruction) : Bool :=
  (sectionSwitch? instr.directiveKind).isSome

/-- The statements of a list in another order, section switches apart: each
keeps its section, and those of one section and the lines of `.ملف` keep their
order. A label on a line that `Placed` leaves out is not entered. -/
structure Reordered (first second : List Instruction) : Prop where
  sections : ∀ section_, taggedStatements section_ first = taggedStatements section_ second
  files : first.filter isDebugFile = second.filter isDebugFile
  statements : (first.filter fun instr => !isSwitch instr).Perm
    (second.filter fun instr => !isSwitch instr)

namespace Reordered

variable {first second : List Instruction}

theorem places (reordered : Reordered first second) (section_ : SymbolSection) :
    taggedPlaces section_ first = taggedPlaces section_ second := by
  rw [(taggedPlaces_eq section_ first).1, (taggedPlaces_eq section_ second).1,
    reordered.sections]

theorem sizes (reordered : Reordered first second) :
    (Layout.after first).sizes = (Layout.after second).sizes :=
  SectionSizes.ext_get fun section_ => by
    rw [(taggedPlaces_eq section_ first).2, (taggedPlaces_eq section_ second).2,
      reordered.sections]

theorem mem_iff (reordered : Reordered first second) {instr : Instruction}
    (noSwitch : isSwitch instr = false) : instr ∈ first ↔ instr ∈ second := by
  have member := @List.Perm.mem_iff _ instr _ _ reordered.statements
  simpa [List.mem_filter, noSwitch] using member

theorem alignments (reordered : Reordered first second) :
    programAlignments first = programAlignments second :=
  SectionAlignments.ext_get fun section_ notText => by
    rw [programAlignments_tagged _ notText, programAlignments_tagged _ notText,
      reordered.places]

theorem rows (reordered : Reordered first second) : programRows first = programRows second := by
  rw [programRows_tagged, programRows_tagged, reordered.places]

/-! ### Debug files -/

theorem declaredFiles (reordered : Reordered first second) :
    first.filterMap declaredFile? = second.filterMap declaredFile? := by
  have lines : ∀ statements : List Instruction,
      statements.filterMap declaredFile? =
        (statements.filter isDebugFile).filterMap declaredFile? := by
    intro statements
    rw [List.filterMap_filter]
    refine List.filterMap_congr fun instr _ => ?_
    cases isFile : isDebugFile instr with
    | false => exact declaredFile?_of_other isFile
    | true => rfl
  rw [lines, lines second, reordered.files]

theorem located (reordered : Reordered first second) (located : LocationsDeclared first) :
    LocationsDeclared second := by
  intro instr member id isLocation
  rw [← reordered.declaredFiles]
  refine located instr ((reordered.mem_iff ?_).mpr member) id isLocation
  unfold debugLocationFile? at isLocation
  split at isLocation
  · next kind _ =>
      rw [isSwitch, kind]
      rfl
  · contradiction

/-! ### Checks of pass 1 -/

theorem passes (reordered : Reordered first second)
    (passes : ∀ before instr after, first = before ++ instr :: after →
      StatementPasses (Layout.after before).section_ instr)
    {before after : List Instruction} {instr : Instruction}
    (split : second = before ++ instr :: after) :
    StatementPasses (Layout.after before).section_ instr := by
  by_cases isData : isDataDirective instr.directiveKind = true
  · -- a data directive stands in the same section in the first list
    have tagged : tag? (Layout.after before) instr = some (Layout.after before).section_ :=
      if_pos (.inr isData)
    have member : (_, instr) ∈ taggedPlaces _ second :=
      mem_taggedPlaces.mpr ⟨before, after, split, tagged, rfl⟩
    rw [← reordered.places] at member
    obtain ⟨front, back, split', tagged', -⟩ := mem_taggedPlaces.mp member
    rcases tag?_eq_some.mp tagged' with ⟨-, here⟩ | ⟨isLocation, -⟩
    · rw [← here]
      exact passes front instr back split'
    · rw [isLocation] at isData
      contradiction
  · by_cases switch : isSwitch instr = true
    · refine ⟨⟨?_, ?_, ?_, ?_⟩, ?_, ?_, ?_⟩
      all_goals
        revert switch isData
        rw [isSwitch]
        try rw [isDebugFile]
        cases instr.directiveKind <;> simp [sectionSwitch?, isDataDirective, isVisibility]
    · have member : instr ∈ first := (reordered.mem_iff (by simpa using switch)).mpr (by simp [split])
      obtain ⟨front, back, split'⟩ := List.append_of_mem member
      obtain ⟨accepted, declares, file, location⟩ := passes front instr back split'
      exact ⟨⟨accepted.known, fun same => absurd same isData, fun same => absurd same isData,
        fun same => absurd same isData⟩, declares, file, location⟩

theorem events (reordered : Reordered first second) :
    (programEvents first).Perm (programEvents second) := by
  have declarations : ∀ statements : List Instruction,
      statements.filterMap declaration? =
        (statements.filter fun instr => !isSwitch instr).filterMap declaration? := by
    intro statements
    rw [List.filterMap_filter]
    refine List.filterMap_congr fun instr _ => ?_
    cases switch : isSwitch instr with
    | false => rfl
    | true =>
        cases declared : declaration? instr with
        | none => rfl
        | some event =>
            have visible := isVisibility_of_declared declared
            revert switch visible
            rw [isSwitch]
            cases instr.directiveKind <;> simp [sectionSwitch?, isVisibility]
  have definitions : ∀ section_, definitionsIn section_ first = definitionsIn section_ second :=
    fun section_ => by rw [definitionsIn, definitionsIn, reordered.places]
  refine (programEvents_sections first).trans (.trans ?_ (programEvents_sections second).symm)
  simp only [definitions]
  rw [declarations, declarations second]
  exact (reordered.statements.filterMap _).append_right _

/-- Pass 1 accepts every order of an accepted program. -/
theorem programPasses (reordered : Reordered first second) (passes : ProgramPasses first) :
    ProgramPasses second where
  walk :=
    { passes := fun _ _ _ split => reordered.passes passes.walk.passes split
      events := (EventsConsistent.perm reordered.events).mp passes.walk.events
      files := by
        rw [← reordered.declaredFiles]
        exact passes.walk.files }
  resolved := by
    intro name binding declared
    have events := reordered.events
    rcases passes.resolved name binding (events.mem_iff.mpr declared) with defined | isExternal
    · exact .inl ((events.filterMap SymbolEvent.definedName?).mem_iff.mp defined)
    · exact .inr (events.mem_iff.mp isExternal)
  located := reordered.located passes.located

end Reordered

/-! ## Both passes -/

/-- Two symbol tables with the same entries. -/
def SameEntries (first second : SymbolTable) : Prop :=
  ∀ name, findEntry first name = findEntry second name

namespace SameEntries

variable {first second : SymbolTable}

theorem lookup (same : SameEntries first second) :
    symtableLookupEx first = symtableLookupEx second :=
  funext fun name => by rw [symtableLookupEx, symtableLookupEx, same]

theorem isExternal (same : SameEntries first second) :
    symtableIsExternal first = symtableIsExternal second :=
  funext fun name => by rw [symtableIsExternal, symtableIsExternal, same]

theorem known (same : SameEntries first second) : symbolKnown first = symbolKnown second :=
  funext fun name => by rw [symbolKnown, symbolKnown, same.lookup, same.isExternal]

theorem instructionBytes (same : SameEntries first second) :
    instructionBytes first = instructionBytes second := by
  funext instr textSize
  simp only [Passes.instructionBytes, branchDisplacement, same.lookup]

theorem statementBytes (same : SameEntries first second) :
    statementBytes first = statementBytes second := by
  funext layout instr
  simp only [Passes.statementBytes, same.instructionBytes]

theorem labelRelocations (same : SameEntries first second) (instr : Instruction)
    (textSize operandIndex : Nat) (ops : List Operand) :
    labelRelocations first instr textSize operandIndex ops =
      labelRelocations second instr textSize operandIndex ops := by
  induction ops generalizing operandIndex with
  | nil => rfl
  | cons op ops inductionHypothesis =>
      rw [Passes.labelRelocations, Passes.labelRelocations, inductionHypothesis]
      simp only [labelRelocation?, same.lookup]

theorem statementRelocations (same : SameEntries first second) :
    statementRelocations first = statementRelocations second := by
  funext layout instr
  simp only [Passes.statementRelocations, same.labelRelocations]

theorem programReady (same : SameEntries first second) {statements : List Instruction}
    (ready : ProgramReady first statements) : ProgramReady second statements := by
  intro before instr after split
  obtain ⟨instruction, data⟩ := ready before instr after split
  refine ⟨fun emits => ?_, fun stores => ?_⟩
  · obtain ⟨encoded, displaced, resolved, linked⟩ := instruction emits
    refine ⟨?_, displaced, fun op member => ⟨?_, ?_⟩, fun index op there => ?_⟩
    · rw [← same.instructionBytes]
      exact encoded
    · rw [← same.known]
      exact (resolved op member).known
    · rw [← same.lookup]
      exact (resolved op member).lands
    · rw [OperandLinked, ← same.lookup]
      exact linked index op there
  · obtain ⟨stored, known⟩ := data stores
    rw [same.known] at known
    exact ⟨stored, known⟩

end SameEntries

/-- The results of both passes on two lists are the same, but for the order in
which the relocations of different sections come, and the emission spans. -/
structure SameResults (first second : InstructionList) : Prop where
  entries : SameEntries (pass1Run first).symtable (pass1Run second).symtable
  alignments : (pass1Run first).alignments = (pass1Run second).alignments
  sizes : (pass1Run first).sizes = (pass1Run second).sizes
  bytes : ∀ section_, (pass2Run first (pass1Run first)).bytesIn section_ =
    (pass2Run second (pass1Run second)).bytesIn section_
  emitted : (pass2Run first (pass1Run first)).sizes = (pass2Run second (pass1Run second)).sizes
  relocations : ∀ section_ : RelocationSection,
    (pass2Run first (pass1Run first)).relocations.filter
        (fun relocation => decide (relocation.section_ = section_)) =
      (pass2Run second (pass1Run second)).relocations.filter
        (fun relocation => decide (relocation.section_ = section_))
  debugLines : (pass2Run first (pass1Run first)).debugLines =
    (pass2Run second (pass1Run second)).debugLines

/-- Sections do not interfere: both passes accept every order of an accepted
list that keeps each section as it is, and return the same. -/
theorem sections_do_not_interfere (first second : InstructionList)
    (sized : errorHasAny (pass1Run first).errors = false)
    (encoded : errorHasAny (pass2Run first (pass1Run first)).errors = false)
    (reordered : Reordered first.data second.data) :
    errorHasAny (pass1Run second).errors = false ∧
      errorHasAny (pass2Run second (pass1Run second)).errors = false ∧
      SameResults first second := by
  have passes := pass1Run_accepts_iff.mp sized
  have passes' := reordered.programPasses passes
  have sized' := pass1Run_accepts_iff.mpr passes'
  have entries : SameEntries (pass1Run first).symtable (pass1Run second).symtable := fun name => by
    rw [pass1Run_find passes, pass1Run_find passes',
      factsOf_perm reordered.events passes.walk.events]
  have ready' : ProgramReady (pass1Run second).symtable second.data := by
    have ready := entries.programReady (programReady_of_clean ⟨sized, encoded⟩)
    rw [programReady_tagged] at ready ⊢
    simpa only [reordered.places] using ready
  have encoded' := (pass2Run_accepts_iff sized').mpr ready'
  have accepted : ProgramAccepted first := ⟨sized, encoded⟩
  have accepted' : ProgramAccepted second := ⟨sized', encoded'⟩
  obtain ⟨bytes, relocations, -, sizes⟩ := pass2Run_image accepted
  obtain ⟨bytes', relocations', -, sizes'⟩ := pass2Run_image accepted'
  refine ⟨sized', encoded', entries, ?_, ?_, fun section_ => ?_, ?_, fun section_ => ?_, ?_⟩
  · have alignments := (pass1Run_reached passes).alignments
    have alignments' := (pass1Run_reached passes').alignments
    exact (alignments.trans reordered.alignments).trans alignments'.symm
  · rw [pass1Run_sizes sized, pass1Run_sizes sized', reordered.sizes]
  · rw [bytes, bytes', sectionImage_tagged, sectionImage_tagged, reordered.places,
      entries.statementBytes]
  · rw [sizes, sizes', reordered.sizes]
  · rw [relocations, relocations', programRelocations_tagged, programRelocations_tagged,
      reordered.places, entries.statementRelocations]
  · rw [pass2Run_rows accepted, pass2Run_rows accepted', reordered.rows]

/-- A return, and a global word with its address. -/
def plainReturn : Instruction :=
  ⟨.ret, [], some (utf8 "ر"), none, .none, 0, 0, 0, 0, 0, 0⟩

def addressWord : Instruction :=
  ⟨.invalid, [⟨.label (utf8 "ر"), 0, 0, 0⟩], some (utf8 "ق"), none, .int64, 0, 0, 0, 0, 0, 0⟩

def globalWord : Instruction :=
  ⟨.invalid, [⟨.label (utf8 "ق"), 0, 0, 0⟩], none, none, .global, 0, 0, 0, 0, 0, 0⟩

def switchTo (kind : DirectiveKind) : Instruction :=
  ⟨.invalid, [], none, none, kind, 0, 0, 0, 0, 0, 0⟩

/-- The return first, and the data first. -/
def returnFirst : InstructionList :=
  ⟨[plainReturn, switchTo .data, addressWord, globalWord], none⟩

def dataFirst : InstructionList :=
  ⟨[globalWord, switchTo .data, addressWord, switchTo .text, plainReturn], none⟩

theorem reordered_dataFirst : Reordered returnFirst.data dataFirst.data where
  sections section_ := by
    cases section_ <;> decide +kernel
  files := by decide +kernel
  statements := by decide +kernel

theorem sections_do_not_interfere_dataFirst :
    errorHasAny (pass1Run dataFirst).errors = false ∧
      errorHasAny (pass2Run dataFirst (pass1Run dataFirst)).errors = false ∧
      SameResults returnFirst dataFirst :=
  sections_do_not_interfere returnFirst dataFirst (by decide +kernel) (by decide +kernel)
    reordered_dataFirst

end Nazm.Passes
