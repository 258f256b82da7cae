import Nazm.Passes.LinkedStatements

/-!
Units that are assembled separately.

Owns what a unit exports, where a linker puts units, one source with the statements of all
of them, and that its passes place and define what the units place and define.

Does not own linked bytes.
-/

namespace Nazm.Passes

open Nazm.Encoder Nazm.Parser Nazm.Lexer Nazm.Symtable Nazm.Unicode Nazm.Diagnostics

/-! ## Units behind each other -/

/-- The sizes of two programs behind each other. -/
def SectionSizes.plus (first second : SectionSizes) : SectionSizes :=
  ⟨first.text + second.text, first.data + second.data, first.readOnlyData + second.readOnlyData,
    first.bss + second.bss⟩

@[simp] theorem SectionSizes.get_plus (first second : SectionSizes) (section_ : SymbolSection) :
    (first.plus second).get section_ = first.get section_ + second.get section_ := by
  cases section_ <;> rfl

/-- Units, each with the sizes of those in front of it. -/
def placeUnits : SectionSizes → List SourceBuffer → List (SectionSizes × SourceBuffer)
  | _, [] => []
  | start, unit :: units =>
      (start, unit) :: placeUnits (start.plus (sourcePass1 unit).sizes) units

/-- Where a unit defines a symbol that it declares `.عام`. -/
def exported (unit : SourceBuffer) (name : List UInt8) : Option (SymbolSection × Int) :=
  match findEntry (sourcePass1 unit).symtable name with
  | some entry =>
      if entry.defined = true ∧ entry.binding = .global then
        entry.section?.map fun section_ => (section_, entry.offset)
      else none
  | none => none

/-- The address of a symbol that one of the units exports. -/
def exportedAddress (base : SymbolSection → Int) (units : List SourceBuffer) (name : List UInt8) :
    Option Int :=
  (placeUnits .zero units).findSome? fun placed =>
    (exported placed.2 name).map fun found => base found.1 + placed.1.get found.1 + found.2

/-- What a linker tells a unit that it puts behind the sizes `start`. -/
def unitAddresses (addresses : Addresses) (units : List SourceBuffer) (start : SectionSizes) :
    Addresses where
  base section_ := addresses.base section_ + start.get section_
  external name := (exportedAddress addresses.base units name).getD (addresses.external name)

/-- A section of the units, each linked by itself, one behind the other. -/
def linkUnits (units : List SourceBuffer) (addresses : Addresses) (section_ : SymbolSection) :
    List UInt8 :=
  (placeUnits .zero units).flatMap fun placed =>
    linkedBytes placed.2 (unitAddresses addresses units placed.1) section_

/-! ## One source with all statements -/

/-- A line of `.خارجي` for a symbol that one of the units exports. -/
def importsFrom (units : List SourceBuffer) (instr : Instruction) : Bool :=
  match declaration? instr with
  | some (.external name) => units.any fun unit => (exported unit name).isSome
  | _ => false

/-- The statements of a unit, without the symbols that the others give it. -/
def unitStatements (units : List SourceBuffer) (unit : SourceBuffer) : List Instruction :=
  (sourceInstructions unit).data.filter fun instr => !importsFrom units instr

/-- A line of `.نص`. -/
def textLine : Instruction :=
  { emptyInstruction ⟨.eof, [], 0, 0, 0⟩ with
    directive := some (utf8 ".نص"), directiveKind := .text }

def joinedStatements (units : List SourceBuffer) : List Instruction :=
  units.flatMap fun unit => textLine :: unitStatements units unit

/-- Every boundary that a unit asks for divides what stands in front of the unit there. -/
def KeepsBoundaries (start : SectionSizes) (statements : List Instruction) : Prop :=
  ∀ place ∈ Layout.start.places statements, ∀ boundary ∈ alignmentBoundary? place.2,
    boundary ∣ start.get place.1.section_

/-- Statements that ask for no boundary can stand anywhere. -/
theorem keepsBoundaries_of_none {statements : List Instruction}
    (none : ∀ instr ∈ statements, alignmentBoundary? instr = none) (start : SectionSizes) :
    KeepsBoundaries start statements := by
  intro place isPlace boundary isBoundary
  obtain ⟨before, after, split, -⟩ := mem_places.mp isPlace
  have member : place.2 ∈ statements := by
    rw [split]
    exact List.mem_append_right _ List.mem_cons_self
  rw [none place.2 member] at isBoundary
  contradiction

/-- A source with the statements of units. -/
structure Joins (units : List SourceBuffer) (whole : SourceBuffer) : Prop where
  separately : ∀ unit ∈ units, Accepted unit
  together : Accepted whole
  statements : List.Forall₂ (Renamed id) (joinedStatements units) (sourceInstructions whole).data
  boundaries : ∀ placed ∈ placeUnits .zero units,
    KeepsBoundaries placed.1 (sourceInstructions placed.2).data

theorem mem_of_placeUnits {start : SectionSizes} {units : List SourceBuffer}
    {placed : SectionSizes × SourceBuffer} (member : placed ∈ placeUnits start units) :
    placed.2 ∈ units := by
  induction units generalizing start with
  | nil => contradiction
  | cons unit units inductionHypothesis =>
      rcases List.mem_cons.mp member with rfl | later
      · exact List.mem_cons_self
      · exact List.mem_cons_of_mem _ (inductionHypothesis later)

theorem exists_placed {start : SectionSizes} {units : List SourceBuffer} {unit : SourceBuffer}
    (member : unit ∈ units) : ∃ placed ∈ placeUnits start units, placed.2 = unit := by
  induction units generalizing start with
  | nil => contradiction
  | cons head units inductionHypothesis =>
      rcases List.mem_cons.mp member with rfl | later
      · exact ⟨_, List.mem_cons_self, rfl⟩
      · obtain ⟨placed, isPlaced, same⟩ := inductionHypothesis later
        exact ⟨placed, List.mem_cons_of_mem _ isPlaced, same⟩

/-! ## Layouts behind sizes -/

/-- A layout of a program behind the sizes `start`. -/
def Layout.shift (start : SectionSizes) (layout : Layout) : Layout :=
  ⟨layout.section_, start.plus layout.sizes⟩

theorem Layout.offset_shift (start : SectionSizes) (layout : Layout) :
    (layout.shift start).offset = start.get layout.section_ + layout.offset :=
  SectionSizes.get_plus _ _ _

theorem alignmentPadding_shift {boundary front : Nat} (divides : boundary ∣ front) (offset : Nat) :
    alignmentPadding boundary (front + offset) = alignmentPadding boundary offset := by
  obtain ⟨count, rfl⟩ := divides
  rw [alignmentPadding, alignmentPadding, Nat.mul_add_mod]

section Layouts

variable {start : SectionSizes} {layout : Layout} {instr : Instruction}
  {statements : List Instruction} {keep : Instruction → Bool}

theorem statementSize_shift
    (fits : ∀ boundary ∈ alignmentBoundary? instr, boundary ∣ start.get layout.section_) :
    (layout.shift start).statementSize instr = layout.statementSize instr := by
  unfold Layout.statementSize
  rw [Layout.offset_shift]
  have size : dataDirectiveSizeAt instr (start.get layout.section_ + layout.offset) =
      dataDirectiveSizeAt instr layout.offset := by
    unfold dataDirectiveSizeAt
    split
    · next boundary isBoundary =>
        rw [alignmentPadding_shift (fits boundary isBoundary)]
    · rfl
  rw [size]
  rfl

theorem place_shift
    (fits : ∀ boundary ∈ alignmentBoundary? instr, boundary ∣ start.get layout.section_) :
    (layout.shift start).place instr = (layout.place instr).shift start := by
  have size := statementSize_shift fits
  have sizes : (layout.shift start).sizes.add layout.section_
      ((layout.shift start).statementSize instr) =
      start.plus (layout.sizes.add layout.section_ (layout.statementSize instr)) := by
    apply SectionSizes.ext_get
    intro section_
    rw [size, SectionSizes.get_add, SectionSizes.get_plus, SectionSizes.get_add, Layout.shift,
      SectionSizes.get_plus]
    split
    · rw [Nat.add_assoc]
    · rfl
  exact congrArg (Layout.mk _) sizes

theorem places_shift
    (fits : ∀ place ∈ layout.places statements, ∀ boundary ∈ alignmentBoundary? place.2,
      boundary ∣ start.get place.1.section_) :
    (layout.shift start).places statements =
        (layout.places statements).map (fun place => (place.1.shift start, place.2)) ∧
      statements.foldl Layout.place (layout.shift start) =
        (statements.foldl Layout.place layout).shift start := by
  induction statements generalizing layout with
  | nil => exact ⟨rfl, rfl⟩
  | cons instr statements inductionHypothesis =>
      obtain ⟨here, later⟩ := List.forall_mem_cons.mp fits
      obtain ⟨places, reached⟩ := inductionHypothesis later
      constructor
      · rw [Layout.places, Layout.places, List.map_cons, place_shift here, places]
      · rw [List.foldl_cons, List.foldl_cons, place_shift here, reached]

/-- Lines that place nothing can be left out. -/
theorem places_filter (aside : ∀ instr, keep instr = false → ∀ layout : Layout,
    layout.place instr = layout) :
    layout.places (statements.filter keep) =
        (layout.places statements).filter (fun place => keep place.2) ∧
      (statements.filter keep).foldl Layout.place layout =
        statements.foldl Layout.place layout := by
  induction statements generalizing layout with
  | nil => exact ⟨rfl, rfl⟩
  | cons instr statements inductionHypothesis =>
      obtain ⟨places, reached⟩ := @inductionHypothesis (layout.place instr)
      cases kept : keep instr with
      | true =>
          rw [List.filter_cons, if_pos kept, Layout.places, Layout.places, List.filter_cons,
            if_pos kept, places]
          exact ⟨rfl, reached⟩
      | false =>
          have dropped : ¬ keep instr = true := by
            rw [kept]
            exact Bool.false_ne_true
          rw [aside instr kept] at places reached
          rw [List.filter_cons, if_neg dropped, Layout.places, List.filter_cons, if_neg dropped,
            aside instr kept, places, List.foldl_cons, aside instr kept]
          exact ⟨rfl, reached⟩

end Layouts

/-! ## The places of the units -/

/-- A line that is left out declares a symbol that one of the units exports. -/
theorem importsFrom_iff {units : List SourceBuffer} {instr : Instruction} :
    importsFrom units instr = true ↔
      ∃ name, declaration? instr = some (.external name) ∧
        ∃ unit ∈ units, (exported unit name).isSome = true := by
  unfold importsFrom
  split
  · next name declared =>
      rw [List.any_eq_true]
      constructor
      · intro given
        exact ⟨name, declared, given⟩
      · rintro ⟨other, same, given⟩
        rw [declared] at same
        obtain rfl := SymbolEvent.external.inj (Option.some.inj same)
        exact given
  · next other =>
      refine iff_of_false Bool.false_ne_true ?_
      rintro ⟨name, declared, -⟩
      exact other name declared

theorem external_of_imports {units : List SourceBuffer} {instr : Instruction}
    (imports : importsFrom units instr = true) : instr.directiveKind = .external := by
  obtain ⟨name, declared, -⟩ := importsFrom_iff.mp imports
  obtain ⟨label, line, col, endCol, -, other | other | external⟩ := declaration?_eq_some declared
  · cases other.2
  · cases other.2
  · exact external.1

theorem place_of_imports {units : List SourceBuffer} {instr : Instruction}
    (imports : importsFrom units instr = true) (layout : Layout) : layout.place instr = layout := by
  have external := external_of_imports imports
  apply Layout.place_of_aside <;> rw [external]
  · rfl
  · rfl
  · decide

/-- The places of the statements of a unit, in the source with all of them. -/
def unitPlaces (units : List SourceBuffer) (placed : SectionSizes × SourceBuffer) :
    List (Layout × Instruction) :=
  ((Layout.start.places (sourceInstructions placed.2).data).filter fun place =>
    !importsFrom units place.2).map fun place => (place.1.shift placed.1, place.2)

theorem unitStatements_places (all : List SourceBuffer) {start : SectionSizes}
    {unit : SourceBuffer} (accepted : Accepted unit)
    (fits : KeepsBoundaries start (sourceInstructions unit).data) :
    (Layout.start.shift start).places (unitStatements all unit) = unitPlaces all (start, unit) ∧
      ((unitStatements all unit).foldl Layout.place (Layout.start.shift start)).sizes =
        start.plus (sourcePass1 unit).sizes := by
  have aside : ∀ instr, (!importsFrom all instr) = false → ∀ layout : Layout,
      layout.place instr = layout := by
    intro instr dropped
    rw [Bool.not_eq_false'] at dropped
    exact place_of_imports dropped
  obtain ⟨places, reached⟩ := @places_filter (Layout.start.shift start)
    (sourceInstructions unit).data _ aside
  obtain ⟨shifted, reachedShifted⟩ := places_shift fits
  rw [unitStatements, places, reached, shifted, reachedShifted, unitPlaces, List.filter_map]
  refine ⟨rfl, ?_⟩
  rw [show (sourcePass1 unit).sizes = _ from pass1Run_sizes accepted.sized]
  rfl

theorem place_textLine (layout : Layout) :
    layout.place textLine = Layout.start.shift layout.sizes := by
  have switches : sectionSwitch? textLine.directiveKind = some .text := rfl
  rw [Layout.place_of_switch layout switches]
  apply congrArg (Layout.mk _)
  apply SectionSizes.ext_get
  intro section_
  rw [SectionSizes.get_plus]
  cases section_ <;> rfl

/-- What is read off the places of a list of units is read off each unit. -/
theorem flatMap_joined {β : Type} {view : Layout × Instruction → List β}
    (ignores : ∀ layout, view (layout, textLine) = []) (all : List SourceBuffer)
    {units : List SourceBuffer} (separately : ∀ unit ∈ units, Accepted unit) (layout : Layout)
    (boundaries : ∀ placed ∈ placeUnits layout.sizes units,
      KeepsBoundaries placed.1 (sourceInstructions placed.2).data) :
    (layout.places (units.flatMap fun unit => textLine :: unitStatements all unit)).flatMap view =
      (placeUnits layout.sizes units).flatMap fun placed =>
        (unitPlaces all placed).flatMap view := by
  induction units generalizing layout with
  | nil => rfl
  | cons unit units inductionHypothesis =>
      obtain ⟨accepted, others⟩ := List.forall_mem_cons.mp separately
      obtain ⟨fits, later⟩ := List.forall_mem_cons.mp boundaries
      obtain ⟨places, sizes⟩ := unitStatements_places all accepted fits
      rw [← sizes] at later
      have rest := inductionHypothesis others _ later
      rw [List.flatMap_cons, List.cons_append, Layout.places, List.flatMap_cons, ignores,
        List.nil_append, place_textLine, Layout.places_append, List.flatMap_append, places, rest,
        sizes, placeUnits, List.flatMap_cons]

/-! ## Events -/

/-- An event of a program behind the sizes `start`. -/
def placedEvent (start : SectionSizes) : SymbolEvent → SymbolEvent
  | .define name section_ offset => .define name section_ (start.get section_ + offset)
  | event => event

theorem statementEvent?_shift (start : SectionSizes) (layout : Layout) (instr : Instruction) :
    statementEvent? (layout.shift start) instr =
      (statementEvent? layout instr).map (placedEvent start) := by
  unfold statementEvent?
  split
  · cases declared : declaration? instr with
    | none => rfl
    | some event =>
        obtain ⟨label, line, col, endCol, -, ⟨-, rfl⟩ | ⟨-, rfl⟩ | ⟨-, rfl⟩⟩ :=
          declaration?_eq_some declared
        all_goals rfl
  · unfold definition?
    rw [Layout.offset_shift, Option.map_map]
    rfl

/-- An event that is not one of a line that is left out. -/
def Remains (units : List SourceBuffer) (event : SymbolEvent) : Prop :=
  ∀ name, event = .external name → ∀ unit ∈ units, exported unit name = none

/-- The lines that are left out are those whose event does not remain. -/
theorem remains_iff {units : List SourceBuffer} {layout : Layout} {instr : Instruction}
    {event : SymbolEvent} (isEvent : statementEvent? layout instr = some event) :
    (!importsFrom units instr) = true ↔ Remains units event := by
  rw [Bool.not_eq_true', ← Bool.not_eq_true, importsFrom_iff]
  constructor
  · rintro kept name rfl unit member
    by_contra given
    apply kept
    refine ⟨name, ?_, unit, member, Option.isSome_iff_ne_none.mpr given⟩
    unfold statementEvent? at isEvent
    split at isEvent
    · exact isEvent
    · simp [definition?] at isEvent
  · rintro remains ⟨name, declared, unit, member, given⟩
    have visible := isVisibility_of_declared declared
    rw [statementEvent?, if_pos visible, declared, Option.some.injEq] at isEvent
    rw [remains name isEvent.symm unit member] at given
    contradiction

theorem mem_joinedEvents {units : List SourceBuffer} {whole : SourceBuffer}
    (joins : Joins units whole) {event : SymbolEvent} :
    event ∈ programEvents (joinedStatements units) ↔
      ∃ placed ∈ placeUnits .zero units, ∃ own ∈ programEvents (sourceInstructions placed.2).data,
        Remains units own ∧ placedEvent placed.1 own = event := by
  have joined := @flatMap_joined _ (fun place => (statementEvent? place.1 place.2).toList)
    (fun _ => rfl) units units joins.separately .start joins.boundaries
  have events : ∀ statements, programEvents statements =
      (Layout.start.places statements).flatMap fun place =>
        (statementEvent? place.1 place.2).toList :=
    fun statements => List.filterMap_eq_flatMap_toList _ _
  rw [events, show (Layout.start.places (joinedStatements units)).flatMap _ = _ from joined,
    List.mem_flatMap]
  apply exists_congr
  intro placed
  apply and_congr_right
  intro _
  rw [events]
  simp only [unitPlaces, List.mem_flatMap, List.mem_map, List.mem_filter, Option.mem_toList]
  constructor
  · rintro ⟨_, ⟨⟨layout, instr⟩, ⟨isPlace, kept⟩, rfl⟩, isEvent⟩
    rw [statementEvent?_shift, Option.map_eq_some_iff] at isEvent
    obtain ⟨own, isOwn, rfl⟩ := isEvent
    exact ⟨own, ⟨_, isPlace, isOwn⟩, (remains_iff isOwn).mp kept, rfl⟩
  · rintro ⟨own, ⟨⟨layout, instr⟩, isPlace, isOwn⟩, remains, rfl⟩
    refine ⟨_, ⟨(layout, instr), ⟨isPlace, (remains_iff isOwn).mpr remains⟩, rfl⟩, ?_⟩
    rw [statementEvent?_shift, Option.map_eq_some_iff]
    exact ⟨own, isOwn, rfl⟩

/-! ## Symbols -/

section Tables

variable {instructions : InstructionList} {name : List UInt8}

/-- The definition of a name is what the events say of it. -/
theorem lookup_eq (passes : ProgramPasses instructions.data) (name : List UInt8) :
    symtableLookupEx (pass1Run instructions).symtable name =
      (factsOf name (programEvents instructions.data)).definition.map fun found =>
        ((found.2 : Int), some found.1) := by
  rw [symtableLookupEx, pass1Run_find passes, NameFacts.entry?]
  generalize factsOf name (programEvents instructions.data) = facts
  by_cases nothing : facts = .start
  · rw [if_pos nothing, nothing]
    rfl
  · rw [if_neg nothing]
    obtain ⟨definition, global, isLocal, external⟩ := facts
    cases definition <;> rfl

theorem lookup_iff (passes : ProgramPasses instructions.data) {section_ : SymbolSection}
    {offset : Nat} :
    symtableLookupEx (pass1Run instructions).symtable name =
        some ((offset : Int), some section_) ↔
      .define name section_ offset ∈ programEvents instructions.data := by
  rw [lookup_eq passes, ← factsOf_definition passes.walk.events, Option.map_eq_some_iff]
  constructor
  · rintro ⟨⟨other, place⟩, isDefinition, same⟩
    obtain ⟨isOffset, isSection⟩ := Prod.mk.inj same
    obtain rfl := Int.ofNat.inj isOffset
    obtain rfl := Option.some.inj isSection
    exact isDefinition
  · intro isDefinition
    exact ⟨_, isDefinition, rfl⟩

theorem lookup_cases (passes : ProgramPasses instructions.data) (name : List UInt8) :
    symtableLookupEx (pass1Run instructions).symtable name = none ∨
      ∃ section_ offset, .define name section_ offset ∈ programEvents instructions.data := by
  rw [lookup_eq passes]
  cases definition : (factsOf name (programEvents instructions.data)).definition with
  | none => exact .inl rfl
  | some found =>
      refine .inr ⟨found.1, found.2, ?_⟩
      exact (factsOf_definition passes.walk.events).mp definition

theorem external_iff (passes : ProgramPasses instructions.data) :
    symtableIsExternal (pass1Run instructions).symtable name = true ↔
      .external name ∈ programEvents instructions.data := by
  have isExternal := (factsOf_reports name (programEvents instructions.data)).external
  have undefined := (((run_events _).2 _ (pass1Run_reached passes).symtable).2.consistent
    name).undefined
  rw [symtableIsExternal, pass1Run_find passes, NameFacts.entry?, ← isExternal]
  generalize factsOf name (programEvents instructions.data) = facts at undefined
  by_cases nothing : facts = .start
  · rw [if_pos nothing, nothing]
    rfl
  · rw [if_neg nothing]
    obtain ⟨definition, global, isLocal, external⟩ := facts
    cases external with
    | false => simp [NameFacts.entry]
    | true =>
        obtain rfl : definition = none := undefined rfl
        simp [NameFacts.entry]

end Tables

theorem exported_spec {unit : SourceBuffer} {name : List UInt8} {section_ : SymbolSection}
    {offset : Int} (isExported : exported unit name = some (section_, offset)) :
    symtableLookupEx (sourcePass1 unit).symtable name = some (offset, some section_) := by
  unfold exported at isExported
  split at isExported
  · next entry found =>
      split at isExported
      · next visible =>
          obtain ⟨place, isPlace, same⟩ := Option.map_eq_some_iff.mp isExported
          obtain ⟨rfl, rfl⟩ := Prod.mk.inj same
          exact symtableLookupEx_eq_some.mpr ⟨entry, found, visible.1, isPlace, rfl⟩
      · contradiction
  · contradiction

section Joined

variable {units : List SourceBuffer} {whole : SourceBuffer}
  {placed : SectionSizes × SourceBuffer} {name : List UInt8}

/-- The statements of all units, as a list that the passes take. -/
def joinedList (units : List SourceBuffer) : InstructionList := ⟨joinedStatements units, none⟩

theorem Joins.program (joins : Joins units whole) : ProgramAccepted (joinedList units) := by
  obtain ⟨sized, encoded, -⟩ :=
    @passes_renamed id (joinedList units) _ joins.statements (Set.injOn_id _)
  have accepted := joins.together.program
  have isSized := sized.mp accepted.sized
  exact ⟨isSized, (encoded isSized).mp accepted.encoded⟩

theorem Joins.symtable (joins : Joins units whole) :
    (sourcePass1 whole).symtable = (pass1Run (joinedList units)).symtable :=
  @symtable_of_spans (joinedList units) _ joins.statements joins.program.sized

theorem Joins.passes (joins : Joins units whole) : ProgramPasses (joinedStatements units) :=
  pass1Run_accepts_iff.mp joins.program.sized

theorem Joins.unit (joins : Joins units whole) (member : placed ∈ placeUnits .zero units) :
    ProgramPasses (sourceInstructions placed.2).data :=
  pass1Run_accepts_iff.mp (joins.separately _ (mem_of_placeUnits member)).sized

/-- What a unit defines is defined behind the units in front of it. -/
theorem Joins.defined (joins : Joins units whole) (member : placed ∈ placeUnits .zero units)
    {section_ : SymbolSection} {offset : Int}
    (found : symtableLookupEx (sourcePass1 placed.2).symtable name =
      some (offset, some section_)) :
    symtableLookupEx (sourcePass1 whole).symtable name =
      some (placed.1.get section_ + offset, some section_) := by
  have given := found
  rw [show symtableLookupEx (sourcePass1 placed.2).symtable name = _ from
    lookup_eq (joins.unit member) name] at given
  obtain ⟨⟨other, place⟩, isDefinition, same⟩ := Option.map_eq_some_iff.mp given
  obtain ⟨rfl, isSection⟩ := Prod.mk.inj same
  obtain rfl := Option.some.inj isSection
  have own := (factsOf_definition (joins.unit member).walk.events).mp isDefinition
  have inJoined : .define name other (placed.1.get other + place) ∈
      programEvents (joinedStatements units) :=
    (mem_joinedEvents joins).mpr ⟨placed, member, _, own, fun _ clash => by contradiction, rfl⟩
  rw [joins.symtable]
  exact (@lookup_iff (joinedList units) _ joins.passes _ _).mpr inJoined

/-- An external symbol that no unit exports is not defined. -/
theorem Joins.undefined (joins : Joins units whole) (member : placed ∈ placeUnits .zero units)
    (external : symtableIsExternal (sourcePass1 placed.2).symtable name = true)
    (nobody : ∀ unit ∈ units, exported unit name = none) :
    symtableLookupEx (sourcePass1 whole).symtable name = none := by
  have own := (external_iff (joins.unit member)).mp external
  have remains : Remains units (.external name) := by
    intro other same
    obtain rfl := SymbolEvent.external.inj same
    exact nobody
  have inJoined := (mem_joinedEvents joins).mpr ⟨placed, member, _, own, remains, rfl⟩
  have absent := ((eventsConsistent_iff.mp joins.passes.walk.events).2.2 name inJoined).1
  rw [joins.symtable]
  refine (@lookup_cases (joinedList units) joins.passes name).resolve_right ?_
  rintro ⟨section_, offset, defined⟩
  exact absent (List.mem_filterMap.mpr ⟨_, defined, rfl⟩)

/-- Every symbol that a unit knows has one address, in the unit as in the whole. -/
theorem Joins.address (joins : Joins units whole) (member : placed ∈ placeUnits .zero units)
    (addresses : Addresses)
    (known : symbolKnown (sourcePass1 placed.2).symtable name = true) :
    symbolAddress (sourcePass1 whole).symtable addresses name =
      symbolAddress (sourcePass1 placed.2).symtable (unitAddresses addresses units placed.1)
        name := by
  rcases lookup_cases (joins.unit member) name with absent | ⟨section_, offset, own⟩
  · have isExternal : symtableIsExternal (sourcePass1 placed.2).symtable name = true := by
      unfold symbolKnown at known
      rw [show symtableLookupEx (sourcePass1 placed.2).symtable name = none from absent] at known
      exact known
    have unitSide : symbolAddress (sourcePass1 placed.2).symtable
        (unitAddresses addresses units placed.1) name =
        (exportedAddress addresses.base units name).getD (addresses.external name) := by
      unfold symbolAddress
      rw [show symtableLookupEx (sourcePass1 placed.2).symtable name = none from absent]
      rfl
    rw [unitSide]
    cases given : exportedAddress addresses.base units name with
    | none =>
        have nobody : ∀ unit ∈ units, exported unit name = none := by
          intro unit isUnit
          obtain ⟨other, isPlaced, rfl⟩ := @exists_placed .zero _ _ isUnit
          have none := List.findSome?_eq_none_iff.mp given other isPlaced
          exact Option.map_eq_none_iff.mp none
        unfold symbolAddress
        rw [joins.undefined member isExternal nobody]
        rfl
    | some address =>
        obtain ⟨other, isPlaced, found⟩ := List.exists_of_findSome?_eq_some given
        obtain ⟨⟨section_, offset⟩, isExported, rfl⟩ := Option.map_eq_some_iff.mp found
        unfold symbolAddress
        rw [joins.defined isPlaced (exported_spec isExported)]
        exact (Int.add_assoc _ _ _).symm
  · have found := (lookup_iff (joins.unit member)).mpr own
    unfold symbolAddress
    rw [show symtableLookupEx (sourcePass1 placed.2).symtable name = _ from found,
      joins.defined member found]
    exact (Int.add_assoc _ _ _).symm

end Joined

end Nazm.Passes
