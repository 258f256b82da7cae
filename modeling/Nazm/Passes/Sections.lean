import Nazm.Passes.Acceptance
import Nazm.Passes.Linking
import Nazm.Passes.Outcome

/-!
The sections of a program, each by itself.

Owns the section that a statement belongs to, the statements of a section with
their offsets, and that what the passes compute of a program (sizes, bytes,
relocations, rows, alignments, definitions) is computed section by section.

Does not own programs whose sections are interleaved in different ways.
-/

namespace Nazm.Passes

open Nazm.Encoder Nazm.Parser Nazm.Symtable Nazm.Unicode Nazm.Diagnostics

/-! ## Statements of a section -/

/-- A label, an instruction or a data directive. -/
def Placed (instr : Instruction) : Prop :=
  instr.directiveKind = .none ∧ (instr.label.isSome = true ∨ instr.opcode ≠ .invalid) ∨
    isDataDirective instr.directiveKind = true

instance (instr : Instruction) : Decidable (Placed instr) :=
  inferInstanceAs (Decidable (_ ∧ (_ ∨ _) ∨ _))

/-- The section that a statement belongs to: the one it stands in, and `.text`
for `.موضع`. -/
def tag? (layout : Layout) (instr : Instruction) : Option SymbolSection :=
  if Placed instr then some layout.section_
  else if instr.directiveKind = .debugLocation then some .text
  else none

/-- The statements that belong to a section, in order. -/
def taggedStatements (section_ : SymbolSection) (statements : List Instruction) :
    List Instruction :=
  (Layout.start.places statements).filterMap fun (layout, instr) =>
    if tag? layout instr = some section_ then some instr else none

/-- The same statements, each with the size of the section before it. -/
def taggedPlaces (section_ : SymbolSection) (statements : List Instruction) :
    List (Nat × Instruction) :=
  (Layout.start.places statements).filterMap fun (layout, instr) =>
    if tag? layout instr = some section_ then some (layout.sizes.get section_, instr) else none

/-- A layout of which only one section is known. -/
def Layout.alone (section_ : SymbolSection) (offset : Nat) : Layout :=
  ⟨section_, SectionSizes.zero.add section_ offset⟩

@[simp] theorem Layout.alone_offset (section_ : SymbolSection) (offset : Nat) :
    (Layout.alone section_ offset).offset = offset := by
  cases section_ <;> exact Nat.zero_add offset

/-- Statements laid out in a section from an offset on. -/
def placesIn (section_ : SymbolSection) : Nat → List Instruction → List (Nat × Instruction)
  | _, [] => []
  | offset, instr :: statements =>
      (offset, instr) ::
        placesIn section_ (offset + (Layout.alone section_ offset).statementSize instr) statements

/-- Where they end. -/
def endIn (section_ : SymbolSection) (offset : Nat) (statements : List Instruction) : Nat :=
  statements.foldl
    (fun offset instr => offset + (Layout.alone section_ offset).statementSize instr) offset

theorem placesIn_snoc (section_ : SymbolSection) (offset : Nat) (before : List Instruction)
    (instr : Instruction) :
    placesIn section_ offset (before ++ [instr]) =
      placesIn section_ offset before ++ [(endIn section_ offset before, instr)] := by
  induction before generalizing offset with
  | nil => rfl
  | cons head before inductionHypothesis =>
      rw [List.cons_append, placesIn, inductionHypothesis]
      rfl

/-! ## One statement -/

section Statement

variable {symtable : SymbolTable} {layout : Layout} {instr : Instruction}
  {section_ : SymbolSection}

theorem tag?_eq_some : tag? layout instr = some section_ ↔
    Placed instr ∧ layout.section_ = section_ ∨
      instr.directiveKind = .debugLocation ∧ section_ = .text := by
  have apart : Placed instr → instr.directiveKind ≠ .debugLocation := by
    rintro (⟨none, -⟩ | isData) location
    · rw [none] at location
      contradiction
    · rw [location] at isData
      contradiction
  unfold tag?
  split
  · next placed =>
      simp only [Option.some.injEq, placed, true_and, apart placed, false_and, or_false]
  · next notPlaced =>
      split
      · next location => simp [notPlaced, location, eq_comm]
      · next other => simp [notPlaced, other]

theorem placed_of_emits (emits : layout.Emits instr) : Placed instr :=
  .inl ⟨emits.1, .inr emits.2.1⟩

theorem placed_of_stores (stores : layout.Stores instr) : Placed instr :=
  .inr stores.1

theorem statementSize_of_unplaced (unplaced : ¬ Placed instr) : layout.statementSize instr = 0 := by
  unfold Layout.statementSize
  split
  · next none =>
      refine if_pos (.inl ?_)
      by_contra named
      exact unplaced (.inl ⟨none, .inr named⟩)
  · exact if_neg fun isData => unplaced (.inr isData)

theorem statementBytes_of_unplaced (unplaced : ¬ Placed instr) :
    statementBytes symtable layout instr = [] := by
  rw [statementBytes, if_neg fun emits => unplaced (placed_of_emits emits),
    if_neg fun stores => unplaced (placed_of_stores stores)]

theorem statementRelocations_of_unplaced (unplaced : ¬ Placed instr) :
    statementRelocations symtable layout instr = [] := by
  rw [statementRelocations, if_neg fun emits => unplaced (placed_of_emits emits),
    if_neg fun both => unplaced (placed_of_stores both.1)]

theorem definition?_of_unplaced (unplaced : ¬ Placed instr) : definition? layout instr = none := by
  rw [definition?, Option.map_eq_none_iff, definedLabel?]
  split
  · next enters =>
      cases label : instr.label with
      | none => rfl
      | some name =>
          rcases enters with none | isData
          · exact absurd (.inl ⟨none, .inl (by rw [label]; rfl)⟩) unplaced
          · exact absurd (.inr isData) unplaced
  · rfl

theorem statementSize_alone :
    (Layout.alone layout.section_ layout.offset).statementSize instr =
      layout.statementSize instr := by
  rw [Layout.statementSize, Layout.alone_offset]
  rfl

theorem alone_emits : (Layout.alone layout.section_ layout.offset).Emits instr ↔
    layout.Emits instr := Iff.rfl

theorem alone_stores : (Layout.alone layout.section_ layout.offset).Stores instr ↔
    layout.Stores instr := Iff.rfl

theorem alone_text (emits : layout.Emits instr) :
    (Layout.alone layout.section_ layout.offset).sizes.text = layout.sizes.text := by
  have size := Layout.alone_offset layout.section_ layout.offset
  rw [Layout.offset, Layout.offset] at size
  rw [show (Layout.alone layout.section_ (layout.sizes.get layout.section_)).section_ =
    .text from emits.2.2, emits.2.2] at size
  rw [Layout.offset, emits.2.2]
  exact size

theorem statementBytes_alone :
    statementBytes symtable (Layout.alone layout.section_ layout.offset) instr =
      statementBytes symtable layout instr := by
  rw [statementBytes, statementBytes, Layout.alone_offset]
  by_cases emits : layout.Emits instr
  · rw [if_pos (alone_emits.mpr emits), if_pos emits, alone_text emits]
  · rw [if_neg fun stands => emits (alone_emits.mp stands), if_neg emits]
    rfl

theorem statementRelocations_alone :
    statementRelocations symtable (Layout.alone layout.section_ layout.offset) instr =
      statementRelocations symtable layout instr := by
  rw [statementRelocations, statementRelocations, Layout.alone_offset]
  by_cases emits : layout.Emits instr
  · rw [if_pos (alone_emits.mpr emits), if_pos emits, alone_text emits]
  · rw [if_neg fun stands => emits (alone_emits.mp stands), if_neg emits]
    rfl

theorem definition?_alone :
    definition? (Layout.alone layout.section_ layout.offset) instr = definition? layout instr := by
  rw [definition?, definition?, Layout.alone_offset]
  rfl

theorem statementReady_alone :
    StatementReady symtable (Layout.alone layout.section_ layout.offset) instr ↔
      StatementReady symtable layout instr := by
  constructor
  · rintro ⟨instruction, data⟩
    refine ⟨fun emits => ?_, fun stores => ?_⟩
    · have ready := instruction (alone_emits.mpr emits)
      rwa [alone_text emits] at ready
    · have ready := data (alone_stores.mpr stores)
      rwa [Layout.alone_offset] at ready
  · rintro ⟨instruction, data⟩
    refine ⟨fun stands => ?_, fun stands => ?_⟩
    · have emits := alone_emits.mp stands
      rw [alone_text emits]
      exact instruction emits
    · rw [Layout.alone_offset]
      exact data (alone_stores.mp stands)

/-- What a statement gives to a section is what it gives where it is tagged. -/
theorem ite_tagged {α : Type} (given : Layout → α) {nothing : α}
    (unplaced : ¬ Placed instr → ∀ layout, given layout = nothing)
    (alone : given (Layout.alone layout.section_ layout.offset) = given layout) :
    (if layout.section_ = section_ then given layout else nothing) =
      if tag? layout instr = some section_ then
        given (Layout.alone section_ (layout.sizes.get section_)) else nothing := by
  by_cases placed : Placed instr
  · rw [tag?, if_pos placed]
    by_cases here : layout.section_ = section_
    · subst here
      rw [if_pos rfl, if_pos rfl]
      exact alone.symm
    · rw [if_neg here, if_neg fun same => here (Option.some.inj same)]
  · rw [unplaced placed, unplaced placed, ite_self, ite_self]

end Statement

/-! ## Programs -/

theorem taggedPlaces_snoc (section_ : SymbolSection) (before : List Instruction)
    (instr : Instruction) :
    taggedPlaces section_ (before ++ [instr]) = taggedPlaces section_ before ++
      (if tag? (Layout.after before) instr = some section_ then
        [((Layout.after before).sizes.get section_, instr)]
      else []) := by
  rw [taggedPlaces, places_snoc, List.filterMap_append]
  split
  · next tagged => simp [tagged, taggedPlaces]
  · next other => simp [other, taggedPlaces]

theorem taggedStatements_snoc (section_ : SymbolSection) (before : List Instruction)
    (instr : Instruction) :
    taggedStatements section_ (before ++ [instr]) = taggedStatements section_ before ++
      (if tag? (Layout.after before) instr = some section_ then [instr] else []) := by
  rw [taggedStatements, places_snoc, List.filterMap_append]
  split
  · next tagged => simp [tagged, taggedStatements]
  · next other => simp [other, taggedStatements]

/-- A section grows by the statements that belong to it. -/
theorem get_place_tagged (layout : Layout) (instr : Instruction) (section_ : SymbolSection) :
    (layout.place instr).sizes.get section_ = layout.sizes.get section_ +
      (if tag? layout instr = some section_ then
        (Layout.alone section_ (layout.sizes.get section_)).statementSize instr else 0) := by
  have given := @ite_tagged layout instr section_ _ (fun layout => layout.statementSize instr) 0
    (fun unplaced _ => statementSize_of_unplaced unplaced) statementSize_alone
  rw [← given, Layout.place, SectionSizes.get_add]
  split <;> rfl

/-- The offsets of a section are those of its statements laid out alone. -/
theorem taggedPlaces_eq (section_ : SymbolSection) (statements : List Instruction) :
    taggedPlaces section_ statements = placesIn section_ 0 (taggedStatements section_ statements) ∧
      (Layout.after statements).sizes.get section_ =
        endIn section_ 0 (taggedStatements section_ statements) := by
  induction statements using List.reverseRecOn with
  | nil => exact ⟨rfl, by cases section_ <;> rfl⟩
  | append_singleton before instr inductionHypothesis =>
      obtain ⟨places, size⟩ := inductionHypothesis
      rw [taggedPlaces_snoc, taggedStatements_snoc, Layout.after_snoc, get_place_tagged]
      split
      · next tagged =>
          rw [placesIn_snoc, places, size]
          refine ⟨rfl, ?_⟩
          rw [endIn, endIn, List.foldl_append]
          rfl
      · rw [List.append_nil, List.append_nil]
        exact ⟨places, size⟩

/-- The bytes of a section. -/
theorem sectionImage_tagged (symtable : SymbolTable) (section_ : SymbolSection)
    (statements : List Instruction) :
    sectionImage symtable section_ statements =
      (taggedPlaces section_ statements).flatMap fun (offset, instr) =>
        statementBytes symtable (Layout.alone section_ offset) instr := by
  induction statements using List.reverseRecOn with
  | nil => rfl
  | append_singleton before instr inductionHypothesis =>
      have given := @ite_tagged (Layout.after before) instr section_ _
        (fun layout => statementBytes symtable layout instr) []
        (fun unplaced _ => statementBytes_of_unplaced unplaced) statementBytes_alone
      rw [sectionImage_snoc, taggedPlaces_snoc, List.flatMap_append, inductionHypothesis, given]
      split <;> simp

/-! ### Relocations -/

theorem section_of_labelRelocation {symtable : SymbolTable} {instr : Instruction}
    {textSize operandIndex : Nat} {ops : List Operand} {relocation : Relocation}
    (member : relocation ∈ labelRelocations symtable instr textSize operandIndex ops) :
    relocation.section_ = .text := by
  induction ops generalizing operandIndex with
  | nil => contradiction
  | cons op ops inductionHypothesis =>
      rw [labelRelocations, List.mem_append, Option.mem_toList] at member
      rcases member with here | later
      · unfold labelRelocation? at here
        split at here
        · split at here
          · split at here
            · contradiction
            · exact Option.some.inj here ▸ rfl
          · split at here
            · exact Option.some.inj here ▸ rfl
            · contradiction
        · contradiction
      · exact inductionHypothesis later

theorem section_of_ripRelocation {textSize len : Nat} {ops : List Operand} {relocation : Relocation}
    (member : relocation ∈ ripRelocations textSize len ops) : relocation.section_ = .text := by
  induction ops with
  | nil => contradiction
  | cons op ops inductionHypothesis =>
      rw [ripRelocations] at member
      split at member
      · rcases List.mem_cons.mp member with rfl | later
        · rfl
        · exact inductionHypothesis later
      · exact inductionHypothesis member

theorem section_of_dataRelocation {section_ : SymbolSection} {offset operandIndex : Nat}
    {ops : List Operand} {relocation : Relocation}
    (member : relocation ∈ dataRelocations section_ offset operandIndex ops) :
    relocation.section_ = pass2RelocationSection section_ := by
  induction ops generalizing operandIndex with
  | nil => contradiction
  | cons op ops inductionHypothesis =>
      rw [dataRelocations] at member
      split at member
      · rcases List.mem_cons.mp member with rfl | later
        · rfl
        · exact inductionHypothesis later
      · exact inductionHypothesis member

/-- The relocations of a statement are in the section that it stands in. -/
theorem section_of_statementRelocation {symtable : SymbolTable} {layout : Layout}
    {instr : Instruction} {relocation : Relocation}
    (member : relocation ∈ statementRelocations symtable layout instr) :
    relocation.section_.symbolSection = layout.section_ := by
  unfold statementRelocations at member
  split at member
  · next emits =>
      have text : relocation.section_ = .text := by
        rcases List.mem_append.mp member with label | rip
        · exact section_of_labelRelocation label
        · exact section_of_ripRelocation rip
      rw [text, emits.2.2]
      rfl
  · split at member
    · next both =>
        rw [section_of_dataRelocation member]
        rcases both.1.2 with data | readOnly
        · rw [data]
          rfl
        · rw [readOnly]
          rfl
    · contradiction

/-- The relocations of a section. -/
theorem programRelocations_tagged (symtable : SymbolTable) (section_ : RelocationSection)
    (statements : List Instruction) :
    (programRelocations symtable statements).filter
        (fun relocation => decide (relocation.section_ = section_)) =
      (taggedPlaces section_.symbolSection statements).flatMap fun (offset, instr) =>
        statementRelocations symtable (Layout.alone section_.symbolSection offset) instr := by
  have same : ∀ {first second : RelocationSection},
      first.symbolSection = second.symbolSection ↔ first = second := by
    intro first second
    cases first <;> cases second <;> decide
  induction statements using List.reverseRecOn with
  | nil => rfl
  | append_singleton before instr inductionHypothesis =>
      have given := @ite_tagged (Layout.after before) instr section_.symbolSection _
        (fun layout => statementRelocations symtable layout instr) []
        (fun unplaced _ => statementRelocations_of_unplaced unplaced) statementRelocations_alone
      have added : (statementRelocations symtable (Layout.after before) instr).filter
          (fun relocation => decide (relocation.section_ = section_)) =
          if (Layout.after before).section_ = section_.symbolSection then
            statementRelocations symtable (Layout.after before) instr
          else [] := by
        split
        · next here =>
            refine List.filter_eq_self.mpr fun relocation member => ?_
            rw [decide_eq_true_eq, ← same, section_of_statementRelocation member, here]
        · next elsewhere =>
            refine List.filter_eq_nil_iff.mpr fun relocation member => ?_
            rw [decide_eq_true_eq, ← same, section_of_statementRelocation member]
            exact elsewhere
      rw [programRelocations_snoc, List.filter_append, taggedPlaces_snoc, List.flatMap_append,
        inductionHypothesis, added, given]
      split <;> simp

/-! ### The line table -/

/-- The rows of the statements of `.text`. -/
def taggedRows : DebugLocation → List (Nat × Instruction) → List DebugLine
  | _, [] => []
  | location, (offset, instr) :: places =>
      statementRows location (Layout.alone .text offset) instr ++
        taggedRows ((location? instr).getD location) places

theorem statementRows_tagged {location : DebugLocation} {layout : Layout} {instr : Instruction}
    (tagged : tag? layout instr = some .text) :
    statementRows location layout instr =
      statementRows location (Layout.alone .text layout.sizes.text) instr := by
  have size : (Layout.alone .text layout.sizes.text).sizes.text = layout.sizes.text :=
    Layout.alone_offset .text layout.sizes.text
  have emits : layout.Emits instr ↔ (Layout.alone .text layout.sizes.text).Emits instr := by
    rcases tag?_eq_some.mp tagged with ⟨-, text⟩ | ⟨isLocation, -⟩
    · exact ⟨fun stands => ⟨stands.1, stands.2.1, rfl⟩, fun stands => ⟨stands.1, stands.2.1, text⟩⟩
    · constructor
      all_goals
        intro stands
        have none := stands.1
        rw [isLocation] at none
        contradiction
  simp only [statementRows, emits, size]

theorem rowsFrom_tagged (location : DebugLocation) (layout : Layout)
    (statements : List Instruction) :
    rowsFrom location (layout.places statements) =
      taggedRows location ((layout.places statements).filterMap fun (layout, instr) =>
        if tag? layout instr = some .text then some (layout.sizes.text, instr) else none) := by
  induction statements generalizing location layout with
  | nil => rfl
  | cons instr statements inductionHypothesis =>
      rw [Layout.places, rowsFrom, inductionHypothesis, List.filterMap_cons]
      dsimp only
      by_cases tagged : tag? layout instr = some .text
      · rw [if_pos tagged]
        dsimp only
        rw [taggedRows, statementRows_tagged tagged]
      · rw [if_neg tagged]
        dsimp only
        have silent : ¬ layout.Emits instr := fun emits =>
          tagged (tag?_eq_some.mpr (.inl ⟨placed_of_emits emits, emits.2.2⟩))
        have other : instr.directiveKind ≠ .debugLocation := fun isLocation =>
          tagged (tag?_eq_some.mpr (.inr ⟨isLocation, rfl⟩))
        rw [statementRows, if_neg fun row => silent row.1, location?_of_other other]
        rfl

theorem programRows_tagged (statements : List Instruction) :
    programRows statements = taggedRows .cleared (taggedPlaces .text statements) :=
  rowsFrom_tagged _ _ _

/-! ### Alignments -/

/-- The alignment of a section; `.text` has none. -/
def SectionAlignments.get (alignments : SectionAlignments) : SymbolSection → Nat
  | .text => 0
  | .data => alignments.data
  | .readOnlyData => alignments.readOnlyData
  | .bss => alignments.bss

theorem SectionAlignments.ext_get {first second : SectionAlignments}
    (equal : ∀ section_, section_ ≠ .text → first.get section_ = second.get section_) :
    first = second := by
  obtain ⟨data, readOnlyData, bss⟩ := first
  have dataEqual := equal .data (by decide)
  have readOnlyEqual := equal .readOnlyData (by decide)
  have bssEqual := equal .bss (by decide)
  simp only [SectionAlignments.get] at dataEqual readOnlyEqual bssEqual
  rw [dataEqual, readOnlyEqual, bssEqual]

theorem get_noteAlignment (alignments : SectionAlignments) (here : SymbolSection)
    (instr : Instruction) {section_ : SymbolSection} (notText : section_ ≠ .text) :
    (pass1NoteAlignment alignments here instr).get section_ =
      if here = section_ then max (alignments.get section_) ((alignmentBoundary? instr).getD 0)
      else alignments.get section_ := by
  unfold pass1NoteAlignment
  cases alignmentBoundary? instr with
  | none => simp
  | some alignment =>
      cases here <;> cases section_ <;>
        first | exact absurd rfl notText | simp [SectionAlignments.get]

/-- The alignment of a section is the largest that its statements ask for. -/
theorem programAlignments_tagged (statements : List Instruction) {section_ : SymbolSection}
    (notText : section_ ≠ .text) :
    (programAlignments statements).get section_ =
      (taggedPlaces section_ statements).foldl
        (fun alignment place => max alignment ((alignmentBoundary? place.2).getD 0)) 0 := by
  induction statements using List.reverseRecOn with
  | nil =>
      cases section_ with
      | text => exact absurd rfl notText
      | _ => rfl
  | append_singleton before instr inductionHypothesis =>
      rw [programAlignments_snoc, get_noteAlignment _ _ _ notText, taggedPlaces_snoc,
        List.foldl_append, ← inductionHypothesis]
      by_cases placed : Placed instr
      · rw [tag?, if_pos placed]
        by_cases here : (Layout.after before).section_ = section_
        · rw [if_pos here, if_pos (congrArg some here)]
          rfl
        · rw [if_neg here, if_neg fun same => here (Option.some.inj same)]
          rfl
      · have other : instr.directiveKind ≠ .alignment := fun kind =>
          placed (.inr (by rw [kind]; rfl))
        have untagged : tag? (Layout.after before) instr ≠ some section_ := fun tagged =>
          (tag?_eq_some.mp tagged).elim (fun both => placed both.1) fun both => notText both.2
        rw [alignmentBoundary?_eq_none other, if_neg untagged, Option.getD_none, Nat.max_zero,
          ite_self]
        rfl

/-! ### What the passes require -/

theorem mem_taggedPlaces {section_ : SymbolSection} {statements : List Instruction}
    {place : Nat × Instruction} : place ∈ taggedPlaces section_ statements ↔
      ∃ before after, statements = before ++ place.2 :: after ∧
        tag? (Layout.after before) place.2 = some section_ ∧
        place.1 = (Layout.after before).sizes.get section_ := by
  obtain ⟨offset, instr⟩ := place
  rw [taggedPlaces, List.mem_filterMap]
  constructor
  · rintro ⟨⟨layout, other⟩, member, isPlace⟩
    dsimp only at isPlace
    split at isPlace
    · next tagged =>
        obtain ⟨rfl, rfl⟩ := Prod.mk.inj (Option.some.inj isPlace)
        obtain ⟨before, after, split, rfl⟩ := mem_places.mp member
        exact ⟨before, after, split, tagged, rfl⟩
    · contradiction
  · rintro ⟨before, after, split, tagged, isOffset⟩
    refine ⟨(Layout.after before, instr), mem_places.mpr ⟨before, after, split, rfl⟩, ?_⟩
    dsimp only at tagged isOffset ⊢
    rw [if_pos tagged, isOffset]

/-- Pass 2 can emit a program whose sections it can emit. -/
theorem programReady_tagged (symtable : SymbolTable) (statements : List Instruction) :
    ProgramReady symtable statements ↔ ∀ section_, ∀ place ∈ taggedPlaces section_ statements,
      StatementReady symtable (Layout.alone section_ place.1) place.2 := by
  constructor
  · intro ready section_ place member
    obtain ⟨before, after, split, tagged, isOffset⟩ := mem_taggedPlaces.mp member
    rcases tag?_eq_some.mp tagged with ⟨-, rfl⟩ | ⟨isLocation, rfl⟩
    · rw [isOffset]
      exact statementReady_alone.mpr (ready before place.2 after split)
    · refine ⟨fun emits => ?_, fun stores => ?_⟩
      · have none := emits.1
        rw [isLocation] at none
        contradiction
      · have isData := stores.1
        rw [isLocation] at isData
        contradiction
  · intro ready before instr after split
    by_cases placed : Placed instr
    · have tagged : tag? (Layout.after before) instr = some (Layout.after before).section_ :=
        if_pos placed
      exact statementReady_alone.mp
        (ready _ (_, instr) (mem_taggedPlaces.mpr ⟨before, after, split, tagged, rfl⟩))
    · exact ⟨fun emits => absurd (placed_of_emits emits) placed,
        fun stores => absurd (placed_of_stores stores) placed⟩

end Nazm.Passes
