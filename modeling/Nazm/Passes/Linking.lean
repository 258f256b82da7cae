import Nazm.Passes.Relocations

/-!
Linking an accepted program.

Owns what a linker writes into the relocated fields for given addresses, what
it means that the relocations of a source are complete and correctly placed,
and exactly when they are.

Does not own object files.
-/

namespace Nazm.Passes

open FieldEdits LittleEndian
open Nazm.Encoder Nazm.Parser Nazm.Lexer Nazm.Symtable Nazm.Unicode Nazm.Diagnostics

/-! ## Addresses -/

/-- Where a linker puts the sections and the external symbols. -/
structure Addresses where
  base : SymbolSection → Int
  external : List UInt8 → Int

/-- A defined symbol is at its offset in its section. -/
def symbolAddress (symtable : SymbolTable) (addresses : Addresses) (name : List UInt8) : Int :=
  match symtableLookupEx symtable name with
  | some (offset, some section_) => addresses.base section_ + offset
  | _ => addresses.external name

def RelocationSection.symbolSection : RelocationSection → SymbolSection
  | .text => .text
  | .data => .data
  | .readOnlyData => .readOnlyData

/-- `S + A`, or `S + A - P`. -/
def Relocation.linked (symtable : SymbolTable) (addresses : Addresses) (relocation : Relocation) :
    Int :=
  let target := symbolAddress symtable addresses relocation.symbol + relocation.addend
  match relocation.kind with
  | .abs64 => target
  | .pc32 => target - (addresses.base relocation.section_.symbolSection + relocation.offset)

/-- Write the value of a relocation into its field. -/
def Relocation.edit (symtable : SymbolTable) (addresses : Addresses) (relocation : Relocation) :
    Edit UInt8 where
  offset := relocation.offset
  width := relocation.kind.width
  change _ := intBytes relocation.kind.width (relocation.linked symtable addresses)
  keeps _ _ := length_intBytes _ _

def sectionRelocations (src : SourceBuffer) (section_ : SymbolSection) : List Relocation :=
  (sourcePass2 src).relocations.filter fun relocation =>
    decide (relocation.section_.symbolSection = section_)

/-- A section with every relocation applied. -/
def linkedBytes (src : SourceBuffer) (addresses : Addresses) (section_ : SymbolSection) :
    List UInt8 :=
  applyAll ((sectionRelocations src section_).map
    (Relocation.edit (sourcePass1 src).symtable addresses)) ((sourcePass2 src).bytesIn section_)

/-! ## Correct relocations -/

/-- A relocation stands for a reference. -/
structure Relocated (src : SourceBuffer) (reference : Reference) (relocation : Relocation) :
    Prop where
  symbol : relocation.symbol = reference.symbol
  known : symbolKnown (sourcePass1 src).symtable relocation.symbol = true
  kind : relocation.kind = reference.form.kind
  addend : relocation.addend = reference.form.kind.addend
  inside : ∃ span, (sourcePass2 src).emissions[reference.statement]? = some span ∧
    span.section_ = relocation.section_.symbolSection ∧ span.offset ≤ relocation.offset ∧
    relocation.offset + relocation.kind.width ≤ span.offset + span.size

/-- The fields of two relocations do not overlap. -/
def Relocation.Apart (first second : Relocation) : Prop :=
  first.section_ = second.section_ →
    first.offset + first.kind.width ≤ second.offset ∨
      second.offset + second.kind.width ≤ first.offset

/-- A linked reference reads as the address of its symbol. A displacement does
so modulo its width, and exactly where the distance fits it. -/
def ReferenceLinked (src : SourceBuffer) (addresses : Addresses) (instr : Instruction)
    (span : EmissionSpan) (reference : Reference) : Prop :=
  let address := symbolAddress (sourcePass1 src).symtable addresses reference.symbol
  let bytes := slice (linkedBytes src addresses span.section_) span.offset span.size
  let next := addresses.base span.section_ + span.offset + span.size
  match reference.form with
  | .branch | .ripRelative =>
      ∃ displacement, ReadsAs bytes instr.opcode instr.ops displacement displacement ∧
        (next + displacement) % 2 ^ 32 = address % 2 ^ 32 ∧
        (-2 ^ 31 ≤ address - next ∧ address - next < 2 ^ 31 → next + displacement = address)
  | .moveImmediate => ReadsAs bytes instr.opcode instr.ops address address
  | .dataWord => (value (slice bytes (reference.operand * 8) 8) : Int) = address % 2 ^ 64

/-- The relocations of a source are complete and correctly placed. -/
structure RelocationsCorrect (src : SourceBuffer) : Prop where
  corresponds : List.Forall₂ (Relocated src) (sourceReferences src) (sourcePass2 src).relocations
  apart : (sourcePass2 src).relocations.Pairwise Relocation.Apart
  links : ∀ addresses before instr after span,
    (sourceInstructions src).data = before ++ instr :: after →
    (sourcePass2 src).emissions[before.length]? = some span →
    ∀ reference ∈ statementReferences (sourcePass1 src).symtable before.length instr,
      ReferenceLinked src addresses instr span reference

/-- Every instruction that refers to a symbol which the linker has to supply
stands in `.text`. -/
def SymbolicInstructionsInText (src : SourceBuffer) : Prop :=
  ∀ before instr after, (sourceInstructions src).data = before ++ instr :: after →
    instr.opcode ≠ .invalid →
    (∃ op ∈ instr.ops, (operandForm? (sourcePass1 src).symtable instr op).isSome = true) →
    currentSection before = .text

/-! ## The fields of a program -/

section Programs

variable {src : SourceBuffer} {before after : List Instruction} {instr : Instruction}

theorem SymbolicInstructionsInText.place (inText : SymbolicInstructionsInText src)
    (split : (sourceInstructions src).data = before ++ instr :: after) :
    SymbolicInText (sourcePass1 src).symtable (Layout.after before) instr :=
  fun named symbolic => (currentSection_eq before).trans
    (inText before instr after split named symbolic)

theorem relocationSection_symbolSection {section_ : SymbolSection} (hasBytes : section_ ≠ .bss) :
    (relocationSection section_).symbolSection = section_ := by
  cases section_ <;> first | rfl | contradiction

/-- A field lies between the offset of its statement and the offset after it. -/
structure InPlace (layout : Layout) (instr : Instruction) (relocation : Relocation) : Prop where
  section_ : relocation.section_.symbolSection = layout.section_
  hasBytes : layout.section_ ≠ .bss
  least : layout.offset ≤ relocation.offset
  greatest : relocation.offset + relocation.kind.width ≤
    layout.offset + layout.statementSize instr

theorem place_get (layout : Layout) (instr : Instruction) :
    (layout.place instr).sizes.get layout.section_ =
      layout.offset + layout.statementSize instr := by
  simp [Layout.place, Layout.offset]

theorem relocation_inPlace {layout : Layout} {reference : Reference}
    (placed : FieldPlaced (sourcePass1 src).symtable layout instr reference) :
    InPlace layout instr (reference.relocation layout instr) := by
  have within := placed.within
  refine ⟨relocationSection_symbolSection placed.hasBytes, placed.hasBytes, ?_, ?_⟩
  · exact Nat.le_add_right _ _
  · simp only [Reference.relocation]
    omega

/-- A statement with a relocation is an instruction in `.text` or a data directive. -/
theorem symbolicInText_of_relocation {symtable : SymbolTable} {layout : Layout}
    {instr : Instruction} {relocation : Relocation}
    (exclusive : instr.opcode = .invalid ∨ instr.directiveKind = .none)
    (member : relocation ∈ statementRelocations symtable layout instr) :
    SymbolicInText symtable layout instr := by
  intro named _
  have none := exclusive.resolve_left named
  rw [statementRelocations] at member
  split at member
  · next emits => exact emits.2.2
  · split at member
    · next stores =>
        rw [none] at stores
        exact absurd stores.2 (by decide)
    · contradiction

theorem statement_inPlace (accepted : Accepted src)
    (split : (sourceInstructions src).data = before ++ instr :: after) {relocation : Relocation}
    (member : relocation ∈
      statementRelocations (sourcePass1 src).symtable (Layout.after before) instr) :
    InPlace (Layout.after before) instr relocation := by
  have stands := accepted.stands split
  have inText := symbolicInText_of_relocation stands.exclusive member
  rw [@statement_relocations _ _ _ before.length stands inText] at member
  obtain ⟨reference, isReference, rfl⟩ := List.mem_map.mp member
  exact relocation_inPlace (statement_field stands inText isReference)

theorem mem_programRelocations {symtable : SymbolTable} {statements : List Instruction}
    {relocation : Relocation} :
    relocation ∈ programRelocations symtable statements ↔
      ∃ before instr after, statements = before ++ instr :: after ∧
        relocation ∈ statementRelocations symtable (Layout.after before) instr := by
  rw [programRelocations, List.mem_flatMap]
  constructor
  · rintro ⟨⟨layout, instr⟩, isPlace, member⟩
    obtain ⟨before, after, split, rfl⟩ := mem_places.mp isPlace
    exact ⟨before, instr, after, split, member⟩
  · rintro ⟨before, instr, after, split, member⟩
    exact ⟨(Layout.after before, instr), mem_places.mpr ⟨before, after, split, rfl⟩, member⟩

/-- A field that ends before the offset that a later statement is at. -/
theorem inPlace_before {front rest : List Instruction} {instr : Instruction}
    {relocation : Relocation} (place : InPlace (Layout.after front) instr relocation) :
    relocation.offset + relocation.kind.width ≤
      (Layout.after (front ++ instr :: rest)).sizes.get relocation.section_.symbolSection := by
  have grows := Layout.get_after_le (front ++ [instr]) rest relocation.section_.symbolSection
  rw [List.append_assoc, List.singleton_append, Layout.after_snoc] at grows
  refine Nat.le_trans place.greatest (Nat.le_trans (Nat.le_of_eq ?_) grows)
  rw [place.section_, place_get]

/-- A relocation belongs to a statement, or its field lies outside of it. -/
theorem relocation_cases (accepted : Accepted src)
    (split : (sourceInstructions src).data = before ++ instr :: after) {relocation : Relocation}
    (member : relocation ∈ (sourcePass2 src).relocations) :
    relocation ∈ statementRelocations (sourcePass1 src).symtable (Layout.after before) instr ∨
      (relocation.section_.symbolSection = (Layout.after before).section_ →
        relocation.offset + relocation.kind.width ≤ (Layout.after before).offset ∨
          (Layout.after before).offset + (Layout.after before).statementSize instr ≤
            relocation.offset) := by
  rw [accepted.image.relocations] at member
  obtain ⟨front, other, back, otherSplit, inOther⟩ := mem_programRelocations.mp member
  have place := statement_inPlace accepted otherSplit inOther
  rw [split] at otherSplit
  rcases List.append_eq_append_iff.mp otherSplit with ⟨middle, isFront, rest⟩ |
    ⟨middle, isBefore, rest⟩
  · cases middle with
    | nil =>
        rw [List.append_nil] at isFront
        rw [List.nil_append, List.cons.injEq] at rest
        subst isFront
        exact .inl (rest.1 ▸ inOther)
    | cons head middle =>
        rw [List.cons_append, List.cons.injEq] at rest
        refine .inr fun same => .inr ?_
        -- the other statement stands after this one
        have grows := Layout.get_after_le (before ++ [instr]) middle (Layout.after before).section_
        rw [List.append_assoc, List.singleton_append, rest.1, ← isFront, ← rest.1,
          Layout.after_snoc, place_get] at grows
        refine Nat.le_trans grows (Nat.le_trans (Nat.le_of_eq ?_) place.least)
        rw [← same, place.section_, Layout.offset]
  · cases middle with
    | nil =>
        rw [List.append_nil] at isBefore
        rw [List.nil_append, List.cons.injEq] at rest
        subst isBefore
        exact .inl (rest.1 ▸ inOther)
    | cons head middle =>
        rw [List.cons_append, List.cons.injEq] at rest
        refine .inr fun same => .inl ?_
        have ends := @inPlace_before front middle other relocation place
        rw [rest.1, ← isBefore, same] at ends
        exact ends

/-! ## One relocation for each reference -/

theorem relocated_of_reference (accepted : Accepted src)
    (inText : SymbolicInstructionsInText src)
    (split : (sourceInstructions src).data = before ++ instr :: after) {reference : Reference}
    (member : reference ∈
      statementReferences (sourcePass1 src).symtable before.length instr) :
    Relocated src reference (reference.relocation (Layout.after before) instr) := by
  have placed := statement_field (accepted.stands split) (inText.place split) member
  have place := relocation_inPlace placed
  have index := (mem_statementReferences.mp member).1
  refine ⟨rfl, placed.known, rfl, rfl, statementSpan (Layout.after before) instr, ?_, ?_⟩
  · rw [index]
    exact accepted.emission split
  · rw [placed.span]
    exact ⟨place.section_.symm, place.least, place.greatest⟩

theorem relocations_correspond (accepted : Accepted src)
    (inText : SymbolicInstructionsInText src)
    (split : (sourceInstructions src).data = before ++ after) :
    List.Forall₂ (Relocated src) (programReferences (sourcePass1 src).symtable before)
      (programRelocations (sourcePass1 src).symtable before) := by
  induction before using List.reverseRecOn generalizing after with
  | nil => exact List.Forall₂.nil
  | append_singleton before instr inductionHypothesis =>
      have split' : (sourceInstructions src).data = before ++ instr :: after := by simpa using split
      rw [programReferences_snoc, programRelocations_snoc]
      refine List.rel_append (inductionHypothesis split') ?_
      rw [@statement_relocations _ _ _ before.length (accepted.stands split')
        (inText.place split'), List.forall₂_map_right_iff, List.forall₂_same]
      exact fun reference member => relocated_of_reference accepted inText split' member

/-! ## Fields that do not overlap -/

/-- The fields of one statement. -/
theorem statement_apart (accepted : Accepted src)
    (split : (sourceInstructions src).data = before ++ instr :: after) :
    (statementRelocations (sourcePass1 src).symtable (Layout.after before) instr).Pairwise
      Relocation.Apart := by
  have stands := accepted.stands split
  cases isEmpty : statementRelocations (sourcePass1 src).symtable (Layout.after before) instr with
  | nil => exact List.Pairwise.nil
  | cons relocation rest =>
      have inText := symbolicInText_of_relocation stands.exclusive
        (isEmpty ▸ List.mem_cons_self (a := relocation))
      rw [← isEmpty, @statement_relocations _ _ _ before.length stands inText, List.pairwise_map]
      refine (statement_fields_apart stands inText).imp fun ordered _ => .inl ?_
      simp only [Reference.relocation]
      omega

theorem relocations_apart (accepted : Accepted src)
    (split : (sourceInstructions src).data = before ++ after) :
    (programRelocations (sourcePass1 src).symtable before).Pairwise Relocation.Apart := by
  induction before using List.reverseRecOn generalizing after with
  | nil => exact List.Pairwise.nil
  | append_singleton before instr inductionHypothesis =>
      have split' : (sourceInstructions src).data = before ++ instr :: after := by simpa using split
      rw [programRelocations_snoc, List.pairwise_append]
      refine ⟨inductionHypothesis split', statement_apart accepted split',
        fun first inBefore second inHere same => .inl ?_⟩
      -- the earlier field ends where this statement starts
      obtain ⟨front, other, back, otherSplit, inOther⟩ := mem_programRelocations.mp inBefore
      have otherPlace := statement_inPlace accepted
        (show _ = front ++ other :: (back ++ instr :: after) by
          rw [split', otherSplit, List.append_assoc, List.cons_append]) inOther
      have place := statement_inPlace accepted split' inHere
      have ends := @inPlace_before front back other first otherPlace
      rw [← otherSplit, same, place.section_] at ends
      exact Nat.le_trans ends place.least

/-! ## Linked fields -/

theorem sourceRelocations_apart (accepted : Accepted src) :
    (sourcePass2 src).relocations.Pairwise Relocation.Apart := by
  rw [accepted.image.relocations]
  exact relocations_apart accepted (List.append_nil _).symm

variable (addresses : Addresses) (section_ : SymbolSection)

theorem edits_apart (accepted : Accepted src) :
    ((sectionRelocations src section_).map
      (Relocation.edit (sourcePass1 src).symtable addresses)).Pairwise Edit.Apart := by
  rw [List.pairwise_map]
  refine List.Pairwise.imp_of_mem ?_ ((sourceRelocations_apart accepted).filter _)
  intro first second inFirst inSecond apart
  have firstSection := of_decide_eq_true (List.mem_filter.mp inFirst).2
  have secondSection := of_decide_eq_true (List.mem_filter.mp inSecond).2
  refine apart ?_
  have same := firstSection.trans secondSection.symm
  generalize first.section_ = left at same ⊢
  generalize second.section_ = right at same ⊢
  cases left <;> cases right <;> first | rfl | contradiction

theorem edits_inside (accepted : Accepted src) :
    ∀ edit ∈ (sectionRelocations src section_).map
      (Relocation.edit (sourcePass1 src).symtable addresses),
      edit.Inside ((sourcePass2 src).bytesIn section_) := by
  intro edit member
  obtain ⟨relocation, inSection, rfl⟩ := List.mem_map.mp member
  obtain ⟨inList, isSection⟩ := List.mem_filter.mp inSection
  have isSection := of_decide_eq_true isSection
  rw [accepted.image.relocations] at inList
  obtain ⟨front, other, back, split, inOther⟩ := mem_programRelocations.mp inList
  have place := statement_inPlace accepted split inOther
  have ends := @inPlace_before front back other relocation place
  have hasBytes : section_ ≠ .bss := isSection ▸ place.section_ ▸ place.hasBytes
  have length := length_bytesIn (sourcePass2 src) hasBytes
  unfold Edit.Inside
  rw [length, accepted.image.sizes, split, ← isSection]
  exact ends

variable {addresses section_}

/-- The field of a reference after linking. -/
theorem linked_field (accepted : Accepted src)
    (split : (sourceInstructions src).data = before ++ instr :: after)
    (inText : SymbolicInText (sourcePass1 src).symtable (Layout.after before) instr)
    {reference : Reference}
    (member : reference ∈
      statementReferences (sourcePass1 src).symtable before.length instr) :
    slice (linkedBytes src addresses (Layout.after before).section_)
        ((Layout.after before).offset + reference.fieldStart instr) reference.form.kind.width =
      intBytes reference.form.kind.width
        ((reference.relocation (Layout.after before) instr).linked (sourcePass1 src).symtable
          addresses) := by
  have stands := accepted.stands split
  have placed := statement_field stands inText member
  have isHere : reference.relocation (Layout.after before) instr ∈
      sectionRelocations src (Layout.after before).section_ := by
    refine List.mem_filter.mpr ⟨?_, decide_eq_true (relocation_inPlace placed).section_⟩
    rw [accepted.image.relocations, mem_programRelocations]
    refine ⟨before, instr, after, split, ?_⟩
    rw [@statement_relocations _ _ _ before.length stands inText]
    exact List.mem_map_of_mem member
  exact slice_applyAll_of_mem (edits_inside addresses _ accepted)
    (edits_apart addresses _ accepted) (List.mem_map_of_mem isHere)

/-- The bytes of an emitted instruction after linking: only its field changes. -/
theorem linked_instruction (accepted : Accepted src)
    (split : (sourceInstructions src).data = before ++ instr :: after)
    (inText : SymbolicInText (sourcePass1 src).symtable (Layout.after before) instr)
    {reference : Reference}
    (member : reference ∈
      statementReferences (sourcePass1 src).symtable before.length instr)
    (emits : (Layout.after before).Emits instr) :
    ∃ front, front.length = reference.fieldStart instr ∧
      front.length + reference.form.kind.width = (Layout.after before).statementSize instr ∧
      (∀ number, ReadsAs (front ++ intBytes reference.form.kind.width number) instr.opcode
        instr.ops (reference.form.decoded number) (reference.form.decoded number)) ∧
      slice (linkedBytes src addresses (Layout.after before).section_)
          (Layout.after before).offset ((Layout.after before).statementSize instr) =
        front ++ intBytes reference.form.kind.width
          ((reference.relocation (Layout.after before) instr).linked (sourcePass1 src).symtable
            addresses) := by
  have stands := accepted.stands split
  obtain ⟨bytes, encoded⟩ := stands.checked.encoded emits
  obtain ⟨front, field, length⟩ := instruction_field emits stands.arity encoded member
  have placed := statement_field stands inText member
  have covered := accepted.spanBytes split
  have single := @instruction_references_length _ _ _ before.length emits stands.arity _ encoded
  rw [emits.statementBytes_eq, encoded, Option.getD_some, placed.span] at covered
  have sized : front.length + reference.form.kind.width =
      (Layout.after before).statementSize instr := by
    have size := length_statementBytes stands.accepted stands.checked
    rw [emits.statementBytes_eq, encoded, Option.getD_some, placed.span, field.bytes,
      List.length_append, length_intBytes] at size
    exact size
  refine ⟨front, length, sized, field.reads, ?_⟩
  rw [← sized, slice_add, length, linked_field accepted split inText member]
  congr 1
  -- no field reaches into the bytes before the field of this instruction
  have untouched : slice (linkedBytes src addresses (Layout.after before).section_)
      (Layout.after before).offset (reference.fieldStart instr) =
        slice ((sourcePass2 src).bytesIn (Layout.after before).section_)
          (Layout.after before).offset (reference.fieldStart instr) := by
    refine slice_applyAll_of_apart (edits_inside addresses _ accepted) fun edit isEdit => ?_
    obtain ⟨relocation, inSection, rfl⟩ := List.mem_map.mp isEdit
    obtain ⟨inList, isSection⟩ := List.mem_filter.mp inSection
    rcases relocation_cases accepted split inList with here | elsewhere
    · rw [@statement_relocations _ _ _ before.length stands inText] at here
      obtain ⟨other, inOther, rfl⟩ := List.mem_map.mp here
      obtain rfl : other = reference := by
        match statementReferences (sourcePass1 src).symtable before.length instr, single, member,
          inOther with
        | [only], _, member, inOther =>
            rw [List.mem_singleton.mp member, List.mem_singleton.mp inOther]
      exact .inl (Nat.le_refl _)
    · rcases elsewhere (of_decide_eq_true isSection) with above | below
      · exact .inr above
      · refine .inl (Nat.le_trans ?_ below)
        omega
  have within : 0 + reference.fieldStart instr ≤ (Layout.after before).statementSize instr := by
    omega
  rw [untouched, ← Nat.add_zero (Layout.after before).offset, ← slice_slice _ within]
  rw [show slice ((sourcePass2 src).bytesIn _) (Layout.after before).offset
    ((Layout.after before).statementSize instr) = bytes from covered, field.bytes, ← length,
    slice_append_left (Nat.le_of_eq (Nat.zero_add _)), slice, List.drop_zero,
    List.take_length]

end Programs

end Nazm.Passes
