import Nazm.Output.LinkedObjects

/-!
The bytes that the two objects of a source link to.

Owns when they are the same bytes, wherever the sections and the external
symbols are: a COFF object has no addend of its own, so its fields have to hold
zero, and it keeps 32 bits of an offset.

Does not own how an object is linked.
-/

namespace Nazm.Output

open ByteFile FieldEdits LittleEndian
open Nazm.Encoder Nazm.Lexer Nazm.Symtable Nazm.Unicode Nazm.Passes

/-! ## What COFF has to keep -/

/-- A displacement from the end of its field to a symbol of the same section that
is zero in 32 bits, wherever the section is. -/
structure ZeroDisplacement (input : OutputInput) (relocation : Relocation) : Prop where
  kind : relocation.kind = .pc32
  distance : ∃ symbol section_, input.relocationSymbol? relocation = some symbol ∧
    symbol.section_ = some section_ ∧
    input.recordedSection section_ = relocation.section_.symbolSection ∧
    (symbol.offset - (relocation.offset + 4)) % 2 ^ 32 = 0

/-- 32 bits are enough for the offset of a field that changes, and for the offset of
a symbol in a field of 64 bits. -/
structure CoffKeepsLinks (input : OutputInput) : Prop where
  fields : ∀ relocation ∈ input.relocations,
    relocation.offset < 2 ^ 32 ∨ ZeroDisplacement input relocation
  symbols : ∀ relocation ∈ input.relocations, relocation.kind = .abs64 →
    ∀ symbol ∈ objectSymbolList input.symtable, symbol.name = relocation.symbol →
      symbol.offset % 2 ^ 64 < 2 ^ 32

/-! ## Edits that add to their fields -/

namespace OutputInput

/-- Add the number of a relocation to its field. -/
def addEdit (input : OutputInput) (addresses : Addresses) (bits : Nat) (relocation : Relocation) :
    Edit UInt8 :=
  writeEdit relocation.kind relocation.offset fun field =>
    value field + input.relocationNumber addresses bits relocation

variable {input : OutputInput} {addresses : Addresses} {relocation : Relocation}

/-- The number of a relocation whose symbol is known. -/
theorem relocationNumber_eq {symbol : OutputSymbol} (bits : Nat)
    (found : input.relocationSymbol? relocation = some symbol) :
    input.relocationNumber addresses bits relocation =
      match relocation.kind with
      | .abs64 => input.symbolTarget addresses bits symbol + relocation.addend
      | .pc32 => input.symbolTarget addresses bits symbol + relocation.addend -
          (addresses.base relocation.section_.symbolSection + relocation.offset) := by
  rw [relocationNumber, found]
  rfl

/-- Adding zero changes nothing. -/
theorem writeEdit_idle {kind : RelocationKind} {offset : Nat} {number : Int}
    (zero : number % 256 ^ kind.width = 0) :
    (writeEdit kind offset fun field => value field + number).Idle := by
  intro field length
  have kept := intBytes_value field
  rw [show field.length = kind.width from length] at kept
  calc intBytes kind.width (value field + number)
      = intBytes kind.width (value field) := by
        rw [intBytes_eq_iff, Int.add_emod, zero, Int.add_zero, Int.emod_emod]
    _ = field := kept

/-- A displacement that is zero adds nothing, wherever its field is taken to be. -/
theorem relocationNumber_zero (zero : ZeroDisplacement input relocation)
    (addend : relocation.addend = relocation.kind.addend) :
    input.relocationNumber addresses 32 relocation % 256 ^ relocation.kind.width = 0 := by
  obtain ⟨symbol, section_, found, isSection, same, distance⟩ := zero.distance
  rw [relocationNumber_eq 32 found, addend, zero.kind]
  simp only [symbolTarget, isSection, same, RelocationKind.addend, RelocationKind.width]
  omega

/-- The linker of COFF objects adds to the field of a relocation that 32 bits reach. -/
theorem coffEdit_adds (addend : relocation.addend = relocation.kind.addend)
    (kept : relocation.offset < 2 ^ 32 ∨ ZeroDisplacement input relocation) :
    (input.coffEdit addresses relocation).Same (input.addEdit addresses 32 relocation) ∨
      (input.coffEdit addresses relocation).Idle ∧
        (input.addEdit addresses 32 relocation).Idle := by
  rcases kept with small | zero
  · have same : input.coffEdit addresses relocation = input.addEdit addresses 32 relocation := by
      rw [coffEdit, Nat.mod_eq_of_lt small, addEdit]
    rw [same]
    exact .inl ⟨rfl, rfl, fun _ _ => rfl⟩
  · refine .inr ⟨writeEdit_idle ?_, writeEdit_idle (relocationNumber_zero zero addend)⟩
    obtain ⟨symbol, section_, found, isSection, same, distance⟩ := zero.distance
    have wrapped : ZeroDisplacement input
        { relocation with offset := relocation.offset % 2 ^ 32 } := by
      refine ⟨zero.kind, symbol, section_, found, isSection, same, ?_⟩
      dsimp only
      omega
    exact relocationNumber_zero wrapped addend

/-- 32 bits of a symbol are as good as 64 where its offset has no more. -/
theorem addEdit_same (kept : relocation.kind = .abs64 → ∀ symbol,
      input.relocationSymbol? relocation = some symbol → symbol.offset % 2 ^ 64 < 2 ^ 32) :
    (input.addEdit addresses 64 relocation).Same (input.addEdit addresses 32 relocation) := by
  refine ⟨rfl, rfl, fun field _ => intBytes_eq_iff.mpr ?_⟩
  cases found : input.relocationSymbol? relocation with
  | none => simp only [relocationNumber, found, Option.map_none]
  | some symbol =>
      rw [relocationNumber_eq 64 found, relocationNumber_eq 32 found, symbolTarget, symbolTarget]
      cases isSection : symbol.section_ with
      | none => rfl
      | some section_ =>
          cases kind : relocation.kind with
          | abs64 =>
              have small := kept kind symbol found
              have same : symbol.offset % 2 ^ 64 = symbol.offset % 2 ^ 32 := by omega
              simp only [same]
          | pc32 =>
              simp only [RelocationKind.width]
              omega

/-- A number that is zero in its field wherever the sections are is such a displacement. -/
theorem zeroDisplacement_of_always {symbol : OutputSymbol}
    (found : input.relocationSymbol? relocation = some symbol)
    (addend : relocation.addend = relocation.kind.addend)
    (always : ∀ addresses, input.relocationNumber addresses 64 relocation %
      256 ^ relocation.kind.width = 0) : ZeroDisplacement input relocation := by
  simp only [relocationNumber_eq 64 found, addend] at always
  cases kind : relocation.kind with
  | abs64 =>
      simp only [kind, RelocationKind.addend, RelocationKind.width, symbolTarget] at always
      have number := always ⟨fun _ => 1 - symbol.offset % 2 ^ 64, fun _ => 1⟩
      cases isSection : symbol.section_ <;>
      · simp only [isSection] at number
        omega
  | pc32 =>
      simp only [kind, RelocationKind.addend, RelocationKind.width, symbolTarget] at always
      cases isSection : symbol.section_ with
      | none =>
          simp only [isSection] at always
          have number := always ⟨fun _ => 0, fun _ => relocation.offset + 5⟩
          dsimp only at number
          omega
      | some section_ =>
          simp only [isSection] at always
          by_cases same : input.recordedSection section_ = relocation.section_.symbolSection
          · have number := always ⟨fun _ => 0, fun _ => 0⟩
            dsimp only at number
            refine ⟨kind, symbol, section_, found, isSection, same, ?_⟩
            omega
          · have number := always ⟨fun other => if other = input.recordedSection section_ then
              relocation.offset + 5 - symbol.offset % 2 ^ 64 else 0, fun _ => 0⟩
            dsimp only at number
            rw [if_pos rfl, if_neg (Ne.symm same)] at number
            omega

end OutputInput

/-! ## Sections of a source -/

section Sources

variable {src : SourceBuffer} {section_ : RelocationSection} {addresses : Addresses}

theorem relocated_inside (accepted : Accepted src) {relocation : Relocation}
    (member : relocation ∈ relocationsIn (sourceOutput src).relocations section_) :
    relocation.offset + relocation.kind.width ≤
      ((sourcePass2 src).bytesIn section_.symbolSection).length := by
  obtain ⟨inList, here⟩ := mem_relocationsIn.mp member
  exact here ▸ (relocationPlaced accepted inList).inside

theorem relocated_zero (accepted : Accepted src) {relocation : Relocation}
    (member : relocation ∈ relocationsIn (sourceOutput src).relocations section_) :
    value (slice ((sourcePass2 src).bytesIn section_.symbolSection) relocation.offset
      relocation.kind.width) = 0 := by
  obtain ⟨inList, here⟩ := mem_relocationsIn.mp member
  have zero := (relocationPlaced accepted inList).zero
  rw [here] at zero
  have number := value_intBytes relocation.kind.width 0
  rw [zero]
  rw [Int.zero_emod] at number
  exact_mod_cast number

theorem relocated_addend (accepted : Accepted src) {relocation : Relocation}
    (member : relocation ∈ relocationsIn (sourceOutput src).relocations section_) :
    relocation.addend = relocation.kind.addend :=
  (relocationPlaced accepted (mem_relocationsIn.mp member).1).addend

/-- The fields of two relocations of one section have no byte in common. -/
def FieldsApart (first second : Relocation) : Prop :=
  first.offset + first.kind.width ≤ second.offset ∨
    second.offset + second.kind.width ≤ first.offset

instance : Std.Symm FieldsApart := ⟨fun _ _ apart => apart.symm⟩

theorem relocated_apart (accepted : Accepted src) :
    (relocationsIn (sourceOutput src).relocations section_).Pairwise FieldsApart := by
  refine List.Pairwise.imp_of_mem ?_ ((sourceRelocations_apart accepted).filter _)
  intro first second inFirst inSecond apart
  exact apart ((mem_relocationsIn.mp inFirst).2.trans (mem_relocationsIn.mp inSecond).2.symm)

/-- Edits of the fields of a section lie in it and do not overlap. -/
theorem edits_of_fields (accepted : Accepted src) {edit : Relocation → Edit UInt8}
    (offset : ∀ relocation, (edit relocation).offset = relocation.offset)
    (width : ∀ relocation, (edit relocation).width = relocation.kind.width) :
    (∀ made ∈ (relocationsIn (sourceOutput src).relocations section_).map edit,
        made.Inside ((sourcePass2 src).bytesIn section_.symbolSection)) ∧
      ((relocationsIn (sourceOutput src).relocations section_).map edit).Pairwise Edit.Apart := by
  constructor
  · intro made member
    obtain ⟨relocation, inSection, rfl⟩ := List.mem_map.mp member
    have inside := relocated_inside accepted inSection
    unfold Edit.Inside
    rw [offset, width]
    exact inside
  · rw [List.pairwise_map]
    refine (relocated_apart accepted).imp fun apart => ?_
    unfold Edit.Apart
    rw [offset, offset, width, width]
    exact apart

/-- The bytes that both writers put into a section. -/
def unlinkedBytes (src : SourceBuffer) (section_ : RelocationSection) : List UInt8 :=
  (sourcePass2 src).bytesIn section_.symbolSection

/-- What a linker of ELF objects writes over a section. -/
def elfLinked (src : SourceBuffer) (addresses : Addresses) (section_ : RelocationSection) :
    List UInt8 :=
  applyAll ((relocationsIn (sourceOutput src).relocations section_).map
    ((sourceOutput src).elfEdit addresses)) (unlinkedBytes src section_)

/-- What a linker of COFF objects writes over a section. -/
def coffLinked (src : SourceBuffer) (addresses : Addresses) (section_ : RelocationSection) :
    List UInt8 :=
  applyAll ((relocationsIn (sourceOutput src).relocations section_).map
    ((sourceOutput src).coffEdit addresses)) (unlinkedBytes src section_)

/-- A section with the numbers of its relocations added to their fields. -/
def addLinked (src : SourceBuffer) (addresses : Addresses) (bits : Nat)
    (section_ : RelocationSection) : List UInt8 :=
  applyAll ((relocationsIn (sourceOutput src).relocations section_).map
    ((sourceOutput src).addEdit addresses bits)) (unlinkedBytes src section_)

theorem elf_linkedBytes (accepted : Accepted src) {contents : ElfContents}
    (from_ : FromSource src contents) :
    contents.linkedBytes addresses section_ = elfLinked src addresses section_ := by
  have edits := elf_edits accepted from_ addresses section_
  rw [from_.input] at edits
  rw [ElfContents.linkedBytes, edits, elfLinked]
  congr 1
  cases section_ <;> simp only [elfSectionOfRelocations, ElfContents.bytes, from_.input] <;> rfl

theorem coff_linkedBytes (accepted : Accepted src) {contents : CoffContents}
    (built : CoffBuilt (sourceOutput src) contents) :
    contents.linkedBytes addresses section_ = coffLinked src addresses section_ := by
  have edits := coff_edits built addresses section_ (by
    rw [built.isInput]
    exact fun relocation member => (relocationPlaced accepted member).addend)
  rw [built.isInput] at edits
  rw [CoffContents.linkedBytes, edits, coffLinked]
  congr 1
  cases section_ <;> simp only [coffPartOfRelocations, CoffContents.part, built.isInput] <;> rfl

/-- Ignoring what a field holds and adding to it are the same, for it holds zero. -/
theorem elfLinked_adds (accepted : Accepted src) :
    elfLinked src addresses section_ = addLinked src addresses 64 section_ := by
  have fields := @edits_of_fields src section_ accepted
    ((sourceOutput src).elfEdit addresses) (fun _ => rfl) fun _ => rfl
  refine applyAll_congr ?_ fields.1 fields.2
  rw [List.forall₂_map_left_iff, List.forall₂_map_right_iff, List.forall₂_same]
  intro relocation member
  have zero := relocated_zero accepted member
  refine ⟨rfl, rfl, ?_⟩
  change intBytes _ _ = intBytes _ (value (slice _ relocation.offset relocation.kind.width) + _)
  rw [unlinkedBytes, zero]
  exact congrArg _ (Int.zero_add _).symm

theorem coffEdit_inside (accepted : Accepted src) :
    ∀ edit ∈ (relocationsIn (sourceOutput src).relocations section_).map
      ((sourceOutput src).coffEdit addresses), edit.Inside (unlinkedBytes src section_) := by
  intro edit member
  obtain ⟨relocation, inSection, rfl⟩ := List.mem_map.mp member
  have inside := relocated_inside accepted inSection
  have less := Nat.mod_le relocation.offset (2 ^ 32)
  unfold Edit.Inside unlinkedBytes
  change relocation.offset % 2 ^ 32 + relocation.kind.width ≤ _
  omega

theorem coffLinked_adds (accepted : Accepted src)
    (kept : ∀ relocation ∈ relocationsIn (sourceOutput src).relocations section_,
      relocation.offset < 2 ^ 32 ∨ ZeroDisplacement (sourceOutput src) relocation) :
    coffLinked src addresses section_ = addLinked src addresses 32 section_ := by
  refine applyAll_of_idle ?_ (coffEdit_inside accepted) (edits_of_fields accepted
    (fun _ => rfl) fun _ => rfl).1
  rw [List.forall₂_map_left_iff, List.forall₂_map_right_iff, List.forall₂_same]
  exact fun relocation member => OutputInput.coffEdit_adds (relocated_addend accepted member)
    (kept relocation member)

theorem addLinked_same (accepted : Accepted src)
    (kept : ∀ relocation ∈ (sourceOutput src).relocations, relocation.kind = .abs64 →
      ∀ symbol ∈ objectSymbolList (sourceOutput src).symtable,
        symbol.name = relocation.symbol → symbol.offset % 2 ^ 64 < 2 ^ 32) :
    addLinked src addresses 64 section_ = addLinked src addresses 32 section_ := by
  refine applyAll_of_idle ?_ (edits_of_fields accepted (fun _ => rfl) fun _ => rfl).1
    (edits_of_fields accepted (fun _ => rfl) fun _ => rfl).1
  rw [List.forall₂_map_left_iff, List.forall₂_map_right_iff, List.forall₂_same]
  refine fun relocation member => .inl (OutputInput.addEdit_same fun kind symbol found => ?_)
  obtain ⟨inList, named⟩ := relocationSymbol?_spec found
  exact kept relocation (mem_relocationsIn.mp member).1 kind symbol inList named

/-! ## Fields that COFF loses -/

/-- A list with an element of a kind has one with the greatest offset. -/
theorem exists_greatest {kind : Relocation → Prop} {relocations : List Relocation}
    (some_ : ∃ relocation ∈ relocations, kind relocation) :
    ∃ relocation ∈ relocations, kind relocation ∧
      ∀ other ∈ relocations, kind other → other.offset ≤ relocation.offset := by
  induction relocations with
  | nil =>
      obtain ⟨relocation, member, -⟩ := some_
      contradiction
  | cons head tail inductionHypothesis =>
      by_cases inTail : ∃ relocation ∈ tail, kind relocation
      · obtain ⟨greatest, member, isKind, most⟩ := inductionHypothesis inTail
        by_cases better : kind head ∧ greatest.offset < head.offset
        · refine ⟨head, List.mem_cons_self, better.1, fun other inList otherKind => ?_⟩
          rcases List.mem_cons.mp inList with rfl | inRest
          · exact Nat.le_refl _
          · exact Nat.le_trans (most other inRest otherKind) (Nat.le_of_lt better.2)
        · refine ⟨greatest, List.mem_cons_of_mem _ member, isKind, fun other inList otherKind => ?_⟩
          rcases List.mem_cons.mp inList with rfl | inRest
          · exact Nat.le_of_not_lt fun less => better ⟨otherKind, less⟩
          · exact most other inRest otherKind
      · obtain ⟨relocation, member, isKind⟩ := some_
        rcases List.mem_cons.mp member with rfl | inRest
        · refine ⟨relocation, List.mem_cons_self, isKind, fun other inList otherKind => ?_⟩
          rcases List.mem_cons.mp inList with rfl | inTailOther
          · exact Nat.le_refl _
          · exact absurd ⟨other, inTailOther, otherKind⟩ inTail
        · exact absurd ⟨relocation, inRest, isKind⟩ inTail

/-- The last field that 32 bits do not reach keeps its zero. -/
theorem coffLinked_lost (accepted : Accepted src) {relocation : Relocation}
    (member : relocation ∈ relocationsIn (sourceOutput src).relocations section_)
    (lost : ¬ (relocation.offset < 2 ^ 32 ∨ ZeroDisplacement (sourceOutput src) relocation))
    (last : ∀ other ∈ relocationsIn (sourceOutput src).relocations section_,
      ¬ (other.offset < 2 ^ 32 ∨ ZeroDisplacement (sourceOutput src) other) →
        other.offset ≤ relocation.offset) :
    slice (coffLinked src addresses section_) relocation.offset relocation.kind.width =
      slice (unlinkedBytes src section_) relocation.offset relocation.kind.width := by
  have far : 2 ^ 32 ≤ relocation.offset := Nat.le_of_not_lt fun small => lost (.inl small)
  refine slice_applyAll_of_idle (coffEdit_inside accepted) fun edit isEdit => ?_
  obtain ⟨other, inSection, rfl⟩ := List.mem_map.mp isEdit
  have narrow : other.kind.width ≤ 8 := by cases other.kind <;> decide
  by_cases otherLost : other.offset < 2 ^ 32 ∨ ZeroDisplacement (sourceOutput src) other
  · rcases otherLost with small | zero
    · -- a field that 32 bits reach is edited where it is
      refine .inr ?_
      have apart := List.Pairwise.forall (relocated_apart accepted) member inSection
        (by rintro rfl; omega)
      change _ ≤ other.offset % 2 ^ 32 ∨ other.offset % 2 ^ 32 + other.kind.width ≤ _
      rw [Nat.mod_eq_of_lt small]
      exact apart
    · rcases OutputInput.coffEdit_adds (relocated_addend accepted inSection) (.inr zero) with
        same | idle
      · refine .inl fun field length => ?_
        rw [same.change field length]
        exact OutputInput.writeEdit_idle (OutputInput.relocationNumber_zero zero
          (relocated_addend accepted inSection)) field length
      · exact .inl idle.1
  · -- a field beyond 32 bits is edited four gigabytes or more before it
    refine .inr (.inr ?_)
    have before := last other inSection otherLost
    have otherFar : 2 ^ 32 ≤ other.offset :=
      Nat.le_of_not_lt fun small => otherLost (.inl small)
    change other.offset % 2 ^ 32 + other.kind.width ≤ _
    omega

/-- A field of ELF holds the number of its relocation. -/
theorem elfLinked_field (accepted : Accepted src) {relocation : Relocation}
    (member : relocation ∈ relocationsIn (sourceOutput src).relocations section_) :
    slice (elfLinked src addresses section_) relocation.offset relocation.kind.width =
      intBytes relocation.kind.width
        ((sourceOutput src).relocationNumber addresses 64 relocation) := by
  have fields := @edits_of_fields src section_ accepted
    ((sourceOutput src).elfEdit addresses) (fun _ => rfl) fun _ => rfl
  exact slice_applyAll_of_mem fields.1 fields.2 (List.mem_map_of_mem member)

/-- A field that numbers are added to holds the number of its relocation. -/
theorem addLinked_field (accepted : Accepted src) {bits : Nat} {relocation : Relocation}
    (member : relocation ∈ relocationsIn (sourceOutput src).relocations section_) :
    slice (addLinked src addresses bits section_) relocation.offset relocation.kind.width =
      intBytes relocation.kind.width
        ((sourceOutput src).relocationNumber addresses bits relocation) := by
  have fields := @edits_of_fields src section_ accepted
    ((sourceOutput src).addEdit addresses bits) (fun _ => rfl) fun _ => rfl
  have field := slice_applyAll_of_mem fields.1 fields.2 (List.mem_map_of_mem member)
  have zero := relocated_zero accepted member
  refine field.trans ?_
  change intBytes _ (value (slice _ relocation.offset relocation.kind.width) + _) = _
  rw [zero]
  exact congrArg _ (Int.zero_add _)

/-- The symbol of a relocation of a source. -/
theorem relocationSymbol?_of_source (accepted : Accepted src) {relocation : Relocation}
    (member : relocation ∈ (sourceOutput src).relocations) :
    ∃ symbol, (sourceOutput src).relocationSymbol? relocation = some symbol := by
  obtain ⟨entry, inTable, isName, isOutput⟩ := relocation_symbol accepted member
  exact ⟨outputSymbol entry, relocationSymbol?_eq_some
    (mem_objectSymbolList.mpr ⟨entry, inTable, isOutput, rfl⟩) isName⟩

theorem fields_of_alike (accepted : Accepted src)
    (alike : ∀ addresses section_, elfLinked src addresses section_ =
      coffLinked src addresses section_) :
    ∀ relocation ∈ (sourceOutput src).relocations,
      relocation.offset < 2 ^ 32 ∨ ZeroDisplacement (sourceOutput src) relocation := by
  intro relocation member
  by_contra lost
  obtain ⟨greatest, inSection, greatestLost, last⟩ := @exists_greatest
    (fun other => ¬ (other.offset < 2 ^ 32 ∨ ZeroDisplacement (sourceOutput src) other)) _
    ⟨relocation, mem_relocationsIn.mpr ⟨member, rfl⟩, lost⟩
  obtain ⟨symbol, found⟩ := relocationSymbol?_of_source accepted (mem_relocationsIn.mp inSection).1
  refine greatestLost (.inr (OutputInput.zeroDisplacement_of_always found
    (relocated_addend accepted inSection) fun addresses => ?_))
  have elf := @elfLinked_field src _ addresses accepted _ inSection
  have coff := @coffLinked_lost src _ addresses accepted _ inSection greatestLost last
  have zero := relocated_zero accepted inSection
  rw [← unlinkedBytes, ← coff, ← alike, elf] at zero
  have number := value_intBytes greatest.kind.width
    ((sourceOutput src).relocationNumber addresses 64 greatest)
  rw [zero] at number
  exact number.symm

theorem symbols_of_alike (accepted : Accepted src)
    (alike : ∀ addresses section_, elfLinked src addresses section_ =
      coffLinked src addresses section_) :
    ∀ relocation ∈ (sourceOutput src).relocations, relocation.kind = .abs64 →
      ∀ symbol ∈ objectSymbolList (sourceOutput src).symtable,
        symbol.name = relocation.symbol → symbol.offset % 2 ^ 64 < 2 ^ 32 := by
  intro relocation member kind symbol inList named
  have inSection : relocation ∈ relocationsIn (sourceOutput src).relocations relocation.section_ :=
    mem_relocationsIn.mpr ⟨member, rfl⟩
  have kept := fields_of_alike accepted alike
  have elf := @elfLinked_field src _ ⟨fun _ => 0, fun _ => 0⟩ accepted _ inSection
  have coff := @addLinked_field src _ ⟨fun _ => 0, fun _ => 0⟩ accepted 32 _ inSection
  rw [← coffLinked_adds accepted fun other inOther => kept other (mem_relocationsIn.mp inOther).1,
    ← alike, elf, intBytes_eq_iff] at coff
  have found := relocationSymbol?_eq_some inList named
  rw [OutputInput.relocationNumber_eq 64 found, OutputInput.relocationNumber_eq 32 found,
    kind, relocated_addend accepted inSection, kind] at coff
  simp only [OutputInput.symbolTarget, RelocationKind.addend, RelocationKind.width] at coff
  rcases symbol_offset accepted inList with ⟨section_, offset, isSection, -, -⟩ | ⟨-, zero⟩
  · simp only [isSection] at coff
    omega
  · omega

end Sources

/-! ## The same bytes -/

section Objects

variable {src : SourceBuffer} {elf : ElfContents} {coff : CoffContents}

theorem linked_alike_iff (accepted : Accepted src) (from_ : FromSource src elf)
    (built : CoffBuilt (sourceOutput src) coff) :
    (∀ addresses section_, elf.linkedBytes addresses section_ =
      coff.linkedBytes addresses section_) ↔ CoffKeepsLinks (sourceOutput src) := by
  simp only [elf_linkedBytes accepted from_, coff_linkedBytes accepted built]
  refine ⟨fun alike => ⟨fields_of_alike accepted alike, symbols_of_alike accepted alike⟩,
    fun kept addresses section_ => ?_⟩
  calc elfLinked src addresses section_
      = addLinked src addresses 64 section_ := elfLinked_adds accepted
    _ = addLinked src addresses 32 section_ := addLinked_same accepted kept.symbols
    _ = coffLinked src addresses section_ := (coffLinked_adds accepted fun relocation member =>
        kept.fields relocation (mem_relocationsIn.mp member).1).symm

end Objects

/-- The two objects of an accepted source link to the same bytes, wherever the sections
and the external symbols are, exactly when 32 bits are enough for what COFF keeps. -/
theorem objects_link_alike_iff (src : SourceBuffer) (accepted : Accepted src)
    (elf : ElfContents) (elfWritten : FromSource src elf)
    (coff : CoffContents) (coffWritten : coffContents (sourceOutput src) = .ok coff) :
    (∀ addresses section_, elf.linkedBytes addresses section_ =
      coff.linkedBytes addresses section_) ↔ CoffKeepsLinks (sourceOutput src) :=
  linked_alike_iff accepted elfWritten (coffBuilt_of_contents coffWritten)

/-- Both writers write the objects of a source. -/
theorem written_by_both {src : SourceBuffer}
    (run : ((outputWriteElf64 (sourceOutput src)).toOption.isSome &&
      (coffContents (sourceOutput src)).toOption.isSome) = true) :
    ∃ elf coff, FromSource src elf ∧ coffContents (sourceOutput src) = .ok coff := by
  obtain ⟨elfRun, coffRun⟩ := Bool.and_eq_true_iff.mp run
  cases elfWritten : outputWriteElf64 (sourceOutput src) with
  | error message =>
      rw [elfWritten] at elfRun
      contradiction
  | ok file =>
      cases coffWritten : coffContents (sourceOutput src) with
      | error message =>
          rw [coffWritten] at coffRun
          contradiction
      | ok coff =>
          obtain ⟨elf, from_, -⟩ := contents_of_written elfWritten
          exact ⟨elf, coff, from_, rfl⟩

theorem objects_link_alike_iff_markedCallCoff : ∃ elf coff, FromSource markedCallCoff elf ∧
    coffContents (sourceOutput markedCallCoff) = .ok coff ∧
      ((∀ addresses section_, elf.linkedBytes addresses section_ =
        coff.linkedBytes addresses section_) ↔ CoffKeepsLinks (sourceOutput markedCallCoff)) := by
  obtain ⟨elf, coff, from_, written⟩ := @written_by_both markedCallCoff (by decide +kernel)
  exact ⟨elf, coff, from_, written, objects_link_alike_iff markedCallCoff (by decide +kernel) elf
    from_ coff written⟩

/-- A word with the address of a label beyond four gigabytes of `.غير_مهيأة`. -/
def farLabelWord : SourceBuffer :=
  ⟨utf8 (".غير_مهيأة\n.مساحة_صفرية 2147483647\n.مساحة_صفرية 2147483647\n" ++
    ".مساحة_صفرية 2147483647\nأ:\n.بيانات\n.عدد٦٤ أ\n"), none⟩

/-- The COFF object links the word to an address four gigabytes lower. -/
theorem far_label_links_differently : Accepted farLabelWord ∧
    ∃ elf coff, FromSource farLabelWord elf ∧ coffContents (sourceOutput farLabelWord) = .ok coff ∧
      ¬ ∀ addresses section_, elf.linkedBytes addresses section_ =
        coff.linkedBytes addresses section_ := by
  have accepted : Accepted farLabelWord := by decide +kernel
  obtain ⟨elf, coff, from_, written⟩ := @written_by_both farLabelWord (by decide +kernel)
  refine ⟨accepted, elf, coff, from_, written, fun alike => ?_⟩
  have kept := (linked_alike_iff accepted from_ (coffBuilt_of_contents written)).mp alike
  have small := kept.symbols ⟨.data, .abs64, 0, utf8 "أ", 0⟩ (by decide +kernel) rfl
    ⟨utf8 "أ", 6442450941, some .bss, .local⟩ (by decide +kernel) rfl
  exact absurd small (by decide)

end Nazm.Output
