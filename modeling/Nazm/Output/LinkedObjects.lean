import Nazm.Output.SymbolSections

/-!
Linking the two objects of a source.

Owns what a linker makes of the sections of an ELF object, from RELA entries
with their addends, and of a COFF object, from relocations that add to what
their fields hold; and that each entry edits the field of its relocation.

Does not own when the two linkers write the same bytes.
-/

namespace Nazm.Output

open ByteFile FieldEdits LittleEndian
open Nazm.Encoder Nazm.Lexer Nazm.Symtable Nazm.Unicode Nazm.Passes

/-! ## Fields -/

/-- Write a number over the field of a relocation. -/
def writeEdit (kind : RelocationKind) (offset : Nat) (number : List UInt8 → Int) : Edit UInt8 where
  offset := offset
  width := kind.width
  change field := intBytes kind.width (number field)
  keeps _ _ := length_intBytes _ _

/-- `R_X86_64_64` and `R_X86_64_PC32`. -/
def elfRelocationKind (type : Nat) : RelocationKind := if type = 2 then .pc32 else .abs64

/-- `IMAGE_REL_AMD64_ADDR64` and `IMAGE_REL_AMD64_REL32`. -/
def coffRelocationKind (type : Nat) : RelocationKind := if type = 4 then .pc32 else .abs64

theorem elfRelocationKind_type (kind : RelocationKind) :
    elfRelocationKind (elfRelocationType kind) = kind := by
  cases kind <;> rfl

theorem coffRelocationKind_type (kind : RelocationKind) :
    coffRelocationKind (coffRelocationType kind) = kind := by
  cases kind <;> rfl

/-! ## Addresses -/

/-- The section of the source that a section of an ELF object comes from. -/
def ElfSection.symbolSection? : ElfSection → Option SymbolSection
  | .text => some .text
  | .data => some .data
  | .readOnlyData => some .readOnlyData
  | .bss => some .bss
  | _ => none

/-- The section of the source that a section of a COFF object comes from. -/
def CoffSection.symbolSection? : CoffSection → Option SymbolSection
  | .text => some .text
  | .data => some .data
  | .readOnlyData => some .readOnlyData
  | .bss => some .bss
  | .debug => none

/-- The ELF section of the relocations of a section applies to. -/
def elfSectionOfRelocations : RelocationSection → ElfSection
  | .text => .text
  | .data => .data
  | .readOnlyData => .readOnlyData

def coffPartOfRelocations : RelocationSection → CoffPart
  | .text => .text
  | .data => .data
  | .readOnlyData => .readOnlyData

namespace ElfContents

variable (contents : ElfContents) (addresses : Addresses)

/-- A symbol is at its value in its section, or external. -/
def symbolAddress (record : ElfSymbol) : Int :=
  match contents.table[record.shndx]?.join.bind ElfSection.symbolSection? with
  | some section_ => addresses.base section_ + record.value
  | none => addresses.external ((stringAt (contents.bytes .strtab) record.name).getD [])

/-- `S`. -/
def relaAddress (rela : ElfRela) : Int :=
  ((elfSymbols contents.input contents.numbers contents.symbols)[rela.symbolIndex]?.map
    (contents.symbolAddress addresses)).getD 0

/-- RELA: the field becomes `S + A` or `S + A - P`, whatever it holds. -/
def relaEdit (section_ : RelocationSection) (rela : ElfRela) : Edit UInt8 :=
  match elfRelocationKind rela.type with
  | .abs64 => writeEdit .abs64 rela.offset fun _ => contents.relaAddress addresses rela + rela.addend
  | .pc32 => writeEdit .pc32 rela.offset fun _ => contents.relaAddress addresses rela + rela.addend -
      (addresses.base section_.symbolSection + rela.offset)

/-- A section with its RELA entries applied. -/
def linkedBytes (section_ : RelocationSection) : List UInt8 :=
  applyAll ((contents.relasOf (relaSection section_)).map (contents.relaEdit addresses section_))
    (contents.bytes (elfSectionOfRelocations section_))

end ElfContents

namespace CoffContents

variable (contents : CoffContents) (addresses : Addresses)

/-- A symbol is at its value in its section, or external. -/
def symbolAddress (record : CoffSym) : Int :=
  match (if 0 < record.section_ then contents.sections[(record.section_ - 1).toNat]?
    else none).bind CoffSection.symbolSection? with
  | some section_ => addresses.base section_ + record.value.toNat
  | none => addresses.external record.name

/-- `S`. -/
def relocAddress (reloc : CoffReloc) : Int :=
  (contents.symtab[reloc.symbolIndex.toNat]?.map (contents.symbolAddress addresses)).getD 0

/-- What the field holds is the addend: `field + S`, or `field + S - (P + 4)`. -/
def relocEdit (section_ : RelocationSection) (reloc : CoffReloc) : Edit UInt8 :=
  match coffRelocationKind reloc.type with
  | .abs64 => writeEdit .abs64 reloc.offset.toNat fun field =>
      value field + contents.relocAddress addresses reloc
  | .pc32 => writeEdit .pc32 reloc.offset.toNat fun field =>
      value field + contents.relocAddress addresses reloc -
        (addresses.base section_.symbolSection + reloc.offset.toNat + 4)

/-- A section with its relocations applied. -/
def linkedBytes (section_ : RelocationSection) : List UInt8 :=
  applyAll ((contents.relocsOf section_).map (contents.relocEdit addresses section_))
    (contents.part (coffPartOfRelocations section_))

end CoffContents

/-! ## Symbols in the objects -/

/-- The section that the objects record for a section of the source. -/
def OutputInput.recordedSection (input : OutputInput) (section_ : SymbolSection) : SymbolSection :=
  if input.hasSection (elfSectionOfSymbol section_) then section_ else .text

/-- Where a symbol is, with the bits of its offset that an object keeps. -/
def OutputInput.symbolTarget (input : OutputInput) (addresses : Addresses) (bits : Nat)
    (symbol : OutputSymbol) : Int :=
  match symbol.section_ with
  | some section_ => addresses.base (input.recordedSection section_) + symbol.offset % 2 ^ bits
  | none => addresses.external symbol.name

/-- A section that is not in the object has the number of `.text`. -/
theorem symbolSectionIndex_absent {contents : ElfContents} {section_ : SymbolSection}
    (absent : contents.input.hasSection (elfSectionOfSymbol section_) = false) :
    symbolSectionIndex contents.numbers (some section_) =
      symbolSectionIndex contents.numbers (some .text) := by
  unfold symbolSectionIndex ElfContents.numbers elfNumbers nextSection
  cases section_ <;> simp [elfSectionOfSymbol, OutputInput.hasSection] at absent <;> simp [absent]

theorem coffSectionNumber_absent {contents : CoffContents} {section_ : SymbolSection}
    (absent : contents.input.hasSection (elfSectionOfSymbol section_) = false) :
    coffSectionNumber (coffNumbers contents.input) (some section_) =
      coffSectionNumber (coffNumbers contents.input) (some .text) := by
  unfold coffSectionNumber coffNumbers nextSection
  cases section_ <;> simp [elfSectionOfSymbol, OutputInput.hasSection] at absent <;> simp [absent]

theorem elf_table_recorded (contents : ElfContents) (section_ : SymbolSection) :
    contents.table[symbolSectionIndex contents.numbers (some section_)]?.join.bind
        ElfSection.symbolSection? = some (contents.input.recordedSection section_) := by
  cases present : contents.input.hasSection (elfSectionOfSymbol section_) with
  | true =>
      rw [(elf_section_found contents section_).mpr present, OutputInput.recordedSection,
        if_pos present]
      cases section_ <;> rfl
  | false =>
      rw [symbolSectionIndex_absent present, (elf_section_found contents .text).mpr rfl,
        OutputInput.recordedSection, present]
      rfl

theorem coff_sections_recorded (contents : CoffContents) (section_ : SymbolSection) :
    (if 0 < (coffSectionNumber (coffNumbers contents.input) (some section_) : Int) then
        contents.sections[((coffSectionNumber (coffNumbers contents.input)
          (some section_) : Int) - 1).toNat]?
      else none).bind CoffSection.symbolSection? =
        some (contents.input.recordedSection section_) := by
  have indexed : ∀ section_ : SymbolSection,
      contents.input.hasCoffSection (coffSectionOfSymbol section_) = true →
      (if 0 < (coffSectionNumber (coffNumbers contents.input) (some section_) : Int) then
        contents.sections[((coffSectionNumber (coffNumbers contents.input)
          (some section_) : Int) - 1).toNat]?
        else none) = some (coffSectionOfSymbol section_) := by
    intro section_ present
    obtain ⟨positive, found⟩ := (coff_section_found contents section_).mpr present
    rw [if_pos (by omega), ← found]
    congr 1
    omega
  cases present : contents.input.hasSection (elfSectionOfSymbol section_) with
  | true =>
      have inCoff : contents.input.hasCoffSection (coffSectionOfSymbol section_) = true := by
        cases section_ <;> exact present
      rw [indexed section_ inCoff, OutputInput.recordedSection, if_pos present]
      cases section_ <;> rfl
  | false =>
      rw [coffSectionNumber_absent present, indexed .text rfl, OutputInput.recordedSection,
        present]
      rfl

theorem elf_symbolAddress (contents : ElfContents) (addresses : Addresses) {symbol : OutputSymbol}
    {nameOffset : Nat}
    (named : stringAt (contents.bytes .strtab) nameOffset = some symbol.name) :
    contents.symbolAddress addresses (elfSymbol contents.numbers symbol nameOffset) =
      contents.input.symbolTarget addresses 64 symbol := by
  rw [ElfContents.symbolAddress, OutputInput.symbolTarget, elfSymbol]
  cases isSection : symbol.section_ with
  | some section_ =>
      dsimp only
      rw [elf_table_recorded]
      dsimp only
      have kept : (((symbol.offset % 2 ^ 64).toNat : Nat) : Int) = symbol.offset % 2 ^ 64 := by omega
      rw [kept]
  | none =>
      dsimp only
      rw [named]
      rfl

theorem coff_symbolAddress (contents : CoffContents) (addresses : Addresses)
    (symbol : OutputSymbol) (nameOffset : UInt32) :
    contents.symbolAddress addresses (contents.symbol symbol nameOffset) =
      contents.input.symbolTarget addresses 32 symbol := by
  rw [CoffContents.symbolAddress, OutputInput.symbolTarget, CoffContents.symbol]
  cases isSection : symbol.section_ with
  | some section_ =>
      dsimp only
      rw [coff_sections_recorded]
      dsimp only
      rw [toNat_ofInt32]
  | none => rfl

/-! ## Edits of relocations -/

namespace OutputInput

variable (input : OutputInput) (addresses : Addresses)

/-- The symbol of a relocation. -/
def relocationSymbol? (relocation : Relocation) : Option OutputSymbol :=
  (objectSymbolList input.symtable).find? fun symbol => decide (symbol.name = relocation.symbol)

/-- `S + A`, or `S + A - P`, with the bits that an object keeps of a symbol. -/
def relocationNumber (bits : Nat) (relocation : Relocation) : Int :=
  let target := ((input.relocationSymbol? relocation).map (input.symbolTarget addresses bits)).getD 0
  match relocation.kind with
  | .abs64 => target + relocation.addend
  | .pc32 => target + relocation.addend -
      (addresses.base relocation.section_.symbolSection + relocation.offset)

/-- What a linker of ELF objects does for a relocation. -/
def elfEdit (relocation : Relocation) : Edit UInt8 :=
  writeEdit relocation.kind relocation.offset fun _ =>
    input.relocationNumber addresses 64 relocation

/-- What a linker of COFF objects does for a relocation. -/
def coffEdit (relocation : Relocation) : Edit UInt8 :=
  writeEdit relocation.kind (relocation.offset % 2 ^ 32) fun field =>
    value field + input.relocationNumber addresses 32
      { relocation with offset := relocation.offset % 2 ^ 32 }

end OutputInput

theorem relocationSymbol?_spec {input : OutputInput} {relocation : Relocation}
    {symbol : OutputSymbol} (found : input.relocationSymbol? relocation = some symbol) :
    symbol ∈ objectSymbolList input.symtable ∧ symbol.name = relocation.symbol := by
  have isNamed := List.find?_some found
  exact ⟨List.mem_of_find?_eq_some found, of_decide_eq_true isNamed⟩

/-- The symbol of a relocation is the only one of its name. -/
theorem relocationSymbol?_eq_some {input : OutputInput} {relocation : Relocation}
    {symbol : OutputSymbol} (member : symbol ∈ objectSymbolList input.symtable)
    (named : symbol.name = relocation.symbol) :
    input.relocationSymbol? relocation = some symbol := by
  cases found : input.relocationSymbol? relocation with
  | none =>
      have none := List.find?_eq_none.mp found symbol member
      exact absurd named (of_decide_eq_false (by simpa using none))
  | some other =>
      obtain ⟨inList, same⟩ := relocationSymbol?_spec found
      rw [symbol_unique inList member (same.trans named.symm)]

/-- Entries that do one by one what their relocations say. -/
theorem map_eq_of_forall₂ {α β γ : Type} {relation : α → β → Prop} {first : α → γ} {second : β → γ}
    {sources : List α} {targets : List β} (related : List.Forall₂ relation sources targets)
    (equal : ∀ source target, source ∈ sources → relation source target →
      second target = first source) : targets.map second = sources.map first := by
  induction related with
  | nil => rfl
  | @cons source target sources targets here _ inductionHypothesis =>
      rw [List.map_cons, List.map_cons, equal source target List.mem_cons_self here,
        inductionHypothesis fun other image member =>
          equal other image (List.mem_cons_of_mem _ member)]

theorem elf_edits {src : SourceBuffer} {contents : ElfContents} (accepted : Accepted src)
    (from_ : FromSource src contents) (addresses : Addresses) (section_ : RelocationSection) :
    (contents.relasOf (ElfContents.relaSection section_)).map
        (contents.relaEdit addresses section_) =
      (relocationsIn contents.input.relocations section_).map
        (contents.input.elfEdit addresses) := by
  refine map_eq_of_forall₂ (forall₂_of_mapM (from_.relas section_))
    fun relocation rela inSection isRela => ?_
  have here := (mem_relocationsIn.mp inSection).2
  obtain ⟨index, found, rfl⟩ := Option.map_eq_some_iff.mp isRela
  obtain ⟨place, symbol, rfl, isSymbol, isName⟩ := outputSymbolsFindIndex_eq_some found
  have inList : symbol ∈ objectSymbolList contents.input.symtable := by
    have member := List.mem_of_getElem? isSymbol
    rw [from_.symbols] at member
    rw [from_.input]
    exact member
  have isNamed : (symbolNames contents.symbols)[place]? = some symbol.name := by
    rw [symbolNames, List.getElem?_map, isSymbol]
    rfl
  have named := @stringAt_strings [0] _ _ _ isNamed
    (symbol_isName accepted (by rw [from_.input] at inList; exact inList)).clean
  have target := elf_symbolAddress contents addresses named
  have address : contents.relaAddress addresses ⟨relocation.offset,
      place + 1 + symbolIndexBias contents.input, elfRelocationType relocation.kind,
      relocation.addend⟩ = contents.input.symbolTarget addresses 64 symbol := by
    rw [ElfContents.relaAddress, elfSymbols_getElem? isSymbol, Option.map_some,
      Option.getD_some]
    exact target
  rw [ElfContents.relaEdit, OutputInput.elfEdit, OutputInput.relocationNumber,
    relocationSymbol?_eq_some inList isName, elfRelocationKind_type]
  cases kind : relocation.kind with
  | abs64 =>
      rw [kind] at address
      dsimp only
      rw [address]
      rfl
  | pc32 =>
      rw [kind] at address
      dsimp only
      rw [address, here]
      rfl

theorem coff_edits {src : SourceBuffer} {contents : CoffContents}
    (built : CoffBuilt (sourceOutput src) contents) (addresses : Addresses)
    (section_ : RelocationSection) (addends : ∀ relocation ∈ contents.input.relocations,
      relocation.addend = relocation.kind.addend) :
    (contents.relocsOf section_).map (contents.relocEdit addresses section_) =
      (relocationsIn contents.input.relocations section_).map
        (contents.input.coffEdit addresses) := by
  have isInput := built.isInput
  rw [isInput]
  refine map_eq_of_forall₂ (relocs_of_built built section_)
    fun relocation reloc inSection isReloc => ?_
  obtain ⟨inInput, here⟩ := mem_relocationsIn.mp inSection
  obtain ⟨place, symbol, isSymbol, isName, rfl⟩ := isReloc
  have addend := addends relocation (by rw [isInput]; exact inInput)
  have inList : symbol ∈ objectSymbolList (sourceOutput src).symtable := by
    have member := List.mem_of_getElem? isSymbol
    rw [built.symbols] at member
    exact member
  have count := built.symbolCount
  have inRange := (List.getElem?_eq_some_iff.mp isSymbol).1
  rw [uint32Max] at count
  have index : (UInt32.ofNat (place + 1)).toNat = place + 1 :=
    CoffContents.toNat_cast_iff.mpr (by omega)
  have address : contents.relocAddress addresses ⟨UInt32.ofNat relocation.offset,
      UInt32.ofNat (place + 1), coffRelocationType relocation.kind⟩ =
        (sourceOutput src).symbolTarget addresses 32 symbol := by
    rw [CoffContents.relocAddress, index, CoffContents.symtab_symbol isSymbol, Option.map_some,
      Option.getD_some, coff_symbolAddress, isInput]
  rw [CoffContents.relocEdit, OutputInput.coffEdit, OutputInput.relocationNumber,
    coffRelocationKind_type]
  have offset : (UInt32.ofNat relocation.offset).toNat = relocation.offset % 2 ^ 32 :=
    UInt32.toNat_ofNat'
  have found : (sourceOutput src).relocationSymbol?
      { relocation with offset := relocation.offset % 2 ^ 32 } = some symbol :=
    relocationSymbol?_eq_some inList isName
  cases kind : relocation.kind with
  | abs64 =>
      rw [kind] at address addend found
      dsimp only
      rw [address, offset]
      congr 1
      funext field
      rw [found, addend, Option.map_some, Option.getD_some, RelocationKind.addend, Int.add_zero]
  | pc32 =>
      rw [kind] at address addend found
      dsimp only
      rw [address, offset]
      congr 1
      funext field
      rw [found, addend, Option.map_some, Option.getD_some, RelocationKind.addend, here]
      omega

end Nazm.Output
