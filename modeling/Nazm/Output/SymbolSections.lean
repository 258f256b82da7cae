import Mathlib.Data.List.Nodup
import Nazm.Output.CoffExact
import Nazm.Output.ElfRecovered

/-!
The sections of symbols.

Owns where the symbol of a label or of an external name stands in the two
objects, and when its record designates the section of the label: both writers
fall back on `.text` for a section that is not in the object.

Does not own the rest of the symbol tables.
-/

namespace Nazm.Output

open ByteFile
open Nazm.Encoder Nazm.Lexer Nazm.Symtable Nazm.Unicode Nazm.Passes

variable {src : SourceBuffer}

/-! ## Symbols of labels -/

/-- The section of an ELF object that a section of the source goes to. -/
def elfSectionOfSymbol : SymbolSection → ElfSection
  | .text => .text
  | .data => .data
  | .readOnlyData => .readOnlyData
  | .bss => .bss

/-- The section of a COFF object that a section of the source goes to. -/
def coffSectionOfSymbol : SymbolSection → CoffSection
  | .text => .text
  | .data => .data
  | .readOnlyData => .readOnlyData
  | .bss => .bss

/-- What is known of a name is in the symbol table. -/
theorem entry_mem_source (accepted : Accepted src) {name : List UInt8}
    (known : factsOf name (sourceEvents src) ≠ .start) :
    (factsOf name (sourceEvents src)).entry name ∈ (sourcePass1 src).symtable.entries := by
  have found := findEntry_source accepted name
  rw [NameFacts.entry?, if_neg known] at found
  exact ChainedTable.mem_entries_iff.mpr found

/-- The symbol that the writers collect for a label. -/
theorem symbol_of_definition (accepted : Accepted src) {name : List UInt8}
    {section_ : SymbolSection} {offset : Nat}
    (defined : .define name section_ offset ∈ sourceEvents src) :
    ∃ symbol ∈ objectSymbolList (sourcePass1 src).symtable, symbol.name = name ∧
      symbol.section_ = some section_ ∧ symbol.offset = (offset : Nat) := by
  have definition : (factsOf name (sourceEvents src)).definition = some (section_, offset) :=
    (factsOf_definition (Accepted.passes accepted).walk.events).mpr defined
  have known : factsOf name (sourceEvents src) ≠ .start := fun start => by
    rw [start] at definition
    contradiction
  refine ⟨_, mem_objectSymbolList.mpr ⟨_, entry_mem_source accepted known, ?_, rfl⟩, rfl, ?_, ?_⟩
  · simp only [isOutputSymbol, NameFacts.entry, definition, Option.isSome_some, Bool.true_or]
  · simp only [outputSymbol, NameFacts.entry, definition, Option.map_some]
  · simp only [outputSymbol, NameFacts.entry, definition, Option.map_some, Option.getD_some]

/-- The symbol that the writers collect for an external name. -/
theorem symbol_of_external (accepted : Accepted src) {name : List UInt8}
    (declared : .external name ∈ sourceEvents src) :
    ∃ symbol ∈ objectSymbolList (sourcePass1 src).symtable, symbol.name = name ∧
      symbol.section_ = none := by
  obtain ⟨-, -, reported, -, defined⟩ := factsOf_reports name (sourceEvents src)
  have external := reported.mpr declared
  have definition : (factsOf name (sourceEvents src)).definition = none := by
    cases known : (factsOf name (sourceEvents src)).definition with
    | none => rfl
    | some place =>
        have apart := List.Pairwise.forall (Accepted.passes accepted).walk.events declared
          (defined place.1 place.2 known) (by rintro ⟨⟩)
        exact absurd rfl apart
  have known : factsOf name (sourceEvents src) ≠ .start := fun start => by
    rw [start] at external
    contradiction
  refine ⟨_, mem_objectSymbolList.mpr ⟨_, entry_mem_source accepted known, ?_, rfl⟩, rfl, ?_⟩
  · simp only [isOutputSymbol, NameFacts.entry, external, Bool.or_true]
  · simp only [outputSymbol, NameFacts.entry, definition, Option.map_none]

/-! ## Sections in the objects -/

/-- The number of a section leads to it exactly when it is in the ELF object. -/
theorem elf_section_found (contents : ElfContents) (section_ : SymbolSection) :
    contents.table[symbolSectionIndex contents.numbers (some section_)]? =
        some (some (elfSectionOfSymbol section_)) ↔
      contents.input.hasSection (elfSectionOfSymbol section_) = true := by
  unfold ElfContents.table ElfContents.sections ElfContents.numbers elfNumbers ElfSection.all
  simp only [List.filter, OutputInput.hasSection]
  generalize contents.input.hasData = hasData
  generalize contents.input.hasReadOnlyData = hasReadOnlyData
  generalize contents.input.hasBss = hasBss
  generalize contents.input.hasDebug = hasDebug
  generalize hasRelocationsInSection contents.input.relocations .text = relaText
  generalize hasRelocationsInSection contents.input.relocations .data = relaData
  generalize hasRelocationsInSection contents.input.relocations .readOnlyData = relaReadOnlyData
  cases section_ <;> revert hasData hasReadOnlyData hasBss hasDebug relaText relaData
    relaReadOnlyData <;> decide +kernel

/-- The number of a section leads to it exactly when it is in the COFF object. -/
theorem coff_section_found (contents : CoffContents) (section_ : SymbolSection) :
    (0 < coffSectionNumber (coffNumbers contents.input) (some section_) ∧
      contents.sections[coffSectionNumber (coffNumbers contents.input) (some section_) - 1]? =
        some (coffSectionOfSymbol section_)) ↔
      contents.input.hasCoffSection (coffSectionOfSymbol section_) = true := by
  unfold CoffContents.sections coffNumbers CoffSection.all
  simp only [List.filter, OutputInput.hasCoffSection]
  generalize contents.input.hasData = hasData
  generalize contents.input.hasReadOnlyData = hasReadOnlyData
  generalize contents.input.hasBss = hasBss
  generalize contents.input.hasDebug = hasDebug
  cases section_ <;> revert hasData hasReadOnlyData hasBss hasDebug <;> decide +kernel

/-- A section is in the objects exactly when it is `.text` or has a size. -/
theorem elf_section_present (section_ : SymbolSection) :
    (sourceOutput src).hasSection (elfSectionOfSymbol section_) = true ↔
      section_ = .text ∨ 0 < (sourcePass2 src).sizes.get section_ := by
  cases section_ with
  | text => exact iff_of_true rfl (.inl rfl)
  | data | readOnlyData | bss =>
      exact decide_eq_true_iff.trans (or_iff_right (by decide)).symm

theorem coff_section_present (section_ : SymbolSection) :
    (sourceOutput src).hasCoffSection (coffSectionOfSymbol section_) = true ↔
      section_ = .text ∨ 0 < (sourcePass2 src).sizes.get section_ := by
  cases section_ with
  | text => exact iff_of_true rfl (.inl rfl)
  | data | readOnlyData | bss =>
      exact decide_eq_true_iff.trans (or_iff_right (by decide)).symm

/-! ## Records of symbols -/

/-- The record of a symbol in an ELF object: that of its place in the symbol list. -/
structure ElfRecordOf (contents : ElfContents) (name : List UInt8) (record : ElfSymbol) : Prop where
  place : ∃ place symbol, contents.symbols.data[place]? = some symbol ∧ symbol.name = name ∧
    (elfSymbols contents.input contents.numbers
      contents.symbols)[place + 1 + symbolIndexBias contents.input]? = some record
  name : stringAt (contents.bytes .strtab) record.name = some name

/-- The record of a symbol in a COFF object. -/
structure CoffRecordOf (contents : CoffContents) (name : List UInt8) (record : CoffSym) : Prop where
  place : ∃ place symbol, contents.symbols.data[place]? = some symbol ∧ symbol.name = name ∧
    contents.symtab[place + 1]? = some record
  name : record.name = name

/-- Labels keep their section and offset in an ELF object, and external names have none. -/
structure ElfSymbolsKept (src : SourceBuffer) (contents : ElfContents) : Prop where
  defined : ∀ name section_ offset, .define name section_ offset ∈ sourceEvents src →
    ∃ record, ElfRecordOf contents name record ∧
      contents.table[record.shndx]? = some (some (elfSectionOfSymbol section_)) ∧
      record.value = offset
  external : ∀ name, .external name ∈ sourceEvents src →
    ∃ record, ElfRecordOf contents name record ∧ record.shndx = 0

/-- Labels keep their section and offset in a COFF object, and external names have none. -/
structure CoffSymbolsKept (src : SourceBuffer) (contents : CoffContents) : Prop where
  defined : ∀ name section_ offset, .define name section_ offset ∈ sourceEvents src →
    ∃ record, CoffRecordOf contents name record ∧
      (0 < record.section_ ∧ contents.sections[(record.section_ - 1).toNat]? =
        some (coffSectionOfSymbol section_)) ∧ record.value.toNat = offset
  external : ∀ name, .external name ∈ sourceEvents src →
    ∃ record, CoffRecordOf contents name record ∧ record.section_ = 0

/-- Labels stand in `.text` or in sections with a size. -/
def LabelsInFilledSections (src : SourceBuffer) : Prop :=
  ∀ name section_ offset, .define name section_ offset ∈ sourceEvents src →
    section_ = .text ∨ 0 < (sourcePass2 src).sizes.get section_

/-- Labels stand before an offset in their sections. -/
def LabelsBefore (src : SourceBuffer) (bound : Nat) : Prop :=
  ∀ name section_ offset, .define name section_ offset ∈ sourceEvents src → offset < bound

/-! ## When labels keep their sections -/

/-- Collected symbols of one name are one symbol. -/
theorem symbol_unique {symtable : SymbolTable} {first second : OutputSymbol}
    (one : first ∈ objectSymbolList symtable) (two : second ∈ objectSymbolList symtable)
    (same : first.name = second.name) : first = second :=
  List.inj_on_of_nodup_map (nodup_objectSymbolList symtable) one two same

section Elf

variable {contents : ElfContents}

theorem elfSymbols_getElem? {place : Nat} {symbol : OutputSymbol}
    (isSymbol : contents.symbols.data[place]? = some symbol) :
    (elfSymbols contents.input contents.numbers
        contents.symbols)[place + 1 + symbolIndexBias contents.input]? =
      some (elfSymbol contents.numbers symbol
        (1 + (strings ((symbolNames contents.symbols).take place)).length)) := by
  have first : ([(⟨0, 0, 0, 0, 0, 0⟩ : ElfSymbol)] ++ (if contents.input.hasDebug then
      [(⟨0, 3, 0, contents.numbers.text, 0, 0⟩ : ElfSymbol)] else [])).length =
      1 + symbolIndexBias contents.input := by
    rw [symbolIndexBias]
    split <;> rfl
  have inRange := (List.getElem?_eq_some_iff.mp isSymbol).1
  have offset : (elfNameOffsets 1 (symbolNames contents.symbols))[place]? =
      some (1 + (strings ((symbolNames contents.symbols).take place)).length) :=
    ElfContents.elfNameOffsets_getElem? (by rw [symbolNames, List.length_map]; exact inRange)
  have index : place + 1 + symbolIndexBias contents.input - (1 + symbolIndexBias contents.input) =
      place := by omega
  rw [elfSymbols, List.getElem?_append_right (by rw [first]; omega), first, index,
    List.getElem?_zipWith, isSymbol, offset]

/-- The record of a symbol of the source. -/
theorem elfRecord_of_symbol (accepted : Accepted src) (from_ : FromSource src contents)
    {symbol : OutputSymbol} (member : symbol ∈ objectSymbolList (sourcePass1 src).symtable) :
    ∃ nameOffset, ElfRecordOf contents symbol.name (elfSymbol contents.numbers symbol nameOffset) := by
  have inList : symbol ∈ contents.symbols.data := by rw [from_.symbols]; exact member
  obtain ⟨place, isSymbol⟩ := List.mem_iff_getElem?.mp inList
  have isName : (symbolNames contents.symbols)[place]? = some symbol.name := by
    rw [symbolNames, List.getElem?_map, isSymbol]
    rfl
  have named := @stringAt_strings [0] _ _ _ isName (symbol_isName accepted member).clean
  exact ⟨1 + (strings ((symbolNames contents.symbols).take place)).length,
    ⟨place, symbol, isSymbol, rfl, elfSymbols_getElem? isSymbol⟩, named⟩

/-- A record of the name of a symbol is its record. -/
theorem eq_elfRecord (from_ : FromSource src contents) {symbol : OutputSymbol}
    (member : symbol ∈ objectSymbolList (sourcePass1 src).symtable) {record : ElfSymbol}
    (isRecord : ElfRecordOf contents symbol.name record) :
    ∃ nameOffset, record = elfSymbol contents.numbers symbol nameOffset := by
  obtain ⟨place, other, isOther, isName, atPlace⟩ := isRecord.place
  have otherMember : other ∈ objectSymbolList (sourcePass1 src).symtable := by
    have inList := List.mem_of_getElem? isOther
    rwa [from_.symbols] at inList
  obtain rfl := symbol_unique otherMember member isName
  exact ⟨_, Option.some.inj (atPlace.symm.trans (elfSymbols_getElem? isOther))⟩

theorem elfSymbolsKept_iff (accepted : Accepted src) (from_ : FromSource src contents) :
    ElfSymbolsKept src contents ↔ LabelsInFilledSections src ∧ LabelsBefore src (2 ^ 64) := by
  have present := fun section_ => (elf_section_found contents section_).trans
    (from_.input ▸ @elf_section_present src section_)
  constructor
  · intro kept
    have each : ∀ name section_ offset, .define name section_ offset ∈ sourceEvents src →
        (section_ = .text ∨ 0 < (sourcePass2 src).sizes.get section_) ∧ offset < 2 ^ 64 := by
      intro name section_ offset defined
      obtain ⟨symbol, member, rfl, isSection, isOffset⟩ := symbol_of_definition accepted defined
      obtain ⟨record, isRecord, found, value⟩ := kept.defined _ _ _ defined
      obtain ⟨nameOffset, rfl⟩ := eq_elfRecord from_ member isRecord
      rw [elfSymbol, isSection] at found
      refine ⟨(present section_).mp found, ?_⟩
      rw [elfSymbol, isOffset] at value
      dsimp only at value
      omega
    exact ⟨fun name section_ offset defined => (each name section_ offset defined).1,
      fun name section_ offset defined => (each name section_ offset defined).2⟩
  · rintro ⟨filled, small⟩
    refine ⟨fun name section_ offset defined => ?_, fun name declared => ?_⟩
    · obtain ⟨symbol, member, rfl, isSection, isOffset⟩ := symbol_of_definition accepted defined
      obtain ⟨nameOffset, isRecord⟩ := elfRecord_of_symbol accepted from_ member
      have below := small _ _ _ defined
      refine ⟨_, isRecord, ?_, ?_⟩
      · rw [elfSymbol, isSection]
        exact (present section_).mpr (filled _ _ _ defined)
      · rw [elfSymbol, isOffset]
        dsimp only
        omega
    · obtain ⟨symbol, member, rfl, isSection⟩ := symbol_of_external accepted declared
      obtain ⟨nameOffset, isRecord⟩ := elfRecord_of_symbol accepted from_ member
      exact ⟨_, isRecord, by rw [elfSymbol, isSection]; rfl⟩

end Elf

section Coff

variable {contents : CoffContents}

theorem coffRecord_of_symbol (built : CoffBuilt (sourceOutput src) contents)
    {symbol : OutputSymbol} (member : symbol ∈ objectSymbolList (sourcePass1 src).symtable) :
    ∃ nameOffset, CoffRecordOf contents symbol.name (contents.symbol symbol nameOffset) := by
  have inList : symbol ∈ contents.symbols.data := by rw [built.symbols]; exact member
  obtain ⟨place, isSymbol⟩ := List.mem_iff_getElem?.mp inList
  exact ⟨_, ⟨place, symbol, isSymbol, rfl, CoffContents.symtab_symbol isSymbol⟩, rfl⟩

theorem eq_coffRecord (built : CoffBuilt (sourceOutput src) contents) {symbol : OutputSymbol}
    (member : symbol ∈ objectSymbolList (sourcePass1 src).symtable) {record : CoffSym}
    (isRecord : CoffRecordOf contents symbol.name record) :
    ∃ nameOffset, record = contents.symbol symbol nameOffset := by
  obtain ⟨place, other, isOther, isName, atPlace⟩ := isRecord.place
  have otherMember : other ∈ objectSymbolList (sourcePass1 src).symtable := by
    have inList := List.mem_of_getElem? isOther
    rwa [built.symbols] at inList
  obtain rfl := symbol_unique otherMember member isName
  exact ⟨_, Option.some.inj (atPlace.symm.trans (CoffContents.symtab_symbol isOther))⟩

theorem coffSymbolsKept_iff (accepted : Accepted src)
    (built : CoffBuilt (sourceOutput src) contents) :
    CoffSymbolsKept src contents ↔ LabelsInFilledSections src ∧ LabelsBefore src (2 ^ 32) := by
  have present := fun section_ => (coff_section_found contents section_).trans
    (built.isInput ▸ @coff_section_present src section_)
  have index : ∀ number : Nat, (((number : Int) - 1).toNat = number - 1) ∧
      (0 < (number : Int) ↔ 0 < number) := fun number => by omega
  constructor
  · intro kept
    have each : ∀ name section_ offset, .define name section_ offset ∈ sourceEvents src →
        (section_ = .text ∨ 0 < (sourcePass2 src).sizes.get section_) ∧ offset < 2 ^ 32 := by
      intro name section_ offset defined
      obtain ⟨symbol, member, rfl, isSection, isOffset⟩ := symbol_of_definition accepted defined
      obtain ⟨record, isRecord, found, value⟩ := kept.defined _ _ _ defined
      obtain ⟨nameOffset, rfl⟩ := eq_coffRecord built member isRecord
      rw [CoffContents.symbol, isSection] at found
      dsimp only at found
      rw [(index _).1, (index _).2] at found
      refine ⟨(present section_).mp found, ?_⟩
      rw [CoffContents.symbol, isOffset] at value
      have cast := toNat_ofInt32 (offset : Nat)
      dsimp only at value
      omega
    exact ⟨fun name section_ offset defined => (each name section_ offset defined).1,
      fun name section_ offset defined => (each name section_ offset defined).2⟩
  · rintro ⟨filled, small⟩
    refine ⟨fun name section_ offset defined => ?_, fun name declared => ?_⟩
    · obtain ⟨symbol, member, rfl, isSection, isOffset⟩ := symbol_of_definition accepted defined
      obtain ⟨nameOffset, isRecord⟩ := coffRecord_of_symbol built member
      have below := small _ _ _ defined
      refine ⟨_, isRecord, ?_, ?_⟩
      · rw [CoffContents.symbol, isSection]
        dsimp only
        rw [(index _).1, (index _).2]
        exact (present section_).mpr (filled _ _ _ defined)
      · rw [CoffContents.symbol, isOffset]
        have cast := toNat_ofInt32 (offset : Nat)
        dsimp only
        omega
    · obtain ⟨symbol, member, rfl, isSection⟩ := symbol_of_external accepted declared
      obtain ⟨nameOffset, isRecord⟩ := coffRecord_of_symbol built member
      exact ⟨_, isRecord, by rw [CoffContents.symbol, isSection]; rfl⟩

end Coff

/-- In every object of an accepted source, labels keep their section and offset exactly
when the sections they stand in are `.text` or have a size, and the offsets fit. -/
theorem symbols_keep_sections_iff (src : SourceBuffer) (accepted : Accepted src) :
    (∀ contents, FromSource src contents →
      (ElfSymbolsKept src contents ↔ LabelsInFilledSections src ∧ LabelsBefore src (2 ^ 64))) ∧
    (∀ contents, coffContents (sourceOutput src) = .ok contents →
      (CoffSymbolsKept src contents ↔ LabelsInFilledSections src ∧ LabelsBefore src (2 ^ 32))) :=
  ⟨fun _ from_ => elfSymbolsKept_iff accepted from_,
    fun _ written => coffSymbolsKept_iff accepted (coffBuilt_of_contents written)⟩

theorem fromSource_of_written
    (run : (outputWriteElf64 (sourceOutput src)).toOption.isSome = true) :
    ∃ contents, FromSource src contents := by
  cases written : outputWriteElf64 (sourceOutput src) with
  | error message =>
      rw [written] at run
      contradiction
  | ok file =>
      obtain ⟨contents, from_, -⟩ := contents_of_written written
      exact ⟨contents, from_⟩

theorem coffContents_of_written
    (run : (coffContents (sourceOutput src)).toOption.isSome = true) :
    ∃ contents, coffContents (sourceOutput src) = .ok contents := by
  cases written : coffContents (sourceOutput src) with
  | error message =>
      rw [written] at run
      contradiction
  | ok contents => exact ⟨contents, rfl⟩

/-- A label in `.بيانات`, before its only byte. -/
def labelBeforeByte : SourceBuffer := ⟨utf8 ".بيانات\nأ: .عدد٨ ١\n", none⟩

theorem symbols_keep_sections_iff_labelBeforeByte :
    (∃ contents, FromSource labelBeforeByte contents ∧ ElfSymbolsKept labelBeforeByte contents) ∧
      ∃ contents, coffContents (sourceOutput labelBeforeByte) = .ok contents ∧
        CoffSymbolsKept labelBeforeByte contents := by
  have accepted : Accepted labelBeforeByte := by decide +kernel
  obtain ⟨elf, coff⟩ := symbols_keep_sections_iff labelBeforeByte accepted
  have only : ∀ name section_ offset,
      .define name section_ offset ∈ sourceEvents labelBeforeByte → section_ = .data ∧ offset = 0 := by
    have events : sourceEvents labelBeforeByte = [.define (utf8 "أ") .data 0] := by
      decide +kernel
    intro name section_ offset defined
    rw [events] at defined
    obtain ⟨-, isData, isZero⟩ := SymbolEvent.define.inj (List.mem_singleton.mp defined)
    exact ⟨isData, isZero⟩
  have filled : LabelsInFilledSections labelBeforeByte := by
    intro name section_ offset defined
    rw [(only _ _ _ defined).1]
    exact .inr (by decide +kernel)
  have before : ∀ bound, 0 < bound → LabelsBefore labelBeforeByte bound := by
    intro bound positive name section_ offset defined
    rw [(only _ _ _ defined).2]
    exact positive
  obtain ⟨contents, from_⟩ := @fromSource_of_written labelBeforeByte (by decide +kernel)
  obtain ⟨coffs, written⟩ := @coffContents_of_written labelBeforeByte (by decide +kernel)
  exact ⟨⟨contents, from_, (elf contents from_).mpr ⟨filled, before _ (by decide)⟩⟩,
    coffs, written, (coff coffs written).mpr ⟨filled, before _ (by decide)⟩⟩

/-- A label at the end of a section without bytes. -/
def labelInEmptySection : SourceBuffer := ⟨utf8 ".بيانات\nأ:\n", none⟩

theorem labelInEmptySection_not_filled : ¬ LabelsInFilledSections labelInEmptySection := by
  intro filled
  have defined : .define (utf8 "أ") .data 0 ∈ sourceEvents labelInEmptySection := by
    decide +kernel
  rcases filled _ _ _ defined with isText | some_
  · contradiction
  · exact absurd some_ (by decide +kernel)

/-- The label is written as one of `.text` in both objects. -/
theorem label_moves_to_text : Accepted labelInEmptySection ∧
    (∃ contents, coffContents (sourceOutput labelInEmptySection) = .ok contents ∧
      contents.symtab[1]?.map CoffSym.section_ = some 1 ∧
      ¬ CoffSymbolsKept labelInEmptySection contents) ∧
    ∃ contents, FromSource labelInEmptySection contents ∧
      ¬ ElfSymbolsKept labelInEmptySection contents := by
  have accepted : Accepted labelInEmptySection := by decide +kernel
  refine ⟨accepted, ?_, ?_⟩
  · have run : (coffContents (sourceOutput labelInEmptySection)).toOption.any (fun contents =>
        decide (contents.symtab[1]?.map CoffSym.section_ = some 1)) = true := by
      decide +kernel
    cases written : coffContents (sourceOutput labelInEmptySection) with
    | error message =>
        rw [written] at run
        contradiction
    | ok contents =>
        rw [written] at run
        simp only [Except.toOption, Option.any_some, decide_eq_true_eq] at run
        refine ⟨contents, rfl, run, fun kept => ?_⟩
        exact labelInEmptySection_not_filled
          ((coffSymbolsKept_iff accepted (coffBuilt_of_contents written)).mp kept).1
  · have run : (outputWriteElf64 (sourceOutput labelInEmptySection)).toOption.isSome = true := by
      decide +kernel
    cases written : outputWriteElf64 (sourceOutput labelInEmptySection) with
    | error message =>
        rw [written] at run
        contradiction
    | ok file =>
        obtain ⟨contents, from_, -⟩ := contents_of_written written
        exact ⟨contents, from_, fun kept => labelInEmptySection_not_filled
          ((elfSymbolsKept_iff accepted from_).mp kept).1⟩

end Nazm.Output
