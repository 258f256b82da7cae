import Mathlib.Data.List.Flatten
import Nazm.Output.ElfFile

/-!
Reading an ELF64 object back.

Owns what the reference reader makes of the file that the writer puts together:
its sections, symbols and relocations, for contents whose numbers fit their
fields.

Does not own where such contents come from.
-/

namespace Nazm.Output.ElfContents

open ByteFile
open Nazm.Encoder Nazm.Symtable Nazm.Unicode Nazm.Passes

variable {contents : ElfContents}

/-! ## Contents whose numbers fit -/

/-- The numbers of the contents fit the fields they are written to, names have
no NUL, and relocations are for sections that are there. -/
structure WellFormed (contents : ElfContents) : Prop where
  file : contents.file.length < 2 ^ 64
  bss : contents.input.bssSize < 2 ^ 64
  dataAlignment : contents.input.dataAlignment < 2 ^ 64
  readOnlyDataAlignment : contents.input.readOnlyDataAlignment < 2 ^ 64
  bssAlignment : contents.input.bssAlignment < 2 ^ 64
  localCount : contents.symbols.localCount ≤ contents.symbols.data.length
  symbolCount : contents.symbols.data.length + 2 < 2 ^ 32
  locals : ∀ symbol ∈ contents.symbols.data.take contents.symbols.localCount,
    symbol.binding = .local
  globals : ∀ symbol ∈ contents.symbols.data.drop contents.symbols.localCount,
    symbol.binding = .global
  names : ∀ symbol ∈ contents.symbols.data, 0 ∉ symbol.name
  namesFit : (contents.bytes .strtab).length ≤ 2 ^ 32
  relas : ∀ rela ∈ contents.relaText ++ contents.relaData ++ contents.relaReadOnlyData,
    rela.offset < 2 ^ 64 ∧
      rela.symbolIndex < contents.symbols.data.length + 1 + symbolIndexBias contents.input ∧
      rela.type < 2 ^ 32 ∧ -(2 ^ 63) ≤ rela.addend ∧ rela.addend < 2 ^ 63
  debugAddress : contents.debugLine.addressRelocationOffset < 2 ^ 64
  dataRelocations : contents.relaData ≠ [] → contents.input.hasData = true
  readOnlyDataRelocations : contents.relaReadOnlyData ≠ [] → contents.input.hasReadOnlyData = true

/-! ## Sections -/

theorem length_strings_sublist {first second : List (List UInt8)} (sublist : first.Sublist second) :
    (strings first).length ≤ (strings second).length :=
  (sublist.flatMap _).length_le

theorem nameOffset_small (section_ : ElfSection) : contents.nameOffset section_ < 256 ^ 4 := by
  have sublist : ((contents.sections.map ElfSection.name).take
      (contents.sections.idxOf section_)).Sublist (ElfSection.all.map ElfSection.name) :=
    (List.take_sublist _ _).trans (List.filter_sublist.map _)
  have bound := length_strings_sublist sublist
  have total : (strings (ElfSection.all.map ElfSection.name)).length < 200 := by decide +kernel
  rw [nameOffset]
  omega

theorem writeRela_eq (rela : ElfRela) : writeRela rela =
    fields [(8, rela.offset), (4, rela.type), (4, rela.symbolIndex)] ++
      LittleEndian.intBytes 8 rela.addend := by
  simp only [writeRela, fields, List.flatMap_cons, List.flatMap_nil, w32, w64, List.append_assoc,
    List.append_nil]

theorem length_writeRela (rela : ElfRela) : (writeRela rela).length = 24 := by
  simp [writeRela, w32, w64]

/-- The header of a section with contents describes them. -/
structure HeaderDescribes (contents : ElfContents) (section_ : ElfSection) : Prop where
  type : (contents.header section_).type ≠ 0 ∧ (contents.header section_).type ≠ 8
  offset : (contents.header section_).offset = contents.fileOffset section_
  size : (contents.header section_).size = (contents.bytes section_).length

theorem headerDescribes {section_ : ElfSection} (inFile : section_ ∈ ElfSection.inFile) :
    HeaderDescribes contents section_ := by
  have relas : ∀ relas : List ElfRela, relas.length * 24 = (relas.flatMap writeRela).length :=
    fun relas => (length_flatMap_uniform length_writeRela relas).symm
  cases section_ with
  | bss | noteGnuStack => contradiction
  | text | data | readOnlyData | debugLine | symtab | strtab | shstrtab =>
      exact ⟨⟨by simp [header], by simp [header]⟩, rfl, rfl⟩
  | relaText | relaData | relaReadOnlyData | relaDebugLine =>
      exact ⟨⟨by simp [header, relaHeader], by simp [header, relaHeader]⟩, rfl, relas _⟩

/-- The contents of a section end before the headers start. -/
theorem fileOffset_end {section_ : ElfSection} (inFile : section_ ∈ ElfSection.inFile)
    (present : contents.input.hasSection section_ = true) :
    contents.fileOffset section_ + (contents.bytes section_).length ≤ contents.shoff :=
  Nat.le_trans (laid_holds inFile present).1.inside laid_le_shoff

theorem shoff_le_file : contents.shoff + contents.numbers.count * 64 = contents.file.length := by
  rw [length_file, length_headers]

theorem dataSectionAlignment_lt {requested bound : Nat} (small : requested < bound)
    (eight : 8 < bound) : dataSectionAlignment requested < bound := by
  unfold dataSectionAlignment
  split <;> omega

theorem header_constants (contents : ElfContents) (section_ : ElfSection) :
    (contents.header section_).type < 256 ^ 4 ∧ (contents.header section_).flags < 256 ^ 8 ∧
      (contents.header section_).addr < 256 ^ 8 ∧ (contents.header section_).entsize < 256 ^ 8 := by
  cases section_ <;> simp [header, relaHeader]

theorem header_link (contents : ElfContents) (section_ : ElfSection) :
    (contents.header section_).link < 256 ^ 4 := by
  have count := contents.count_le
  have symtab := contents.numberOf_lt .symtab
  have strtab := contents.numberOf_lt .strtab
  cases section_ <;> simp only [header, relaHeader, numberOf] at symtab strtab ⊢ <;> omega

theorem header_info (wellFormed : WellFormed contents) (section_ : ElfSection) :
    (contents.header section_).info < 256 ^ 4 := by
  have count := contents.count_le
  have text := contents.numberOf_lt .text
  have data := contents.numberOf_lt .data
  have readOnlyData := contents.numberOf_lt .readOnlyData
  have debugLine := contents.numberOf_lt .debugLine
  have localCount := wellFormed.localCount
  have symbolCount := wellFormed.symbolCount
  cases section_ <;>
    simp only [header, relaHeader, numberOf] at text data readOnlyData debugLine ⊢ <;>
    (try split) <;> omega

theorem header_addralign (wellFormed : WellFormed contents) (section_ : ElfSection) :
    (contents.header section_).addralign < 256 ^ 8 := by
  cases section_ with
  | data => exact dataSectionAlignment_lt wellFormed.dataAlignment (by decide)
  | readOnlyData => exact dataSectionAlignment_lt wellFormed.readOnlyDataAlignment (by decide)
  | bss => exact dataSectionAlignment_lt wellFormed.bssAlignment (by decide)
  | _ => simp [header, relaHeader]

theorem header_range (wellFormed : WellFormed contents) {section_ : ElfSection}
    (present : contents.input.hasSection section_ = true) :
    (contents.header section_).offset < 256 ^ 8 ∧ (contents.header section_).size < 256 ^ 8 := by
  have file := wellFormed.file
  have total := @shoff_le_file contents
  by_cases inFile : section_ ∈ ElfSection.inFile
  · have described := @headerDescribes contents _ inFile
    have ends := fileOffset_end inFile present
    rw [described.offset, described.size]
    omega
  · have laid := @laid_le_shoff contents
    have bssIndex := contents.numberOf_lt .bss
    have bss := wellFormed.bss
    rw [numberOf] at bssIndex
    cases section_ with
    | bss => simp only [header]; omega
    | noteGnuStack => simp only [header]; omega
    | _ => exact absurd (by decide) inFile

/-- The header of each section fits. -/
theorem headerFits (wellFormed : WellFormed contents) {section_ : ElfSection}
    (present : contents.input.hasSection section_ = true) :
    HeaderFits { contents.header section_ with name := contents.nameOffset section_ } := by
  obtain ⟨type, flags, addr, entsize⟩ := contents.header_constants section_
  obtain ⟨offset, size⟩ := header_range wellFormed present
  exact ⟨nameOffset_small section_, type, flags, addr, offset, size, contents.header_link section_,
    header_info wellFormed section_, header_addralign wellFormed section_, entsize⟩

/-- The sections that the reader finds. -/
def sectionBack (contents : ElfContents) (section_ : ElfSection) : Elf.Section :=
  ⟨readBack { contents.header section_ with name := contents.nameOffset section_ }, section_.name,
    contents.bytes section_⟩

def nullSection : Elf.Section := ⟨readBack ⟨0, 0, 0, 0, 0, 0, 0, 0, 0, 0⟩, [], []⟩

def objectSections (contents : ElfContents) : List Elf.Section :=
  nullSection :: contents.sections.map contents.sectionBack

theorem objectSections_eq : contents.objectSections = contents.table.map fun section_? =>
    (section_?.map contents.sectionBack).getD nullSection := by
  rw [table, List.map_cons, List.map_map]
  rfl

theorem length_objectSections : contents.objectSections.length = contents.numbers.count := by
  rw [objectSections_eq, List.length_map, length_table]

/-- The number of a section is its index in the object. -/
theorem objectSections_numberOf {section_ : ElfSection} (numbered : isNumbered section_ = true)
    (present : contents.input.hasSection section_ = true) :
    contents.objectSections[contents.numberOf section_]? = some (contents.sectionBack section_) := by
  rw [objectSections_eq, List.getElem?_map, table_numberOf numbered present]
  rfl

theorem mem_sections {section_ : ElfSection} :
    section_ ∈ contents.sections ↔ contents.input.hasSection section_ = true := by
  rw [sections, List.mem_filter]
  exact and_iff_right (by cases section_ <;> decide)

theorem mem_objectSections {found : Elf.Section} (member : found ∈ contents.objectSections) :
    found = nullSection ∨ ∃ section_, contents.input.hasSection section_ = true ∧
      found = contents.sectionBack section_ := by
  rcases List.mem_cons.mp member with isNull | inSections
  · exact .inl isNull
  · obtain ⟨section_, isSection, rfl⟩ := List.mem_map.mp inSections
    exact .inr ⟨section_, mem_sections.mp isSection, rfl⟩

/-! ### The headers -/

theorem word_shoff (wellFormed : WellFormed contents) :
    word contents.file 40 8 = contents.shoff := by
  have total := @shoff_le_file contents
  have small := wellFormed.file
  exact @Holds.field _ _ _ (@file_holds_fields contents) 5 8 contents.shoff rfl (by omega)

theorem word_count : word contents.file 60 2 = contents.numbers.count := by
  have small := contents.count_le
  exact @Holds.field _ _ _ (@file_holds_fields contents) 11 2 contents.numbers.count rfl (by omega)

theorem word_shstrtab : word contents.file 62 2 = contents.numbers.shstrtab := by
  have count := contents.count_le
  have small := contents.numberOf_lt .shstrtab
  rw [numberOf] at small
  exact @Holds.field _ _ _ (@file_holds_fields contents) 12 2 contents.numbers.shstrtab rfl
    (by omega)

theorem hasFileHeader_file : Elf.hasFileHeader contents.file = true := by
  obtain ⟨rest, split⟩ := @file_front contents
  have long : 64 ≤ contents.file.length := by
    have start := @laid_le_shoff contents
    have least := @length_laid contents
    have total := @shoff_le_file contents
    omega
  have magic : contents.file.take 7 = [0x7F, 0x45, 0x4C, 0x46, 2, 1, 1] := by
    rw [split, ident]
    rfl
  have field := fun {index width number} =>
    @Holds.field _ _ _ (@file_holds_fields contents) index width number
  have type : word contents.file 16 2 = 1 := @field 0 _ _ rfl (by decide)
  have machine : word contents.file 18 2 = 62 := @field 1 _ _ rfl (by decide)
  have version : word contents.file 20 4 = 1 := @field 2 _ _ rfl (by decide)
  have size : word contents.file 52 2 = 64 := @field 7 _ _ rfl (by decide)
  have entry : word contents.file 58 2 = 64 := @field 10 _ _ rfl (by decide)
  simp only [Elf.hasFileHeader, long, magic, type, machine, version, size, entry, decide_true,
    Bool.and_self]

theorem headers_map_readBack :
    contents.headers.map readBack = contents.objectSections.map Elf.Section.header := by
  rw [headers_eq, objectSections, List.map_cons, List.map_cons, List.map_map, List.map_map]
  rfl

theorem headers_fit (wellFormed : WellFormed contents) {sh : ElfHeader}
    (member : sh ∈ contents.headers) : HeaderFits sh := by
  rw [headers_eq] at member
  rcases List.mem_cons.mp member with rfl | inSections
  · exact ⟨by decide, by decide, by decide, by decide, by decide, by decide, by decide,
      by decide, by decide, by decide⟩
  · obtain ⟨section_, isSection, rfl⟩ := List.mem_map.mp inSections
    exact headerFits wellFormed (mem_sections.mp isSection)

theorem readHeaders_file (wellFormed : WellFormed contents) :
    Elf.readHeaders contents.file = contents.objectSections.map Elf.Section.header := by
  rw [← headers_map_readBack, Elf.readHeaders, word_count, word_shoff wellFormed, ← length_headers]
  refine List.ext_getElem? fun index => ?_
  rw [List.getElem?_map, List.getElem?_map]
  by_cases inRange : index < contents.headers.length
  · have element := List.getElem?_eq_getElem inRange
    have fits := headers_fit wellFormed (List.getElem_mem inRange)
    rw [List.getElem?_range inRange, element, Option.map_some, Option.map_some,
      readHeader_eq (file_holds_header element) fits]
  · rw [List.getElem?_eq_none (Nat.le_of_not_lt inRange),
      List.getElem?_eq_none (by rw [List.length_range]; exact Nat.le_of_not_lt inRange)]
    rfl

/-! ### The contents -/

theorem notInFile_cases {section_ : ElfSection} (outside : section_ ∉ ElfSection.inFile) :
    section_ = .bss ∨ section_ = .noteGnuStack := by
  revert outside
  cases section_ <;> decide

/-- Where the reader looks for the contents of a section is inside the file. -/
theorem sectionBack_inside {section_ : ElfSection}
    (present : contents.input.hasSection section_ = true)
    (inFile : (contents.sectionBack section_).header.InFile) :
    64 ≤ (contents.sectionBack section_).header.offset ∧
      (contents.sectionBack section_).header.offset +
        (contents.sectionBack section_).header.size ≤ contents.shoff := by
  by_cases written : section_ ∈ ElfSection.inFile
  · have described := @headerDescribes contents _ written
    have ends := fileOffset_end written present
    rw [← described.offset, ← described.size] at ends
    refine ⟨?_, ends⟩
    have starts := (laid_holds written present).2
    rw [← described.offset] at starts
    exact starts
  · rcases notInFile_cases written with rfl | rfl
    · exact absurd rfl inFile.2
    · have least := @length_laid contents
      have laid := @laid_le_shoff contents
      exact ⟨least, laid⟩

theorem sectionBytes_back {section_ : ElfSection}
    (present : contents.input.hasSection section_ = true) :
    Elf.sectionBytes contents.file (contents.sectionBack section_).header =
      contents.bytes section_ := by
  by_cases written : section_ ∈ ElfSection.inFile
  · have described := @headerDescribes contents _ written
    have inFile : (contents.sectionBack section_).header.InFile := described.type
    have same := (file_holds written present).same
    rw [← described.offset, ← described.size] at same
    rw [Elf.sectionBytes, if_pos inFile]
    exact same
  · rcases notInFile_cases written with rfl | rfl
    · exact if_neg fun inFile => inFile.2 rfl
    · have inFile : (contents.sectionBack .noteGnuStack).header.InFile :=
        ⟨Nat.one_ne_zero, show 1 ≠ 8 by decide⟩
      rw [Elf.sectionBytes, if_pos inFile]
      exact List.take_zero

theorem stringAt_nameOffset {section_ : ElfSection}
    (present : contents.input.hasSection section_ = true) :
    stringAt (contents.bytes .shstrtab) (contents.nameOffset section_) = some section_.name := by
  have isName : (contents.sections.map ElfSection.name)[contents.sections.idxOf section_]? =
      some section_.name := by
    have there := List.idxOf_lt_length_of_mem (mem_sections.mpr present)
    rw [List.getElem?_map, List.getElem?_eq_getElem there, List.getElem_idxOf]
    rfl
  have clean : 0 ∉ section_.name := by
    cases section_ <;> decide +kernel
  exact stringAt_strings isName clean

/-- The reader finds the sections. -/
theorem readSections_file (wellFormed : WellFormed contents) :
    Elf.readSections contents.file = some contents.objectSections := by
  have names := @objectSections_numberOf contents .shstrtab rfl rfl
  rw [numberOf] at names
  unfold Elf.readSections
  dsimp only
  rw [readHeaders_file wellFormed, word_shoff wellFormed, word_shstrtab, List.length_map,
    length_objectSections, List.getElem?_map, names, Option.map_some]
  have ranges : contents.shoff + contents.numbers.count * 64 ≤ contents.file.length ∧
      ∀ header ∈ contents.objectSections.map Elf.Section.header, header.InFile →
        header.offset + header.size ≤ contents.file.length := by
    have total := @shoff_le_file contents
    refine ⟨by omega, fun header member inFile => ?_⟩
    obtain ⟨found, isFound, rfl⟩ := List.mem_map.mp member
    rcases mem_objectSections isFound with rfl | ⟨section_, present, rfl⟩
    · exact absurd rfl inFile.1
    · have inside := (sectionBack_inside present inFile).2
      omega
  rw [if_pos ranges]
  dsimp only
  rw [if_pos (show (contents.sectionBack .shstrtab).header.type = Elf.shtStrtab from rfl),
    sectionBytes_back rfl]
  refine mapM_eq_some ?_
  rw [List.forall₂_map_left_iff, List.forall₂_same]
  intro found member
  rcases mem_objectSections member with rfl | ⟨section_, present, rfl⟩
  · have empty : stringAt (contents.bytes .shstrtab) 0 = some [] :=
      @stringAt_middle [] [] _ List.not_mem_nil
    change (stringAt (contents.bytes .shstrtab) 0).map _ = _
    rw [empty]
    rfl
  · have named := stringAt_nameOffset present
    change (stringAt (contents.bytes .shstrtab) (contents.nameOffset section_)).map _ = _
    rw [named, Option.map_some, sectionBytes_back present]
    rfl

/-! ## Symbols -/

theorem writeSym_eq (sym : ElfSymbol) : writeSym sym =
    fields [(4, sym.name), (1, sym.info), (1, sym.other), (2, sym.shndx), (8, sym.value),
      (8, sym.size)] := by
  simp only [writeSym, fields, List.flatMap_cons, List.flatMap_nil, w16, w32, w64,
    List.append_assoc, List.append_nil]

theorem length_writeSym (sym : ElfSymbol) : (writeSym sym).length = 24 := by
  rw [writeSym_eq, length_fields]
  rfl

/-- The symbol that a reader finds. -/
def symbolBack (contents : ElfContents) (symbol : OutputSymbol) : Elf.Symbol :=
  ⟨symbol.name, if symbol.binding = .global then 1 else 0, 0,
    symbolSectionIndex contents.numbers symbol.section_, (symbol.offset % 2 ^ 64).toNat, 0⟩

/-- The symbols before those of the source: the null symbol, and that of `.text`
where there is a line table. -/
def firstSymbols (contents : ElfContents) : List Elf.Symbol :=
  ⟨[], 0, 0, 0, 0, 0⟩ ::
    (if contents.input.hasDebug then [⟨[], 0, 3, contents.numbers.text, 0, 0⟩] else [])

def objectSymbols (contents : ElfContents) : List Elf.Symbol :=
  contents.firstSymbols ++ contents.symbols.data.map contents.symbolBack

/-- An entry of the table that stands for a symbol. -/
structure SymbolStands (names : List UInt8) (sym : ElfSymbol) (symbol : Elf.Symbol) : Prop where
  named : stringAt names sym.name = some symbol.name
  name : sym.name < 256 ^ 4
  info : sym.info = symbol.binding * 16 + symbol.type
  binding : symbol.binding < 16
  type : symbol.type < 16
  shndx : sym.shndx = symbol.sectionIndex ∧ sym.shndx < 256 ^ 2
  value : sym.value = symbol.value ∧ sym.value < 256 ^ 8
  size : sym.size = symbol.size ∧ sym.size < 256 ^ 8

theorem readSymbol_eq {table names : List UInt8} {index : Nat} {sym : ElfSymbol}
    {symbol : Elf.Symbol} (holds : Holds table (index * 24) (writeSym sym))
    (stands : SymbolStands names sym symbol) :
    Elf.readSymbol table names index = some symbol := by
  obtain ⟨named, name, info, binding, type, ⟨shndx, shndxFits⟩, ⟨value, valueFits⟩, size, sizeFits⟩ :=
    stands
  rw [writeSym_eq] at holds
  have field := fun {inner width number} => @Holds.field _ _ _ holds inner width number
  have nameField : word table (index * 24) 4 = sym.name := @field 0 _ _ rfl name
  have infoField : word table (index * 24 + 4) 1 = sym.info := @field 1 _ _ rfl (by omega)
  have shndxField : word table (index * 24 + 6) 2 = sym.shndx := @field 3 _ _ rfl shndxFits
  have valueField : word table (index * 24 + 8) 8 = sym.value := @field 4 _ _ rfl valueFits
  have sizeField : word table (index * 24 + 16) 8 = sym.size := @field 5 _ _ rfl sizeFits
  rw [Elf.readSymbol, nameField, named, infoField, shndxField, valueField, sizeField, shndx, value,
    size, info]
  rw [Option.map_some, show (symbol.binding * 16 + symbol.type) / 16 = symbol.binding by omega,
    show (symbol.binding * 16 + symbol.type) % 16 = symbol.type by omega]

theorem symbolSectionIndex_lt (section_? : Option SymbolSection) :
    symbolSectionIndex contents.numbers section_? < contents.numbers.count := by
  have text := contents.numberOf_lt .text
  have data := contents.numberOf_lt .data
  have readOnlyData := contents.numberOf_lt .readOnlyData
  have bss := contents.numberOf_lt .bss
  simp only [numberOf] at text data readOnlyData bss
  rcases section_? with none | (_ | _ | _ | _)
  all_goals
    simp only [symbolSectionIndex]
    try split
    all_goals omega

theorem symbol_stands (wellFormed : WellFormed contents) {index nameOffset : Nat}
    {symbol : OutputSymbol} (isSymbol : contents.symbols.data[index]? = some symbol)
    (isOffset : (elfNameOffsets 1 (symbolNames contents.symbols))[index]? = some nameOffset) :
    SymbolStands (contents.bytes .strtab) (elfSymbol contents.numbers symbol nameOffset)
      (contents.symbolBack symbol) := by
  have isName : (symbolNames contents.symbols)[index]? = some symbol.name := by
    rw [symbolNames, List.getElem?_map, isSymbol]
    rfl
  obtain ⟨inRange, isElement⟩ := List.getElem?_eq_some_iff.mp isName
  rw [elfNameOffsets_getElem? inRange, Option.some.injEq] at isOffset
  subst isOffset
  have named := @stringAt_strings [0] _ _ _ isName (wellFormed.names symbol
    (List.mem_of_getElem? isSymbol))
  -- the name itself stands after its offset
  have room : 1 + (strings ((symbolNames contents.symbols).take index)).length <
      (contents.bytes .strtab).length := by
    have split : strings (symbolNames contents.symbols) =
        strings ((symbolNames contents.symbols).take index) ++
          strings ((symbolNames contents.symbols).drop index) := by
      rw [← strings_append, List.take_append_drop]
    rw [bytes, List.length_append, split, List.length_append, List.drop_eq_getElem_cons inRange,
      strings, strings, List.flatMap_cons, List.length_append, List.length_append]
    simp only [List.length_singleton]
    omega
  have small := wellFormed.namesFit
  have index_lt := @symbolSectionIndex_lt contents symbol.section_
  have count := contents.count_le
  have value : (symbol.offset % 2 ^ 64).toNat < 256 ^ 8 := by omega
  refine ⟨named, ?_, ?_, ?_, show 0 < 16 by decide, ⟨rfl, ?_⟩, ⟨rfl, value⟩, rfl,
    show 0 < 256 ^ 8 by decide⟩
  · dsimp only [elfSymbol]
    omega
  · dsimp only [elfSymbol, symbolBack]
    split <;> rfl
  · dsimp only [symbolBack]
    split <;> decide
  · dsimp only [elfSymbol]
    omega

theorem symbols_stand (wellFormed : WellFormed contents) :
    List.Forall₂ (SymbolStands (contents.bytes .strtab))
      (elfSymbols contents.input contents.numbers contents.symbols) contents.objectSymbols := by
  have empty : stringAt (contents.bytes .strtab) 0 = some [] :=
    @stringAt_middle [] [] _ List.not_mem_nil
  have count := contents.count_le
  have text := contents.numberOf_lt .text
  rw [numberOf] at text
  rw [elfSymbols, objectSymbols]
  refine List.rel_append ?_ ?_
  · rw [firstSymbols]
    refine .cons ⟨empty, by decide, rfl, by decide, by decide, ⟨rfl, by decide⟩,
      ⟨rfl, by decide⟩, rfl, by decide⟩ ?_
    split
    · exact .cons ⟨empty, show 0 < 256 ^ 4 by decide, rfl, show 0 < 16 by decide,
        show 3 < 16 by decide, ⟨rfl, show contents.numbers.text < 256 ^ 2 by omega⟩,
        ⟨rfl, show 0 < 256 ^ 8 by decide⟩, rfl, show 0 < 256 ^ 8 by decide⟩ .nil
    · exact .nil
  · refine List.forall₂_iff_get.mpr ⟨?_, fun index first second => ?_⟩
    · rw [List.length_zipWith, length_elfNameOffsets, symbolNames, List.length_map, Nat.min_self,
        List.length_map]
    · rw [List.length_map] at second
      rw [List.get_eq_getElem, List.get_eq_getElem, List.getElem_zipWith, List.getElem_map]
      exact symbol_stands wellFormed (List.getElem?_eq_getElem second) (List.getElem?_eq_getElem _)

theorem length_firstSymbols :
    contents.firstSymbols.length = 1 + symbolIndexBias contents.input := by
  rw [firstSymbols, symbolIndexBias]
  split <;> rfl

theorem length_objectSymbols : contents.objectSymbols.length =
    contents.symbols.data.length + 1 + symbolIndexBias contents.input := by
  rw [objectSymbols, List.length_append, length_firstSymbols, List.length_map]
  omega

theorem length_symtab (wellFormed : WellFormed contents) :
    (contents.bytes .symtab).length = contents.objectSymbols.length * 24 := by
  rw [← (symbols_stand wellFormed).length_eq]
  exact length_flatMap_uniform length_writeSym _

theorem symtab_info : (contents.header .symtab).info =
    contents.firstSymbols.length + contents.symbols.localCount := by
  rw [length_firstSymbols, symbolIndexBias]
  change contents.symbols.localCount + 1 + (if contents.input.hasDebug then 1 else 0) = _
  omega

theorem localsFirst (wellFormed : WellFormed contents) :
    Elf.LocalsFirst (contents.header .symtab).info contents.objectSymbols := by
  rw [symtab_info, Elf.LocalsFirst, objectSymbols, List.take_length_add_append,
    List.drop_length_add_append, ← List.map_take, ← List.map_drop]
  constructor
  · intro symbol member
    rcases List.mem_append.mp member with first | isLocal
    · rw [firstSymbols] at first
      rcases List.mem_cons.mp first with rfl | debug
      · rfl
      · split at debug
        · obtain rfl := List.mem_singleton.mp debug
          rfl
        · contradiction
    · obtain ⟨source, inLocals, rfl⟩ := List.mem_map.mp isLocal
      rw [symbolBack, wellFormed.locals source inLocals]
      rfl
  · intro symbol member
    obtain ⟨source, inGlobals, rfl⟩ := List.mem_map.mp member
    rw [symbolBack, wellFormed.globals source inGlobals]
    exact Nat.one_ne_zero

/-- The reader finds the symbols. -/
theorem readSymbols_file (wellFormed : WellFormed contents) :
    Elf.readSymbols contents.objectSections (contents.sectionBack .symtab) =
      some contents.objectSymbols := by
  have names := @objectSections_numberOf contents .strtab rfl rfl
  have length := length_symtab wellFormed
  have count := wellFormed.localCount
  have stand := symbols_stand wellFormed
  unfold Elf.readSymbols
  rw [show (contents.sectionBack .symtab).header.link = contents.numberOf .strtab from rfl, names]
  dsimp only
  have shaped : (contents.sectionBack .strtab).header.type = Elf.shtStrtab ∧
      (contents.sectionBack .symtab).header.entrySize = 24 ∧
      (contents.sectionBack .symtab).bytes.length % 24 = 0 := by
    refine ⟨rfl, rfl, ?_⟩
    change (contents.bytes .symtab).length % 24 = 0
    omega
  have records : (contents.sectionBack .symtab).bytes.length / 24 =
      contents.objectSymbols.length := by
    change (contents.bytes .symtab).length / 24 = _
    omega
  rw [if_pos shaped, records, mapM_range]
  · dsimp only
    refine if_pos ⟨?_, localsFirst wellFormed, fun symbol member => ?_⟩
    · change (contents.header .symtab).info ≤ _
      rw [symtab_info, objectSymbols, List.length_append, List.length_map]
      omega
    · rw [length_objectSections]
      rcases List.mem_append.mp member with first | isSource
      · have text := @symbolSectionIndex_lt contents (some .text)
        rw [firstSymbols] at first
        rcases List.mem_cons.mp first with rfl | debug
        · exact Nat.zero_lt_of_lt text
        · split at debug
          · obtain rfl := List.mem_singleton.mp debug
            exact text
          · contradiction
      · obtain ⟨source, -, rfl⟩ := List.mem_map.mp isSource
        exact symbolSectionIndex_lt source.section_
  · intro index symbol isSymbol
    obtain ⟨inRange, isElement⟩ := List.getElem?_eq_some_iff.mp isSymbol
    have there : index < (elfSymbols contents.input contents.numbers contents.symbols).length := by
      rw [stand.length_eq]
      exact inRange
    have stands := stand.get there inRange
    rw [List.get_eq_getElem, List.get_eq_getElem, isElement] at stands
    have holds := (Holds.whole (contents.bytes .symtab)).record length_writeSym
      (List.getElem?_eq_getElem there)
    rw [Nat.zero_add] at holds
    exact readSymbol_eq holds stands

/-! ## Relocations -/

/-- The entries of a RELA section. -/
def relasOf (contents : ElfContents) : ElfSection → List ElfRela
  | .relaText => contents.relaText
  | .relaData => contents.relaData
  | .relaReadOnlyData => contents.relaReadOnlyData
  | .relaDebugLine => contents.relaDebugLine
  | _ => []

def isRela : ElfSection → Bool
  | .relaText | .relaData | .relaReadOnlyData | .relaDebugLine => true
  | _ => false

def relaBack (rela : ElfRela) : Elf.Rela :=
  ⟨rela.offset, rela.symbolIndex, rela.type, rela.addend⟩

/-- The fields of an entry fit their widths. -/
structure RelaFits (rela : ElfRela) : Prop where
  offset : rela.offset < 256 ^ 8
  type : rela.type < 256 ^ 4
  symbolIndex : rela.symbolIndex < 256 ^ 4
  lower : -(2 ^ 63) ≤ rela.addend
  upper : rela.addend < 2 ^ 63

theorem readRela_eq {table : List UInt8} {index : Nat} {rela : ElfRela}
    (holds : Holds table (index * 24) (writeRela rela)) (fits : RelaFits rela) :
    Elf.readRela table index = relaBack rela := by
  rw [writeRela_eq] at holds
  have addend : Holds table (index * 24 + 16) (LittleEndian.intBytes 8 rela.addend) := by
    have whole := holds
    rw [← List.append_nil (_ ++ LittleEndian.intBytes 8 rela.addend)] at whole
    exact whole.part
  have front : Holds table (index * 24) (fields [(8, rela.offset), (4, rela.type),
      (4, rela.symbolIndex)]) :=
    @Holds.part _ _ _ [] (LittleEndian.intBytes 8 rela.addend) holds
  have field := fun {inner width number} => @Holds.field _ _ _ front inner width number
  have offsetField : word table (index * 24) 8 = rela.offset := @field 0 _ _ rfl fits.offset
  have typeField : word table (index * 24 + 8) 4 = rela.type := @field 1 _ _ rfl fits.type
  have symbolField : word table (index * 24 + 12) 4 = rela.symbolIndex :=
    @field 2 _ _ rfl fits.symbolIndex
  have same := addend.same
  rw [LittleEndian.length_intBytes] at same
  have lower := fits.lower
  have upper := fits.upper
  have signed := @LittleEndian.signed_intBytes 8 rela.addend (by omega) (by omega)
  rw [Elf.readRela, offsetField, typeField, symbolField, word, same, signed, relaBack]

theorem relaFits (wellFormed : WellFormed contents) {section_ : ElfSection} {rela : ElfRela}
    (present : contents.input.hasSection section_ = true)
    (member : rela ∈ contents.relasOf section_) :
    RelaFits rela ∧ rela.symbolIndex < contents.objectSymbols.length := by
  have count := wellFormed.symbolCount
  have bias : symbolIndexBias contents.input ≤ 1 := by
    rw [symbolIndexBias]
    split <;> decide
  have ofText : rela ∈ contents.relaText ++ contents.relaData ++ contents.relaReadOnlyData →
      RelaFits rela ∧ rela.symbolIndex < contents.objectSymbols.length := by
    intro inTables
    obtain ⟨offset, symbolIndex, type, lower, upper⟩ := wellFormed.relas rela inTables
    rw [length_objectSymbols]
    exact ⟨⟨by omega, by omega, by omega, lower, upper⟩, symbolIndex⟩
  cases section_ with
  | relaText => exact ofText (List.mem_append_left _ (List.mem_append_left _ member))
  | relaData => exact ofText (List.mem_append_left _ (List.mem_append_right _ member))
  | relaReadOnlyData => exact ofText (List.mem_append_right _ member)
  | relaDebugLine =>
      obtain rfl := List.mem_singleton.mp member
      have debug : contents.input.hasDebug = true := present
      have address := wellFormed.debugAddress
      rw [length_objectSymbols, symbolIndexBias, if_pos debug]
      exact ⟨⟨by dsimp only; omega, show 1 < 256 ^ 4 by decide, show 1 < 256 ^ 4 by decide,
        show -(2 ^ 63 : Int) ≤ 0 by decide, show (0 : Int) < 2 ^ 63 by decide⟩,
        by dsimp only; omega⟩
  | _ => contradiction

/-- The table that the reader finds in a RELA section. -/
def relaTableBack (contents : ElfContents) (section_ : ElfSection) : Elf.RelaTable :=
  ⟨(contents.header section_).info, (contents.relasOf section_).map relaBack⟩

theorem bytes_isRela {section_ : ElfSection} (rela : isRela section_ = true) :
    contents.bytes section_ = (contents.relasOf section_).flatMap writeRela := by
  cases section_ with
  | relaText | relaData | relaReadOnlyData | relaDebugLine => rfl
  | _ => contradiction

theorem header_isRela {section_ : ElfSection} (rela : isRela section_ = true) :
    (contents.header section_).link = contents.numbers.symtab ∧
      (contents.header section_).entsize = 24 ∧
      ∃ target, (contents.header section_).info = contents.numberOf target := by
  cases section_ with
  | relaText => exact ⟨rfl, rfl, .text, rfl⟩
  | relaData => exact ⟨rfl, rfl, .data, rfl⟩
  | relaReadOnlyData => exact ⟨rfl, rfl, .readOnlyData, rfl⟩
  | relaDebugLine => exact ⟨rfl, rfl, .debugLine, rfl⟩
  | _ => contradiction

theorem readRelaTable_file (wellFormed : WellFormed contents) {section_ : ElfSection}
    (present : contents.input.hasSection section_ = true) (rela : isRela section_ = true) :
    Elf.readRelaTable contents.objectSections contents.numbers.symtab
      contents.objectSymbols.length (contents.sectionBack section_) =
        some (contents.relaTableBack section_) := by
  obtain ⟨link, entrySize, target, info⟩ := @header_isRela contents _ rela
  have isBytes := @bytes_isRela contents _ rela
  have length : (contents.bytes section_).length = (contents.relasOf section_).length * 24 := by
    rw [isBytes, length_flatMap_uniform length_writeRela]
  have entries : (List.range ((contents.sectionBack section_).bytes.length / 24)).map
      (Elf.readRela (contents.sectionBack section_).bytes) =
        (contents.relasOf section_).map relaBack := by
    change (List.range ((contents.bytes section_).length / 24)).map
      (Elf.readRela (contents.bytes section_)) = _
    rw [length, Nat.mul_div_cancel _ (by decide)]
    refine List.ext_getElem? fun index => ?_
    rw [List.getElem?_map, List.getElem?_map]
    by_cases inRange : index < (contents.relasOf section_).length
    · have element := List.getElem?_eq_getElem inRange
      have holds := Holds.whole (contents.bytes section_)
      rw [isBytes] at holds
      have record := holds.record length_writeRela element
      rw [Nat.zero_add, ← isBytes] at record
      rw [List.getElem?_range inRange, element, Option.map_some, Option.map_some,
        readRela_eq record (relaFits wellFormed present (List.getElem_mem inRange)).1]
    · rw [List.getElem?_eq_none (Nat.le_of_not_lt inRange),
        List.getElem?_eq_none (by rw [List.length_range]; exact Nat.le_of_not_lt inRange)]
      rfl
  unfold Elf.readRelaTable
  dsimp only
  rw [entries]
  refine if_pos ⟨link, ?_, entrySize, ?_, fun entry member => ?_⟩
  · rw [length_objectSections]
    change (contents.header section_).info < _
    rw [info]
    exact contents.numberOf_lt target
  · change (contents.bytes section_).length % 24 = 0
    omega
  · obtain ⟨source, inTable, rfl⟩ := List.mem_map.mp member
    exact (relaFits wellFormed present inTable).2

/-! ## The object -/

/-- What the reader makes of the file. -/
def object (contents : ElfContents) : Elf.Object where
  sections := contents.objectSections
  namesIndex := contents.numbers.shstrtab
  symtabIndex := contents.numbers.symtab
  symbols := contents.objectSymbols
  relocations := (contents.sections.filter isRela).map contents.relaTableBack

theorem header_type (section_ : ElfSection) :
    ((contents.header section_).type = Elf.shtRela ↔ isRela section_ = true) ∧
      ((contents.header section_).type = Elf.shtSymtab ↔ section_ = .symtab) := by
  cases section_ <;> simp [header, relaHeader, isRela, Elf.shtRela, Elf.shtSymtab]

theorem findIdx?_symtab : contents.objectSections.findIdx?
    (fun section_ => section_.header.type = Elf.shtSymtab) = some contents.numbers.symtab := by
  rw [objectSections_eq, List.findIdx?_map]
  have only : ((fun section_ : Elf.Section => decide (section_.header.type = Elf.shtSymtab)) ∘
      fun section_? : Option ElfSection => (section_?.map contents.sectionBack).getD nullSection) =
      fun section_? => decide (section_? = some .symtab) := by
    funext section_?
    cases section_? with
    | none => rfl
    | some section_ =>
        refine decide_eq_decide.mpr ((header_type section_).2.trans ?_)
        rw [Option.some.injEq]
  rw [only]
  exact contents.numbering.2.2.2

/-- The reader finds the object. -/
theorem readElf64_file (wellFormed : WellFormed contents) :
    Elf.readElf64 contents.file = some contents.object := by
  have symtab := @objectSections_numberOf contents .symtab rfl rfl
  rw [Elf.readElf64, if_pos hasFileHeader_file, readSections_file wellFormed]
  dsimp only
  rw [findIdx?_symtab]
  dsimp only
  rw [show contents.numbers.symtab = contents.numberOf .symtab from rfl, symtab]
  dsimp only
  rw [readSymbols_file wellFormed]
  dsimp only
  have tables : (contents.objectSections.filter fun section_ =>
      section_.header.type = Elf.shtRela).mapM
      (Elf.readRelaTable contents.objectSections (contents.numberOf .symtab)
        contents.objectSymbols.length) =
      some ((contents.sections.filter isRela).map contents.relaTableBack) := by
    have filtered : (contents.objectSections.filter fun section_ =>
        section_.header.type = Elf.shtRela) =
        (contents.sections.filter isRela).map contents.sectionBack := by
      rw [objectSections, List.filter_cons_of_neg (by decide), List.filter_map]
      congr 1
      refine List.filter_congr fun section_ _ => ?_
      have type := (@header_type contents section_).1
      rw [Function.comp_apply]
      cases rela : isRela section_ with
      | true => exact decide_eq_true (type.mpr rela)
      | false => exact decide_eq_false fun same => by simp [type.mp same] at rela
    rw [filtered]
    refine mapM_eq_some ?_
    rw [List.forall₂_map_left_iff, List.forall₂_map_right_iff, List.forall₂_same]
    intro section_ member
    obtain ⟨isSection, rela⟩ := List.mem_filter.mp member
    exact readRelaTable_file wellFormed (mem_sections.mp isSection) rela
  rw [tables, Option.map_some, word_shstrtab]
  rfl

end Nazm.Output.ElfContents
