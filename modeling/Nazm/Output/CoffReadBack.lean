import Mathlib.Data.List.TakeWhile
import Nazm.Coff.Reader
import Nazm.Output.CoffExact
import Nazm.Passes.Linked

/-!
Reading a COFF object back.

Owns what the reference reader makes of the file that the writer puts together:
its sections, relocations and symbols, for contents whose fields are exact and
whose names are C strings.

Does not own where such contents come from.
-/

namespace Nazm.Output.CoffContents

open FieldEdits ByteFile LittleEndian
open Nazm.Encoder Nazm.Lexer Nazm.Symtable Nazm.Unicode Nazm.Passes

variable {input : OutputInput} {contents : CoffContents}

/-! ## The object that is read -/

def relocBack (reloc : CoffReloc) : Coff.Reloc :=
  ⟨reloc.offset.toNat, reloc.symbolIndex.toNat, reloc.type⟩

def symBack (sym : CoffSym) : Coff.Symbol :=
  ⟨sym.name, sym.value.toNat, sym.section_, 0, sym.storage.toNat, 0⟩

/-- A name in a field of eight bytes. -/
def padName (name : List UInt8) : List UInt8 := name ++ List.replicate (8 - name.length) 0

def headerBack (sh : CoffHeader) : Coff.Header :=
  ⟨padName sh.name, sh.rawSize.toNat, sh.rawPtr.toNat, sh.relocPtr.toNat, sh.relocCount.toNat,
    sh.characteristics.toNat⟩

/-- The relocations that are written for a section. -/
def sectionRelocs (contents : CoffContents) : CoffSection → List CoffReloc
  | .text => contents.textRelocs
  | .data => contents.dataRelocs
  | .readOnlyData => contents.readOnlyDataRelocs
  | .bss => []
  | .debug => contents.debugRelocs

/-- The contents that are written for a section. -/
def sectionBytes (contents : CoffContents) (section_ : CoffSection) : List UInt8 :=
  ((rawPart section_).map contents.part).getD []

def sectionBack (contents : CoffContents) (section_ : CoffSection) : Coff.Section :=
  ⟨headerBack (contents.header section_), section_.name, contents.sectionBytes section_,
    (contents.sectionRelocs section_).map relocBack⟩

def object (contents : CoffContents) : Coff.Object :=
  ⟨contents.sections.map contents.sectionBack, contents.position .symtab,
    contents.symtab.map fun sym => some (symBack sym), (coffStrtab contents.names).length⟩

/-- The fields of the contents are exact, and their names are C strings. -/
structure WellFormed (input : OutputInput) (contents : CoffContents) : Prop where
  built : CoffBuilt input contents
  nothingTruncated : contents.NothingTruncated
  names : ∀ sym ∈ contents.symtab, sym.name ≠ [] ∧ 0 ∉ sym.name

/-! ## Records -/

theorem length_padName {name : List UInt8} (short : name.length ≤ 8) : (padName name).length = 8 := by
  rw [padName, List.length_append, List.length_replicate]
  omega

theorem shortName_padName {name : List UInt8} (clean : 0 ∉ name) :
    Coff.shortName (padName name) = name := by
  have whole : name.takeWhile (fun byte => decide (byte ≠ 0)) = name :=
    List.takeWhile_eq_self_iff.mpr fun byte member =>
      decide_eq_true fun zero => clean (zero ▸ member)
  rw [Coff.shortName, padName]
  cases 8 - name.length with
  | zero => rw [List.replicate_zero, List.append_nil, whole]
  | succ more => rw [List.replicate_succ, takeWhile_string clean]

theorem field_of_bytes (string : List UInt8) {width : Nat} (length : string.length = width) :
    string = fields [(width, value string)] := by
  rw [fields, List.flatMap_cons, List.flatMap_nil, List.append_nil, ← length]
  exact (bytes_value string).symm

theorem writeHeader_eq (sh : CoffHeader) (short : sh.name.length ≤ 8) : sh.write =
    fields [(8, value (padName sh.name)), (4, 0), (4, 0), (4, sh.rawSize.toNat),
      (4, sh.rawPtr.toNat), (4, sh.relocPtr.toNat), (4, 0), (2, sh.relocCount.toNat), (2, 0),
      (4, sh.characteristics.toNat)] := by
  have name := field_of_bytes _ (length_padName short)
  simp only [fields, List.flatMap_cons, List.flatMap_nil, List.append_nil] at name
  simp only [CoffHeader.write, fields, List.flatMap_cons, List.flatMap_nil, w16, w32,
    List.append_nil]
  rw [← name]
  simp only [padName, List.append_assoc]

theorem writeReloc_eq (reloc : CoffReloc) : reloc.write =
    fields [(4, reloc.offset.toNat), (4, reloc.symbolIndex.toNat), (2, reloc.type)] := by
  simp only [CoffReloc.write, fields, List.flatMap_cons, List.flatMap_nil, w16, w32,
    List.append_assoc, List.append_nil]

theorem writeSym_eq (sym : CoffSym) : sym.write =
    fields [(8, value sym.nameField), (4, sym.value.toNat), (2, value (intBytes 2 sym.section_)),
      (2, 0), (1, sym.storage.toNat), (1, 0)] := by
  have name := field_of_bytes _ (length_nameField sym)
  have section_ := field_of_bytes _ (length_intBytes 2 sym.section_)
  have storage : [sym.storage] = bytes 1 sym.storage.toNat := by simp [bytes]
  simp only [fields, List.flatMap_cons, List.flatMap_nil, List.append_nil] at name section_
  simp only [CoffSym.write, fields, List.flatMap_cons, List.flatMap_nil, w16, w32, ← name,
    ← section_, storage, List.append_assoc, List.append_nil]
  rfl

theorem word32 (number : UInt32) : number.toNat < 256 ^ 4 := number.toNat_lt

theorem readHeader_eq {file : List UInt8} {offset : Nat} {sh : CoffHeader}
    (holds : Holds file offset sh.write) (short : sh.name.length ≤ 8)
    (count : sh.relocCount.toNat < 2 ^ 16) : Coff.readHeader file offset = headerBack sh := by
  have name : slice file offset 8 = padName sh.name := by
    have front : sh.write = [] ++ padName sh.name ++ sh.write.drop 8 := by
      have take : sh.write.take 8 = padName sh.name := by
        have padded := length_padName short
        simp only [CoffHeader.write, List.append_assoc]
        rw [← List.append_assoc, ← padName, List.take_left' padded]
      rw [List.nil_append, ← take, List.take_append_drop]
    rw [front] at holds
    have part := holds.part.same
    rwa [length_padName short] at part
  rw [writeHeader_eq sh short] at holds
  have field := fun {index width number} => @Holds.field _ _ _ holds index width number
  rw [Coff.readHeader, headerBack, Coff.Header.mk.injEq]
  exact ⟨name, @field 3 _ _ rfl (word32 _), @field 4 _ _ rfl (word32 _),
    @field 5 _ _ rfl (word32 _), @field 7 _ _ rfl count, @field 9 _ _ rfl (word32 _)⟩

theorem readReloc_eq {file : List UInt8} {offset : Nat} {reloc : CoffReloc}
    (holds : Holds file offset reloc.write) (type : reloc.type < 2 ^ 16) :
    Coff.readReloc file offset = relocBack reloc := by
  rw [writeReloc_eq] at holds
  have field := fun {index width number} => @Holds.field _ _ _ holds index width number
  rw [Coff.readReloc, relocBack, Coff.Reloc.mk.injEq]
  exact ⟨@field 0 _ _ rfl (word32 _), @field 1 _ _ rfl (word32 _), @field 2 _ _ rfl type⟩

/-! ## Characteristics -/

theorem coffAlignmentExponent_le (requested : Nat) (fuel exponent : Nat) (least : exponent ≤ 13) :
    coffAlignmentExponent requested fuel exponent ≤ 13 := by
  induction fuel generalizing exponent with
  | zero => exact least
  | succ fuel inductionHypothesis =>
      rw [coffAlignmentExponent]
      split
      · next more => exact inductionHypothesis _ more.2
      · exact least

/-- The flag of an alignment, from its logarithm. -/
def alignmentFlag (exponent : Nat) : UInt32 := (UInt32.ofNat exponent + 1) <<< 20

/-- The logarithm of the alignment of a section. -/
def alignmentExponent (contents : CoffContents) : CoffSection → Nat
  | .text => 4
  | .data => coffAlignmentExponent contents.input.dataAlignment 14 0
  | .readOnlyData => coffAlignmentExponent contents.input.readOnlyDataAlignment 14 0
  | .bss => coffAlignmentExponent contents.input.bssAlignment 14 0
  | .debug => 0

/-- What a reader sees in the characteristics of a section. -/
structure Characteristics (number : Nat) (uninitialised : Bool) (exponent : Nat) : Prop where
  kind : number / 0x80 % 2 = if uninitialised then 1 else 0
  count : number / 0x01000000 % 2 = 0
  alignment : number / 2 ^ 20 % 16 = exponent + 1

instance (number : Nat) (uninitialised : Bool) (exponent : Nat) :
    Decidable (Characteristics number uninitialised exponent) :=
  decidable_of_iff (number / 0x80 % 2 = (if uninitialised then 1 else 0) ∧
      number / 0x01000000 % 2 = 0 ∧ number / 2 ^ 20 % 16 = exponent + 1)
    ⟨fun ⟨kind, count, alignment⟩ => ⟨kind, count, alignment⟩,
      fun all => ⟨all.kind, all.count, all.alignment⟩⟩

theorem characteristics_of_header (contents : CoffContents) (section_ : CoffSection) :
    Characteristics (contents.header section_).characteristics.toNat (decide (section_ = .bss))
      (contents.alignmentExponent section_) := by
  have flags : ∀ exponent < 14,
      Characteristics (UInt32.toNat (0x00000040 ||| 0x40000000 ||| 0x80000000 |||
        alignmentFlag exponent)) false exponent ∧
      Characteristics (UInt32.toNat (0x00000040 ||| 0x40000000 |||
        alignmentFlag exponent)) false exponent ∧
      Characteristics (UInt32.toNat (0x00000080 ||| 0x40000000 ||| 0x80000000 |||
        alignmentFlag exponent)) true exponent := by
    decide +kernel
  have small := fun requested =>
    Nat.lt_succ_of_le (coffAlignmentExponent_le requested 14 0 (Nat.zero_le _))
  cases section_ with
  | text =>
      have checked : Characteristics
          ((0x00000020 : UInt32) ||| 0x20000000 ||| 0x40000000 ||| 0x00500000).toNat false 4 := by
        decide
      exact checked
  | data => exact (flags _ (small _)).1
  | readOnlyData => exact (flags _ (small _)).2.1
  | bss => exact (flags _ (small _)).2.2
  | debug =>
      have checked : Characteristics
          ((0x00000040 : UInt32) ||| 0x02000000 ||| 0x40000000 ||| 0x00100000).toNat false 0 := by
        decide
      exact checked

/-! ## Sections -/

theorem header_name (contents : CoffContents) (section_ : CoffSection) :
    (contents.header section_).name = section_.name := by
  cases section_ <;> rfl

theorem mem_sections {section_ : CoffSection} :
    section_ ∈ contents.sections ↔ contents.input.hasCoffSection section_ = true := by
  rw [sections, List.mem_filter]
  exact and_iff_right (by cases section_ <;> decide)

theorem file_holds_header {index : Nat} {section_ : CoffSection}
    (wellFormed : WellFormed input contents)
    (isSection : contents.sections[index]? = some section_) :
    Holds contents.file (20 + index * 40) (contents.header section_).write := by
  have holds := contents.file_holds .sectionHeaders
  rw [(positions wellFormed.built).sectionHeaders, part, List.flatMap_map] at holds
  exact Holds.record (fun section_ => length_writeHeader _ (length_header_name section_)) holds
    isSection

/-- What a header says of the contents that the section has in the file. -/
theorem rawRange_back (wellFormed : WellFormed input contents) {section_ : CoffSection}
    (present : contents.input.hasCoffSection section_ = true) :
    Holds contents.file (headerBack (contents.header section_)).rawRange.1
        (contents.sectionBytes section_) ∧
      (headerBack (contents.header section_)).rawRange.2 =
        (contents.sectionBytes section_).length := by
  have exact_ := wellFormed.nothingTruncated.headers section_ present
  have kind := (characteristics_of_header contents section_).kind
  have range : (headerBack (contents.header section_)).rawRange = (contents.rawPosition section_,
      if section_ = .bss then 0 else contents.rawSize section_) := by
    rw [Coff.Header.rawRange, Coff.Header.uninitialised]
    change ((contents.header section_).rawPtr.toNat, _) = _
    rw [exact_.rawPtr]
    change (_, if decide ((contents.header section_).characteristics.toNat / 0x80 % 2 = 1) then 0
      else (contents.header section_).rawSize.toNat) = _
    rw [exact_.rawSize, kind]
    cases section_ <;> rfl
  rw [range]
  cases section_ with
  | text => exact ⟨contents.file_holds .text, rfl⟩
  | data => exact ⟨contents.file_holds .data, rfl⟩
  | readOnlyData => exact ⟨contents.file_holds .readOnlyData, rfl⟩
  | bss => exact ⟨⟨Nat.zero_le _, rfl⟩, rfl⟩
  | debug => exact ⟨contents.file_holds .debug, (length_debug wellFormed.built).symm⟩

theorem length_sectionRelocs (wellFormed : WellFormed input contents) {section_ : CoffSection}
    (present : contents.input.hasCoffSection section_ = true) :
    (contents.sectionRelocs section_).length = contents.relocCount section_ := by
  have relocs := length_relocsOf wellFormed.built
  rw [← wellFormed.built.isInput] at relocs
  cases section_ with
  | text => exact relocs .text
  | data => exact relocs .data
  | readOnlyData => exact relocs .readOnlyData
  | bss => rfl
  | debug =>
      rw [sectionRelocs, debugRelocs, if_pos (by exact present)]
      rfl

/-- Where there are relocations, they stand where the header says. -/
theorem relocRange_back (wellFormed : WellFormed input contents) {section_ : CoffSection}
    (present : contents.input.hasCoffSection section_ = true) :
    (headerBack (contents.header section_)).relocCount = (contents.sectionRelocs section_).length ∧
      Holds contents.file (headerBack (contents.header section_)).relocPointer
        ((contents.sectionRelocs section_).flatMap CoffReloc.write) := by
  have exact_ := wellFormed.nothingTruncated.headers section_ present
  have length := length_sectionRelocs wellFormed present
  refine ⟨exact_.relocCount.trans length.symm, ?_⟩
  change Holds _ (contents.header section_).relocPtr.toNat _
  rw [exact_.relocPtr, relocPosition]
  split
  · next none =>
      rw [List.eq_nil_of_length_eq_zero (length.trans none)]
      exact ⟨Nat.zero_le _, rfl⟩
  · next some_ =>
      cases section_ with
      | text => exact contents.file_holds .textRelocs
      | data => exact contents.file_holds .dataRelocs
      | readOnlyData => exact contents.file_holds .readOnlyDataRelocs
      | bss => exact absurd rfl some_
      | debug => exact contents.file_holds .debugRelocs

theorem relocType_lt (wellFormed : WellFormed input contents) {section_ : CoffSection}
    {reloc : CoffReloc} (member : reloc ∈ contents.sectionRelocs section_) :
    reloc.type < 2 ^ 16 := by
  have each : ∀ section_, ∀ reloc ∈ contents.relocsOf section_, reloc.type < 2 ^ 16 := by
    intro section_ reloc inSection
    obtain ⟨relocation, -, place, symbol, -, -, rfl⟩ :=
      exists_of_forall₂ (relocs_of_built wellFormed.built section_).flip inSection
    change coffRelocationType relocation.kind < _
    cases relocation.kind <;> decide
  cases section_ with
  | text => exact each .text reloc member
  | data => exact each .data reloc member
  | readOnlyData => exact each .readOnlyData reloc member
  | bss => contradiction
  | debug =>
      rw [sectionRelocs, debugRelocs] at member
      split at member
      · rcases List.mem_cons.mp member with rfl | last
        · exact show 0x000B < 2 ^ 16 by decide
        · obtain rfl := List.mem_singleton.mp last
          exact show 0x000A < 2 ^ 16 by decide
      · contradiction

/-- The reader finds a section. -/
theorem readSection_back (wellFormed : WellFormed input contents) {section_ : CoffSection}
    (present : contents.input.hasCoffSection section_ = true) :
    Coff.readSection contents.file (headerBack (contents.header section_)) =
      contents.sectionBack section_ := by
  obtain ⟨holds, size⟩ := rawRange_back wellFormed present
  obtain ⟨count, relocs⟩ := relocRange_back wellFormed present
  have name : Coff.shortName (headerBack (contents.header section_)).nameField = section_.name := by
    have clean : 0 ∉ section_.name := by cases section_ <;> decide +kernel
    change Coff.shortName (padName (contents.header section_).name) = _
    rw [header_name, shortName_padName clean]
  have same := holds.same
  rw [← size] at same
  rw [Coff.readSection, sectionBack, Coff.Section.mk.injEq]
  refine ⟨rfl, name, same, ?_⟩
  rw [count]
  refine List.ext_getElem? fun index => ?_
  rw [List.getElem?_map, List.getElem?_map]
  by_cases inRange : index < (contents.sectionRelocs section_).length
  · have element := List.getElem?_eq_getElem inRange
    rw [List.getElem?_range inRange, element, Option.map_some, Option.map_some,
      readReloc_eq (relocs.record length_writeReloc element)
        (relocType_lt wellFormed (List.getElem_mem inRange))]
  · rw [List.getElem?_eq_none (Nat.le_of_not_lt inRange),
      List.getElem?_eq_none (by rw [List.length_range]; exact Nat.le_of_not_lt inRange)]
    rfl

theorem readable_back (wellFormed : WellFormed input contents) {section_ : CoffSection}
    (present : contents.input.hasCoffSection section_ = true) :
    (headerBack (contents.header section_)).readable contents.file = true := by
  obtain ⟨holds, size⟩ := rawRange_back wellFormed present
  obtain ⟨count, relocs⟩ := relocRange_back wellFormed present
  have name : (headerBack (contents.header section_)).nameField.head? ≠ some 0x2F := by
    have checked : ∀ section_ ∈ CoffSection.all, (padName section_.name).head? ≠ some 0x2F := by
      decide +kernel
    change (padName (contents.header section_).name).head? ≠ some 0x2F
    rw [header_name]
    exact checked section_ (by cases section_ <;> decide)
  have overflow := (characteristics_of_header contents section_).count
  have rawInside := holds.inside
  have relocsInside := relocs.inside
  rw [length_flatMap_uniform length_writeReloc, ← count] at relocsInside
  rw [← size] at rawInside
  simp only [Coff.Header.readable, Bool.and_eq_true, decide_eq_true_eq]
  exact ⟨⟨⟨name, overflow⟩, rawInside⟩, relocsInside⟩

/-! ## The file header -/

theorem fileHeader_eq : contents.fileHeader =
    fields [(2, 0x8664), (2, coffSectionCount contents.input), (4, 0),
      (4, contents.layout.symtabPtr.toNat), (4, contents.totalSymbols.toNat), (2, 0), (2, 0)] := by
  simp only [fileHeader, fields, List.flatMap_cons, List.flatMap_nil, w16, w32, List.append_assoc,
    List.append_nil]

theorem file_holds_fields (contents : CoffContents) : Holds contents.file 0
    (fields [(2, 0x8664), (2, coffSectionCount contents.input), (4, 0),
      (4, contents.layout.symtabPtr.toNat), (4, contents.totalSymbols.toNat), (2, 0), (2, 0)]) := by
  have holds := contents.file_holds .fileHeader
  rwa [part, fileHeader_eq] at holds

theorem word_sectionCount (wellFormed : WellFormed input contents) :
    word contents.file 2 2 = contents.sections.length := by
  obtain ⟨same, small⟩ := wellFormed.nothingTruncated.sectionCount
  rw [← same]
  exact @Holds.field _ _ _ (file_holds_fields contents) 1 2 _ rfl small

theorem word_symtabPtr (wellFormed : WellFormed input contents) :
    word contents.file 8 4 = contents.position .symtab := by
  rw [← wellFormed.nothingTruncated.symtabPtr]
  exact @Holds.field _ _ _ (file_holds_fields contents) 3 4 _ rfl (word32 _)

theorem word_totalSymbols (wellFormed : WellFormed input contents) :
    word contents.file 12 4 = contents.symtab.length := by
  rw [← wellFormed.nothingTruncated.totalSymbols]
  exact @Holds.field _ _ _ (file_holds_fields contents) 4 4 _ rfl (word32 _)

theorem hasFileHeader_file (contents : CoffContents) : Coff.hasFileHeader contents.file = true := by
  have long := (contents.file_holds .fileHeader).inside
  have start : (contents.part .fileHeader).length = 20 := length_fileHeader
  have field := fun {index width number} =>
    @Holds.field _ _ _ (file_holds_fields contents) index width number
  have machine : word contents.file 0 2 = 0x8664 := @field 0 _ _ rfl (by decide)
  have optional : word contents.file 16 2 = 0 := @field 5 _ _ rfl (by decide)
  have least : 20 ≤ contents.file.length := by omega
  simp only [Coff.hasFileHeader, least, machine, optional, decide_true, Bool.and_self]

/-- The reader finds the sections. -/
theorem readSections_file (wellFormed : WellFormed input contents) :
    Coff.readSections contents.file = some (contents.sections.map contents.sectionBack) := by
  have headers : ((List.range (word contents.file 2 2)).map fun index =>
      Coff.readHeader contents.file (20 + index * 40)) =
        contents.sections.map fun section_ => headerBack (contents.header section_) := by
    rw [word_sectionCount wellFormed]
    refine List.ext_getElem? fun index => ?_
    rw [List.getElem?_map, List.getElem?_map]
    by_cases inRange : index < contents.sections.length
    · have element := List.getElem?_eq_getElem inRange
      have present := mem_sections.mp (List.getElem_mem inRange)
      have fits := (wellFormed.nothingTruncated.headers _ present).relocCountFits
      rw [List.getElem?_range inRange, element, Option.map_some, Option.map_some,
        readHeader_eq (file_holds_header wellFormed element) (length_header_name _) fits]
    · rw [List.getElem?_eq_none (Nat.le_of_not_lt inRange),
        List.getElem?_eq_none (by rw [List.length_range]; exact Nat.le_of_not_lt inRange)]
      rfl
  have inside := (contents.file_holds .sectionHeaders).inside
  rw [length_sectionHeaders, (positions wellFormed.built).sectionHeaders, ← length_sections]
    at inside
  rw [Coff.readSections, headers, List.length_map, if_pos, List.map_map]
  · refine congrArg some (List.map_congr_left fun section_ member => ?_)
    exact readSection_back wellFormed (mem_sections.mp member)
  · refine ⟨inside, fun sh member => ?_⟩
    obtain ⟨section_, isSection, rfl⟩ := List.mem_map.mp member
    exact readable_back wellFormed (mem_sections.mp isSection)

/-! ## Symbols -/

/-- The string table as the reader takes it from the file. -/
theorem slice_strtab (wellFormed : WellFormed input contents) :
    slice contents.file (contents.position .symtab + contents.symtab.length * 18)
      (coffStrtab contents.names).length = coffStrtab contents.names := by
  rw [← (positions wellFormed.built).strtab]
  exact (contents.file_holds .strtab).same

theorem word_strtab (wellFormed : WellFormed input contents) :
    word contents.file (contents.position .symtab + contents.symtab.length * 18) 4 =
      (coffStrtab contents.names).length := by
  have holds : Holds contents.file (contents.position .strtab) (coffStrtab contents.names) :=
    contents.file_holds .strtab
  have long : 4 ≤ (coffStrtab contents.names).length := by
    rw [coffStrtab, List.length_append, w32, length_bytes]
    omega
  have first := holds.word_eq (show 0 + 4 ≤ _ by omega)
  rw [Nat.add_zero, (positions wellFormed.built).strtab] at first
  rw [first, wellFormed.nothingTruncated.strtabSize]

/-- A long name is in the string table at its offset. -/
theorem stringAt_name {index : Nat} {name : List UInt8} (isName : contents.names[index]? = some name)
    (long : 8 < name.length) (clean : 0 ∉ name) :
    stringAt (coffStrtab contents.names)
      (4 + (strings (coffLongNames (contents.names.take index))).length) = some name := by
  obtain ⟨inRange, isElement⟩ := List.getElem?_eq_some_iff.mp isName
  have split : coffLongNames contents.names = coffLongNames (contents.names.take index) ++
      name :: coffLongNames (contents.names.drop (index + 1)) := by
    conv_lhs => rw [← List.take_append_drop index contents.names,
      List.drop_eq_getElem_cons inRange, isElement]
    rw [coffLongNames, List.filter_append,
      List.filter_cons_of_pos (by exact decide_eq_true long)]
    rfl
  have table : ∀ front, front ++ strings (coffLongNames contents.names) =
      front ++ strings (coffLongNames (contents.names.take index)) ++ name ++
        0 :: strings (coffLongNames (contents.names.drop (index + 1))) := fun front => by
    rw [split, strings_append]
    simp only [strings, List.flatMap_cons, List.append_assoc, List.singleton_append]
  have placed := fun front => @stringAt_middle
    (front ++ strings (coffLongNames (contents.names.take index))) name
    (strings (coffLongNames (contents.names.drop (index + 1)))) clean
  rw [coffStrtab, table, ← placed, List.length_append, w32, length_bytes]

/-- The name of a record is where the record says. -/
theorem name_of_index {index : Nat} {sym : CoffSym} (isSym : contents.symtab[index]? = some sym) :
    contents.names[index]? = some sym.name ∨ sym.name = utf8 ".text" := by
  rcases symtab_cases isSym with ⟨rfl, rfl⟩ | ⟨place, symbol, rfl, isSymbol, rfl⟩ | ⟨-, -, rfl⟩
  · exact .inl rfl
  · rw [names, List.getElem?_cons_succ, symbolNames, List.getElem?_map, isSymbol]
    exact .inl rfl
  · exact .inr rfl

theorem value_ne_zero {byte : UInt8} (nonzero : byte ≠ 0) (rest : List UInt8) :
    value (byte :: rest) ≠ 0 := by
  have positive : byte.toNat ≠ 0 := fun zero => nonzero (UInt8.toNat_inj.mp zero)
  rw [value]
  omega

/-- The reader finds the name of a record. -/
theorem readName_back (wellFormed : WellFormed input contents) {index offset : Nat}
    {sym : CoffSym} (isSym : contents.symtab[index]? = some sym)
    (holds : Holds contents.file offset sym.nameField) :
    Coff.readName contents.file (coffStrtab contents.names) offset = some sym.name := by
  obtain ⟨nonempty, clean⟩ := wellFormed.names sym (List.mem_of_getElem? isSym)
  have first := holds.word_eq (show 0 + 4 ≤ _ by rw [length_nameField]; omega)
  rw [Nat.add_zero] at first
  rw [Coff.readName, first]
  by_cases long : 8 < sym.name.length
  · have field : sym.nameField = fields [(4, 0), (4, sym.strtabOff.toNat)] := by
      rw [CoffSym.nameField, if_neg (Nat.not_le.mpr long)]
      simp only [fields, List.flatMap_cons, List.flatMap_nil, w32, List.append_nil]
    have isName := (name_of_index isSym).resolve_right fun isText => by
      rw [isText] at long
      exact absurd long (by decide)
    have offset_ := @Holds.field _ _ _ (field ▸ holds) 1 4 _ rfl (word32 _)
    have zero := @Holds.field _ _ _ (Holds.whole (fields [(4, 0), (4, sym.strtabOff.toNat)])) 0 4 _
      rfl (by decide)
    rw [if_pos (by rw [field]; exact zero)]
    refine Eq.trans (congrArg _ (offset_.trans
      (wellFormed.nothingTruncated.nameOffsets index sym isSym long))) ?_
    exact stringAt_name isName long clean
  · have field : sym.nameField = padName sym.name := by
      rw [CoffSym.nameField, if_pos (Nat.le_of_not_lt long), padName]
    obtain ⟨byte, rest, isName⟩ := List.exists_cons_of_ne_nil nonempty
    have nonzero : byte ≠ 0 := fun zero => clean (by rw [isName, zero]; exact List.mem_cons_self)
    have notZero : word sym.nameField 0 4 ≠ 0 := by
      rw [word, slice, List.drop_zero, field, padName, isName, List.cons_append, List.take_succ_cons]
      exact value_ne_zero nonzero _
    have same := holds.same
    rw [length_nameField] at same
    rw [if_neg notZero, same, field, shortName_padName clean]

theorem section_range (contents : CoffContents) (section? : Option SymbolSection) :
    coffSectionNumber (coffNumbers contents.input) section? ≤ contents.sections.length := by
  rw [length_sections]
  unfold coffNumbers coffSectionCount nextSection
  generalize contents.input.hasData = hasData
  generalize contents.input.hasReadOnlyData = hasReadOnlyData
  generalize contents.input.hasBss = hasBss
  generalize contents.input.hasDebug = hasDebug
  cases section? with
  | none => exact Nat.zero_le _
  | some section_ =>
      cases section_ <;> revert hasData hasReadOnlyData hasBss hasDebug <;> decide

/-- The number of the section of a record is in range. -/
theorem section_of_sym {sym : CoffSym} (member : sym ∈ contents.symtab) :
    -2 ≤ sym.section_ ∧ sym.section_ ≤ contents.sections.length := by
  obtain ⟨index, inRange, isElement⟩ := List.getElem_of_mem member
  have least : 1 ≤ contents.sections.length := by
    rw [length_sections, coffSectionCount]
    omega
  rcases symtab_cases (List.getElem?_eq_some_iff.mpr ⟨inRange, isElement⟩) with
    ⟨-, rfl⟩ | ⟨place, symbol, -, -, rfl⟩ | ⟨-, -, rfl⟩
  · exact ⟨show (-2 : Int) ≤ -2 by decide, show (-2 : Int) ≤ _ by omega⟩
  · have range := section_range contents symbol.section_
    rw [CoffContents.symbol]
    dsimp only
    omega
  · exact ⟨show (-2 : Int) ≤ 1 by decide, show (1 : Int) ≤ _ by omega⟩

/-- The reader finds a record. -/
theorem readSymbol_back (wellFormed : WellFormed input contents) {index : Nat} {sym : CoffSym}
    (isSym : contents.symtab[index]? = some sym) :
    Coff.readSymbol contents.file (coffStrtab contents.names)
      (contents.position .symtab + index * 18) = some (symBack sym) := by
  have record : Holds contents.file (contents.position .symtab + index * 18) sym.write :=
    (contents.file_holds .symtab).record length_writeSym isSym
  have name : Holds contents.file (contents.position .symtab + index * 18) sym.nameField := by
    have front : sym.write = [] ++ sym.nameField ++ (w32 sym.value.toNat ++
        (intBytes 2 sym.section_ ++ (w16 0 ++ ([sym.storage] ++ [0])))) := by
      simp only [CoffSym.write, List.nil_append, List.append_assoc]
    have whole := record
    rw [front] at whole
    have part := whole.part
    rwa [List.length_nil, Nat.add_zero] at part
  have few := @sectionCount_small contents.input
  rw [← length_sections] at few
  obtain ⟨lower, upper⟩ := section_of_sym (List.mem_of_getElem? isSym)
  have power : (2 : Int) ^ (8 * 2) = 65536 := by norm_num
  have section_ : signed (8 * 2) (value (intBytes 2 sym.section_)) = sym.section_ :=
    signed_intBytes (by rw [power]; omega) (by rw [power]; omega)
  rw [show 8 * 2 = 16 from rfl] at section_
  have small := value_lt (intBytes 2 sym.section_)
  rw [length_intBytes] at small
  rw [writeSym_eq] at record
  have field := fun {index width number} => @Holds.field _ _ _ record index width number
  have sectionField := @field 2 _ _ rfl small
  have storageFits : sym.storage.toNat < 256 ^ 1 := sym.storage.toNat_lt
  rw [Coff.readSymbol, readName_back wellFormed isSym name, Option.map_some, symBack,
    Option.some.injEq, Coff.Symbol.mk.injEq]
  exact ⟨rfl, @field 1 _ _ rfl (word32 _), (congrArg (signed 16) sectionField).trans section_,
    @field 3 _ _ rfl (by decide), @field 4 _ _ rfl storageFits, @field 5 _ _ rfl (by decide)⟩

/-- The reader finds records without auxiliary records one after the other. -/
theorem readSymbols_of_each {file strtab : List UInt8} {symbols : List Coff.Symbol} {offset : Nat}
    (each : ∀ (index : Nat) symbol, symbols[index]? = some symbol →
      Coff.readSymbol file strtab (offset + index * 18) = some symbol)
    (noAux : ∀ symbol ∈ symbols, symbol.auxCount = 0) :
    Coff.readSymbols file strtab symbols.length 0 offset = some (symbols.map some) := by
  induction symbols generalizing offset with
  | nil => rfl
  | cons symbol symbols inductionHypothesis =>
      have first := each 0 symbol rfl
      rw [Nat.zero_mul, Nat.add_zero] at first
      have rest := @inductionHypothesis (offset + 18) (fun index other isOther => by
        have there := each (index + 1) other isOther
        rwa [Nat.succ_mul, Nat.add_comm (index * 18), ← Nat.add_assoc] at there)
        fun other member => noAux other (List.mem_cons_of_mem _ member)
      rw [List.length_cons, Coff.readSymbols, first]
      dsimp only
      rw [noAux symbol List.mem_cons_self, rest]
      rfl

theorem readSymbols_file (wellFormed : WellFormed input contents) :
    Coff.readSymbols contents.file (coffStrtab contents.names) contents.symtab.length 0
      (contents.position .symtab) = some (contents.symtab.map fun sym => some (symBack sym)) := by
  have found := @readSymbols_of_each contents.file (coffStrtab contents.names)
    (contents.symtab.map symBack) (contents.position .symtab) (fun index symbol isSymbol => by
      rw [List.getElem?_map] at isSymbol
      obtain ⟨sym, isSym, rfl⟩ := Option.map_eq_some_iff.mp isSymbol
      exact readSymbol_back wellFormed isSym)
    (fun symbol member => by
      obtain ⟨sym, -, rfl⟩ := List.mem_map.mp member
      rfl)
  rw [List.length_map, List.map_map] at found
  exact found

/-! ## The file -/

theorem symbol?_object {index : Nat} {sym : CoffSym} (isSym : contents.symtab[index]? = some sym) :
    contents.object.symbol? index = some (symBack sym) := by
  rw [Coff.Object.symbol?, object, List.getElem?_map, isSym]
  rfl

/-- A relocation refers to a record of the symbol table. -/
theorem reloc_symbol (wellFormed : WellFormed input contents) {section_ : CoffSection}
    {reloc : CoffReloc} (member : reloc ∈ contents.sectionRelocs section_) :
    ∃ sym, contents.symtab[reloc.symbolIndex.toNat]? = some sym := by
  have each : ∀ section_, ∀ reloc ∈ contents.relocsOf section_,
      ∃ sym, contents.symtab[reloc.symbolIndex.toNat]? = some sym := by
    intro section_ reloc inSection
    obtain ⟨relocation, -, exact_⟩ :=
      exists_of_forall₂ (wellFormed.nothingTruncated.relocs section_).flip inSection
    obtain ⟨place, symbol, isIndex, isSymbol, -⟩ := outputSymbolsFindIndex_eq_some exact_.symbol
    rw [isIndex]
    exact ⟨_, symtab_symbol isSymbol⟩
  cases section_ with
  | text => exact each .text reloc member
  | data => exact each .data reloc member
  | readOnlyData => exact each .readOnlyData reloc member
  | bss => contradiction
  | debug =>
      have debug : contents.input.hasDebug = true := by
        by_contra noDebug
        rw [sectionRelocs, debugRelocs, if_neg noDebug] at member
        contradiction
      have last := wellFormed.nothingTruncated.debugRelocs
      rw [if_pos debug] at last
      have inLast : (reloc.offset.toNat, reloc.symbolIndex.toNat) ∈ _ := last ▸ List.mem_map.mpr
        ⟨reloc, member, rfl⟩
      have index : reloc.symbolIndex.toNat = contents.symbols.data.length + 1 := by
        have length := @length_symtab contents
        rw [if_pos debug] at length
        simp only [List.mem_cons, Prod.mk.injEq, List.not_mem_nil, or_false] at inLast
        omega
      exact ⟨_, index ▸ symtab_debug debug⟩

/-- The reader finds the object in the file. -/
theorem readCoff_file (wellFormed : WellFormed input contents) :
    Coff.readCoff contents.file = some contents.object := by
  have pointer := word_symtabPtr wellFormed
  have count := word_totalSymbols wellFormed
  have strtabEnd := (contents.file_holds .strtab).inside
  rw [(positions wellFormed.built).strtab] at strtabEnd
  have long : 4 ≤ (coffStrtab contents.names).length := by
    rw [coffStrtab, List.length_append, w32, length_bytes]
    omega
  have linked : contents.object.Linked := by
    refine ⟨fun section_ isSection reloc isReloc => ?_, fun symbol? isSymbol symbol inSome => ?_⟩
    · obtain ⟨kind, -, rfl⟩ := List.mem_map.mp isSection
      obtain ⟨written, inSection, rfl⟩ := List.mem_map.mp isReloc
      obtain ⟨sym, isSym⟩ := reloc_symbol wellFormed inSection
      rw [show (relocBack written).symbol = written.symbolIndex.toNat from rfl,
        symbol?_object isSym]
      rfl
    · obtain ⟨sym, inTable, rfl⟩ := List.mem_map.mp isSymbol
      obtain rfl := Option.some.inj inSome
      rw [object, List.length_map]
      exact section_of_sym inTable
  rw [Coff.readCoff, if_pos (hasFileHeader_file contents)]
  dsimp only
  rw [pointer, count, word_strtab wellFormed, if_pos ⟨long, strtabEnd⟩, slice_strtab wellFormed,
    readSections_file wellFormed, readSymbols_file wellFormed]
  exact if_pos linked

/-! ## Ranges -/

/-- Where a part stands, and how long it is. -/
def span (contents : CoffContents) (part : CoffPart) : Nat × Nat :=
  (contents.position part, (contents.part part).length)

/-- Elements that a filter drops need not be dropped before. -/
theorem filter_map_filter {α β : Type} {f : α → β} {keep : α → Bool} {show_ : β → Bool}
    {elements : List α} (dropped : ∀ element ∈ elements, keep element = false →
      show_ (f element) = false) :
    ((elements.filter keep).map f).filter show_ = (elements.map f).filter show_ := by
  induction elements with
  | nil => rfl
  | cons element elements inductionHypothesis =>
      have rest := inductionHypothesis fun other member =>
        dropped other (List.mem_cons_of_mem _ member)
      cases kept : keep element with
      | true =>
          rw [List.filter_cons_of_pos kept, List.map_cons, List.map_cons, List.filter_cons,
            List.filter_cons, rest]
      | false =>
          have hidden := dropped element List.mem_cons_self kept
          rw [List.filter_cons_of_neg (by rw [kept]; exact Bool.false_ne_true), List.map_cons,
            List.filter_cons_of_neg (by rw [hidden]; exact Bool.false_ne_true), rest]

/-- Ranges of the same lengths, where the others are empty. -/
theorem filter_congr_ranges {first second : List (Nat × Nat)}
    (same : List.Forall₂ (fun range other => range.2 = other.2 ∧ (0 < range.2 → range.1 = other.1))
      first second) :
    (first.filter fun range => decide (0 < range.2)) =
      second.filter fun range => decide (0 < range.2) := by
  induction same with
  | nil => rfl
  | @cons range other ranges others head _ inductionHypothesis =>
      obtain ⟨length, start⟩ := head
      by_cases taken : 0 < range.2
      · have equal : range = other := Prod.ext (start taken) length
        rw [List.filter_cons_of_pos (by exact decide_eq_true taken), ← equal,
          List.filter_cons_of_pos (by exact decide_eq_true taken), inductionHypothesis]
      · rw [List.filter_cons_of_neg (by simpa using taken),
          List.filter_cons_of_neg (by simpa [← length] using taken), inductionHypothesis]

theorem sectionBytes_absent {section_ : CoffSection}
    (absent : contents.input.hasCoffSection section_ = false) :
    contents.sectionBytes section_ = [] := by
  cases section_ with
  | text => contradiction
  | data =>
      exact List.eq_nil_of_length_eq_zero (Nat.eq_zero_of_not_pos (of_decide_eq_false absent))
  | readOnlyData =>
      exact List.eq_nil_of_length_eq_zero (Nat.eq_zero_of_not_pos (of_decide_eq_false absent))
  | bss => rfl
  | debug =>
      have noDebug : contents.input.hasDebug = false := absent
      change (if contents.input.hasDebug then contents.debugLine.data else []) = []
      rw [noDebug]
      rfl

/-- The contents of the sections are parts of the file. -/
theorem rawRanges_object (wellFormed : WellFormed input contents) :
    ((contents.object.sections.map fun section_ => section_.header.rawRange).filter
      fun range => decide (0 < range.2)) =
      ([CoffPart.text, .data, .readOnlyData, .debug].map contents.span).filter
        fun range => decide (0 < range.2) := by
  have ranges : (contents.object.sections.map fun section_ => section_.header.rawRange) =
      contents.sections.map fun section_ =>
        (contents.rawPosition section_, (contents.sectionBytes section_).length) := by
    rw [object, List.map_map]
    refine List.map_congr_left fun section_ member => ?_
    have present := mem_sections.mp member
    have exact_ := wellFormed.nothingTruncated.headers section_ present
    exact Prod.ext exact_.rawPtr (rawRange_back wellFormed present).2
  rw [ranges, sections, filter_map_filter fun section_ _ absent => by
    rw [sectionBytes_absent absent]
    rfl]
  rfl

/-- The relocations are parts of the file. -/
theorem relocRanges_object (wellFormed : WellFormed input contents)
    (filled : ∀ section_, contents.sectionRelocs section_ ≠ [] →
      contents.input.hasCoffSection section_ = true) :
    ((contents.object.sections.map fun section_ => section_.header.relocRange).filter
      fun range => decide (0 < range.2)) =
      ([CoffPart.textRelocs, .dataRelocs, .readOnlyDataRelocs, .debugRelocs].map
        contents.span).filter fun range => decide (0 < range.2) := by
  have ranges : (contents.object.sections.map fun section_ => section_.header.relocRange) =
      contents.sections.map fun section_ =>
        (contents.relocPosition section_, (contents.sectionRelocs section_).length * 10) := by
    rw [object, List.map_map]
    refine List.map_congr_left fun section_ member => ?_
    have present := mem_sections.mp member
    have exact_ := wellFormed.nothingTruncated.headers section_ present
    have count := (relocRange_back wellFormed present).1
    exact Prod.ext exact_.relocPtr (congrArg (· * 10) count)
  have bytes : ∀ section_, (contents.sectionRelocs section_).length * 10 =
      ((contents.sectionRelocs section_).flatMap CoffReloc.write).length := fun section_ =>
    (length_flatMap_uniform length_writeReloc _).symm
  have positioned : ∀ {section_ part}, relocPart section_ = some part →
      0 < (contents.sectionRelocs section_).length * 10 →
      contents.relocPosition section_ = contents.position part := by
    intro section_ part isPart some_
    have present := filled section_ fun none => by
      rw [none] at some_
      exact absurd some_ (by decide)
    rw [length_sectionRelocs wellFormed present] at some_
    rw [relocPosition, if_neg (by omega), isPart]
    rfl
  rw [ranges, sections, filter_map_filter fun section_ _ absent => by
    have none : contents.sectionRelocs section_ = [] := by
      by_contra some_
      rw [filled section_ some_] at absent
      contradiction
    rw [none]
    rfl]
  -- `.bss` has no relocations
  have withoutBss : ∀ ranges : CoffSection → Nat × Nat, (ranges .bss).2 = 0 →
      (CoffSection.all.map ranges).filter (fun range => decide (0 < range.2)) =
        ([CoffSection.text, .data, .readOnlyData, .debug].map ranges).filter
          fun range => decide (0 < range.2) := by
    intro ranges none
    simp only [CoffSection.all, List.map_cons, List.map_nil, List.filter_cons, none,
      Nat.lt_irrefl, decide_false, Bool.false_eq_true, if_false]
  rw [withoutBss _ rfl]
  refine filter_congr_ranges (.cons ?_ (.cons ?_ (.cons ?_ (.cons ?_ .nil))))
  · exact ⟨bytes .text, positioned rfl⟩
  · exact ⟨bytes .data, positioned rfl⟩
  · exact ⟨bytes .readOnlyData, positioned rfl⟩
  · exact ⟨bytes .debug, positioned rfl⟩

/-- The object takes the parts of the file. -/
theorem ranges_object (wellFormed : WellFormed input contents)
    (filled : ∀ section_, contents.sectionRelocs section_ ≠ [] →
      contents.input.hasCoffSection section_ = true) :
    contents.object.ranges =
      (CoffPart.all.map contents.span).filter fun range => decide (0 < range.2) := by
  have front : [(0, 20), (20, contents.object.sections.length * 40)] =
      [CoffPart.fileHeader, .sectionHeaders].map contents.span := by
    have first : (contents.part .fileHeader).length = 20 := length_fileHeader
    rw [object, List.length_map, length_sections, ← length_sectionHeaders, List.map_cons,
      List.map_singleton, span, span, (positions wellFormed.built).sectionHeaders, first]
    rfl
  have back : [(contents.object.symtabPointer, contents.object.symbols.length * 18),
      (contents.object.strtabPointer, contents.object.strtabLength)] =
        [CoffPart.symtab, .strtab].map contents.span := by
    have table : (contents.part .symtab).length = contents.symtab.length * 18 :=
      length_flatMap_uniform length_writeSym _
    rw [Coff.Object.strtabPointer, object, List.length_map, List.map_cons, List.map_singleton,
      span, span, (positions wellFormed.built).strtab, table]
    rfl
  rw [Coff.Object.ranges, front, back, List.filter_append, List.filter_append, List.filter_append,
    rawRanges_object wellFormed, relocRanges_object wellFormed filled, ← List.filter_append,
    ← List.filter_append, ← List.filter_append]
  rfl

/-- The parts that the object takes are inside the file, one after the other. -/
theorem ranges_apart (wellFormed : WellFormed input contents)
    (filled : ∀ section_, contents.sectionRelocs section_ ≠ [] →
      contents.input.hasCoffSection section_ = true) :
    (∀ range ∈ contents.object.ranges, range.1 + range.2 ≤ contents.file.length) ∧
      contents.object.ranges.Pairwise fun first second => first.1 + first.2 ≤ second.1 := by
  have contiguous := contents.file_contiguous
  rw [ranges_object wellFormed filled]
  refine ⟨fun range member => ?_, ?_⟩
  · obtain ⟨part, isPart, rfl⟩ := List.mem_map.mp (List.mem_filter.mp member).1
    exact (contiguous.inside isPart).2
  · exact (List.pairwise_map.mpr contiguous.apart).filter _

end Nazm.Output.CoffContents
