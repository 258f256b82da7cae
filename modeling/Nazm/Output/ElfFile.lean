import Nazm.Elf.Reader
import Nazm.Output.Elf64

/-!
The parts of an ELF64 file.

Owns where the file header, the contents of each section and the section
headers stand in the file that the writer puts together, that the numbers of
the writer are the indices of its headers, and the ranges of the contents.

Does not own what a reader makes of the parts.
-/

namespace Nazm.Output.ElfContents

open ByteFile
open Nazm.Encoder Nazm.Symtable Nazm.Unicode Nazm.Passes

variable {contents : ElfContents}

/-! ## Section numbers -/

/-- The number of a section that the writer refers to. -/
def numberOf (contents : ElfContents) : ElfSection → Nat
  | .text => contents.numbers.text
  | .data => contents.numbers.data
  | .readOnlyData => contents.numbers.readOnlyData
  | .bss => contents.numbers.bss
  | .debugLine => contents.numbers.debugLine
  | .symtab => contents.numbers.symtab
  | .strtab => contents.numbers.strtab
  | .shstrtab => contents.numbers.shstrtab
  | _ => 0

/-- A section that the writer refers to by its number. -/
def isNumbered : ElfSection → Bool
  | .text | .data | .readOnlyData | .bss | .debugLine | .symtab | .strtab | .shstrtab => true
  | _ => false

/-- The sections by index, the null section first. -/
def table (contents : ElfContents) : List (Option ElfSection) :=
  none :: contents.sections.map some

/-- The numbers of the writer are indices of the table; which sections are there
is all that they depend on. -/
theorem numbering (contents : ElfContents) :
    (∀ section_ ∈ ElfSection.all, isNumbered section_ = true →
        contents.input.hasSection section_ = true →
        contents.table[contents.numberOf section_]? = some (some section_)) ∧
      (∀ section_ ∈ ElfSection.all, contents.numberOf section_ < contents.numbers.count) ∧
      contents.table.length = contents.numbers.count ∧
      contents.table.findIdx? (fun section_? => decide (section_? = some .symtab)) =
        some contents.numbers.symtab := by
  unfold table sections numberOf numbers elfNumbers ElfSection.all
  simp only [List.filter, OutputInput.hasSection]
  generalize contents.input.hasData = hasData
  generalize contents.input.hasReadOnlyData = hasReadOnlyData
  generalize contents.input.hasBss = hasBss
  generalize contents.input.hasDebug = hasDebug
  generalize hasRelocationsInSection contents.input.relocations .text = relaText
  generalize hasRelocationsInSection contents.input.relocations .data = relaData
  generalize hasRelocationsInSection contents.input.relocations .readOnlyData = relaReadOnlyData
  revert hasData hasReadOnlyData hasBss hasDebug relaText relaData relaReadOnlyData
  decide +kernel

theorem mem_all (section_ : ElfSection) : section_ ∈ ElfSection.all := by
  cases section_ <;> decide

theorem table_numberOf {section_ : ElfSection} (numbered : isNumbered section_ = true)
    (present : contents.input.hasSection section_ = true) :
    contents.table[contents.numberOf section_]? = some (some section_) :=
  contents.numbering.1 section_ (mem_all section_) numbered present

theorem numberOf_lt (contents : ElfContents) (section_ : ElfSection) :
    contents.numberOf section_ < contents.numbers.count :=
  contents.numbering.2.1 section_ (mem_all section_)

theorem length_table : contents.table.length = contents.numbers.count :=
  contents.numbering.2.2.1

theorem count_le (contents : ElfContents) : contents.numbers.count ≤ 14 := by
  rw [← length_table, table, List.length_cons, List.length_map]
  exact Nat.succ_le_succ (List.length_filter_le _ ElfSection.all)

/-! ## Contents -/

theorem length_fileHeader : contents.fileHeader.length = 64 := by
  simp [fileHeader, w16, w32, w64]

theorem laid_extends : ∃ added, contents.laid.2 = contents.fileHeader ++ added :=
  lay_extends _ _

theorem length_laid : 64 ≤ contents.laid.2.length := by
  obtain ⟨added, extended⟩ := @laid_extends contents
  rw [extended, List.length_append, length_fileHeader]
  omega

theorem laid_le_shoff : contents.laid.2.length ≤ contents.shoff := by
  rw [shoff, buffer, List.length_append]
  omega

/-- The file is written over at `e_shoff` only. -/
theorem file_eq : contents.file =
    (contents.buffer ++ contents.headers.flatMap writeShdr).take 40 ++ w64 contents.shoff ++
      (contents.buffer ++ contents.headers.flatMap writeShdr).drop
        (40 + (w64 contents.shoff).length) := rfl

theorem chunk_inFile {section_ : ElfSection} (inFile : section_ ∈ ElfSection.inFile) :
    (ElfSection.inFile.map contents.chunk)[ElfSection.inFile.idxOf section_]? =
      some (contents.chunk section_) := by
  have here : ElfSection.inFile[ElfSection.inFile.idxOf section_]? = some section_ := by
    revert inFile
    cases section_ <;> decide
  rw [List.getElem?_map, here, Option.map_some]

theorem fileOffset_inFile {section_ : ElfSection} (inFile : section_ ∈ ElfSection.inFile) :
    contents.laid.1[ElfSection.inFile.idxOf section_]? = some (contents.fileOffset section_) := by
  have length : contents.laid.1.length = ElfSection.inFile.length := by
    rw [laid, length_lay, List.length_map]
  have below : ElfSection.inFile.idxOf section_ < contents.laid.1.length := by
    rw [length]
    exact List.idxOf_lt_length_of_mem inFile
  rw [fileOffset, List.getD_eq_getElem?_getD, List.getElem?_eq_getElem below, Option.getD_some]

/-- The contents of a section stand at its offset, after the file header. -/
theorem laid_holds {section_ : ElfSection} (inFile : section_ ∈ ElfSection.inFile)
    (present : contents.input.hasSection section_ = true) :
    Holds contents.laid.2 (contents.fileOffset section_) (contents.bytes section_) ∧
      64 ≤ contents.fileOffset section_ := by
  have holds := lay_holds (chunk_inFile inFile) (@fileOffset_inFile contents _ inFile) present
  rw [length_fileHeader] at holds
  exact holds

theorem file_holds {section_ : ElfSection} (inFile : section_ ∈ ElfSection.inFile)
    (present : contents.input.hasSection section_ = true) :
    Holds contents.file (contents.fileOffset section_) (contents.bytes section_) := by
  obtain ⟨holds, start⟩ := laid_holds inFile present
  rw [file_eq]
  refine ((holds.append _).append _).overwrite ?_
  rw [w64, LittleEndian.length_bytes]
  omega

/-- Of two sections with contents, the one written first ends before the other. -/
theorem fileOffset_ordered {first second : ElfSection} (firstIn : first ∈ ElfSection.inFile)
    (secondIn : second ∈ ElfSection.inFile)
    (firstPresent : contents.input.hasSection first = true)
    (secondPresent : contents.input.hasSection second = true)
    (less : ElfSection.inFile.idxOf first < ElfSection.inFile.idxOf second) :
    contents.fileOffset first + (contents.bytes first).length ≤ contents.fileOffset second :=
  lay_ordered (chunk_inFile firstIn) (chunk_inFile secondIn) (fileOffset_inFile firstIn)
    (fileOffset_inFile secondIn) firstPresent secondPresent less

/-! ## The file header -/

/-- The fields of the file header after its first 16 bytes. -/
def headerFields (contents : ElfContents) : List (Nat × Nat) :=
  [(2, 1), (2, 62), (4, 1), (8, 0), (8, 0), (8, contents.shoff), (4, 0), (2, 64), (2, 56), (2, 0),
    (2, 64), (2, contents.numbers.count), (2, contents.numbers.shstrtab)]

/-- The first 16 bytes of the file. -/
def ident : List UInt8 := [0x7F, 0x45, 0x4C, 0x46, 2, 1, 1, 0] ++ List.replicate 8 0

theorem file_front : ∃ rest, contents.file = ident ++ fields contents.headerFields ++ rest := by
  obtain ⟨added, extended⟩ := @laid_extends contents
  let front := ident ++ w16 1 ++ w16 62 ++ w32 1 ++ w64 0 ++ w64 0
  let back := w32 0 ++ w16 64 ++ w16 56 ++ w16 0 ++ w16 64 ++ w16 contents.numbers.count ++
    w16 contents.numbers.shstrtab
  have length : front.length = 40 := by
    simp [front, ident, w16, w32, w64]
  have split : ∃ rest, contents.buffer ++ contents.headers.flatMap writeShdr =
      front ++ (w64 0 ++ (back ++ rest)) := by
    refine ⟨added ++ (List.replicate (padding 8 contents.laid.2.length) 0 ++
      contents.headers.flatMap writeShdr), ?_⟩
    rw [buffer, extended, fileHeader]
    simp only [front, back, ident, List.append_assoc]
  obtain ⟨rest, split⟩ := split
  refine ⟨rest, ?_⟩
  rw [file_eq, split, List.take_left' length, ← length, ← List.drop_drop, List.drop_left,
    List.drop_left' (by simp [w64])]
  simp only [front, back, headerFields, fields, List.flatMap_cons, List.flatMap_nil, w16, w32, w64,
    List.append_assoc, List.append_nil]

theorem file_holds_fields : Holds contents.file 16 (fields contents.headerFields) := by
  obtain ⟨rest, split⟩ := @file_front contents
  rw [split]
  exact Holds.middle ident _ rest

/-! ## Section headers -/

theorem writeShdr_eq (sh : ElfHeader) : writeShdr sh =
    fields [(4, sh.name), (4, sh.type), (8, sh.flags), (8, sh.addr), (8, sh.offset), (8, sh.size),
      (4, sh.link), (4, sh.info), (8, sh.addralign), (8, sh.entsize)] := by
  simp only [writeShdr, fields, List.flatMap_cons, List.flatMap_nil, w32, w64, List.append_assoc,
    List.append_nil]

theorem length_writeShdr (sh : ElfHeader) : (writeShdr sh).length = 64 := by
  rw [writeShdr_eq, length_fields]
  rfl

theorem length_file : contents.file.length = contents.shoff + contents.headers.length * 64 := by
  have start := @laid_le_shoff contents
  have least := @length_laid contents
  have length : (contents.buffer ++ contents.headers.flatMap writeShdr).length =
      contents.shoff + contents.headers.length * 64 := by
    rw [List.length_append, length_flatMap_uniform length_writeShdr, shoff]
  rw [file_eq]
  simp only [List.length_append, List.length_take, List.length_drop, w64,
    LittleEndian.length_bytes, length] at length ⊢
  omega

/-- The section headers stand at `e_shoff`. -/
theorem file_holds_header {index : Nat} {sh : ElfHeader} (isHeader : contents.headers[index]? = some sh) :
    Holds contents.file (contents.shoff + index * 64) (writeShdr sh) := by
  have start := @laid_le_shoff contents
  have least := @length_laid contents
  have table : Holds contents.file contents.shoff (contents.headers.flatMap writeShdr) := by
    rw [file_eq]
    refine (Holds.last _ _).overwrite ?_
    rw [w64, LittleEndian.length_bytes]
    change 40 + 8 ≤ contents.shoff
    omega
  exact table.record length_writeShdr isHeader

/-- The header that a reader finds. -/
def readBack (sh : ElfHeader) : Elf.Header :=
  ⟨sh.name, sh.type, sh.flags, sh.addr, sh.offset, sh.size, sh.link, sh.info, sh.addralign,
    sh.entsize⟩

/-- The fields of a header fit their widths. -/
structure HeaderFits (sh : ElfHeader) : Prop where
  name : sh.name < 256 ^ 4
  type : sh.type < 256 ^ 4
  flags : sh.flags < 256 ^ 8
  addr : sh.addr < 256 ^ 8
  offset : sh.offset < 256 ^ 8
  size : sh.size < 256 ^ 8
  link : sh.link < 256 ^ 4
  info : sh.info < 256 ^ 4
  addralign : sh.addralign < 256 ^ 8
  entsize : sh.entsize < 256 ^ 8

theorem readHeader_eq {file : List UInt8} {offset : Nat} {sh : ElfHeader}
    (holds : Holds file offset (writeShdr sh)) (fits : HeaderFits sh) :
    Elf.readHeader file offset = readBack sh := by
  rw [writeShdr_eq] at holds
  have field := fun {index width number} => @Holds.field _ _ _ holds index width number
  rw [Elf.readHeader, readBack, Elf.Header.mk.injEq]
  exact ⟨@field 0 _ _ rfl fits.name, @field 1 _ _ rfl fits.type, @field 2 _ _ rfl fits.flags,
    @field 3 _ _ rfl fits.addr, @field 4 _ _ rfl fits.offset, @field 5 _ _ rfl fits.size,
    @field 6 _ _ rfl fits.link, @field 7 _ _ rfl fits.info, @field 8 _ _ rfl fits.addralign,
    @field 9 _ _ rfl fits.entsize⟩

/-! ## Names -/

theorem elfNameOffsets_getElem? {size index : Nat} {names : List (List UInt8)}
    (inRange : index < names.length) :
    (elfNameOffsets size names)[index]? = some (size + (strings (names.take index)).length) := by
  induction names generalizing size index with
  | nil => contradiction
  | cons name names inductionHypothesis =>
      rw [elfNameOffsets]
      cases index with
      | zero => rfl
      | succ index =>
          rw [List.getElem?_cons_succ, inductionHypothesis (Nat.lt_of_succ_lt_succ inRange),
            List.take_succ_cons, strings, strings, List.flatMap_cons, List.length_append,
            List.length_append, List.length_singleton]
          exact congrArg some (by omega)

theorem length_elfNameOffsets (size : Nat) (names : List (List UInt8)) :
    (elfNameOffsets size names).length = names.length := by
  induction names generalizing size with
  | nil => rfl
  | cons name names inductionHypothesis =>
      rw [elfNameOffsets, List.length_cons, inductionHypothesis, List.length_cons]

theorem sections_nodup : contents.sections.Nodup :=
  List.Nodup.filter _ (by decide)

/-- Where the name of a section stands in `.shstrtab`. -/
def nameOffset (contents : ElfContents) (section_ : ElfSection) : Nat :=
  1 + (strings ((contents.sections.map ElfSection.name).take
    (contents.sections.idxOf section_))).length

/-- The headers after the null header, each with its name. -/
theorem headers_eq : contents.headers = ⟨0, 0, 0, 0, 0, 0, 0, 0, 0, 0⟩ ::
    contents.sections.map fun section_ =>
      { contents.header section_ with name := contents.nameOffset section_ } := by
  rw [headers, List.singleton_append]
  congr 1
  refine List.ext_getElem? fun index => ?_
  rw [List.getElem?_zipWith, List.getElem?_map]
  by_cases inRange : index < contents.sections.length
  · have element := List.getElem?_eq_getElem inRange
    rw [element, elfNameOffsets_getElem? (by rw [List.length_map]; exact inRange), Option.map_some,
      nameOffset, List.Nodup.idxOf_getElem sections_nodup]
  · have nothing := List.getElem?_eq_none (Nat.le_of_not_lt inRange)
    rw [nothing]
    rfl

theorem length_headers : contents.headers.length = contents.numbers.count := by
  rw [headers_eq, ← length_table, table]
  simp

end Nazm.Output.ElfContents
