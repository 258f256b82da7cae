import Nazm.Library.ByteFile
import Nazm.Output.DebugLine

/-!
The ELF64 writer.

Owns `src/output/elf64.c`: section numbers, the contents and their file
offsets, the symbol table, the RELA tables and the section headers. The buffer
is the list of the bytes written; what the source writes under a condition is a
chunk or a row that is present under that condition.

Does not own the reading of the object.
-/

namespace Nazm.Output

open ByteFile
open Nazm.Encoder Nazm.Symtable Nazm.Unicode Nazm.Passes

/-! ## Words -/

def w16 (v : Nat) : List UInt8 := LittleEndian.bytes 2 v

def w32 (v : Nat) : List UInt8 := LittleEndian.bytes 4 v

def w64 (v : Nat) : List UInt8 := LittleEndian.bytes 8 v

/-! ## Records -/

/-- The arguments of `write_shdr`. -/
structure ElfHeader where
  name : Nat
  type : Nat
  flags : Nat
  addr : Nat
  offset : Nat
  size : Nat
  link : Nat
  info : Nat
  addralign : Nat
  entsize : Nat
deriving DecidableEq

/-- `write_shdr`. -/
def writeShdr (sh : ElfHeader) : List UInt8 :=
  w32 sh.name ++ w32 sh.type ++ w64 sh.flags ++ w64 sh.addr ++ w64 sh.offset ++ w64 sh.size ++
    w32 sh.link ++ w32 sh.info ++ w64 sh.addralign ++ w64 sh.entsize

/-- The arguments of `write_sym`. -/
structure ElfSymbol where
  name : Nat
  info : Nat
  other : Nat
  shndx : Nat
  value : Nat
  size : Nat
deriving DecidableEq

/-- `write_sym`. -/
def writeSym (sym : ElfSymbol) : List UInt8 :=
  w32 sym.name ++ LittleEndian.bytes 1 sym.info ++ LittleEndian.bytes 1 sym.other ++
    w16 sym.shndx ++ w64 sym.value ++ w64 sym.size

/-- The arguments of `write_rela`. -/
structure ElfRela where
  offset : Nat
  symbolIndex : Nat
  type : Nat
  addend : Int
deriving DecidableEq

/-- `write_rela`: the type is the low half of `r_info`, the symbol the high half. -/
def writeRela (rela : ElfRela) : List UInt8 :=
  w64 rela.offset ++ (w32 rela.type ++ w32 rela.symbolIndex) ++
    LittleEndian.intBytes 8 rela.addend

/-! ## Section numbers -/

/-- `present ? next_section++ : 0`. -/
def nextSection (present : Bool) (next : Nat) : Nat × Nat :=
  if present then (next, next + 1) else (0, next)

/-- The `sh_` numbers of the sections. -/
structure ElfNumbers where
  text : Nat
  data : Nat
  readOnlyData : Nat
  bss : Nat
  debugLine : Nat
  symtab : Nat
  strtab : Nat
  shstrtab : Nat
  count : Nat

/-- `has_relocations_in_section`. -/
def hasRelocationsInSection (relocations : List Relocation) (section_ : RelocationSection) :
    Bool :=
  relocations.any fun relocation => decide (relocation.section_ = section_)

def elfNumbers (input : OutputInput) : ElfNumbers :=
  let (data, next) := nextSection input.hasData 2
  let (readOnlyData, next) := nextSection input.hasReadOnlyData next
  let (bss, next) := nextSection input.hasBss next
  let (_, next) := nextSection (hasRelocationsInSection input.relocations .text) next
  let (_, next) := nextSection (hasRelocationsInSection input.relocations .data) next
  let (_, next) := nextSection (hasRelocationsInSection input.relocations .readOnlyData) next
  let (debugLine, next) := nextSection input.hasDebug next
  let (_, next) := nextSection input.hasDebug next
  ⟨1, data, readOnlyData, bss, debugLine, next, next + 1, next + 2, next + 4⟩

/-- `symbol_section_index`. -/
def symbolSectionIndex (numbers : ElfNumbers) : Option SymbolSection → Nat
  | none => 0
  | some .data => if 0 < numbers.data then numbers.data else numbers.text
  | some .readOnlyData =>
      if 0 < numbers.readOnlyData then numbers.readOnlyData else numbers.text
  | some .bss => if 0 < numbers.bss then numbers.bss else numbers.text
  | some .text => numbers.text

/-! ## Tables -/

def symbolNames (symbols : OutputSymbolList) : List (List UInt8) :=
  symbols.data.map fun symbol => symbol.name

/-- The `name_offset` of each symbol: strings are added one by one. -/
def elfNameOffsets : Nat → List (List UInt8) → List Nat
  | _, [] => []
  | size, name :: names => size :: elfNameOffsets (size + name.length + 1) names

/-- The entry of a symbol. -/
def elfSymbol (numbers : ElfNumbers) (symbol : OutputSymbol) (nameOffset : Nat) : ElfSymbol :=
  ⟨nameOffset, (if symbol.binding = .global then 1 else 0) <<< 4, 0,
    symbolSectionIndex numbers symbol.section_, (symbol.offset % 2 ^ 64).toNat, 0⟩

/-- The symbol table: entry zero, the symbol of `.text` for the line table, and
the symbols. -/
def elfSymbols (input : OutputInput) (numbers : ElfNumbers) (symbols : OutputSymbolList) :
    List ElfSymbol :=
  [⟨0, 0, 0, 0, 0, 0⟩] ++ (if input.hasDebug then [⟨0, 3, 0, numbers.text, 0, 0⟩] else []) ++
    symbols.data.zipWith (elfSymbol numbers) (elfNameOffsets 1 (symbolNames symbols))

/-- `elf_relocation_type`. -/
def elfRelocationType : RelocationKind → Nat
  | .abs64 => 1
  | .pc32 => 2

/-- `symbol_index_bias`. -/
def symbolIndexBias (input : OutputInput) : Nat := if input.hasDebug then 1 else 0

/-- The RELA entries of a section; `none` where a symbol is missing. -/
def elfRelas (input : OutputInput) (symbols : OutputSymbolList) (section_ : RelocationSection) :
    Option (List ElfRela) :=
  (relocationsIn input.relocations section_).mapM fun relocation =>
    (outputSymbolsFindIndex symbols relocation.symbol).map fun symbolIndex =>
      ⟨relocation.offset, symbolIndex + symbolIndexBias input, elfRelocationType relocation.kind,
        relocation.addend⟩

/-! ## Sections -/

/-- The sections, in the order of their headers. -/
inductive ElfSection where
  | text | data | readOnlyData | bss
  | relaText | relaData | relaReadOnlyData
  | debugLine | relaDebugLine
  | symtab | strtab | shstrtab | noteGnuStack
deriving DecidableEq, Repr

namespace ElfSection

def all : List ElfSection :=
  [.text, .data, .readOnlyData, .bss, .relaText, .relaData, .relaReadOnlyData, .debugLine,
    .relaDebugLine, .symtab, .strtab, .shstrtab, .noteGnuStack]

def name : ElfSection → List UInt8
  | .text => utf8 ".text"
  | .data => utf8 ".data"
  | .readOnlyData => utf8 ".rodata"
  | .bss => utf8 ".bss"
  | .relaText => utf8 ".rela.text"
  | .relaData => utf8 ".rela.data"
  | .relaReadOnlyData => utf8 ".rela.rodata"
  | .debugLine => utf8 ".debug_line"
  | .relaDebugLine => utf8 ".rela.debug_line"
  | .symtab => utf8 ".symtab"
  | .strtab => utf8 ".strtab"
  | .shstrtab => utf8 ".shstrtab"
  | .noteGnuStack => utf8 ".note.GNU-stack"

/-- The sections with contents, in the order in which these are written. -/
def inFile : List ElfSection :=
  [.text, .data, .readOnlyData, .debugLine, .symtab, .relaText, .relaData, .relaReadOnlyData,
    .relaDebugLine, .strtab, .shstrtab]

/-- What `align_outbuf` is called with before the contents; 1 where it is not called. -/
def fileAlignment : ElfSection → Nat
  | .text | .debugLine | .strtab | .shstrtab => 1
  | _ => 8

end ElfSection

/-- `has_data`, `has_read_only_data` and so on. -/
def OutputInput.hasSection (input : OutputInput) : ElfSection → Bool
  | .text | .symtab | .strtab | .shstrtab | .noteGnuStack => true
  | .data => input.hasData
  | .readOnlyData => input.hasReadOnlyData
  | .bss => input.hasBss
  | .relaText => hasRelocationsInSection input.relocations .text
  | .relaData => hasRelocationsInSection input.relocations .data
  | .relaReadOnlyData => hasRelocationsInSection input.relocations .readOnlyData
  | .debugLine | .relaDebugLine => input.hasDebug

/-- What the file is put together from. -/
structure ElfContents where
  input : OutputInput
  symbols : OutputSymbolList
  debugLine : DwarfLineSection
  relaText : List ElfRela
  relaData : List ElfRela
  relaReadOnlyData : List ElfRela

namespace ElfContents

variable (contents : ElfContents)

def numbers : ElfNumbers := elfNumbers contents.input

/-- The sections of this object, in the order of their headers. -/
def sections : List ElfSection := ElfSection.all.filter contents.input.hasSection

/-- The relocation of the address in the line table, against `.text`. -/
def relaDebugLine : List ElfRela := [⟨contents.debugLine.addressRelocationOffset, 1, 1, 0⟩]

/-- The contents of a section. -/
def bytes : ElfSection → List UInt8
  | .text => contents.input.textBytes
  | .data => contents.input.dataBytes
  | .readOnlyData => contents.input.readOnlyDataBytes
  | .debugLine => contents.debugLine.data
  | .symtab => (elfSymbols contents.input contents.numbers contents.symbols).flatMap writeSym
  | .relaText => contents.relaText.flatMap writeRela
  | .relaData => contents.relaData.flatMap writeRela
  | .relaReadOnlyData => contents.relaReadOnlyData.flatMap writeRela
  | .relaDebugLine => contents.relaDebugLine.flatMap writeRela
  | .strtab => [0] ++ strings (symbolNames contents.symbols)
  | .shstrtab => [0] ++ strings (contents.sections.map ElfSection.name)
  | .bss | .noteGnuStack => []

def chunk (section_ : ElfSection) : Chunk :=
  ⟨contents.input.hasSection section_, section_.fileAlignment, contents.bytes section_⟩

/-- `ehdr`, with `e_shoff` still zero. -/
def fileHeader : List UInt8 :=
  [0x7F, 0x45, 0x4C, 0x46, 2, 1, 1, 0] ++ List.replicate 8 0 ++ w16 1 ++ w16 62 ++ w32 1 ++
    w64 0 ++ w64 0 ++ w64 0 ++ w32 0 ++ w16 64 ++ w16 56 ++ w16 0 ++ w16 64 ++
    w16 contents.numbers.count ++ w16 contents.numbers.shstrtab

/-- The file header and the contents, with the offset of each. -/
def laid : List Nat × List UInt8 :=
  lay (ElfSection.inFile.map contents.chunk) contents.fileHeader

/-- `text_off`, `data_off` and so on. -/
def fileOffset (section_ : ElfSection) : Nat :=
  contents.laid.1.getD (ElfSection.inFile.idxOf section_) 0

/-- The buffer before the section headers. -/
def buffer : List UInt8 :=
  contents.laid.2 ++ List.replicate (padding 8 contents.laid.2.length) 0

/-- `shoff`. -/
def shoff : Nat := contents.buffer.length

end ElfContents

/-- `data_section_alignment`. -/
def dataSectionAlignment (requested : Nat) : Nat := if 8 < requested then requested else 8

namespace ElfContents

variable (contents : ElfContents)

def relaHeader (section_ : ElfSection) (relas : List ElfRela) (target : Nat) : ElfHeader :=
  ⟨0, 4, 0, 0, contents.fileOffset section_, relas.length * 24, contents.numbers.symtab, target, 8,
    24⟩

/-- The header of a section, less its name. The header of `.bss` takes the size
of the buffer at that point as its offset. -/
def header : ElfSection → ElfHeader
  | .text =>
      ⟨0, 1, 2 ||| 4, 0, contents.fileOffset .text, contents.input.textBytes.length, 0, 0, 16, 0⟩
  | .data =>
      ⟨0, 1, 2 ||| 1, 0, contents.fileOffset .data, contents.input.dataBytes.length, 0, 0,
        dataSectionAlignment contents.input.dataAlignment, 0⟩
  | .readOnlyData =>
      ⟨0, 1, 2, 0, contents.fileOffset .readOnlyData, contents.input.readOnlyDataBytes.length, 0, 0,
        dataSectionAlignment contents.input.readOnlyDataAlignment, 0⟩
  | .bss =>
      ⟨0, 8, 2 ||| 1, 0, contents.shoff + contents.numbers.bss * 64, contents.input.bssSize, 0, 0,
        dataSectionAlignment contents.input.bssAlignment, 0⟩
  | .relaText => contents.relaHeader .relaText contents.relaText contents.numbers.text
  | .relaData => contents.relaHeader .relaData contents.relaData contents.numbers.data
  | .relaReadOnlyData =>
      contents.relaHeader .relaReadOnlyData contents.relaReadOnlyData contents.numbers.readOnlyData
  | .debugLine =>
      ⟨0, 1, 0, 0, contents.fileOffset .debugLine, contents.debugLine.data.length, 0, 0, 1, 0⟩
  | .relaDebugLine =>
      contents.relaHeader .relaDebugLine contents.relaDebugLine contents.numbers.debugLine
  | .symtab =>
      ⟨0, 2, 0, 0, contents.fileOffset .symtab, (contents.bytes .symtab).length,
        contents.numbers.strtab,
        contents.symbols.localCount + 1 + (if contents.input.hasDebug then 1 else 0), 8, 24⟩
  | .strtab => ⟨0, 3, 0, 0, contents.fileOffset .strtab, (contents.bytes .strtab).length, 0, 0, 1, 0⟩
  | .shstrtab =>
      ⟨0, 3, 0, 0, contents.fileOffset .shstrtab, (contents.bytes .shstrtab).length, 0, 0, 1, 0⟩
  | .noteGnuStack => ⟨0, 1, 0, 0, contents.laid.2.length, 0, 0, 0, 1, 0⟩

/-- The section headers, after the null header. -/
def headers : List ElfHeader :=
  [⟨0, 0, 0, 0, 0, 0, 0, 0, 0, 0⟩] ++
    contents.sections.zipWith
      (fun section_ nameOffset => { contents.header section_ with name := nameOffset })
      (elfNameOffsets 1 (contents.sections.map ElfSection.name))

/-- `outbuf_patch`. -/
def outbufPatch (buffer : List UInt8) (offset : Nat) (src : List UInt8) : List UInt8 :=
  buffer.take offset ++ src ++ buffer.drop (offset + src.length)

/-- The object, with `e_shoff` written last. -/
def file : List UInt8 :=
  outbufPatch (contents.buffer ++ contents.headers.flatMap writeShdr) 40 (w64 contents.shoff)

end ElfContents

/-! ## The writer -/

/-- The symbols that `output_write_elf64` goes on with, or its error. -/
def elfOutputSymbols (input : OutputInput) : Except (List UInt8) OutputSymbolList :=
  match outputSymbolsCollect input.symtable with
  | none => .error (utf8 "عدد الرموز يتجاوز حد صيغة إلف64")
  | some symbols =>
      if !namesFitStrtab 1 (symbolNames symbols) then
        .error (utf8 "جدول أسماء الرموز يتجاوز حد صيغة إلف64")
      else if !relocationsHaveSymbols input.relocations symbols then
        .error (utf8 "قيد ترحيل إلف64 يشير إلى رمز غير موجود")
      else .ok symbols

/-- The line table, where there are rows. -/
def elfDebugLine (input : OutputInput) : Except (List UInt8) DwarfLineSection :=
  if input.hasDebug then
    outputBuildDwarfLine input.debugFiles input.debugLines input.textBytes.length
  else .ok ⟨[], 0⟩

/-- `output_write_elf64`. -/
def outputWriteElf64 (input : OutputInput) : Except (List UInt8) (List UInt8) :=
  match elfDebugLine input with
  | .error message => .error message
  | .ok debugLine =>
      match elfOutputSymbols input with
      | .error message => .error message
      | .ok symbols =>
          match elfRelas input symbols .text, elfRelas input symbols .data,
            elfRelas input symbols .readOnlyData with
          | some relaText, some relaData, some relaReadOnlyData =>
              .ok (ElfContents.mk input symbols debugLine relaText relaData relaReadOnlyData).file
          | _, _, _ => .error (utf8 "قيد ترحيل إلف64 يشير إلى رمز غير موجود")

end Nazm.Output
