import Nazm.Output.Elf64

/-!
The COFF writer.

Owns `src/output/coff.c`: section numbers, the string table, the file pointers
that are computed ahead of the parts they point at, the section headers, the
relocations and the symbols, and the parts in the order in which they are
written. A `uint32_t` of the source is a `UInt32`, so that casts and additions
wrap as they do there.

Does not own the reading of the object.
-/

namespace Nazm.Output

open ByteFile
open Nazm.Encoder Nazm.Symtable Nazm.Unicode Nazm.Passes

/-! ## Records -/

/-- The arguments of `write_shdr`. -/
structure CoffHeader where
  name : List UInt8
  rawSize : UInt32
  rawPtr : UInt32
  relocPtr : UInt32
  relocCount : UInt32
  characteristics : UInt32
deriving DecidableEq

/-- `write_shdr`: the name takes eight bytes, the virtual size and address are zero. -/
def CoffHeader.write (sh : CoffHeader) : List UInt8 :=
  sh.name ++ List.replicate (8 - sh.name.length) 0 ++ w32 0 ++ w32 0 ++ w32 sh.rawSize.toNat ++
    w32 sh.rawPtr.toNat ++ w32 sh.relocPtr.toNat ++ w32 0 ++ w16 sh.relocCount.toNat ++ w16 0 ++
    w32 sh.characteristics.toNat

/-- The arguments of `write_sym`, but the type, which is always null. -/
structure CoffSym where
  name : List UInt8
  strtabOff : UInt32
  value : UInt32
  section_ : Int
  storage : UInt8
deriving DecidableEq

/-- The name field of `write_sym`. -/
def CoffSym.nameField (sym : CoffSym) : List UInt8 :=
  if sym.name.length ≤ 8 then sym.name ++ List.replicate (8 - sym.name.length) 0
  else w32 0 ++ w32 sym.strtabOff.toNat

/-- `write_sym`. -/
def CoffSym.write (sym : CoffSym) : List UInt8 :=
  sym.nameField ++ w32 sym.value.toNat ++ LittleEndian.intBytes 2 sym.section_ ++ w16 0 ++
    [sym.storage] ++ [0]

/-- The arguments of `write_reloc`. -/
structure CoffReloc where
  offset : UInt32
  symbolIndex : UInt32
  type : Nat
deriving DecidableEq

/-- `write_reloc`. -/
def CoffReloc.write (reloc : CoffReloc) : List UInt8 :=
  w32 reloc.offset.toNat ++ w32 reloc.symbolIndex.toNat ++ w16 reloc.type

/-! ## Sections -/

/-- The sections, in the order of their headers. -/
inductive CoffSection where
  | text | data | readOnlyData | bss | debug
deriving DecidableEq, Repr

namespace CoffSection

def all : List CoffSection := [.text, .data, .readOnlyData, .bss, .debug]

/-- The name field of the header, less its zeros at the end. -/
def name : CoffSection → List UInt8
  | .text => utf8 ".text"
  | .data => utf8 ".data"
  | .readOnlyData => utf8 ".rdata"
  | .bss => utf8 ".bss"
  | .debug => utf8 ".debug$S"

end CoffSection

def OutputInput.hasCoffSection (input : OutputInput) : CoffSection → Bool
  | .text => true
  | .data => input.hasData
  | .readOnlyData => input.hasReadOnlyData
  | .bss => input.hasBss
  | .debug => input.hasDebug

/-- `data_section`, `read_only_data_section` and `bss_section`. -/
structure CoffNumbers where
  data : Nat
  readOnlyData : Nat
  bss : Nat

def coffNumbers (input : OutputInput) : CoffNumbers :=
  let (data, next) := nextSection input.hasData 2
  let (readOnlyData, next) := nextSection input.hasReadOnlyData next
  let (bss, _) := nextSection input.hasBss next
  ⟨data, readOnlyData, bss⟩

/-- `nsections`. -/
def coffSectionCount (input : OutputInput) : Nat :=
  1 + (if input.hasData then 1 else 0) + (if input.hasReadOnlyData then 1 else 0) +
    (if input.hasBss then 1 else 0) + (if input.hasDebug then 1 else 0)

/-- `coff_section_number`. -/
def coffSectionNumber (numbers : CoffNumbers) : Option SymbolSection → Nat
  | none => 0
  | some .data => if 0 < numbers.data then numbers.data else 1
  | some .readOnlyData => if 0 < numbers.readOnlyData then numbers.readOnlyData else 1
  | some .bss => if 0 < numbers.bss then numbers.bss else 1
  | some .text => 1

/-- The loop of `coff_data_alignment_flag`: at most 13 turns. -/
def coffAlignmentExponent (requested : Nat) : Nat → Nat → Nat
  | 0, exponent => exponent
  | fuel + 1, exponent =>
      if 1 <<< exponent < requested ∧ exponent < 13 then
        coffAlignmentExponent requested fuel (exponent + 1)
      else exponent

/-- `coff_data_alignment_flag`. -/
def coffDataAlignmentFlag (requested : Nat) : UInt32 :=
  (UInt32.ofNat (coffAlignmentExponent requested 14 0) + 1) <<< 20

/-- `coff_relocation_type`. -/
def coffRelocationType : RelocationKind → Nat
  | .abs64 => 0x0001
  | .pc32 => 0x0004

/-! ## Names -/

/-- `fname`. -/
def coffFileName (input : OutputInput) : List UInt8 := input.sourceName.getD (utf8 "unknown")

/-- The names that go to the string table. -/
def coffLongNames (names : List (List UInt8)) : List (List UInt8) :=
  names.filter fun name => decide (8 < name.length)

/-- What `strtab_add` returns for each long name; zero for the others. -/
def coffNameOffsets : Nat → List (List UInt8) → List UInt32
  | _, [] => []
  | size, name :: names =>
      if 8 < name.length then
        UInt32.ofNat size :: coffNameOffsets (size + name.length + 1) names
      else 0 :: coffNameOffsets size names

/-- The finished `Strtab`. -/
def coffStrtab (names : List (List UInt8)) : List UInt8 :=
  w32 (UInt32.ofNat (4 + (strings (coffLongNames names)).length)).toNat ++
    strings (coffLongNames names)

/-! ## File pointers -/

/-- The pointers that are computed before anything is written. -/
structure CoffLayout where
  textRawPtr : UInt32
  dataRawPtr : UInt32
  readOnlyDataRawPtr : UInt32
  debugRawPtr : UInt32
  textRelocPtr : UInt32
  dataRelocPtr : UInt32
  readOnlyDataRelocPtr : UInt32
  debugRelocPtr : UInt32
  symtabPtr : UInt32

/-- `count_relocations_in_section`. -/
def countRelocationsInSection (relocations : List Relocation) (section_ : RelocationSection) :
    Nat :=
  relocations.countP fun relocation => decide (relocation.section_ = section_)

def coffLayout (input : OutputInput) (debugSize : Nat) : CoffLayout :=
  let textRelocCount := UInt32.ofNat (countRelocationsInSection input.relocations .text)
  let dataRelocCount := UInt32.ofNat (countRelocationsInSection input.relocations .data)
  let readOnlyDataRelocCount :=
    UInt32.ofNat (countRelocationsInSection input.relocations .readOnlyData)
  let hdrSize : UInt32 := 20
  let shdrsSize := UInt32.ofNat (coffSectionCount input * 40)
  let textRawPtr := hdrSize + shdrsSize
  let rawCursor := textRawPtr + UInt32.ofNat input.textBytes.length
  let dataRawPtr := if input.hasData then rawCursor else 0
  let rawCursor :=
    if input.hasData then rawCursor + UInt32.ofNat input.dataBytes.length else rawCursor
  let readOnlyDataRawPtr := if input.hasReadOnlyData then rawCursor else 0
  let rawCursor :=
    if input.hasReadOnlyData then rawCursor + UInt32.ofNat input.readOnlyDataBytes.length
    else rawCursor
  let debugRawPtr := if input.hasDebug then rawCursor else 0
  let rawCursor := if input.hasDebug then rawCursor + UInt32.ofNat debugSize else rawCursor
  let afterRaw := rawCursor
  let textRelocPtr := if 0 < textRelocCount then afterRaw else 0
  let dataRelocPtr := if 0 < dataRelocCount then afterRaw + textRelocCount * 10 else 0
  let readOnlyDataRelocPtr :=
    if 0 < readOnlyDataRelocCount then afterRaw + (textRelocCount + dataRelocCount) * 10 else 0
  let debugRelocPtr :=
    if input.hasDebug then
      afterRaw + (textRelocCount + dataRelocCount + readOnlyDataRelocCount) * 10
    else 0
  let afterRelocs := afterRaw +
    (textRelocCount + dataRelocCount + readOnlyDataRelocCount +
      (if input.hasDebug then 2 else 0)) * 10
  ⟨textRawPtr, dataRawPtr, readOnlyDataRawPtr, debugRawPtr, textRelocPtr, dataRelocPtr,
    readOnlyDataRelocPtr, debugRelocPtr, afterRelocs⟩

/-! ## Contents -/

/-- The parts of the file, in the order in which they are written. -/
inductive CoffPart where
  | fileHeader | sectionHeaders
  | text | data | readOnlyData | debug
  | textRelocs | dataRelocs | readOnlyDataRelocs | debugRelocs
  | symtab | strtab
deriving DecidableEq, Repr

def CoffPart.all : List CoffPart :=
  [.fileHeader, .sectionHeaders, .text, .data, .readOnlyData, .debug, .textRelocs, .dataRelocs,
    .readOnlyDataRelocs, .debugRelocs, .symtab, .strtab]

/-- What the file is put together from. -/
structure CoffContents where
  input : OutputInput
  symbols : OutputSymbolList
  debugLine : CodeViewLineSection
  textRelocs : List CoffReloc
  dataRelocs : List CoffReloc
  readOnlyDataRelocs : List CoffReloc

namespace CoffContents

variable (contents : CoffContents)

def layout : CoffLayout := coffLayout contents.input contents.debugLine.data.length

/-- The sections of this object, in the order of their headers. -/
def sections : List CoffSection := CoffSection.all.filter contents.input.hasCoffSection

/-- The name of the source, and the names of the symbols. -/
def names : List (List UInt8) := coffFileName contents.input :: symbolNames contents.symbols

/-- `write_sym` for a symbol of the list. -/
def symbol (symbol : OutputSymbol) (nameOffset : UInt32) : CoffSym :=
  ⟨symbol.name, nameOffset, UInt32.ofInt symbol.offset,
    coffSectionNumber (coffNumbers contents.input) symbol.section_,
    if symbol.binding = .global then 2 else 3⟩

/-- The symbol table: the name of the source, the symbols, and the symbol of
`.text` for the line table. -/
def symtab : List CoffSym :=
  [⟨coffFileName contents.input, (coffNameOffsets 4 contents.names).headD 0, 0, -2, 3⟩] ++
    contents.symbols.data.zipWith contents.symbol (coffNameOffsets 4 contents.names).tail ++
    (if contents.input.hasDebug then [⟨utf8 ".text", 0, 0, 1, 3⟩] else [])

/-- `total_symbols`. -/
def totalSymbols : UInt32 :=
  UInt32.ofNat (1 + contents.symbols.data.length + (if contents.input.hasDebug then 1 else 0))

/-- The relocations of the line table, against the symbol of `.text`. -/
def debugRelocs : List CoffReloc :=
  let textSectionSymbolIndex := UInt32.ofNat (1 + contents.symbols.data.length)
  if contents.input.hasDebug then
    [⟨UInt32.ofNat contents.debugLine.sectionOffsetRelocation, textSectionSymbolIndex, 0x000B⟩,
      ⟨UInt32.ofNat contents.debugLine.sectionIndexRelocation, textSectionSymbolIndex, 0x000A⟩]
  else []

/-- The header of a section. -/
def header : CoffSection → CoffHeader
  | .text =>
      ⟨CoffSection.text.name, UInt32.ofNat contents.input.textBytes.length,
        contents.layout.textRawPtr, contents.layout.textRelocPtr,
        UInt32.ofNat (countRelocationsInSection contents.input.relocations .text),
        0x00000020 ||| 0x20000000 ||| 0x40000000 ||| 0x00500000⟩
  | .data =>
      ⟨CoffSection.data.name, UInt32.ofNat contents.input.dataBytes.length,
        contents.layout.dataRawPtr, contents.layout.dataRelocPtr,
        UInt32.ofNat (countRelocationsInSection contents.input.relocations .data),
        0x00000040 ||| 0x40000000 ||| 0x80000000 |||
          coffDataAlignmentFlag contents.input.dataAlignment⟩
  | .readOnlyData =>
      ⟨CoffSection.readOnlyData.name, UInt32.ofNat contents.input.readOnlyDataBytes.length,
        contents.layout.readOnlyDataRawPtr, contents.layout.readOnlyDataRelocPtr,
        UInt32.ofNat (countRelocationsInSection contents.input.relocations .readOnlyData),
        0x00000040 ||| 0x40000000 |||
          coffDataAlignmentFlag contents.input.readOnlyDataAlignment⟩
  | .bss =>
      ⟨CoffSection.bss.name, UInt32.ofNat contents.input.bssSize, 0, 0, 0,
        0x00000080 ||| 0x40000000 ||| 0x80000000 |||
          coffDataAlignmentFlag contents.input.bssAlignment⟩
  | .debug =>
      ⟨CoffSection.debug.name, UInt32.ofNat contents.debugLine.data.length,
        contents.layout.debugRawPtr, contents.layout.debugRelocPtr, 2,
        0x00000040 ||| 0x02000000 ||| 0x40000000 ||| 0x00100000⟩

/-- `hdr`. -/
def fileHeader : List UInt8 :=
  w16 0x8664 ++ w16 (coffSectionCount contents.input) ++ w32 0 ++
    w32 contents.layout.symtabPtr.toNat ++ w32 contents.totalSymbols.toNat ++ w16 0 ++ w16 0

/-- What is written for a part; nothing where there is none. -/
def part : CoffPart → List UInt8
  | .fileHeader => contents.fileHeader
  | .sectionHeaders => (contents.sections.map contents.header).flatMap CoffHeader.write
  | .text => contents.input.textBytes
  | .data => contents.input.dataBytes
  | .readOnlyData => contents.input.readOnlyDataBytes
  | .debug => if contents.input.hasDebug then contents.debugLine.data else []
  | .textRelocs => contents.textRelocs.flatMap CoffReloc.write
  | .dataRelocs => contents.dataRelocs.flatMap CoffReloc.write
  | .readOnlyDataRelocs => contents.readOnlyDataRelocs.flatMap CoffReloc.write
  | .debugRelocs => contents.debugRelocs.flatMap CoffReloc.write
  | .symtab => contents.symtab.flatMap CoffSym.write
  | .strtab => coffStrtab contents.names

/-- The object. -/
def file : List UInt8 := CoffPart.all.flatMap contents.part

end CoffContents

/-! ## The writer -/

/-- The line table, where there are rows. -/
def coffDebugLine (input : OutputInput) : Except (List UInt8) CodeViewLineSection :=
  if input.hasDebug then
    outputBuildCodeviewLine input.debugFiles input.debugLines input.textBytes.length
  else .ok ⟨[], 0, 0⟩

/-- The most relocations that the header of a section counts. -/
def uint16Max : Nat := 65535

/-- The checks of the relocation counts, section by section. -/
def coffRelocationCounts (relocations : List Relocation) : Except (List UInt8) Unit :=
  if uint16Max < countRelocationsInSection relocations .text then
    .error (utf8 "عدد قيود ترحيل قسم النص يتجاوز حد صيغة كوف")
  else if uint16Max < countRelocationsInSection relocations .data then
    .error (utf8 "عدد قيود ترحيل قسم البيانات يتجاوز حد صيغة كوف")
  else if uint16Max < countRelocationsInSection relocations .readOnlyData then
    .error (utf8 "عدد قيود ترحيل قسم القراءة يتجاوز حد صيغة كوف")
  else .ok ()

/-- The symbols that `output_write_coff` goes on with, or its error. -/
def coffOutputSymbols (input : OutputInput) : Except (List UInt8) OutputSymbolList :=
  match outputSymbolsCollect input.symtable with
  | none => .error (utf8 "عدد الرموز يتجاوز حد صيغة كوف")
  | some symbols =>
      if !namesFitStrtab 4 (coffLongNames (coffFileName input :: symbolNames symbols)) then
        .error (utf8 "جدول أسماء الرموز يتجاوز حد صيغة كوف")
      else if !relocationsHaveSymbols input.relocations symbols then
        .error (utf8 "قيد ترحيل كوف يشير إلى رمز غير موجود")
      else
        match coffRelocationCounts input.relocations with
        | .error message => .error message
        | .ok () =>
            if input.hasDebug ∧ uint32Max - 2 < symbols.data.length then
              .error (utf8 "عدد رموز كوف مع معلومات التنقيح يتجاوز حد الصيغة")
            else .ok symbols

/-- The relocations of a section; `none` where a symbol is missing. -/
def coffRelocs (input : OutputInput) (symbols : OutputSymbolList) (section_ : RelocationSection) :
    Option (List CoffReloc) :=
  (relocationsIn input.relocations section_).mapM fun relocation =>
    (outputSymbolsFindIndex symbols relocation.symbol).map fun symbolIndex =>
      ⟨UInt32.ofNat relocation.offset, UInt32.ofNat symbolIndex,
        coffRelocationType relocation.kind⟩

/-- What `output_write_coff` puts into the file, or its error. -/
def coffContents (input : OutputInput) : Except (List UInt8) CoffContents :=
  match coffDebugLine input with
  | .error message => .error message
  | .ok debugLine =>
      match coffOutputSymbols input with
      | .error message => .error message
      | .ok symbols =>
          match coffRelocs input symbols .text, coffRelocs input symbols .data,
            coffRelocs input symbols .readOnlyData with
          | some textRelocs, some dataRelocs, some readOnlyDataRelocs =>
              .ok ⟨input, symbols, debugLine, textRelocs, dataRelocs, readOnlyDataRelocs⟩
          | _, _, _ => .error (utf8 "قيد ترحيل كوف يشير إلى رمز غير موجود")

/-- `output_write_coff`. -/
def outputWriteCoff (input : OutputInput) : Except (List UInt8) (List UInt8) :=
  (coffContents input).map CoffContents.file

end Nazm.Output
