import Nazm.Library.ByteFile

/-!
A reference reader of ELF64 relocatable objects.

Owns the section headers, names and contents of an object, its symbol table and
its RELA tables, and the checks that make a reader give up: the file header, the
range of each section in the file, the kind of each linked section, entry sizes,
names that end in their string table, locals before globals, and indices in
range.

Does not own how an object comes about.
-/

namespace Nazm.Elf

open FieldEdits ByteFile

/-! ## Sections -/

/-- `Elf64_Shdr`. -/
structure Header where
  name : Nat
  type : Nat
  flags : Nat
  address : Nat
  offset : Nat
  size : Nat
  link : Nat
  info : Nat
  alignment : Nat
  entrySize : Nat
deriving DecidableEq, Repr

def shtNull : Nat := 0
def shtSymtab : Nat := 2
def shtStrtab : Nat := 3
def shtRela : Nat := 4
def shtNobits : Nat := 8

def readHeader (file : List UInt8) (offset : Nat) : Header :=
  ⟨word file offset 4, word file (offset + 4) 4, word file (offset + 8) 8,
    word file (offset + 16) 8, word file (offset + 24) 8, word file (offset + 32) 8,
    word file (offset + 40) 4, word file (offset + 44) 4, word file (offset + 48) 8,
    word file (offset + 56) 8⟩

/-- A section that takes bytes of the file. -/
def Header.InFile (header : Header) : Prop := header.type ≠ shtNull ∧ header.type ≠ shtNobits

instance (header : Header) : Decidable header.InFile := inferInstanceAs (Decidable (_ ∧ _))

structure Section where
  header : Header
  name : List UInt8
  bytes : List UInt8
deriving DecidableEq, Repr

def sectionBytes (file : List UInt8) (header : Header) : List UInt8 :=
  if header.InFile then slice file header.offset header.size else []

/-- A 64-bit little-endian x86-64 relocatable object with headers of the usual sizes. -/
def hasFileHeader (file : List UInt8) : Bool :=
  decide (64 ≤ file.length) && decide (file.take 7 = [0x7F, 0x45, 0x4C, 0x46, 2, 1, 1]) &&
    decide (word file 16 2 = 1) && decide (word file 18 2 = 62) && decide (word file 20 4 = 1) &&
    decide (word file 52 2 = 64) && decide (word file 58 2 = 64)

def readHeaders (file : List UInt8) : List Header :=
  (List.range (word file 60 2)).map fun index => readHeader file (word file 40 8 + index * 64)

/-- The sections, where every range is in the file and every name ends. -/
def readSections (file : List UInt8) : Option (List Section) :=
  let headers := readHeaders file
  if word file 40 8 + headers.length * 64 ≤ file.length ∧
      ∀ header ∈ headers, header.InFile → header.offset + header.size ≤ file.length then
    match headers[word file 62 2]? with
    | some names =>
        if names.type = shtStrtab then
          headers.mapM fun header =>
            (stringAt (sectionBytes file names) header.name).map fun name =>
              ⟨header, name, sectionBytes file header⟩
        else none
    | none => none
  else none

/-! ## Symbols -/

structure Symbol where
  name : List UInt8
  binding : Nat
  type : Nat
  sectionIndex : Nat
  value : Nat
  size : Nat
deriving DecidableEq, Repr

/-- `Elf64_Sym` at an index of its table. -/
def readSymbol (table names : List UInt8) (index : Nat) : Option Symbol :=
  (stringAt names (word table (index * 24) 4)).map fun name =>
    ⟨name, word table (index * 24 + 4) 1 / 16, word table (index * 24 + 4) 1 % 16,
      word table (index * 24 + 6) 2, word table (index * 24 + 8) 8, word table (index * 24 + 16) 8⟩

/-- Local symbols before `info`, the others from it on. -/
def LocalsFirst (info : Nat) (symbols : List Symbol) : Prop :=
  (∀ symbol ∈ symbols.take info, symbol.binding = 0) ∧
    ∀ symbol ∈ symbols.drop info, symbol.binding ≠ 0

instance (info : Nat) (symbols : List Symbol) : Decidable (LocalsFirst info symbols) :=
  inferInstanceAs (Decidable (_ ∧ _))

def readSymbols (sections : List Section) (symtab : Section) : Option (List Symbol) :=
  match sections[symtab.header.link]? with
  | some names =>
      if names.header.type = shtStrtab ∧ symtab.header.entrySize = 24 ∧
          symtab.bytes.length % 24 = 0 then
        match (List.range (symtab.bytes.length / 24)).mapM
          (readSymbol symtab.bytes names.bytes) with
        | some symbols =>
            if symtab.header.info ≤ symbols.length ∧ LocalsFirst symtab.header.info symbols ∧
                ∀ symbol ∈ symbols, symbol.sectionIndex < sections.length then some symbols
            else none
        | none => none
      else none
  | none => none

/-! ## Relocations -/

structure Rela where
  offset : Nat
  symbol : Nat
  type : Nat
  addend : Int
deriving DecidableEq, Repr

/-- `Elf64_Rela` at an index of its table. -/
def readRela (table : List UInt8) (index : Nat) : Rela :=
  ⟨word table (index * 24) 8, word table (index * 24 + 12) 4, word table (index * 24 + 8) 4,
    LittleEndian.signed 64 (word table (index * 24 + 16) 8)⟩

/-- The entries of a RELA section, and the index of the section they are for. -/
structure RelaTable where
  target : Nat
  entries : List Rela
deriving DecidableEq, Repr

def readRelaTable (sections : List Section) (symtabIndex symbolCount : Nat) (rela : Section) :
    Option RelaTable :=
  let entries := (List.range (rela.bytes.length / 24)).map (readRela rela.bytes)
  if rela.header.link = symtabIndex ∧ rela.header.info < sections.length ∧
      rela.header.entrySize = 24 ∧ rela.bytes.length % 24 = 0 ∧
      ∀ entry ∈ entries, entry.symbol < symbolCount then
    some ⟨rela.header.info, entries⟩
  else none

/-! ## Objects -/

structure Object where
  sections : List Section
  namesIndex : Nat
  symtabIndex : Nat
  symbols : List Symbol
  relocations : List RelaTable
deriving DecidableEq, Repr

def readElf64 (file : List UInt8) : Option Object :=
  if hasFileHeader file then
    match readSections file with
    | none => none
    | some sections =>
        match sections.findIdx? fun section_ => section_.header.type = shtSymtab with
        | none => none
        | some symtabIndex =>
            match sections[symtabIndex]? with
            | none => none
            | some symtab =>
                match readSymbols sections symtab with
                | none => none
                | some symbols =>
                    ((sections.filter fun section_ => section_.header.type = shtRela).mapM
                      (readRelaTable sections symtabIndex symbols.length)).map fun relocations =>
                        ⟨sections, word file 62 2, symtabIndex, symbols, relocations⟩
  else none

namespace Object

variable (object : Object)

/-- The section of a name. -/
def section? (name : List UInt8) : Option Section :=
  object.sections.find? fun section_ => section_.name = name

/-- The contents of the section of a name; nothing where there is none. -/
def bytesOf (name : List UInt8) : List UInt8 := ((object.section? name).map (·.bytes)).getD []

def sizeOf (name : List UInt8) : Nat := ((object.section? name).map (·.header.size)).getD 0

/-- The relocations for the section of a name, in their order. -/
def relocationsOf (name : List UInt8) : List Rela :=
  (object.relocations.filter fun table =>
    (object.sections[table.target]?.map (·.name)) = some name).flatMap (·.entries)

def symtab? : Option Section := object.sections[object.symtabIndex]?

end Object

end Nazm.Elf
