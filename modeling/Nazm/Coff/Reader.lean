import Nazm.Library.ByteFile

/-!
A reference reader of COFF x86-64 objects.

Owns the section headers, contents and relocations of an object, its symbol
table with auxiliary records, its string table, the parts of the file that these
take, and the checks that make a reader give up: the file header, ranges in the
file, section names in the string table, counts that overflow, names that end in
the string table, and indices in range.

Does not own how an object comes about.
-/

namespace Nazm.Coff

open FieldEdits ByteFile

/-! ## Sections -/

/-- `IMAGE_SECTION_HEADER`, less the fields that an object leaves zero. -/
structure Header where
  nameField : List UInt8
  size : Nat
  rawPointer : Nat
  relocPointer : Nat
  relocCount : Nat
  characteristics : Nat
deriving DecidableEq, Repr

def readHeader (file : List UInt8) (offset : Nat) : Header :=
  ⟨slice file offset 8, word file (offset + 16) 4, word file (offset + 20) 4,
    word file (offset + 24) 4, word file (offset + 32) 2, word file (offset + 36) 4⟩

namespace Header

/-- `IMAGE_SCN_CNT_UNINITIALIZED_DATA`: the section takes no bytes of the file. -/
def uninitialised (header : Header) : Bool := decide (header.characteristics / 0x80 % 2 = 1)

/-- `IMAGE_SCN_ALIGN_nBYTES`. -/
def alignment (header : Header) : Nat := 2 ^ (header.characteristics / 2 ^ 20 % 16 - 1)

/-- The range of the contents: where it starts, and how long it is. -/
def rawRange (header : Header) : Nat × Nat :=
  (header.rawPointer, if header.uninitialised then 0 else header.size)

/-- The range of the relocations. -/
def relocRange (header : Header) : Nat × Nat := (header.relocPointer, header.relocCount * 10)

/-- The name is in its field, the count did not overflow, and the ranges are in the file. -/
def readable (file : List UInt8) (header : Header) : Bool :=
  decide (header.nameField.head? ≠ some 0x2F) &&
    decide (header.characteristics / 0x01000000 % 2 = 0) &&
    decide (header.rawRange.1 + header.rawRange.2 ≤ file.length) &&
    decide (header.relocRange.1 + header.relocRange.2 ≤ file.length)

end Header

/-- `IMAGE_RELOCATION`. -/
structure Reloc where
  offset : Nat
  symbol : Nat
  type : Nat
deriving DecidableEq, Repr

def readReloc (file : List UInt8) (offset : Nat) : Reloc :=
  ⟨word file offset 4, word file (offset + 4) 4, word file (offset + 8) 2⟩

structure Section where
  header : Header
  name : List UInt8
  bytes : List UInt8
  relocations : List Reloc
deriving DecidableEq, Repr

/-- The bytes of a name field before its zeros. -/
def shortName (field : List UInt8) : List UInt8 := field.takeWhile fun byte => byte ≠ 0

def readSection (file : List UInt8) (header : Header) : Section :=
  ⟨header, shortName header.nameField, slice file header.rawRange.1 header.rawRange.2,
    (List.range header.relocCount).map fun index =>
      readReloc file (header.relocPointer + index * 10)⟩

def readSections (file : List UInt8) : Option (List Section) :=
  let headers := (List.range (word file 2 2)).map fun index => readHeader file (20 + index * 40)
  if 20 + headers.length * 40 ≤ file.length ∧ ∀ header ∈ headers, header.readable file = true then
    some (headers.map (readSection file))
  else none

/-! ## Symbols -/

/-- `IMAGE_SYMBOL`. -/
structure Symbol where
  name : List UInt8
  value : Nat
  section_ : Int
  type : Nat
  storage : Nat
  auxCount : Nat
deriving DecidableEq, Repr

/-- A name of at most eight bytes is in its field; a longer one is in the string table. -/
def readName (file strtab : List UInt8) (offset : Nat) : Option (List UInt8) :=
  if word file offset 4 = 0 then stringAt strtab (word file (offset + 4) 4)
  else some (shortName (slice file offset 8))

def readSymbol (file strtab : List UInt8) (offset : Nat) : Option Symbol :=
  (readName file strtab offset).map fun name =>
    ⟨name, word file (offset + 8) 4, LittleEndian.signed 16 (word file (offset + 12) 2),
      word file (offset + 14) 2, word file (offset + 16) 1, word file (offset + 17) 1⟩

/-- The records from an offset on; an auxiliary record is not a symbol of its own. -/
def readSymbols (file strtab : List UInt8) :
    (count auxCount offset : Nat) → Option (List (Option Symbol))
  | 0, _, _ => some []
  | count + 1, auxCount + 1, offset =>
      (readSymbols file strtab count auxCount (offset + 18)).map (none :: ·)
  | count + 1, 0, offset =>
      match readSymbol file strtab offset with
      | none => none
      | some symbol =>
          (readSymbols file strtab count symbol.auxCount (offset + 18)).map (some symbol :: ·)

/-! ## Objects -/

structure Object where
  sections : List Section
  symtabPointer : Nat
  symbols : List (Option Symbol)
  strtabLength : Nat
deriving DecidableEq, Repr

namespace Object

variable (object : Object)

def strtabPointer : Nat := object.symtabPointer + object.symbols.length * 18

/-- The symbol of an index. -/
def symbol? (index : Nat) : Option Symbol := object.symbols[index]?.join

/-- The parts of the file that the object takes. -/
def ranges : List (Nat × Nat) :=
  ([(0, 20), (20, object.sections.length * 40)] ++
    (object.sections.map fun section_ : Section => section_.header.rawRange) ++
    (object.sections.map fun section_ : Section => section_.header.relocRange) ++
    [(object.symtabPointer, object.symbols.length * 18),
      (object.strtabPointer, object.strtabLength)]).filter fun range => decide (0 < range.2)

/-- Relocations refer to symbols, and symbols to sections. -/
def Linked : Prop :=
  (∀ section_ ∈ object.sections, ∀ reloc ∈ section_.relocations,
    (object.symbol? reloc.symbol).isSome = true) ∧
  ∀ symbol? ∈ object.symbols, ∀ symbol ∈ symbol?,
    -2 ≤ symbol.section_ ∧ symbol.section_ ≤ object.sections.length

instance : Decidable object.Linked := inferInstanceAs (Decidable (_ ∧ _))

end Object

/-- An x86-64 object without an optional header. -/
def hasFileHeader (file : List UInt8) : Bool :=
  decide (20 ≤ file.length) && decide (word file 0 2 = 0x8664) && decide (word file 16 2 = 0)

def readCoff (file : List UInt8) : Option Object :=
  if hasFileHeader file then
    let pointer := word file 8 4
    let count := word file 12 4
    let strtabLength := word file (pointer + count * 18) 4
    if 4 ≤ strtabLength ∧ pointer + count * 18 + strtabLength ≤ file.length then
      match readSections file,
        readSymbols file (slice file (pointer + count * 18) strtabLength) count 0 pointer with
      | some sections, some symbols =>
          let object : Object := ⟨sections, pointer, symbols, strtabLength⟩
          if object.Linked then some object else none
      | _, _ => none
    else none
  else none

end Nazm.Coff
