import Nazm.Library.ByteStream
import Nazm.Library.Leb128

/-!
A reference reader of DWARF version 4 line tables.

Owns the header of a table with its files, the line number program with every
kind of opcode, the rows that the program appends, and the location that the
rows give to an address.

Does not own how a table comes about. Statement and block flags are no part of
a location and are not kept.
-/

namespace Nazm.Dwarf

open ByteStream Leb128

/-! ## Headers -/

structure Header where
  minimumInstructionLength : Nat
  lineBase : Int
  lineRange : Nat
  opcodeBase : Nat
  operandCounts : List Nat
  files : List (List UInt8)
deriving DecidableEq, Repr

/-- Directories, up to the empty one. -/
def readDirectories : Nat → List UInt8 → Option (List UInt8)
  | 0, _ => none
  | fuel + 1, bytes => do
      let (name, bytes) ← readString bytes
      if name = [] then some bytes else readDirectories fuel bytes

/-- Files, up to the empty name: a name, its directory, its time and its size. -/
def readFiles : Nat → List UInt8 → Option (List (List UInt8) × List UInt8)
  | 0, _ => none
  | fuel + 1, bytes => do
      let (name, bytes) ← readString bytes
      if name = [] then some ([], bytes)
      else
        let (_, bytes) ← readUnsigned bytes
        let (_, bytes) ← readUnsigned bytes
        let (_, bytes) ← readUnsigned bytes
        let (names, bytes) ← readFiles fuel bytes
        some (name :: names, bytes)

/-- The operand counts of the standard opcodes. -/
def standardOperandCounts : List Nat := [0, 1, 1, 1, 1, 0, 0, 0, 1, 0, 0, 1]

/-- The opcode table says of the standard opcodes what they are, and special opcodes
advance by a range of lines. -/
def Header.Consistent (header : Header) : Prop :=
  header.operandCounts.length + 1 = header.opcodeBase ∧
    header.operandCounts.take 12 = standardOperandCounts.take header.operandCounts.length ∧
    0 < header.lineRange

instance (header : Header) : Decidable header.Consistent :=
  inferInstanceAs (Decidable (_ ∧ _ ∧ _))

/-- What follows `header_length`, up to its end. -/
def readHeader (bytes : List UInt8) : Option Header := do
  let (minimumInstructionLength, bytes) ← readWord 1 bytes
  let (_, bytes) ← readWord 1 bytes
  let (_, bytes) ← readWord 1 bytes
  let (lineBase, bytes) ← readWord 1 bytes
  let (lineRange, bytes) ← readWord 1 bytes
  let (opcodeBase, bytes) ← readWord 1 bytes
  let operandCounts := (bytes.take (opcodeBase - 1)).map UInt8.toNat
  let bytes ← readDirectories bytes.length (bytes.drop (opcodeBase - 1))
  let (files, bytes) ← readFiles bytes.length bytes
  let header : Header := ⟨minimumInstructionLength, LittleEndian.signed 8 lineBase, lineRange,
    opcodeBase, operandCounts, files⟩
  if header.Consistent ∧ bytes = [] then some header else none

/-! ## The line number program -/

/-- The registers that a location is made of. -/
structure Registers where
  address : Nat
  file : Nat
  line : Int
  column : Nat
deriving DecidableEq, Repr

/-- The registers at the start of a sequence. -/
def Registers.start : Registers := ⟨0, 1, 1, 0⟩

/-- A row of the table. -/
structure Row where
  registers : Registers
  endSequence : Bool
deriving DecidableEq, Repr

/-- What an opcode does: the registers after it, the rows it appends, and the bytes
after it. -/
abbrev Effect := Registers × List Row × List UInt8

/-- `DW_LNE_end_sequence`, `DW_LNE_set_address`, or another extended opcode. -/
def extendedStep (registers : Registers) (bytes : List UInt8) : Option Effect := do
  let (length, bytes) ← readUnsigned bytes
  if bytes.length < length then none
  else
    match bytes.take length with
    | [] => none
    | 1 :: _ => some (.start, [⟨registers, true⟩], bytes.drop length)
    | 2 :: address =>
        some ({ registers with address := LittleEndian.value address }, [], bytes.drop length)
    | _ :: _ => some (registers, [], bytes.drop length)

/-- The operands of an opcode that changes no register of a location. -/
def skipOperands : Nat → List UInt8 → Option (List UInt8)
  | 0, bytes => some bytes
  | count + 1, bytes => do
      let (_, bytes) ← readUnsigned bytes
      skipOperands count bytes

/-- A special opcode advances the address and the line, and appends a row. -/
def specialStep (header : Header) (registers : Registers) (adjusted : Nat) : Registers :=
  { registers with
    address := registers.address + adjusted / header.lineRange * header.minimumInstructionLength
    line := registers.line + header.lineBase + (adjusted % header.lineRange : Nat) }

def step (header : Header) (registers : Registers) : List UInt8 → Option Effect
  | [] => none
  | opcode :: bytes =>
      if header.opcodeBase ≤ opcode.toNat then
        let next := specialStep header registers (opcode.toNat - header.opcodeBase)
        some (next, [⟨next, false⟩], bytes)
      else
        match opcode.toNat with
        | 0 => extendedStep registers bytes
        | 1 => some (registers, [⟨registers, false⟩], bytes)
        | 2 => do
            let (advance, bytes) ← readUnsigned bytes
            some ({ registers with
              address := registers.address + advance * header.minimumInstructionLength }, [], bytes)
        | 3 => do
            let (advance, bytes) ← readSigned bytes
            some ({ registers with line := registers.line + advance }, [], bytes)
        | 4 => do
            let (file, bytes) ← readUnsigned bytes
            some ({ registers with file := file }, [], bytes)
        | 5 => do
            let (column, bytes) ← readUnsigned bytes
            some ({ registers with column := column }, [], bytes)
        | 8 =>
            let next := specialStep header registers (255 - header.opcodeBase)
            some ({ registers with address := next.address }, [], bytes)
        | 9 => do
            let (advance, bytes) ← readWord 2 bytes
            some ({ registers with address := registers.address + advance }, [], bytes)
        | other => do
            let bytes ← skipOperands (header.operandCounts.getD (other - 1) 0) bytes
            some (registers, [], bytes)

/-- Every opcode takes a byte at least, so the length of the program is fuel enough. -/
def run (header : Header) : Nat → Registers → List UInt8 → Option (List Row)
  | _, _, [] => some []
  | 0, _, _ :: _ => none
  | fuel + 1, registers, byte :: bytes => do
      let (next, rows, rest) ← step header registers (byte :: bytes)
      let later ← run header fuel next rest
      some (rows ++ later)

/-! ## Tables -/

structure Table where
  files : List (List UInt8)
  rows : List Row
deriving DecidableEq, Repr

/-- The table of a section with one unit. -/
def readTable (bytes : List UInt8) : Option Table := do
  let (unitLength, unit) ← readWord 4 bytes
  if unit.length ≠ unitLength then none
  else
    let (version, unit) ← readWord 2 unit
    let (headerLength, unit) ← readWord 4 unit
    if version ≠ 4 ∨ unit.length < headerLength then none
    else
      let header ← readHeader (unit.take headerLength)
      let program := unit.drop headerLength
      let rows ← run header program.length .start program
      some ⟨header.files, rows⟩

/-- A file, a line and a column. -/
structure Location where
  file : List UInt8
  line : Nat
  column : Nat
deriving DecidableEq, Repr

/-- The last row of the sequence at or before an address, where the sequence does not
end before it. -/
def Table.row? (table : Table) (address : Nat) : Option Row :=
  let sequence := table.rows.takeWhile fun row => !row.endSequence
  match table.rows.find? fun row => row.endSequence with
  | none => none
  | some last =>
      if address < last.registers.address then
        (sequence.filter fun row => decide (row.registers.address ≤ address)).getLast?
      else none

/-- Files count from one. -/
def Table.location? (table : Table) (address : Nat) : Option Location := do
  let row ← table.row? address
  let file ← if row.registers.file = 0 then none else table.files[row.registers.file - 1]?
  some ⟨file, row.registers.line.toNat, row.registers.column⟩

end Nazm.Dwarf
