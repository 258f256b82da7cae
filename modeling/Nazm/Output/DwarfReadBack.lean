import Nazm.Dwarf.LineReader
import Nazm.Library.ByteFile
import Nazm.Output.DebugNumbers

/-!
Reading back the DWARF line table.

Owns that a reader finds in a table that is written the paths of the files, in
the order of their declaration, and one row for each row of the input, before
the end of the sequence at the end of `.text`.

Does not own which rows the passes make.
-/

namespace Nazm.Output

open ByteFile ByteStream FieldEdits LittleEndian Leb128
open Nazm.Diagnostics Nazm.Passes Nazm.Dwarf

/-! ## Parts of a table -/

/-- The last advance of a program. -/
def dwarfAdvance (textSize address : Nat) : List UInt8 :=
  if address < textSize then 2 :: uleb (textSize - address) else []

/-- A unit after its length: the version, the header with its length, and the program. -/
def dwarfUnit (files : List DebugFile) (rows advance : List UInt8) : List UInt8 :=
  bytes 2 4 ++ bytes 4 (dwarfHeader files).length ++ dwarfHeader files ++
    ([0] ++ uleb 9 ++ [2]) ++ bytes 8 0 ++ rows ++ advance ++ [0] ++ uleb 1 ++ [1]

/-! ## Running a program -/

/-- A program appends rows, from registers on. -/
def Runs (header : Header) (registers : Registers) (program : List UInt8) (rows : List Row) :
    Prop :=
  ∀ fuel, program.length ≤ fuel → run header fuel registers program = some rows

theorem runs_nil (header : Header) (registers : Registers) : Runs header registers [] [] := by
  intro fuel _
  cases fuel <;> rfl

/-- One opcode, and the program after it. -/
theorem runs_step {header : Header} {registers next : Registers} {program rest : List UInt8}
    {new later : List Row} (step : step header registers program = some (next, new, rest))
    (shorter : rest.length < program.length) (runs : Runs header next rest later) :
    Runs header registers program (new ++ later) := by
  intro fuel enough
  cases program with
  | nil => contradiction
  | cons byte bytes =>
      cases fuel with
      | zero => contradiction
      | succ fuel =>
          have rest := runs fuel (by omega)
          rw [run, step, Option.bind_eq_bind, Option.bind_some]
          dsimp only
          rw [rest]
          rfl

/-- The header of the tables that are written. -/
def writtenHeader (files : List DebugFile) : Header :=
  ⟨1, -5, 14, 13, [0, 1, 1, 1, 1, 0, 0, 0, 1, 0, 0, 1], files.map fun file => cString file.path⟩

section Programs

variable {files : List DebugFile} {registers : Registers} {rest : List UInt8} {rows : List Row}

theorem length_lt_opcode (opcode : UInt8) (operand rest : List UInt8) :
    rest.length < (opcode :: operand ++ rest).length := by
  rw [List.cons_append, List.length_cons, List.length_append]
  omega

theorem runs_setFile {file : Nat} (small : file < 2 ^ 64)
    (runs : Runs (writtenHeader files) { registers with file := file } rest rows) :
    Runs (writtenHeader files) registers
      ((if file ≠ registers.file then 4 :: uleb file else []) ++ rest) rows := by
  split
  · refine @runs_step _ _ _ _ rest [] rows ?_ (length_lt_opcode _ _ _) runs
    rw [List.cons_append]
    change Option.bind (readUnsigned (uleb file ++ rest)) _ = _
    rw [readUnsigned_uleb small]
    rfl
  · next same =>
      rw [not_not] at same
      rw [List.nil_append]
      rwa [same] at runs

theorem runs_setColumn {column : Nat} (small : column < 2 ^ 64) {changes : Prop}
    [Decidable changes] (unchanged : ¬ changes → column = registers.column)
    (runs : Runs (writtenHeader files) { registers with column := column } rest rows) :
    Runs (writtenHeader files) registers
      ((if changes then 5 :: uleb column else []) ++ rest) rows := by
  split
  · refine @runs_step _ _ _ _ rest [] rows ?_ (length_lt_opcode _ _ _) runs
    rw [List.cons_append]
    change Option.bind (readUnsigned (uleb column ++ rest)) _ = _
    rw [readUnsigned_uleb small]
    rfl
  · next same =>
      rw [List.nil_append]
      rwa [unchanged same] at runs

theorem runs_advanceLine {line : Int} (lower : -2 ^ 63 ≤ line - registers.line)
    (upper : line - registers.line < 2 ^ 63)
    (runs : Runs (writtenHeader files) { registers with line := line } rest rows) :
    Runs (writtenHeader files) registers
      ((if line ≠ registers.line then 3 :: sleb (line - registers.line) else []) ++ rest) rows := by
  split
  · refine @runs_step _ _ _ _ rest [] rows ?_ (length_lt_opcode _ _ _) runs
    rw [List.cons_append]
    change Option.bind (readSigned (sleb (line - registers.line) ++ rest)) _ = _
    rw [readSigned_sleb lower upper]
    have sum : registers.line + (line - registers.line) = line := by omega
    rw [Option.bind_some]
    change some ({ registers with line := registers.line + (line - registers.line) }, [], rest) = _
    rw [sum]
  · next same =>
      rw [not_not] at same
      rw [List.nil_append]
      rwa [same] at runs

theorem runs_advancePc {address : Nat} (forward : registers.address ≤ address)
    (small : address < 2 ^ 64) {advances : Prop} [Decidable advances]
    (unchanged : ¬ advances → address = registers.address)
    (runs : Runs (writtenHeader files) { registers with address := address } rest rows) :
    Runs (writtenHeader files) registers
      ((if advances then 2 :: uleb (address - registers.address) else []) ++ rest) rows := by
  split
  · refine @runs_step _ _ _ _ rest [] rows ?_ (length_lt_opcode _ _ _) runs
    rw [List.cons_append]
    change Option.bind (readUnsigned (uleb (address - registers.address) ++ rest)) _ = _
    rw [readUnsigned_uleb (by omega)]
    have sum : registers.address + (address - registers.address) * 1 = address := by omega
    rw [Option.bind_some]
    change some ({ registers with
      address := registers.address + (address - registers.address) * 1 }, [], rest) = _
    rw [sum]
  · next same =>
      rw [List.nil_append]
      rwa [unchanged same] at runs

theorem runs_copy (runs : Runs (writtenHeader files) registers rest rows) :
    Runs (writtenHeader files) registers ([1] ++ rest) (⟨registers, false⟩ :: rows) :=
  @runs_step _ _ _ _ rest [⟨registers, false⟩] rows rfl (length_lt_opcode 1 [] rest) runs

/-- The end of the sequence. -/
theorem runs_endSequence : Runs (writtenHeader files) registers ([0] ++ uleb 1 ++ [1])
    [⟨registers, true⟩] :=
  @runs_step _ _ .start _ [] [⟨registers, true⟩] [] rfl (show 0 < 3 by decide) (runs_nil _ _)

/-- Setting the address to zero at the start. -/
theorem runs_setAddress (start : registers.address = 0)
    (runs : Runs (writtenHeader files) registers rest rows) :
    Runs (writtenHeader files) registers ([0] ++ uleb 9 ++ [2] ++ bytes 8 0 ++ rest) rows := by
  refine @runs_step _ _ registers _ rest [] rows ?_ ?_ runs
  · have length : ¬ (2 :: bytes 8 0 ++ rest).length < 9 := by
      simp only [List.length_append, List.length_cons, length_bytes]
      omega
    have same : ({ registers with address := value (bytes 8 0) } : Registers) = registers := by
      rw [show value (bytes 8 0) = 0 by decide, ← start]
    change (if (2 :: bytes 8 0 ++ rest).length < 9 then none else
      some (({ registers with address := value (bytes 8 0) } : Registers), ([] : List Row),
        rest)) = _
    rw [if_neg length, same]
  · simp only [List.length_append, List.length_singleton]
    omega

/-! ## Rows -/

/-- The registers of the writer, as a reader has them. -/
def readRegisters (registers : DwarfRegisters) : Registers :=
  ⟨registers.address, registers.file, registers.line, registers.column.toNat⟩

/-- The row of a line of the input. -/
def rowOf (files : List DebugFile) (line : DebugLine) : Row :=
  ⟨⟨line.offset, (debugFileIndex files line.fileId).getD 0 + 1, line.line.toNat,
    line.column.toNat⟩, false⟩

theorem runs_dwarfRow {registers : DwarfRegisters} {line : DebugLine} {dwarfFile : Nat}
    (file : dwarfFile < 2 ^ 64) (lines : 0 ≤ registers.line ∧ registers.line < 2 ^ 32)
    (forward : registers.address ≤ line.offset) (offset : line.offset < 2 ^ 64)
    (runs : Runs (writtenHeader files) ⟨line.offset, dwarfFile, line.line.toNat,
      line.column.toNat⟩ rest rows) :
    Runs (writtenHeader files) (readRegisters registers) (dwarfRow registers line dwarfFile ++ rest)
      (⟨⟨line.offset, dwarfFile, line.line.toNat, line.column.toNat⟩, false⟩ :: rows) := by
  have lineSmall := line.line.toNat_lt
  have columnSmall := line.column.toNat_lt
  rw [dwarfRow, List.append_assoc, List.append_assoc, List.append_assoc, List.append_assoc]
  refine @runs_setFile _ (readRegisters registers) _ _ _ file ?_
  refine runs_setColumn (by omega) (fun same => ?_) ?_
  · rw [not_not] at same
    rw [same]
    rfl
  refine @runs_advanceLine _ ⟨registers.address, dwarfFile, registers.line, line.column.toNat⟩ _ _ _
    (by dsimp only; omega) (by dsimp only; omega) ?_
  refine @runs_advancePc _ ⟨registers.address, dwarfFile, line.line.toNat, line.column.toNat⟩ _ _ _
    forward offset _ _ (fun same => not_not.mp same) ?_
  exact runs_copy runs

/-- The rows of the lines, and the registers after them. -/
theorem runs_dwarfRows {lines : List DebugLine} {registers : DwarfRegisters} {textSize address : Nat}
    {program : List UInt8} (few : files.length < 2 ^ 63) (text : textSize < 2 ^ 64)
    (line : 0 ≤ registers.line ∧ registers.line < 2 ^ 32)
    (valid : debugLinesValid files textSize registers.address lines = true)
    (isRows : dwarfRows files registers lines = .ok (program, address))
    (inside : registers.address ≤ textSize) :
    address ≤ textSize ∧ ∃ final : Registers, final.address = address ∧ ∀ rest rows,
      Runs (writtenHeader files) final rest rows →
        Runs (writtenHeader files) (readRegisters registers) (program ++ rest)
          (lines.map (rowOf files) ++ rows) := by
  induction lines generalizing registers program with
  | nil =>
      rw [dwarfRows, Except.ok.injEq, Prod.mk.injEq] at isRows
      obtain ⟨rfl, rfl⟩ := isRows
      exact ⟨inside, readRegisters registers, rfl, fun rest rows runs => runs⟩
  | cons head lines inductionHypothesis =>
      rw [debugLinesValid] at valid
      split at valid
      · contradiction
      · next sound =>
          rw [not_or, not_or, not_or] at sound
          obtain ⟨within, forward, -, named⟩ := sound
          have lineSmall := head.line.toNat_lt
          obtain ⟨index, isIndex⟩ := Option.ne_none_iff_exists'.mp named
          have inFiles : index < files.length := (List.findIdx?_eq_some_iff_getElem.mp isIndex).1
          rw [dwarfRows, isIndex] at isRows
          dsimp only at isRows
          split at isRows
          · contradiction
          · next rest last isRest =>
              rw [Except.ok.injEq, Prod.mk.injEq] at isRows
              obtain ⟨rfl, rfl⟩ := isRows
              obtain ⟨before, final, isFinal, runs⟩ := @inductionHypothesis
                ⟨head.offset, head.line.toNat, index + 1, head.column⟩ _
                ⟨Int.natCast_nonneg _, by dsimp only; omega⟩ valid isRest (by
                  dsimp only
                  omega)
              refine ⟨before, final, isFinal, fun back rows runsBack => ?_⟩
              have first := @runs_dwarfRow files _ _ registers head (index + 1) (by omega) line (by omega) (by omega)
                (runs back rows runsBack)
              rw [List.append_assoc, List.map_cons, List.cons_append, rowOf, isIndex,
                Option.getD_some]
              exact first

/-- The program of a table. -/
theorem runs_program {lines : List DebugLine} {textSize address : Nat} {program : List UInt8}
    (few : files.length < 2 ^ 63) (text : textSize < 2 ^ 64)
    (valid : debugLinesValid files textSize 0 lines = true)
    (isRows : dwarfRows files ⟨0, 1, 1, 0⟩ lines = .ok (program, address)) :
    ∃ last : Registers, last.address = textSize ∧
      Runs (writtenHeader files) .start
        ([0] ++ uleb 9 ++ [2] ++ bytes 8 0 ++ (program ++
          (dwarfAdvance textSize address ++ ([0] ++ uleb 1 ++ [1]))))
        (lines.map (rowOf files) ++ [⟨last, true⟩]) := by
  obtain ⟨before, final, isFinal, runs⟩ := @runs_dwarfRows files _ ⟨0, 1, 1, 0⟩ _ _ _ few text
    ⟨by decide, by decide⟩ valid isRows (Nat.zero_le _)
  refine ⟨{ final with address := textSize }, rfl, runs_setAddress rfl (runs _ _ ?_)⟩
  rw [← isFinal]
  exact runs_advancePc (by omega) text (fun same => by omega) runs_endSequence

end Programs

/-! ## Headers -/

/-- An entry of the file table. -/
def fileEntry (file : DebugFile) : List UInt8 :=
  cString file.path ++ [0] ++ uleb 0 ++ uleb 0 ++ uleb 0

theorem readFiles_entries {files : List DebugFile}
    (named : ∀ file ∈ files, cString file.path ≠ []) {fuel : Nat} (enough : files.length < fuel)
    (rest : List UInt8) :
    readFiles fuel (files.flatMap fileEntry ++ (0 :: rest)) =
      some (files.map fun file => cString file.path, rest) := by
  induction files generalizing fuel with
  | nil =>
      cases fuel with
      | zero => contradiction
      | succ fuel => rfl
  | cons file files inductionHypothesis =>
      cases fuel with
      | zero => contradiction
      | succ fuel =>
          have name := readString_append (zero_notMem_cString file.path)
            (0 :: 0 :: 0 :: (files.flatMap fileEntry ++ (0 :: rest)))
          have later := inductionHypothesis
            (fun other member => named other (List.mem_cons_of_mem _ member))
            (Nat.lt_of_succ_lt_succ enough)
          have entry : (file :: files).flatMap fileEntry ++ (0 :: rest) =
              cString file.path ++ 0 :: (0 :: 0 :: 0 :: (files.flatMap fileEntry ++ (0 :: rest))) := by
            rw [List.flatMap_cons, fileEntry, show uleb 0 = [0] from rfl]
            simp only [List.append_assoc, List.cons_append, List.nil_append]
          rw [entry, readFiles, name, Option.bind_eq_bind, Option.bind_some]
          dsimp only
          rw [if_neg (named file List.mem_cons_self)]
          change Option.bind (readFiles fuel (files.flatMap fileEntry ++ (0 :: rest))) _ = _
          rw [later]
          rfl

theorem length_le_fileEntries (files : List DebugFile) :
    files.length ≤ (files.flatMap fileEntry).length := by
  induction files with
  | nil => exact Nat.le_refl _
  | cons file files inductionHypothesis =>
      rw [List.flatMap_cons, List.length_append, List.length_cons, fileEntry]
      simp only [List.length_append, List.length_singleton]
      omega

theorem readHeader_dwarfHeader {files : List DebugFile}
    (named : ∀ file ∈ files, cString file.path ≠ []) :
    readHeader (dwarfHeader files) = some (writtenHeader files) := by
  have count := length_le_fileEntries files
  have read := @readFiles_entries files named (files.flatMap fileEntry ++ [0]).length (by
    rw [List.length_append, List.length_singleton]
    omega) []
  have directories : readDirectories (0 :: (files.flatMap fileEntry ++ [0])).length
      (0 :: (files.flatMap fileEntry ++ [0])) = some (files.flatMap fileEntry ++ [0]) := rfl
  have header : dwarfHeader files = [1, 1, 1, UInt8.ofInt (-5), 14, 13] ++
      ([0, 1, 1, 1, 1, 0, 0, 0, 1, 0, 0, 1] ++ (0 :: (files.flatMap fileEntry ++ [0]))) := by
    rw [dwarfHeader]
    change _ ++ _ ++ _ ++ files.flatMap fileEntry ++ _ = _
    simp only [List.append_assoc]
    rfl
  rw [header, readHeader]
  simp only [List.cons_append, List.nil_append, readWord_cons, Option.bind_eq_bind,
    Option.bind_some]
  change Option.bind (readDirectories (0 :: (files.flatMap fileEntry ++ [0])).length
    (0 :: (files.flatMap fileEntry ++ [0]))) _ = _
  rw [directories, Option.bind_some, read]
  have consistent : (writtenHeader files).Consistent := ⟨rfl, rfl, Nat.succ_pos 13⟩
  change (if (writtenHeader files).Consistent ∧ ([] : List UInt8) = [] then
    some (writtenHeader files) else none) = _
  exact if_pos ⟨consistent, rfl⟩

/-- A unit reads back. -/
theorem readTable_unit {files : List DebugFile} (named : ∀ file ∈ files, cString file.path ≠ [])
    {rows advance : List UInt8} {read : List Row}
    (fits : (dwarfUnit files rows advance).length < 2 ^ 32)
    (runs : Runs (writtenHeader files) .start ([0] ++ uleb 9 ++ [2] ++ bytes 8 0 ++
      (rows ++ (advance ++ ([0] ++ uleb 1 ++ [1])))) read) :
    readTable (bytes 4 (dwarfUnit files rows advance).length ++ dwarfUnit files rows advance) =
      some ⟨files.map fun file => cString file.path, read⟩ := by
  generalize isProgram : [0] ++ uleb 9 ++ [2] ++ bytes 8 0 ++
      (rows ++ (advance ++ ([0] ++ uleb 1 ++ [1]))) = program at runs
  have split : dwarfUnit files rows advance =
      bytes 2 4 ++ (bytes 4 (dwarfHeader files).length ++ (dwarfHeader files ++ program)) := by
    rw [← isProgram, dwarfUnit]
    simp only [List.append_assoc]
  rw [split] at fits ⊢
  have length : (dwarfHeader files).length < 256 ^ 4 := by
    simp only [List.length_append] at fits
    omega
  have whole := runs program.length (Nat.le_refl _)
  rw [readTable, readWord_bytes (by omega), Option.bind_eq_bind, Option.bind_some]
  dsimp only
  rw [if_neg (not_not.mpr rfl), readWord_bytes (by decide), Option.bind_some]
  dsimp only
  rw [readWord_bytes length, Option.bind_some]
  dsimp only
  rw [if_neg (by simp), List.take_left, List.drop_left, readHeader_dwarfHeader named]
  change Option.bind (run (writtenHeader files) program.length .start program) _ = _
  rw [whole]
  rfl

/-- The parts of a table that is written. -/
theorem dwarfLine_parts {files : List DebugFile} {lines : List DebugLine} {textSize : Nat}
    {table : DwarfLineSection} (built : outputBuildDwarfLine files lines textSize = .ok table) :
    debugContractIsValid files lines textSize = true ∧ files.length ≤ uint32Max ∧
      ∃ program address, dwarfRows files ⟨0, 1, 1, 0⟩ lines = .ok (program, address) ∧
        table.addressRelocationOffset = 10 + (dwarfHeader files).length + 3 ∧
        (dwarfUnit files program (dwarfAdvance textSize address)).length ≤ uint32Max ∧
        table.data = bytes 4 (dwarfUnit files program (dwarfAdvance textSize address)).length ++
          dwarfUnit files program (dwarfAdvance textSize address) := by
  unfold outputBuildDwarfLine at built
  split at built
  · contradiction
  · next valid =>
      split at built
      · contradiction
      · next few =>
          dsimp only at built
          split at built
          · contradiction
          · next program address isRows =>
              rw [Bool.not_eq_true, Bool.not_eq_false'] at valid
              refine ⟨valid, Nat.le_of_not_lt few, program, address, isRows, ?_⟩
              change (if uint32Max < (dwarfUnit files program (dwarfAdvance textSize address)).length
                then _ else _) = _ at built
              split at built
              · cases built
              · next fits =>
                  rw [← Except.ok.inj built]
                  exact ⟨rfl, Nat.le_of_not_lt fits, rfl⟩

/-- A reader finds the files and the rows of a table that is written. -/
theorem readTable_written {files : List DebugFile} {lines : List DebugLine} {textSize : Nat}
    {table : DwarfLineSection} (named : ∀ file ∈ files, cString file.path ≠ [])
    (text : textSize < 2 ^ 64)
    (built : outputBuildDwarfLine files lines textSize = .ok table) :
    ∃ last : Registers, last.address = textSize ∧
      readTable table.data = some ⟨files.map fun file => cString file.path,
        lines.map (rowOf files) ++ [⟨last, true⟩]⟩ := by
  obtain ⟨valid, few, program, address, isRows, -, fits, data⟩ := dwarfLine_parts built
  have few : files.length < 2 ^ 63 := Nat.lt_of_le_of_lt few (by decide)
  have fits := Nat.lt_of_le_of_lt fits (show uint32Max < 2 ^ 32 by decide)
  obtain ⟨last, isLast, runs⟩ := runs_program few text (linesValid_of_contract valid) isRows
  rw [data]
  exact ⟨last, isLast, readTable_unit named fits runs⟩

/-! ## What a table decodes to -/

/-- A line table decodes to its input. -/
structure DwarfDecodes (files : List DebugFile) (lines : List DebugLine) (textSize : Nat)
    (table : DwarfLineSection) : Prop where
  rows : ∃ last : Registers, last.address = textSize ∧
    readTable table.data = some ⟨files.map DebugFile.path,
      lines.map (rowOf files) ++ [⟨last, true⟩]⟩
  declared : ∀ line ∈ lines, ∃ file,
    files[(rowOf files line).registers.file - 1]? = some file ∧ file.id = line.fileId.toNat
  unitLength : word table.data 0 4 + 4 = table.data.length
  relocation : table.addressRelocationOffset = 10 + word table.data 6 4 + 3
  setAddress : slice table.data (table.addressRelocationOffset - 3) 11 =
    [0, 9, 2] ++ List.replicate 8 0

theorem unitLength_of_fits {unit : List UInt8} (fits : unit.length < 2 ^ 32) :
    word (bytes 4 unit.length ++ unit) 0 4 = unit.length := by
  have length := ((Holds.whole (bytes 4 unit.length)).append unit).same
  rw [length_bytes] at length
  rw [word, length, value_bytes_of_lt fits]

/-- What stands before the header in a section. -/
theorem dwarfUnit_header (files : List DebugFile) (rows advance : List UInt8) (length : Nat) :
    ∃ back, bytes 4 length ++ dwarfUnit files rows advance =
      bytes 4 length ++ bytes 2 4 ++ bytes 4 (dwarfHeader files).length ++ dwarfHeader files ++
        ([0, 9, 2] ++ List.replicate 8 0) ++ back := by
  refine ⟨rows ++ advance ++ [0] ++ uleb 1 ++ [1], ?_⟩
  rw [dwarfUnit, show uleb 9 = [9] from rfl, show bytes 8 0 = List.replicate 8 0 by decide]
  simp only [List.append_assoc, List.cons_append, List.nil_append]

theorem headerLength_of_fits {files : List DebugFile} {rows advance : List UInt8} {length : Nat}
    (fits : (dwarfHeader files).length < 256 ^ 4) :
    word (bytes 4 length ++ dwarfUnit files rows advance) 6 4 = (dwarfHeader files).length := by
  obtain ⟨back, isUnit⟩ := dwarfUnit_header files rows advance length
  have field := slice_middle (bytes 4 length ++ bytes 2 4) (bytes 4 (dwarfHeader files).length)
    (dwarfHeader files ++ ([0, 9, 2] ++ List.replicate 8 0) ++ back)
  simp only [List.length_append, length_bytes, List.append_assoc] at field isUnit
  rw [word, isUnit, field, value_bytes_of_lt fits]

theorem setAddress_of_unit (files : List DebugFile) (rows advance : List UInt8) {length : Nat} :
    slice (bytes 4 length ++ dwarfUnit files rows advance) (10 + (dwarfHeader files).length) 11 =
      [0, 9, 2] ++ List.replicate 8 0 := by
  obtain ⟨back, isUnit⟩ := dwarfUnit_header files rows advance length
  have field := slice_middle
    (bytes 4 length ++ bytes 2 4 ++ bytes 4 (dwarfHeader files).length ++ dwarfHeader files)
    ([0, 9, 2] ++ List.replicate 8 0) back
  rw [isUnit]
  simp only [List.length_append, length_bytes] at field
  exact field

/-- The section that is written for files with paths and rows that meet the contract
decodes to these rows, and ends at the size of `.text`. -/
theorem dwarf_line_decodes (files : List DebugFile) (lines : List DebugLine) (textSize : Nat)
    (table : DwarfLineSection) (paths : ∀ file ∈ files, file.path ≠ [] ∧ 0 ∉ file.path)
    (text : textSize < 2 ^ 64)
    (built : outputBuildDwarfLine files lines textSize = .ok table) :
    DwarfDecodes files lines textSize table := by
  obtain ⟨valid, -, program, address, -, relocation, fits, data⟩ := dwarfLine_parts built
  have fits := Nat.lt_of_le_of_lt fits (show uint32Max < 2 ^ 32 by decide)
  have headerFits : (dwarfHeader files).length < 256 ^ 4 := by
    refine Nat.lt_of_le_of_lt ?_ fits
    rw [dwarfUnit]
    simp only [List.length_append]
    omega
  have read := readTable_written
    (fun file member => by rw [cString_of_clean (paths file member).2]; exact (paths file member).1)
    text built
  have names : (files.map fun file => cString file.path) = files.map DebugFile.path :=
    List.map_congr_left fun file member => cString_of_clean (paths file member).2
  rw [names] at read
  refine ⟨read, fun line member => ?_, ?_, ?_, ?_⟩
  · obtain ⟨-, -, index, isIndex⟩ := (debugLinesValid_spec (linesValid_of_contract valid)).2 line member
    obtain ⟨inFiles, sameId, -⟩ := List.findIdx?_eq_some_iff_getElem.mp isIndex
    refine ⟨files[index], ?_, of_decide_eq_true sameId⟩
    rw [rowOf, isIndex, Option.getD_some, Nat.add_sub_cancel, List.getElem?_eq_getElem inFiles]
  · rw [data, unitLength_of_fits fits, List.length_append, length_bytes, Nat.add_comm]
  · rw [relocation, data, headerLength_of_fits headerFits]
  · rw [relocation, data, Nat.add_sub_cancel]
    exact setAddress_of_unit files program (dwarfAdvance textSize address)

/-- Two files, a line number that goes back, and `.text` that goes on after the last row. -/
theorem dwarf_line_decodes_twoFiles :
    ∃ table, outputBuildDwarfLine [⟨7, [109]⟩, ⟨9, [110, 46]⟩]
        [⟨0, 9, 300, 2⟩, ⟨1, 7, 4, 0⟩, ⟨1, 9, 4, 0⟩] 5 = .ok table ∧
      DwarfDecodes [⟨7, [109]⟩, ⟨9, [110, 46]⟩] [⟨0, 9, 300, 2⟩, ⟨1, 7, 4, 0⟩, ⟨1, 9, 4, 0⟩] 5
        table :=
  ⟨_, rfl, dwarf_line_decodes _ _ 5 _ (by decide) (by decide) rfl⟩

end Nazm.Output
