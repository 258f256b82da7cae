import Nazm.Library.LittleEndian
import Nazm.Output.Symbols

/-!
Line tables.

Owns `src/output/debug_line.c`: the DWARF line program of ELF objects and the
CodeView line subsections of COFF objects, with the checks before them. A buffer
is the list of its bytes, and a patched length is written where it stands.

Does not own the reading of these tables.
-/

namespace Nazm.Output

open LittleEndian
open Nazm.Unicode Nazm.Diagnostics Nazm.Passes

/-! ## Buffers -/

/-- `debug_buffer_uleb`: at most ten turns for 64 bits. -/
def debugBufferUleb : Nat → Nat → List UInt8
  | 0, _ => []
  | fuel + 1, value =>
      let byte := UInt8.ofNat (value % 128)
      let value := value / 128
      if value ≠ 0 then (byte ||| 0x80) :: debugBufferUleb fuel value else [byte]

def uleb (value : Nat) : List UInt8 := debugBufferUleb 10 value

/-- `debug_buffer_sleb`. -/
def debugBufferSleb : Nat → Int → List UInt8
  | 0, _ => []
  | fuel + 1, value =>
      let byte := UInt8.ofNat (value % 128).toNat
      let sign := decide (byte &&& 0x40 ≠ 0)
      let value := value / 128
      if (value = 0 ∧ !sign) ∨ (value = -1 ∧ sign) then [byte]
      else (byte ||| 0x80) :: debugBufferSleb fuel value

def sleb (value : Int) : List UInt8 := debugBufferSleb 10 value

/-- `debug_buffer_align4`. -/
def debugBufferAlign4 (buffer : List UInt8) : List UInt8 :=
  buffer ++ List.replicate ((4 - buffer.length % 4) % 4) 0

/-! ## The contract -/

/-- The index of a file in the declaration order. -/
def debugFileIndex (files : List DebugFile) (id : UInt32) : Option Nat :=
  files.findIdx? fun file => decide (file.id = id.toNat)

/-- The loop of `debug_contract_is_valid`. -/
def debugLinesValid (files : List DebugFile) (textSize : Nat) : Nat → List DebugLine → Bool
  | _, [] => true
  | lastOffset, line :: lines =>
      if textSize < line.offset ∨ line.offset < lastOffset ∨ line.line = 0 ∨
          debugFileIndex files line.fileId = none then false
      else debugLinesValid files textSize line.offset lines

/-- `debug_contract_is_valid`. -/
def debugContractIsValid (files : List DebugFile) (lines : List DebugLine) (textSize : Nat) :
    Bool :=
  if files = [] ∨ lines = [] then false else debugLinesValid files textSize 0 lines

theorem linesValid_of_contract {files : List DebugFile} {lines : List DebugLine} {textSize : Nat}
    (valid : debugContractIsValid files lines textSize = true) :
    debugLinesValid files textSize 0 lines = true := by
  rw [debugContractIsValid] at valid
  split at valid
  · contradiction
  · exact valid

/-- Valid lines do not go back, stay inside `.text` and name declared files. -/
theorem debugLinesValid_spec {files : List DebugFile} {textSize last : Nat}
    {lines : List DebugLine} (valid : debugLinesValid files textSize last lines = true) :
    (lines.Pairwise fun first second => first.offset ≤ second.offset) ∧
      ∀ line ∈ lines, last ≤ line.offset ∧ line.offset ≤ textSize ∧
        ∃ index, debugFileIndex files line.fileId = some index := by
  induction lines generalizing last with
  | nil => exact ⟨.nil, fun _ member => absurd member List.not_mem_nil⟩
  | cons head lines inductionHypothesis =>
      rw [debugLinesValid] at valid
      split at valid
      · contradiction
      · next sound =>
          rw [not_or, not_or, not_or] at sound
          obtain ⟨inside, forward, -, named⟩ := sound
          obtain ⟨sorted, each⟩ := inductionHypothesis valid
          refine ⟨List.pairwise_cons.mpr ⟨fun line member => (each line member).1, sorted⟩,
            fun line member => ?_⟩
          rcases List.mem_cons.mp member with rfl | inRest
          · exact ⟨Nat.le_of_not_lt forward, Nat.le_of_not_lt inside,
              Option.ne_none_iff_exists'.mp named⟩
          · obtain ⟨after, rest⟩ := each line inRest
            exact ⟨Nat.le_trans (Nat.le_of_not_lt forward) after, rest⟩

/-! ## DWARF -/

/-- `DwarfLineSection`, where it is `ok`. -/
structure DwarfLineSection where
  data : List UInt8
  addressRelocationOffset : Nat

/-- The registers of the line program. -/
structure DwarfRegisters where
  address : Nat
  line : Int
  file : Nat
  column : UInt32

/-- One row of the line program. -/
def dwarfRow (registers : DwarfRegisters) (line : DebugLine) (dwarfFile : Nat) : List UInt8 :=
  (if dwarfFile ≠ registers.file then 4 :: uleb dwarfFile else []) ++
    (if line.column ≠ registers.column then 5 :: uleb line.column.toNat else []) ++
    (if (line.line.toNat : Int) ≠ registers.line then
      3 :: sleb (line.line.toNat - registers.line) else []) ++
    (if line.offset ≠ registers.address then 2 :: uleb (line.offset - registers.address)
      else []) ++
    [1]

/-- The row loop: the program, and the address it ends at. -/
def dwarfRows (files : List DebugFile) :
    DwarfRegisters → List DebugLine → Except (List UInt8) (List UInt8 × Nat)
  | registers, [] => .ok ([], registers.address)
  | registers, line :: lines =>
      match debugFileIndex files line.fileId with
      | none => .error (utf8 "مرجع ملف دورف غير موجود")
      | some fileIndex =>
          match dwarfRows files ⟨line.offset, line.line.toNat, fileIndex + 1, line.column⟩ lines with
          | .error message => .error message
          | .ok (rows, address) => .ok (dwarfRow registers line (fileIndex + 1) ++ rows, address)

/-- The header after its length: instruction lengths, line base and range,
opcode lengths, and the directory and file tables. -/
def dwarfHeader (files : List DebugFile) : List UInt8 :=
  [1, 1, 1, UInt8.ofInt (-5), 14, 13] ++ [0, 1, 1, 1, 1, 0, 0, 0, 1, 0, 0, 1] ++ [0] ++
    (files.flatMap fun file => cString file.path ++ [0] ++ uleb 0 ++ uleb 0 ++ uleb 0) ++ [0]

/-- `output_build_dwarf_line`. -/
def outputBuildDwarfLine (files : List DebugFile) (lines : List DebugLine) (textSize : Nat) :
    Except (List UInt8) DwarfLineSection :=
  if !debugContractIsValid files lines textSize then
    .error (utf8 "بيانات أسطر دورف غير صالحة")
  else if uint32Max < files.length then
    .error (utf8 "بيانات أسطر دورف تتجاوز حدود الصيغة")
  else
    let header := dwarfHeader files
    match dwarfRows files ⟨0, 1, 1, 0⟩ lines with
    | .error message => .error message
    | .ok (rows, address) =>
        let setAddress := [0] ++ uleb 9 ++ [2]
        let advance := if address < textSize then 2 :: uleb (textSize - address) else []
        let unit := bytes 2 4 ++ bytes 4 header.length ++ header ++ setAddress ++ bytes 8 0 ++
          rows ++ advance ++ [0] ++ uleb 1 ++ [1]
        if uint32Max < unit.length then .error (utf8 "قسم دورف أكبر من حد 32 بت")
        else .ok ⟨bytes 4 unit.length ++ unit, 10 + header.length + setAddress.length⟩

/-! ## CodeView -/

/-- `CodeViewLineSection`, where it is `ok`. -/
structure CodeViewLineSection where
  data : List UInt8
  sectionOffsetRelocation : Nat
  sectionIndexRelocation : Nat

/-- A subsection: its kind, the length of its payload, the payload, and zeros up
to a multiple of four bytes. -/
def codeviewSubsection (out : List UInt8) (kind : Nat) (payload : List UInt8) : List UInt8 :=
  debugBufferAlign4 (out ++ bytes 4 kind ++ bytes 4 payload.length ++ payload)

/-- The string table, and the offset of each path in it. -/
def codeviewStrings : List DebugFile → List UInt8 → Option (List UInt8 × List Nat)
  | [], table => some (table, [])
  | file :: files, table =>
      if uint32Max < table.length then none
      else
        match codeviewStrings files (table ++ cString file.path ++ [0]) with
        | none => none
        | some (strings, offsets) => some (strings, table.length :: offsets)

/-- The lines of a file. -/
def codeviewFileLines (lines : List DebugLine) (file : DebugFile) : List DebugLine :=
  lines.filter fun line => decide (line.fileId.toNat = file.id)

/-- The blocks of the lines subsection, file by file; a checksum takes eight bytes. -/
def codeviewBlocks (lines : List DebugLine) :
    Nat → List DebugFile → Except (List UInt8) (List UInt8)
  | _, [] => .ok []
  | fileIndex, file :: files =>
      let ofFile := codeviewFileLines lines file
      if ofFile.length = 0 then codeviewBlocks lines (fileIndex + 1) files
      else if uint32Max < ofFile.length ∨ (uint32Max - 12) / 8 < ofFile.length then
        .error (utf8 "كتلة أسطر كودفيو أكبر من حد 32 بت")
      else
        match codeviewBlocks lines (fileIndex + 1) files with
        | .error message => .error message
        | .ok blocks =>
            .ok (bytes 4 (fileIndex * 8) ++ bytes 4 ofFile.length ++
              bytes 4 (12 + ofFile.length * 8) ++
              (ofFile.flatMap fun line =>
                bytes 4 line.offset ++
                  bytes 4 ((line.line &&& 0x00ffffff) ||| 0x80000000).toNat) ++ blocks)

/-- `output_build_codeview_line`. -/
def outputBuildCodeviewLine (files : List DebugFile) (lines : List DebugLine) (textSize : Nat) :
    Except (List UInt8) CodeViewLineSection :=
  if !debugContractIsValid files lines textSize then
    .error (utf8 "بيانات أسطر كودفيو غير صالحة")
  else if uint32Max < files.length ∨ uint32Max < lines.length ∨ uint32Max < textSize then
    .error (utf8 "بيانات أسطر كودفيو تتجاوز حدود الصيغة")
  else
    match codeviewStrings files [0] with
    | none => .error (utf8 "جدول سلاسل كودفيو أكبر من حد 32 بت")
    | some (strings, offsets) =>
        let out := codeviewSubsection (bytes 4 4) 0xF3 strings
        let checksums := offsets.flatMap fun offset => bytes 4 offset ++ [0, 0] ++ [0, 0]
        let out := codeviewSubsection out 0xF4 checksums
        match codeviewBlocks lines 0 files with
        | .error message => .error message
        | .ok blocks =>
            let payload := bytes 4 0 ++ bytes 2 0 ++ bytes 2 0 ++ bytes 4 textSize ++ blocks
            .ok ⟨codeviewSubsection out 0xF2 payload, out.length + 8, out.length + 12⟩

end Nazm.Output
