import Nazm.Library.FieldEdits
import Nazm.Library.OutputStream
import Nazm.Passes.Image

/-!
The assembly listing.

Owns `src/cli/listing.c` up to the stream: the cursor over the lines of the
source, the rows of a statement and `listing_write_stream`. A cursor holds what
is left of the source from its `offset` on, and the three buffers of pass 2 are
lists, so none of them is `NULL`.

Does not own the file that the stream writes to.
-/

namespace Nazm.Cli

open FieldEdits OutputStream
open Nazm.Parser Nazm.Passes Nazm.Symtable Nazm.Unicode Nazm.Diagnostics

/-- `LISTING_BYTES_PER_ROW`. -/
def listingBytesPerRow : Nat := 16

/-- `section_name`. -/
def sectionName : SymbolSection → List UInt8
  | .text => utf8 ".text"
  | .data => utf8 ".data"
  | .readOnlyData => utf8 ".rodata"
  | .bss => utf8 ".bss"

/-! ## Lines of the source -/

structure SourceCursor where
  data : List UInt8
  rest : List UInt8
  line : Nat
deriving DecidableEq

/-- A target behind the cursor is looked for from the start. -/
def SourceCursor.rewind (cursor : SourceCursor) (targetLine : Nat) : SourceCursor :=
  if targetLine < cursor.line then { cursor with rest := cursor.data, line := 1 } else cursor

/-- The loop over the lines before the target; it stops at the end of the source. -/
def SourceCursor.advance (targetLine : Nat) (cursor : SourceCursor) : SourceCursor :=
  if cursor.line < targetLine ∧ cursor.rest ≠ [] then
    SourceCursor.advance targetLine
      { cursor with
        rest := (cursor.rest.dropWhile fun byte => byte != 0x0A).drop 1
        line := cursor.line + 1 }
  else cursor
termination_by targetLine - cursor.line

/-- A line less the CR at its end. -/
def withoutCr (line : List UInt8) : List UInt8 :=
  if line.getLast? = some 0x0D then line.dropLast else line

/-- `source_line_at`. -/
def sourceLineAt (cursor : SourceCursor) (targetLine : Nat) : SourceCursor × List UInt8 :=
  if targetLine < 1 then (cursor, [])
  else
    let cursor := (cursor.rewind targetLine).advance targetLine
    if cursor.line ≠ targetLine ∨ cursor.rest = [] then (cursor, [])
    else (cursor, withoutCr (cursor.rest.takeWhile fun byte => byte != 0x0A))

/-! ## Rows -/

def blanks (count : Nat) : List UInt8 := List.replicate count 0x20

/-- `%<width>d` and the like: blanks or zeros in front. -/
def paddedFront (fill : UInt8) (width : Nat) (text : List UInt8) : List UInt8 :=
  List.replicate (width - text.length) fill ++ text

/-- `%-5s`. -/
def paddedBack (width : Nat) (text : List UInt8) : List UInt8 :=
  text ++ blanks (width - text.length)

/-- `%0<width>X`. -/
def hexadecimal (width number : Nat) : List UInt8 :=
  paddedFront 0x30 width ((Nat.toDigits 16 number).map fun digit => UInt8.ofNat digit.toUpper.toNat)

variable {Stream : Type}

/-- The cell of one byte in a row, or the blanks in its place. -/
def byteCell : Option UInt8 → List UInt8
  | some byte => hexadecimal 2 byte.toNat ++ [0x20]
  | none => blanks 3

/-- `write_row`. -/
def writeRow (ops : StreamOps Stream UInt8) (stream : Stream) (sourceLine : Nat) (firstRow : Bool)
    (section_ : SymbolSection) (offset : Nat) (bytes source : List UInt8) : Stream × Bool :=
  andThen
    (ops.write stream (if firstRow then paddedFront 0x20 6 (decimal sourceLine) else blanks 6))
    fun stream =>
  andThen
    (ops.write stream (blanks 2 ++ paddedBack 5 (sectionName section_) ++ blanks 2 ++
      hexadecimal 16 offset ++ blanks 2))
    fun stream =>
  andThen
    (ops.writeAll stream ((List.range listingBytesPerRow).map fun i => byteCell bytes[i]?))
    fun stream =>
  andThen
    (if firstRow ∧ source ≠ [] then ops.write stream source else (stream, true))
    fun stream =>
  ops.write stream [0x0A]

/-- `row_size`: what is left of the span, as far as it fits. -/
def rowSize (emission : EmissionSpan) (emitted : Nat) : Nat :=
  min (emission.size - emitted) listingBytesPerRow

/-- The `do` loop over the rows of one statement, from `emitted` on. -/
def writeRows (ops : StreamOps Stream UInt8) (instr : Instruction) (emission : EmissionSpan)
    (sectionBytes source : List UInt8) (stream : Stream) (emitted : Nat) : Stream × Bool :=
  andThen
    (writeRow ops stream instr.line (emitted == 0) emission.section_ (emission.offset + emitted)
      (slice sectionBytes (emission.offset + emitted) (rowSize emission emitted)) source)
    fun stream =>
  if emitted + rowSize emission emitted < emission.size then
    writeRows ops instr emission sectionBytes source stream (emitted + rowSize emission emitted)
  else (stream, true)
termination_by emission.size - emitted
decreasing_by
  unfold rowSize listingBytesPerRow at *
  omega

/-! ## The listing -/

/-- The three lines above the rows. -/
def listingHeader (sourceName : Option (List UInt8)) : List UInt8 :=
  utf8 "; كشف تجميع نَظْم\n; المصدر: " ++ sourceName.getD (utf8 "unknown") ++
    utf8 ("\n; السطر  القسم  الإزاحة            البايتات" ++
      "                                         المصدر\n")

/-- The loop over the statements. -/
def writeStatements (ops : StreamOps Stream UInt8) (pass2 : Pass2Result) (stream : Stream)
    (cursor : SourceCursor) : List (Instruction × EmissionSpan) → Stream × Bool
  | [] => (stream, true)
  | (instr, emission) :: statements =>
      let sectionSize := pass2.sizes.get emission.section_
      if sectionSize < emission.offset ∨ sectionSize - emission.offset < emission.size then
        (stream, false)
      else
        let (cursor, source) := sourceLineAt cursor instr.line
        andThen
          (writeRows ops instr emission (pass2.bytesIn emission.section_) source stream 0)
          fun stream => writeStatements ops pass2 stream cursor statements

/-- `listing_write_stream`. -/
def listingWriteStream (ops : StreamOps Stream UInt8) (stream : Stream)
    (instructions : InstructionList) (sourceData : List UInt8) (pass2 : Pass2Result) :
    Stream × Bool :=
  if pass2.emissions.length ≠ instructions.data.length then (stream, false)
  else
    andThen (ops.write stream (listingHeader instructions.sourceName)) fun stream =>
    andThen
      (writeStatements ops pass2 stream ⟨sourceData, sourceData, 1⟩
        (instructions.data.zip pass2.emissions))
      fun stream => (stream, !ops.ferror stream)

end Nazm.Cli
