import Nazm.Cli.Listing
import Nazm.Library.Rows

/-!
The rows of a listing as data.

Owns the row that each call of `write_row` prints, the rows of a statement, and
that writing a statement is writing the pieces of its rows one after the other.

Does not own which span or which line a statement has.
-/

namespace Nazm.Cli

open FieldEdits OutputStream Rows
open Nazm.Parser Nazm.Passes Nazm.Symtable Nazm.Diagnostics

/-- A row: a continuation row has no line number and no source text. -/
structure ListingRow where
  line : Option Nat
  section_ : SymbolSection
  offset : Nat
  bytes : List UInt8
  source : List UInt8
deriving DecidableEq

/-- The cell of the line number. -/
def lineCell : Option Nat → List UInt8
  | some line => paddedFront 0x20 6 (decimal line)
  | none => blanks 6

/-- What `write_row` prints, call by call. -/
def ListingRow.pieces (row : ListingRow) : List (List UInt8) :=
  lineCell row.line ::
    (blanks 2 ++ paddedBack 5 (sectionName row.section_) ++ blanks 2 ++
      hexadecimal 16 row.offset ++ blanks 2) ::
    (((List.range listingBytesPerRow).map fun i => byteCell row.bytes[i]?) ++
      ((if row.source = [] then [] else [row.source]) ++ [[0x0A]]))

/-- The text of a row, with its LF. -/
def ListingRow.text (row : ListingRow) : List UInt8 := row.pieces.flatten

variable {Stream : Type} {ops : StreamOps Stream UInt8}

theorem writeRow_eq (stream : Stream) (sourceLine : Nat) (firstRow : Bool)
    (section_ : SymbolSection) (offset : Nat) (bytes source : List UInt8) :
    writeRow ops stream sourceLine firstRow section_ offset bytes source =
      ops.writeAll stream (ListingRow.pieces
        ⟨if firstRow then some sourceLine else none, section_, offset, bytes,
          if firstRow then source else []⟩) := by
  have lines : lineCell (if firstRow then some sourceLine else none) =
      if firstRow then paddedFront 0x20 6 (decimal sourceLine) else blanks 6 := by
    cases firstRow <;> rfl
  have sources : (fun stream => andThen
        (if firstRow ∧ source ≠ [] then ops.write stream source else (stream, true))
        fun stream => ops.write stream [0x0A]) =
      fun stream => ops.writeAll stream
        ((if (if firstRow then source else []) = [] then []
          else [if firstRow then source else []]) ++ [[0x0A]]) := by
    funext stream
    cases firstRow with
    | false => simp [StreamOps.writeAll]
    | true =>
        by_cases empty : source = []
        · simp [empty, StreamOps.writeAll]
        · simp [empty, StreamOps.writeAll]
  unfold writeRow ListingRow.pieces
  rw [sources, writeAll_cons, lines]
  simp only [writeAll_cons, writeAll_append (List.map _ _)]

/-! ## The rows of a statement -/

/-- A row that carries neither line number nor source text. -/
def continuationRow (section_ : SymbolSection) (row : Nat × List UInt8) : ListingRow :=
  ⟨none, section_, row.1, row.2, []⟩

/-- Rows of which the first carries a line number and a source text. -/
def rowsWith (section_ : SymbolSection) (line : Option Nat) (source : List UInt8) :
    List (Nat × List UInt8) → List ListingRow
  | [] => []
  | row :: rows => ⟨line, section_, row.1, row.2, source⟩ :: rows.map (continuationRow section_)

theorem rowsWith_none (section_ : SymbolSection) (rows : List (Nat × List UInt8)) :
    rowsWith section_ none [] rows = rows.map (continuationRow section_) := by
  cases rows <;> rfl

/-- The rows of a statement over the bytes of its span. -/
def statementRows (instr : Instruction) (emission : EmissionSpan) (spanBytes source : List UInt8) :
    List ListingRow :=
  rowsWith emission.section_ (some instr.line) source
    (rowsOf listingBytesPerRow emission.offset spanBytes)

section Statement

variable {instr : Instruction} {emission : EmissionSpan} {sectionBytes source : List UInt8}

theorem rowsOf_slice {emitted : Nat}
    (inside : emission.size ≤ sectionBytes.length - emission.offset)
    (le : emitted ≤ emission.size) :
    rowsOf listingBytesPerRow (emission.offset + emitted)
        (slice sectionBytes (emission.offset + emitted) (emission.size - emitted)) =
      (emission.offset + emitted,
        slice sectionBytes (emission.offset + emitted) (rowSize emission emitted)) ::
      if emitted + rowSize emission emitted < emission.size then
        rowsOf listingBytesPerRow (emission.offset + (emitted + rowSize emission emitted))
          (slice sectionBytes (emission.offset + (emitted + rowSize emission emitted))
            (emission.size - (emitted + rowSize emission emitted)))
      else [] := by
  have length : (slice sectionBytes (emission.offset + emitted) (emission.size - emitted)).length =
      emission.size - emitted := by
    rw [slice, List.length_take, List.length_drop]
    omega
  rw [rowsOf, length]
  by_cases more : listingBytesPerRow < emission.size - emitted
  · have full : rowSize emission emitted = listingBytesPerRow := Nat.min_eq_right (by omega)
    have positive : 0 < listingBytesPerRow := by decide
    rw [if_pos ⟨more, positive⟩, full, if_pos (by omega), slice, List.take_take, List.drop_take,
      List.drop_drop, Nat.min_eq_left (by omega), Nat.add_assoc, Nat.sub_sub]
    rfl
  · have last : rowSize emission emitted = emission.size - emitted := Nat.min_eq_left (by omega)
    rw [if_neg (fun both => more both.1), last, if_neg (by omega)]

/-- Writing a statement from `emitted` on is writing the rows that are left. -/
theorem writeRows_eq (inside : emission.size ≤ sectionBytes.length - emission.offset)
    (stream : Stream) {emitted : Nat} (le : emitted ≤ emission.size) :
    writeRows ops instr emission sectionBytes source stream emitted =
      ops.writeAll stream ((rowsWith emission.section_
        (if emitted == 0 then some instr.line else none) (if emitted == 0 then source else [])
        (rowsOf listingBytesPerRow (emission.offset + emitted)
          (slice sectionBytes (emission.offset + emitted)
            (emission.size - emitted)))).flatMap ListingRow.pieces) := by
  induction stream, emitted using writeRows.induct emission with
  | case1 stream emitted inductionHypothesis =>
      rw [writeRows, writeRow_eq, rowsOf_slice inside le, rowsWith, List.flatMap_cons,
        writeAll_append]
      congr 1
      funext next
      by_cases more : emitted + rowSize emission emitted < emission.size
      · have later : (emitted + rowSize emission emitted == 0) = false := by
          have positive : 0 < rowSize emission emitted := by
            unfold rowSize listingBytesPerRow
            omega
          exact beq_false_of_ne (by omega)
        rw [if_pos more, if_pos more, inductionHypothesis next more (by omega), later,
          if_neg Bool.false_ne_true, if_neg Bool.false_ne_true, rowsWith_none]
      · rw [if_neg more, if_neg more]
        rfl

/-- Writing a statement is writing its rows. -/
theorem writeRows_start (inside : emission.size ≤ sectionBytes.length - emission.offset)
    (stream : Stream) :
    writeRows ops instr emission sectionBytes source stream 0 =
      ops.writeAll stream ((statementRows instr emission
        (slice sectionBytes emission.offset emission.size) source).flatMap ListingRow.pieces) :=
  writeRows_eq inside stream (Nat.zero_le _)

end Statement

end Nazm.Cli
