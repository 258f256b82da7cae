import Nazm.Cli.ListingRows
import Nazm.Lexer.TokenLines
import Nazm.Library.TextLines
import Nazm.Passes.Spans
import Nazm.Passes.Tiling

/-!
The listing of an accepted source.

Owns that the cursor finds every line of the source, that the listing is its
header and the rows of the statements in order, and that these rows show the
sections byte for byte and each statement with its line.

Does not own a stream that fails.
-/

namespace Nazm.Cli

open FieldEdits OutputStream Rows TextLines Tiling
open Nazm.Lexer Nazm.Parser Nazm.Passes Nazm.Symtable Nazm.Unicode Nazm.Diagnostics

/-! ## The cursor -/

/-- A line of the source, if it has one of that number, without its LF. -/
def sourceLine (sourceData : List UInt8) (line : Nat) : Option (List UInt8) :=
  if line = 0 then none else (sourceData.splitOn 0x0A)[line - 1]?

/-- A line of the source, without its LF and without a CR at its end. -/
def lineText (sourceData : List UInt8) (line : Nat) : Option (List UInt8) :=
  (sourceLine sourceData line).map withoutCr

theorem withoutCr_getD (line : Option (List UInt8)) :
    withoutCr (line.getD []) = (line.map withoutCr).getD [] := by
  cases line <;> rfl

/-- The cursor stands at the start of its line. -/
structure SourceCursor.AtLine (cursor : SourceCursor) (sourceData : List UInt8) : Prop where
  data : cursor.data = sourceData
  positive : 0 < cursor.line
  rest : cursor.rest = fromLine 0x0A (cursor.line - 1) sourceData

section Cursor

variable {cursor : SourceCursor} {sourceData : List UInt8}

theorem SourceCursor.AtLine.start (sourceData : List UInt8) :
    SourceCursor.AtLine ⟨sourceData, sourceData, 1⟩ sourceData :=
  ⟨rfl, Nat.one_pos, rfl⟩

theorem SourceCursor.AtLine.rewind (atLine : cursor.AtLine sourceData) {targetLine : Nat}
    (positive : 0 < targetLine) :
    (cursor.rewind targetLine).AtLine sourceData ∧
      (cursor.rewind targetLine).line ≤ targetLine := by
  unfold SourceCursor.rewind
  split
  · exact ⟨⟨atLine.data, Nat.one_pos, atLine.data⟩, positive⟩
  · next notBehind => exact ⟨atLine, Nat.le_of_not_lt notBehind⟩

/-- The cursor moves to the target, or to the end of the source before it. -/
theorem SourceCursor.AtLine.advance {targetLine : Nat} (atLine : cursor.AtLine sourceData)
    (notPast : cursor.line ≤ targetLine) :
    (cursor.advance targetLine).AtLine sourceData ∧
      (cursor.advance targetLine).line ≤ targetLine ∧
      ((cursor.advance targetLine).line = targetLine ∨ (cursor.advance targetLine).rest = []) := by
  induction cursor using SourceCursor.advance.induct targetLine with
  | case1 cursor before inductionHypothesis =>
      rw [SourceCursor.advance, if_pos before]
      refine inductionHypothesis ⟨atLine.data, Nat.succ_pos _, ?_⟩ before.1
      obtain ⟨count, isCount⟩ := Nat.exists_eq_succ_of_ne_zero (Nat.ne_of_gt atLine.positive)
      have next := @fromLine_succ _ _ (0x0A : UInt8) count sourceData
      rw [atLine.rest, Nat.add_sub_cancel, isCount, Nat.succ_eq_add_one, Nat.add_sub_cancel, next]
      rfl
  | case2 cursor stays =>
      rw [SourceCursor.advance, if_neg stays]
      refine ⟨atLine, notPast, ?_⟩
      by_cases usedUp : cursor.rest = []
      · exact .inr usedUp
      · exact .inl (by
          have notBefore : ¬ cursor.line < targetLine := fun before => stays ⟨before, usedUp⟩
          omega)

/-- `source_line_at` finds the line, wherever the cursor stands. -/
theorem sourceLineAt_eq (atLine : cursor.AtLine sourceData) (targetLine : Nat) :
    (sourceLineAt cursor targetLine).1.AtLine sourceData ∧
      (sourceLineAt cursor targetLine).2 = (lineText sourceData targetLine).getD [] := by
  unfold sourceLineAt lineText sourceLine
  by_cases none : targetLine = 0
  · rw [if_pos (by omega), if_pos none]
    exact ⟨atLine, rfl⟩
  · obtain ⟨rewound, notPast⟩ := atLine.rewind (Nat.pos_of_ne_zero none)
    obtain ⟨moved, le, stops⟩ := rewound.advance notPast
    rw [if_neg (by omega), if_neg none]
    dsimp only
    rw [← withoutCr_getD, ← takeWhile_fromLine]
    split
    · next outside =>
        refine ⟨moved, ?_⟩
        have usedUp : ((cursor.rewind targetLine).advance targetLine).rest = [] :=
          outside.elim (fun other => stops.resolve_left other) id
        rw [moved.rest] at usedUp
        rw [fromLine_eq_nil_of_le (Nat.sub_le_sub_right le 1) usedUp]
        rfl
    · next found =>
        rw [not_or, not_not] at found
        refine ⟨moved, ?_⟩
        dsimp only
        rw [moved.rest, found.1]

end Cursor

/-! ## The text of a listing -/

/-- The rows of the statements, each over the bytes of its span. -/
def listingRows (sourceData : List UInt8) (pass2 : Pass2Result)
    (statements : List (Instruction × EmissionSpan)) : List (List ListingRow) :=
  statements.map fun (instr, emission) =>
    statementRows instr emission (pass2.spanBytes emission)
      ((lineText sourceData instr.line).getD [])

/-- A span inside its section. -/
structure SpanInside (pass2 : Pass2Result) (emission : EmissionSpan) : Prop where
  offset : emission.offset ≤ pass2.sizes.get emission.section_
  size : emission.size ≤ pass2.sizes.get emission.section_ - emission.offset
  bytes : emission.size ≤ (pass2.bytesIn emission.section_).length - emission.offset

variable {Stream : Type} {ops : StreamOps Stream UInt8}

/-- Where every span is inside its section, the loop over the statements writes
their rows. -/
theorem writeStatements_eq {pass2 : Pass2Result} {sourceData : List UInt8}
    {statements : List (Instruction × EmissionSpan)}
    (inside : ∀ statement ∈ statements, SpanInside pass2 statement.2) (stream : Stream)
    {cursor : SourceCursor} (atLine : cursor.AtLine sourceData) :
    writeStatements ops pass2 stream cursor statements =
      ops.writeAll stream
        ((listingRows sourceData pass2 statements).flatten.flatMap ListingRow.pieces) := by
  induction statements generalizing stream cursor with
  | nil => rfl
  | cons statement statements inductionHypothesis =>
      obtain ⟨instr, emission⟩ := statement
      have here : SpanInside pass2 emission := inside (instr, emission) List.mem_cons_self
      obtain ⟨moved, isLine⟩ := sourceLineAt_eq atLine instr.line
      have fits : ¬ (pass2.sizes.get emission.section_ < emission.offset ∨
          pass2.sizes.get emission.section_ - emission.offset < emission.size) := by
        have offset := here.offset
        have size := here.size
        omega
      rw [writeStatements]
      dsimp only
      rw [if_neg fits, writeRows_start here.bytes, isLine, listingRows, List.map_cons,
        List.flatten_cons, List.flatMap_append, writeAll_append]
      congr 1
      funext next
      exact inductionHypothesis
        (fun statement member => inside statement (List.mem_cons_of_mem _ member)) next moved

/-! ## The rows of a section -/

/-- The rows of a section, in the order of the listing. -/
def rowsIn (rows : List ListingRow) (section_ : SymbolSection) : List ListingRow :=
  rows.filter fun row => decide (row.section_ = section_)

section Sections

variable {pass2 : Pass2Result} {sourceData : List UInt8}

/-- The place and the bytes of each row, whichever is the first. -/
theorem rowsWith_places (section_ : SymbolSection) (line : Option Nat) (source : List UInt8)
    (rows : List (Nat × List UInt8)) :
    (rowsWith section_ line source rows).map (fun row => (row.section_, row.offset, row.bytes)) =
      rows.map fun row => (section_, row) := by
  cases rows with
  | nil => rfl
  | cons row rows => simp [rowsWith, continuationRow]

theorem rowsIn_statementRows (instr : Instruction) (emission : EmissionSpan)
    (spanBytes source : List UInt8) (section_ : SymbolSection) :
    (rowsIn (statementRows instr emission spanBytes source) section_).map
        (fun row => (row.offset, row.bytes)) =
      if emission.section_ = section_ then
        rowsOf listingBytesPerRow emission.offset spanBytes
      else [] := by
  have places := rowsWith_places emission.section_ (some instr.line) source
    (rowsOf listingBytesPerRow emission.offset spanBytes)
  have sections : ∀ row ∈ statementRows instr emission spanBytes source,
      row.section_ = emission.section_ := by
    intro row member
    have inPlaces := List.mem_map_of_mem (f := fun row : ListingRow =>
      (row.section_, row.offset, row.bytes)) member
    rw [statementRows, places, List.mem_map] at inPlaces
    obtain ⟨_, _, same⟩ := inPlaces
    exact (Prod.mk.inj same).1.symm
  split
  · next here =>
      have all : rowsIn (statementRows instr emission spanBytes source) section_ =
          statementRows instr emission spanBytes source :=
        List.filter_eq_self.mpr fun row member => by rw [sections row member, here]; simp
      have pairs := congrArg (List.map Prod.snd) places
      rw [List.map_map, List.map_map] at pairs
      rw [all]
      exact pairs.trans (List.map_id _)
  · next elsewhere =>
      have none : rowsIn (statementRows instr emission spanBytes source) section_ = [] :=
        List.filter_eq_nil_iff.mpr fun row member => by
          rw [sections row member]
          simp [elsewhere]
      rw [none, List.map_nil]

/-- The rows of a section are the rows of its spans. -/
theorem rowsIn_listingRows (statements : List (Instruction × EmissionSpan))
    (section_ : SymbolSection) :
    (rowsIn (listingRows sourceData pass2 statements).flatten section_).map
        (fun row => (row.offset, row.bytes)) =
      (spansIn (statements.map Prod.snd) section_).flatMap fun span =>
        rowsOf listingBytesPerRow span.offset (pass2.spanBytes span) := by
  induction statements with
  | nil => rfl
  | cons statement statements inductionHypothesis =>
      obtain ⟨instr, emission⟩ := statement
      rw [listingRows, List.map_cons, List.flatten_cons, rowsIn, List.filter_append, List.map_append]
      have here := rowsIn_statementRows instr emission (pass2.spanBytes emission)
        ((lineText sourceData instr.line).getD []) section_
      rw [rowsIn] at here
      rw [here, List.map_cons, spansIn, List.filter_cons]
      rw [rowsIn, listingRows, spansIn] at inductionHypothesis
      rw [inductionHypothesis]
      by_cases same : emission.section_ = section_
      · simp [same]
      · simp [same]

end Sections

/-! ## Accepted sources -/

section Accepted

variable {src : SourceBuffer}

/-- The spans of a section with bytes lie one after the other over its bytes. -/
theorem spansIn_contiguous (accepted : Accepted src) {section_ : SymbolSection}
    (hasBytes : section_ ≠ .bss) :
    Contiguous EmissionSpan.offset EmissionSpan.size 0
      (spansIn (sourcePass2 src).emissions section_)
      ((sourcePass2 src).bytesIn section_).length := by
  obtain ⟨-, text, data, readOnlyData, -⟩ :=
    spans_tile_sections (sourceInstructions src) accepted.sized accepted.encoded
  cases section_ with
  | text => exact text.contiguous
  | data => exact data.contiguous
  | readOnlyData => exact readOnlyData.contiguous
  | bss => contradiction

theorem mem_spansIn {spans : List EmissionSpan} {span : EmissionSpan} (member : span ∈ spans) :
    span ∈ spansIn spans span.section_ :=
  List.mem_filter.mpr ⟨member, decide_eq_true rfl⟩

theorem spanInside (accepted : Accepted src) {span : EmissionSpan}
    (member : span ∈ (sourcePass2 src).emissions) : SpanInside (sourcePass2 src) span := by
  have inSection := mem_spansIn member
  by_cases bss : span.section_ = .bss
  · obtain ⟨-, -, -, -, empty, -, inside⟩ :=
      spans_tile_sections (sourceInstructions src) accepted.sized accepted.encoded
    rw [bss] at inSection
    have noSize : span.size = 0 := empty span inSection
    refine ⟨?_, by rw [noSize]; exact Nat.zero_le _, by rw [noSize]; exact Nat.zero_le _⟩
    rw [bss]
    exact inside span inSection
  · obtain ⟨-, ends⟩ := (spansIn_contiguous accepted bss).inside inSection
    have length := length_bytesIn (sourcePass2 src) bss
    rw [length] at ends
    exact ⟨by omega, by omega, by omega⟩

theorem spanBytes_length (accepted : Accepted src) {span : EmissionSpan}
    (member : span ∈ (sourcePass2 src).emissions) :
    ((sourcePass2 src).spanBytes span).length = span.size := by
  have inside := (spanInside accepted member).bytes
  rw [Pass2Result.spanBytes, slice, List.length_take, List.length_drop]
  omega

/-- The statements of the source with their spans. -/
def listedStatements (src : SourceBuffer) : List (Instruction × EmissionSpan) :=
  (sourceInstructions src).data.zip (sourcePass2 src).emissions

theorem length_emissions (accepted : Accepted src) :
    (sourcePass2 src).emissions.length = (sourceInstructions src).data.length :=
  (spans_tile_sections (sourceInstructions src) accepted.sized accepted.encoded).1

theorem listedStatements_spans (accepted : Accepted src) :
    (listedStatements src).map Prod.snd = (sourcePass2 src).emissions :=
  List.map_snd_zip (Nat.le_of_eq (length_emissions accepted))

theorem listedStatements_instructions (accepted : Accepted src) :
    (listedStatements src).map Prod.fst = (sourceInstructions src).data :=
  List.map_fst_zip (Nat.le_of_eq (length_emissions accepted).symm)

/-- The rows that show the bytes of a section. -/
theorem sectionRows (accepted : Accepted src) (section_ : SymbolSection) :
    (rowsIn (listingRows src.data (sourcePass2 src) (listedStatements src)).flatten section_).map
        (fun row => (row.offset, row.bytes)) =
      (spansIn (sourcePass2 src).emissions section_).flatMap fun span =>
        rowsOf listingBytesPerRow span.offset ((sourcePass2 src).spanBytes span) := by
  rw [rowsIn_listingRows, listedStatements_spans accepted]

end Accepted

/-! ## Faithful listings -/

/-- The rows of a statement: the first carries its line, the others do not. -/
def ListsStatement (text : Nat → Option (List UInt8)) (instr : Instruction)
    (rows : List ListingRow) : Prop :=
  ∃ first rest, rows = first :: rest ∧ first.line = some instr.line ∧
    text instr.line = some first.source ∧ ∀ row ∈ rest, row.line = none ∧ row.source = []

/-- Rows that show every section byte for byte, each at the offset of its first
byte, and every statement in order with its line. -/
structure Faithful (text : Nat → Option (List UInt8)) (instructions : List Instruction)
    (pass2 : Pass2Result) (rows : List (List ListingRow)) : Prop where
  statements : List.Forall₂ (ListsStatement text) instructions rows
  short : ∀ row ∈ rows.flatten, row.bytes.length ≤ 16
  bytes : ∀ section_ ≠ .bss,
    (rowsIn rows.flatten section_).flatMap ListingRow.bytes = pass2.bytesIn section_
  offsets : ∀ section_ ≠ .bss, Contiguous ListingRow.offset (fun row => row.bytes.length) 0
    (rowsIn rows.flatten section_) (pass2.bytesIn section_).length
  noBytes : ∀ row ∈ rowsIn rows.flatten .bss, row.bytes = []

section Accepted

variable {src : SourceBuffer}

/-- A statement stands on a line that the source has. -/
theorem instructionLine (accepted : Accepted src) {instr : Instruction}
    (member : instr ∈ (sourceInstructions src).data) :
    ∃ line, sourceLine src.data instr.line = some line := by
  obtain ⟨cps, isText⟩ := codepoints_of_wellFormed (lexerLex_utf8 src accepted.lexed).1
  obtain ⟨token, inTokens, same⟩ := parserParse_lines accepted.parsed instr member
  obtain ⟨positive, le⟩ := lexerLex_lines isText token inTokens
  have inRange : instr.line - 1 < (src.data.splitOn 0x0A).length := by
    rw [length_splitOn, count_newline isText, same]
    unfold lineOf at le
    omega
  refine ⟨(src.data.splitOn 0x0A)[instr.line - 1], ?_⟩
  rw [sourceLine, if_neg (by omega), List.getElem?_eq_getElem inRange]

theorem listsStatement (instr : Instruction) (emission : EmissionSpan)
    (spanBytes : List UInt8) {text : Nat → Option (List UInt8)} {line : List UInt8}
    (isLine : text instr.line = some line) :
    ListsStatement text instr (statementRows instr emission spanBytes line) := by
  obtain ⟨row, rows, isRows⟩ := List.exists_cons_of_ne_nil
    (rowsOf_ne_nil listingBytesPerRow emission.offset spanBytes)
  rw [statementRows, isRows, rowsWith]
  refine ⟨_, _, rfl, rfl, isLine, fun row member => ?_⟩
  obtain ⟨_, _, rfl⟩ := List.mem_map.mp member
  exact ⟨rfl, rfl⟩

theorem bytesIn_of_mem_spansIn {spans : List EmissionSpan} {section_ : SymbolSection}
    {span : EmissionSpan} (member : span ∈ spansIn spans section_) :
    span ∈ spans ∧ span.section_ = section_ := by
  obtain ⟨inSpans, here⟩ := List.mem_filter.mp member
  exact ⟨inSpans, of_decide_eq_true here⟩

theorem rows_statements (accepted : Accepted src) :
    List.Forall₂ (ListsStatement (lineText src.data)) (sourceInstructions src).data
      (listingRows src.data (sourcePass2 src) (listedStatements src)) := by
  rw [← listedStatements_instructions accepted, listingRows, List.forall₂_map_left_iff,
    List.forall₂_map_right_iff, List.forall₂_same]
  rintro ⟨instr, emission⟩ member
  have inSource : instr ∈ (sourceInstructions src).data := (List.of_mem_zip member).1
  obtain ⟨line, isLine⟩ := instructionLine accepted inSource
  have isText : lineText src.data instr.line = some (withoutCr line) := by
    rw [lineText, isLine, Option.map_some]
  dsimp only
  rw [isText, Option.getD_some]
  exact listsStatement instr emission _ isText

theorem rows_short (statements : List (Instruction × EmissionSpan)) {sourceData : List UInt8}
    {pass2 : Pass2Result} :
    ∀ row ∈ (listingRows sourceData pass2 statements).flatten, row.bytes.length ≤ 16 := by
  intro row member
  obtain ⟨rows, inRows, member⟩ := List.mem_flatten.mp member
  obtain ⟨⟨instr, emission⟩, -, rfl⟩ := List.mem_map.mp inRows
  dsimp only at member
  have place := List.mem_map_of_mem (f := fun row : ListingRow =>
    (row.section_, row.offset, row.bytes)) member
  rw [statementRows, rowsWith_places, List.mem_map] at place
  obtain ⟨cut, inCuts, same⟩ := place
  have isCut : cut = (row.offset, row.bytes) := (Prod.mk.inj same).2
  have fits := length_le_of_mem_rowsOf (by decide) inCuts
  rw [isCut] at fits
  exact fits

/-- The rows of a section with bytes are its bytes. -/
theorem rows_bytes (accepted : Accepted src) {section_ : SymbolSection}
    (hasBytes : section_ ≠ .bss) :
    (rowsIn (listingRows src.data (sourcePass2 src) (listedStatements src)).flatten
        section_).flatMap ListingRow.bytes = (sourcePass2 src).bytesIn section_ := by
  have places := congrArg (List.flatMap Prod.snd) (sectionRows accepted section_)
  rw [List.flatMap_map, List.flatMap_assoc] at places
  refine places.trans ?_
  calc
    (spansIn (sourcePass2 src).emissions section_).flatMap (fun span =>
        (rowsOf listingBytesPerRow span.offset ((sourcePass2 src).spanBytes span)).flatMap Prod.snd)
      = (spansIn (sourcePass2 src).emissions section_).flatMap fun span =>
          (((sourcePass2 src).bytesIn section_).drop span.offset).take span.size := by
        refine List.flatMap_congr fun span member => ?_
        rw [flatMap_rowsOf, Pass2Result.spanBytes, (bytesIn_of_mem_spansIn member).2]
        rfl
    _ = (sourcePass2 src).bytesIn section_ := by
        rw [(spansIn_contiguous accepted hasBytes).items, List.drop_zero, Nat.sub_zero,
          List.take_length]

theorem rows_offsets (accepted : Accepted src) {section_ : SymbolSection}
    (hasBytes : section_ ≠ .bss) :
    Contiguous ListingRow.offset (fun row => row.bytes.length) 0
      (rowsIn (listingRows src.data (sourcePass2 src) (listedStatements src)).flatten section_)
      ((sourcePass2 src).bytesIn section_).length := by
  have cut : Contiguous Prod.fst (fun row => row.2.length) 0
      ((spansIn (sourcePass2 src).emissions section_).flatMap fun span =>
        rowsOf listingBytesPerRow span.offset ((sourcePass2 src).spanBytes span))
      ((sourcePass2 src).bytesIn section_).length :=
    (spansIn_contiguous accepted hasBytes).cut fun span member => by
      rw [← spanBytes_length accepted (bytesIn_of_mem_spansIn member).1]
      exact contiguous_rowsOf listingBytesPerRow span.offset _
  rw [← sectionRows accepted section_, contiguous_map] at cut
  exact cut

theorem rows_noBytes (accepted : Accepted src) :
    ∀ row ∈ rowsIn (listingRows src.data (sourcePass2 src) (listedStatements src)).flatten .bss,
      row.bytes = [] := by
  intro row member
  have place := List.mem_map_of_mem (f := fun row : ListingRow => (row.offset, row.bytes)) member
  rw [sectionRows accepted .bss, List.mem_flatMap] at place
  obtain ⟨span, inSpans, inRows⟩ := place
  have bytes : row.bytes ∈ (rowsOf listingBytesPerRow span.offset
      ((sourcePass2 src).spanBytes span)).map Prod.snd := List.mem_map_of_mem (f := Prod.snd) inRows
  have noBytes : (sourcePass2 src).spanBytes span = [] := by
    rw [Pass2Result.spanBytes, (bytesIn_of_mem_spansIn inSpans).2]
    show (([] : List UInt8).drop span.offset).take span.size = []
    rw [List.drop_nil, List.take_nil]
  rw [noBytes, rowsOf, if_neg (by simp)] at bytes
  exact List.mem_singleton.mp bytes

/-- The rows of an accepted source are faithful. -/
theorem listingRows_faithful (accepted : Accepted src) :
    Faithful (lineText src.data) (sourceInstructions src).data (sourcePass2 src)
      (listingRows src.data (sourcePass2 src) (listedStatements src)) where
  statements := rows_statements accepted
  short := rows_short (listedStatements src)
  bytes _ hasBytes := rows_bytes accepted hasBytes
  offsets _ hasBytes := rows_offsets accepted hasBytes
  noBytes := rows_noBytes accepted

end Accepted

/-! ## The listing of an accepted source -/

/-- The bytes of a listing. -/
def listingText (sourceName : Option (List UInt8)) (rows : List (List ListingRow)) : List UInt8 :=
  listingHeader sourceName ++ rows.flatten.flatMap ListingRow.text

/-- The pieces that are written of an accepted source, one call after the other. -/
def listingPieces (src : SourceBuffer) : List (List UInt8) :=
  listingHeader (sourceInstructions src).sourceName ::
    (listingRows src.data (sourcePass2 src) (listedStatements src)).flatten.flatMap
      ListingRow.pieces

theorem flatten_flatMap_pieces (rows : List ListingRow) :
    (rows.flatMap ListingRow.pieces).flatten = rows.flatMap ListingRow.text := by
  rw [List.flatMap_def, List.flatMap_def, List.flatten_flatten, List.map_map]
  rfl

/-- `listing_write_stream` writes the pieces up to the first failure, then looks
at the error flag. -/
theorem listingWriteStream_eq {src : SourceBuffer} (accepted : Accepted src) (stream : Stream) :
    listingWriteStream ops stream (sourceInstructions src) src.data (sourcePass2 src) =
      andThen (ops.writeAll stream (listingPieces src)) fun stream =>
        (stream, !ops.ferror stream) := by
  have inside : ∀ statement ∈ listedStatements src, SpanInside (sourcePass2 src) statement.2 :=
    fun _ member => spanInside accepted (List.of_mem_zip member).2
  rw [listingWriteStream, if_neg (fun differs => differs (length_emissions accepted)), listingPieces,
    writeAll_cons, andThen_assoc]
  congr 1
  funext next
  have written := @writeStatements_eq _ ops _ _ _ inside next _ (.start src.data)
  rw [listedStatements] at written
  rw [written]
  rfl

/-- The listing is faithful: on a stream that does not fail it succeeds, and it
is the header and rows that show each section byte for byte and each statement
with its line. A CR at the end of a line is left out, also where no LF follows. -/
theorem listing_faithful {contents : Stream → List UInt8} {good : Stream → Prop} {stream : Stream}
    {src : SourceBuffer} (healthy : Healthy ops contents good) (isGood : good stream)
    (accepted : Accepted src) :
    let listed := listingWriteStream ops stream (sourceInstructions src) src.data (sourcePass2 src)
    listed.2 = true ∧ ∃ rows,
      Faithful (lineText src.data) (sourceInstructions src).data (sourcePass2 src) rows ∧
      contents listed.1 =
        contents stream ++ listingText (sourceInstructions src).sourceName rows := by
  obtain ⟨succeeds, stillGood, holds⟩ := healthy.writeAll isGood (listingPieces src)
  dsimp only
  rw [listingWriteStream_eq accepted, andThen, if_pos succeeds]
  refine ⟨by rw [healthy.noError stillGood]; rfl, _, listingRows_faithful accepted, ?_⟩
  dsimp only
  rw [holds, listingPieces, List.flatten_cons, flatten_flatMap_pieces]
  rfl

/-- Blank lines, CRLF, a span of two rows and a last line without LF. -/
def wideData : SourceBuffer :=
  ⟨utf8 "\r\n\nابدأ: ارجع\r\n.بيانات\n.عدد٦٤ 1 2 3\n.عدد٨ 1", none⟩

theorem listing_faithful_wideData :
    ∃ rows, Faithful (lineText wideData.data) (sourceInstructions wideData).data
        (sourcePass2 wideData) rows ∧
      (listingWriteStream memoryOps [] (sourceInstructions wideData) wideData.data
        (sourcePass2 wideData)).1 =
        [] ++ listingText (sourceInstructions wideData).sourceName rows :=
  (listing_faithful memoryOps_healthy trivial (by decide +kernel)).2

/-! ## A CR without LF -/

/-- A line of the source, without its LF and without a CR before that LF: the
last line has no LF. -/
def lineTextBeforeLf (sourceData : List UInt8) (line : Nat) : Option (List UInt8) :=
  if line = (sourceData.splitOn 0x0A).length then sourceLine sourceData line
  else lineText sourceData line

/-- A CR at the end of the source, on a line without LF. -/
def lastReturn : SourceBuffer := ⟨utf8 "ارجع\r", none⟩

theorem mem_listingText {sourceName : Option (List UInt8)} {rows : List (List ListingRow)}
    {row : ListingRow} {byte : UInt8} (member : row ∈ rows.flatten) (shown : byte ∈ row.source) :
    byte ∈ listingText sourceName rows := by
  refine List.mem_append_right _ (List.mem_flatMap.mpr ⟨row, member, ?_⟩)
  have some_ : row.source ≠ [] := List.ne_nil_of_mem shown
  simp [ListingRow.text, ListingRow.pieces, some_, shown]

/-- The listing leaves out a CR that stands before no LF. -/
theorem listing_drops_last_return :
    Accepted lastReturn ∧ ¬∃ rows,
      Faithful (lineTextBeforeLf lastReturn.data) (sourceInstructions lastReturn).data
        (sourcePass2 lastReturn) rows ∧
      (listingWriteStream memoryOps [] (sourceInstructions lastReturn) lastReturn.data
        (sourcePass2 lastReturn)).1 =
        [] ++ listingText (sourceInstructions lastReturn).sourceName rows := by
  refine ⟨by decide +kernel, fun ⟨rows, faithful, written⟩ => ?_⟩
  have noReturn : 0x0D ∉ (listingWriteStream memoryOps [] (sourceInstructions lastReturn)
      lastReturn.data (sourcePass2 lastReturn)).1 := by
    decide +kernel
  have oneLine : ∀ instr ∈ (sourceInstructions lastReturn).data, instr.line = 1 := by
    decide +kernel
  obtain ⟨instr, isOnly⟩ : ∃ instr, (sourceInstructions lastReturn).data = [instr] :=
    List.length_eq_one_iff.mp (by decide +kernel)
  have lists := faithful.statements
  rw [isOnly] at lists oneLine
  cases lists with
  | @cons _ shown _ _ statement more =>
      obtain ⟨first, rest, rfl, -, isText, -⟩ := statement
      have isSource : first.source = lastReturn.data := by
        rw [oneLine instr List.mem_cons_self] at isText
        exact (Option.some.inj (isText.symm.trans (by decide +kernel :
          lineTextBeforeLf lastReturn.data 1 = some lastReturn.data)))
      have shows : 0x0D ∈ first.source := by
        rw [isSource]
        decide +kernel
      rw [written, List.nil_append] at noReturn
      exact noReturn (mem_listingText List.mem_cons_self shows)

end Nazm.Cli
