import Nazm.Output.CodeviewReadBack
import Nazm.Output.DwarfReadBack
import Nazm.Output.LineTables

/-!
Looking up an address of `.text` in the line tables.

Owns the instruction that covers an address, the location that is active there,
and when a reader of either line table finds exactly that location at every
address.

Does not own the formats of the tables.
-/

namespace Nazm.Output

open LittleEndian
open Nazm.Encoder Nazm.Lexer Nazm.Parser Nazm.Unicode Nazm.Diagnostics Nazm.Passes

variable {src : SourceBuffer}

/-! ## The instruction at an address -/

/-- The instruction after some statements covers an address of `.text`. -/
def Covers (src : SourceBuffer) (before : List Instruction) (address : Nat) : Prop :=
  ∃ instr after, (sourceInstructions src).data = before ++ instr :: after ∧
    (Layout.after before).Emits instr ∧ (Layout.after before).sizes.text ≤ address ∧
    address < (Layout.after before).sizes.text + instructionSize instr

/-- Only instructions take room in `.text`. -/
theorem text_of_silent {layout : Layout} {instr : Instruction}
    (accepted : StatementAccepted layout.section_ instr) (silent : ¬ layout.Emits instr) :
    (layout.place instr).sizes.text = layout.sizes.text := by
  change (layout.place instr).sizes.get .text = layout.sizes.get .text
  rw [Layout.place, SectionSizes.get_add]
  split
  · next text =>
      have size : layout.statementSize instr = 0 := by
        rw [Layout.statementSize]
        split
        · next none =>
            refine if_pos (Or.inl ?_)
            by_contra named
            exact silent ⟨none, named, text⟩
        · refine if_neg fun isData => accepted.notText isData text
      rw [size, Nat.add_zero]
  · rfl

/-- An instruction covers each address of `.text`. -/
theorem exists_covers (accepted : Accepted src) {address : Nat}
    (inText : address < (sourcePass2 src).textBytes.length) :
    ∃ before, Covers src before address := by
  have whole : address < (Layout.after (sourceInstructions src).data).sizes.text := by
    have sizes : (sourcePass2 src).textBytes.length = (sourcePass2 src).sizes.get .text := rfl
    rw [sizes, accepted.image.sizes] at inText
    exact inText
  have search : ∀ statements rest, (sourceInstructions src).data = statements ++ rest →
      address < (Layout.after statements).sizes.text → ∃ before, Covers src before address := by
    intro statements
    induction statements using List.reverseRecOn with
    | nil => exact fun _ _ none => absurd none (Nat.not_lt_zero address)
    | append_singleton before instr inductionHypothesis =>
        intro rest split reached
        have split' : (sourceInstructions src).data = before ++ instr :: rest := by
          rw [split, List.append_assoc, List.singleton_append]
        by_cases earlier : address < (Layout.after before).sizes.text
        · exact inductionHypothesis _ split' earlier
        · rw [Layout.after_snoc] at reached
          by_cases emits : (Layout.after before).Emits instr
          · rw [emits_text emits] at reached
            exact ⟨before, instr, rest, split', emits, Nat.le_of_not_lt earlier, reached⟩
          · rw [text_of_silent (statementAccepted accepted.sized split') emits] at reached
            exact absurd reached earlier
  exact search _ [] (List.append_nil _).symm whole

/-- No address is covered twice. -/
theorem covers_unique {first second : List Instruction} {address : Nat}
    (one : Covers src first address) (two : Covers src second address) : first = second := by
  have shorter : ∀ {first second : List Instruction}, Covers src first address →
      Covers src second address → first.length < second.length → False := by
    intro first second one two less
    obtain ⟨instr, after, split, emits, -, within⟩ := one
    obtain ⟨other, rest, split', -, lower, -⟩ := two
    have inData : first ++ [instr] <+: (sourceInstructions src).data := by
      refine ⟨after, ?_⟩
      rw [split, List.append_assoc, List.singleton_append]
    have isPrefix : first ++ [instr] <+: second := by
      refine List.prefix_of_prefix_length_le inData ⟨other :: rest, split'.symm⟩ ?_
      rw [List.length_append, List.length_singleton]
      exact less
    obtain ⟨between, rfl⟩ := isPrefix
    have grows := Layout.get_after_le (first ++ [instr]) between .text
    rw [Layout.after_snoc] at grows
    change ((Layout.after first).place instr).sizes.text ≤ _ at grows
    rw [emits_text emits] at grows
    exact absurd (Nat.le_trans grows lower) (Nat.not_le.mpr within)
  rcases Nat.lt_trichotomy first.length second.length with less | same | more
  · exact (shorter one two less).elim
  · obtain ⟨instr, after, split, -⟩ := one
    obtain ⟨other, rest, split', -⟩ := two
    exact (List.append_inj (split.symm.trans split') same).1
  · exact (shorter two one more).elim

/-! ## The active location -/

/-- The location stands for a line of a file. -/
def Marks (location : DebugLocation) : Prop := location.file ≠ 0 ∧ location.line ≠ 0

instance (location : DebugLocation) : Decidable (Marks location) :=
  inferInstanceAs (Decidable (_ ∧ _))

/-- The location that a row stands for. -/
def rowLocation? (files : List DebugFile) (row : DebugLine) : Option Dwarf.Location :=
  (debugFileFind files row.fileId.toNat).map fun file =>
    ⟨file.path, row.line.toNat, row.column.toNat⟩

/-- The file, line and column of the `.موضع` that is active after some statements. -/
def markedLocation? (src : SourceBuffer) (before : List Instruction) : Option Dwarf.Location :=
  let location := activeLocation before
  if Marks location then
    rowLocation? (sourcePass1 src).debugFiles
      ⟨(Layout.after before).sizes.text, location.file, location.line, location.column⟩
  else none

/-- No instruction without a location comes after one with a location. -/
def UnmarkedFirst (statements : List Instruction) : Prop :=
  ∀ before instr after, statements = before ++ instr :: after →
    (Layout.after before).Emits instr → ¬ Marks (activeLocation before) →
    ∀ front other back, before = front ++ other :: back →
      (Layout.after front).Emits other → ¬ Marks (activeLocation front)

/-! ## The rows up to an address -/

theorem le_offset_of_mem_rowsFrom {location : DebugLocation} {layout : Layout}
    {statements : List Instruction} {row : DebugLine}
    (member : row ∈ rowsFrom location (layout.places statements)) :
    layout.sizes.text ≤ row.offset := by
  induction statements generalizing location layout with
  | nil => exact absurd member List.not_mem_nil
  | cons instr statements inductionHypothesis =>
      rw [Layout.places, rowsFrom, List.mem_append] at member
      rcases member with here | later
      · obtain ⟨-, -, -, rfl⟩ := mem_statementRows.mp here
        exact Nat.le_refl _
      · exact Nat.le_trans (layout.get_le_place instr .text) (inductionHypothesis later)

/-- The rows at or before an address are those of the instructions up to the one that covers
it. -/
theorem rows_until {before after : List Instruction} {instr : Instruction} {address : Nat}
    (emits : (Layout.after before).Emits instr)
    (lower : (Layout.after before).sizes.text ≤ address)
    (upper : address < (Layout.after before).sizes.text + instructionSize instr) :
    (programRows (before ++ instr :: after)).filter (fun row => decide (row.offset ≤ address)) =
      programRows before ++ statementRows (activeLocation before) (Layout.after before) instr := by
  have parts : programRows (before ++ instr :: after) = programRows (before ++ [instr]) ++
      rowsFrom (activeLocation (before ++ [instr]))
        ((Layout.after (before ++ [instr])).places after) := by
    rw [programRows, show before ++ instr :: after = before ++ [instr] ++ after by simp,
      Layout.places_append, rowsFrom_append, map_snd_places]
    rfl
  rw [parts, programRows_snoc, List.filter_append, List.filter_append]
  have earlier : (programRows before).filter (fun row => decide (row.offset ≤ address)) =
      programRows before := List.filter_eq_self.mpr fun row member =>
    decide_eq_true (Nat.le_trans (Nat.le_of_lt (offset_lt_of_mem_programRows member)) lower)
  have here : (statementRows (activeLocation before) (Layout.after before) instr).filter
      (fun row => decide (row.offset ≤ address)) =
      statementRows (activeLocation before) (Layout.after before) instr := by
    refine List.filter_eq_self.mpr fun row member => decide_eq_true ?_
    obtain ⟨-, -, -, rfl⟩ := mem_statementRows.mp member
    exact lower
  have later : (rowsFrom (activeLocation (before ++ [instr]))
      ((Layout.after (before ++ [instr])).places after)).filter
        (fun row => decide (row.offset ≤ address)) = [] := by
    refine List.filter_eq_nil_iff.mpr fun row member => ?_
    have beyond := le_offset_of_mem_rowsFrom member
    rw [Layout.after_snoc, emits_text emits] at beyond
    simp only [decide_eq_true_eq]
    omega
  rw [earlier, here, later, List.append_nil]

/-! ## Looking up rows -/

/-- The location of the last row at or before an address. -/
def rowsLookup (src : SourceBuffer) (address : Nat) : Option Dwarf.Location :=
  (((sourcePass2 src).debugLines.filter fun row => decide (row.offset ≤ address)).getLast?).bind
    (rowLocation? (sourcePass1 src).debugFiles)

/-- Looking up each address of `.text` finds what is active at the instruction there. -/
def FindsMarked {α : Type} (src : SourceBuffer) (lookup : Nat → Option α)
    (marked : List Instruction → Option α) : Prop :=
  ∀ address, address < (sourcePass2 src).textBytes.length →
    ∃ before, Covers src before address ∧ lookup address = marked before

theorem rowLocation?_isSome (accepted : Accepted src) {row : DebugLine}
    (member : row ∈ programRows (sourceInstructions src).data) :
    ∃ location, rowLocation? (sourcePass1 src).debugFiles row = some location := by
  rw [← debugLines_of_source accepted] at member
  obtain ⟨file, inFiles, isId⟩ := (rowPlaced accepted member).located.file
  rw [rowLocation?, debugFileFind]
  cases found : (sourcePass1 src).debugFiles.find? fun file => decide (file.id = row.fileId.toNat) with
  | some file => exact ⟨_, rfl⟩
  | none =>
      have other := List.find?_eq_none.mp found file inFiles
      exact absurd (decide_eq_true isId) other

/-- At a marked instruction the last row is its own; at another it is the last one before. -/
theorem rowsLookup_of_covers (accepted : Accepted src) {before after : List Instruction}
    {instr : Instruction} {address : Nat}
    (split : (sourceInstructions src).data = before ++ instr :: after)
    (emits : (Layout.after before).Emits instr)
    (lower : (Layout.after before).sizes.text ≤ address)
    (upper : address < (Layout.after before).sizes.text + instructionSize instr) :
    rowsLookup src address =
      if Marks (activeLocation before) then markedLocation? src before
      else ((programRows before).getLast?).bind (rowLocation? (sourcePass1 src).debugFiles) := by
  rw [rowsLookup, debugLines_of_source accepted, split, rows_until emits lower upper, statementRows]
  by_cases marks : Marks (activeLocation before)
  · rw [if_pos (show _ ∧ _ ∧ _ from ⟨emits, marks⟩), if_pos marks, List.getLast?_concat,
      markedLocation?, if_pos marks]
    rfl
  · rw [if_neg fun active => marks active.2, if_neg marks, List.append_nil]

theorem markedLocation?_of_unmarked {before : List Instruction}
    (unmarked : ¬ Marks (activeLocation before)) : markedLocation? src before = none :=
  if_neg unmarked

theorem programRows_eq_nil_iff {before : List Instruction} :
    programRows before = [] ↔ ∀ front other back, before = front ++ other :: back →
      (Layout.after front).Emits other → ¬ Marks (activeLocation front) := by
  rw [List.eq_nil_iff_forall_not_mem]
  constructor
  · intro none front other back split emits marks
    exact none _ (mem_programRows.mpr ⟨front, other, back, split,
      mem_statementRows.mpr ⟨emits, marks.1, marks.2, rfl⟩⟩)
  · intro unmarked row member
    obtain ⟨front, other, back, split, isRow⟩ := mem_programRows.mp member
    obtain ⟨emits, file, line, -⟩ := mem_statementRows.mp isRow
    exact unmarked front other back split emits ⟨file, line⟩

/-- The rows give each address its location exactly when instructions without a location come
first. -/
theorem rowsLookup_findsMarked_iff {α : Type} (view : Dwarf.Location → α)
    (accepted : Accepted src) :
    FindsMarked src (fun address => (rowsLookup src address).map view)
        (fun before => (markedLocation? src before).map view) ↔
      UnmarkedFirst (sourceInstructions src).data := by
  constructor
  · intro finds before instr after split emits unmarked
    rw [← programRows_eq_nil_iff]
    by_contra some_
    have positive := (instructionSize_bounds instr).1
    have inText : (Layout.after before).sizes.text < (sourcePass2 src).textBytes.length := by
      have sizes : (sourcePass2 src).textBytes.length = (sourcePass2 src).sizes.get .text := rfl
      have grows := Layout.get_after_le (before ++ [instr]) after .text
      rw [Layout.after_snoc, List.append_assoc, List.singleton_append, ← split,
        ← accepted.image.sizes, ← sizes] at grows
      change ((Layout.after before).place instr).sizes.text ≤ _ at grows
      rw [emits_text emits] at grows
      omega
    obtain ⟨other, covers, found⟩ := finds _ inText
    have here : Covers src before (Layout.after before).sizes.text :=
      ⟨instr, after, split, emits, Nat.le_refl _, by omega⟩
    rw [covers_unique covers here] at found
    dsimp only at found
    rw [markedLocation?_of_unmarked unmarked,
      rowsLookup_of_covers accepted split emits (Nat.le_refl _) (by omega), if_neg unmarked] at found
    have isRow := List.getLast?_eq_some_getLast some_
    generalize (programRows before).getLast some_ = row at isRow
    obtain ⟨location, isLocation⟩ := @rowLocation?_isSome _ accepted row (by
      obtain ⟨front, other', back, isBefore, inStatement⟩ :=
        mem_programRows.mp (List.mem_of_getLast? isRow)
      exact mem_programRows.mpr ⟨front, other', back ++ instr :: after, by
        rw [split, isBefore, List.append_assoc, List.cons_append], inStatement⟩)
    rw [isRow, Option.bind_some, isLocation] at found
    contradiction
  · intro first address inText
    obtain ⟨before, covers⟩ := exists_covers accepted inText
    refine ⟨before, covers, ?_⟩
    obtain ⟨instr, after, split, emits, lower, upper⟩ := covers
    dsimp only
    rw [rowsLookup_of_covers accepted split emits lower upper]
    by_cases marks : Marks (activeLocation before)
    · rw [if_pos marks]
    · rw [if_neg marks, markedLocation?_of_unmarked marks,
        programRows_eq_nil_iff.mpr (first before instr after split emits marks)]
      rfl

/-! ## Looking up in the DWARF table -/

theorem find_of_debugFileIndex {files : List DebugFile} {id : UInt32} {index : Nat}
    (isIndex : debugFileIndex files id = some index) :
    files[index]? = debugFileFind files id.toNat := by
  obtain ⟨inFiles, same, earlier⟩ := List.findIdx?_eq_some_iff_getElem.mp isIndex
  have first : files.find? (fun file => decide (file.id = id.toNat)) = some files[index] :=
    List.find?_eq_some_iff_getElem.mpr ⟨same, index, inFiles, rfl, fun before less => by
      rw [Bool.not_eq_true']
      exact Bool.eq_false_iff.mpr (earlier before less)⟩
  rw [List.getElem?_eq_getElem inFiles, debugFileFind, first]

/-- What a reader looks up in a table that is written. -/
theorem dwarf_location {files : List DebugFile} {lines : List DebugLine} {last : Dwarf.Registers}
    (named : ∀ line ∈ lines, ∃ index, debugFileIndex files line.fileId = some index)
    {address : Nat} (inside : address < last.address) :
    (Dwarf.Table.mk (files.map DebugFile.path)
      (lines.map (rowOf files) ++ [⟨last, true⟩])).location? address =
      ((lines.filter fun line => decide (line.offset ≤ address)).getLast?).bind
        (rowLocation? files) := by
  have rows : (Dwarf.Table.mk (files.map DebugFile.path)
      (lines.map (rowOf files) ++ [⟨last, true⟩])).row? address =
      ((lines.filter fun line => decide (line.offset ≤ address)).getLast?).map (rowOf files) := by
    have sequence : (lines.map (rowOf files) ++ [(⟨last, true⟩ : Dwarf.Row)]).takeWhile
        (fun row => !row.endSequence) = lines.map (rowOf files) := by
      rw [List.takeWhile_append_of_pos]
      · exact List.append_nil _
      · intro row member
        obtain ⟨line, -, rfl⟩ := List.mem_map.mp member
        rfl
    have ended : (lines.map (rowOf files) ++ [(⟨last, true⟩ : Dwarf.Row)]).find?
        (fun row => row.endSequence) = some ⟨last, true⟩ := by
      rw [List.find?_append, List.find?_eq_none.mpr]
      · rfl
      · intro row member
        obtain ⟨line, -, rfl⟩ := List.mem_map.mp member
        exact Bool.false_ne_true
    rw [Dwarf.Table.row?]
    dsimp only
    rw [sequence, ended]
    dsimp only
    rw [if_pos inside, List.filter_map, List.getLast?_map]
    rfl
  rw [Dwarf.Table.location?, rows]
  cases found : (lines.filter fun line => decide (line.offset ≤ address)).getLast? with
  | none => rfl
  | some line =>
      obtain ⟨index, isIndex⟩ := named line
        (List.mem_of_mem_filter (List.mem_of_getLast? found))
      have file := find_of_debugFileIndex isIndex
      have isFile : (rowOf files line).registers.file = index + 1 := by
        rw [rowOf, isIndex, Option.getD_some]
      rw [Option.map_some, Option.bind_eq_bind, Option.bind_some, Option.bind_some, isFile,
        if_neg (Nat.succ_ne_zero index), Nat.add_sub_cancel, List.getElem?_map, file, rowLocation?]
      cases debugFileFind files line.fileId.toNat with
      | none => rfl
      | some file => rfl

/-- The DWARF table of a source gives each address what the rows give it. -/
theorem dwarf_location_of_source (accepted : Accepted src)
    (text : (sourcePass2 src).textBytes.length < 2 ^ 64) {table : DwarfLineSection}
    (built : outputBuildDwarfLine (sourceOutput src).debugFiles (sourceOutput src).debugLines
      (sourceOutput src).textBytes.length = .ok table) :
    ∃ read, Dwarf.readTable table.data = some read ∧
      ∀ address, address < (sourcePass2 src).textBytes.length →
        read.location? address = rowsLookup src address := by
  have clean : ∀ file ∈ (sourceOutput src).debugFiles, cString file.path = file.path :=
    fun file member => cString_of_clean (debugFile_clean accepted member)
  obtain ⟨last, isLast, read⟩ := readTable_written (fun file member => by
    rw [clean file member]
    exact debugFile_path accepted member) text built
  rw [List.map_congr_left clean] at read
  refine ⟨_, read, fun address inText => ?_⟩
  refine dwarf_location (fun line member => ?_) (by rw [isLast]; exact inText)
  exact Option.ne_none_iff_exists'.mp
    (debugFileIndex_isSome.mpr (rowPlaced accepted member).located.file)

/-! ## Looking up in the CodeView table -/

theorem mem_entries {lines : List DebugLine} {files : List DebugFile} {textSize : Nat}
    {entry : CodeView.Entry} :
    entry ∈ (CodeView.Table.mk textSize (blocksOf lines files)).entries ↔
      ∃ file ∈ files, ∃ line ∈ lines, line.fileId.toNat = file.id ∧
        entry = ⟨line.offset, cString file.path, line.line.toNat⟩ := by
  rw [CodeView.Table.entries, List.mem_flatMap]
  constructor
  · rintro ⟨block, inBlocks, inBlock⟩
    obtain ⟨file, inFiles, rfl⟩ := List.mem_map.mp inBlocks
    rw [CodeView.Block.entries, List.map_map] at inBlock
    obtain ⟨line, ofFile, rfl⟩ := List.mem_map.mp inBlock
    obtain ⟨inLines, same⟩ := List.mem_filter.mp ofFile
    exact ⟨file, List.mem_of_mem_filter inFiles, line, inLines, of_decide_eq_true same, rfl⟩
  · rintro ⟨file, inFiles, line, inLines, same, rfl⟩
    have ofFile : line ∈ codeviewFileLines lines file :=
      List.mem_filter.mpr ⟨inLines, decide_eq_true same⟩
    refine ⟨⟨cString file.path, (codeviewFileLines lines file).map lineOf⟩,
      List.mem_map.mpr ⟨file, List.mem_filter.mpr ⟨inFiles,
        decide_eq_true (List.ne_nil_of_mem ofFile)⟩, rfl⟩, ?_⟩
    rw [CodeView.Block.entries, List.map_map]
    exact List.mem_map.mpr ⟨line, ofFile, rfl⟩

/-- A location without its column. -/
def withoutColumn (location : Dwarf.Location) : CodeView.Location := ⟨location.file, location.line⟩

theorem last_of_increasing {lines : List DebugLine} {last line : DebugLine}
    (increasing : lines.Pairwise fun first second => first.offset < second.offset)
    (isLast : lines.getLast? = some last) (member : line ∈ lines) :
    line = last ∨ line.offset < last.offset := by
  obtain ⟨front, rfl⟩ := List.getLast?_eq_some_iff.mp isLast
  rcases List.mem_append.mp member with inFront | here
  · exact .inr ((List.pairwise_append.mp increasing).2.2 line inFront last
      (List.mem_singleton_self last))
  · exact .inl (List.mem_singleton.mp here)

/-- What a reader looks up in a table that is written. -/
theorem codeview_location {files : List DebugFile} {lines : List DebugLine} {textSize : Nat}
    (distinct : (files.map DebugFile.id).Nodup)
    (clean : ∀ file ∈ files, cString file.path = file.path)
    (increasing : lines.Pairwise fun first second => first.offset < second.offset)
    (declared : ∀ line ∈ lines, ∃ file ∈ files, file.id = line.fileId.toNat)
    {address : Nat} (inside : address < textSize) :
    (CodeView.Table.mk textSize (blocksOf lines files)).location? address =
      (((lines.filter fun line => decide (line.offset ≤ address)).getLast?).bind
        (rowLocation? files)).map withoutColumn := by
  rw [CodeView.Table.location?, if_pos inside]
  cases found : (lines.filter fun line => decide (line.offset ≤ address)).getLast? with
  | none =>
      rw [CodeView.latest_eq_none]
      · rfl
      · intro entry member
        obtain ⟨file, -, line, inLines, -, rfl⟩ := mem_entries.mp member
        have beyond := List.filter_eq_nil_iff.mp (List.getLast?_eq_none_iff.mp found) line inLines
        simpa using beyond
  | some last =>
      obtain ⟨inLines, before⟩ := List.mem_filter.mp (List.mem_of_getLast? found)
      obtain ⟨file, inFiles, isId⟩ := declared last inLines
      have isFile : debugFileFind files last.fileId.toNat = some file := by
        rw [debugFileFind]
        cases isFound : files.find? fun file => decide (file.id = last.fileId.toNat) with
        | none => exact absurd (decide_eq_true isId) (List.find?_eq_none.mp isFound file inFiles)
        | some other =>
            have same : other.id = last.fileId.toNat := by simpa using List.find?_some isFound
            exact congrArg some (List.inj_on_of_nodup_map distinct
              (List.mem_of_find?_eq_some isFound) inFiles (same.trans isId.symm))
      have latest : CodeView.latest address
          (CodeView.Table.mk textSize (blocksOf lines files)).entries =
          some ⟨last.offset, cString file.path, last.line.toNat⟩ := by
        refine CodeView.latest_eq_some (mem_entries.mpr ⟨file, inFiles, last, inLines, isId.symm, rfl⟩)
          (of_decide_eq_true before) fun other member otherBefore differs => ?_
        obtain ⟨otherFile, otherIn, line, lineIn, same, rfl⟩ := mem_entries.mp member
        rcases last_of_increasing (increasing.filter _) found
          (List.mem_filter.mpr ⟨lineIn, decide_eq_true otherBefore⟩) with rfl | less
        · have sameFile := List.inj_on_of_nodup_map distinct otherIn inFiles (same.symm.trans isId.symm)
          rw [sameFile] at differs
          exact absurd rfl differs
        · exact less
      rw [latest, Option.bind_some, rowLocation?, isFile, clean file inFiles]
      rfl

/-- The CodeView table of a source gives each address what the rows give it. -/
theorem codeview_location_of_source (accepted : Accepted src) {table : CodeViewLineSection}
    (built : outputBuildCodeviewLine (sourceOutput src).debugFiles (sourceOutput src).debugLines
      (sourceOutput src).textBytes.length = .ok table) (fits : table.data.length < 2 ^ 32) :
    ∃ read, CodeView.readTable table.data = some read ∧
      ∀ address, address < (sourcePass2 src).textBytes.length →
        read.location? address = (rowsLookup src address).map withoutColumn := by
  have numbers : ∀ line ∈ (sourceOutput src).debugLines, line.line.toNat < 2 ^ 24 := by
    intro line member
    have greatest := (rowPlaced accepted member).located.line.2
    dsimp only at greatest
    omega
  refine ⟨_, readTable_codeviewLine numbers built fits, fun address inText => ?_⟩
  refine codeview_location (debugFiles_distinct accepted)
    (fun file member => cString_of_clean (debugFile_clean accepted member)) ?_
    (fun line member => (rowPlaced accepted member).located.file) inText
  rw [debugLines_of_source accepted]
  exact programRows_increasing _

/-! ## The size of the CodeView table -/

theorem codeviewStrings_length {files : List DebugFile} {table strings : List UInt8}
    {offsets : List Nat} (built : codeviewStrings files table = some (strings, offsets)) :
    strings.length ≤ table.length + filesWeight files := by
  induction files generalizing table offsets with
  | nil =>
      rw [codeviewStrings, Option.some.injEq, Prod.mk.injEq] at built
      rw [built.1]
      exact Nat.le_add_right _ _
  | cons file files inductionHypothesis =>
      obtain ⟨later, isRest, -⟩ := codeviewStrings_cons built
      have rest := inductionHypothesis isRest
      have path := cString_length_le file.path
      rw [List.length_append, List.length_append, List.length_singleton] at rest
      rw [filesWeight] at rest ⊢
      rw [List.map_cons, List.sum_cons]
      omega

theorem codeviewBlocks_length {lines : List DebugLine} {files : List DebugFile} {fileIndex : Nat}
    {blocks : List UInt8} (built : codeviewBlocks lines fileIndex files = .ok blocks) :
    blocks.length ≤ files.length * 12 + (files.flatMap (codeviewFileLines lines)).length * 8 := by
  induction files generalizing fileIndex blocks with
  | nil =>
      rw [codeviewBlocks, Except.ok.injEq] at built
      rw [← built]
      exact Nat.zero_le _
  | cons file files inductionHypothesis =>
      rw [List.flatMap_cons, List.length_append, List.length_cons]
      rw [codeviewBlocks] at built
      split at built
      · have rest := inductionHypothesis built
        omega
      · split at built
        · contradiction
        · split at built
          · contradiction
          · next rest isRest =>
              have later := inductionHypothesis isRest
              have isBlock : blocks =
                  codeviewBlock fileIndex (codeviewFileLines lines file) ++ rest :=
                (Except.ok.inj built).symm
              rw [isBlock, List.length_append, length_codeviewBlock]
              omega

theorem codeviewLine_length {files : List DebugFile} {lines : List DebugLine} {textSize : Nat}
    {table : CodeViewLineSection} (distinct : (files.map DebugFile.id).Nodup)
    (built : outputBuildCodeviewLine files lines textSize = .ok table) :
    table.data.length ≤ 60 + filesWeight files + 20 * files.length + 8 * lines.length := by
  obtain ⟨valid, -, strings, offsets, blocks, isStrings, isBlocks, data, -, -⟩ :=
    codeviewLine_parts built
  have size := length_codeviewData strings offsets (codeviewPayload textSize blocks)
  have count := codeviewStrings_count isStrings
  have stringsSize := codeviewStrings_length isStrings
  have blocksSize := codeviewBlocks_length isBlocks
  have once := (perm_of_valid distinct (linesValid_of_contract valid)).length_eq
  have payload : (codeviewPayload textSize blocks).length = 12 + blocks.length := by
    rw [codeviewPayload]
    simp only [List.length_append, length_bytes]
  rw [data, size, payload]
  rw [List.length_singleton] at stringsSize
  omega

/-! ## When the lookups are right -/

/-- A lookup that agrees with the rows on `.text` is right where the rows are. -/
theorem findsMarked_congr {α : Type} {lookup other : Nat → Option α}
    {marked : List Instruction → Option α}
    (same : ∀ address, address < (sourcePass2 src).textBytes.length →
      lookup address = other address) :
    FindsMarked src lookup marked ↔ FindsMarked src other marked := by
  constructor
  · intro finds address inText
    rw [← same address inText]
    exact finds address inText
  · intro finds address inText
    rw [same address inText]
    exact finds address inText

/-- A DWARF table from which a reader finds at each address of `.text` the file, line and
column that are active there. -/
def DwarfAttributes (src : SourceBuffer) (table : DwarfLineSection) : Prop :=
  ∃ read, Dwarf.readTable table.data = some read ∧
    FindsMarked src read.location? (markedLocation? src)

/-- A CodeView table from which a reader finds at each address of `.text` the file and line
that are active there. -/
def CodeviewAttributes (src : SourceBuffer) (table : CodeViewLineSection) : Prop :=
  ∃ read, CodeView.readTable table.data = some read ∧
    FindsMarked src read.location? fun before => (markedLocation? src before).map withoutColumn

theorem dwarfAttributes_iff (accepted : Accepted src)
    (text : (sourcePass2 src).textBytes.length < 2 ^ 64) {table : DwarfLineSection}
    (built : outputBuildDwarfLine (sourceOutput src).debugFiles (sourceOutput src).debugLines
      (sourceOutput src).textBytes.length = .ok table) :
    DwarfAttributes src table ↔ UnmarkedFirst (sourceInstructions src).data := by
  obtain ⟨read, isRead, agrees⟩ := dwarf_location_of_source accepted text built
  have whole := rowsLookup_findsMarked_iff id accepted
  simp only [Option.map_id, id_eq] at whole
  rw [← whole, ← findsMarked_congr agrees]
  constructor
  · rintro ⟨other, isOther, finds⟩
    rwa [Option.some.inj (isRead.symm.trans isOther)]
  · exact fun finds => ⟨read, isRead, finds⟩

theorem codeviewAttributes_iff (accepted : Accepted src) {table : CodeViewLineSection}
    (built : outputBuildCodeviewLine (sourceOutput src).debugFiles (sourceOutput src).debugLines
      (sourceOutput src).textBytes.length = .ok table) (fits : table.data.length < 2 ^ 32) :
    CodeviewAttributes src table ↔ UnmarkedFirst (sourceInstructions src).data := by
  obtain ⟨read, isRead, agrees⟩ := codeview_location_of_source accepted built fits
  rw [← rowsLookup_findsMarked_iff withoutColumn accepted, ← findsMarked_congr agrees]
  constructor
  · rintro ⟨other, isOther, finds⟩
    rwa [Option.some.inj (isRead.symm.trans isOther)]
  · exact fun finds => ⟨read, isRead, finds⟩

/-- Both tables of a source within the size limit exist, and fit their formats. -/
theorem lineTables_of_source (accepted : Accepted src)
    (limit : src.data.length ≤ nazmApiMaxSourceSize)
    (rows : (sourceOutput src).hasDebug = true) :
    (sourcePass2 src).textBytes.length < 2 ^ 64 ∧
      (∃ table, outputBuildDwarfLine (sourceOutput src).debugFiles (sourceOutput src).debugLines
        (sourceOutput src).textBytes.length = .ok table) ∧
      ∃ table, outputBuildCodeviewLine (sourceOutput src).debugFiles
        (sourceOutput src).debugLines (sourceOutput src).textBytes.length = .ok table ∧
          table.data.length < 2 ^ 32 := by
  have light := sourceWeight_le limit
  have text := textSize_le accepted
  refine ⟨by omega, dwarfLine_of_source accepted limit rows, ?_⟩
  obtain ⟨table, built⟩ := codeviewLine_of_source accepted limit rows
  refine ⟨table, built, ?_⟩
  have weights := lineTable_weight accepted
  have half := filesWeight_length (sourcePass1 src).debugFiles
  have size := codeviewLine_length (debugFiles_distinct accepted) built
  change table.data.length ≤ 60 + filesWeight (sourcePass1 src).debugFiles +
    20 * (sourcePass1 src).debugFiles.length + 8 * (sourcePass2 src).debugLines.length at size
  omega

/-- For an accepted source with rows, each line table gives every address of `.text` the
location that is active at its instruction, and no location where none is active, exactly when
the instructions without a location come before those with one. -/
theorem debug_lookups_iff (src : SourceBuffer) (accepted : Accepted src)
    (rows : (sourceOutput src).hasDebug = true) :
    (∀ table, outputBuildDwarfLine (sourceOutput src).debugFiles (sourceOutput src).debugLines
        (sourceOutput src).textBytes.length = .ok table →
      (sourcePass2 src).textBytes.length < 2 ^ 64 →
      (DwarfAttributes src table ↔ UnmarkedFirst (sourceInstructions src).data)) ∧
    (∀ table, outputBuildCodeviewLine (sourceOutput src).debugFiles (sourceOutput src).debugLines
        (sourceOutput src).textBytes.length = .ok table → table.data.length < 2 ^ 32 →
      (CodeviewAttributes src table ↔ UnmarkedFirst (sourceInstructions src).data)) ∧
    (src.data.length ≤ nazmApiMaxSourceSize →
      (sourcePass2 src).textBytes.length < 2 ^ 64 ∧
      (∃ table, outputBuildDwarfLine (sourceOutput src).debugFiles (sourceOutput src).debugLines
        (sourceOutput src).textBytes.length = .ok table) ∧
      ∃ table, outputBuildCodeviewLine (sourceOutput src).debugFiles
        (sourceOutput src).debugLines (sourceOutput src).textBytes.length = .ok table ∧
          table.data.length < 2 ^ 32) :=
  ⟨fun _ built text => dwarfAttributes_iff accepted text built,
    fun _ built fits => codeviewAttributes_iff accepted built fits,
    fun limit => lineTables_of_source accepted limit rows⟩

/-- A marked return, and a second one after the location is cleared. -/
def clearedLocation : SourceBuffer :=
  ⟨utf8 ".ملف 1، \"م\"\n.موضع 1، 3، 2\nارجع\n.موضع 0، 0، 0\nارجع\n", none⟩

theorem clearedLocation_accepted : Accepted clearedLocation := by decide +kernel

theorem debug_lookups_iff_clearedLocation :
    ∃ table, outputBuildDwarfLine (sourceOutput clearedLocation).debugFiles
        (sourceOutput clearedLocation).debugLines
        (sourceOutput clearedLocation).textBytes.length = .ok table ∧
      (DwarfAttributes clearedLocation table ↔
        UnmarkedFirst (sourceInstructions clearedLocation).data) := by
  have whole := debug_lookups_iff clearedLocation clearedLocation_accepted (by decide +kernel)
  obtain ⟨text, ⟨table, built⟩, -⟩ := whole.2.2 (by decide +kernel)
  exact ⟨table, built, whole.1 table built text⟩

/-- The second return still looks up the location that was cleared. -/
theorem cleared_location_still_found :
    Accepted clearedLocation ∧ (sourceOutput clearedLocation).hasDebug = true ∧
      (∃ table, outputBuildDwarfLine (sourceOutput clearedLocation).debugFiles
        (sourceOutput clearedLocation).debugLines
        (sourceOutput clearedLocation).textBytes.length = .ok table ∧
          ¬ DwarfAttributes clearedLocation table) ∧
      ∃ table, outputBuildCodeviewLine (sourceOutput clearedLocation).debugFiles
        (sourceOutput clearedLocation).debugLines
        (sourceOutput clearedLocation).textBytes.length = .ok table ∧
          ¬ CodeviewAttributes clearedLocation table := by
  have accepted := clearedLocation_accepted
  have rows : (sourceOutput clearedLocation).hasDebug = true := by decide +kernel
  have notFirst : ¬ UnmarkedFirst (sourceInstructions clearedLocation).data := by
    intro first
    have unmarked := first ((sourceInstructions clearedLocation).data.take 4)
      ((sourceInstructions clearedLocation).data.getD 4 plainReturn) [] (by decide +kernel)
      (by decide +kernel) (by decide +kernel)
      ((sourceInstructions clearedLocation).data.take 2)
      ((sourceInstructions clearedLocation).data.getD 2 plainReturn)
      ((sourceInstructions clearedLocation).data.take 4 |>.drop 3) (by decide +kernel)
      (by decide +kernel)
    exact unmarked (by decide +kernel)
  obtain ⟨text, ⟨dwarf, isDwarf⟩, codeview, isCodeview, fits⟩ :=
    lineTables_of_source accepted (by decide +kernel) rows
  exact ⟨accepted, rows,
    ⟨dwarf, isDwarf, fun attributes => notFirst ((dwarfAttributes_iff accepted text isDwarf).mp attributes)⟩,
    codeview, isCodeview,
    fun attributes => notFirst ((codeviewAttributes_iff accepted isCodeview fits).mp attributes)⟩

end Nazm.Output
