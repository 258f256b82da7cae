import Nazm.Output.DebugNumbers
import Nazm.Output.SourceSizes

/-!
Line tables of accepted sources.

Owns that both line tables can be built for a source within the size limit: the
contract holds, every row names a file, and no length overflows its field.

Does not own what a reader finds in the tables.
-/

namespace Nazm.Output

open LittleEndian
open Nazm.Encoder Nazm.Lexer Nazm.Parser Nazm.Unicode Nazm.Diagnostics Nazm.Passes

variable {src : SourceBuffer}

/-! ## DWARF rows -/

/-- The registers of the line program already show a location. -/
def Follows (files : List DebugFile) (registers : DwarfRegisters) (location : DebugLocation) :
    Prop :=
  (debugFileIndex files location.file).map (· + 1) = some registers.file ∧
    registers.line = location.line.toNat ∧ registers.column = location.column

instance (files : List DebugFile) (registers : DwarfRegisters) (location : DebugLocation) :
    Decidable (Follows files registers location) := inferInstanceAs (Decidable (_ ∧ _))

/-- An opcode that is written under a condition. -/
theorem length_opcode_le {condition : Prop} [Decidable condition] {opcode : List UInt8}
    {room : Nat} (fits : opcode.length ≤ room) :
    (if condition then opcode else []).length ≤ room := by
  split
  · exact fits
  · exact Nat.zero_le _

theorem dwarfRow_length {registers : DwarfRegisters} {line : DebugLine} {dwarfFile : Nat}
    (file : dwarfFile < 2 ^ 28) (column : line.column.toNat ≤ 65535)
    (lineDistance : -(2 ^ 24) ≤ (line.line.toNat : Int) - registers.line ∧
      (line.line.toNat : Int) - registers.line ≤ 2 ^ 24)
    (offset : line.offset < 2 ^ 35) :
    (dwarfRow registers line dwarfFile).length ≤
      7 + (if dwarfFile = registers.file ∧ (line.line.toNat : Int) = registers.line ∧
        line.column = registers.column then 0 else 15) := by
  have fileBytes := @uleb_length 3 dwarfFile (by omega)
  have columnBytes := @uleb_length 2 line.column.toNat (by omega)
  have lineBytes := @sleb_length 3 (line.line.toNat - registers.line) (by omega) (by omega)
  have offsetBytes := @uleb_length 4 (line.offset - registers.address) (by omega)
  have setFile := @length_opcode_le (dwarfFile ≠ registers.file) _ (4 :: uleb dwarfFile) _
    (Nat.succ_le_succ fileBytes)
  have setColumn := @length_opcode_le (line.column ≠ registers.column) _
    (5 :: uleb line.column.toNat) _ (Nat.succ_le_succ columnBytes)
  have advanceLine := @length_opcode_le ((line.line.toNat : Int) ≠ registers.line) _
    (3 :: sleb (line.line.toNat - registers.line)) _ (Nat.succ_le_succ lineBytes)
  have advancePc := @length_opcode_le (line.offset ≠ registers.address) _
    (2 :: uleb (line.offset - registers.address)) _ (Nat.succ_le_succ offsetBytes)
  rw [dwarfRow]
  simp only [List.length_append, List.length_singleton]
  by_cases same : dwarfFile = registers.file ∧ (line.line.toNat : Int) = registers.line ∧
      line.column = registers.column
  · obtain ⟨sameFile, sameLine, sameColumn⟩ := same
    rw [if_neg (not_not.mpr sameFile), if_neg (not_not.mpr sameColumn),
      if_neg (not_not.mpr sameLine),
      if_pos (show _ ∧ _ ∧ _ from ⟨sameFile, sameLine, sameColumn⟩)]
    simp only [List.length_nil]
    omega
  · rw [if_neg same]
    omega

/-- The rows take fifteen bytes for each statement, and fifteen where the
registers do not show the location yet. -/
theorem dwarfRows_length {files : List DebugFile} (few : files.length < 2 ^ 27)
    (statements : List Instruction) (layout : Layout) (location : DebugLocation)
    (registers : DwarfRegisters) (line : 0 ≤ registers.line ∧ registers.line ≤ 2 ^ 24)
    (located : location = .cleared ∨ Located files location)
    (locations : ∀ instr ∈ statements, ∀ next, location? instr = some next →
      next = .cleared ∨ Located files next)
    (small : (statements.foldl Layout.place layout).sizes.text < 2 ^ 35) :
    ∃ rows address,
      dwarfRows files registers (rowsFrom location (layout.places statements)) =
        .ok (rows, address) ∧
      rows.length ≤
        15 * statements.length + (if Follows files registers location then 0 else 15) := by
  induction statements generalizing layout location registers with
  | nil => exact ⟨[], registers.address, rfl, Nat.zero_le _⟩
  | cons instr statements inductionHypothesis =>
      have further := fun other member => locations other (List.mem_cons_of_mem instr member)
      have here : layout.sizes.text < 2 ^ 35 := by
        have grows := Layout.get_le_foldl layout (instr :: statements) .text
        exact Nat.lt_of_le_of_lt grows small
      rw [Layout.places, rowsFrom]
      by_cases active : layout.Emits instr ∧ location.file ≠ 0 ∧ location.line ≠ 0
      · have shown : Located files location := located.resolve_left fun cleared =>
          active.2.1 (by rw [cleared]; rfl)
        obtain ⟨fileIndex, isIndex⟩ := Option.ne_none_iff_exists'.mp
          (debugFileIndex_isSome.mpr shown.file)
        have inFiles : fileIndex < files.length := (List.findIdx?_eq_some_iff_getElem.mp isIndex).1
        have stays : (location? instr).getD location = location := by
          rw [location?_of_other (by rw [active.1.1]; decide), Option.getD_none]
        obtain ⟨rows, address, isRows, bound⟩ := inductionHypothesis (layout.place instr) location
          ⟨layout.sizes.text, location.line.toNat, fileIndex + 1, location.column⟩
          ⟨Int.natCast_nonneg _, by
            have greatest := shown.line.2
            dsimp only
            omega⟩ located further small
        have follows : Follows files
            ⟨layout.sizes.text, location.line.toNat, fileIndex + 1, location.column⟩ location :=
          ⟨by rw [isIndex]; rfl, rfl, rfl⟩
        rw [if_pos follows] at bound
        have row := @dwarfRow_length registers
          ⟨layout.sizes.text, location.file, location.line, location.column⟩ (fileIndex + 1)
          (by omega) shown.column.2 (by
            have least := shown.line.1
            have greatest := shown.line.2
            dsimp only
            omega) here
        refine ⟨dwarfRow registers
          ⟨layout.sizes.text, location.file, location.line, location.column⟩ (fileIndex + 1) ++ rows,
          address, ?_, ?_⟩
        · rw [statementRows, if_pos active, stays, List.singleton_append, dwarfRows, isIndex]
          dsimp only
          rw [isRows]
        · dsimp only at row
          have weigh : (if fileIndex + 1 = registers.file ∧
              (location.line.toNat : Int) = registers.line ∧ location.column = registers.column
              then 0 else 15) = if Follows files registers location then 0 else 15 := by
            congr 1
            rw [Follows, isIndex, Option.map_some, Option.some.injEq, eq_comm (a := registers.line),
              eq_comm (a := registers.column)]
          rw [weigh] at row
          rw [List.length_append, List.length_cons]
          omega
      · obtain ⟨rows, address, isRows, bound⟩ := inductionHypothesis (layout.place instr)
          ((location? instr).getD location) registers line (by
            cases next : location? instr with
            | none => exact located
            | some next' => exact locations instr List.mem_cons_self _ next) further small
        refine ⟨rows, address, ?_, ?_⟩
        · rw [statementRows, if_neg active, List.nil_append]
          exact isRows
        · rw [List.length_cons]
          cases next : location? instr with
          | none =>
              rw [next, Option.getD_none] at bound
              omega
          | some next' =>
              have most : (if Follows files registers ((location? instr).getD location) then 0
                else 15) ≤ 15 := by split <;> omega
              omega

/-! ## The DWARF section -/

theorem cString_length_le (text : List UInt8) : (cString text).length ≤ text.length := by
  rw [cString]
  exact (List.takeWhile_prefix _).length_le

theorem dwarfHeader_length (files : List DebugFile) :
    (dwarfHeader files).length ≤ 20 + 2 * filesWeight files := by
  have each : (files.flatMap fun file =>
      cString file.path ++ [0] ++ uleb 0 ++ uleb 0 ++ uleb 0).length ≤ 2 * filesWeight files := by
    induction files with
    | nil => exact Nat.le_refl _
    | cons file files inductionHypothesis =>
        have path := cString_length_le file.path
        have zero : (uleb 0).length = 1 := rfl
        rw [List.flatMap_cons, List.length_append]
        simp only [List.length_append, List.length_singleton, zero, filesWeight, List.map_cons,
          List.sum_cons] at inductionHypothesis ⊢
        omega
  rw [dwarfHeader]
  simp only [List.length_append, List.length_cons, List.length_nil]
  omega

theorem filesWeight_length (files : List DebugFile) : 2 * files.length ≤ filesWeight files := by
  induction files with
  | nil => exact Nat.le_refl _
  | cons file files inductionHypothesis =>
      rw [filesWeight] at inductionHypothesis ⊢
      rw [List.length_cons, List.map_cons, List.sum_cons]
      omega

/-- The rows of a source are rows of its statements. -/
theorem dwarfRows_of_source (accepted : Accepted src) (few : sourceWeight src ≤ 209715200) :
    ∃ rows address,
      dwarfRows (sourcePass1 src).debugFiles ⟨0, 1, 1, 0⟩ (sourcePass2 src).debugLines =
        .ok (rows, address) ∧ rows.length ≤ 15 * sourceWeight src + 15 := by
  have files := lineTable_weight accepted
  have half := filesWeight_length (sourcePass1 src).debugFiles
  have text := textSize_le accepted
  have textSize : (Layout.after (sourceInstructions src).data).sizes.text =
      (sourcePass2 src).textBytes.length :=
    (congrArg SectionSizes.text accepted.image.sizes).symm
  obtain ⟨rows, address, isRows, bound⟩ := @dwarfRows_length (sourcePass1 src).debugFiles
    (by omega) (sourceInstructions src).data .start .cleared ⟨0, 1, 1, 0⟩
    ⟨show (0 : Int) ≤ 1 by decide, show (1 : Int) ≤ 2 ^ 24 by decide⟩ (.inl rfl)
    (fun instr member next isLocation => location_of_source accepted member isLocation)
    (show (Layout.after (sourceInstructions src).data).sizes.text < 2 ^ 35 by omega)
  have statements := length_le_weight (sourceInstructions src).data
  refine ⟨rows, address, ?_, ?_⟩
  · rw [debugLines_of_source accepted]
    exact isRows
  · rw [sourceWeight]
    refine Nat.le_trans bound ?_
    split <;> omega

/-- The DWARF section can be built where its parts are small. -/
theorem outputBuildDwarfLine_isOk {files : List DebugFile} {lines : List DebugLine}
    {textSize address : Nat} {rows : List UInt8}
    (valid : debugContractIsValid files lines textSize = true) (few : files.length ≤ uint32Max)
    (isRows : dwarfRows files ⟨0, 1, 1, 0⟩ lines = .ok (rows, address)) (text : textSize < 2 ^ 35)
    (small : (dwarfHeader files).length + rows.length + 40 ≤ uint32Max) :
    ∃ table, outputBuildDwarfLine files lines textSize = .ok table := by
  have advance := @length_opcode_le (address < textSize) _ (2 :: uleb (textSize - address)) _
    (Nat.succ_le_succ (@uleb_length 4 _ (by omega)))
  have nine : (uleb 9).length = 1 := rfl
  have one : (uleb 1).length = 1 := rfl
  cases built : outputBuildDwarfLine files lines textSize with
  | ok table => exact ⟨table, rfl⟩
  | error message =>
      unfold outputBuildDwarfLine at built
      rw [valid, isRows] at built
      dsimp only at built
      generalize (if address < textSize then 2 :: uleb (textSize - address) else []) = advanced
        at built advance
      split at built
      · contradiction
      · split at built
        · omega
        · split at built
          · next long =>
              simp only [List.length_append, length_bytes, List.length_singleton, nine,
                one] at long
              omega
          · contradiction

/-- The DWARF section of a source within the size limit can be built. -/
theorem dwarfLine_of_source (accepted : Accepted src)
    (limit : src.data.length ≤ nazmApiMaxSourceSize)
    (debug : (sourceOutput src).hasDebug = true) :
    ∃ table, outputBuildDwarfLine (sourceOutput src).debugFiles (sourceOutput src).debugLines
      (sourceOutput src).textBytes.length = .ok table := by
  have light := sourceWeight_le limit
  have weights := lineTable_weight accepted
  have half := filesWeight_length (sourcePass1 src).debugFiles
  obtain ⟨rows, address, isRows, rowBytes⟩ := dwarfRows_of_source accepted light
  have header := dwarfHeader_length (sourcePass1 src).debugFiles
  have text := textSize_le accepted
  refine outputBuildDwarfLine_isOk (debugContract_of_source accepted debug) ?_ isRows ?_ ?_
  · simp only [sourceOutput, uint32Max]
    omega
  · simp only [sourceOutput]
    omega
  · simp only [sourceOutput, uint32Max]
    omega

/-- The bounds that the builder checks. -/
theorem dwarfLine_bounds {files : List DebugFile} {lines : List DebugLine} {textSize : Nat}
    {table : DwarfLineSection} (built : outputBuildDwarfLine files lines textSize = .ok table) :
    table.addressRelocationOffset < 2 ^ 64 := by
  unfold outputBuildDwarfLine at built
  split at built
  · contradiction
  · split at built
    · contradiction
    · dsimp only at built
      split at built
      · contradiction
      · next rows address isRows =>
          generalize (if address < textSize then 2 :: uleb (textSize - address) else []) = advanced
            at built
          split at built
          · cases built
          · next fits =>
              have offset : 10 + (dwarfHeader files).length + ([0] ++ uleb 9 ++ [2]).length =
                  table.addressRelocationOffset :=
                congrArg DwarfLineSection.addressRelocationOffset (Except.ok.inj built)
              have nine : (uleb 9).length = 1 := rfl
              simp only [List.length_append, length_bytes, List.length_singleton, nine,
                uint32Max] at fits offset
              omega

/-! ## The CodeView section -/

theorem codeviewStrings_isSome {files : List DebugFile} {table : List UInt8}
    (room : table.length + filesWeight files ≤ uint32Max) :
    ∃ strings offsets, codeviewStrings files table = some (strings, offsets) := by
  induction files generalizing table with
  | nil => exact ⟨table, [], rfl⟩
  | cons file files inductionHypothesis =>
      have path := cString_length_le file.path
      rw [filesWeight, List.map_cons, List.sum_cons] at room
      obtain ⟨strings, offsets, isStrings⟩ :=
        @inductionHypothesis (table ++ cString file.path ++ [0]) (by
          rw [filesWeight]
          simp only [List.length_append, List.length_singleton]
          omega)
      rw [codeviewStrings, if_neg (by omega), isStrings]
      exact ⟨_, _, rfl⟩

theorem codeviewBlocks_isOk {lines : List DebugLine} (few : lines.length ≤ (uint32Max - 12) / 8)
    (fileIndex : Nat) (files : List DebugFile) :
    ∃ blocks, codeviewBlocks lines fileIndex files = .ok blocks := by
  induction files generalizing fileIndex with
  | nil => exact ⟨[], rfl⟩
  | cons file files inductionHypothesis =>
      obtain ⟨blocks, isBlocks⟩ := inductionHypothesis (fileIndex + 1)
      have fewer : (codeviewFileLines lines file).length ≤ lines.length := List.length_filter_le _ _
      rw [uint32Max] at few
      rw [codeviewBlocks]
      split
      · exact ⟨blocks, isBlocks⟩
      · rw [if_neg (by
          rw [uint32Max]
          omega), isBlocks]
        exact ⟨_, rfl⟩

/-- The CodeView section of a source within the size limit can be built. -/
theorem codeviewLine_of_source (accepted : Accepted src)
    (limit : src.data.length ≤ nazmApiMaxSourceSize)
    (debug : (sourceOutput src).hasDebug = true) :
    ∃ table, outputBuildCodeviewLine (sourceOutput src).debugFiles (sourceOutput src).debugLines
      (sourceOutput src).textBytes.length = .ok table := by
  have light := sourceWeight_le limit
  have valid := debugContract_of_source accepted debug
  have weights := lineTable_weight accepted
  have half := filesWeight_length (sourcePass1 src).debugFiles
  have text := textSize_le accepted
  obtain ⟨strings, offsets, isStrings⟩ :=
    @codeviewStrings_isSome (sourcePass1 src).debugFiles [0] (by
      rw [List.length_singleton, uint32Max]
      omega)
  obtain ⟨blocks, isBlocks⟩ := @codeviewBlocks_isOk (sourcePass2 src).debugLines
    (by rw [uint32Max]; omega) 0 (sourcePass1 src).debugFiles
  have fits : ¬ (uint32Max < (sourcePass1 src).debugFiles.length ∨
      uint32Max < (sourcePass2 src).debugLines.length ∨
      uint32Max < (sourcePass2 src).textBytes.length) := by
    rw [uint32Max]
    omega
  cases built : outputBuildCodeviewLine (sourceOutput src).debugFiles (sourceOutput src).debugLines
      (sourceOutput src).textBytes.length with
  | ok table => exact ⟨table, rfl⟩
  | error message =>
      unfold outputBuildCodeviewLine at built
      rw [valid] at built
      simp only [sourceOutput, Bool.not_true, Bool.false_eq_true, if_false, if_neg fits,
        isStrings, isBlocks] at built
      contradiction

end Nazm.Output
