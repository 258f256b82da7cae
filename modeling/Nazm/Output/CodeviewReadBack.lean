import Nazm.CodeView.LineReader
import Nazm.Output.DebugLine

/-!
Reading back the CodeView line table.

Owns that a reader finds in a table that is written one block for each file with
rows, with the path of the file and these rows, and where the relocated fields
stand.

Does not own which rows the passes make.
-/

namespace Nazm.Output

open ByteFile ByteStream FieldEdits LittleEndian
open Nazm.Diagnostics Nazm.Passes Nazm.CodeView

/-! ## Subsections -/

/-- A subsection at a multiple of four bytes. -/
def codeviewPiece (kind : Nat) (payload : List UInt8) : List UInt8 :=
  bytes 4 kind ++ (bytes 4 payload.length ++
    (payload ++ List.replicate ((4 - payload.length % 4) % 4) 0))

theorem codeviewSubsection_eq {out : List UInt8} (aligned : out.length % 4 = 0) (kind : Nat)
    (payload : List UInt8) :
    codeviewSubsection out kind payload = out ++ codeviewPiece kind payload := by
  have length : (out ++ bytes 4 kind ++ bytes 4 payload.length ++ payload).length =
      out.length + 8 + payload.length := by
    simp only [List.length_append, length_bytes]
  have pad : (4 - (out.length + 8 + payload.length) % 4) % 4 = (4 - payload.length % 4) % 4 := by
    omega
  rw [codeviewSubsection, debugBufferAlign4, length, pad, codeviewPiece]
  simp only [List.append_assoc]

theorem length_codeviewPiece (kind : Nat) (payload : List UInt8) :
    (codeviewPiece kind payload).length =
      8 + payload.length + (4 - payload.length % 4) % 4 := by
  rw [codeviewPiece]
  simp only [List.length_append, length_bytes, List.length_replicate]
  omega

theorem codeviewPiece_aligned (kind : Nat) (payload : List UInt8) :
    (codeviewPiece kind payload).length % 4 = 0 := by
  rw [length_codeviewPiece]
  omega

theorem readSubsections_piece {kind fuel : Nat} {payload rest : List UInt8}
    {later : List Subsection} (kindFits : kind < 256 ^ 4) (fits : payload.length < 256 ^ 4)
    (reads : readSubsections fuel rest = some later) :
    readSubsections (fuel + 1) (codeviewPiece kind payload ++ rest) =
      some (⟨kind, payload⟩ :: later) := by
  obtain ⟨byte, after, isHead⟩ := List.exists_cons_of_length_pos
    (show 0 < (codeviewPiece kind payload ++ rest).length by
      rw [List.length_append, length_codeviewPiece]
      omega)
  have pieces : byte :: after = bytes 4 kind ++ (bytes 4 payload.length ++ (payload ++
      (List.replicate ((4 - payload.length % 4) % 4) 0 ++ rest))) := by
    rw [← isHead, codeviewPiece]
    simp only [List.append_assoc]
  have readKind := @readWord_bytes 4 kind kindFits (bytes 4 payload.length ++ (payload ++
    (List.replicate ((4 - payload.length % 4) % 4) 0 ++ rest)))
  have readLength := @readWord_bytes 4 payload.length fits (payload ++
    (List.replicate ((4 - payload.length % 4) % 4) 0 ++ rest))
  have after : (payload ++ (List.replicate ((4 - payload.length % 4) % 4) 0 ++ rest)).drop
      (payload.length + (4 - payload.length % 4) % 4) = rest := by
    rw [← List.append_assoc]
    exact List.drop_left' (by rw [List.length_append, List.length_replicate])
  rw [isHead, readSubsections, pieces, readKind, Option.bind_eq_bind, Option.bind_some]
  dsimp only
  rw [readLength, Option.bind_some]
  dsimp only
  rw [if_neg (by rw [List.length_append]; omega), after, reads, List.take_left]
  · rfl
  · exact nofun

/-! ## Strings and checksums -/

theorem codeviewStrings_cons {file : DebugFile} {files : List DebugFile}
    {table strings : List UInt8} {offsets : List Nat}
    (built : codeviewStrings (file :: files) table = some (strings, offsets)) :
    ∃ later, codeviewStrings files (table ++ cString file.path ++ [0]) = some (strings, later) ∧
      offsets = table.length :: later := by
  rw [codeviewStrings] at built
  split at built
  · contradiction
  · split at built
    · contradiction
    · next isRest =>
        rw [Option.some.injEq, Prod.mk.injEq] at built
        obtain ⟨rfl, rfl⟩ := built
        exact ⟨_, isRest, rfl⟩

theorem codeviewStrings_extends {files : List DebugFile} {table strings : List UInt8}
    {offsets : List Nat} (built : codeviewStrings files table = some (strings, offsets)) :
    ∃ back, strings = table ++ back := by
  induction files generalizing table offsets with
  | nil =>
      rw [codeviewStrings, Option.some.injEq, Prod.mk.injEq] at built
      exact ⟨[], by rw [List.append_nil, built.1]⟩
  | cons file files inductionHypothesis =>
      obtain ⟨later, isRest, -⟩ := codeviewStrings_cons built
      obtain ⟨back, rfl⟩ := inductionHypothesis isRest
      exact ⟨cString file.path ++ [0] ++ back, by simp only [List.append_assoc]⟩

/-- Each path stands in the string table at its offset. -/
theorem codeviewStrings_path {files : List DebugFile} {table strings : List UInt8}
    {offsets : List Nat} (built : codeviewStrings files table = some (strings, offsets))
    {index : Nat} {file : DebugFile} (isFile : files[index]? = some file) :
    ∃ offset, offsets[index]? = some offset ∧ offset < strings.length ∧
      stringAt strings offset = some (cString file.path) := by
  induction files generalizing table offsets index with
  | nil => contradiction
  | cons head files inductionHypothesis =>
      obtain ⟨later, isRest, rfl⟩ := codeviewStrings_cons built
      cases index with
      | succ index => exact inductionHypothesis isRest isFile
      | zero =>
          obtain rfl := Option.some.inj isFile
          obtain ⟨back, rfl⟩ := codeviewStrings_extends isRest
          refine ⟨table.length, rfl, ?_, ?_⟩
          · simp only [List.length_append, List.length_singleton]
            omega
          · have found := @stringAt_middle table (cString head.path) back
              (zero_notMem_cString head.path)
            simpa only [List.append_assoc, List.singleton_append] using found

theorem codeviewStrings_count {files : List DebugFile} {table strings : List UInt8}
    {offsets : List Nat} (built : codeviewStrings files table = some (strings, offsets)) :
    offsets.length = files.length := by
  induction files generalizing table offsets with
  | nil =>
      rw [codeviewStrings, Option.some.injEq, Prod.mk.injEq] at built
      rw [← built.2]
      rfl
  | cons file files inductionHypothesis =>
      obtain ⟨later, isRest, rfl⟩ := codeviewStrings_cons built
      rw [List.length_cons, List.length_cons, inductionHypothesis isRest]

/-- The checksums, each with the offset of a path. -/
def codeviewChecksums (offsets : List Nat) : List UInt8 :=
  offsets.flatMap fun offset => bytes 4 offset ++ [0, 0] ++ [0, 0]

theorem length_checksum (offset : Nat) : (bytes 4 offset ++ [0, 0] ++ [0, 0]).length = 8 := by
  simp only [List.length_append, length_bytes, List.length_cons, List.length_nil]

/-- A file is found from its checksum. -/
theorem file?_checksum {files : List DebugFile} {strings : List UInt8} {offsets : List Nat}
    (built : codeviewStrings files [0] = some (strings, offsets)) (fits : strings.length < 2 ^ 32)
    {index : Nat} {file : DebugFile} (isFile : files[index]? = some file) :
    file? (codeviewChecksums offsets) strings (index * 8) = some (cString file.path) := by
  obtain ⟨offset, isOffset, inside, isPath⟩ := codeviewStrings_path built isFile
  have record := (Holds.whole (codeviewChecksums offsets)).record length_checksum isOffset
  rw [Nat.zero_add] at record
  have within := record.inside
  rw [length_checksum] at within
  have isWord : word (codeviewChecksums offsets) (index * 8) 4 = offset := by
    have field := record.word_eq (show 0 + 4 ≤ _ by rw [length_checksum]; decide)
    have front := ((Holds.whole (bytes 4 offset)).append ([0, 0] ++ [0, 0])).same
    rw [length_bytes, ← List.append_assoc] at front
    rw [Nat.add_zero, word, word, front, value_bytes_of_lt (by omega)] at field
    exact field
  rw [file?, if_pos (by omega), isWord, isPath]

/-! ## Blocks -/

/-- A line of a block. -/
def codeviewLine (line : DebugLine) : List UInt8 :=
  bytes 4 line.offset ++ bytes 4 ((line.line &&& 0x00ffffff) ||| 0x80000000).toNat

/-- The line of a block, as a reader has it. -/
def lineOf (line : DebugLine) : Line := ⟨line.offset, line.line.toNat⟩

theorem statementLine_mod {line : UInt32} (small : line.toNat < 2 ^ 24) :
    ((line &&& 0x00ffffff) ||| 0x80000000).toNat % 2 ^ 24 = line.toNat := by
  rw [UInt32.toNat_or, UInt32.toNat_and, show (0x00ffffff : UInt32).toNat = 2 ^ 24 - 1 from rfl,
    Nat.and_two_pow_sub_one_eq_mod, Nat.or_mod_two_pow, Nat.mod_mod, Nat.mod_eq_of_lt small]
  exact Nat.or_zero _

theorem readBlockLines_written {lines : List DebugLine}
    (fits : ∀ line ∈ lines, line.offset < 2 ^ 32 ∧ line.line.toNat < 2 ^ 24)
    (rest : List UInt8) :
    readBlockLines lines.length (lines.flatMap codeviewLine ++ rest) =
      some (lines.map lineOf, rest) := by
  induction lines with
  | nil => rfl
  | cons line lines inductionHypothesis =>
      obtain ⟨offsetFits, lineFits⟩ := fits line List.mem_cons_self
      have later := inductionHypothesis fun other member => fits other (List.mem_cons_of_mem _ member)
      have number := ((line.line &&& 0x00ffffff) ||| 0x80000000).toNat_lt
      rw [List.flatMap_cons, codeviewLine, List.length_cons, readBlockLines, List.append_assoc,
        List.append_assoc, readWord_bytes offsetFits, Option.bind_eq_bind, Option.bind_some]
      dsimp only
      rw [readWord_bytes number, Option.bind_some]
      dsimp only
      rw [later, statementLine_mod lineFits]
      rfl

/-- The block of a file. -/
def codeviewBlock (fileIndex : Nat) (ofFile : List DebugLine) : List UInt8 :=
  bytes 4 (fileIndex * 8) ++ bytes 4 ofFile.length ++ bytes 4 (12 + ofFile.length * 8) ++
    ofFile.flatMap codeviewLine

theorem length_codeviewBlock (fileIndex : Nat) (ofFile : List DebugLine) :
    (codeviewBlock fileIndex ofFile).length = 12 + ofFile.length * 8 := by
  have lines : (ofFile.flatMap codeviewLine).length = ofFile.length * 8 :=
    length_flatMap_uniform (fun line => by
      rw [codeviewLine, List.length_append, length_bytes, length_bytes]) ofFile
  rw [codeviewBlock]
  simp only [List.length_append, length_bytes, lines]

theorem readBlocks_block {file? : Nat → Option (List UInt8)} {fileIndex fuel : Nat}
    {path rest : List UInt8} {ofFile : List DebugLine} {later : List Block}
    (isFile : file? (fileIndex * 8) = some path) (few : fileIndex * 8 < 2 ^ 32)
    (short : 12 + ofFile.length * 8 < 2 ^ 32)
    (fits : ∀ line ∈ ofFile, line.offset < 2 ^ 32 ∧ line.line.toNat < 2 ^ 24)
    (reads : readBlocks file? fuel rest = some later) :
    readBlocks file? (fuel + 1) (codeviewBlock fileIndex ofFile ++ rest) =
      some (⟨path, ofFile.map lineOf⟩ :: later) := by
  obtain ⟨byte, after, isHead⟩ := List.exists_cons_of_length_pos
    (show 0 < (codeviewBlock fileIndex ofFile ++ rest).length by
      rw [List.length_append, length_codeviewBlock]
      omega)
  have pieces : byte :: after = bytes 4 (fileIndex * 8) ++ (bytes 4 ofFile.length ++
      (bytes 4 (12 + ofFile.length * 8) ++ (ofFile.flatMap codeviewLine ++ rest))) := by
    rw [← isHead, codeviewBlock]
    simp only [List.append_assoc]
  rw [isHead, readBlocks, pieces, readWord_bytes few, Option.bind_eq_bind, Option.bind_some]
  · dsimp only
    rw [readWord_bytes (by omega), Option.bind_some]
    dsimp only
    rw [readWord_bytes short, Option.bind_some]
    dsimp only
    rw [if_neg (not_not.mpr rfl), isFile]
    dsimp only [Option.bind_eq_bind]
    rw [Option.bind_some, readBlockLines_written fits, Option.bind_some]
    dsimp only
    rw [reads]
    rfl
  · exact nofun

/-- The blocks that a reader finds: those of the files that have lines. -/
def blocksOf (lines : List DebugLine) (files : List DebugFile) : List Block :=
  (files.filter fun file => decide (codeviewFileLines lines file ≠ [])).map fun file =>
    ⟨cString file.path, (codeviewFileLines lines file).map lineOf⟩

theorem readBlocks_written {lines : List DebugLine} {file? : Nat → Option (List UInt8)}
    (fits : ∀ line ∈ lines, line.offset < 2 ^ 32 ∧ line.line.toNat < 2 ^ 24)
    {files : List DebugFile} {fileIndex fuel : Nat} {blocks : List UInt8}
    (named : ∀ index file, files[index]? = some file →
      file? ((fileIndex + index) * 8) = some (cString file.path))
    (few : (fileIndex + files.length) * 8 < 2 ^ 32)
    (built : codeviewBlocks lines fileIndex files = .ok blocks) (enough : blocks.length ≤ fuel) :
    readBlocks file? fuel blocks = some (blocksOf lines files) := by
  induction files generalizing fileIndex fuel blocks with
  | nil =>
      rw [codeviewBlocks, Except.ok.injEq] at built
      rw [← built]
      cases fuel <;> rfl
  | cons file files inductionHypothesis =>
      have named' : ∀ index other, files[index]? = some other →
          file? ((fileIndex + 1 + index) * 8) = some (cString other.path) := by
        intro index other isOther
        rw [show fileIndex + 1 + index = fileIndex + (index + 1) by omega]
        exact named (index + 1) other isOther
      have few' : (fileIndex + 1 + files.length) * 8 < 2 ^ 32 := by
        rw [List.length_cons] at few
        omega
      rw [codeviewBlocks] at built
      split at built
      · next none =>
          rw [blocksOf, List.filter_cons, if_neg (by
            simpa only [ne_eq, decide_eq_true_eq, not_not] using List.length_eq_zero_iff.mp none)]
          exact inductionHypothesis named' few' built enough
      · next some =>
          split at built
          · contradiction
          · next short =>
              split at built
              · contradiction
              · next rest isRest =>
                  rw [not_or] at short
                  have isBlock : blocks =
                      codeviewBlock fileIndex (codeviewFileLines lines file) ++ rest :=
                    (Except.ok.inj built).symm
                  have length := length_codeviewBlock fileIndex (codeviewFileLines lines file)
                  rw [isBlock, List.length_append, length] at enough
                  obtain ⟨fuel, rfl⟩ : ∃ less, fuel = less + 1 := ⟨fuel - 1, by omega⟩
                  have kept : decide (codeviewFileLines lines file ≠ []) = true :=
                    decide_eq_true fun empty => some (List.length_eq_zero_iff.mpr empty)
                  rw [isBlock, blocksOf, List.filter_cons, if_pos kept, List.map_cons]
                  refine readBlocks_block (named 0 file rfl) (by omega) ?_ ?_
                    (inductionHypothesis named' few' isRest (by omega))
                  · have limit := short.2
                    rw [show (uint32Max - 12) / 8 = 536870910 from rfl] at limit
                    omega
                  · intro line member
                    exact fits line (List.mem_filter.mp member).1

/-! ## Tables -/

/-- The bytes of a table, from the string table, the offsets and the blocks. -/
def codeviewData (strings : List UInt8) (offsets : List Nat) (payload : List UInt8) : List UInt8 :=
  bytes 4 4 ++ (codeviewPiece debugSStringTable strings ++
    (codeviewPiece debugSFileChksms (codeviewChecksums offsets) ++
      codeviewPiece debugSLines payload))

/-- The payload of the lines subsection. -/
def codeviewPayload (textSize : Nat) (blocks : List UInt8) : List UInt8 :=
  bytes 4 0 ++ bytes 2 0 ++ bytes 2 0 ++ bytes 4 textSize ++ blocks

/-- Where the lines subsection starts. -/
def codeviewLinesStart (strings : List UInt8) (offsets : List Nat) : Nat :=
  4 + (codeviewPiece debugSStringTable strings).length +
    (codeviewPiece debugSFileChksms (codeviewChecksums offsets)).length

theorem length_codeviewData (strings : List UInt8) (offsets : List Nat) (payload : List UInt8) :
    (codeviewData strings offsets payload).length = 4 + (8 + strings.length +
      (4 - strings.length % 4) % 4) + (8 + offsets.length * 8) +
        (8 + payload.length + (4 - payload.length % 4) % 4) := by
  have checksums : (codeviewChecksums offsets).length = offsets.length * 8 :=
    length_flatMap_uniform length_checksum offsets
  rw [codeviewData]
  simp only [List.length_append, length_bytes, length_codeviewPiece, checksums]
  omega

theorem codeviewSubsections_eq (strings : List UInt8) (offsets : List Nat)
    (payload : List UInt8) :
    codeviewSubsection (codeviewSubsection (codeviewSubsection (bytes 4 4) debugSStringTable
      strings) debugSFileChksms (codeviewChecksums offsets)) debugSLines payload =
        codeviewData strings offsets payload ∧
    (codeviewSubsection (codeviewSubsection (bytes 4 4) debugSStringTable strings)
      debugSFileChksms (codeviewChecksums offsets)).length = codeviewLinesStart strings offsets := by
  have first := codeviewPiece_aligned debugSStringTable strings
  have second := codeviewPiece_aligned debugSFileChksms (codeviewChecksums offsets)
  have signature : (bytes 4 4).length = 4 := length_bytes 4 4
  rw [@codeviewSubsection_eq (bytes 4 4) (by rw [signature])]
  have front : (bytes 4 4 ++ codeviewPiece debugSStringTable strings).length =
      4 + (codeviewPiece debugSStringTable strings).length := by
    rw [List.length_append, signature]
  rw [@codeviewSubsection_eq (bytes 4 4 ++ codeviewPiece debugSStringTable strings) (by omega)]
  have start : (bytes 4 4 ++ codeviewPiece debugSStringTable strings ++
      codeviewPiece debugSFileChksms (codeviewChecksums offsets)).length =
      codeviewLinesStart strings offsets := by
    rw [List.length_append, front, codeviewLinesStart]
  refine ⟨?_, start⟩
  rw [codeviewSubsection_eq (by rw [start, codeviewLinesStart]; omega), codeviewData]
  simp only [List.append_assoc]

/-- The parts of a table that is written. -/
theorem codeviewLine_parts {files : List DebugFile} {lines : List DebugLine} {textSize : Nat}
    {table : CodeViewLineSection}
    (built : outputBuildCodeviewLine files lines textSize = .ok table) :
    debugContractIsValid files lines textSize = true ∧ textSize ≤ uint32Max ∧
      ∃ strings offsets blocks, codeviewStrings files [0] = some (strings, offsets) ∧
        codeviewBlocks lines 0 files = .ok blocks ∧
        table.data = codeviewData strings offsets (codeviewPayload textSize blocks) ∧
        table.sectionOffsetRelocation = codeviewLinesStart strings offsets + 8 ∧
        table.sectionIndexRelocation = codeviewLinesStart strings offsets + 12 := by
  unfold outputBuildCodeviewLine at built
  split at built
  · cases built
  · next valid =>
      split at built
      · cases built
      · next small =>
          split at built
          · cases built
          · next strings offsets isStrings =>
              split at built
              · cases built
              · next blocks isBlocks =>
                  rw [Bool.not_eq_true, Bool.not_eq_false'] at valid
                  rw [not_or, not_or] at small
                  refine ⟨valid, Nat.le_of_not_lt small.2.2, strings, offsets, blocks, isStrings,
                    isBlocks, ?_⟩
                  obtain ⟨isData, start⟩ := codeviewSubsections_eq strings offsets
                    (codeviewPayload textSize blocks)
                  rw [← Except.ok.inj built, ← isData, ← start]
                  exact ⟨rfl, rfl, rfl⟩

/-- A reader finds the three subsections of a table. -/
theorem readSubsections_written {strings payload : List UInt8} {offsets : List Nat} {fuel : Nat}
    (stringsFit : strings.length < 256 ^ 4) (offsetsFit : offsets.length * 8 < 256 ^ 4)
    (payloadFits : payload.length < 256 ^ 4) (enough : 3 ≤ fuel) :
    readSubsections fuel (codeviewPiece debugSStringTable strings ++
      (codeviewPiece debugSFileChksms (codeviewChecksums offsets) ++
        codeviewPiece debugSLines payload)) =
      some [⟨debugSStringTable, strings⟩, ⟨debugSFileChksms, codeviewChecksums offsets⟩,
        ⟨debugSLines, payload⟩] := by
  obtain ⟨fuel, rfl⟩ : ∃ less, fuel = less + 1 + 1 + 1 := ⟨fuel - 3, by omega⟩
  have ended : readSubsections fuel [] = some [] := by cases fuel <;> rfl
  have last := readSubsections_piece (show debugSLines < 256 ^ 4 by decide) payloadFits ended
  rw [List.append_nil] at last
  refine readSubsections_piece (by decide) stringsFit (readSubsections_piece (by decide) ?_ last)
  rwa [codeviewChecksums, length_flatMap_uniform length_checksum]

theorem readLines_written {file? : Nat → Option (List UInt8)} {textSize : Nat}
    {blocks : List UInt8} {read : List Block} (text : textSize < 256 ^ 4)
    (reads : readBlocks file? blocks.length blocks = some read) :
    readLines file? (codeviewPayload textSize blocks) = some ⟨textSize, read⟩ := by
  rw [readLines, codeviewPayload, List.append_assoc, List.append_assoc, List.append_assoc,
    readWord_bytes (by decide), Option.bind_eq_bind, Option.bind_some]
  dsimp only
  rw [readWord_bytes (by decide), Option.bind_some]
  dsimp only
  rw [readWord_bytes (by decide), Option.bind_some]
  dsimp only
  rw [readWord_bytes text, Option.bind_some]
  dsimp only
  rw [if_neg (not_not.mpr rfl), reads]
  rfl

/-- A reader finds the lines of a table from its subsections. -/
theorem readTable_codeviewData {strings payload : List UInt8} {offsets : List Nat}
    {table : CodeView.Table} (stringsFit : strings.length < 256 ^ 4)
    (offsetsFit : offsets.length * 8 < 256 ^ 4) (payloadFits : payload.length < 256 ^ 4)
    (reads : readLines (file? (codeviewChecksums offsets) strings) payload = some table) :
    CodeView.readTable (codeviewData strings offsets payload) = some table := by
  have length := length_codeviewData strings offsets payload
  rw [codeviewData, List.length_append, length_bytes] at length
  rw [CodeView.readTable, codeviewData, readWord_bytes (by decide), Option.bind_eq_bind,
    Option.bind_some]
  dsimp only
  rw [if_neg (not_not.mpr rfl),
    readSubsections_written stringsFit offsetsFit payloadFits (by omega)]
  exact reads

/-! ## Rows by file -/

/-- Lines that each belong to one of some files are those of the files, file by file. -/
theorem perm_fileLines {files : List DebugFile} (distinct : (files.map DebugFile.id).Nodup)
    {lines : List DebugLine}
    (declared : ∀ line ∈ lines, ∃ file ∈ files, line.fileId.toNat = file.id) :
    (files.flatMap (codeviewFileLines lines)).Perm lines := by
  induction files generalizing lines with
  | nil =>
      cases lines with
      | nil => exact List.Perm.refl _
      | cons line lines =>
          obtain ⟨file, member, -⟩ := declared line List.mem_cons_self
          exact absurd member List.not_mem_nil
  | cons file files inductionHypothesis =>
      rw [List.map_cons, List.nodup_cons] at distinct
      let others := lines.filter fun line => !decide (line.fileId.toNat = file.id)
      have rest : files.flatMap (codeviewFileLines lines) =
          files.flatMap (codeviewFileLines others) := by
        refine List.flatMap_congr fun other member => ?_
        have apart : other.id ≠ file.id := fun same =>
          distinct.1 (same ▸ List.mem_map_of_mem member)
        rw [codeviewFileLines, codeviewFileLines, List.filter_filter]
        refine List.filter_congr fun line _ => ?_
        by_cases ofOther : line.fileId.toNat = other.id
        · simp [ofOther, apart]
        · simp [ofOther]
      have ofOthers : (files.flatMap (codeviewFileLines others)).Perm others := by
        refine inductionHypothesis distinct.2 fun line member => ?_
        obtain ⟨inLines, apart⟩ := List.mem_filter.mp member
        obtain ⟨other, inFiles, same⟩ := declared line inLines
        rcases List.mem_cons.mp inFiles with rfl | inRest
        · rw [same, decide_eq_true rfl] at apart
          contradiction
        · exact ⟨other, inRest, same⟩
      rw [List.flatMap_cons, rest]
      exact (ofOthers.append_left _).trans (List.filter_append_perm _ lines)

theorem perm_of_valid {files : List DebugFile} {lines : List DebugLine} {textSize last : Nat}
    (distinct : (files.map DebugFile.id).Nodup)
    (valid : debugLinesValid files textSize last lines = true) :
    (files.flatMap (codeviewFileLines lines)).Perm lines := by
  refine perm_fileLines distinct fun line member => ?_
  obtain ⟨-, -, index, isIndex⟩ := (debugLinesValid_spec valid).2 line member
  obtain ⟨inFiles, sameId, -⟩ := List.findIdx?_eq_some_iff_getElem.mp isIndex
  exact ⟨files[index], List.getElem_mem inFiles, (of_decide_eq_true sameId).symm⟩

/-! ## What a table decodes to -/

/-- Subsections with their heads, one after the other up to the end, each at a multiple of
four bytes. -/
def LaidOut (data : List UInt8) : Nat → List Subsection → Prop
  | position, [] => position = data.length
  | position, subsection :: later =>
      position % 4 = 0 ∧
        Holds data position (bytes 4 subsection.kind ++ bytes 4 subsection.bytes.length ++
          subsection.bytes) ∧
        LaidOut data
          (position + 8 + subsection.bytes.length + (4 - subsection.bytes.length % 4) % 4) later

theorem laidOut_piece {front back payload : List UInt8} {kind : Nat} {later : List Subsection}
    (aligned : front.length % 4 = 0)
    (rest : LaidOut (front ++ (codeviewPiece kind payload ++ back))
      (front.length + (codeviewPiece kind payload).length) later) :
    LaidOut (front ++ (codeviewPiece kind payload ++ back)) front.length
      (⟨kind, payload⟩ :: later) := by
  refine ⟨aligned, ?_, ?_⟩
  · have middle := Holds.middle front (bytes 4 kind ++ bytes 4 payload.length ++ payload)
      (List.replicate ((4 - payload.length % 4) % 4) 0 ++ back)
    rw [codeviewPiece]
    simpa only [List.append_assoc] using middle
  · rw [length_codeviewPiece] at rest
    rwa [show front.length + 8 + payload.length + (4 - payload.length % 4) % 4 =
      front.length + (8 + payload.length + (4 - payload.length % 4) % 4) by omega]

theorem laidOut_written (strings : List UInt8) (offsets : List Nat) (payload : List UInt8) :
    LaidOut (codeviewData strings offsets payload) (codeviewLinesStart strings offsets)
        [⟨debugSLines, payload⟩] ∧
      LaidOut (codeviewData strings offsets payload) 4 [⟨debugSStringTable, strings⟩,
        ⟨debugSFileChksms, codeviewChecksums offsets⟩, ⟨debugSLines, payload⟩] := by
  have first := codeviewPiece_aligned debugSStringTable strings
  have second := codeviewPiece_aligned debugSFileChksms (codeviewChecksums offsets)
  have signature : (bytes 4 4).length = 4 := length_bytes 4 4
  have front : (bytes 4 4 ++ codeviewPiece debugSStringTable strings).length =
      4 + (codeviewPiece debugSStringTable strings).length := by
    rw [List.length_append, signature]
  have start : (bytes 4 4 ++ codeviewPiece debugSStringTable strings ++
      codeviewPiece debugSFileChksms (codeviewChecksums offsets)).length =
      codeviewLinesStart strings offsets := by
    rw [List.length_append, front, codeviewLinesStart]
  have last : LaidOut (codeviewData strings offsets payload) (codeviewLinesStart strings offsets)
      [⟨debugSLines, payload⟩] := by
    have piece := @laidOut_piece (bytes 4 4 ++ codeviewPiece debugSStringTable strings ++
      codeviewPiece debugSFileChksms (codeviewChecksums offsets)) [] payload debugSLines []
      (by rw [start, codeviewLinesStart]; omega) (by
        rw [LaidOut, List.append_nil]
        exact List.length_append.symm)
    rw [start, List.append_nil] at piece
    simpa only [codeviewData, List.append_assoc] using piece
  have middle : LaidOut (codeviewData strings offsets payload)
      (4 + (codeviewPiece debugSStringTable strings).length)
      [⟨debugSFileChksms, codeviewChecksums offsets⟩, ⟨debugSLines, payload⟩] := by
    have piece := @laidOut_piece (bytes 4 4 ++ codeviewPiece debugSStringTable strings)
      (codeviewPiece debugSLines payload) (codeviewChecksums offsets) debugSFileChksms
      [⟨debugSLines, payload⟩] (by omega) (by
        rw [front]
        simpa only [codeviewData, codeviewLinesStart, List.append_assoc] using last)
    rw [front] at piece
    simpa only [codeviewData, List.append_assoc] using piece
  refine ⟨last, ?_⟩
  have piece := @laidOut_piece (bytes 4 4) (codeviewPiece debugSFileChksms
    (codeviewChecksums offsets) ++ codeviewPiece debugSLines payload) strings debugSStringTable
    [⟨debugSFileChksms, codeviewChecksums offsets⟩, ⟨debugSLines, payload⟩] (by omega) (by
      rw [signature]
      exact middle)
  rwa [signature] at piece

/-- The subsections of a table, with the place of its relocated fields. -/
def FindsSubsections (table : CodeViewLineSection) : Prop :=
  ∃ strings checksums linesStart lines,
    readSubsections table.data.length (table.data.drop 4) = some [⟨debugSStringTable, strings⟩,
      ⟨debugSFileChksms, checksums⟩, ⟨debugSLines, lines⟩] ∧
    LaidOut table.data 4 [⟨debugSStringTable, strings⟩, ⟨debugSFileChksms, checksums⟩,
      ⟨debugSLines, lines⟩] ∧
    LaidOut table.data linesStart [⟨debugSLines, lines⟩] ∧
    table.sectionOffsetRelocation = linesStart + 8 ∧
    table.sectionIndexRelocation = linesStart + 8 + 4

/-- A line table decodes to its input. -/
structure CodeviewDecodes (files : List DebugFile) (lines : List DebugLine) (textSize : Nat)
    (table : CodeViewLineSection) : Prop where
  subsections : FindsSubsections table
  blocks : readTable table.data = some ⟨textSize,
    (files.filter fun file => decide (codeviewFileLines lines file ≠ [])).map fun file =>
      ⟨file.path, (codeviewFileLines lines file).map lineOf⟩⟩
  once : (files.flatMap (codeviewFileLines lines)).Perm lines
  ordered : ∀ file ∈ files, (codeviewFileLines lines file).Pairwise
    fun first second => first.offset ≤ second.offset

/-- A reader finds the blocks of a table that is written. -/
theorem readTable_codeviewLine {files : List DebugFile} {lines : List DebugLine} {textSize : Nat}
    {table : CodeViewLineSection} (numbers : ∀ line ∈ lines, line.line.toNat < 2 ^ 24)
    (built : outputBuildCodeviewLine files lines textSize = .ok table)
    (fits : table.data.length < 2 ^ 32) :
    CodeView.readTable table.data = some ⟨textSize, blocksOf lines files⟩ := by
  obtain ⟨valid, text, strings, offsets, blocks, isStrings, isBlocks, data, -, -⟩ :=
    codeviewLine_parts built
  obtain ⟨-, each⟩ := debugLinesValid_spec (linesValid_of_contract valid)
  have text : textSize < 256 ^ 4 := Nat.lt_of_le_of_lt text (by decide)
  rw [data] at fits
  have sizes := length_codeviewData strings offsets (codeviewPayload textSize blocks)
  have count := codeviewStrings_count isStrings
  have lineFits : ∀ line ∈ lines, line.offset < 2 ^ 32 ∧ line.line.toNat < 2 ^ 24 := by
    intro line member
    have inside := (each line member).2.1
    exact ⟨by omega, numbers line member⟩
  have readsBlocks := @readBlocks_written lines (file? (codeviewChecksums offsets) strings)
    lineFits files 0 blocks.length blocks (fun index file isFile => by
      rw [Nat.zero_add]
      exact file?_checksum isStrings (by omega) isFile) (by omega) isBlocks (Nat.le_refl _)
  rw [data]
  exact readTable_codeviewData (by omega) (by omega) (by omega) (readLines_written text readsBlocks)

/-- The section that is written for files with distinct numbers and paths, and rows that meet
the contract, decodes to these rows, file by file. -/
theorem codeview_line_decodes (files : List DebugFile) (lines : List DebugLine) (textSize : Nat)
    (table : CodeViewLineSection) (distinct : (files.map DebugFile.id).Nodup)
    (paths : ∀ file ∈ files, file.path ≠ [] ∧ 0 ∉ file.path)
    (numbers : ∀ line ∈ lines, line.line.toNat < 2 ^ 24)
    (built : outputBuildCodeviewLine files lines textSize = .ok table)
    (fits : table.data.length < 2 ^ 32) :
    CodeviewDecodes files lines textSize table := by
  obtain ⟨valid, -, strings, offsets, blocks, -, -, data, sectionOffset,
    sectionIndex⟩ := codeviewLine_parts built
  obtain ⟨sorted, -⟩ := debugLinesValid_spec (linesValid_of_contract valid)
  rw [data] at fits
  have sizes := length_codeviewData strings offsets (codeviewPayload textSize blocks)
  obtain ⟨linesLaid, allLaid⟩ := laidOut_written strings offsets (codeviewPayload textSize blocks)
  refine ⟨?_, ?_, ?_, fun file _ => sorted.filter _⟩
  · refine ⟨strings, codeviewChecksums offsets, codeviewLinesStart strings offsets,
      codeviewPayload textSize blocks, ?_, ?_, ?_, sectionOffset, sectionIndex⟩
    · rw [data, codeviewData, List.drop_left' (length_bytes 4 4)]
      exact readSubsections_written (by omega) (by omega) (by omega) (by
        rw [← codeviewData]
        omega)
    · rwa [data]
    · rwa [data]
  · have names : ∀ file ∈ files, cString file.path = file.path := fun file member =>
      cString_of_clean (paths file member).2
    rw [readTable_codeviewLine numbers built (by rw [data]; exact fits), blocksOf]
    refine congrArg (fun blocks => some (Table.mk textSize blocks)) ?_
    exact List.map_congr_left fun file member => by rw [names file (List.mem_filter.mp member).1]
  · exact perm_of_valid distinct (linesValid_of_contract valid)

/-- Rows of two files by turns, and a file that has none. -/
theorem codeview_line_decodes_threeFiles :
    ∃ table, outputBuildCodeviewLine [⟨7, [109]⟩, ⟨8, [111]⟩, ⟨9, [110, 46]⟩]
        [⟨0, 9, 300, 2⟩, ⟨1, 7, 4, 0⟩, ⟨1, 9, 4, 0⟩] 5 = .ok table ∧
      CodeviewDecodes [⟨7, [109]⟩, ⟨8, [111]⟩, ⟨9, [110, 46]⟩]
        [⟨0, 9, 300, 2⟩, ⟨1, 7, 4, 0⟩, ⟨1, 9, 4, 0⟩] 5 table :=
  ⟨_, rfl, codeview_line_decodes _ _ 5 _ (by decide) (by decide) (by decide) rfl (by decide +kernel)⟩

end Nazm.Output
