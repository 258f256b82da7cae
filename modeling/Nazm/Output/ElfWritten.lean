import Nazm.Output.ElfRecovered

/-!
The ELF64 writer on accepted sources.

Owns that the writer succeeds on every accepted source within the size limit,
how large its file can be, and the read-back of what it writes.

Does not own the COFF writer.
-/

namespace Nazm.Output

open ByteFile LittleEndian
open Nazm.Encoder Nazm.Lexer Nazm.Symtable Nazm.Unicode Nazm.Passes

variable {src : SourceBuffer}

/-! ## The writer succeeds -/

theorem elfOutputSymbols_of_source (accepted : Accepted src)
    (limit : src.data.length ≤ nazmApiMaxSourceSize) :
    elfOutputSymbols (sourceOutput src) =
      .ok ⟨objectSymbolList (sourcePass1 src).symtable,
        (collectBinding (sourcePass1 src).symtable .local).length⟩ := by
  have collected := outputSymbolsCollect_of_source accepted limit
  have names := length_symbolNames accepted
  have light := sourceWeight_le limit
  have known := relocationsHaveSymbols_of_source accepted
    (collectBinding (sourcePass1 src).symtable .local).length
  have fits : namesFitStrtab 1 (symbolNames ⟨objectSymbolList (sourcePass1 src).symtable,
      (collectBinding (sourcePass1 src).symtable .local).length⟩) = true := by
    refine (namesFitStrtab_iff (by decide)).mpr ?_
    change 1 + (strings ((objectSymbolList (sourcePass1 src).symtable).map
      OutputSymbol.name)).length ≤ uint32Max
    rw [uint32Max]
    omega
  rw [elfOutputSymbols, sourceOutput]
  dsimp only
  rw [collected]
  simp only [fits, known, Bool.not_true, Bool.false_eq_true, if_false]

/-- Every relocation has an entry once each has its symbol. -/
theorem elfRelas_isSome {input : OutputInput} {symbols : OutputSymbolList}
    (known : relocationsHaveSymbols input.relocations symbols = true)
    (section_ : RelocationSection) : ∃ relas, elfRelas input symbols section_ = some relas := by
  rw [elfRelas]
  exact mapM_findIndex_isSome fun relocation member =>
    List.all_eq_true.mp known relocation (mem_relocationsIn.mp member).1

theorem elfDebugLine_of_source (accepted : Accepted src)
    (limit : src.data.length ≤ nazmApiMaxSourceSize) :
    ∃ table, elfDebugLine (sourceOutput src) = .ok table := by
  rw [elfDebugLine]
  split
  · next debug => exact dwarfLine_of_source accepted limit debug
  · exact ⟨_, rfl⟩

/-- The writer succeeds on every accepted source within the size limit. -/
theorem elf_of_source (accepted : Accepted src)
    (limit : src.data.length ≤ nazmApiMaxSourceSize) :
    ∃ file, outputWriteElf64 (sourceOutput src) = .ok file := by
  obtain ⟨table, isTable⟩ := elfDebugLine_of_source accepted limit
  have known := relocationsHaveSymbols_of_source accepted
    (collectBinding (sourcePass1 src).symtable .local).length
  have relas := @elfRelas_isSome (sourceOutput src) _ known
  obtain ⟨relaText, isText⟩ := relas .text
  obtain ⟨relaData, isData⟩ := relas .data
  obtain ⟨relaReadOnlyData, isReadOnlyData⟩ := relas .readOnlyData
  rw [outputWriteElf64, isTable, elfOutputSymbols_of_source accepted limit]
  dsimp only
  rw [isText, isData, isReadOnlyData]
  exact ⟨_, rfl⟩

/-! ## The size of the file -/

theorem length_dwarfLine {files : List DebugFile} {lines : List DebugLine} {textSize : Nat}
    {table : DwarfLineSection} (built : outputBuildDwarfLine files lines textSize = .ok table) :
    table.data.length ≤ 4 + uint32Max := by
  unfold outputBuildDwarfLine at built
  split at built
  · contradiction
  · split at built
    · contradiction
    · dsimp only at built
      split at built
      · contradiction
      · next rows address isRows =>
          generalize (if address < textSize then 2 :: uleb (textSize - address) else []) = advanced
            at built
          split at built
          · cases built
          · next fits =>
              rw [← Except.ok.inj built]
              dsimp only
              rw [List.length_append, length_bytes]
              omega

theorem length_relas (accepted : Accepted src) {contents : ElfContents}
    (from_ : FromSource src contents) (section_ : RelocationSection) :
    (contents.relasOf (ElfContents.relaSection section_)).length ≤ sourceWeight src := by
  have all := length_relocations_le accepted
  have related := (relas_of_source from_ section_).length_eq
  have some_ : (relocationsIn contents.input.relocations section_).length ≤
      (sourcePass2 src).relocations.length := by
    rw [from_.input]
    exact List.length_filter_le _ _
  omega

/-- No section takes this many bytes of the file. -/
theorem length_contents_lt (accepted : Accepted src)
    (limit : src.data.length ≤ nazmApiMaxSourceSize) {contents : ElfContents}
    (from_ : FromSource src contents) (section_ : ElfSection) :
    (contents.bytes section_).length < 2 ^ 59 := by
  have light := sourceWeight_le limit
  have isInput := from_.input
  have relas := length_relas accepted from_
  have names : (strings (symbolNames contents.symbols)).length ≤ sourceWeight src := by
    rw [from_.symbols]
    exact length_symbolNames accepted
  have symbols := length_le_strings (symbolNames contents.symbols)
  rw [symbolNames, List.length_map] at symbols
  have table : contents.debugLine.data.length ≤ 4 + uint32Max := by
    have built := from_.debugLine
    unfold elfDebugLine at built
    split at built
    · exact length_dwarfLine built
    · rw [← Except.ok.inj built]
      exact Nat.zero_le _
  rw [uint32Max] at table
  cases section_ with
  | text =>
      have size := textSize_le accepted
      rw [ElfContents.bytes, isInput]
      change (sourcePass2 src).textBytes.length < _
      omega
  | data =>
      have size := sectionSize_le accepted .data
      rw [ElfContents.bytes, isInput]
      change (sourcePass2 src).sizes.get .data < _
      omega
  | readOnlyData =>
      have size := sectionSize_le accepted .readOnlyData
      rw [ElfContents.bytes, isInput]
      change (sourcePass2 src).sizes.get .readOnlyData < _
      omega
  | debugLine =>
      change contents.debugLine.data.length < _
      omega
  | symtab =>
      rw [ElfContents.bytes, length_flatMap_uniform ElfContents.length_writeSym, elfSymbols]
      simp only [List.length_append, List.length_zipWith, List.length_singleton]
      have first : (if contents.input.hasDebug = true then
          [(⟨0, 3, 0, contents.numbers.text, 0, 0⟩ : ElfSymbol)] else []).length ≤ 1 := by
        split
        · exact Nat.le_refl _
        · exact Nat.zero_le _
      have last := Nat.min_le_left contents.symbols.data.length
        (elfNameOffsets 1 (symbolNames contents.symbols)).length
      change contents.symbols.data.length ≤
        (strings (symbolNames contents.symbols)).length at symbols
      omega
  | relaText =>
      have few := relas .text
      rw [ElfContents.bytes, length_flatMap_uniform ElfContents.length_writeRela]
      change contents.relaText.length ≤ _ at few
      omega
  | relaData =>
      have few := relas .data
      rw [ElfContents.bytes, length_flatMap_uniform ElfContents.length_writeRela]
      change contents.relaData.length ≤ _ at few
      omega
  | relaReadOnlyData =>
      have few := relas .readOnlyData
      rw [ElfContents.bytes, length_flatMap_uniform ElfContents.length_writeRela]
      change contents.relaReadOnlyData.length ≤ _ at few
      omega
  | relaDebugLine =>
      rw [ElfContents.bytes, length_flatMap_uniform ElfContents.length_writeRela,
        ElfContents.relaDebugLine, List.length_singleton]
      decide
  | strtab =>
      rw [ElfContents.bytes, List.length_append, List.length_singleton]
      omega
  | shstrtab =>
      have all : (strings (contents.sections.map ElfSection.name)).length ≤
          (strings (ElfSection.all.map ElfSection.name)).length := by
        exact (List.Sublist.flatMap (List.filter_sublist.map ElfSection.name) _).length_le
      have total : (strings (ElfSection.all.map ElfSection.name)).length ≤ 256 := by
        decide +kernel
      rw [ElfContents.bytes, List.length_append, List.length_singleton]
      omega
  | bss => exact Nat.lt_of_lt_of_le (show 0 < 1 from Nat.one_pos) (by decide)
  | noteGnuStack => exact Nat.lt_of_lt_of_le (show 0 < 1 from Nat.one_pos) (by decide)

/-- Sizes within the limit are far from what 64 bits count. -/
theorem sizesFit_of_source (accepted : Accepted src)
    (limit : src.data.length ≤ nazmApiMaxSourceSize) {contents : ElfContents}
    (from_ : FromSource src contents) : SizesFit src contents.file := by
  have light := sourceWeight_le limit
  have bss := sectionSize_le accepted .bss
  change (sourcePass2 src).bssSize ≤ _ at bss
  refine ⟨?_, by omega⟩
  have laid := length_lay_le (ElfSection.inFile.map contents.chunk) contents.fileHeader
  have each : ∀ sections : List ElfSection, ((sections.map contents.chunk).map fun chunk =>
      chunk.alignment + chunk.bytes.length).sum ≤ sections.length * 2 ^ 60 := by
    intro sections
    induction sections with
    | nil => exact Nat.zero_le _
    | cons section_ sections inductionHypothesis =>
        have bytes := length_contents_lt accepted limit from_ section_
        have alignment : section_.fileAlignment ≤ 8 := by cases section_ <;> decide
        simp only [List.map_cons, List.sum_cons, List.length_cons, ElfContents.chunk]
          at inductionHypothesis ⊢
        omega
  have chunks := each ElfSection.inFile
  have eleven : ElfSection.inFile.length = 11 := rfl
  have headers := contents.count_le
  have last := padding_le 8 contents.laid.2.length
  rw [ElfContents.length_file, ElfContents.length_headers, ElfContents.shoff, ElfContents.buffer,
    List.length_append, List.length_replicate]
  rw [ElfContents.length_fileHeader] at laid
  change contents.laid.2.length ≤ _ at laid
  omega

/-! ## Read-back -/

/-- A reader recovers what an accepted source gives to the writer from the file
that the writer returns; within the size limit it returns one. -/
theorem elf_read_back (src : SourceBuffer) (accepted : Accepted src) :
    (∀ file, outputWriteElf64 (sourceOutput src) = .ok file → SizesFit src file →
      ∃ object, Elf.readElf64 file = some object ∧
        ElfRecovered (sourceOutput src) file object) ∧
    (src.data.length ≤ nazmApiMaxSourceSize →
      ∃ file, outputWriteElf64 (sourceOutput src) = .ok file ∧ SizesFit src file) := by
  refine ⟨fun file written fits => ?_, fun limit => ?_⟩
  · obtain ⟨contents, from_, rfl⟩ := contents_of_written written
    exact ⟨contents.object, ElfContents.readElf64_file (wellFormed_of_source accepted from_ fits),
      elfRecovered_of_source accepted from_ fits⟩
  · obtain ⟨file, written⟩ := elf_of_source accepted limit
    obtain ⟨contents, from_, rfl⟩ := contents_of_written written
    exact ⟨contents.file, written, sizesFit_of_source accepted limit from_⟩

/-- A marked call of an external symbol, and its address in `.بيانات`. -/
def markedCall : SourceBuffer :=
  ⟨utf8 ".خارجي خ\n.ملف ١، \"م\"\n.موضع ١، ٣، ٢\nناد خ\n.بيانات\n.عدد٦٤ خ\n", none⟩

theorem elf_read_back_markedCall : (sourceOutput markedCall).hasDebug = true ∧
    ∃ file object, outputWriteElf64 (sourceOutput markedCall) = .ok file ∧
      Elf.readElf64 file = some object ∧ ElfRecovered (sourceOutput markedCall) file object := by
  obtain ⟨recovered, written⟩ := elf_read_back markedCall (by decide +kernel)
  obtain ⟨file, isFile, fits⟩ := written (by decide +kernel)
  obtain ⟨object, isObject, holds⟩ := recovered file isFile fits
  exact ⟨by decide +kernel, file, object, isFile, isObject, holds⟩

end Nazm.Output
