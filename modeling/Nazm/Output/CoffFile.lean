import Nazm.Output.Coff
import Nazm.Output.SymbolLists

/-!
The parts of a COFF file.

Owns what the writer has checked when it puts a file together, where each part
stands in the file, and that the pointers that are computed ahead are the
positions of the parts, as far as 32 bits show them.

Does not own what a reader makes of the parts.
-/

namespace Nazm.Output

open ByteFile
open Nazm.Encoder Nazm.Symtable Nazm.Unicode Nazm.Passes

/-! ## What the writer has checked -/

namespace CoffContents

/-- The relocations of a section. -/
def relocsOf (contents : CoffContents) : RelocationSection → List CoffReloc
  | .text => contents.textRelocs
  | .data => contents.dataRelocs
  | .readOnlyData => contents.readOnlyDataRelocs

end CoffContents

/-- Contents that the writer goes on to write. -/
structure CoffBuilt (input : OutputInput) (contents : CoffContents) : Prop where
  isInput : contents.input = input
  debugLine : coffDebugLine input = .ok contents.debugLine
  symbols : contents.symbols = ⟨objectSymbolList input.symtable,
    (collectBinding input.symtable .local).length⟩
  symbolCount : contents.symbols.data.length + 1 +
    (if input.hasDebug then 1 else 0) ≤ uint32Max
  namesFit : 4 + (strings (coffLongNames contents.names)).length ≤ uint32Max
  relocationCounts : ∀ section_,
    countRelocationsInSection input.relocations section_ ≤ uint16Max
  relocs : ∀ section_, coffRelocs input contents.symbols section_ = some (contents.relocsOf section_)

/-- Collected symbols are counted. -/
theorem length_of_collected {symtable : SymbolTable} {symbols : OutputSymbolList}
    (collected : outputSymbolsCollect symtable = some symbols) :
    symbols.data.length ≤ uint32Max - 1 := by
  unfold outputSymbolsCollect at collected
  split at collected
  · contradiction
  · next few =>
      have each : (collectBinding symtable .local ++ collectBinding symtable .global).length =
          (symtable.entries.filter isOutputSymbol).length := by
        rw [List.length_append, collectBinding, collectBinding, List.length_map, List.length_map]
        induction symtable.entries with
        | nil => rfl
        | cons entry entries inductionHypothesis =>
            cases isSymbol : isOutputSymbol entry <;> cases binding : entry.binding <;>
              simp only [List.filter_cons, isSymbol, binding, Bool.false_and, Bool.true_and,
                decide_true, reduceCtorEq, decide_false, Bool.false_eq_true, if_true, if_false,
                List.length_cons] <;> omega
      rw [← Option.some.inj collected]
      dsimp only
      omega

theorem coffRelocationCounts_eq_ok {relocations : List Relocation}
    (ok : coffRelocationCounts relocations = .ok ()) (section_ : RelocationSection) :
    countRelocationsInSection relocations section_ ≤ uint16Max := by
  unfold coffRelocationCounts at ok
  split at ok
  · contradiction
  · next text =>
      split at ok
      · contradiction
      · next data =>
          split at ok
          · contradiction
          · next readOnlyData =>
              cases section_ with
              | text => exact Nat.le_of_not_lt text
              | data => exact Nat.le_of_not_lt data
              | readOnlyData => exact Nat.le_of_not_lt readOnlyData

theorem coffOutputSymbols_eq_ok {input : OutputInput} {symbols : OutputSymbolList}
    (ok : coffOutputSymbols input = .ok symbols) :
    symbols = ⟨objectSymbolList input.symtable, (collectBinding input.symtable .local).length⟩ ∧
      symbols.data.length + 1 + (if input.hasDebug then 1 else 0) ≤ uint32Max ∧
      namesFitStrtab 4 (coffLongNames (coffFileName input :: symbolNames symbols)) = true ∧
      ∀ section_, countRelocationsInSection input.relocations section_ ≤ uint16Max := by
  unfold coffOutputSymbols at ok
  split at ok
  · contradiction
  · next collected =>
      split at ok
      · contradiction
      · next fits =>
          split at ok
          · contradiction
          · split at ok
            · contradiction
            · next counts =>
                have few := length_of_collected collected
                split at ok
                · contradiction
                · next debug =>
                    obtain rfl := Except.ok.inj ok
                    refine ⟨outputSymbolsCollect_eq_some collected, ?_, by simpa using fits,
                      coffRelocationCounts_eq_ok counts⟩
                    rw [uint32Max] at few debug ⊢
                    split
                    · next hasDebug =>
                        have less := Nat.le_of_not_lt fun more => debug ⟨hasDebug, more⟩
                        omega
                    · omega

/-- What the writer has checked when it succeeds. -/
theorem coffBuilt_of_contents {input : OutputInput} {contents : CoffContents}
    (ok : coffContents input = .ok contents) : CoffBuilt input contents := by
  unfold coffContents at ok
  split at ok
  · contradiction
  · next debugLine isLines =>
      split at ok
      · contradiction
      · next symbols isSymbols =>
          obtain ⟨isList, few, fits, counts⟩ := coffOutputSymbols_eq_ok isSymbols
          split at ok
          · next textRelocs dataRelocs readOnlyDataRelocs text data readOnlyData =>
              obtain rfl := Except.ok.inj ok
              refine ⟨rfl, isLines, isList, few, (namesFitStrtab_iff (by decide)).mp fits, counts,
                fun section_ => ?_⟩
              cases section_ with
              | text => exact text
              | data => exact data
              | readOnlyData => exact readOnlyData
          · contradiction

/-- The relocations that are written, and those they were made from. -/
theorem relocs_of_built {input : OutputInput} {contents : CoffContents}
    (built : CoffBuilt input contents) (section_ : RelocationSection) :
    List.Forall₂ (fun relocation reloc => ∃ place symbol,
        contents.symbols.data[place]? = some symbol ∧ symbol.name = relocation.symbol ∧
          reloc = ⟨UInt32.ofNat relocation.offset, UInt32.ofNat (place + 1),
            coffRelocationType relocation.kind⟩)
      (relocationsIn input.relocations section_) (contents.relocsOf section_) := by
  refine (forall₂_of_mapM (built.relocs section_)).imp fun relocation reloc isReloc => ?_
  obtain ⟨index, found, rfl⟩ := Option.map_eq_some_iff.mp isReloc
  obtain ⟨place, symbol, rfl, isSymbol, isName⟩ := outputSymbolsFindIndex_eq_some found
  exact ⟨place, symbol, isSymbol, isName, rfl⟩

theorem length_relocsOf {input : OutputInput} {contents : CoffContents}
    (built : CoffBuilt input contents) (section_ : RelocationSection) :
    (contents.relocsOf section_).length = countRelocationsInSection input.relocations section_ := by
  rw [← (relocs_of_built built section_).length_eq, relocationsIn, countRelocationsInSection,
    List.countP_eq_length_filter]

/-! ## Positions -/

namespace CoffContents

variable {input : OutputInput} {contents : CoffContents}

theorem length_writeHeader (sh : CoffHeader) (name : sh.name.length ≤ 8) :
    sh.write.length = 40 := by
  simp only [CoffHeader.write, w16, w32, List.length_append, List.length_replicate,
    LittleEndian.length_bytes]
  omega

theorem length_writeReloc (reloc : CoffReloc) : reloc.write.length = 10 := by
  simp [CoffReloc.write, w16, w32]

theorem length_nameField (sym : CoffSym) : sym.nameField.length = 8 := by
  unfold CoffSym.nameField
  split
  · rw [List.length_append, List.length_replicate]
    omega
  · simp [w32]

theorem length_writeSym (sym : CoffSym) : sym.write.length = 18 := by
  simp [CoffSym.write, length_nameField, w16, w32]

theorem length_header_name (section_ : CoffSection) :
    (contents.header section_).name.length ≤ 8 := by
  cases section_ <;> simp only [header] <;> decide

theorem length_fileHeader : contents.fileHeader.length = 20 := by
  simp [fileHeader, w16, w32]

/-- The sections are as many as are counted. -/
theorem length_sections : contents.sections.length = coffSectionCount contents.input := by
  unfold sections coffSectionCount CoffSection.all
  simp only [List.filter, OutputInput.hasCoffSection]
  generalize contents.input.hasData = hasData
  generalize contents.input.hasReadOnlyData = hasReadOnlyData
  generalize contents.input.hasBss = hasBss
  generalize contents.input.hasDebug = hasDebug
  revert hasData hasReadOnlyData hasBss hasDebug
  decide

/-- The offset of a part in the file. -/
def position (contents : CoffContents) (part : CoffPart) : Nat :=
  partOffset contents.part CoffPart.all part

theorem mem_all (part : CoffPart) : part ∈ CoffPart.all := by cases part <;> decide

theorem file_holds (contents : CoffContents) (part : CoffPart) :
    Holds contents.file (contents.position part) (contents.part part) :=
  part_holds contents.part (mem_all part)

/-- The parts lie one after the other. -/
theorem file_contiguous (contents : CoffContents) :
    Tiling.Contiguous contents.position (fun part => (contents.part part).length) 0 CoffPart.all
      contents.file.length :=
  parts_contiguous contents.part (by decide)

theorem length_sectionHeaders :
    (contents.part .sectionHeaders).length = coffSectionCount contents.input * 40 := by
  have each : ∀ sections : List CoffSection,
      ((sections.map contents.header).flatMap CoffHeader.write).length = sections.length * 40 := by
    intro sections
    induction sections with
    | nil => rfl
    | cons section_ sections inductionHypothesis =>
        rw [List.map_cons, List.flatMap_cons, List.length_append, inductionHypothesis,
          length_writeHeader _ (length_header_name section_), List.length_cons]
        omega
  rw [part, each, length_sections]

/-- The positions of the parts, each from that of the part before it. -/
structure Positions (contents : CoffContents) (input : OutputInput) : Prop where
  fileHeader : contents.position .fileHeader = 0
  sectionHeaders : contents.position .sectionHeaders = 20
  text : contents.position .text = 20 + coffSectionCount input * 40
  data : contents.position .data = contents.position .text + input.textBytes.length
  readOnlyData : contents.position .readOnlyData =
    contents.position .data + input.dataBytes.length
  debug : contents.position .debug =
    contents.position .readOnlyData + input.readOnlyDataBytes.length
  textRelocs : contents.position .textRelocs =
    contents.position .debug + (contents.part .debug).length
  dataRelocs : contents.position .dataRelocs = contents.position .textRelocs +
    countRelocationsInSection input.relocations .text * 10
  readOnlyDataRelocs : contents.position .readOnlyDataRelocs = contents.position .dataRelocs +
    countRelocationsInSection input.relocations .data * 10
  debugRelocs : contents.position .debugRelocs = contents.position .readOnlyDataRelocs +
    countRelocationsInSection input.relocations .readOnlyData * 10
  symtab : contents.position .symtab =
    contents.position .debugRelocs + (if input.hasDebug then 2 else 0) * 10
  strtab : contents.position .strtab =
    contents.position .symtab + contents.symtab.length * 18

/-- A part starts where the part before it ends. -/
theorem position_next {before : List CoffPart} {here next : CoffPart}
    (isHere : (CoffPart.all.takeWhile fun other => decide (other ≠ here)) = before)
    (isNext : (CoffPart.all.takeWhile fun other => decide (other ≠ next)) = before ++ [here]) :
    contents.position next = contents.position here + (contents.part here).length := by
  rw [position, position, partOffset, partOffset, isHere, isNext, List.flatMap_append,
    List.length_append, List.flatMap_singleton]

theorem positions (built : CoffBuilt input contents) : Positions contents input := by
  obtain ⟨rfl⟩ := built.isInput
  have relocs : ∀ section_, ((contents.relocsOf section_).flatMap CoffReloc.write).length =
      countRelocationsInSection contents.input.relocations section_ * 10 := fun section_ => by
    rw [length_flatMap_uniform length_writeReloc, length_relocsOf built]
  have debugRelocs : (contents.part .debugRelocs).length =
      (if contents.input.hasDebug then 2 else 0) * 10 := by
    rw [part, length_flatMap_uniform length_writeReloc, CoffContents.debugRelocs]
    split <;> rfl
  have symtab : (contents.part .symtab).length = contents.symtab.length * 18 :=
    length_flatMap_uniform length_writeSym _
  have sectionHeaders : contents.position .sectionHeaders = 20 := by
    rw [@position_next contents [] .fileHeader .sectionHeaders rfl rfl]
    exact congrArg (0 + ·) length_fileHeader
  refine ⟨rfl, sectionHeaders, ?_, position_next rfl rfl, position_next rfl rfl,
    position_next rfl rfl, position_next rfl rfl, ?_, ?_, ?_, ?_, ?_⟩
  · rw [← length_sectionHeaders, ← sectionHeaders]
    exact position_next rfl rfl
  · rw [← relocs]
    exact position_next rfl rfl
  · rw [← relocs]
    exact position_next rfl rfl
  · rw [← relocs]
    exact position_next rfl rfl
  · rw [← debugRelocs]
    exact position_next rfl rfl
  · rw [← symtab]
    exact position_next rfl rfl

/-! ## Pointers -/

/-- A cursor moves over what is there. -/
theorem cursor_next {present : Bool} {start size : Nat} (absent : present = false → size = 0) :
    (if present then UInt32.ofNat start + UInt32.ofNat size else UInt32.ofNat start) =
      UInt32.ofNat (start + size) := by
  cases present with
  | false => rw [absent rfl]; rfl
  | true => rw [UInt32.ofNat_add]; rfl

theorem count_pos {count : Nat} (few : count ≤ uint16Max) : 0 < UInt32.ofNat count ↔ 0 < count := by
  have size : UInt32.size = 4294967296 := rfl
  rw [uint16Max] at few
  rw [UInt32.lt_iff_toNat_lt, UInt32.toNat_ofNat_of_lt' (by omega)]
  rfl

theorem length_debug (built : CoffBuilt input contents) :
    (contents.part .debug).length = contents.debugLine.data.length := by
  have isLines := built.debugLine
  rw [part, built.isInput]
  unfold coffDebugLine at isLines
  split
  · rfl
  · next noDebug =>
      rw [if_neg noDebug] at isLines
      rw [← Except.ok.inj isLines]

/-- The pointers that are computed ahead are the positions of the parts, cast to 32 bits. -/
theorem layout_eq (built : CoffBuilt input contents) : contents.layout =
    { textRawPtr := UInt32.ofNat (contents.position .text)
      dataRawPtr := if input.hasData then UInt32.ofNat (contents.position .data) else 0
      readOnlyDataRawPtr :=
        if input.hasReadOnlyData then UInt32.ofNat (contents.position .readOnlyData) else 0
      debugRawPtr := if input.hasDebug then UInt32.ofNat (contents.position .debug) else 0
      textRelocPtr :=
        if 0 < countRelocationsInSection input.relocations .text then
          UInt32.ofNat (contents.position .textRelocs) else 0
      dataRelocPtr :=
        if 0 < countRelocationsInSection input.relocations .data then
          UInt32.ofNat (contents.position .dataRelocs) else 0
      readOnlyDataRelocPtr :=
        if 0 < countRelocationsInSection input.relocations .readOnlyData then
          UInt32.ofNat (contents.position .readOnlyDataRelocs) else 0
      debugRelocPtr :=
        if input.hasDebug then UInt32.ofNat (contents.position .debugRelocs) else 0
      symtabPtr := UInt32.ofNat (contents.position .symtab) } := by
  obtain ⟨-, -, text, data, readOnlyData, debug, textRelocs, dataRelocs, readOnlyDataRelocs,
    debugRelocs, symtab, -⟩ := positions built
  rw [length_debug built] at textRelocs
  have noData : input.hasData = false → input.dataBytes.length = 0 := fun absent =>
    Nat.eq_zero_of_not_pos (of_decide_eq_false absent)
  have noReadOnlyData : input.hasReadOnlyData = false → input.readOnlyDataBytes.length = 0 :=
    fun absent => Nat.eq_zero_of_not_pos (of_decide_eq_false absent)
  have noDebug : input.hasDebug = false → contents.debugLine.data.length = 0 := by
    intro absent
    rw [← length_debug built, part, built.isInput, absent]
    rfl
  have atText : (20 : UInt32) + UInt32.ofNat (coffSectionCount input * 40) =
      UInt32.ofNat (contents.position .text) := by rw [text, UInt32.ofNat_add]; rfl
  have atData := (UInt32.ofNat_add (contents.position .text) input.textBytes.length).symm
  rw [← data] at atData
  have atReadOnlyData := @cursor_next _ (contents.position .data) _ noData
  rw [← readOnlyData] at atReadOnlyData
  have atDebug := @cursor_next _ (contents.position .readOnlyData) _ noReadOnlyData
  rw [← debug] at atDebug
  have atTextRelocs := @cursor_next _ (contents.position .debug) _ noDebug
  rw [← textRelocs] at atTextRelocs
  have few := built.relocationCounts
  have debugCount : (if input.hasDebug then (2 : UInt32) else 0) =
      UInt32.ofNat (if input.hasDebug then 2 else 0) := by split <;> rfl
  have product : ∀ start count : Nat, UInt32.ofNat start + UInt32.ofNat count * 10 =
      UInt32.ofNat (start + count * 10) := fun start count => by
    rw [UInt32.ofNat_add, UInt32.ofNat_mul]
    rfl
  rw [layout, coffLayout, built.isInput]
  -- the cursor passes over one part after the other
  simp only [atText, atData]
  simp only [atReadOnlyData]
  simp only [atDebug]
  simp only [atTextRelocs, debugCount]
  simp only [count_pos (few _), ← UInt32.ofNat_add, product]
  rw [debugRelocs, readOnlyDataRelocs, dataRelocs] at symtab
  rw [readOnlyDataRelocs, dataRelocs] at debugRelocs
  rw [dataRelocs] at readOnlyDataRelocs
  rw [dataRelocs, readOnlyDataRelocs, debugRelocs, symtab]
  simp only [Nat.add_mul, Nat.add_assoc]

end CoffContents

end Nazm.Output
