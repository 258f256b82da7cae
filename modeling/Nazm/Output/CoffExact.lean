import Nazm.Output.CoffFile
import Nazm.Output.LineTables

/-!
The numbers of a COFF file.

Owns what each field of a file stands for, and when the fields hold it: the
writer casts sizes, pointers, offsets and values to 32 bits without a check, so
they do exactly when `.bss` and the part of the file before the symbol table are
smaller than four gigabytes.

Does not own what a reader makes of the fields.
-/

namespace Nazm.Output

open ByteFile
open Nazm.Encoder Nazm.Lexer Nazm.Symtable Nazm.Unicode Nazm.Passes

/-! ## Quantities -/

namespace CoffContents

/-- The part of the file that holds the contents of a section. -/
def rawPart : CoffSection → Option CoffPart
  | .text => some .text
  | .data => some .data
  | .readOnlyData => some .readOnlyData
  | .bss => none
  | .debug => some .debug

/-- The part of the file that holds the relocations of a section. -/
def relocPart : CoffSection → Option CoffPart
  | .text => some .textRelocs
  | .data => some .dataRelocs
  | .readOnlyData => some .readOnlyDataRelocs
  | .bss => none
  | .debug => some .debugRelocs

variable (contents : CoffContents)

def rawSize : CoffSection → Nat
  | .text => contents.input.textBytes.length
  | .data => contents.input.dataBytes.length
  | .readOnlyData => contents.input.readOnlyDataBytes.length
  | .bss => contents.input.bssSize
  | .debug => contents.debugLine.data.length

def relocCount : CoffSection → Nat
  | .text => countRelocationsInSection contents.input.relocations .text
  | .data => countRelocationsInSection contents.input.relocations .data
  | .readOnlyData => countRelocationsInSection contents.input.relocations .readOnlyData
  | .bss => 0
  | .debug => 2

/-- Where the contents of a section stand; zero for `.bss`. -/
def rawPosition (section_ : CoffSection) : Nat := ((rawPart section_).map contents.position).getD 0

/-- Where the relocations of a section stand; zero where there are none. -/
def relocPosition (section_ : CoffSection) : Nat :=
  if contents.relocCount section_ = 0 then 0
  else ((relocPart section_).map contents.position).getD 0

/-- The fields of a section header hold what they stand for. -/
structure HeaderExact (section_ : CoffSection) : Prop where
  rawSize : (contents.header section_).rawSize.toNat = contents.rawSize section_
  rawPtr : (contents.header section_).rawPtr.toNat = contents.rawPosition section_
  relocPtr : (contents.header section_).relocPtr.toNat = contents.relocPosition section_
  relocCount : (contents.header section_).relocCount.toNat = contents.relocCount section_
  relocCountFits : (contents.header section_).relocCount.toNat < 2 ^ 16

/-- The fields of a relocation hold what they stand for. -/
structure RelocExact (relocation : Relocation) (reloc : CoffReloc) : Prop where
  offset : reloc.offset.toNat = relocation.offset
  symbol : outputSymbolsFindIndex contents.symbols relocation.symbol = some reloc.symbolIndex.toNat

/-- Every field of 32 or 16 bits holds the quantity that it stands for. -/
structure NothingTruncated : Prop where
  headers : ∀ section_, contents.input.hasCoffSection section_ = true →
    contents.HeaderExact section_
  sectionCount : coffSectionCount contents.input = contents.sections.length ∧
    coffSectionCount contents.input < 2 ^ 16
  symtabPtr : contents.layout.symtabPtr.toNat = contents.position .symtab
  totalSymbols : contents.totalSymbols.toNat = contents.symtab.length
  relocs : ∀ section_, List.Forall₂ contents.RelocExact
    (relocationsIn contents.input.relocations section_) (contents.relocsOf section_)
  debugRelocs : contents.debugRelocs.map (fun reloc => (reloc.offset.toNat, reloc.symbolIndex.toNat)) =
    if contents.input.hasDebug then
      [(contents.debugLine.sectionOffsetRelocation, contents.symtab.length - 1),
        (contents.debugLine.sectionIndexRelocation, contents.symtab.length - 1)]
    else []
  values : ∀ (place : Nat) symbol, contents.symbols.data[place]? = some symbol →
    ∃ sym, contents.symtab[place + 1]? = some sym ∧ sym.name = symbol.name ∧
      (sym.value.toNat : Int) = symbol.offset
  nameOffsets : ∀ (index : Nat) sym, contents.symtab[index]? = some sym → 8 < sym.name.length →
    sym.strtabOff.toNat = 4 + (strings (coffLongNames (contents.names.take index))).length
  strtabSize : word (coffStrtab contents.names) 0 4 = (coffStrtab contents.names).length

end CoffContents

/-- The size of the line table. -/
def codeviewSize (input : OutputInput) : Nat :=
  match coffDebugLine input with
  | .ok debugLine => debugLine.data.length
  | .error _ => 0

/-- The headers, the contents of the sections, and ten bytes for each relocation. -/
def coffSizeBeforeSymbols (input : OutputInput) : Nat :=
  20 + coffSectionCount input * 40 + input.textBytes.length + input.dataBytes.length +
    input.readOnlyDataBytes.length + codeviewSize input +
    (input.relocations.length + (if input.hasDebug then 2 else 0)) * 10

/-- `.bss` and the file up to its symbol table are smaller than four gigabytes. -/
structure CoffFits (input : OutputInput) : Prop where
  bss : input.bssSize < 2 ^ 32
  file : coffSizeBeforeSymbols input < 2 ^ 32

instance (input : OutputInput) : Decidable (CoffFits input) :=
  decidable_of_iff (input.bssSize < 2 ^ 32 ∧ coffSizeBeforeSymbols input < 2 ^ 32)
    ⟨fun ⟨bss, file⟩ => ⟨bss, file⟩, fun fits => ⟨fits.bss, fits.file⟩⟩

/-! ## Positions -/

theorem count_sections (relocations : List Relocation) :
    countRelocationsInSection relocations .text + countRelocationsInSection relocations .data +
      countRelocationsInSection relocations .readOnlyData = relocations.length := by
  induction relocations with
  | nil => rfl
  | cons relocation relocations inductionHypothesis =>
      simp only [countRelocationsInSection, List.countP_cons, List.length_cons] at *
      cases relocation.section_ <;> simp <;> omega

namespace CoffContents

variable {input : OutputInput} {contents : CoffContents}

theorem position_symtab (built : CoffBuilt input contents) :
    contents.position .symtab = coffSizeBeforeSymbols input := by
  obtain ⟨-, -, text, data, readOnlyData, debug, textRelocs, dataRelocs, readOnlyDataRelocs,
    debugRelocs, symtab, -⟩ := positions built
  have lines : (contents.part .debug).length = codeviewSize input := by
    rw [length_debug built, codeviewSize, built.debugLine]
  have total := count_sections input.relocations
  rw [coffSizeBeforeSymbols, symtab]
  omega

/-- Every part before the symbol table ends there. -/
theorem part_before_symtab {part : CoffPart} (notSymtab : part ≠ .symtab)
    (notStrtab : part ≠ .strtab) :
    contents.position part + (contents.part part).length ≤ contents.position .symtab := by
  have ordered := contents.file_contiguous.apart
  rw [CoffPart.all] at ordered
  simp only [List.pairwise_cons] at ordered
  obtain ⟨first, second, third, fourth, fifth, sixth, seventh, eighth, ninth, tenth, -⟩ := ordered
  cases part with
  | symtab | strtab => contradiction
  | fileHeader => exact first _ (by decide)
  | sectionHeaders => exact second _ (by decide)
  | text => exact third _ (by decide)
  | data => exact fourth _ (by decide)
  | readOnlyData => exact fifth _ (by decide)
  | debug => exact sixth _ (by decide)
  | textRelocs => exact seventh _ (by decide)
  | dataRelocs => exact eighth _ (by decide)
  | readOnlyDataRelocs => exact ninth _ (by decide)
  | debugRelocs => exact tenth _ (by decide)

/-! ## The symbol table -/

theorem length_coffNameOffsets (size : Nat) (names : List (List UInt8)) :
    (coffNameOffsets size names).length = names.length := by
  induction names generalizing size with
  | nil => rfl
  | cons name names inductionHypothesis =>
      rw [coffNameOffsets]
      split <;> rw [List.length_cons, List.length_cons, inductionHypothesis]

/-- A long name has the offset at which it is added to the string table. -/
theorem coffNameOffsets_getElem? {size index : Nat} {names : List (List UInt8)}
    {name : List UInt8} (isName : names[index]? = some name) :
    (coffNameOffsets size names)[index]? = some (if 8 < name.length then
      UInt32.ofNat (size + (strings (coffLongNames (names.take index))).length) else 0) := by
  induction names generalizing size index with
  | nil => contradiction
  | cons head names inductionHypothesis =>
      cases index with
      | zero =>
          rw [List.getElem?_cons_zero, Option.some.injEq] at isName
          subst isName
          rw [coffNameOffsets]
          split <;> rfl
      | succ index =>
          rw [List.getElem?_cons_succ] at isName
          rw [coffNameOffsets, List.take_succ_cons, coffLongNames]
          split
          · next long =>
              have rest : (strings (head :: coffLongNames (names.take index))).length =
                  head.length + 1 + (strings (coffLongNames (names.take index))).length := by
                rw [length_strings, length_strings, List.map_cons, List.sum_cons]
              rw [List.getElem?_cons_succ, inductionHypothesis isName,
                List.filter_cons_of_pos (by exact decide_eq_true long)]
              rw [coffLongNames] at rest
              rw [coffLongNames, rest, Nat.add_assoc, Nat.add_assoc, Nat.add_assoc]
          · next short =>
              rw [List.getElem?_cons_succ, inductionHypothesis isName,
                List.filter_cons_of_neg (by simpa using short)]
              rfl

/-- The record of a name: the offset it is given. -/
def nameOffset (contents : CoffContents) (index : Nat) (name : List UInt8) : UInt32 :=
  if 8 < name.length then
    UInt32.ofNat (4 + (strings (coffLongNames (contents.names.take index))).length)
  else 0

/-- The symbol table, record by record. -/
theorem symtab_first : contents.symtab[0]? =
    some ⟨coffFileName contents.input, contents.nameOffset 0 (coffFileName contents.input), 0, -2,
      3⟩ := by
  have offset := @coffNameOffsets_getElem? 4 0 contents.names _ rfl
  rw [symtab, List.append_assoc, List.singleton_append, List.getElem?_cons_zero,
    List.headD_eq_head?_getD, List.head?_eq_getElem?, offset]
  rfl

theorem length_zipped : (contents.symbols.data.zipWith contents.symbol
    (coffNameOffsets 4 contents.names).tail).length = contents.symbols.data.length := by
  rw [List.length_zipWith, List.length_tail, length_coffNameOffsets, names, List.length_cons,
    symbolNames, List.length_map, Nat.add_sub_cancel, Nat.min_self]

theorem symtab_symbol {place : Nat} {symbol : OutputSymbol}
    (isSymbol : contents.symbols.data[place]? = some symbol) :
    contents.symtab[place + 1]? =
      some (contents.symbol symbol (contents.nameOffset (place + 1) symbol.name)) := by
  have isName : contents.names[place + 1]? = some symbol.name := by
    rw [names, List.getElem?_cons_succ, symbolNames, List.getElem?_map, isSymbol]
    rfl
  have inRange := (List.getElem?_eq_some_iff.mp isSymbol).1
  rw [symtab, List.append_assoc, List.singleton_append, List.getElem?_cons_succ,
    List.getElem?_append_left (by rw [length_zipped]; exact inRange), List.getElem?_zipWith,
    isSymbol, List.getElem?_tail, coffNameOffsets_getElem? isName]
  rfl

theorem symtab_debug (debug : contents.input.hasDebug = true) :
    contents.symtab[contents.symbols.data.length + 1]? = some ⟨utf8 ".text", 0, 0, 1, 3⟩ := by
  rw [symtab, List.append_assoc, List.singleton_append, List.getElem?_cons_succ,
    List.getElem?_append_right (by rw [length_zipped]), length_zipped, Nat.sub_self, if_pos debug]
  rfl

theorem length_symtab : contents.symtab.length =
    1 + contents.symbols.data.length + (if contents.input.hasDebug then 1 else 0) := by
  rw [symtab, List.length_append, List.length_append, length_zipped]
  split <;> rfl

/-- A record is that of the source, of a symbol, or of `.text`. -/
theorem symtab_cases {index : Nat} {sym : CoffSym} (isSym : contents.symtab[index]? = some sym) :
    (index = 0 ∧ sym = ⟨coffFileName contents.input,
      contents.nameOffset 0 (coffFileName contents.input), 0, -2, 3⟩) ∨
    (∃ place symbol, index = place + 1 ∧ contents.symbols.data[place]? = some symbol ∧
      sym = contents.symbol symbol (contents.nameOffset (place + 1) symbol.name)) ∨
    (index = contents.symbols.data.length + 1 ∧ contents.input.hasDebug = true ∧
      sym = ⟨utf8 ".text", 0, 0, 1, 3⟩) := by
  have inRange := (List.getElem?_eq_some_iff.mp isSym).1
  rw [length_symtab] at inRange
  cases index with
  | zero => exact .inl ⟨rfl, Option.some.inj (isSym.symm.trans symtab_first)⟩
  | succ place =>
      right
      by_cases inSymbols : place < contents.symbols.data.length
      · have isSymbol := List.getElem?_eq_getElem inSymbols
        exact .inl ⟨place, _, rfl, isSymbol,
          Option.some.inj (isSym.symm.trans (symtab_symbol isSymbol))⟩
      · have debug : contents.input.hasDebug = true := by
          by_contra noDebug
          rw [if_neg noDebug] at inRange
          omega
        rw [if_pos debug] at inRange
        obtain rfl : place = contents.symbols.data.length := by omega
        exact .inr ⟨rfl, debug, Option.some.inj (isSym.symm.trans (symtab_debug debug))⟩

/-- The relocated fields of the line table lie in it. -/
theorem codeview_fields (built : CoffBuilt input contents) :
    contents.debugLine.sectionOffsetRelocation ≤ contents.debugLine.data.length ∧
      contents.debugLine.sectionIndexRelocation ≤ contents.debugLine.data.length := by
  have isLines := built.debugLine
  unfold coffDebugLine at isLines
  split at isLines
  · unfold outputBuildCodeviewLine at isLines
    split at isLines
    · contradiction
    · split at isLines
      · contradiction
      · split at isLines
        · contradiction
        · dsimp only at isLines
          split at isLines
          · contradiction
          · rw [← Except.ok.inj isLines]
            simp only [codeviewSubsection, debugBufferAlign4, List.length_append,
              LittleEndian.length_bytes]
            omega
  · rw [← Except.ok.inj isLines]
    exact ⟨Nat.le_refl _, Nat.le_refl _⟩

/-! ## Exact fields -/

/-- A cast to 32 bits keeps exactly the numbers below 2^32. -/
theorem toNat_cast_iff {number : Nat} : (UInt32.ofNat number).toNat = number ↔ number < 2 ^ 32 := by
  rw [UInt32.toNat_ofNat', Nat.mod_eq_iff_lt (by decide)]

/-- The parts before the symbol table lie below 2^32. -/
theorem part_small (built : CoffBuilt input contents) (fits : CoffFits input) {part : CoffPart}
    (notSymtab : part ≠ .symtab) (notStrtab : part ≠ .strtab) :
    contents.position part + (contents.part part).length < 2 ^ 32 := by
  have before := @part_before_symtab contents part notSymtab notStrtab
  have symtab := position_symtab built
  have file := fits.file
  omega

theorem count_small (built : CoffBuilt input contents) (section_ : RelocationSection) :
    (UInt32.ofNat (countRelocationsInSection input.relocations section_)).toNat =
      countRelocationsInSection input.relocations section_ ∧
    (UInt32.ofNat (countRelocationsInSection input.relocations section_)).toNat < 2 ^ 16 := by
  have few := built.relocationCounts section_
  rw [uint16Max] at few
  have same := toNat_cast_iff.mpr (show countRelocationsInSection input.relocations section_ < 2 ^ 32
    by omega)
  rw [same]
  exact ⟨rfl, by omega⟩

/-- A pointer to relocations, where there are some. -/
theorem pointer_exact {count position : Nat} (small : position < 2 ^ 32) :
    (if 0 < count then UInt32.ofNat position else 0).toNat = if count = 0 then 0 else position := by
  split
  · next some_ => rw [toNat_cast_iff.mpr small, if_neg (Nat.ne_of_gt some_)]
  · next none => rw [if_pos (Nat.eq_zero_of_not_pos none)]; rfl

theorem header_exact (built : CoffBuilt input contents) (fits : CoffFits input)
    {section_ : CoffSection} (present : input.hasCoffSection section_ = true) :
    contents.HeaderExact section_ := by
  have small := fun part notSymtab notStrtab =>
    @part_small input contents built fits part notSymtab notStrtab
  have counts := count_small built
  have pointers := layout_eq built
  obtain rfl := built.isInput
  cases section_ with
  | text =>
      have raw := small .text (by decide) (by decide)
      have relocs := small .textRelocs (by decide) (by decide)
      have size : (contents.part .text).length = contents.input.textBytes.length := rfl
      refine ⟨toNat_cast_iff.mpr (by omega), ?_, ?_, (counts .text).1, (counts .text).2⟩
      · rw [header, pointers]
        exact toNat_cast_iff.mpr (by omega)
      · rw [header, pointers]
        exact pointer_exact (by omega)
  | data =>
      have raw := small .data (by decide) (by decide)
      have relocs := small .dataRelocs (by decide) (by decide)
      have size : (contents.part .data).length = contents.input.dataBytes.length := rfl
      refine ⟨toNat_cast_iff.mpr (by omega), ?_, ?_, (counts .data).1, (counts .data).2⟩
      · rw [header, pointers]
        dsimp only
        rw [if_pos (by exact present)]
        exact toNat_cast_iff.mpr (by omega)
      · rw [header, pointers]
        exact pointer_exact (by omega)
  | readOnlyData =>
      have raw := small .readOnlyData (by decide) (by decide)
      have relocs := small .readOnlyDataRelocs (by decide) (by decide)
      have size : (contents.part .readOnlyData).length =
          contents.input.readOnlyDataBytes.length := rfl
      refine ⟨toNat_cast_iff.mpr (by omega), ?_, ?_, (counts .readOnlyData).1,
        (counts .readOnlyData).2⟩
      · rw [header, pointers]
        dsimp only
        rw [if_pos (by exact present)]
        exact toNat_cast_iff.mpr (by omega)
      · rw [header, pointers]
        exact pointer_exact (by omega)
  | bss => exact ⟨toNat_cast_iff.mpr fits.bss, rfl, rfl, rfl, show 0 < 2 ^ 16 by decide⟩
  | debug =>
      have raw := small .debug (by decide) (by decide)
      have relocs := small .debugRelocs (by decide) (by decide)
      rw [length_debug built] at raw
      refine ⟨toNat_cast_iff.mpr (by omega), ?_, ?_, rfl, show 2 < 2 ^ 16 by decide⟩
      · rw [header, pointers]
        dsimp only
        rw [if_pos (by exact present)]
        exact toNat_cast_iff.mpr (by omega)
      · rw [header, pointers]
        dsimp only
        rw [if_pos (by exact present)]
        exact toNat_cast_iff.mpr (by omega)

theorem sectionCount_small (input : OutputInput) : coffSectionCount input ≤ 5 := by
  unfold coffSectionCount
  repeat' split
  all_goals decide

/-- Once a number of the string table fits, so does the offset of each name in it. -/
theorem nameOffset_exact (built : CoffBuilt input contents) {index : Nat} {name : List UInt8}
    (long : 8 < name.length) : (contents.nameOffset index name).toNat =
      4 + (strings (coffLongNames (contents.names.take index))).length := by
  have fits := built.namesFit
  have within : (strings (coffLongNames (contents.names.take index))).length ≤
      (strings (coffLongNames contents.names)).length :=
    (List.Sublist.flatMap ((List.take_sublist index _).filter _) _).length_le
  rw [uint32Max] at fits
  rw [nameOffset, if_pos long]
  exact toNat_cast_iff.mpr (by omega)

theorem strtabSize_exact (built : CoffBuilt input contents) :
    word (coffStrtab contents.names) 0 4 = (coffStrtab contents.names).length := by
  have fits := built.namesFit
  rw [uint32Max] at fits
  have size := (@toNat_cast_iff (4 + (strings (coffLongNames contents.names)).length)).mpr (by omega)
  rw [coffStrtab, size, word, FieldEdits.slice, List.drop_zero, List.take_left' (by simp [w32]),
    List.length_append, w32, LittleEndian.value_bytes_of_lt (by omega), LittleEndian.length_bytes]

end CoffContents

/-! ## Files of sources -/

section Sources

variable {src : SourceBuffer} {contents : CoffContents}

/-- The sections of a source whose object fits are small. -/
theorem section_small (fits : CoffFits (sourceOutput src)) (section_ : SymbolSection) :
    (sourcePass2 src).sizes.get section_ < 2 ^ 32 := by
  have file := fits.file
  rw [coffSizeBeforeSymbols] at file
  cases section_ with
  | bss => exact fits.bss
  | text =>
      change (sourceOutput src).textBytes.length < _
      omega
  | data =>
      change (sourceOutput src).dataBytes.length < _
      omega
  | readOnlyData =>
      change (sourceOutput src).readOnlyDataBytes.length < _
      omega

/-- A cast of a signed number to 32 bits. -/
theorem toNat_ofInt32 (number : Int) : ((UInt32.ofInt number).toNat : Int) = number % 2 ^ 32 := by
  rw [UInt32.ofInt, UInt32.toNat_ofNat']
  omega

theorem value_exact (accepted : Accepted src) (built : CoffBuilt (sourceOutput src) contents)
    (fits : CoffFits (sourceOutput src)) {symbol : OutputSymbol}
    (member : symbol ∈ contents.symbols.data) :
    ((UInt32.ofInt symbol.offset).toNat : Int) = symbol.offset := by
  rw [built.symbols] at member
  rcases symbol_offset accepted member with ⟨section_, offset, -, isOffset, inside⟩ | ⟨-, zero⟩
  · have small := section_small fits section_
    rw [isOffset, toNat_ofInt32]
    omega
  · rw [zero]
    rfl

theorem relocs_exact (accepted : Accepted src) (built : CoffBuilt (sourceOutput src) contents)
    (fits : CoffFits (sourceOutput src)) (section_ : RelocationSection) :
    List.Forall₂ contents.RelocExact (relocationsIn contents.input.relocations section_)
      (contents.relocsOf section_) := by
  have placed : ∀ relocation ∈ relocationsIn (sourceOutput src).relocations section_,
      relocation.offset < 2 ^ 32 := by
    intro relocation member
    have inside := (relocationPlaced accepted (mem_relocationsIn.mp member).1).inside
    have small := section_small fits relocation.section_.symbolSection
    have here : ((sourcePass2 src).bytesIn relocation.section_.symbolSection).length =
        (sourcePass2 src).sizes.get relocation.section_.symbolSection := by
      cases relocation.section_ <;> rfl
    omega
  have count := built.symbolCount
  rw [uint32Max] at count
  rw [built.isInput]
  refine ((List.forall₂_and_left _ _).mpr ⟨placed, forall₂_of_mapM (built.relocs section_)⟩).imp ?_
  rintro relocation reloc ⟨small, isReloc⟩
  obtain ⟨index, found, rfl⟩ := Option.map_eq_some_iff.mp isReloc
  obtain ⟨place, symbol, rfl, isSymbol, -⟩ := outputSymbolsFindIndex_eq_some found
  have inRange := (List.getElem?_eq_some_iff.mp isSymbol).1
  have same : (UInt32.ofNat (place + 1)).toNat = place + 1 :=
    CoffContents.toNat_cast_iff.mpr (by omega)
  exact ⟨CoffContents.toNat_cast_iff.mpr small, by rw [same]; exact found⟩

theorem debugRelocs_exact (built : CoffBuilt (sourceOutput src) contents)
    (fits : CoffFits (sourceOutput src)) :
    contents.debugRelocs.map (fun reloc => (reloc.offset.toNat, reloc.symbolIndex.toNat)) =
      if contents.input.hasDebug then
        [(contents.debugLine.sectionOffsetRelocation, contents.symtab.length - 1),
          (contents.debugLine.sectionIndexRelocation, contents.symtab.length - 1)]
      else [] := by
  have fields := CoffContents.codeview_fields built
  have small := @CoffContents.part_small _ _ built fits .debug (by decide) (by decide)
  have count := built.symbolCount
  rw [CoffContents.length_debug built] at small
  rw [uint32Max] at count
  have last : contents.symtab.length - 1 =
      contents.symbols.data.length + (if contents.input.hasDebug then 1 else 0) := by
    rw [CoffContents.length_symtab]
    omega
  rw [CoffContents.debugRelocs, last]
  split
  · have index : (UInt32.ofNat (1 + contents.symbols.data.length)).toNat =
        1 + contents.symbols.data.length := CoffContents.toNat_cast_iff.mpr (by omega)
    simp only [List.map_cons, List.map_nil, index]
    rw [CoffContents.toNat_cast_iff.mpr (by omega), CoffContents.toNat_cast_iff.mpr (by omega),
      Nat.add_comm 1]
  · rfl

/-- Every field of an object holds what it stands for where the object fits. -/
theorem nothingTruncated_of_fits (accepted : Accepted src)
    (built : CoffBuilt (sourceOutput src) contents) (fits : CoffFits (sourceOutput src)) :
    contents.NothingTruncated := by
  have pointers := CoffContents.layout_eq built
  have few := CoffContents.sectionCount_small contents.input
  have count := built.symbolCount
  have symtab := CoffContents.position_symtab built
  have file := fits.file
  rw [uint32Max] at count
  refine ⟨fun section_ present => CoffContents.header_exact built fits (built.isInput ▸ present),
    ⟨CoffContents.length_sections.symm, by omega⟩, ?_, ?_, relocs_exact accepted built fits,
    debugRelocs_exact built fits, fun place symbol isSymbol => ?_, fun index sym isSym long => ?_,
    CoffContents.strtabSize_exact built⟩
  · rw [pointers]
    exact CoffContents.toNat_cast_iff.mpr (by omega)
  · rw [CoffContents.totalSymbols, CoffContents.length_symtab]
    rw [← built.isInput] at count
    exact CoffContents.toNat_cast_iff.mpr (by omega)
  · exact ⟨_, CoffContents.symtab_symbol isSymbol, rfl,
      value_exact accepted built fits (List.mem_of_getElem? isSymbol)⟩
  · rcases CoffContents.symtab_cases isSym with ⟨rfl, rfl⟩ | ⟨place, symbol, rfl, -, rfl⟩ |
      ⟨-, -, rfl⟩
    · exact CoffContents.nameOffset_exact built long
    · exact CoffContents.nameOffset_exact built long
    · exact absurd long (by decide)

/-- Every field of an object of an accepted source holds what it stands for exactly
when the object fits. -/
theorem coff_exact_iff (src : SourceBuffer) (accepted : Accepted src) (contents : CoffContents)
    (written : coffContents (sourceOutput src) = .ok contents) :
    contents.NothingTruncated ↔ CoffFits (sourceOutput src) := by
  have built := coffBuilt_of_contents written
  refine ⟨fun exact_ => ⟨?_, ?_⟩, nothingTruncated_of_fits accepted built⟩
  · by_cases hasBss : (sourceOutput src).hasBss = true
    · have size := (exact_.headers .bss (built.isInput ▸ hasBss)).rawSize
      rw [← built.isInput]
      exact CoffContents.toNat_cast_iff.mp size
    · have none : ¬ 0 < (sourceOutput src).bssSize := fun some_ => hasBss (decide_eq_true some_)
      omega
  · have pointer := exact_.symtabPtr
    rw [CoffContents.layout_eq built] at pointer
    rw [← CoffContents.position_symtab built]
    exact CoffContents.toNat_cast_iff.mp pointer

/-- A marked call of an external symbol, its address in `.بيانات`, and names of more
than eight bytes. -/
def markedCallCoff : SourceBuffer :=
  ⟨utf8 (".خارجي خ\n.ملف ١، \"م\"\n.موضع ١، ٣، ٢\nبداية_البرنامج: ناد خ\n" ++
    ".بيانات\n.محاذاة ١٦\n.عدد٦٤ خ\n"), some (utf8 "برنامج")⟩

theorem coff_exact_iff_markedCall : ∃ contents,
    coffContents (sourceOutput markedCallCoff) = .ok contents ∧
      (contents.NothingTruncated ↔ CoffFits (sourceOutput markedCallCoff)) := by
  have run : (coffContents (sourceOutput markedCallCoff)).toOption.isSome = true := by
    decide +kernel
  cases written : coffContents (sourceOutput markedCallCoff) with
  | error message =>
      rw [written] at run
      contradiction
  | ok contents =>
      exact ⟨contents, rfl, coff_exact_iff markedCallCoff (by decide +kernel) contents written⟩

/-- Three reservations of the largest size. -/
def hugeBss : SourceBuffer :=
  ⟨utf8 (".غير_مهيأة\n.مساحة_صفرية 2147483647\n.مساحة_صفرية 2147483647\n" ++
    ".مساحة_صفرية 2147483647\n"), none⟩

theorem bss_size_truncated : Accepted hugeBss ∧ ∃ contents,
    coffContents (sourceOutput hugeBss) = .ok contents ∧ contents.rawSize .bss = 6442450941 ∧
      (contents.header .bss).rawSize = 2147483645 ∧ ¬ contents.NothingTruncated := by
  refine ⟨by decide +kernel, ?_⟩
  have run : (coffContents (sourceOutput hugeBss)).toOption.any (fun contents =>
      decide (contents.rawSize .bss = 6442450941) && decide ((contents.header .bss).rawSize =
        2147483645) && contents.input.hasCoffSection .bss) = true := by
    decide +kernel
  cases written : coffContents (sourceOutput hugeBss) with
  | error message =>
      rw [written] at run
      contradiction
  | ok contents =>
      rw [written] at run
      simp only [Except.toOption, Option.any_some, Bool.and_eq_true, decide_eq_true_eq] at run
      obtain ⟨⟨size, written⟩, present⟩ := run
      refine ⟨contents, rfl, size, written, fun exact_ => ?_⟩
      have same := (exact_.headers .bss present).rawSize
      rw [written, size] at same
      exact absurd same (by decide)

end Sources

end Nazm.Output
