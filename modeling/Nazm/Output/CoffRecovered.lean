import Nazm.Output.CoffReadBack

/-!
What a reader recovers from the COFF object of a source.

Owns what it means that a read object holds what the writer was given, and that
it does for every accepted source whose object fits.

Does not own the reader, nor the layout of the file.
-/

namespace Nazm.Output

open ByteFile
open Nazm.Encoder Nazm.Lexer Nazm.Symtable Nazm.Unicode Nazm.Passes

/-! ## Recovered objects -/

def coffSectionBytes (input : OutputInput) (lines : CodeViewLineSection) :
    CoffSection → List UInt8
  | .text => input.textBytes
  | .data => input.dataBytes
  | .readOnlyData => input.readOnlyDataBytes
  | .bss => []
  | .debug => lines.data

def coffSectionSize (input : OutputInput) (lines : CodeViewLineSection) (section_ : CoffSection) :
    Nat :=
  if section_ = .bss then input.bssSize else (coffSectionBytes input lines section_).length

/-- The alignment of a section: 16 for code, the requested one for data. -/
def coffSectionAlignment (input : OutputInput) : CoffSection → Nat
  | .text => 16
  | .data => max 1 input.dataAlignment
  | .readOnlyData => max 1 input.readOnlyDataAlignment
  | .bss => max 1 input.bssAlignment
  | .debug => 1

/-- A read relocation says what the given one says, and its index leads to the symbol. -/
structure CoffRelocStands (object : Coff.Object) (relocation : Relocation) (reloc : Coff.Reloc) :
    Prop where
  offset : reloc.offset = relocation.offset
  type : reloc.type = coffRelocationType relocation.kind
  symbol : (object.symbol? reloc.symbol).map (·.name) = some relocation.symbol

/-- The symbol of `.text` after all others. -/
structure CoffTextSymbol (object : Coff.Object) (index : Nat) : Prop where
  last : index + 1 = object.symbols.length
  symbol : object.symbol? index = some ⟨utf8 ".text", 0, 1, 0, 3, 0⟩

/-- The relocations of a section, in their order. -/
def CoffRelocsStand (input : OutputInput) (lines : CodeViewLineSection) (object : Coff.Object)
    (relocs : List Coff.Reloc) : CoffSection → Prop
  | .text => List.Forall₂ (CoffRelocStands object) (relocationsIn input.relocations .text) relocs
  | .data => List.Forall₂ (CoffRelocStands object) (relocationsIn input.relocations .data) relocs
  | .readOnlyData =>
      List.Forall₂ (CoffRelocStands object) (relocationsIn input.relocations .readOnlyData) relocs
  | .bss => relocs = []
  | .debug => ∃ index, CoffTextSymbol object index ∧
      relocs = [⟨lines.sectionOffsetRelocation, index, 0x000B⟩,
        ⟨lines.sectionIndexRelocation, index, 0x000A⟩]

/-- A read section holds what the writer was given for it. -/
structure CoffSectionStands (input : OutputInput) (lines : CodeViewLineSection)
    (object : Coff.Object) (kind : CoffSection) (section_ : Coff.Section) : Prop where
  name : section_.name = kind.name
  uninitialised : section_.header.uninitialised = decide (kind = .bss)
  size : section_.header.size = coffSectionSize input lines kind
  bytes : section_.bytes = coffSectionBytes input lines kind
  alignment : section_.header.alignment = coffSectionAlignment input kind
  relocations : CoffRelocsStand input lines object section_.relocations kind

/-- The name, value, section number and storage class of each symbol. -/
def coffSymbols (input : OutputInput) : List (List UInt8 × Int × Int × Nat) :=
  [(coffFileName input, 0, -2, 3)] ++
    (objectSymbolList input.symtable).map (fun symbol =>
      (symbol.name, symbol.offset, (coffSectionNumber (coffNumbers input) symbol.section_ : Int),
        if symbol.binding = .global then 2 else 3)) ++
    (if input.hasDebug then [(utf8 ".text", 0, 1, 3)] else [])

/-- A read object holds what the writer was given, and its parts do not overlap. -/
structure CoffRecovered (input : OutputInput) (file : List UInt8) (object : Coff.Object) :
    Prop where
  sections : ∃ lines, coffDebugLine input = .ok lines ∧
    List.Forall₂ (CoffSectionStands input lines object)
      (CoffSection.all.filter input.hasCoffSection) object.sections
  symbols : object.symbols.map (fun symbol? => symbol?.map fun symbol =>
      (symbol.name, (symbol.value : Int), symbol.section_, symbol.storage)) =
    (coffSymbols input).map some
  strtabLength : object.strtabLength = 4 + (strings (coffLongNames
    (coffFileName input :: (objectSymbolList input.symtable).map OutputSymbol.name))).length
  inside : ∀ range ∈ object.ranges, range.1 + range.2 ≤ file.length
  apart : object.ranges.Pairwise fun first second => first.1 + first.2 ≤ second.1

/-! ## Contents of a source -/

section Sources

variable {src : SourceBuffer} {contents : CoffContents}

/-- The name of the source is a string of C that is not empty, where there is one. -/
def NamedSource (src : SourceBuffer) : Prop := ∀ name ∈ src.name, name ≠ [] ∧ 0 ∉ name

instance (src : SourceBuffer) : Decidable (NamedSource src) := by
  unfold NamedSource
  infer_instance

theorem coffFileName_of_source (named : NamedSource src) :
    coffFileName (sourceOutput src) ≠ [] ∧ 0 ∉ coffFileName (sourceOutput src) := by
  have isName : coffFileName (sourceOutput src) = src.name.getD (utf8 "unknown") := rfl
  rw [isName]
  cases isSome : src.name with
  | none => decide +kernel
  | some name => exact named name isSome

theorem coffWellFormed_of_source (accepted : Accepted src) (named : NamedSource src)
    (built : CoffBuilt (sourceOutput src) contents) (fits : CoffFits (sourceOutput src)) :
    contents.WellFormed (sourceOutput src) := by
  refine ⟨built, nothingTruncated_of_fits accepted built fits, fun sym member => ?_⟩
  obtain ⟨index, inRange, isElement⟩ := List.getElem_of_mem member
  rcases CoffContents.symtab_cases (List.getElem?_eq_some_iff.mpr ⟨inRange, isElement⟩) with
    ⟨-, rfl⟩ | ⟨place, symbol, -, isSymbol, rfl⟩ | ⟨-, -, rfl⟩
  · rw [built.isInput]
    exact coffFileName_of_source named
  · have inList := List.mem_of_getElem? isSymbol
    rw [built.symbols] at inList
    have isName := symbol_isName accepted inList
    exact ⟨isName.nonempty, isName.clean⟩
  · exact ⟨by decide +kernel, by decide +kernel⟩

/-- Where relocations were written there is a section for them. -/
theorem coff_filled (accepted : Accepted src) (built : CoffBuilt (sourceOutput src) contents)
    (section_ : CoffSection) (some_ : contents.sectionRelocs section_ ≠ []) :
    contents.input.hasCoffSection section_ = true := by
  rw [built.isInput]
  have filled : ∀ section_, contents.relocsOf section_ ≠ [] →
      0 < ((sourcePass2 src).bytesIn section_.symbolSection).length := by
    intro section_ nonempty
    obtain ⟨reloc, member⟩ := List.exists_mem_of_ne_nil _ nonempty
    obtain ⟨relocation, inSection, -⟩ :=
      exists_of_forall₂ (relocs_of_built built section_).flip member
    obtain ⟨inList, rfl⟩ := mem_relocationsIn.mp inSection
    have inside := (relocationPlaced accepted inList).inside
    have width : 0 < relocation.kind.width := by cases relocation.kind <;> decide
    omega
  cases section_ with
  | text => rfl
  | data => exact decide_eq_true (filled .data some_)
  | readOnlyData => exact decide_eq_true (filled .readOnlyData some_)
  | bss => contradiction
  | debug =>
      by_contra noDebug
      rw [CoffContents.sectionRelocs, CoffContents.debugRelocs, built.isInput,
        if_neg (by exact noDebug)] at some_
      contradiction

/-- The exponent of a small power of two is its logarithm. -/
theorem two_pow_coffAlignmentExponent {requested : Nat} (isAlignment : IsAlignment requested) :
    2 ^ coffAlignmentExponent requested 14 0 = max 1 requested := by
  rcases isAlignment with rfl | ⟨log, small, rfl⟩
  · rfl
  · have checked : ∀ log ≤ 12, 2 ^ coffAlignmentExponent (2 ^ log) 14 0 = max 1 (2 ^ log) := by
      decide +kernel
    exact checked log small

theorem coff_alignment (accepted : Accepted src) (built : CoffBuilt (sourceOutput src) contents)
    (section_ : CoffSection) : 2 ^ contents.alignmentExponent section_ =
      coffSectionAlignment (sourceOutput src) section_ := by
  have each := fun section_ => two_pow_coffAlignmentExponent (isAlignment_of_source accepted section_)
  cases section_ with
  | text => rfl
  | data =>
      rw [CoffContents.alignmentExponent, built.isInput]
      exact each .data
  | readOnlyData =>
      rw [CoffContents.alignmentExponent, built.isInput]
      exact each .readOnlyData
  | bss =>
      rw [CoffContents.alignmentExponent, built.isInput]
      exact each .bss
  | debug => rfl

/-- The index in a relocation leads to its symbol. -/
theorem coffRelocs_stand (accepted : Accepted src) (built : CoffBuilt (sourceOutput src) contents)
    (fits : CoffFits (sourceOutput src)) (section_ : RelocationSection) :
    List.Forall₂ (CoffRelocStands contents.object)
      (relocationsIn (sourceOutput src).relocations section_)
      ((contents.relocsOf section_).map CoffContents.relocBack) := by
  have exact_ := relocs_exact accepted built fits section_
  rw [built.isInput] at exact_
  have types := relocs_of_built built section_
  rw [List.forall₂_map_right_iff]
  refine List.forall₂_iff_get.mpr ⟨types.length_eq, fun index first second => ?_⟩
  have offset := exact_.get first second
  obtain ⟨_, _, -, -, type⟩ := types.get first second
  obtain ⟨place, symbol, isIndex, isSymbol, isName⟩ := outputSymbolsFindIndex_eq_some offset.symbol
  refine ⟨offset.offset, ?_, ?_⟩
  · rw [type]
    rfl
  · change (contents.object.symbol? ((contents.relocsOf section_).get _).symbolIndex.toNat).map _ = _
    rw [isIndex, CoffContents.symbol?_object (CoffContents.symtab_symbol isSymbol), ← isName]
    rfl

theorem debugRelocs_stand (built : CoffBuilt (sourceOutput src) contents)
    (fits : CoffFits (sourceOutput src)) (debug : contents.input.hasDebug = true) :
    CoffRelocsStand (sourceOutput src) contents.debugLine contents.object
      (contents.debugRelocs.map CoffContents.relocBack) .debug := by
  have exact_ := debugRelocs_exact built fits
  have length := @CoffContents.length_symtab contents
  rw [if_pos debug] at exact_ length
  refine ⟨contents.symtab.length - 1, ⟨?_, ?_⟩, ?_⟩
  · rw [CoffContents.object, List.length_map]
    omega
  · have index : contents.symtab.length - 1 = contents.symbols.data.length + 1 := by omega
    rw [index, CoffContents.symbol?_object (CoffContents.symtab_debug debug)]
    rfl
  · rw [CoffContents.debugRelocs, if_pos debug] at exact_ ⊢
    simp only [List.map_cons, List.map_nil, List.cons.injEq, Prod.mk.injEq, and_true] at exact_
    obtain ⟨⟨offset, index⟩, sectionIndex, _⟩ := exact_
    simp only [List.map_cons, List.map_nil, CoffContents.relocBack, offset, index, sectionIndex]

/-- A section that the reader finds holds what the writer was given for it. -/
theorem coffSection_stands (accepted : Accepted src)
    (wellFormed : contents.WellFormed (sourceOutput src)) (fits : CoffFits (sourceOutput src))
    {section_ : CoffSection} (present : contents.input.hasCoffSection section_ = true) :
    CoffSectionStands (sourceOutput src) contents.debugLine contents.object section_
      (contents.sectionBack section_) := by
  have built := wellFormed.built
  have characteristics := CoffContents.characteristics_of_header contents section_
  have exact_ := wellFormed.nothingTruncated.headers section_ present
  refine ⟨rfl, ?_, exact_.rawSize.trans ?_, ?_, ?_, ?_⟩
  · change decide ((contents.header section_).characteristics.toNat / 0x80 % 2 = 1) = _
    rw [characteristics.kind]
    cases section_ <;> rfl
  · rw [coffSectionSize, ← built.isInput]
    cases section_ <;> rfl
  · change contents.sectionBytes section_ = _
    rw [← built.isInput]
    cases section_ with
    | debug =>
        have debug : contents.input.hasDebug = true := present
        change (if contents.input.hasDebug then contents.debugLine.data else []) = _
        rw [debug]
        rfl
    | _ => rfl
  · rw [← coff_alignment accepted built section_]
    change 2 ^ ((contents.header section_).characteristics.toNat / 2 ^ 20 % 16 - 1) = _
    rw [characteristics.alignment, Nat.add_sub_cancel]
  · cases section_ with
    | text => exact coffRelocs_stand accepted built fits .text
    | data => exact coffRelocs_stand accepted built fits .data
    | readOnlyData => exact coffRelocs_stand accepted built fits .readOnlyData
    | bss => rfl
    | debug => exact debugRelocs_stand built fits present

/-- The records that the reader finds are the symbols that the writer was given. -/
theorem coffSymbols_back (accepted : Accepted src) (built : CoffBuilt (sourceOutput src) contents)
    (fits : CoffFits (sourceOutput src)) :
    contents.symtab.map (fun sym =>
      (sym.name, (sym.value.toNat : Int), sym.section_, sym.storage.toNat)) =
      coffSymbols (sourceOutput src) := by
  have values := fun {symbol} => @value_exact src contents accepted built fits symbol
  have each : ∀ (symbols : List OutputSymbol) (offsets : List UInt32),
      (∀ symbol ∈ symbols, symbol ∈ contents.symbols.data) → offsets.length = symbols.length →
      (symbols.zipWith contents.symbol offsets).map (fun sym =>
        (sym.name, (sym.value.toNat : Int), sym.section_, sym.storage.toNat)) =
      symbols.map fun symbol => (symbol.name, symbol.offset,
        (coffSectionNumber (coffNumbers contents.input) symbol.section_ : Int),
        if symbol.binding = .global then 2 else 3) := by
    intro symbols
    induction symbols with
    | nil => exact fun _ _ _ => rfl
    | cons symbol symbols inductionHypothesis =>
        intro offsets inList length
        cases offsets with
        | nil => contradiction
        | cons offset offsets =>
            have rest := inductionHypothesis offsets
              (fun other member => inList other (List.mem_cons_of_mem _ member))
              (Nat.succ.inj length)
            have value := values (inList symbol List.mem_cons_self)
            rw [List.zipWith_cons_cons, List.map_cons, List.map_cons, rest, CoffContents.symbol]
            dsimp only
            rw [value]
            split <;> rfl
  have middle := each contents.symbols.data (coffNameOffsets 4 contents.names).tail
    (fun _ member => member) (by
      rw [List.length_tail, CoffContents.length_coffNameOffsets, CoffContents.names,
        List.length_cons, symbolNames, List.length_map, Nat.add_sub_cancel])
  have last : (if contents.input.hasDebug then [(⟨utf8 ".text", 0, 0, 1, 3⟩ : CoffSym)]
      else []).map (fun sym =>
        (sym.name, (sym.value.toNat : Int), sym.section_, sym.storage.toNat)) =
      if contents.input.hasDebug then [(utf8 ".text", 0, 1, 3)] else [] := by
    split <;> rfl
  rw [CoffContents.symtab, List.map_append, List.map_append, middle, last, coffSymbols,
    built.symbols, built.isInput]
  rfl

/-- The object that the reader finds in the file of a source is recovered. -/
theorem coffRecovered_of_source (accepted : Accepted src)
    (wellFormed : contents.WellFormed (sourceOutput src)) (fits : CoffFits (sourceOutput src)) :
    CoffRecovered (sourceOutput src) contents.file contents.object := by
  have built := wellFormed.built
  obtain ⟨inside, apart⟩ := CoffContents.ranges_apart wellFormed (coff_filled accepted built)
  refine ⟨⟨contents.debugLine, built.debugLine, ?_⟩, ?_, ?_, inside, apart⟩
  · rw [← built.isInput]
    change List.Forall₂ _ contents.sections (contents.sections.map contents.sectionBack)
    rw [List.forall₂_map_right_iff, List.forall₂_same]
    intro section_ member
    rw [built.isInput]
    exact coffSection_stands accepted wellFormed fits (CoffContents.mem_sections.mp member)
  · rw [← coffSymbols_back accepted built fits, List.map_map]
    change (contents.symtab.map fun sym => some (CoffContents.symBack sym)).map _ = _
    rw [List.map_map]
    rfl
  · change (coffStrtab contents.names).length = _
    rw [coffStrtab, List.length_append, w32, LittleEndian.length_bytes, CoffContents.names,
      built.symbols, built.isInput]
    rfl

/-- A reader recovers what an accepted source gives to the writer from the file that
the writer returns, where sizes and positions are below 2^32. -/
theorem coff_read_back (src : SourceBuffer) (accepted : Accepted src) (named : NamedSource src)
    (file : List UInt8) (written : outputWriteCoff (sourceOutput src) = .ok file)
    (fits : CoffFits (sourceOutput src)) :
    ∃ object, Coff.readCoff file = some object ∧
      CoffRecovered (sourceOutput src) file object := by
  rw [outputWriteCoff] at written
  cases isContents : coffContents (sourceOutput src) with
  | error message =>
      rw [isContents] at written
      contradiction
  | ok contents =>
      rw [isContents] at written
      obtain rfl := Except.ok.inj written
      have wellFormed := coffWellFormed_of_source accepted named
        (coffBuilt_of_contents isContents) fits
      exact ⟨contents.object, CoffContents.readCoff_file wellFormed,
        coffRecovered_of_source accepted wellFormed fits⟩

theorem coff_read_back_markedCallCoff : ∃ file object,
    outputWriteCoff (sourceOutput markedCallCoff) = .ok file ∧ Coff.readCoff file = some object ∧
      CoffRecovered (sourceOutput markedCallCoff) file object := by
  have run : (outputWriteCoff (sourceOutput markedCallCoff)).toOption.isSome = true := by
    decide +kernel
  cases written : outputWriteCoff (sourceOutput markedCallCoff) with
  | error message =>
      rw [written] at run
      contradiction
  | ok file =>
      obtain ⟨object, isObject, recovered⟩ := coff_read_back markedCallCoff (by decide +kernel)
        (by decide +kernel) file written (by decide +kernel)
      exact ⟨file, object, rfl, isObject, recovered⟩

end Sources

end Nazm.Output
