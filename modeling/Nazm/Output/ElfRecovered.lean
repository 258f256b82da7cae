import Nazm.Output.ElfReadBack
import Nazm.Output.LineTables
import Nazm.Output.SymbolLists
import Nazm.Passes.Linked

/-!
What a reader recovers from the ELF64 object of a source.

Owns what it means that a read object holds what the writer was given, and that
it does for every accepted source.

Does not own the reader, nor the layout of the file.
-/

namespace Nazm.Output

open ByteFile FieldEdits
open Nazm.Encoder Nazm.Lexer Nazm.Symtable Nazm.Unicode Nazm.Passes

/-! ## Recovered objects -/

/-- The section of an object that relocations are for. -/
def elfSectionOf : RelocationSection → ElfSection
  | .text => .text
  | .data => .data
  | .readOnlyData => .readOnlyData

/-- A read relocation says what the given one says, and its index leads to the symbol. -/
structure RelaStands (object : Elf.Object) (relocation : Relocation) (rela : Elf.Rela) : Prop where
  offset : rela.offset = relocation.offset
  type : rela.type = elfRelocationType relocation.kind
  addend : rela.addend = relocation.addend
  symbol : object.symbols[rela.symbol]?.map (·.name) = some relocation.symbol

/-- Bytes of the file that two sections do not share. -/
def SectionsApart (first second : Elf.Section) : Prop :=
  first.header.InFile → second.header.InFile →
    first.header.offset + first.header.size ≤ second.header.offset ∨
      second.header.offset + second.header.size ≤ first.header.offset

/-- The header of the symbol table divides locals from globals and names `.strtab`. -/
structure SymtabStands (object : Elf.Object) (symtab : Elf.Section) : Prop where
  isSymtab : object.symtab? = some symtab
  name : symtab.name = utf8 ".symtab"
  divides : ∀ index symbol, object.symbols[index]? = some symbol →
    (symbol.binding = 0 ↔ index < symtab.header.info)
  info : symtab.header.info ≤ object.symbols.length
  link : object.sections[symtab.header.link]?.map (·.name) = some (utf8 ".strtab")

/-- A read object holds what the writer was given, and its headers refer to each other. -/
structure ElfRecovered (input : OutputInput) (file : List UInt8) (object : Elf.Object) : Prop where
  text : object.bytesOf (utf8 ".text") = input.textBytes
  data : object.bytesOf (utf8 ".data") = input.dataBytes
  readOnlyData : object.bytesOf (utf8 ".rodata") = input.readOnlyDataBytes
  bss : object.sizeOf (utf8 ".bss") = input.bssSize
  alignments : ∀ section_ ∈ object.sections,
    (section_.name = utf8 ".data" → input.dataAlignment ≤ section_.header.alignment) ∧
    (section_.name = utf8 ".rodata" → input.readOnlyDataAlignment ≤ section_.header.alignment) ∧
    (section_.name = utf8 ".bss" → input.bssAlignment ≤ section_.header.alignment)
  relocations : ∀ section_, List.Forall₂ (RelaStands object)
    (relocationsIn input.relocations section_) (object.relocationsOf (elfSectionOf section_).name)
  symbols : (object.symbols.filter fun symbol => decide (symbol.name ≠ [])).map
      (fun symbol => (symbol.name, (symbol.value : Int), symbol.binding)) =
    (objectSymbolList input.symtable).map fun symbol =>
      (symbol.name, symbol.offset, if symbol.binding = .global then 1 else 0)
  symtab : ∃ symtab, SymtabStands object symtab
  relas : ∀ section_ ∈ object.sections, section_.header.type = Elf.shtRela →
    section_.header.link = object.symtabIndex ∧
      (object.sections[section_.header.info]?.map fun target => utf8 ".rela" ++ target.name) =
        some section_.name
  names : word file 62 2 = object.namesIndex ∧
    object.sections[object.namesIndex]?.map (·.name) = some (utf8 ".shstrtab")
  headers : word file 60 2 = object.sections.length ∧
    word file 40 8 + object.sections.length * 64 = file.length
  inside : ∀ section_ ∈ object.sections, section_.header.InFile →
    64 ≤ section_.header.offset ∧
      section_.header.offset + section_.header.size ≤ word file 40 8
  apart : object.sections.Pairwise SectionsApart

namespace ElfContents

variable {contents : ElfContents}

/-! ## Sections by name -/

theorem name_injective {first second : ElfSection} (same : first.name = second.name) :
    first = second := by
  have checked : ∀ first ∈ ElfSection.all, ∀ second ∈ ElfSection.all,
      first.name = second.name → first = second := by decide +kernel
  exact checked first (mem_all first) second (mem_all second) same

theorem name_ne_nil (section_ : ElfSection) : section_.name ≠ [] := by
  have checked : ∀ section_ ∈ ElfSection.all, section_.name ≠ [] := by decide +kernel
  exact checked section_ (mem_all section_)

/-- The section of a name is the one that is written under it. -/
theorem section?_name (section_ : ElfSection) : contents.object.section? section_.name =
    if contents.input.hasSection section_ = true then some (contents.sectionBack section_)
    else none := by
  have search : ∀ sections : List ElfSection,
      ((sections.map contents.sectionBack).find? fun found => found.name = section_.name) =
        if section_ ∈ sections then some (contents.sectionBack section_) else none := by
    intro sections
    induction sections with
    | nil => rfl
    | cons head tail inductionHypothesis =>
        by_cases here : head = section_
        · subst here
          rw [List.map_cons, List.find?_cons_of_pos (by exact decide_eq_true rfl),
            if_pos List.mem_cons_self]
        · have other : section_ ∈ head :: tail ↔ section_ ∈ tail := by
            rw [List.mem_cons]
            exact or_iff_right fun same => here same.symm
          rw [List.map_cons, List.find?_cons_of_neg (by
            simp only [decide_eq_true_eq]
            exact fun same => here (name_injective same)), inductionHypothesis]
          simp only [other]
  rw [Elf.Object.section?, object, objectSections, List.find?_cons_of_neg (by
    simp only [decide_eq_true_eq]
    exact fun same => name_ne_nil section_ same.symm), search]
  simp only [mem_sections]

theorem bytesOf_name (section_ : ElfSection) : contents.object.bytesOf section_.name =
    if contents.input.hasSection section_ = true then contents.bytes section_ else [] := by
  rw [Elf.Object.bytesOf, section?_name]
  split <;> rfl

theorem sizeOf_bss : contents.object.sizeOf (utf8 ".bss") = contents.input.bssSize := by
  rw [show utf8 ".bss" = ElfSection.bss.name from rfl, Elf.Object.sizeOf, section?_name]
  split
  · rfl
  · next absent =>
      have zero : contents.input.bssSize = 0 := by
        by_contra positive
        exact absent (decide_eq_true (Nat.pos_of_ne_zero positive))
      rw [zero]
      rfl

theorem dataSectionAlignment_ge (requested : Nat) : requested ≤ dataSectionAlignment requested := by
  unfold dataSectionAlignment
  split <;> omega

/-! ## Relocations -/

/-- The section that a RELA section is for. -/
def relaTarget : ElfSection → ElfSection
  | .relaData => .data
  | .relaReadOnlyData => .readOnlyData
  | .relaDebugLine => .debugLine
  | _ => .text

/-- The RELA section of a section. -/
def relaSection : RelocationSection → ElfSection
  | .text => .relaText
  | .data => .relaData
  | .readOnlyData => .relaReadOnlyData

theorem relaTableBack_target {section_ : ElfSection} (rela : isRela section_ = true) :
    (contents.relaTableBack section_).target = contents.numberOf (relaTarget section_) := by
  cases section_ with
  | relaText | relaData | relaReadOnlyData | relaDebugLine => rfl
  | _ => contradiction

/-- Every RELA section is for a section of the object. -/
def TargetsPresent (contents : ElfContents) : Prop :=
  ∀ section_, contents.input.hasSection section_ = true → isRela section_ = true →
    contents.input.hasSection (relaTarget section_) = true

theorem isNumbered_relaTarget (section_ : ElfSection) : isNumbered (relaTarget section_) = true := by
  cases section_ <;> rfl

theorem target_found (targets : TargetsPresent contents) {section_ : ElfSection}
    (present : contents.input.hasSection section_ = true) (rela : isRela section_ = true) :
    contents.objectSections[(contents.relaTableBack section_).target]? =
      some (contents.sectionBack (relaTarget section_)) := by
  rw [relaTableBack_target rela]
  exact objectSections_numberOf (isNumbered_relaTarget section_) (targets section_ present rela)

/-- The relocations that the reader finds for a section. -/
theorem relocationsOf_name (targets : TargetsPresent contents) (section_ : RelocationSection) :
    contents.object.relocationsOf (elfSectionOf section_).name =
      if contents.input.hasSection (relaSection section_) = true then
        (contents.relasOf (relaSection section_)).map relaBack
      else [] := by
  have search : ∀ sections : List ElfSection,
      (∀ other ∈ sections, contents.input.hasSection other = true) → sections.Nodup →
      (((sections.filter isRela).map contents.relaTableBack).filter fun table =>
        (contents.objectSections[table.target]?.map (·.name)) =
          some (elfSectionOf section_).name).flatMap (·.entries) =
      if relaSection section_ ∈ sections then
        (contents.relasOf (relaSection section_)).map relaBack else [] := by
    intro sections present distinct
    induction sections with
    | nil => rfl
    | cons head tail inductionHypothesis =>
        obtain ⟨fresh, rest⟩ := List.nodup_cons.mp distinct
        have further := inductionHypothesis
          (fun other member => present other (List.mem_cons_of_mem _ member)) rest
        by_cases rela : isRela head = true
        · have found := target_found targets (present head List.mem_cons_self) rela
          have isTarget : (contents.objectSections[(contents.relaTableBack head).target]?.map
              (·.name)) = some (elfSectionOf section_).name ↔ head = relaSection section_ := by
            rw [found, Option.map_some, Option.some.injEq]
            constructor
            · intro same
              have target : relaTarget head = elfSectionOf section_ := name_injective same
              revert rela target
              cases head <;> cases section_ <;> simp [isRela, relaTarget, elfSectionOf, relaSection]
            · rintro rfl
              cases section_ <;> rfl
          rw [List.filter_cons_of_pos rela, List.map_cons]
          by_cases here : head = relaSection section_
          · rw [List.filter_cons_of_pos (by
              rw [decide_eq_true_eq]
              exact isTarget.mpr here), List.flatMap_cons, further, if_neg (here ▸ fresh),
              List.append_nil, if_pos (here ▸ List.mem_cons_self), ← here]
            rfl
          · have other : relaSection section_ ∈ head :: tail ↔ relaSection section_ ∈ tail := by
              rw [List.mem_cons]
              exact or_iff_right fun same => here same.symm
            rw [List.filter_cons_of_neg (by
              rw [decide_eq_true_eq]
              exact fun same => here (isTarget.mp same)), further]
            simp only [other]
        · have other : relaSection section_ ∈ head :: tail ↔ relaSection section_ ∈ tail := by
            rw [List.mem_cons]
            refine or_iff_right fun same => rela ?_
            rw [← same]
            cases section_ <;> rfl
          rw [List.filter_cons_of_neg rela, further]
          simp only [other]
  rw [Elf.Object.relocationsOf, object, search contents.sections
    (fun _ member => mem_sections.mp member) contents.sections_nodup]
  simp only [mem_sections]

/-! ## Ranges -/

/-- Two sections of an object share no bytes of the file. -/
theorem sectionBack_apart {first second : ElfSection}
    (firstPresent : contents.input.hasSection first = true)
    (secondPresent : contents.input.hasSection second = true) (different : first ≠ second) :
    SectionsApart (contents.sectionBack first) (contents.sectionBack second) := by
  -- a section that is not written is empty, at the end of what is
  have outside : ∀ {written empty : ElfSection}, written ∈ ElfSection.inFile →
      empty ∉ ElfSection.inFile → contents.input.hasSection written = true →
      (contents.sectionBack empty).header.InFile →
      (contents.sectionBack written).header.offset + (contents.sectionBack written).header.size ≤
        (contents.sectionBack empty).header.offset := by
    intro written empty isWritten notWritten present inFile
    have described := @headerDescribes contents _ isWritten
    have inside := (laid_holds isWritten present).1.inside
    rw [← described.offset, ← described.size] at inside
    rcases notInFile_cases notWritten with rfl | rfl
    · exact absurd rfl inFile.2
    · exact inside
  intro firstInFile secondInFile
  by_cases firstWritten : first ∈ ElfSection.inFile
  · by_cases secondWritten : second ∈ ElfSection.inFile
    · have firstDescribed := @headerDescribes contents _ firstWritten
      have secondDescribed := @headerDescribes contents _ secondWritten
      have apart : ElfSection.inFile.idxOf first ≠ ElfSection.inFile.idxOf second := fun same =>
        different (List.idxOf_inj firstWritten |>.mp same)
      rcases Nat.lt_or_gt_of_ne apart with less | greater
      · refine .inl ?_
        have ordered := fileOffset_ordered firstWritten secondWritten firstPresent secondPresent less
        rw [← firstDescribed.offset, ← firstDescribed.size, ← secondDescribed.offset] at ordered
        exact ordered
      · refine .inr ?_
        have ordered := fileOffset_ordered secondWritten firstWritten secondPresent firstPresent
          greater
        rw [← secondDescribed.offset, ← secondDescribed.size, ← firstDescribed.offset] at ordered
        exact ordered
    · exact .inl (outside firstWritten secondWritten firstPresent secondInFile)
  · by_cases secondWritten : second ∈ ElfSection.inFile
    · exact .inr (outside secondWritten firstWritten secondPresent firstInFile)
    · rcases notInFile_cases firstWritten with rfl | rfl
      · exact absurd rfl firstInFile.2
      · rcases notInFile_cases secondWritten with rfl | rfl
        · exact absurd rfl secondInFile.2
        · exact absurd rfl different

theorem objectSections_apart : contents.objectSections.Pairwise SectionsApart := by
  rw [objectSections, List.pairwise_cons, List.pairwise_map]
  refine ⟨fun other _ nullInFile => absurd rfl nullInFile.1, ?_⟩
  refine List.Pairwise.imp_of_mem ?_ contents.sections_nodup
  intro first second inFirst inSecond different
  exact sectionBack_apart (mem_sections.mp inFirst) (mem_sections.mp inSecond) different

end ElfContents

/-! ## Contents of a source -/

section Sources

variable {src : SourceBuffer} {contents : ElfContents}

/-- What the writer puts together for a source. -/
structure FromSource (src : SourceBuffer) (contents : ElfContents) : Prop where
  input : contents.input = sourceOutput src
  symbols : contents.symbols = ⟨objectSymbolList (sourcePass1 src).symtable,
    (collectBinding (sourcePass1 src).symtable .local).length⟩
  namesFit : namesFitStrtab 1 (symbolNames contents.symbols) = true
  debugLine : elfDebugLine contents.input = .ok contents.debugLine
  relas : ∀ section_, elfRelas contents.input contents.symbols section_ =
    some (contents.relasOf (ElfContents.relaSection section_))

theorem elfOutputSymbols_eq_ok {input : OutputInput} {symbols : OutputSymbolList}
    (ok : elfOutputSymbols input = .ok symbols) :
    symbols = ⟨objectSymbolList input.symtable, (collectBinding input.symtable .local).length⟩ ∧
      namesFitStrtab 1 (symbolNames symbols) = true := by
  unfold elfOutputSymbols at ok
  split at ok
  · contradiction
  · next collected =>
      split at ok
      · contradiction
      · next fits =>
          split at ok
          · contradiction
          · obtain rfl := Except.ok.inj ok
            exact ⟨outputSymbolsCollect_eq_some collected, by simpa using fits⟩

/-- The file that the writer returns is that of contents of the source. -/
theorem contents_of_written {file : List UInt8}
    (written : outputWriteElf64 (sourceOutput src) = .ok file) :
    ∃ contents, FromSource src contents ∧ contents.file = file := by
  unfold outputWriteElf64 at written
  split at written
  · contradiction
  · next debugLine isLines =>
      split at written
      · contradiction
      · next symbols isSymbols =>
          obtain ⟨isList, fits⟩ := elfOutputSymbols_eq_ok isSymbols
          split at written
          · next relaText relaData relaReadOnlyData text data readOnlyData =>
              refine ⟨⟨sourceOutput src, symbols, debugLine, relaText, relaData, relaReadOnlyData⟩,
                ⟨rfl, isList, fits, isLines, fun section_ => ?_⟩, Except.ok.inj written⟩
              cases section_ with
              | text => exact text
              | data => exact data
              | readOnlyData => exact readOnlyData
          · contradiction

/-- What a machine with addresses of 64 bits can count. -/
structure SizesFit (src : SourceBuffer) (file : List UInt8) : Prop where
  file : file.length < 2 ^ 64
  bss : (sourcePass2 src).bssSize < 2 ^ 64

/-- An entry of a RELA section and the relocation it was made from. -/
theorem relas_of_source (from_ : FromSource src contents) (section_ : RelocationSection) :
    List.Forall₂ (fun relocation rela => ∃ place symbol,
        contents.symbols.data[place]? = some symbol ∧ symbol.name = relocation.symbol ∧
          rela = ⟨relocation.offset, place + 1 + symbolIndexBias contents.input,
            elfRelocationType relocation.kind, relocation.addend⟩)
      (relocationsIn contents.input.relocations section_)
      (contents.relasOf (ElfContents.relaSection section_)) := by
  refine (forall₂_of_mapM (from_.relas section_)).imp fun relocation rela isRela => ?_
  obtain ⟨index, found, rfl⟩ := Option.map_eq_some_iff.mp isRela
  obtain ⟨place, symbol, rfl, isSymbol, isName⟩ := outputSymbolsFindIndex_eq_some found
  exact ⟨place, symbol, isSymbol, isName, rfl⟩

/-- A section with a relocation has bytes. -/
theorem hasSection_of_relocation (accepted : Accepted src) {relocation : Relocation}
    (member : relocation ∈ (sourcePass2 src).relocations) :
    (sourceOutput src).hasSection (elfSectionOf relocation.section_) = true := by
  have inside := (relocationPlaced accepted member).inside
  have width : 0 < relocation.kind.width := by cases relocation.kind <;> decide
  cases section_ : relocation.section_ with
  | text => rfl
  | data =>
      rw [section_] at inside
      exact decide_eq_true (show 0 < (sourcePass2 src).dataBytes.length from
        Nat.lt_of_lt_of_le (by omega) inside)
  | readOnlyData =>
      rw [section_] at inside
      exact decide_eq_true (show 0 < (sourcePass2 src).readOnlyDataBytes.length from
        Nat.lt_of_lt_of_le (by omega) inside)

theorem relas_nonempty (accepted : Accepted src) (from_ : FromSource src contents)
    {section_ : RelocationSection}
    (nonempty : contents.relasOf (ElfContents.relaSection section_) ≠ []) :
    contents.input.hasSection (elfSectionOf section_) = true := by
  have related := relas_of_source from_ section_
  cases relocations : relocationsIn contents.input.relocations section_ with
  | nil =>
      rw [relocations] at related
      cases nothing : contents.relasOf (ElfContents.relaSection section_) with
      | nil => exact absurd nothing nonempty
      | cons rela relas =>
          rw [nothing] at related
          cases related
  | cons relocation rest =>
      have member : relocation ∈ relocationsIn contents.input.relocations section_ := by
        rw [relocations]
        exact List.mem_cons_self
      obtain ⟨inList, rfl⟩ := mem_relocationsIn.mp member
      rw [from_.input] at inList ⊢
      exact hasSection_of_relocation accepted inList

theorem targetsPresent_of_source (accepted : Accepted src) (from_ : FromSource src contents) :
    contents.TargetsPresent := by
  -- a RELA section is there where there is a relocation
  have filled : ∀ section_, hasRelocationsInSection contents.input.relocations section_ = true →
      contents.input.hasSection (elfSectionOf section_) = true := by
    intro section_ some_
    obtain ⟨relocation, inList, here⟩ := List.any_eq_true.mp some_
    obtain rfl := of_decide_eq_true here
    rw [from_.input] at inList ⊢
    exact hasSection_of_relocation accepted inList
  intro section_ present rela
  cases section_ with
  | relaText => exact filled .text present
  | relaData => exact filled .data present
  | relaReadOnlyData => exact filled .readOnlyData present
  | relaDebugLine => exact present
  | _ => contradiction

/-- The contents of a section of the source fit into the file. -/
theorem length_bytes_le {section_ : ElfSection} (inFile : section_ ∈ ElfSection.inFile)
    (present : contents.input.hasSection section_ = true) :
    (contents.bytes section_).length ≤ contents.file.length := by
  have ends := ElfContents.fileOffset_end inFile present
  have total := @ElfContents.shoff_le_file contents
  omega

theorem wellFormed_of_source (accepted : Accepted src) (from_ : FromSource src contents)
    (fits : SizesFit src contents.file) : contents.WellFormed := by
  have isInput := from_.input
  have isList := from_.symbols
  have alignment : ∀ section_, (sourcePass1 src).alignments.get section_ < 2 ^ 64 := by
    intro section_
    exact Nat.lt_of_le_of_lt (isAlignment_of_source accepted section_).le (by decide)
  have member : ∀ symbol ∈ contents.symbols.data,
      symbol ∈ objectSymbolList (sourcePass1 src).symtable := by
    rw [isList]
    exact fun _ inList => inList
  have names := (namesFitStrtab_iff (by decide)).mp from_.namesFit
  -- no name is empty, so each takes at least two bytes
  have count : 2 * contents.symbols.data.length ≤ (strings (symbolNames contents.symbols)).length := by
    have each : ∀ symbols : List OutputSymbol,
        (∀ symbol ∈ symbols, symbol ∈ objectSymbolList (sourcePass1 src).symtable) →
        2 * symbols.length ≤ (strings (symbols.map OutputSymbol.name)).length := by
      intro symbols
      induction symbols with
      | nil => exact fun _ => Nat.zero_le _
      | cons symbol symbols inductionHypothesis =>
          intro inList
          have rest := inductionHypothesis fun other inRest =>
            inList other (List.mem_cons_of_mem _ inRest)
          have nonempty := List.length_pos_iff.mpr
            (symbol_isName accepted (inList symbol List.mem_cons_self)).nonempty
          rw [length_strings] at rest ⊢
          simp only [List.length_cons, List.map_cons, List.sum_cons]
          omega
    exact each _ member
  rw [uint32Max] at names
  have relas : ∀ section_, ∀ rela ∈ contents.relasOf (ElfContents.relaSection section_),
      rela.offset < 2 ^ 64 ∧
        rela.symbolIndex < contents.symbols.data.length + 1 + symbolIndexBias contents.input ∧
        rela.type < 2 ^ 32 ∧ -(2 ^ 63) ≤ rela.addend ∧ rela.addend < 2 ^ 63 := by
    intro section_ rela inTable
    have present := relas_nonempty accepted from_ (List.ne_nil_of_mem inTable)
    obtain ⟨relocation, inSection, place, symbol, isSymbol, -, rfl⟩ :=
      exists_of_forall₂ (relas_of_source from_ section_).flip inTable
    obtain ⟨inList, rfl⟩ := mem_relocationsIn.mp inSection
    rw [isInput] at inList
    have placed := relocationPlaced accepted inList
    have inRange := (List.getElem?_eq_some_iff.mp isSymbol).1
    have bytes : (contents.bytes (elfSectionOf relocation.section_)).length ≤
        contents.file.length := by
      refine length_bytes_le ?_ present
      cases relocation.section_ <;> decide
    have same : contents.bytes (elfSectionOf relocation.section_) =
        (sourcePass2 src).bytesIn relocation.section_.symbolSection := by
      cases relocation.section_ <;>
        simp only [ElfContents.bytes, elfSectionOf, isInput, sourceOutput] <;> rfl
    have inside := placed.inside
    have small := fits.file
    rw [same] at bytes
    refine ⟨by dsimp only; omega, by dsimp only; omega, ?_, ?_, ?_⟩
    · change elfRelocationType relocation.kind < 2 ^ 32
      cases relocation.kind <;> decide
    · dsimp only
      rw [placed.addend]
      cases relocation.kind <;> decide
    · dsimp only
      rw [placed.addend]
      cases relocation.kind <;> decide
  refine ⟨fits.file, ?_, ?_, ?_, ?_, ?_, by omega, ?_, ?_, ?_, ?_, ?_, ?_,
    @relas_nonempty _ _ accepted from_ .data, @relas_nonempty _ _ accepted from_ .readOnlyData⟩
  · rw [isInput]
    exact fits.bss
  · rw [isInput]
    exact alignment .data
  · rw [isInput]
    exact alignment .readOnlyData
  · rw [isInput]
    exact alignment .bss
  · rw [isList]
    simp [objectSymbolList]
  · rw [isList]
    intro symbol inLocals
    rw [objectSymbolList, List.take_left] at inLocals
    exact binding_of_collected inLocals
  · rw [isList]
    intro symbol inGlobals
    rw [objectSymbolList, List.drop_left] at inGlobals
    exact binding_of_collected inGlobals
  · exact fun symbol inList => (symbol_isName accepted (member symbol inList)).clean
  · rw [ElfContents.bytes, List.length_append, List.length_singleton]
    omega
  · intro rela inTables
    rcases List.mem_append.mp inTables with inFirst | inLast
    · rcases List.mem_append.mp inFirst with inText | inData
      · exact relas .text rela inText
      · exact relas .data rela inData
    · exact relas .readOnlyData rela inLast
  · have built := from_.debugLine
    unfold elfDebugLine at built
    split at built
    · exact dwarfLine_bounds built
    · have empty := Except.ok.inj built
      rw [← empty]
      decide

/-- The index in a RELA entry leads to the symbol of the relocation. -/
theorem relaStands_of_source (from_ : FromSource src contents) (section_ : RelocationSection) :
    List.Forall₂ (RelaStands contents.object)
      (relocationsIn contents.input.relocations section_)
      ((contents.relasOf (ElfContents.relaSection section_)).map ElfContents.relaBack) := by
  rw [List.forall₂_map_right_iff]
  refine (relas_of_source from_ section_).imp fun relocation rela => ?_
  rintro ⟨place, symbol, isSymbol, isName, rfl⟩
  refine ⟨rfl, rfl, rfl, ?_⟩
  have there : contents.objectSymbols[place + 1 + symbolIndexBias contents.input]? =
      some (contents.symbolBack symbol) := by
    have index : place + 1 + symbolIndexBias contents.input =
        contents.firstSymbols.length + place := by
      rw [ElfContents.length_firstSymbols]
      omega
    rw [ElfContents.objectSymbols, index, List.getElem?_append_right (Nat.le_add_right _ _),
      Nat.add_sub_cancel_left, List.getElem?_map, isSymbol]
    rfl
  change contents.objectSymbols[place + 1 + symbolIndexBias contents.input]?.map _ = _
  rw [there, ← isName]
  rfl

/-- Where relocations were written there is a section for them. -/
theorem relocations_of_source (accepted : Accepted src) (from_ : FromSource src contents)
    (section_ : RelocationSection) :
    List.Forall₂ (RelaStands contents.object)
      (relocationsIn contents.input.relocations section_)
      (contents.object.relocationsOf (elfSectionOf section_).name) := by
  rw [ElfContents.relocationsOf_name (targetsPresent_of_source accepted from_)]
  have isPresent : contents.input.hasSection (ElfContents.relaSection section_) =
      hasRelocationsInSection contents.input.relocations section_ := by
    cases section_ <;> rfl
  split
  · exact relaStands_of_source from_ section_
  · next absent =>
      have none : relocationsIn contents.input.relocations section_ = [] := by
        rw [relocationsIn, List.filter_eq_nil_iff]
        intro relocation member here
        rw [isPresent] at absent
        exact absent (List.any_eq_true.mpr ⟨relocation, member, here⟩)
      rw [none]
      exact .nil

/-- The symbols with a name are those of the source. -/
theorem symbols_of_source (accepted : Accepted src) (from_ : FromSource src contents)
    (fits : SizesFit src contents.file) :
    (contents.objectSymbols.filter fun symbol => decide (symbol.name ≠ [])).map
        (fun symbol => (symbol.name, (symbol.value : Int), symbol.binding)) =
      (objectSymbolList (sourcePass1 src).symtable).map fun symbol =>
        (symbol.name, symbol.offset, if symbol.binding = .global then 1 else 0) := by
  have nameless : contents.firstSymbols.filter (fun symbol => decide (symbol.name ≠ [])) = [] := by
    rw [ElfContents.firstSymbols]
    split <;> rfl
  have named : ∀ symbol ∈ contents.symbols.data.map contents.symbolBack,
      decide (symbol.name ≠ []) = true := by
    intro symbol member
    obtain ⟨source, inList, rfl⟩ := List.mem_map.mp member
    rw [from_.symbols] at inList
    exact decide_eq_true (symbol_isName accepted inList).nonempty
  rw [ElfContents.objectSymbols, List.filter_append, nameless, List.nil_append,
    List.filter_eq_self.mpr named, List.map_map, from_.symbols]
  refine List.map_congr_left fun symbol member => ?_
  simp only [Function.comp_apply, ElfContents.symbolBack, Prod.mk.injEq, true_and, and_true]
  -- a value is an offset in a section of less than 2^64 bytes
  rcases symbol_offset accepted member with ⟨section_, offset, -, isOffset, inside⟩ | ⟨-, zero⟩
  · have small : (sourcePass2 src).sizes.get section_ < 2 ^ 64 := by
      have isInput := from_.input
      have written : ∀ elfSection ∈ ElfSection.inFile,
          contents.input.hasSection elfSection = true →
          (contents.bytes elfSection).length < 2 ^ 64 := fun _ inFile present =>
        Nat.lt_of_le_of_lt (length_bytes_le inFile present) fits.file
      have text := written .text (by decide) rfl
      have data := written .data (by decide)
      have readOnlyData := written .readOnlyData (by decide)
      simp only [isInput, ElfContents.bytes, sourceOutput, OutputInput.hasSection,
        OutputInput.hasData, OutputInput.hasReadOnlyData, decide_eq_true_eq] at text data readOnlyData
      cases section_ with
      | text => exact text
      | bss => exact fits.bss
      | data =>
          change (sourcePass2 src).dataBytes.length < 2 ^ 64
          omega
      | readOnlyData =>
          change (sourcePass2 src).readOnlyDataBytes.length < 2 ^ 64
          omega
    rw [isOffset]
    omega
  · rw [zero]
    rfl

theorem symtab_of_source (accepted : Accepted src) (from_ : FromSource src contents)
    (fits : SizesFit src contents.file) :
    SymtabStands contents.object (contents.sectionBack .symtab) := by
  have wellFormed := wellFormed_of_source accepted from_ fits
  have first := ElfContents.localsFirst wellFormed
  have info : (contents.header .symtab).info ≤ contents.objectSymbols.length := by
    have count := wellFormed.localCount
    rw [ElfContents.symtab_info, ElfContents.objectSymbols, List.length_append, List.length_map]
    omega
  have strtab := @ElfContents.objectSections_numberOf contents .strtab rfl rfl
  refine ⟨@ElfContents.objectSections_numberOf contents .symtab rfl rfl, rfl,
    fun index symbol isSymbol => ⟨fun isLocal => ?_, fun before => ?_⟩, info, ?_⟩
  · by_contra after
    refine first.2 symbol (List.mem_of_getElem? (i := index - (contents.header .symtab).info) ?_)
      isLocal
    rw [List.getElem?_drop]
    have index' : (contents.header .symtab).info + (index - (contents.header .symtab).info) =
        index := Nat.add_sub_cancel' (Nat.le_of_not_lt after)
    rw [index']
    exact isSymbol
  · have before' : index < (contents.header .symtab).info := before
    refine first.1 symbol (List.mem_of_getElem? (i := index) ?_)
    rw [List.getElem?_take_of_lt before']
    exact isSymbol
  · change (contents.objectSections[contents.numberOf .strtab]?).map _ = _
    rw [strtab]
    rfl

theorem relas_linked (accepted : Accepted src) (from_ : FromSource src contents)
    {found : Elf.Section} (member : found ∈ contents.objectSections)
    (isType : found.header.type = Elf.shtRela) :
    found.header.link = contents.object.symtabIndex ∧
      (contents.objectSections[found.header.info]?.map fun target => utf8 ".rela" ++ target.name) =
        some found.name := by
  rcases ElfContents.mem_objectSections member with rfl | ⟨section_, present, rfl⟩
  · contradiction
  · have rela := (ElfContents.header_type section_).1.mp isType
    have target := ElfContents.target_found (targetsPresent_of_source accepted from_) present rela
    refine ⟨(ElfContents.header_isRela rela).1, ?_⟩
    change (contents.objectSections[(contents.relaTableBack section_).target]?).map _ = _
    rw [target, Option.map_some]
    revert rela
    cases section_ <;> first | exact fun rela => absurd rela (by decide) | exact fun _ => rfl

theorem alignments_of_source {found : Elf.Section} (member : found ∈ contents.objectSections) :
    (found.name = utf8 ".data" → contents.input.dataAlignment ≤ found.header.alignment) ∧
    (found.name = utf8 ".rodata" →
      contents.input.readOnlyDataAlignment ≤ found.header.alignment) ∧
    (found.name = utf8 ".bss" → contents.input.bssAlignment ≤ found.header.alignment) := by
  rcases ElfContents.mem_objectSections member with rfl | ⟨section_, -, rfl⟩
  · have checked : ∀ section_ : ElfSection, ElfContents.nullSection.name ≠ section_.name :=
      fun section_ same => ElfContents.name_ne_nil section_ same.symm
    exact ⟨fun same => absurd same (checked .data), fun same => absurd same (checked .readOnlyData),
      fun same => absurd same (checked .bss)⟩
  · refine ⟨fun same => ?_, fun same => ?_, fun same => ?_⟩
    · obtain rfl : section_ = .data := ElfContents.name_injective same
      exact ElfContents.dataSectionAlignment_ge _
    · obtain rfl : section_ = .readOnlyData := ElfContents.name_injective same
      exact ElfContents.dataSectionAlignment_ge _
    · obtain rfl : section_ = .bss := ElfContents.name_injective same
      exact ElfContents.dataSectionAlignment_ge _

/-- The object that the reader finds in the file of a source is recovered. -/
theorem elfRecovered_of_source (accepted : Accepted src) (from_ : FromSource src contents)
    (fits : SizesFit src contents.file) :
    ElfRecovered (sourceOutput src) contents.file contents.object := by
  have isInput := from_.input
  have wellFormed := wellFormed_of_source accepted from_ fits
  have bytes := fun section_ => @ElfContents.bytesOf_name contents section_
  have shstrtab := @ElfContents.objectSections_numberOf contents .shstrtab rfl rfl
  rw [← isInput]
  refine ⟨bytes .text, ?_, ?_, ElfContents.sizeOf_bss,
    fun _ member => alignments_of_source member, relocations_of_source accepted from_, ?_,
    ⟨_, symtab_of_source accepted from_ fits⟩, fun _ member => relas_linked accepted from_ member,
    ⟨ElfContents.word_shstrtab, ?_⟩, ?_, fun found member inFile => ?_,
    ElfContents.objectSections_apart⟩
  · refine (bytes .data).trans ?_
    split
    · rfl
    · next absent =>
        have none : ¬ 0 < contents.input.dataBytes.length := fun some_ =>
          absent (decide_eq_true some_)
        exact (List.eq_nil_of_length_eq_zero (Nat.eq_zero_of_not_pos none)).symm
  · refine (bytes .readOnlyData).trans ?_
    split
    · rfl
    · next absent =>
        have none : ¬ 0 < contents.input.readOnlyDataBytes.length := fun some_ =>
          absent (decide_eq_true some_)
        exact (List.eq_nil_of_length_eq_zero (Nat.eq_zero_of_not_pos none)).symm
  · rw [isInput]
    exact symbols_of_source accepted from_ fits
  · change (contents.objectSections[contents.numberOf .shstrtab]?).map _ = _
    rw [shstrtab]
    rfl
  · change _ = contents.objectSections.length ∧ _ + contents.objectSections.length * 64 = _
    rw [ElfContents.length_objectSections, ElfContents.word_shoff wellFormed]
    exact ⟨ElfContents.word_count, ElfContents.shoff_le_file⟩
  · rw [ElfContents.word_shoff wellFormed]
    rcases ElfContents.mem_objectSections member with rfl | ⟨section_, present, rfl⟩
    · exact absurd rfl inFile.1
    · exact ElfContents.sectionBack_inside present inFile

end Sources

end Nazm.Output
