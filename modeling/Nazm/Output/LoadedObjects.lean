import Nazm.Output.LinkedAlike
import Nazm.Passes.Execution

/-!
Linking and running the objects of a source.

Owns when the linked sections of an ELF object are those of the source, and that
the linked text of either object disassembles to the listing of the source and
runs as it.

Does not own how sections get their addresses.
-/

namespace Nazm.Output

open ByteFile FetchDecode FieldEdits LittleEndian
open Nazm.Encoder Nazm.Lexer Nazm.Symtable Nazm.Unicode Nazm.Passes

/-- The symbols of relocations stand in `.text` or in sections with a size. -/
def ReferencedLabelsFilled (src : SourceBuffer) : Prop :=
  ∀ relocation ∈ (sourcePass2 src).relocations, ∀ offset section_,
    symtableLookupEx (sourcePass1 src).symtable relocation.symbol = some (offset, some section_) →
    section_ = .text ∨ 0 < (sourcePass2 src).sizes.get section_

section Sources

variable {src : SourceBuffer} {addresses : Addresses} {relocation : Relocation}

/-! ## Symbols -/

/-- An entry is defined exactly when it has a section. -/
theorem entry_place (facts : NameFacts) (name : List UInt8) :
    (if (facts.entry name).defined then some ((facts.entry name).offset,
      (facts.entry name).section?) else none) =
      (facts.entry name).section?.map fun section_ =>
        ((facts.entry name).offset, some section_) := by
  obtain ⟨definition, _, _, _⟩ := facts
  cases definition <;> rfl

/-- What the writers collect for the symbol of a relocation. -/
theorem collected_symbol (accepted : Accepted src)
    (member : relocation ∈ (sourcePass2 src).relocations) :
    ∃ symbol, (sourceOutput src).relocationSymbol? relocation = some symbol ∧
      symbol.name = relocation.symbol ∧
      symtableLookupEx (sourcePass1 src).symtable relocation.symbol =
        symbol.section_.map fun section_ => (symbol.offset, some section_) := by
  obtain ⟨entry, inTable, isName, isOutput⟩ := relocation_symbol accepted member
  have collected : outputSymbol entry ∈ objectSymbolList (sourcePass1 src).symtable :=
    mem_objectSymbolList.mpr ⟨entry, inTable, isOutput, rfl⟩
  refine ⟨outputSymbol entry, relocationSymbol?_eq_some collected isName, isName, ?_⟩
  have found : findEntry (sourcePass1 src).symtable relocation.symbol = some entry :=
    isName ▸ ChainedTable.mem_entries_iff.mp inTable
  obtain ⟨-, isEntry⟩ := entry_of_source accepted inTable
  have place := entry_place (factsOf entry.name (sourceEvents src)) entry.name
  rw [isEntry] at place
  unfold symtableLookupEx
  rw [found]
  exact place

/-- A linker of ELF objects finds a symbol in a section that is in the object where the
source has it, in all the bits that a field keeps. -/
theorem symbolTarget_source {symbol : OutputSymbol}
    (isName : symbol.name = relocation.symbol)
    (found : symtableLookupEx (sourcePass1 src).symtable relocation.symbol =
      symbol.section_.map fun section_ => (symbol.offset, some section_))
    (filled : ∀ section_, symbol.section_ = some section_ →
      (sourceOutput src).hasSection (elfSectionOfSymbol section_) = true) :
    (sourceOutput src).symbolTarget addresses 64 symbol % 2 ^ 64 =
      symbolAddress (sourcePass1 src).symtable addresses relocation.symbol % 2 ^ 64 := by
  unfold OutputInput.symbolTarget symbolAddress
  rw [found]
  cases isSection : symbol.section_ with
  | none =>
      dsimp only [Option.map_none]
      rw [isName]
  | some section_ =>
      dsimp only [Option.map_some]
      rw [OutputInput.recordedSection, if_pos (filled section_ isSection)]
      omega

/-! ## Fields -/

/-- Both linkers of a relocation write the same field. -/
theorem relocationNumber_source {symbol : OutputSymbol}
    (found : (sourceOutput src).relocationSymbol? relocation = some symbol)
    (target : (sourceOutput src).symbolTarget addresses 64 symbol % 2 ^ 64 =
      symbolAddress (sourcePass1 src).symtable addresses relocation.symbol % 2 ^ 64) :
    intBytes relocation.kind.width ((sourceOutput src).relocationNumber addresses 64 relocation) =
      intBytes relocation.kind.width
        (relocation.linked (sourcePass1 src).symtable addresses) := by
  rw [intBytes_eq_iff, OutputInput.relocationNumber_eq 64 found, Relocation.linked]
  cases relocation.kind with
  | abs64 =>
      simp only [RelocationKind.width]
      omega
  | pc32 =>
      simp only [RelocationKind.width]
      omega

/-- The linked sections of an ELF object are the linked sections of the source. -/
theorem elfLinked_source (accepted : Accepted src) (filled : ReferencedLabelsFilled src)
    (section_ : RelocationSection) :
    elfLinked src addresses section_ = linkedBytes src addresses section_.symbolSection := by
  have same : sectionRelocations src section_.symbolSection =
      relocationsIn (sourceOutput src).relocations section_ := by
    unfold sectionRelocations relocationsIn
    apply List.filter_congr
    intro relocation _
    rw [decide_eq_decide]
    constructor
    · intro isSection
      revert isSection
      cases relocation.section_ <;> cases section_ <;> first | exact fun _ => rfl | decide
    · exact congrArg _
  unfold elfLinked linkedBytes
  rw [same]
  congr 1
  apply List.map_congr_left
  intro relocation inSection
  have member := (mem_relocationsIn.mp inSection).1
  obtain ⟨symbol, found, isName, lookup⟩ := collected_symbol accepted member
  have target := @symbolTarget_source src addresses relocation symbol isName lookup (by
    intro symbolSection isSection
    rw [isSection, Option.map_some] at lookup
    exact (elf_section_present symbolSection).mpr (filled _ member _ _ lookup))
  have field := relocationNumber_source found target
  unfold OutputInput.elfEdit writeEdit Relocation.edit
  congr 1
  funext _
  exact field

/-- A label of an empty section is taken for one of `.text`. -/
theorem filled_of_elfLinked (accepted : Accepted src)
    (alike : ∀ addresses section_, elfLinked src addresses section_ =
      linkedBytes src addresses section_.symbolSection) : ReferencedLabelsFilled src := by
  intro relocation member offset section_ lookup
  by_contra unfilled
  obtain ⟨symbol, found, isName, isLookup⟩ := collected_symbol accepted member
  rw [lookup] at isLookup
  obtain ⟨recorded, isSection, isPlace⟩ := Option.map_eq_some_iff.mp isLookup.symm
  obtain ⟨rfl, rfl⟩ : symbol.offset = offset ∧ recorded = section_ := by simpa using isPlace
  have absent : (sourceOutput src).hasSection (elfSectionOfSymbol recorded) = false := by
    rw [← Bool.not_eq_true, elf_section_present]
    exact unfilled
  have notText : recorded ≠ .text := fun text => unfilled (.inl text)
  -- put the section of the label one byte away from where all the others are
  let addresses : Addresses := ⟨fun other => if other = recorded then 1 else 0, fun _ => 0⟩
  have inSection : relocation ∈
      relocationsIn (sourceOutput src).relocations relocation.section_ :=
    mem_relocationsIn.mpr ⟨member, rfl⟩
  have elf := @elfLinked_field src _ addresses accepted _ inSection
  have isHere : relocation ∈ sectionRelocations src relocation.section_.symbolSection :=
    List.mem_filter.mpr ⟨member, decide_eq_true rfl⟩
  have source : slice (linkedBytes src addresses relocation.section_.symbolSection)
      relocation.offset relocation.kind.width =
        intBytes relocation.kind.width
          (relocation.linked (sourcePass1 src).symtable addresses) :=
    slice_applyAll_of_mem (edits_inside addresses _ accepted) (edits_apart addresses _ accepted)
      (List.mem_map_of_mem (f := Relocation.edit (sourcePass1 src).symtable addresses) isHere)
  rw [alike, source, intBytes_eq_iff, OutputInput.relocationNumber_eq 64 found,
    Relocation.linked] at elf
  have atText : addresses.base .text = 0 := if_neg (Ne.symm notText)
  have atLabel : addresses.base recorded = 1 := if_pos rfl
  simp only [OutputInput.symbolTarget, isSection, OutputInput.recordedSection, absent,
    Bool.false_eq_true, if_false, symbolAddress, lookup, atText, atLabel] at elf
  cases kind : relocation.kind with
  | abs64 =>
      simp only [kind, RelocationKind.width] at elf
      omega
  | pc32 =>
      simp only [kind, RelocationKind.width] at elf
      omega

end Sources

/-! ## Objects -/

/-- The sections of the ELF object of an accepted source link to what the relocations of
the source ask for, wherever the sections and the external symbols are, exactly when no
relocation names a label in an empty section. -/
theorem elf_links_as_source_iff (src : SourceBuffer) (accepted : Accepted src)
    (contents : ElfContents) (from_ : FromSource src contents) :
    (∀ addresses section_, contents.linkedBytes addresses section_ =
      linkedBytes src addresses section_.symbolSection) ↔ ReferencedLabelsFilled src := by
  simp only [elf_linkedBytes accepted from_]
  constructor
  · exact filled_of_elfLinked accepted
  · intro filled addresses section_
    exact elfLinked_source accepted filled section_

theorem elf_links_as_source_iff_externalLoop : ∃ elf, FromSource externalLoop elf ∧
    ((∀ addresses section_, elf.linkedBytes addresses section_ =
      linkedBytes externalLoop addresses section_.symbolSection) ↔
        ReferencedLabelsFilled externalLoop) := by
  obtain ⟨elf, -, from_, -⟩ := @written_by_both externalLoop (by decide +kernel)
  exact ⟨elf, from_, elf_links_as_source_iff externalLoop (by decide +kernel) elf from_⟩

section Loaded

variable {src : SourceBuffer} {addresses : Addresses}

theorem elf_text_source (accepted : Accepted src) (filled : ReferencedLabelsFilled src)
    {contents : ElfContents} (from_ : FromSource src contents) :
    contents.linkedBytes addresses .text = linkedBytes src addresses .text := by
  rw [elf_linkedBytes accepted from_]
  exact elfLinked_source accepted filled .text

theorem coff_text_source (accepted : Accepted src) (filled : ReferencedLabelsFilled src)
    (kept : CoffKeepsLinks (sourceOutput src)) {contents : CoffContents}
    (built : CoffBuilt (sourceOutput src) contents) :
    contents.linkedBytes addresses .text = linkedBytes src addresses .text := by
  calc contents.linkedBytes addresses .text
      = coffLinked src addresses .text := coff_linkedBytes accepted built
    _ = addLinked src addresses 32 .text := coffLinked_adds accepted fun relocation member =>
        kept.fields relocation (mem_relocationsIn.mp member).1
    _ = addLinked src addresses 64 .text := (addLinked_same accepted kept.symbols).symm
    _ = elfLinked src addresses .text := (elfLinked_adds accepted).symm
    _ = linkedBytes src addresses .text := elfLinked_source accepted filled .text

end Loaded

/-- The linked text of an object that a writer makes of a source. A COFF object has to
keep the offsets that its relocations need. -/
inductive ObjectText (src : SourceBuffer) (addresses : Addresses) : List UInt8 → Prop where
  | elf {contents : ElfContents} : FromSource src contents →
      ObjectText src addresses (contents.linkedBytes addresses .text)
  | coff {contents : CoffContents} : coffContents (sourceOutput src) = .ok contents →
      CoffKeepsLinks (sourceOutput src) →
      ObjectText src addresses (contents.linkedBytes addresses .text)

theorem ObjectText.eq_source {src : SourceBuffer} {addresses : Addresses} {text : List UInt8}
    (object : ObjectText src addresses text) (accepted : Accepted src)
    (filled : ReferencedLabelsFilled src) : text = linkedBytes src addresses .text := by
  cases object with
  | elf from_ => exact elf_text_source accepted filled from_
  | coff written kept => exact coff_text_source accepted filled kept (coffBuilt_of_contents written)

/-- The linked text of either object disassembles to what the source asks for, and a
processor that holds it in memory does what the listing of the source says. -/
theorem object_text_runs {State : Type} (src : SourceBuffer) (accepted : Accepted src)
    (filled : ReferencedLabelsFilled src) (addresses : Addresses)
    (reach : WithinReach src addresses) (text : List UInt8)
    (object : ObjectText src addresses text) :
    sweep X86.decodeAt text.length (addresses.base .text) text =
        some (sourceListing src addresses) ∧
      ∀ processor : Processor X86.PlacedInstruction State, processor.decode = X86.decodeAt →
        maxInstructionBytes ≤ processor.window →
        processor.Protects (addresses.base .text) text →
        ∀ state, HoldsAt (processor.memory state) (addresses.base .text) text →
        ∀ count result,
          processor.listingRun (sourceListing src addresses) count state = some result →
          processor.run count state = result := by
  obtain rfl := object.eq_source accepted filled
  have listed := linkedText_listed accepted reach
  refine ⟨listed.sweep (Nat.le_refl _), ?_⟩
  intro processor decodes window protects state holds count result ran
  exact text_runs listed (fun entry member => length_sourceListing member) decodes window protects
    holds ran

theorem externalLoop_filled : ReferencedLabelsFilled externalLoop := by
  intro relocation member offset section_ lookup
  have external : ∀ relocation ∈ (sourcePass2 externalLoop).relocations,
      symtableLookupEx (sourcePass1 externalLoop).symtable relocation.symbol = none := by
    decide +kernel
  rw [external relocation member] at lookup
  contradiction

theorem object_text_runs_externalLoop : ∃ elf, FromSource externalLoop elf ∧
    (jumpFollower 4096 (elf.linkedBytes loadedLow .text)).run 3 4096 = some 4101 := by
  obtain ⟨elf, -, from_, -⟩ := @written_by_both externalLoop (by decide +kernel)
  obtain ⟨-, runs⟩ := @object_text_runs Int externalLoop (by decide +kernel)
    externalLoop_filled loadedLow (by decide +kernel) _ (.elf from_)
  have listing : sourceListing externalLoop loadedLow =
      [⟨4096, 5, ⟨.call, 64, [.target 8192]⟩⟩, ⟨4101, 5, ⟨.jmp, 64, [.target 4096]⟩⟩] := by
    decide +kernel
  refine ⟨elf, from_, runs (jumpFollower 4096 _) rfl (Nat.le_refl _) (fun _ _ _ _ _ _ _ => rfl)
    4096 (holdsAt_imageAt _) 3 (some 4101) ?_⟩
  rw [listing]
  rfl

end Nazm.Output
