import Nazm.Output.CoffFile
import Nazm.Output.ElfWritten

/-!
The COFF writer on accepted sources.

Owns that the writer succeeds on an accepted source within the size limit
exactly when no section has more relocations than its header can count.

Does not own the ELF64 writer, nor what the file holds.
-/

namespace Nazm.Output

open ByteFile
open Nazm.Encoder Nazm.Lexer Nazm.Symtable Nazm.Unicode Nazm.Passes

variable {src : SourceBuffer}

theorem coffDebugLine_of_source (accepted : Accepted src)
    (limit : src.data.length ≤ nazmApiMaxSourceSize) :
    ∃ table, coffDebugLine (sourceOutput src) = .ok table := by
  rw [coffDebugLine]
  split
  · next debug => exact codeviewLine_of_source accepted limit debug
  · exact ⟨_, rfl⟩

/-- The relocation counts pass exactly when each of them fits. -/
theorem coffRelocationCounts_ok {relocations : List Relocation} :
    coffRelocationCounts relocations = .ok () ↔
      ∀ section_, countRelocationsInSection relocations section_ ≤ uint16Max := by
  constructor
  · intro ok section_
    unfold coffRelocationCounts at ok
    repeat' split at ok
    all_goals first | contradiction | skip
    cases section_ <;> omega
  · intro few
    rw [coffRelocationCounts, if_neg (Nat.not_lt.mpr (few .text)),
      if_neg (Nat.not_lt.mpr (few .data)), if_neg (Nat.not_lt.mpr (few .readOnlyData))]

/-- The long names of an object are some of its names. -/
theorem length_coffLongNames (names : List (List UInt8)) :
    (strings (coffLongNames names)).length ≤ (strings names).length :=
  (List.Sublist.flatMap List.filter_sublist _).length_le

theorem coffNames_fit (accepted : Accepted src)
    (limit : src.data.length ≤ nazmApiMaxSourceSize)
    (named : ∀ name, src.name = some name → name.length < 2 ^ 31) (localCount : Nat) :
    namesFitStrtab 4 (coffLongNames (coffFileName (sourceOutput src) ::
      symbolNames ⟨objectSymbolList (sourcePass1 src).symtable, localCount⟩)) = true := by
  have names := length_symbolNames accepted
  have light := sourceWeight_le limit
  have long := length_coffLongNames (coffFileName (sourceOutput src) ::
    symbolNames ⟨objectSymbolList (sourcePass1 src).symtable, localCount⟩)
  have fileName : (coffFileName (sourceOutput src)).length < 2 ^ 31 := by
    rw [coffFileName, sourceOutput]
    cases isName : src.name with
    | none => exact (by decide : (utf8 "unknown").length < 2 ^ 31)
    | some name => exact named name isName
  refine (namesFitStrtab_iff (by decide)).mpr ?_
  have all : (strings (coffFileName (sourceOutput src) ::
      symbolNames ⟨objectSymbolList (sourcePass1 src).symtable, localCount⟩)).length =
      (coffFileName (sourceOutput src)).length + 1 +
        (strings ((objectSymbolList (sourcePass1 src).symtable).map OutputSymbol.name)).length := by
    rw [length_strings, List.map_cons, List.sum_cons, ← length_strings]
    rfl
  rw [uint32Max]
  omega

theorem coffOutputSymbols_of_source (accepted : Accepted src)
    (limit : src.data.length ≤ nazmApiMaxSourceSize)
    (named : ∀ name, src.name = some name → name.length < 2 ^ 31) :
    coffOutputSymbols (sourceOutput src) =
      match coffRelocationCounts (sourceOutput src).relocations with
      | .error message => .error message
      | .ok () => .ok ⟨objectSymbolList (sourcePass1 src).symtable,
          (collectBinding (sourcePass1 src).symtable .local).length⟩ := by
  have collected := outputSymbolsCollect_of_source accepted limit
  have known := relocationsHaveSymbols_of_source accepted
    (collectBinding (sourcePass1 src).symtable .local).length
  have fits := coffNames_fit accepted limit named
    (collectBinding (sourcePass1 src).symtable .local).length
  have names := length_symbolNames accepted
  have light := sourceWeight_le limit
  have count := length_le_strings
    ((objectSymbolList (sourcePass1 src).symtable).map OutputSymbol.name)
  rw [List.length_map] at count
  have few : ¬ ((sourceOutput src).hasDebug = true ∧ uint32Max - 2 <
      (objectSymbolList (sourcePass1 src).symtable).length) := by
    rw [uint32Max]
    omega
  have symtable : (sourceOutput src).symtable = (sourcePass1 src).symtable := rfl
  have relocations : (sourceOutput src).relocations = (sourcePass2 src).relocations := rfl
  rw [coffOutputSymbols, symtable, collected]
  dsimp only
  rw [fits, relocations, known]
  cases coffRelocationCounts (sourcePass2 src).relocations with
  | error message => simp only [Bool.not_true, Bool.false_eq_true, if_false]
  | ok counted => simp only [Bool.not_true, Bool.false_eq_true, if_false, if_neg few]

theorem coffRelocs_isSome {input : OutputInput} {symbols : OutputSymbolList}
    (known : relocationsHaveSymbols input.relocations symbols = true)
    (section_ : RelocationSection) : ∃ relocs, coffRelocs input symbols section_ = some relocs := by
  rw [coffRelocs]
  exact mapM_findIndex_isSome fun relocation member =>
    List.all_eq_true.mp known relocation (mem_relocationsIn.mp member).1

/-- The writer succeeds on an accepted source within the size limit exactly when the
relocations of each section can be counted. -/
theorem coff_of_source (accepted : Accepted src)
    (limit : src.data.length ≤ nazmApiMaxSourceSize)
    (named : ∀ name, src.name = some name → name.length < 2 ^ 31) :
    (∃ contents, coffContents (sourceOutput src) = .ok contents) ↔
      ∀ section_, countRelocationsInSection (sourceOutput src).relocations section_ ≤
        uint16Max := by
  obtain ⟨table, isTable⟩ := coffDebugLine_of_source accepted limit
  have symbols := coffOutputSymbols_of_source accepted limit named
  refine ⟨fun ⟨contents, written⟩ => (coffBuilt_of_contents written).relocationCounts,
    fun few => ?_⟩
  rw [coffRelocationCounts_ok.mpr few] at symbols
  have known := relocationsHaveSymbols_of_source accepted
    (collectBinding (sourcePass1 src).symtable .local).length
  have relocs := @coffRelocs_isSome (sourceOutput src) _ known
  obtain ⟨textRelocs, isText⟩ := relocs .text
  obtain ⟨dataRelocs, isData⟩ := relocs .data
  obtain ⟨readOnlyDataRelocs, isReadOnlyData⟩ := relocs .readOnlyData
  rw [coffContents, isTable, symbols]
  dsimp only
  rw [isText, isData, isReadOnlyData]
  exact ⟨_, rfl⟩

end Nazm.Output
