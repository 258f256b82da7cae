import Nazm.Output.SourceSizes

/-!
The symbol list of an object.

Owns what the list holds for an accepted source, that each relocation finds its
symbol in it, and when its names fit a string table.

Does not own any object format.
-/

namespace Nazm.Output

open ByteFile
open Nazm.Encoder Nazm.Lexer Nazm.Symtable Nazm.Passes

variable {src : SourceBuffer}

/-- The symbols of an object: locals, then globals. -/
def objectSymbolList (symtable : SymbolTable) : List OutputSymbol :=
  collectBinding symtable .local ++ collectBinding symtable .global

theorem outputSymbolsCollect_eq_some {symtable : SymbolTable} {symbols : OutputSymbolList}
    (collected : outputSymbolsCollect symtable = some symbols) :
    symbols = ⟨objectSymbolList symtable, (collectBinding symtable .local).length⟩ := by
  rw [outputSymbolsCollect, Option.ite_none_left_eq_some] at collected
  exact (Option.some.inj collected.2).symm

theorem mem_collectBinding {symtable : SymbolTable} {binding : SymbolBinding}
    {symbol : OutputSymbol} : symbol ∈ collectBinding symtable binding ↔
      ∃ entry ∈ symtable.entries, isOutputSymbol entry = true ∧ entry.binding = binding ∧
        outputSymbol entry = symbol := by
  simp only [collectBinding, List.mem_map, List.mem_filter, Bool.and_eq_true, decide_eq_true_eq,
    and_assoc]

theorem mem_objectSymbolList {symtable : SymbolTable} {symbol : OutputSymbol} :
    symbol ∈ objectSymbolList symtable ↔
      ∃ entry ∈ symtable.entries, isOutputSymbol entry = true ∧ outputSymbol entry = symbol := by
  rw [objectSymbolList, List.mem_append, mem_collectBinding, mem_collectBinding]
  constructor
  · rintro (⟨entry, member, isOutput, -, same⟩ | ⟨entry, member, isOutput, -, same⟩) <;>
      exact ⟨entry, member, isOutput, same⟩
  · rintro ⟨entry, member, isOutput, same⟩
    cases binding : entry.binding with
    | «local» => exact .inl ⟨entry, member, isOutput, binding, same⟩
    | global => exact .inr ⟨entry, member, isOutput, binding, same⟩

theorem binding_of_collected {symtable : SymbolTable} {binding : SymbolBinding}
    {symbol : OutputSymbol} (member : symbol ∈ collectBinding symtable binding) :
    symbol.binding = binding := by
  obtain ⟨entry, -, -, isBinding, rfl⟩ := mem_collectBinding.mp member
  exact isBinding

/-- No two symbols have one name. -/
theorem nodup_objectSymbolList (symtable : SymbolTable) :
    ((objectSymbolList symtable).map OutputSymbol.name).Nodup := by
  have each : ∀ binding : SymbolBinding,
      ((collectBinding symtable binding).map OutputSymbol.name).Nodup := by
    intro binding
    rw [collectBinding, List.map_map]
    exact (ChainedTable.nodup_keys symtable).sublist (List.filter_sublist.map _)
  rw [objectSymbolList, List.map_append]
  refine (each .local).append (each .global) ?_
  intro name inLocals inGlobals
  obtain ⟨first, isLocal, rfl⟩ := List.mem_map.mp inLocals
  obtain ⟨second, isGlobal, same⟩ := List.mem_map.mp inGlobals
  obtain ⟨one, oneMember, -, oneBinding, rfl⟩ := mem_collectBinding.mp isLocal
  obtain ⟨two, twoMember, -, twoBinding, rfl⟩ := mem_collectBinding.mp isGlobal
  have oneFound := ChainedTable.mem_entries_iff.mp oneMember
  have twoFound := ChainedTable.mem_entries_iff.mp twoMember
  have isName : two.name = one.name := same
  rw [isName, oneFound] at twoFound
  obtain rfl := Option.some.inj twoFound
  rw [oneBinding] at twoBinding
  contradiction

/-! ## Symbols of a source -/

theorem symbol_isName (accepted : Accepted src) {symbol : OutputSymbol}
    (member : symbol ∈ objectSymbolList (sourcePass1 src).symtable) : IsName symbol.name := by
  obtain ⟨entry, inTable, -, rfl⟩ := mem_objectSymbolList.mp member
  exact entry_isName accepted inTable

/-- A symbol is at an offset in its section, or at zero and undefined. -/
theorem symbol_offset (accepted : Accepted src) {symbol : OutputSymbol}
    (member : symbol ∈ objectSymbolList (sourcePass1 src).symtable) :
    (∃ section_ offset, symbol.section_ = some section_ ∧ symbol.offset = (offset : Nat) ∧
      offset ≤ (sourcePass2 src).sizes.get section_) ∨
    (symbol.section_ = none ∧ symbol.offset = 0) := by
  obtain ⟨entry, inTable, -, rfl⟩ := mem_objectSymbolList.mp member
  exact entry_offset accepted inTable

/-- The names of the symbols fit the statements. -/
theorem length_symbolNames (accepted : Accepted src) :
    (strings ((objectSymbolList (sourcePass1 src).symtable).map OutputSymbol.name)).length ≤
      sourceWeight src := by
  refine length_names_le accepted (nodup_objectSymbolList _) fun name member => ?_
  obtain ⟨symbol, inList, rfl⟩ := List.mem_map.mp member
  obtain ⟨entry, inTable, -, rfl⟩ := mem_objectSymbolList.mp inList
  exact ⟨entry, inTable, rfl⟩

theorem length_le_strings (names : List (List UInt8)) : names.length ≤ (strings names).length := by
  induction names with
  | nil => exact Nat.zero_le _
  | cons name names inductionHypothesis =>
      rw [strings] at inductionHypothesis ⊢
      simp only [List.length_cons, List.flatMap_cons, List.length_append, List.length_nil]
      omega

/-- The symbols can be collected. -/
theorem outputSymbolsCollect_of_source (accepted : Accepted src)
    (limit : src.data.length ≤ nazmApiMaxSourceSize) :
    outputSymbolsCollect (sourcePass1 src).symtable =
      some ⟨objectSymbolList (sourcePass1 src).symtable,
        (collectBinding (sourcePass1 src).symtable .local).length⟩ := by
  have light := sourceWeight_le limit
  have bound := @length_names_le _ accepted
    (((sourcePass1 src).symtable.entries.filter isOutputSymbol).map SymEntry.name)
    ((ChainedTable.nodup_keys _).sublist (List.filter_sublist.map _)) (by
      intro name member
      obtain ⟨entry, inTable, rfl⟩ := List.mem_map.mp member
      exact ⟨entry, (List.mem_filter.mp inTable).1, rfl⟩)
  have count := length_le_strings
    (((sourcePass1 src).symtable.entries.filter isOutputSymbol).map SymEntry.name)
  rw [List.length_map] at count
  rw [outputSymbolsCollect, if_neg (by
    rw [uint32Max]
    omega)]
  rfl

/-! ## Relocations -/

/-- The index of a symbol is that of its name in the list, after entry zero. -/
theorem outputSymbolsFindIndex_eq_some {symbols : OutputSymbolList} {name : List UInt8}
    {index : Nat} (found : outputSymbolsFindIndex symbols name = some index) :
    ∃ place symbol, index = place + 1 ∧ symbols.data[place]? = some symbol ∧ symbol.name = name := by
  obtain ⟨place, isPlace, rfl⟩ := Option.map_eq_some_iff.mp found
  obtain ⟨inRange, isName, -⟩ := List.findIdx?_eq_some_iff_getElem.mp isPlace
  exact ⟨place, symbols.data[place], rfl, List.getElem?_eq_getElem inRange, of_decide_eq_true isName⟩

theorem mem_relocationsIn {relocations : List Relocation} {section_ : RelocationSection}
    {relocation : Relocation} : relocation ∈ relocationsIn relocations section_ ↔
      relocation ∈ relocations ∧ relocation.section_ = section_ := by
  rw [relocationsIn, List.mem_filter, decide_eq_true_eq]

/-- Every relocation gets an entry once each has its symbol. -/
theorem mapM_findIndex_isSome {Entry : Type} {symbols : OutputSymbolList}
    {make : Relocation → Nat → Entry} {relocations : List Relocation}
    (found : ∀ relocation ∈ relocations,
      (outputSymbolsFindIndex symbols relocation.symbol).isSome = true) :
    ∃ entries, (relocations.mapM fun relocation =>
      (outputSymbolsFindIndex symbols relocation.symbol).map (make relocation)) = some entries := by
  induction relocations with
  | nil => exact ⟨[], rfl⟩
  | cons relocation relocations inductionHypothesis =>
      obtain ⟨rest, isRest⟩ := inductionHypothesis fun other member =>
        found other (List.mem_cons_of_mem _ member)
      obtain ⟨index, isIndex⟩ := Option.isSome_iff_exists.mp (found relocation List.mem_cons_self)
      rw [List.mapM_cons, isIndex, isRest]
      exact ⟨_, rfl⟩

/-- Every relocation of a source finds its symbol. -/
theorem relocationsHaveSymbols_of_source (accepted : Accepted src) (localCount : Nat) :
    relocationsHaveSymbols (sourcePass2 src).relocations
      ⟨objectSymbolList (sourcePass1 src).symtable, localCount⟩ = true := by
  refine List.all_eq_true.mpr fun relocation member => ?_
  obtain ⟨entry, inTable, isName, isOutput⟩ := relocation_symbol accepted member
  rw [outputSymbolsFindIndex, Option.isSome_map, List.findIdx?_isSome, List.any_eq_true]
  exact ⟨outputSymbol entry, mem_objectSymbolList.mpr ⟨entry, inTable, isOutput, rfl⟩,
    decide_eq_true isName⟩

/-! ## String tables -/

/-- The check of the writers on a string table. -/
theorem namesFitStrtab_iff {size : Nat} {names : List (List UInt8)} (room : size ≤ uint32Max) :
    namesFitStrtab size names = true ↔ size + (strings names).length ≤ uint32Max := by
  induction names generalizing size with
  | nil => simpa [namesFitStrtab, strings] using room
  | cons name names inductionHypothesis =>
      have split : (strings (name :: names)).length = name.length + 1 + (strings names).length := by
        rw [length_strings, length_strings, List.map_cons, List.sum_cons]
      rw [namesFitStrtab, split]
      by_cases long : uint32Max ≤ name.length ∨ uint32Max - name.length - 1 < size
      · rw [if_pos long]
        refine iff_of_false Bool.false_ne_true ?_
        omega
      · rw [if_neg long, inductionHypothesis (by omega)]
        omega

end Nazm.Output
