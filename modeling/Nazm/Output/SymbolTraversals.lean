import Nazm.Output.SymbolSections

/-!
The traversals behind the symbol list.

Owns the three walks of `src/output/symbols.c` over the buckets with the array
that they fill, that they make the symbol list, what the list is a partition of,
and what an index into it denotes.

Does not own the formats of the writers.
-/

namespace Nazm.Output

open Nazm.Encoder Nazm.Parser Nazm.Lexer Nazm.Symtable Nazm.Unicode Nazm.Passes

/-! ## The array -/

/-- `SIZE_MAX / sizeof(OutputSymbol)`, with the alignment of 64-bit targets. -/
def maxOutputSymbols : Nat := (2 ^ 64 - 1) / 32

/-- `count_output_symbols`. -/
def countOutputSymbols (symtable : SymbolTable) : Nat :=
  (List.finRange symtableBuckets).foldl
    (fun count bucket =>
      (symtable.chains bucket).foldl
        (fun count entry =>
          if entry.defined || entry.externalDeclared then count + 1 else count) count) 0

/-- A store to `symbols[index]`; `none` behind the end of the array. -/
def storeSymbol (symbols : List (Option OutputSymbol)) (index : Nat) (symbol : OutputSymbol) :
    Option (List (Option OutputSymbol)) :=
  if index < symbols.length then some (symbols.set index (some symbol)) else none

/-- One turn of the inner loop of `collect_binding`. -/
def collectEntry (binding : SymbolBinding) (filled : List (Option OutputSymbol) × Nat)
    (entry : SymEntry) : Option (List (Option OutputSymbol) × Nat) :=
  if (!entry.defined && !entry.externalDeclared) || decide (entry.binding ≠ binding) then
    some filled
  else
    (storeSymbol filled.1 filled.2 ⟨entry.name, entry.offset, entry.section?, entry.binding⟩).map
      fun symbols => (symbols, filled.2 + 1)

/-- `collect_binding`, over the array. -/
def collectBindingInto (symtable : SymbolTable) (binding : SymbolBinding)
    (filled : List (Option OutputSymbol) × Nat) : Option (List (Option OutputSymbol) × Nat) :=
  (List.finRange symtableBuckets).foldlM
    (fun filled bucket => (symtable.chains bucket).foldlM (collectEntry binding) filled) filled

/-- `output_symbols_collect`, over the array: its symbols, its `count` and its
`local_count`. The outer `none` stands for a store outside the array, the inner
one for `false`. -/
def outputSymbolsCollectInto (symtable : SymbolTable) :
    Option (Option (List (Option OutputSymbol) × Nat × Nat)) :=
  let count := countOutputSymbols symtable
  if uint32Max - 1 < count ∨ maxOutputSymbols < count then some none
  else
    match collectBindingInto symtable .local (List.replicate count none, 0) with
    | none => none
    | some (symbols, localCount) =>
        match collectBindingInto symtable .global (symbols, localCount) with
        | none => none
        | some (symbols, index) =>
            if index ≠ count then some none else some (some (symbols, index, localCount))

/-! ## What the walks do -/

theorem countOutputSymbols_eq (symtable : SymbolTable) :
    countOutputSymbols symtable = (symtable.entries.filter isOutputSymbol).length := by
  have counted : ∀ (entries : List SymEntry) (count : Nat),
      entries.foldl (fun count entry =>
        if entry.defined || entry.externalDeclared then count + 1 else count) count =
        count + (entries.filter isOutputSymbol).length := by
    intro entries
    induction entries with
    | nil => exact fun _ => rfl
    | cons entry entries inductionHypothesis =>
        intro count
        rw [List.foldl_cons, inductionHypothesis, List.filter_cons]
        unfold isOutputSymbol
        split
        · rw [List.length_cons]
          omega
        · rfl
  rw [countOutputSymbols, ← List.foldl_flatMap, counted, Nat.zero_add]
  rfl

/-- The entries that `collect_binding` takes. -/
def takesEntry (binding : SymbolBinding) (entry : SymEntry) : Bool :=
  isOutputSymbol entry && decide (entry.binding = binding)

/-- A walk over entries fills the next places, one for each entry it takes. -/
theorem foldlM_collectEntry (binding : SymbolBinding) (entries : List SymEntry)
    (front : List OutputSymbol) {room : Nat}
    (enough : (entries.filter (takesEntry binding)).length ≤ room) :
    entries.foldlM (collectEntry binding)
        (front.map some ++ List.replicate room none, front.length) =
      some ((front ++ (entries.filter (takesEntry binding)).map outputSymbol).map some ++
        List.replicate (room - (entries.filter (takesEntry binding)).length) none,
        front.length + (entries.filter (takesEntry binding)).length) := by
  induction entries generalizing front room with
  | nil => simp
  | cons entry entries inductionHypothesis =>
      rw [List.foldlM_cons]
      by_cases taken : takesEntry binding entry = true
      · rw [List.filter_cons_of_pos taken] at enough ⊢
        obtain ⟨room, rfl⟩ := Nat.exists_eq_add_of_le' (Nat.le_trans (Nat.le_add_left 1 _) enough)
        have stored : collectEntry binding
            (front.map some ++ List.replicate (room + 1) none, front.length) entry =
            some ((front ++ [outputSymbol entry]).map some ++ List.replicate room none,
              (front ++ [outputSymbol entry]).length) := by
          have kept : ¬((!entry.defined && !entry.externalDeclared) ||
              decide (entry.binding ≠ binding)) = true := by
            rw [takesEntry, isOutputSymbol, Bool.and_eq_true, decide_eq_true_eq] at taken
            grind
          have inside : front.length < (front.map some ++
              List.replicate (room + 1) (none : Option OutputSymbol)).length := by
            rw [List.length_append, List.length_map, List.length_replicate]
            omega
          rw [collectEntry, if_neg kept, storeSymbol, if_pos inside]
          simp [List.replicate_succ, outputSymbol]
        rw [stored, Option.bind_eq_bind, Option.bind_some,
          inductionHypothesis (front ++ [outputSymbol entry]) (Nat.le_of_succ_le_succ enough)]
        simp only [List.map_cons, List.length_cons, List.length_append, List.length_nil,
          List.append_assoc, List.singleton_append, Nat.add_sub_add_right]
        rw [Nat.add_assoc, Nat.add_comm 1]
      · have skipped : collectEntry binding
            (front.map some ++ List.replicate room none, front.length) entry =
            some (front.map some ++ List.replicate room none, front.length) := by
          rw [collectEntry, if_pos]
          rw [takesEntry, isOutputSymbol, Bool.and_eq_true, decide_eq_true_eq, Bool.or_eq_true] at taken
          grind
        rw [List.filter_cons_of_neg taken] at enough ⊢
        rw [skipped, Option.bind_eq_bind, Option.bind_some]
        exact inductionHypothesis front enough

theorem foldlM_flatMap {α β σ : Type} {f : σ → β → Option σ} {g : α → List β} (as : List α)
    (start : σ) : (as.flatMap g).foldlM f start = as.foldlM (fun s a => (g a).foldlM f s) start := by
  induction as generalizing start with
  | nil => rfl
  | cons a as inductionHypothesis =>
      rw [List.flatMap_cons, List.foldlM_append, List.foldlM_cons]
      exact congrArg _ (funext inductionHypothesis)

theorem collectBindingInto_eq (symtable : SymbolTable) (binding : SymbolBinding)
    (front : List OutputSymbol) {room : Nat}
    (enough : (collectBinding symtable binding).length ≤ room) :
    collectBindingInto symtable binding
        (front.map some ++ List.replicate room none, front.length) =
      some ((front ++ collectBinding symtable binding).map some ++
        List.replicate (room - (collectBinding symtable binding).length) none,
        front.length + (collectBinding symtable binding).length) := by
  rw [collectBinding, List.length_map] at enough ⊢
  rw [collectBindingInto, ← foldlM_flatMap]
  exact foldlM_collectEntry binding symtable.entries front enough

/-- Locals and globals are all the symbols. -/
theorem perm_objectSymbolList (symtable : SymbolTable) :
    (objectSymbolList symtable).Perm ((symtable.entries.filter isOutputSymbol).map outputSymbol) := by
  have split : ∀ entries : List SymEntry,
      ((entries.filter fun entry => isOutputSymbol entry && decide (entry.binding = .local)) ++
        entries.filter fun entry => isOutputSymbol entry && decide (entry.binding = .global)).Perm
        (entries.filter isOutputSymbol) := by
    intro entries
    induction entries with
    | nil => exact .nil
    | cons entry entries inductionHypothesis =>
        cases isOutput : isOutputSymbol entry with
        | false => simpa [List.filter_cons, isOutput] using inductionHypothesis
        | true =>
            cases isBinding : entry.binding with
            | «local» => simpa [List.filter_cons, isOutput, isBinding] using inductionHypothesis
            | global =>
                simpa [List.filter_cons, isOutput, isBinding] using
                  List.perm_middle.trans (inductionHypothesis.cons entry)
  rw [objectSymbolList, collectBinding, collectBinding, ← List.map_append]
  exact (split symtable.entries).map outputSymbol

/-- The walks fill the array exactly, and make the symbol list. -/
theorem outputSymbolsCollectInto_eq (symtable : SymbolTable) :
    outputSymbolsCollectInto symtable =
      some ((outputSymbolsCollect symtable).map fun symbols =>
        (symbols.data.map some, symbols.data.length, symbols.localCount)) := by
  have count := (perm_objectSymbolList symtable).length_eq
  rw [List.length_map, objectSymbolList, List.length_append] at count
  unfold outputSymbolsCollectInto outputSymbolsCollect
  dsimp only
  rw [countOutputSymbols_eq]
  by_cases large : uint32Max - 1 < (symtable.entries.filter isOutputSymbol).length
  · rw [if_pos (.inl large), if_pos large]
    rfl
  · have small : ¬(uint32Max - 1 < (symtable.entries.filter isOutputSymbol).length ∨
        maxOutputSymbols < (symtable.entries.filter isOutputSymbol).length) := by
      rw [uint32Max] at large ⊢
      rw [maxOutputSymbols]
      omega
    rw [if_neg small, if_neg large, ← count]
    have locals := @collectBindingInto_eq symtable .local []
      ((collectBinding symtable .local).length + (collectBinding symtable .global).length)
      (Nat.le_add_right _ _)
    rw [List.map_nil, List.nil_append, List.nil_append, List.length_nil, Nat.zero_add,
      Nat.add_sub_cancel_left] at locals
    have globals := @collectBindingInto_eq symtable .global (collectBinding symtable .local)
      (collectBinding symtable .global).length (Nat.le_refl _)
    rw [Nat.sub_self, List.replicate_zero, List.append_nil] at globals
    rw [locals]
    dsimp only
    rw [globals]
    dsimp only
    rw [if_neg (not_not.mpr rfl), Option.map_some, List.length_append]

/-! ## The size of the table of pass 1 -/

section Growth

variable {instructions : InstructionList}

/-- A call of the symbol table enters one symbol or none. -/
theorem length_symtableInsertSection (st : SymbolTable) (name : List UInt8)
    (section_ : SymbolSection) (offset : Int) :
    (symtableInsertSection st name section_ offset).1.entries.length ≤ st.entries.length + 1 := by
  unfold symtableInsertSection
  split
  · split
    · exact Nat.le_succ _
    · dsimp only
      rw [ChainedTable.length_entries_modify]
      exact Nat.le_succ _
  · next absent => exact Nat.le_of_eq (ChainedTable.length_entries_push absent)

theorem length_symtableDeclareBinding (st : SymbolTable) (name : List UInt8)
    (binding : SymbolBinding) :
    (symtableDeclareBinding st name binding).1.entries.length ≤ st.entries.length + 1 := by
  unfold symtableDeclareBinding
  split
  · next absent => exact Nat.le_of_eq (ChainedTable.length_entries_push absent)
  · split
    · exact Nat.le_succ _
    · dsimp only
      rw [ChainedTable.length_entries_modify]
      exact Nat.le_succ _

theorem length_symtableDeclareExternal (st : SymbolTable) (name : List UInt8) :
    (symtableDeclareExternal st name).1.entries.length ≤ st.entries.length + 1 := by
  unfold symtableDeclareExternal
  split
  · next absent => exact Nat.le_of_eq (ChainedTable.length_entries_push absent)
  · split
    · exact Nat.le_succ _
    · dsimp only
      rw [ChainedTable.length_entries_modify]
      exact Nat.le_succ _

theorem length_pass1Label (state : Pass1State) (instr : Instruction) :
    (pass1Label instructions state instr).symtable.entries.length ≤
      state.symtable.entries.length + 1 := by
  unfold pass1Label
  split
  · exact Nat.le_succ _
  · next label isLabel =>
      have bound := length_symtableInsertSection state.symtable label state.currentSection
        (state.offsets.get state.currentSection)
      split
      · next inserted => rwa [inserted] at bound
      · exact Nat.le_succ _

/-- A statement enters one symbol or none. -/
theorem length_pass1Step (state : Pass1State) (instr : Instruction) :
    (pass1Step instructions state instr).symtable.entries.length ≤
      state.symtable.entries.length + 1 := by
  have same : ∀ {next : Pass1State}, next.symtable = state.symtable →
      next.symtable.entries.length ≤ state.symtable.entries.length + 1 := by
    intro next equal
    rw [equal]
    exact Nat.le_succ _
  have visibility : ∀ binding, (pass1Visibility instructions state instr binding).symtable.entries.length
      ≤ state.symtable.entries.length + 1 := by
    intro binding
    unfold pass1Visibility
    split
    · next label _ _ _ _ =>
        have bound := length_symtableDeclareBinding state.symtable label binding
        split
        · next declared => rwa [declared] at bound
        · exact same rfl
    · exact same rfl
  have dataDirective : (pass1DataDirective instructions state instr).symtable.entries.length ≤
      state.symtable.entries.length + 1 := by
    unfold pass1DataDirective
    split
    · exact same rfl
    · split
      · exact same rfl
      · split
        · exact same rfl
        · have bound := @length_pass1Label instructions { state with
            alignments := pass1NoteAlignment state.alignments state.currentSection instr } instr
          dsimp only at bound ⊢
          split <;> exact bound
  unfold pass1Step
  split
  · rw [pass1Statement_symtable]
    exact length_pass1Label state instr
  · exact same rfl
  · exact same rfl
  · exact same rfl
  · exact same rfl
  · unfold pass1External
    split
    · next label _ _ _ _ =>
        have bound := length_symtableDeclareExternal state.symtable label
        split
        · next declared => rwa [declared] at bound
        · exact same rfl
    · exact same rfl
  · unfold pass1DebugFile
    split <;> exact same rfl
  · unfold pass1DebugFile
    split <;> exact same rfl
  · unfold pass1DebugLocation
    split <;> exact same rfl
  · exact visibility .global
  · exact visibility .local
  · exact same rfl
  all_goals exact dataDirective

/-- The symbols are no more than the statements. -/
theorem length_pass1Walk (statements : List Instruction) :
    (pass1Walk instructions statements).symtable.entries.length ≤ statements.length := by
  have walked : ∀ (statements : List Instruction) (state : Pass1State),
      (statements.foldl (pass1Step instructions) state).symtable.entries.length ≤
        state.symtable.entries.length + statements.length := by
    intro statements
    induction statements with
    | nil => exact fun _ => Nat.le_refl _
    | cons instr statements inductionHypothesis =>
        intro state
        have step := @length_pass1Step instructions state instr
        have rest := inductionHypothesis (pass1Step instructions state instr)
        rw [List.foldl_cons, List.length_cons]
        omega
  have empty : Pass1State.init.symtable.entries.length = 0 := by
    rw [List.length_eq_zero_iff, List.eq_nil_iff_forall_not_mem]
    intro entry member
    exact absurd (ChainedTable.mem_entries_iff.mp member) (by simp [Pass1State.init])
  have whole := walked statements .init
  rwa [empty, Nat.zero_add] at whole

end Growth

/-! ## The partition -/

/-- The symbols of a table: each defined or external entry once, locals before
globals and counted, each kind in the order of the table, under distinct names. -/
structure StablePartition (symtable : SymbolTable) (symbols : OutputSymbolList) : Prop where
  each : symbols.data.Perm ((symtable.entries.filter isOutputSymbol).map outputSymbol)
  stable : ∀ binding, symbols.data.filter (fun symbol => decide (symbol.binding = binding)) =
    ((symtable.entries.filter isOutputSymbol).map outputSymbol).filter
      fun symbol => decide (symbol.binding = binding)
  localsFirst : ∀ (place : Nat) symbol, symbols.data[place]? = some symbol →
    (symbol.binding = .local ↔ place < symbols.localCount)
  localCount : symbols.localCount =
    symbols.data.countP fun symbol => decide (symbol.binding = .local)
  distinct : (symbols.data.map OutputSymbol.name).Nodup

theorem filter_collectBinding (symtable : SymbolTable) (wanted binding : SymbolBinding) :
    (collectBinding symtable binding).filter (fun symbol => decide (symbol.binding = wanted)) =
      if wanted = binding then collectBinding symtable binding else [] := by
  split
  · next same =>
      refine List.filter_eq_self.mpr fun symbol member => ?_
      rw [binding_of_collected member, same]
      exact decide_eq_true rfl
  · next other =>
      refine List.filter_eq_nil_iff.mpr fun symbol member => ?_
      rw [binding_of_collected member, decide_eq_true_eq]
      exact fun same => other same.symm

theorem stablePartition_of_collected {symtable : SymbolTable} {symbols : OutputSymbolList}
    (collected : outputSymbolsCollect symtable = some symbols) :
    StablePartition symtable symbols := by
  obtain rfl := outputSymbolsCollect_eq_some collected
  have parts : ∀ wanted, (objectSymbolList symtable).filter
      (fun symbol => decide (symbol.binding = wanted)) = collectBinding symtable wanted := by
    intro wanted
    rw [objectSymbolList, List.filter_append, filter_collectBinding, filter_collectBinding]
    cases wanted <;> simp
  refine ⟨perm_objectSymbolList symtable, fun binding => ?_, fun place symbol isSymbol => ?_, ?_,
    nodup_objectSymbolList symtable⟩
  · rw [parts, List.filter_map, List.filter_filter, collectBinding]
    congr 1
    refine List.filter_congr fun entry _ => ?_
    rw [Bool.and_comm]
    rfl
  · rw [objectSymbolList] at isSymbol
    by_cases inLocals : place < (collectBinding symtable .local).length
    · rw [List.getElem?_append_left inLocals] at isSymbol
      exact iff_of_true (binding_of_collected (List.mem_of_getElem? isSymbol)) inLocals
    · rw [List.getElem?_append_right (Nat.le_of_not_lt inLocals)] at isSymbol
      refine iff_of_false ?_ inLocals
      rw [binding_of_collected (List.mem_of_getElem? isSymbol)]
      exact fun same => by contradiction
  · rw [List.countP_eq_length_filter, parts]

/-- An index that is found denotes the one symbol of its name. -/
structure ExactIndex (symbols : OutputSymbolList) : Prop where
  found : ∀ name index, outputSymbolsFindIndex symbols name = some index ↔
    ∃ place symbol, index = place + 1 ∧ symbols.data[place]? = some symbol ∧ symbol.name = name
  succeeds : ∀ name, (outputSymbolsFindIndex symbols name).isSome = true ↔
    name ∈ symbols.data.map OutputSymbol.name
  unique : ∀ (place other : Nat) symbol otherSymbol, symbols.data[place]? = some symbol →
    symbols.data[other]? = some otherSymbol → symbol.name = otherSymbol.name → place = other
  fits : ∀ name index, outputSymbolsFindIndex symbols name = some index → index < 2 ^ 32

theorem exactIndex_of_collected {symtable : SymbolTable} {symbols : OutputSymbolList}
    (collected : outputSymbolsCollect symtable = some symbols) : ExactIndex symbols := by
  have distinct := (stablePartition_of_collected collected).distinct
  have unique : ∀ (place other : Nat) symbol otherSymbol, symbols.data[place]? = some symbol →
      symbols.data[other]? = some otherSymbol → symbol.name = otherSymbol.name →
      place = other := by
    intro place other symbol otherSymbol isSymbol isOther same
    have inRange := (List.getElem?_eq_some_iff.mp isSymbol).1
    refine (List.getElem?_inj (by rwa [List.length_map]) distinct).mp ?_
    rw [List.getElem?_map, List.getElem?_map, isSymbol, isOther, Option.map_some, Option.map_some,
      same]
  have succeeds : ∀ name, (outputSymbolsFindIndex symbols name).isSome = true ↔
      name ∈ symbols.data.map OutputSymbol.name := by
    intro name
    rw [outputSymbolsFindIndex, Option.isSome_map, List.findIdx?_isSome, List.any_eq_true,
      List.mem_map]
    simp only [decide_eq_true_eq]
  refine ⟨fun name index => ⟨outputSymbolsFindIndex_eq_some, ?_⟩, succeeds, unique, ?_⟩
  · rintro ⟨place, symbol, rfl, isSymbol, isName⟩
    have listed : name ∈ symbols.data.map OutputSymbol.name :=
      List.mem_map.mpr ⟨symbol, List.mem_of_getElem? isSymbol, isName⟩
    obtain ⟨index, found⟩ := Option.isSome_iff_exists.mp ((succeeds name).mpr listed)
    obtain ⟨other, otherSymbol, rfl, isOther, otherName⟩ := outputSymbolsFindIndex_eq_some found
    rw [found, unique place other symbol otherSymbol isSymbol isOther (isName.trans otherName.symm)]
  · intro name index found
    obtain ⟨place, symbol, rfl, isSymbol, -⟩ := outputSymbolsFindIndex_eq_some found
    have inRange := (List.getElem?_eq_some_iff.mp isSymbol).1
    have few := length_of_collected collected
    rw [uint32Max] at few
    omega

/-! ## Indices in the objects -/

/-- In the table of an ELF object, the index of a relocation denotes the record
of the symbol of its name. -/
def ElfIndexDenotes (contents : ElfContents) (relocation : Relocation) (rela : ElfRela) : Prop :=
  ∃ place symbol, contents.symbols.data[place]? = some symbol ∧
    symbol.name = relocation.symbol ∧
    (elfSymbols contents.input contents.numbers contents.symbols)[rela.symbolIndex]? =
      some (elfSymbol contents.numbers symbol
        (1 + (ByteFile.strings ((symbolNames contents.symbols).take place)).length))

/-- The same in the table of a COFF object. -/
def CoffIndexDenotes (contents : CoffContents) (relocation : Relocation) (reloc : CoffReloc) :
    Prop :=
  ∃ symbol ∈ contents.symbols.data, ∃ sym, symbol.name = relocation.symbol ∧
    contents.symtab[reloc.symbolIndex.toNat]? = some sym ∧ sym.name = relocation.symbol ∧
      ∃ nameOffset, sym = contents.symbol symbol nameOffset

theorem elfIndex_denotes {contents : ElfContents} {section_ : RelocationSection}
    {relas : List ElfRela}
    (written : elfRelas contents.input contents.symbols section_ = some relas) :
    List.Forall₂ (ElfIndexDenotes contents) (relocationsIn contents.input.relocations section_)
      relas := by
  refine (ByteFile.forall₂_of_mapM written).imp fun relocation rela isRela => ?_
  obtain ⟨index, found, rfl⟩ := Option.map_eq_some_iff.mp isRela
  obtain ⟨place, symbol, rfl, isSymbol, isName⟩ := outputSymbolsFindIndex_eq_some found
  exact ⟨place, symbol, isSymbol, isName, elfSymbols_getElem? isSymbol⟩

theorem coffIndex_denotes {contents : CoffContents} {symtable : SymbolTable}
    (collected : outputSymbolsCollect symtable = some contents.symbols)
    {section_ : RelocationSection} {relocs : List CoffReloc}
    (written : coffRelocs contents.input contents.symbols section_ = some relocs) :
    List.Forall₂ (CoffIndexDenotes contents) (relocationsIn contents.input.relocations section_)
      relocs := by
  refine (ByteFile.forall₂_of_mapM written).imp fun relocation reloc isReloc => ?_
  obtain ⟨index, found, rfl⟩ := Option.map_eq_some_iff.mp isReloc
  have small := (exactIndex_of_collected collected).fits _ _ found
  obtain ⟨place, symbol, rfl, isSymbol, isName⟩ := outputSymbolsFindIndex_eq_some found
  refine ⟨symbol, List.mem_of_getElem? isSymbol,
    contents.symbol symbol (contents.nameOffset (place + 1) symbol.name), isName, ?_, isName, _, rfl⟩
  dsimp only
  rw [CoffContents.toNat_cast_iff.mpr small]
  exact CoffContents.symtab_symbol isSymbol

/-! ## The result -/

/-- The output symbols of a table of pass 1 are a stable partition of its defined
and external entries, and an index into them denotes the symbol of its name in
both objects. Only a list of more than 2^32 - 2 statements can have too many. -/
theorem output_symbols_partition (instructions : InstructionList) :
    let symtable := (pass1Run instructions).symtable
    outputSymbolsCollectInto symtable = some ((outputSymbolsCollect symtable).map fun symbols =>
      (symbols.data.map some, symbols.data.length, symbols.localCount)) ∧
    (instructions.data.length ≤ 2 ^ 32 - 2 → (outputSymbolsCollect symtable).isSome = true) ∧
    (∀ src : SourceBuffer, src.data.length ≤ nazmApiMaxSourceSize →
      instructions = sourceInstructions src → (outputSymbolsCollect symtable).isSome = true) ∧
    ∀ symbols, outputSymbolsCollect symtable = some symbols →
      StablePartition symtable symbols ∧ ExactIndex symbols ∧
      (∀ contents : ElfContents, contents.symbols = symbols → ∀ section_ relas,
        elfRelas contents.input contents.symbols section_ = some relas →
        List.Forall₂ (ElfIndexDenotes contents)
          (relocationsIn contents.input.relocations section_) relas) ∧
      (∀ contents : CoffContents, contents.symbols = symbols → ∀ section_ relocs,
        coffRelocs contents.input contents.symbols section_ = some relocs →
        List.Forall₂ (CoffIndexDenotes contents)
          (relocationsIn contents.input.relocations section_) relocs) := by
  intro symtable
  have bounded : instructions.data.length ≤ 2 ^ 32 - 2 →
      (outputSymbolsCollect symtable).isSome = true := by
    intro few
    have entries := @length_pass1Walk instructions instructions.data
    have chosen := List.length_filter_le isOutputSymbol symtable.entries
    have same : symtable = (pass1Walk instructions instructions.data).symtable := rfl
    rw [← same] at entries
    rw [outputSymbolsCollect, if_neg (by rw [uint32Max]; omega)]
    rfl
  refine ⟨outputSymbolsCollectInto_eq symtable, bounded, ?_, fun symbols collected => ?_⟩
  · rintro src limit rfl
    have light := sourceWeight_le limit
    have few := length_le_weight (sourceInstructions src).data
    rw [sourceWeight] at light
    exact bounded (by omega)
  · refine ⟨stablePartition_of_collected collected, exactIndex_of_collected collected, ?_, ?_⟩
    · rintro contents rfl section_ relas written
      exact elfIndex_denotes written
    · rintro contents rfl section_ relocs written
      exact coffIndex_denotes collected written

/-- A local label that calls an external name, and a global label. -/
def threeKinds : SourceBuffer := ⟨utf8 ".خارجي خ\n.عام ب\nأ: ناد خ\nب: ارجع\n", none⟩

/-- The local symbol comes first, and the index of the call denotes the external one. -/
theorem output_symbols_partition_threeKinds : ∃ symbols elf coff,
    outputSymbolsCollect (sourcePass1 threeKinds).symtable = some symbols ∧
      symbols.data.map OutputSymbol.name = [utf8 "أ", utf8 "خ", utf8 "ب"] ∧
      symbols.localCount = 1 ∧
      StablePartition (sourcePass1 threeKinds).symtable symbols ∧ ExactIndex symbols ∧
      (relocationsIn (sourceOutput threeKinds).relocations .text).map Relocation.symbol =
        [utf8 "خ"] ∧
      FromSource threeKinds elf ∧
      List.Forall₂ (ElfIndexDenotes elf)
        (relocationsIn elf.input.relocations .text) elf.relaText ∧
      coffContents (sourceOutput threeKinds) = .ok coff ∧
      List.Forall₂ (CoffIndexDenotes coff)
        (relocationsIn coff.input.relocations .text) coff.textRelocs := by
  obtain ⟨-, few, -, exact_⟩ := output_symbols_partition (sourceInstructions threeKinds)
  have short : (sourceInstructions threeKinds).data.length ≤ 2 ^ 32 - 2 := by decide +kernel
  obtain ⟨symbols, collected⟩ := Option.isSome_iff_exists.mp (few short)
  obtain ⟨partition, index, ofElf, ofCoff⟩ := exact_ symbols collected
  have isList := outputSymbolsCollect_eq_some collected
  obtain ⟨elf, from_⟩ := @fromSource_of_written threeKinds (by decide +kernel)
  obtain ⟨coff, written⟩ := @coffContents_of_written threeKinds (by decide +kernel)
  have built := coffBuilt_of_contents written
  have coffRelocations : coffRelocs coff.input coff.symbols .text = some coff.textRelocs := by
    rw [built.isInput]
    exact built.relocs .text
  refine ⟨symbols, elf, coff, collected, ?_, ?_, partition, index, by decide +kernel, from_,
    ofElf elf (from_.symbols.trans isList.symm) .text _ (from_.relas .text), written,
    ofCoff coff (built.symbols.trans isList.symm) .text _ coffRelocations⟩
  · rw [isList]
    decide +kernel
  · rw [isList]
    decide +kernel

end Nazm.Output
