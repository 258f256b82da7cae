import Nazm.Symtable.Symtable

/-!
The symbol table as buckets of entries and a count.

Owns the calls of `src/symtable/symtable.c` on the structure that the source
has, without an invariant in its type, and that they are those of the chained
table.

Does not own what a run of calls preserves.
-/

namespace Nazm.Symtable

/-- `SymbolTable` as declared: the chain of each bucket, newest entry first, and
the number of entries that were put in. -/
structure BucketTable where
  buckets : Fin symtableBuckets → List SymEntry
  count : Nat

namespace BucketTable

/-- `symtable_init`. -/
def init : BucketTable := ⟨fun _ => [], 0⟩

/-- `find_entry`. -/
def findEntry (st : BucketTable) (name : List UInt8) : Option SymEntry :=
  (st.buckets (bucketIndex name)).find? fun e => e.name = name

/-- `e->next = st->buckets[idx]; st->buckets[idx] = e; st->count++`. -/
def push (st : BucketTable) (e : SymEntry) : BucketTable where
  buckets index := if index = bucketIndex e.name then e :: st.buckets index else st.buckets index
  count := st.count + 1

/-- Assignments to the members of the entry that `find_entry` returned. -/
def assign (st : BucketTable) (name : List UInt8) (change : SymEntry → SymEntry) : BucketTable where
  buckets index :=
    if index = bucketIndex name then
      @ChainedTable.modifyChain _ _ SymEntry.name _ name change (st.buckets index)
    else st.buckets index
  count := st.count

/-- `symtable_insert_section`. -/
def insertSection (st : BucketTable) (name : List UInt8) (section_ : SymbolSection)
    (offset : Int) : BucketTable × Bool :=
  match st.findEntry name with
  | some e =>
      if e.defined || e.externalDeclared then (st, false)
      else
        (st.assign name fun e =>
          { e with offset := offset, section? := some section_, defined := true }, true)
  | none => (st.push ⟨name, offset, some section_, .local, true, false, false⟩, true)

/-- `symtable_declare_binding`. -/
def declareBinding (st : BucketTable) (name : List UInt8) (binding : SymbolBinding) :
    BucketTable × Bool :=
  match st.findEntry name with
  | none => (st.push ⟨name, 0, none, binding, false, true, false⟩, true)
  | some e =>
      if e.bindingDeclared && decide (e.binding ≠ binding) then (st, false)
      else (st.assign name fun e => { e with binding := binding, bindingDeclared := true }, true)

/-- `symtable_declare_external`. -/
def declareExternal (st : BucketTable) (name : List UInt8) : BucketTable × Bool :=
  match st.findEntry name with
  | none => (st.push ⟨name, 0, none, .global, false, true, true⟩, true)
  | some e =>
      if e.defined || (e.bindingDeclared && decide (e.binding ≠ .global)) then (st, false)
      else
        (st.assign name fun e =>
          { e with section? := none, binding := .global, bindingDeclared := true,
                   externalDeclared := true }, true)

/-- `symtable_is_external`. -/
def isExternal (st : BucketTable) (name : List UInt8) : Bool :=
  match st.findEntry name with
  | some e => e.externalDeclared && !e.defined
  | none => false

/-- `symtable_lookup_ex`: `none` for `false`. -/
def lookupEx (st : BucketTable) (name : List UInt8) : Option (Int × Option SymbolSection) :=
  match st.findEntry name with
  | some e => if e.defined then some (e.offset, e.section?) else none
  | none => none

/-- `symtable_lookup_binding`: `none` for `false`. -/
def lookupBinding (st : BucketTable) (name : List UInt8) : Option SymbolBinding :=
  match st.findEntry name with
  | some e => if e.defined then some e.binding else none
  | none => none

/-- All entries, bucket by bucket. -/
def entries (st : BucketTable) : List SymEntry :=
  (List.finRange symtableBuckets).flatMap st.buckets

/-! ## The chained table -/

/-- The buckets of a chained table. -/
def ofTable (st : SymbolTable) : BucketTable := ⟨st.chains, st.entries.length⟩

theorem findEntry_ofTable (st : SymbolTable) (name : List UInt8) :
    (ofTable st).findEntry name = ChainedTable.find st name :=
  rfl

theorem push_ofTable {st : SymbolTable} {e : SymEntry}
    (absent : ChainedTable.find st e.name = none) :
    (ofTable st).push e = ofTable (st.push e absent) := by
  rw [ofTable, ofTable, ChainedTable.length_entries_push]
  rfl

theorem assign_ofTable {st : SymbolTable} {name : List UInt8} {change : SymEntry → SymEntry}
    (keeps : ∀ e : SymEntry, (change e).name = e.name) :
    (ofTable st).assign name change = ofTable (st.modify name change keeps) := by
  rw [ofTable, ofTable, ChainedTable.length_entries_modify]
  rfl

/-- The calls that change the table are those of the chained table. -/
theorem insertSection_ofTable (st : SymbolTable) (name : List UInt8) (section_ : SymbolSection)
    (offset : Int) : (ofTable st).insertSection name section_ offset =
      (ofTable (symtableInsertSection st name section_ offset).1,
        (symtableInsertSection st name section_ offset).2) := by
  unfold symtableInsertSection
  split
  · next e found =>
      have looked : (ofTable st).findEntry name = some e := found
      simp only [insertSection, looked]
      split
      · rfl
      · refine Prod.ext ?_ rfl
        apply assign_ofTable
        exact fun _ => rfl
  · next absent =>
      have looked : (ofTable st).findEntry name = none := absent
      simp only [insertSection, looked]
      exact Prod.ext (push_ofTable absent) rfl

theorem declareBinding_ofTable (st : SymbolTable) (name : List UInt8) (binding : SymbolBinding) :
    (ofTable st).declareBinding name binding =
      (ofTable (symtableDeclareBinding st name binding).1,
        (symtableDeclareBinding st name binding).2) := by
  unfold symtableDeclareBinding
  split
  · next absent =>
      have looked : (ofTable st).findEntry name = none := absent
      simp only [declareBinding, looked]
      exact Prod.ext (push_ofTable absent) rfl
  · next e found =>
      have looked : (ofTable st).findEntry name = some e := found
      simp only [declareBinding, looked]
      split
      · rfl
      · refine Prod.ext ?_ rfl
        apply assign_ofTable
        exact fun _ => rfl

theorem declareExternal_ofTable (st : SymbolTable) (name : List UInt8) :
    (ofTable st).declareExternal name =
      (ofTable (symtableDeclareExternal st name).1, (symtableDeclareExternal st name).2) := by
  unfold symtableDeclareExternal
  split
  · next absent =>
      have looked : (ofTable st).findEntry name = none := absent
      simp only [declareExternal, looked]
      exact Prod.ext (push_ofTable absent) rfl
  · next e found =>
      have looked : (ofTable st).findEntry name = some e := found
      simp only [declareExternal, looked]
      split
      · rfl
      · refine Prod.ext ?_ rfl
        apply assign_ofTable
        exact fun _ => rfl

end BucketTable

end Nazm.Symtable
