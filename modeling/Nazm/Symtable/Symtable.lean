import Nazm.Library.ChainedTable

/-!
The symbol table.

Owns `src/symtable/symtable.c` over the chained table of the library: entries,
hashing, definition, visibility and external declarations.

Does not own `symtable_patch` and `symtable_insert`, which nothing calls.
-/

namespace Nazm.Symtable

/-- `SYMTABLE_BUCKETS`. -/
def symtableBuckets : Nat := 256

/-- `SymbolSection`, less `SYMBOL_SECTION_UNKNOWN`, which stands for the
section of an undefined symbol: there the section is `none`. -/
inductive SymbolSection where
  | text | data | readOnlyData | bss
deriving DecidableEq, Repr

inductive SymbolBinding where
  | local | global
deriving DecidableEq, Repr

structure SymEntry where
  name : List UInt8
  offset : Int
  (section? : Option SymbolSection)
  binding : SymbolBinding
  defined : Bool
  bindingDeclared : Bool
  externalDeclared : Bool
deriving DecidableEq

/-- `hash_str`: FNV-1a over 32 bits. -/
def hashStr (s : List UInt8) : UInt32 :=
  s.foldl (fun h byte => (h ^^^ byte.toUInt32) * 16777619) 2166136261

def bucketIndex (name : List UInt8) : Fin symtableBuckets :=
  ⟨(hashStr name).toNat % symtableBuckets, Nat.mod_lt _ (by decide)⟩

/-- `SymbolTable`; its `count` is the number of its entries. -/
abbrev SymbolTable := ChainedTable SymEntry.name bucketIndex

/-- `find_entry`. -/
def findEntry (st : SymbolTable) (name : List UInt8) : Option SymEntry := st.find name

/-- `symtable_insert_section`; `false` for a symbol already defined or external. -/
def symtableInsertSection (st : SymbolTable) (name : List UInt8) (section_ : SymbolSection)
    (offset : Int) : SymbolTable × Bool :=
  match absent : ChainedTable.find st name with
  | some e =>
      if e.defined || e.externalDeclared then (st, false)
      else
        (st.modify name
          (fun e => { e with offset := offset, section? := some section_, defined := true })
          (fun _ => rfl), true)
  | none => (st.push ⟨name, offset, some section_, .local, true, false, false⟩ absent, true)

/-- `symtable_declare_binding`; `false` for a conflicting declaration. -/
def symtableDeclareBinding (st : SymbolTable) (name : List UInt8) (binding : SymbolBinding) :
    SymbolTable × Bool :=
  match absent : ChainedTable.find st name with
  | none => (st.push ⟨name, 0, none, binding, false, true, false⟩ absent, true)
  | some e =>
      if e.bindingDeclared && decide (e.binding ≠ binding) then (st, false)
      else
        (st.modify name (fun e => { e with binding := binding, bindingDeclared := true })
          (fun _ => rfl), true)

/-- `symtable_declare_external`; `false` for a defined or local symbol. -/
def symtableDeclareExternal (st : SymbolTable) (name : List UInt8) : SymbolTable × Bool :=
  match absent : ChainedTable.find st name with
  | none => (st.push ⟨name, 0, none, .global, false, true, true⟩ absent, true)
  | some e =>
      if e.defined || (e.bindingDeclared && decide (e.binding ≠ .global)) then (st, false)
      else
        (st.modify name
          (fun e =>
            { e with section? := none, binding := .global, bindingDeclared := true,
                     externalDeclared := true })
          (fun _ => rfl), true)

/-- `symtable_is_external`. -/
def symtableIsExternal (st : SymbolTable) (name : List UInt8) : Bool :=
  match findEntry st name with
  | some e => e.externalDeclared && !e.defined
  | none => false

/-- `symtable_lookup_ex`: offset and section of a defined symbol. -/
def symtableLookupEx (st : SymbolTable) (name : List UInt8) :
    Option (Int × Option SymbolSection) :=
  match findEntry st name with
  | some e => if e.defined then some (e.offset, e.section?) else none
  | none => none

/-! ## What lookup returns after each change -/

theorem symtableLookupEx_of_find {st : SymbolTable} {name : List UInt8} {e : SymEntry}
    (found : ChainedTable.find st name = some e) :
    symtableLookupEx st name = if e.defined then some (e.offset, e.section?) else none := by
  rw [symtableLookupEx, findEntry, found]

theorem symtableLookupEx_of_absent {st : SymbolTable} {name : List UInt8}
    (absent : ChainedTable.find st name = none) : symtableLookupEx st name = none := by
  rw [symtableLookupEx, findEntry, absent]

@[simp] theorem symtableLookupEx_empty (name : List UInt8) :
    symtableLookupEx ChainedTable.empty name = none :=
  rfl

/-- A definition that is let in is new, and the only change. -/
theorem symtableInsertSection_lookup {st changed : SymbolTable} {name : List UInt8}
    {section_ : SymbolSection} {offset : Int}
    (inserted : symtableInsertSection st name section_ offset = (changed, true)) :
    symtableLookupEx st name = none ∧
      ∀ other, symtableLookupEx changed other =
        if other = name then some (offset, some section_) else symtableLookupEx st other := by
  unfold symtableInsertSection at inserted
  split at inserted
  · next e found =>
      split at inserted
      · simp at inserted
      · next free =>
          obtain ⟨rfl, -⟩ := Prod.mk.inj inserted
          simp only [Bool.or_eq_true, not_or, Bool.not_eq_true] at free
          refine ⟨by rw [symtableLookupEx_of_find found, if_neg (by simp [free.1])], fun other => ?_⟩
          rw [symtableLookupEx, findEntry, ChainedTable.find_modify]
          by_cases same : other = name
          · simp [same, found]
          · rw [if_neg same, if_neg same]
            rfl
  · next absent =>
      obtain ⟨rfl, -⟩ := Prod.mk.inj inserted
      refine ⟨symtableLookupEx_of_absent absent, fun other => ?_⟩
      rw [symtableLookupEx, findEntry, ChainedTable.find_push]
      by_cases same : other = name
      · simp [same]
      · rw [if_neg same, if_neg same]
        rfl

/-- Visibility does not change a definition. -/
theorem symtableDeclareBinding_lookup {st changed : SymbolTable} {name : List UInt8}
    {binding : SymbolBinding}
    (declared : symtableDeclareBinding st name binding = (changed, true)) (other : List UInt8) :
    symtableLookupEx changed other = symtableLookupEx st other := by
  unfold symtableDeclareBinding at declared
  split at declared
  · next absent =>
      obtain ⟨rfl, -⟩ := Prod.mk.inj declared
      rw [symtableLookupEx, findEntry, ChainedTable.find_push]
      by_cases same : other = name
      · simp [same, symtableLookupEx_of_absent absent]
      · rw [if_neg same]
        rfl
  · next e found =>
      split at declared
      · simp at declared
      · obtain ⟨rfl, -⟩ := Prod.mk.inj declared
        rw [symtableLookupEx, findEntry, ChainedTable.find_modify]
        by_cases same : other = name
        · simp [same, symtableLookupEx_of_find found, found]
        · rw [if_neg same]
          rfl

/-- Only symbols without a definition become external. -/
theorem symtableDeclareExternal_lookup {st changed : SymbolTable} {name : List UInt8}
    (declared : symtableDeclareExternal st name = (changed, true)) (other : List UInt8) :
    symtableLookupEx changed other = symtableLookupEx st other := by
  unfold symtableDeclareExternal at declared
  split at declared
  · next absent =>
      obtain ⟨rfl, -⟩ := Prod.mk.inj declared
      rw [symtableLookupEx, findEntry, ChainedTable.find_push]
      by_cases same : other = name
      · simp [same, symtableLookupEx_of_absent absent]
      · rw [if_neg same]
        rfl
  · next e found =>
      split at declared
      · simp at declared
      · next free =>
          obtain ⟨rfl, -⟩ := Prod.mk.inj declared
          simp only [Bool.or_eq_true, not_or, Bool.not_eq_true] at free
          rw [symtableLookupEx, findEntry, ChainedTable.find_modify]
          by_cases same : other = name
          · simp [same, symtableLookupEx_of_find found, found, free.1]
          · rw [if_neg same]
            rfl

end Nazm.Symtable
