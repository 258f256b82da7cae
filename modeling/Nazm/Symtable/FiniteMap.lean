import Mathlib.Logic.Function.Basic
import Nazm.Symtable.Buckets

/-!
The symbol table as a finite map.

Owns what a symbol is known as, the map from names to it that the calls of the
table describe, and that every run of calls on the buckets does what it does on
the map.

Does not own which calls a program makes.
-/

namespace Nazm.Symtable

/-! ## Calls -/

/-- The calls of `symtable.h` that the passes and the writers make, with known
sections only. -/
inductive SymtableCall where
  | insertSection (name : List UInt8) (section_ : SymbolSection) (offset : Int)
  | declareBinding (name : List UInt8) (binding : SymbolBinding)
  | declareExternal (name : List UInt8)
  | isExternal (name : List UInt8)
  | lookupEx (name : List UInt8)
  | lookupBinding (name : List UInt8)
deriving DecidableEq

inductive SymtableAnswer where
  | accepted (yes : Bool)
  | place (found : Option (Int × Option SymbolSection))
  | binding (found : Option SymbolBinding)
deriving DecidableEq

namespace SymtableCall

def name : SymtableCall → List UInt8
  | insertSection name _ _ => name
  | declareBinding name _ => name
  | declareExternal name => name
  | isExternal name => name
  | lookupEx name => name
  | lookupBinding name => name

/-- Whether a call may change the table. -/
def changes : SymtableCall → Bool
  | insertSection _ _ _ => true
  | declareBinding _ _ => true
  | declareExternal _ => true
  | _ => false

end SymtableCall

/-- A call on the buckets: the table after it, and its answer. -/
def BucketTable.call (st : BucketTable) : SymtableCall → BucketTable × SymtableAnswer
  | .insertSection name section_ offset =>
      let (st, accepted) := st.insertSection name section_ offset
      (st, .accepted accepted)
  | .declareBinding name binding =>
      let (st, accepted) := st.declareBinding name binding
      (st, .accepted accepted)
  | .declareExternal name =>
      let (st, accepted) := st.declareExternal name
      (st, .accepted accepted)
  | .isExternal name => (st, .accepted (st.isExternal name))
  | .lookupEx name => (st, .place (st.lookupEx name))
  | .lookupBinding name => (st, .binding (st.lookupBinding name))

/-- Calls one after the other, and their answers. -/
def BucketTable.run : List SymtableCall → BucketTable → BucketTable × List SymtableAnswer
  | [], st => (st, [])
  | call :: calls, st =>
      let (st, answer) := st.call call
      let (st, answers) := st.run calls
      (st, answer :: answers)

/-! ## The map -/

/-- What a name is known as: declared visible before its definition, defined
with the visibility declared for it so far, or left to the linker. -/
inductive SymbolRecord where
  | declared (binding : SymbolBinding)
  | defined (section_ : SymbolSection) (offset : Int) (binding? : Option SymbolBinding)
  | external
deriving DecidableEq

namespace SymbolRecord

/-- The definition of a name. -/
def definition? : SymbolRecord → Option (SymbolSection × Int)
  | defined section_ offset _ => some (section_, offset)
  | _ => none

/-- The explicit visibility of a name. -/
def binding? : SymbolRecord → Option SymbolBinding
  | declared binding => some binding
  | defined _ _ binding? => binding?
  | external => some .global

/-- The entry that says so: a symbol without a declaration is local. -/
def entry (name : List UInt8) (record : SymbolRecord) : SymEntry :=
  { name := name
    offset := (record.definition?.map Prod.snd).getD 0, section? := record.definition?.map Prod.fst
    binding := record.binding?.getD .local
    defined := record.definition?.isSome
    bindingDeclared := record.binding?.isSome
    externalDeclared := decide (record = external) }

/-- A definition: only for what has none and is not left to the linker. -/
def define (section_ : SymbolSection) (offset : Int) : Option SymbolRecord → Option SymbolRecord
  | none => some (defined section_ offset none)
  | some (declared binding) => some (defined section_ offset (some binding))
  | some (defined _ _ _) => none
  | some external => none

/-- A declaration of visibility: the first, or one that says the same. -/
def declare (binding : SymbolBinding) : Option SymbolRecord → Option SymbolRecord
  | none => some (declared binding)
  | some (declared other) => if other = binding then some (declared other) else none
  | some (defined section_ offset none) => some (defined section_ offset (some binding))
  | some (defined section_ offset (some other)) =>
      if other = binding then some (defined section_ offset (some other)) else none
  | some external => if binding = .global then some external else none

/-- Leaving a name to the linker: one that is not defined and not local. -/
def leave : Option SymbolRecord → Option SymbolRecord
  | none => some external
  | some (declared .global) => some external
  | some (declared .local) => none
  | some (defined _ _ _) => none
  | some external => some external

end SymbolRecord

/-- The records of the names that have one. -/
abbrev SymbolMap := List UInt8 → Option SymbolRecord

namespace SymbolMap

/-- Put what a change makes of a name; a change that makes nothing is refused. -/
def change (map : SymbolMap) (name : List UInt8)
    (make : Option SymbolRecord → Option SymbolRecord) : SymbolMap × SymtableAnswer :=
  match make (map name) with
  | some record => (Function.update map name (some record), .accepted true)
  | none => (map, .accepted false)

/-- A call on the map. -/
def call (map : SymbolMap) : SymtableCall → SymbolMap × SymtableAnswer
  | .insertSection name section_ offset => map.change name (SymbolRecord.define section_ offset)
  | .declareBinding name binding => map.change name (SymbolRecord.declare binding)
  | .declareExternal name => map.change name SymbolRecord.leave
  | .isExternal name => (map, .accepted (decide (map name = some .external)))
  | .lookupEx name =>
      (map, .place (((map name).bind SymbolRecord.definition?).map fun (section_, offset) =>
        (offset, some section_)))
  | .lookupBinding name =>
      (map, .binding ((map name).bind fun record =>
        record.definition?.map fun _ => record.binding?.getD .local))

def run : List SymtableCall → SymbolMap → SymbolMap × List SymtableAnswer
  | [], map => (map, [])
  | call :: calls, map =>
      let (map, answer) := map.call call
      let (map, answers) := map.run calls
      (map, answer :: answers)

/-- The map without names. -/
def empty : SymbolMap := fun _ => none

end SymbolMap

/-! ## Simulation -/

open BucketTable (ofTable)

/-- Buckets that hold the entries of a map, each where its name is looked up. -/
structure Represents (st : BucketTable) (map : SymbolMap) : Prop where
  chained : ∃ table, st = ofTable table
  lookup : ∀ name, st.findEntry name = (map name).map (SymbolRecord.entry name)

namespace Represents

variable {st : BucketTable} {map : SymbolMap}

theorem init : Represents .init .empty where
  chained := ⟨ChainedTable.empty, by
    have none : (@ChainedTable.empty _ _ _ SymEntry.name bucketIndex).entries = [] := by
      simp [ChainedTable.entries, ChainedTable.empty]
    rw [ofTable, none]
    rfl⟩
  lookup _ := rfl

/-- The entry found under a name, by its record. -/
theorem found {name : List UInt8} {record : SymbolRecord} (represents : Represents st map)
    (known : map name = some record) : st.findEntry name = some (record.entry name) := by
  rw [represents.lookup, known]
  rfl

theorem absent {name : List UInt8} (represents : Represents st map) (unknown : map name = none) :
    st.findEntry name = none := by
  rw [represents.lookup, unknown]
  rfl

/-- A table in which only one name has another entry. -/
theorem update {table : SymbolTable} {record : SymbolRecord} {name : List UInt8}
    (represents : Represents st map)
    (stored : ∀ other, ChainedTable.find table other =
      if other = name then some (record.entry name) else st.findEntry other) :
    Represents (ofTable table) (Function.update map name (some record)) where
  chained := ⟨table, rfl⟩
  lookup other := by
    rw [BucketTable.findEntry_ofTable, stored]
    by_cases same : other = name
    · subst same
      rw [if_pos rfl, Function.update_self, Option.map_some]
    · rw [if_neg same, Function.update_of_ne same, represents.lookup]

/-- A new entry. -/
theorem push {name : List UInt8} (represents : Represents st map) (unknown : map name = none)
    (record : SymbolRecord) :
    Represents (st.push (record.entry name)) (Function.update map name (some record)) := by
  obtain ⟨table, rfl⟩ := represents.chained
  have fresh : ChainedTable.find table (record.entry name).name = none := represents.absent unknown
  rw [BucketTable.push_ofTable fresh]
  exact represents.update fun other => ChainedTable.find_push fresh other

/-- An entry whose members are assigned. -/
theorem assign {name : List UInt8} {old new : SymbolRecord} {change : SymEntry → SymEntry}
    (represents : Represents st map) (known : map name = some old)
    (keeps : ∀ e : SymEntry, (change e).name = e.name)
    (changed : change (old.entry name) = new.entry name) :
    Represents (st.assign name change) (Function.update map name (some new)) := by
  obtain ⟨table, rfl⟩ := represents.chained
  have isOld : ChainedTable.find table name = some (old.entry name) := represents.found known
  rw [BucketTable.assign_ofTable keeps]
  refine represents.update fun other => ?_
  rw [ChainedTable.find_modify, isOld, Option.map_some, changed]
  rfl

/-- A definition on the buckets is one on the map. -/
theorem insertSection (represents : Represents st map) (name : List UInt8)
    (section_ : SymbolSection) (offset : Int) :
    Represents (st.call (.insertSection name section_ offset)).1
        (map.call (.insertSection name section_ offset)).1 ∧
      (st.call (.insertSection name section_ offset)).2 =
        (map.call (.insertSection name section_ offset)).2 := by
  simp only [BucketTable.call, BucketTable.insertSection, SymbolMap.call, SymbolMap.change]
  cases known : map name with
  | none =>
      rw [represents.absent known]
      exact ⟨represents.push known (.defined section_ offset none), rfl⟩
  | some record =>
      rw [represents.found known]
      cases record with
      | declared binding => exact ⟨represents.assign known (fun _ => rfl) rfl, rfl⟩
      | defined _ _ _ => exact ⟨represents, rfl⟩
      | external => exact ⟨represents, rfl⟩

/-- A declaration of visibility on the buckets is one on the map. -/
theorem declareBinding (represents : Represents st map) (name : List UInt8)
    (binding : SymbolBinding) :
    Represents (st.call (.declareBinding name binding)).1
        (map.call (.declareBinding name binding)).1 ∧
      (st.call (.declareBinding name binding)).2 = (map.call (.declareBinding name binding)).2 := by
  simp only [BucketTable.call, BucketTable.declareBinding, SymbolMap.call, SymbolMap.change]
  cases known : map name with
  | none =>
      rw [represents.absent known]
      exact ⟨represents.push known (.declared binding), rfl⟩
  | some record =>
      rw [represents.found known]
      cases record with
      | declared other =>
          by_cases same : other = binding
          · subst same
            simp [SymbolRecord.declare, SymbolRecord.entry, SymbolRecord.binding?]
            exact represents.assign known (fun _ => rfl) rfl
          · simp [SymbolRecord.declare, SymbolRecord.entry, SymbolRecord.binding?, same, represents]
      | defined section_ offset declared =>
          cases declared with
          | none => exact ⟨represents.assign known (fun _ => rfl) rfl, rfl⟩
          | some other =>
              by_cases same : other = binding
              · subst same
                simp [SymbolRecord.declare, SymbolRecord.entry, SymbolRecord.binding?]
                exact represents.assign known (fun _ => rfl) rfl
              · simp [SymbolRecord.declare, SymbolRecord.entry, SymbolRecord.binding?, same,
                  represents]
      | external =>
          cases binding with
          | global => exact ⟨represents.assign known (fun _ => rfl) rfl, rfl⟩
          | «local» => exact ⟨represents, rfl⟩

/-- An external declaration on the buckets is one on the map. -/
theorem declareExternal (represents : Represents st map) (name : List UInt8) :
    Represents (st.call (.declareExternal name)).1 (map.call (.declareExternal name)).1 ∧
      (st.call (.declareExternal name)).2 = (map.call (.declareExternal name)).2 := by
  simp only [BucketTable.call, BucketTable.declareExternal, SymbolMap.call, SymbolMap.change]
  cases known : map name with
  | none =>
      rw [represents.absent known]
      exact ⟨represents.push known .external, rfl⟩
  | some record =>
      rw [represents.found known]
      cases record with
      | declared binding =>
          cases binding with
          | global => exact ⟨represents.assign known (fun _ => rfl) rfl, rfl⟩
          | «local» => exact ⟨represents, rfl⟩
      | defined _ _ _ => exact ⟨represents, rfl⟩
      | external => exact ⟨represents.assign known (fun _ => rfl) rfl, rfl⟩

/-- Every call on the buckets is one on the map. -/
theorem call (represents : Represents st map) (call : SymtableCall) :
    Represents (st.call call).1 (map.call call).1 ∧ (st.call call).2 = (map.call call).2 := by
  cases call with
  | insertSection name section_ offset => exact represents.insertSection name section_ offset
  | declareBinding name binding => exact represents.declareBinding name binding
  | declareExternal name => exact represents.declareExternal name
  | isExternal name =>
      refine ⟨represents, ?_⟩
      simp only [BucketTable.call, BucketTable.isExternal, SymbolMap.call, represents.lookup]
      rcases map name with _ | _ | _ | _ <;> rfl
  | lookupEx name =>
      refine ⟨represents, ?_⟩
      simp only [BucketTable.call, BucketTable.lookupEx, SymbolMap.call, represents.lookup]
      rcases map name with _ | _ | _ | _ <;> rfl
  | lookupBinding name =>
      refine ⟨represents, ?_⟩
      simp only [BucketTable.call, BucketTable.lookupBinding, SymbolMap.call, represents.lookup]
      rcases map name with _ | _ | _ | _ <;> rfl

/-- A run on the buckets is one on the map, with the same answers. -/
theorem run (represents : Represents st map) (calls : List SymtableCall) :
    Represents (st.run calls).1 (map.run calls).1 ∧ (st.run calls).2 = (map.run calls).2 := by
  induction calls generalizing st map with
  | nil => exact ⟨represents, rfl⟩
  | cons call calls inductionHypothesis =>
      obtain ⟨next, answer⟩ := represents.call call
      obtain ⟨last, answers⟩ := inductionHypothesis next
      exact ⟨last, congrArg₂ List.cons answer answers⟩

end Represents

/-! ## What a run keeps -/

namespace SymbolRecord

/-- A later record of the same name: its definition and its explicit visibility
are still there. -/
structure Persists (earlier later : SymbolRecord) : Prop where
  definition : earlier.definition? ≠ none → later.definition? = earlier.definition?
  binding : earlier.binding? ≠ none → later.binding? = earlier.binding?

theorem Persists.refl (record : SymbolRecord) : Persists record record := ⟨fun _ => rfl, fun _ => rfl⟩

theorem Persists.trans {first second third : SymbolRecord} (one : Persists first second)
    (two : Persists second third) : Persists first third where
  definition defined := by
    have same := one.definition defined
    rw [two.definition (by rwa [same]), same]
  binding declared := by
    have same := one.binding declared
    rw [two.binding (by rwa [same]), same]

theorem persists_define {section_ : SymbolSection} {offset : Int} {old new : SymbolRecord}
    (made : define section_ offset (some old) = some new) : Persists old new := by
  cases old with
  | declared binding =>
      obtain rfl := Option.some.inj made
      exact ⟨fun defined => absurd rfl defined, fun _ => rfl⟩
  | defined _ _ _ => contradiction
  | external => contradiction

theorem persists_declare {binding : SymbolBinding} {old new : SymbolRecord}
    (made : declare binding (some old) = some new) : Persists old new := by
  cases old with
  | declared other =>
      obtain ⟨-, same⟩ := Option.ite_none_right_eq_some.mp made
      exact Option.some.inj same ▸ .refl _
  | defined section_ offset declared =>
      cases declared with
      | none =>
          obtain rfl := Option.some.inj made
          exact ⟨fun _ => rfl, fun declared => absurd rfl declared⟩
      | some other =>
          obtain ⟨-, same⟩ := Option.ite_none_right_eq_some.mp made
          exact Option.some.inj same ▸ .refl _
  | external =>
      obtain ⟨-, same⟩ := Option.ite_none_right_eq_some.mp made
      exact Option.some.inj same ▸ .refl _

theorem persists_leave {old new : SymbolRecord} (made : leave (some old) = some new) :
    Persists old new := by
  cases old with
  | declared binding =>
      cases binding with
      | global =>
          obtain rfl := Option.some.inj made
          exact ⟨fun defined => absurd rfl defined, fun _ => rfl⟩
      | «local» => contradiction
  | defined _ _ _ => contradiction
  | external => exact Option.some.inj made ▸ .refl _

end SymbolRecord

namespace SymbolMap

variable {map : SymbolMap}

theorem change_persists {name other : List UInt8} {old : SymbolRecord}
    {make : Option SymbolRecord → Option SymbolRecord}
    (persists : ∀ {old new}, make (some old) = some new → SymbolRecord.Persists old new)
    (known : map other = some old) :
    ∃ new, (map.change name make).1 other = some new ∧ SymbolRecord.Persists old new := by
  unfold change
  split
  · next record made =>
      by_cases same : other = name
      · subst same
        rw [known] at made
        exact ⟨record, Function.update_self .., persists made⟩
      · exact ⟨old, (Function.update_of_ne same ..).trans known, .refl old⟩
  · exact ⟨old, known, .refl old⟩

theorem call_persists (call : SymtableCall) {name : List UInt8} {old : SymbolRecord}
    (known : map name = some old) :
    ∃ new, (map.call call).1 name = some new ∧ SymbolRecord.Persists old new := by
  cases call with
  | insertSection _ _ _ => exact change_persists SymbolRecord.persists_define known
  | declareBinding _ _ => exact change_persists SymbolRecord.persists_declare known
  | declareExternal _ => exact change_persists SymbolRecord.persists_leave known
  | isExternal _ => exact ⟨old, known, .refl old⟩
  | lookupEx _ => exact ⟨old, known, .refl old⟩
  | lookupBinding _ => exact ⟨old, known, .refl old⟩

theorem run_persists (calls : List SymtableCall) {name : List UInt8} {old : SymbolRecord}
    (known : map name = some old) :
    ∃ new, (map.run calls).1 name = some new ∧ SymbolRecord.Persists old new := by
  induction calls generalizing map old with
  | nil => exact ⟨old, known, .refl old⟩
  | cons call calls inductionHypothesis =>
      obtain ⟨next, isNext, persists⟩ := call_persists call known
      obtain ⟨new, isNew, more⟩ := inductionHypothesis isNext
      exact ⟨new, isNew, persists.trans more⟩

theorem change_others {name other : List UInt8} {make : Option SymbolRecord → Option SymbolRecord}
    (different : other ≠ name) : (map.change name make).1 other = map other := by
  unfold change
  split
  · exact Function.update_of_ne different ..
  · rfl

theorem call_others (call : SymtableCall) {other : List UInt8} (different : other ≠ call.name) :
    (map.call call).1 other = map other := by
  cases call with
  | insertSection _ _ _ => exact change_others different
  | declareBinding _ _ => exact change_others different
  | declareExternal _ => exact change_others different
  | isExternal _ => rfl
  | lookupEx _ => rfl
  | lookupBinding _ => rfl

end SymbolMap

namespace BucketTable

variable {st : BucketTable}

theorem run_append (calls later : List SymtableCall) :
    (st.run (calls ++ later)).1 = ((st.run calls).1.run later).1 := by
  induction calls generalizing st with
  | nil => rfl
  | cons call calls inductionHypothesis => exact inductionHypothesis

/-- A call that is refused, or only looks, leaves the buckets as they are. -/
theorem call_unchanged {call : SymtableCall}
    (refused : (st.call call).2 = .accepted false ∨ call.changes = false) :
    (st.call call).1 = st := by
  cases call with
  | insertSection name section_ offset =>
      simp only [BucketTable.call, BucketTable.insertSection, SymtableCall.changes] at refused ⊢
      split
      · next found =>
          rw [found] at refused
          split
          · rfl
          · next free => simp [free] at refused
      · next absent =>
          rw [absent] at refused
          simp at refused
  | declareBinding name binding =>
      simp only [BucketTable.call, BucketTable.declareBinding, SymtableCall.changes] at refused ⊢
      split
      · next absent =>
          rw [absent] at refused
          simp at refused
      · next found =>
          rw [found] at refused
          split
          · rfl
          · next free =>
              dsimp only at refused
              rw [if_neg free] at refused
              simp at refused
  | declareExternal name =>
      simp only [BucketTable.call, BucketTable.declareExternal, SymtableCall.changes] at refused ⊢
      split
      · next absent =>
          rw [absent] at refused
          simp at refused
      · next found =>
          rw [found] at refused
          split
          · rfl
          · next free =>
              dsimp only at refused
              rw [if_neg free] at refused
              simp at refused
  | isExternal _ => rfl
  | lookupEx _ => rfl
  | lookupBinding _ => rfl

/-- The joint invariant of the buckets. -/
structure WellFormed (st : BucketTable) : Prop where
  placed : ∀ index, ∀ e ∈ st.buckets index, bucketIndex e.name = index
  unique : (st.entries.map SymEntry.name).Nodup
  listed : ∀ e, e ∈ st.entries ↔ st.findEntry e.name = some e
  count : st.count = st.entries.length
  exclusive : ∀ e ∈ st.entries, ¬(e.defined = true ∧ e.externalDeclared = true)
  known : ∀ e ∈ st.entries, e.defined = true → ∃ section_, e.section? = some section_

/-- What one call may do to the buckets. -/
structure CallExact (st : BucketTable) (call : SymtableCall) : Prop where
  others : ∀ other, other ≠ call.name → (st.call call).1.findEntry other = st.findEntry other
  refused : (st.call call).2 = .accepted false → (st.call call).1 = st
  looked : call.changes = false → (st.call call).1 = st

/-- What stays of the entries of a table in every later one. -/
structure Keeps (earlier later : BucketTable) : Prop where
  definitions : ∀ name e, earlier.findEntry name = some e → e.defined = true →
    ∃ e', later.findEntry name = some e' ∧ e'.defined = true ∧ e'.offset = e.offset ∧
      e'.section? = e.section?
  bindings : ∀ name e, earlier.findEntry name = some e → e.bindingDeclared = true →
    ∃ e', later.findEntry name = some e' ∧ e'.bindingDeclared = true ∧ e'.binding = e.binding

end BucketTable

namespace Represents

variable {st : BucketTable} {map : SymbolMap}

theorem wellFormed (represents : Represents st map) : st.WellFormed := by
  obtain ⟨table, rfl⟩ := represents.chained
  have recorded : ∀ e ∈ (ofTable table).entries, ∃ record, e = SymbolRecord.entry e.name record := by
    intro e member
    have found : (ofTable table).findEntry e.name = some e := ChainedTable.mem_entries_iff.mp member
    rw [represents.lookup, Option.map_eq_some_iff] at found
    obtain ⟨record, -, isEntry⟩ := found
    exact ⟨record, isEntry.symm⟩
  refine ⟨table.placed, ChainedTable.nodup_keys table, fun _ => ChainedTable.mem_entries_iff, rfl,
    fun e member both => ?_, fun e member defined => ?_⟩
  · obtain ⟨record, isEntry⟩ := recorded e member
    rw [isEntry] at both
    rcases record with _ | _ | _
    · exact Bool.false_ne_true both.1
    · exact Bool.false_ne_true both.2
    · exact Bool.false_ne_true both.1
  · obtain ⟨record, isEntry⟩ := recorded e member
    rw [isEntry] at defined ⊢
    rcases record with _ | ⟨section_, _, _⟩ | _
    · contradiction
    · exact ⟨section_, rfl⟩
    · contradiction

theorem callExact (represents : Represents st map) (call : SymtableCall) : st.CallExact call where
  others other different := by
    rw [(represents.call call).1.lookup, SymbolMap.call_others call different, represents.lookup]
  refused refused := BucketTable.call_unchanged (.inl refused)
  looked looked := BucketTable.call_unchanged (.inr looked)

theorem keeps (represents : Represents st map) (later : List SymtableCall) :
    st.Keeps (st.run later).1 := by
  have reached := (represents.run later).1
  constructor
  · intro name e found defined
    rw [represents.lookup, Option.map_eq_some_iff] at found
    obtain ⟨old, isOld, rfl⟩ := found
    obtain ⟨new, isNew, persists⟩ := SymbolMap.run_persists later isOld
    have same := persists.definition (Option.isSome_iff_ne_none.mp defined)
    refine ⟨new.entry name, reached.found isNew, ?_, ?_, ?_⟩ <;>
      simp only [SymbolRecord.entry, same]
    exact defined
  · intro name e found declared
    rw [represents.lookup, Option.map_eq_some_iff] at found
    obtain ⟨old, isOld, rfl⟩ := found
    obtain ⟨new, isNew, persists⟩ := SymbolMap.run_persists later isOld
    have same := persists.binding (Option.isSome_iff_ne_none.mp declared)
    refine ⟨new.entry name, reached.found isNew, ?_, ?_⟩ <;> simp only [SymbolRecord.entry, same]
    exact declared

end Represents

/-- From the initial table every run of calls answers as on the map, ends in
well-formed buckets that hold the map, and keeps definitions and explicit
visibilities in every run that goes on. -/
theorem symtable_refines_map (calls : List SymtableCall) :
    (BucketTable.init.run calls).2 = (SymbolMap.empty.run calls).2 ∧
    (∀ name, (BucketTable.init.run calls).1.findEntry name =
      ((SymbolMap.empty.run calls).1 name).map (SymbolRecord.entry name)) ∧
    (BucketTable.init.run calls).1.WellFormed ∧
    (∀ call, (BucketTable.init.run calls).1.CallExact call) ∧
    ∀ later, (BucketTable.init.run calls).1.Keeps (BucketTable.init.run (calls ++ later)).1 := by
  obtain ⟨represents, answers⟩ := Represents.init.run calls
  refine ⟨answers, represents.lookup, represents.wellFormed, represents.callExact, fun later => ?_⟩
  rw [BucketTable.run_append]
  exact represents.keeps later

end Nazm.Symtable
