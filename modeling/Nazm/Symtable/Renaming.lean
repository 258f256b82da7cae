import Mathlib.Data.Set.Function
import Nazm.Symtable.Events

/-!
Symbol tables under a renaming.

Owns the renaming of events and entries, and that a table of renamed events has
the renamed entries, whatever buckets the new names hash to.

Does not own where the events come from.
-/

namespace Nazm.Symtable

/-! ## Renaming -/

def SymbolEvent.renamed (rename : List UInt8 → List UInt8) : SymbolEvent → SymbolEvent
  | .define name section_ offset => .define (rename name) section_ offset
  | .declare name binding => .declare (rename name) binding
  | .external name => .external (rename name)

def SymEntry.renamed (rename : List UInt8 → List UInt8) (entry : SymEntry) : SymEntry :=
  { entry with name := rename entry.name }

/-- A renaming under which no two of the names of some events become one. -/
def KeepsApart (rename : List UInt8 → List UInt8) (events : List SymbolEvent) : Prop :=
  Set.InjOn rename {name | ∃ event ∈ events, event.name = name}

section Renaming

variable {rename : List UInt8 → List UInt8} {events : List SymbolEvent}

@[simp] theorem SymbolEvent.name_renamed (event : SymbolEvent) :
    (event.renamed rename).name = rename event.name := by
  cases event <;> rfl

theorem NameFacts.add_renamed (facts : NameFacts) (event : SymbolEvent) :
    facts.add (event.renamed rename) = facts.add event := by
  cases event with
  | declare name binding => cases binding <;> rfl
  | _ => rfl

/-- Renamed events say of the new name what the events say of the old one. -/
theorem factsOf_renamed {name : List UInt8}
    (apart : ∀ event ∈ events, rename event.name = rename name → event.name = name) :
    factsOf (rename name) (events.map (SymbolEvent.renamed rename)) = factsOf name events := by
  induction events using List.reverseRecOn with
  | nil => rfl
  | append_singleton events event inductionHypothesis =>
      have before := inductionHypothesis fun earlier member =>
        apart earlier (List.mem_append_left _ member)
      have here := apart event (by simp)
      rw [List.map_append, List.map_singleton, factsOf_snoc, factsOf_snoc, before,
        SymbolEvent.name_renamed, NameFacts.add_renamed]
      by_cases same : event.name = name
      · rw [if_pos same, if_pos (congrArg rename same)]
      · rw [if_neg same, if_neg fun equal => same (here equal)]

theorem entry?_renamed (facts : NameFacts) (name : List UInt8) :
    facts.entry? (rename name) = (facts.entry? name).map (SymEntry.renamed rename) := by
  unfold NameFacts.entry?
  split <;> rfl

theorem conflicts_renamed {first second : SymbolEvent}
    (apart : rename first.name = rename second.name → first.name = second.name) :
    Conflicts (first.renamed rename) (second.renamed rename) ↔ Conflicts first second := by
  have same : rename first.name = rename second.name ↔ first.name = second.name :=
    ⟨apart, congrArg rename⟩
  cases first with
  | define first _ _ =>
      cases second with
      | define second _ _ => exact same
      | declare second binding => exact Iff.rfl
      | external second => exact same
  | declare first binding =>
      cases second with
      | define second _ _ => cases binding <;> exact Iff.rfl
      | declare second other => cases binding <;> cases other <;> first | exact same | exact Iff.rfl
      | external second => cases binding <;> first | exact same | exact Iff.rfl
  | external first =>
      cases second with
      | define second _ _ => exact same
      | declare second binding => cases binding <;> first | exact same | exact Iff.rfl
      | external second => exact Iff.rfl

theorem eventsConsistent_renamed (apart : KeepsApart rename events) :
    EventsConsistent (events.map (SymbolEvent.renamed rename)) ↔ EventsConsistent events := by
  have pair : ∀ {first second : SymbolEvent}, first ∈ events → second ∈ events →
      (Conflicts (first.renamed rename) (second.renamed rename) ↔ Conflicts first second) :=
    fun inFirst inSecond => conflicts_renamed (apart ⟨_, inFirst, rfl⟩ ⟨_, inSecond, rfl⟩)
  rw [EventsConsistent, EventsConsistent, List.pairwise_map]
  constructor
  · exact List.Pairwise.imp_of_mem fun inFirst inSecond free conflict =>
      free ((pair inFirst inSecond).mpr conflict)
  · exact List.Pairwise.imp_of_mem fun inFirst inSecond free conflict =>
      free ((pair inFirst inSecond).mp conflict)

theorem definedNames_renamed :
    (events.map (SymbolEvent.renamed rename)).filterMap SymbolEvent.definedName? =
      (events.filterMap SymbolEvent.definedName?).map rename := by
  rw [List.filterMap_map, List.map_filterMap]
  refine List.filterMap_congr fun event _ => ?_
  cases event <;> rfl

theorem mem_renamed_declare {name : List UInt8} {binding : SymbolBinding} :
    .declare name binding ∈ events.map (SymbolEvent.renamed rename) ↔
      ∃ old, name = rename old ∧ .declare old binding ∈ events := by
  rw [List.mem_map]
  constructor
  · rintro ⟨event, member, equal⟩
    cases event with
    | declare old other =>
        obtain ⟨rfl, rfl⟩ := SymbolEvent.declare.inj equal
        exact ⟨old, rfl, member⟩
    | define _ _ _ => contradiction
    | external _ => contradiction
  · rintro ⟨old, rfl, member⟩
    exact ⟨_, member, rfl⟩

theorem mem_renamed_external {name : List UInt8} :
    .external name ∈ events.map (SymbolEvent.renamed rename) ↔
      ∃ old, name = rename old ∧ .external old ∈ events := by
  rw [List.mem_map]
  constructor
  · rintro ⟨event, member, equal⟩
    cases event with
    | external old =>
        obtain rfl := SymbolEvent.external.inj equal
        exact ⟨old, rfl, member⟩
    | define _ _ _ => contradiction
    | declare _ _ => contradiction
  · rintro ⟨old, rfl, member⟩
    exact ⟨_, member, rfl⟩

theorem exists_define_of_definedName {name : List UInt8}
    (defined : name ∈ events.filterMap SymbolEvent.definedName?) :
    ∃ event ∈ events, event.name = name := by
  obtain ⟨event, member, isName⟩ := List.mem_filterMap.mp defined
  cases event with
  | define other _ _ => exact ⟨_, member, Option.some.inj isName⟩
  | declare _ _ => contradiction
  | external _ => contradiction

end Renaming

/-! ## Tables -/

/-- The second table has the entries of the first under the new names. -/
structure TableRenamed (rename : List UInt8 → List UInt8) (names : List (List UInt8))
    (first second : SymbolTable) : Prop where
  entries : ∀ name ∈ names,
    findEntry second (rename name) = (findEntry first name).map (SymEntry.renamed rename)

namespace TableRenamed

variable {rename : List UInt8 → List UInt8} {names : List (List UInt8)} {first second : SymbolTable}
  {name : List UInt8}

theorem lookup (renamed : TableRenamed rename names first second) (member : name ∈ names) :
    symtableLookupEx second (rename name) = symtableLookupEx first name := by
  rw [symtableLookupEx, symtableLookupEx, renamed.entries name member]
  cases findEntry first name <;> rfl

theorem isExternal (renamed : TableRenamed rename names first second) (member : name ∈ names) :
    symtableIsExternal second (rename name) = symtableIsExternal first name := by
  rw [symtableIsExternal, symtableIsExternal, renamed.entries name member]
  cases findEntry first name <;> rfl

end TableRenamed

end Nazm.Symtable
