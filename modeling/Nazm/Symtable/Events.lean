import Mathlib.Data.List.Pairwise
import Nazm.Library.Walk
import Nazm.Symtable.Symtable

/-!
Runs of definitions and declarations.

Owns the changes that the statements of a program ask of the symbol table as
one list of events, what a run knows of each name, the conditions under which no
event is refused, and that neither these nor the entries depend on the order of
the events.

Does not own which events a program has.
-/

namespace Nazm.Symtable

/-! ## Events -/

inductive SymbolEvent where
  | define (name : List UInt8) (section_ : SymbolSection) (offset : Nat)
  | declare (name : List UInt8) (binding : SymbolBinding)
  | external (name : List UInt8)
deriving DecidableEq

namespace SymbolEvent

def name : SymbolEvent → List UInt8
  | define name _ _ => name
  | declare name _ => name
  | external name => name

/-- The call of the symbol table that an event stands for. -/
def apply (symtable : SymbolTable) : SymbolEvent → SymbolTable × Bool
  | define name section_ offset => symtableInsertSection symtable name section_ offset
  | declare name binding => symtableDeclareBinding symtable name binding
  | external name => symtableDeclareExternal symtable name

/-- The name that an event defines. -/
def definedName? : SymbolEvent → Option (List UInt8)
  | define name _ _ => some name
  | _ => none

/-- The table after an event, or the event where it is refused. -/
def step (symtable : SymbolTable) (event : SymbolEvent) : Except SymbolEvent SymbolTable :=
  match event.apply symtable with
  | (changed, true) => .ok changed
  | (_, false) => .error event

end SymbolEvent

/-! ## What a run knows of a name -/

/-- The definition of a name and the declarations made for it. -/
structure NameFacts where
  definition : Option (SymbolSection × Nat)
  global : Bool
  «local» : Bool
  external : Bool
deriving DecidableEq

namespace NameFacts

def start : NameFacts := ⟨none, false, false, false⟩

def add (facts : NameFacts) : SymbolEvent → NameFacts
  | .define _ section_ offset => { facts with definition := some (section_, offset) }
  | .declare _ .global => { facts with global := true }
  | .declare _ .local => { facts with «local» := true }
  | .external _ => { facts with external := true }

/-- The events that may follow. -/
def admits (facts : NameFacts) : SymbolEvent → Bool
  | .define _ _ _ => facts.definition.isNone && !facts.external
  | .declare _ .global => !facts.local
  | .declare _ .local => !facts.global && !facts.external
  | .external _ => facts.definition.isNone && !facts.local

/-- No two facts exclude each other. -/
structure Consistent (facts : NameFacts) : Prop where
  visible : facts.local = true → facts.global = false ∧ facts.external = false
  undefined : facts.external = true → facts.definition = none

theorem Consistent.start : NameFacts.start.Consistent :=
  ⟨fun absurd => by contradiction, fun absurd => by contradiction⟩

theorem Consistent.add {facts : NameFacts} (consistent : facts.Consistent) {event : SymbolEvent}
    (admitted : facts.admits event = true) : (facts.add event).Consistent := by
  obtain ⟨visible, undefined⟩ := consistent
  cases event with
  | define name section_ offset =>
      simp only [admits, Bool.and_eq_true, Bool.not_eq_true'] at admitted
      exact ⟨visible, fun isExternal => absurd (admitted.2.symm.trans isExternal) (by decide)⟩
  | declare name binding =>
      cases binding with
      | global =>
          simp only [admits, Bool.not_eq_true'] at admitted
          exact ⟨fun isLocal => absurd (admitted.symm.trans isLocal) (by decide), undefined⟩
      | «local» =>
          simp only [admits, Bool.and_eq_true, Bool.not_eq_true'] at admitted
          exact ⟨fun _ => admitted, undefined⟩
  | external name =>
      simp only [admits, Bool.and_eq_true, Bool.not_eq_true', Option.isNone_iff_eq_none] at admitted
      exact ⟨fun isLocal => absurd (admitted.2.symm.trans isLocal) (by decide), fun _ => admitted.1⟩

/-- The entry that says these facts. -/
def entry (name : List UInt8) (facts : NameFacts) : SymEntry :=
  { name := name
    offset := ((facts.definition.map Prod.snd).getD 0 : Nat), section? := facts.definition.map Prod.fst
    binding := if facts.global || facts.external then .global else .local
    defined := facts.definition.isSome
    bindingDeclared := facts.global || facts.local || facts.external
    externalDeclared := facts.external }

/-- The entry of a name with these facts; none where nothing is known. -/
def entry? (name : List UInt8) (facts : NameFacts) : Option SymEntry :=
  if facts = start then none else some (facts.entry name)

/-! ### What the table refuses -/

theorem define_refused (facts : NameFacts) (name : List UInt8) (section_ : SymbolSection)
    (offset : Nat) : ((facts.entry name).defined || (facts.entry name).externalDeclared) =
      !facts.admits (.define name section_ offset) := by
  obtain ⟨definition, global, «local», external⟩ := facts
  cases definition <;> cases external <;> rfl

theorem Consistent.declare_refused {facts : NameFacts} (consistent : facts.Consistent)
    (name : List UInt8) (binding : SymbolBinding) :
    ((facts.entry name).bindingDeclared && decide ((facts.entry name).binding ≠ binding)) =
      !facts.admits (.declare name binding) := by
  obtain ⟨definition, global, «local», external⟩ := facts
  have visible := consistent.visible
  cases binding <;> cases global <;> cases «local» <;> cases external <;>
    simp_all [entry, admits]

theorem Consistent.external_refused {facts : NameFacts} (consistent : facts.Consistent)
    (name : List UInt8) :
    ((facts.entry name).defined || ((facts.entry name).bindingDeclared &&
      decide ((facts.entry name).binding ≠ .global))) = !facts.admits (.external name) := by
  obtain ⟨definition, global, «local», external⟩ := facts
  have visible := consistent.visible
  cases definition <;> cases global <;> cases «local» <;> cases external <;>
    simp_all [entry, admits]

/-- A single event gives a name an entry. -/
theorem add_ne_start (facts : NameFacts) (event : SymbolEvent) : facts.add event ≠ start := by
  intro equal
  cases event with
  | define name section_ offset => exact Option.some_ne_none _ (congrArg definition equal)
  | declare name binding =>
      cases binding with
      | global => exact Bool.noConfusion (congrArg global equal)
      | «local» => exact Bool.noConfusion (congrArg NameFacts.local equal)
  | external name => exact Bool.noConfusion (congrArg external equal)

end NameFacts

/-! ## One event -/

/-- What an event does to a table that has the entry of these facts. -/
structure Applied (symtable : SymbolTable) (facts : NameFacts) (event : SymbolEvent)
    (result : SymbolTable × Bool) : Prop where
  admitted : result.2 = facts.admits event
  entry : result.2 = true →
    ChainedTable.find result.1 event.name = NameFacts.entry? event.name (facts.add event)
  others : result.2 = true → ∀ other, other ≠ event.name →
    ChainedTable.find result.1 other = ChainedTable.find symtable other

section Apply

variable {symtable : SymbolTable} {facts : NameFacts} {name : List UInt8}

theorem entry_of_found {e : SymEntry} (found : facts.entry? name = some e) :
    facts.entry name = e := by
  rw [NameFacts.entry?, Option.ite_none_left_eq_some, Option.some.injEq] at found
  exact found.2

theorem facts_of_absent (absent : facts.entry? name = none) : facts = .start := by
  by_contra known
  rw [NameFacts.entry?, if_neg known] at absent
  contradiction

/-- An event that adds the first entry of its name. -/
theorem applied_of_push {event : SymbolEvent}
    (admitted : NameFacts.start.admits event = true) {e : SymEntry}
    (isEntry : (NameFacts.start.add event).entry event.name = e)
    (fresh : ChainedTable.find symtable e.name = none) :
    Applied symtable .start event (ChainedTable.push symtable e fresh, true) := by
  have sameName : e.name = event.name := by rw [← isEntry]; rfl
  refine ⟨admitted.symm, fun _ => ?_, fun _ other different => ?_⟩
  · rw [ChainedTable.find_push, if_pos sameName.symm, NameFacts.entry?,
      if_neg (NameFacts.add_ne_start _ _), isEntry]
  · rw [ChainedTable.find_push, if_neg (sameName ▸ different)]

/-- An event that changes the entry of its name. -/
theorem applied_of_modify {event : SymbolEvent}
    (isEntry : ChainedTable.find symtable event.name = some (facts.entry event.name))
    (admitted : facts.admits event = true) {change : SymEntry → SymEntry}
    (changed : change (facts.entry event.name) = (facts.add event).entry event.name)
    (keeps : ∀ e, (change e).name = e.name) :
    Applied symtable facts event (ChainedTable.modify symtable event.name change keeps, true) := by
  refine ⟨admitted.symm, fun _ => ?_, fun _ other different => ?_⟩
  · rw [ChainedTable.find_modify, if_pos rfl, isEntry, Option.map_some, changed, NameFacts.entry?,
      if_neg (NameFacts.add_ne_start _ _)]
  · rw [ChainedTable.find_modify, if_neg different]

/-- An event that is refused. -/
theorem applied_of_refusal {event : SymbolEvent} (refused : facts.admits event = false) :
    Applied symtable facts event (symtable, false) :=
  ⟨refused.symm, fun accepted => by contradiction, fun accepted => by contradiction⟩

theorem define_applied (found : ChainedTable.find symtable name = facts.entry? name)
    (section_ : SymbolSection) (offset : Nat) :
    Applied symtable facts (.define name section_ offset)
      (symtableInsertSection symtable name section_ offset) := by
  unfold symtableInsertSection
  split
  · next e isEntry =>
      obtain rfl := entry_of_found (found.symm.trans isEntry)
      have refused := facts.define_refused name section_ offset
      split
      · next taken =>
          rw [refused, Bool.not_eq_true'] at taken
          exact applied_of_refusal taken
      · next free =>
          rw [refused, Bool.not_eq_true', Bool.not_eq_false] at free
          exact @applied_of_modify _ _ (.define name section_ offset) isEntry free _ rfl _
  · next absent =>
      obtain rfl := facts_of_absent (found.symm.trans absent)
      exact @applied_of_push _ (.define name section_ offset) rfl _ rfl absent

theorem declare_applied (consistent : facts.Consistent)
    (found : ChainedTable.find symtable name = facts.entry? name) (binding : SymbolBinding) :
    Applied symtable facts (.declare name binding)
      (symtableDeclareBinding symtable name binding) := by
  unfold symtableDeclareBinding
  split
  · next absent =>
      obtain rfl := facts_of_absent (found.symm.trans absent)
      refine @applied_of_push _ (.declare name binding) ?_ _ ?_ absent
      · cases binding <;> rfl
      · cases binding <;> rfl
  · next e isEntry =>
      obtain rfl := entry_of_found (found.symm.trans isEntry)
      have refused := consistent.declare_refused name binding
      split
      · next conflict =>
          rw [refused, Bool.not_eq_true'] at conflict
          exact applied_of_refusal conflict
      · next free =>
          rw [refused, Bool.not_eq_true', Bool.not_eq_false] at free
          refine @applied_of_modify _ _ (.declare name binding) isEntry free _ ?_ _
          cases binding with
          | global => rfl
          | «local» =>
              simp only [NameFacts.admits, Bool.and_eq_true, Bool.not_eq_true'] at free
              simp [SymbolEvent.name, NameFacts.entry, NameFacts.add, free.1, free.2]

theorem external_applied (consistent : facts.Consistent)
    (found : ChainedTable.find symtable name = facts.entry? name) :
    Applied symtable facts (.external name) (symtableDeclareExternal symtable name) := by
  unfold symtableDeclareExternal
  split
  · next absent =>
      obtain rfl := facts_of_absent (found.symm.trans absent)
      exact @applied_of_push _ (.external name) rfl _ rfl absent
  · next e isEntry =>
      obtain rfl := entry_of_found (found.symm.trans isEntry)
      have refused := consistent.external_refused name
      split
      · next conflict =>
          rw [refused, Bool.not_eq_true'] at conflict
          exact applied_of_refusal conflict
      · next free =>
          rw [refused, Bool.not_eq_true', Bool.not_eq_false] at free
          refine @applied_of_modify _ _ (.external name) isEntry free _ ?_ _
          simp only [NameFacts.admits, Bool.and_eq_true, Option.isNone_iff_eq_none] at free
          simp [SymbolEvent.name, NameFacts.entry, NameFacts.add, free.1]

/-- An event is refused exactly when the facts do not admit it, and changes the
entry of its name to the facts with it. -/
theorem apply_applied {event : SymbolEvent} (consistent : facts.Consistent)
    (found : ChainedTable.find symtable event.name = facts.entry? event.name) :
    Applied symtable facts event (event.apply symtable) := by
  cases event with
  | define name section_ offset => exact define_applied found section_ offset
  | declare name binding => exact declare_applied consistent found binding
  | external name => exact external_applied consistent found

end Apply

/-! ## Runs -/

/-- What a list of events says of a name. -/
def factsOf (name : List UInt8) (events : List SymbolEvent) : NameFacts :=
  (events.filter fun event => decide (event.name = name)).foldl NameFacts.add .start

theorem factsOf_snoc (name : List UInt8) (events : List SymbolEvent) (event : SymbolEvent) :
    factsOf name (events ++ [event]) =
      if event.name = name then (factsOf name events).add event else factsOf name events := by
  rw [factsOf, List.filter_append, List.foldl_append]
  by_cases same : event.name = name
  · simp [same, factsOf]
  · simp [same, factsOf]

/-- What is known of a name comes from an event of that name. -/
theorem exists_event_of_facts {name : List UInt8} {events : List SymbolEvent}
    (known : factsOf name events ≠ .start) : ∃ event ∈ events, event.name = name := by
  by_contra absent
  refine known ?_
  have none : (events.filter fun event => decide (event.name = name)) = [] := by
    refine List.filter_eq_nil_iff.mpr fun event member same => absent ⟨event, member, ?_⟩
    exact of_decide_eq_true same
  rw [factsOf, none]
  rfl

/-- A table with the entries of a list of events. -/
structure HoldsEvents (events : List SymbolEvent) (symtable : SymbolTable) : Prop where
  entries : ∀ name, ChainedTable.find symtable name = NameFacts.entry? name (factsOf name events)
  consistent : ∀ name, (factsOf name events).Consistent

theorem HoldsEvents.start : HoldsEvents [] ChainedTable.empty :=
  ⟨fun _ => rfl, fun _ => .start⟩

theorem HoldsEvents.step {events : List SymbolEvent} {symtable : SymbolTable}
    (holds : HoldsEvents events symtable) (event : SymbolEvent) :
    ((factsOf event.name events).admits event = true →
      ∃ changed, event.step symtable = .ok changed ∧ HoldsEvents (events ++ [event]) changed) ∧
    ((factsOf event.name events).admits event = false → event.step symtable = .error event) := by
  obtain ⟨admitted, entry, others⟩ :=
    apply_applied (holds.consistent event.name) (holds.entries event.name)
  generalize result : event.apply symtable = applied at admitted entry others
  obtain ⟨changed, accepted⟩ := applied
  dsimp only at admitted entry others
  refine ⟨fun yes => ?_, fun no => ?_⟩
  · obtain rfl := admitted.trans yes
    refine ⟨changed, by rw [SymbolEvent.step, result], fun name => ?_, fun name => ?_⟩
    · rw [factsOf_snoc]
      split
      · next same =>
          rw [← same]
          exact entry rfl
      · next different =>
          rw [others rfl name (Ne.symm different)]
          exact holds.entries name
    · rw [factsOf_snoc]
      split
      · next same =>
          rw [← same]
          exact (holds.consistent _).add yes
      · exact holds.consistent name
  · obtain rfl := admitted.trans no
    rw [SymbolEvent.step, result]

/-! ## Facts and events -/

/-- Facts that say which events of a name are in a list. -/
structure Reports (name : List UInt8) (events : List SymbolEvent) (facts : NameFacts) : Prop where
  global : facts.global = true ↔ .declare name .global ∈ events
  «local» : facts.local = true ↔ .declare name .local ∈ events
  external : facts.external = true ↔ .external name ∈ events
  definition : facts.definition = none ↔ name ∉ events.filterMap SymbolEvent.definedName?
  defined : ∀ section_ offset, facts.definition = some (section_, offset) →
    .define name section_ offset ∈ events

theorem Reports.start (name : List UInt8) : Reports name [] .start where
  global := by simp [NameFacts.start]
  «local» := by simp [NameFacts.start]
  external := by simp [NameFacts.start]
  definition := by simp [NameFacts.start]
  defined := by simp [NameFacts.start]

theorem Reports.other {name : List UInt8} {events : List SymbolEvent} {facts : NameFacts}
    (reports : Reports name events facts) {event : SymbolEvent} (other : event.name ≠ name) :
    Reports name (events ++ [event]) facts := by
  have notLast : ∀ mine : SymbolEvent, mine.name = name →
      (mine ∈ events ++ [event] ↔ mine ∈ events) := by
    intro mine isMine
    rw [List.mem_append, List.mem_singleton]
    exact or_iff_left fun last => other (last ▸ isMine)
  refine ⟨?_, ?_, ?_, ?_, fun section_ offset isDefinition => ?_⟩
  · rw [notLast _ rfl]
    exact reports.global
  · rw [notLast _ rfl]
    exact reports.local
  · rw [notLast _ rfl]
    exact reports.external
  · rw [reports.definition, List.filterMap_append, List.mem_append]
    have last : name ∉ [event].filterMap SymbolEvent.definedName? := by
      cases event <;> simp_all [SymbolEvent.definedName?, SymbolEvent.name]
      exact fun same => other same.symm
    simp [last]
  · rw [notLast _ rfl]
    exact reports.defined section_ offset isDefinition

theorem Reports.add {events : List SymbolEvent} {facts : NameFacts} {event : SymbolEvent}
    (reports : Reports event.name events facts) :
    Reports event.name (events ++ [event]) (facts.add event) := by
  obtain ⟨global, isLocal, external, definition, defined⟩ := reports
  cases event with
  | define name section_ offset =>
      refine ⟨?_, ?_, ?_, ?_, fun other place isDefinition => ?_⟩
      · simpa [NameFacts.add, SymbolEvent.name] using global
      · simpa [NameFacts.add, SymbolEvent.name] using isLocal
      · simpa [NameFacts.add, SymbolEvent.name] using external
      · simp [NameFacts.add, SymbolEvent.name, SymbolEvent.definedName?]
      · simp only [NameFacts.add, Option.some.injEq, Prod.mk.injEq] at isDefinition
        simp [SymbolEvent.name, isDefinition]
  | declare name binding =>
      cases binding with
      | global =>
          refine ⟨by simp [NameFacts.add, SymbolEvent.name], ?_, ?_, ?_, fun other place isDefinition =>
            List.mem_append_left _ (defined other place isDefinition)⟩
          · simpa [NameFacts.add, SymbolEvent.name] using isLocal
          · simpa [NameFacts.add, SymbolEvent.name] using external
          · simpa [NameFacts.add, SymbolEvent.name, SymbolEvent.definedName?] using definition
      | «local» =>
          refine ⟨?_, by simp [NameFacts.add, SymbolEvent.name], ?_, ?_, fun other place isDefinition =>
            List.mem_append_left _ (defined other place isDefinition)⟩
          · simpa [NameFacts.add, SymbolEvent.name] using global
          · simpa [NameFacts.add, SymbolEvent.name] using external
          · simpa [NameFacts.add, SymbolEvent.name, SymbolEvent.definedName?] using definition
  | external name =>
      refine ⟨?_, ?_, by simp [NameFacts.add, SymbolEvent.name], ?_, fun other place isDefinition =>
        List.mem_append_left _ (defined other place isDefinition)⟩
      · simpa [NameFacts.add, SymbolEvent.name] using global
      · simpa [NameFacts.add, SymbolEvent.name] using isLocal
      · simpa [NameFacts.add, SymbolEvent.name, SymbolEvent.definedName?] using definition

theorem factsOf_reports (name : List UInt8) (events : List SymbolEvent) :
    Reports name events (factsOf name events) := by
  induction events using List.reverseRecOn with
  | nil => exact .start name
  | append_singleton events event inductionHypothesis =>
      rw [factsOf_snoc]
      split
      · next same =>
          subst same
          exact inductionHypothesis.add
      · next different => exact inductionHypothesis.other different

/-! ## Lists without a refusal -/

/-- Two events that cannot both be let in: a name defined twice, visible in two
ways, or external and defined or local. -/
def Conflicts : SymbolEvent → SymbolEvent → Prop
  | .define first _ _, .define second _ _ => first = second
  | .define first _ _, .external second => first = second
  | .external first, .define second _ _ => first = second
  | .declare first .global, .declare second .local => first = second
  | .declare first .local, .declare second .global => first = second
  | .declare first .local, .external second => first = second
  | .external first, .declare second .local => first = second
  | _, _ => False

theorem Conflicts.symm {first second : SymbolEvent} (conflict : Conflicts first second) :
    Conflicts second first := by
  unfold Conflicts at conflict ⊢
  split at conflict <;> first | exact conflict.symm | contradiction

instance : Std.Symm fun first second : SymbolEvent => ¬ Conflicts first second :=
  ⟨fun _ _ apart conflict => apart conflict.symm⟩

/-- An event is admitted exactly when it conflicts with none before it. -/
theorem admits_iff {events : List SymbolEvent} {event : SymbolEvent} :
    (factsOf event.name events).admits event = true ↔
      ∀ earlier ∈ events, ¬ Conflicts earlier event := by
  obtain ⟨global, isLocal, external, definition, -⟩ := factsOf_reports event.name events
  generalize factsOf event.name events = facts at global isLocal external definition
  have noGlobal := Bool.not_eq_true _ ▸ not_congr global
  have noLocal := Bool.not_eq_true _ ▸ not_congr isLocal
  have noExternal := Bool.not_eq_true _ ▸ not_congr external
  have noDefinition : facts.definition = none ↔
      ∀ earlier ∈ events, earlier.definedName? ≠ some event.name := by
    rw [definition, List.mem_filterMap]
    exact ⟨fun fresh earlier member same => fresh ⟨earlier, member, same⟩,
      fun fresh ⟨earlier, member, same⟩ => fresh earlier member same⟩
  cases event with
  | define name section_ offset =>
      simp only [NameFacts.admits, Bool.and_eq_true, Bool.not_eq_true', Option.isNone_iff_eq_none,
        noDefinition, noExternal]
      constructor
      · rintro ⟨fresh, notExternal⟩ earlier member conflict
        cases earlier with
        | define other _ _ => exact fresh _ member (congrArg some conflict)
        | declare other binding => cases binding <;> exact conflict
        | external other =>
            obtain rfl : other = name := conflict
            exact notExternal member
      · intro free
        refine ⟨fun earlier member same => ?_, fun earlier => free _ earlier rfl⟩
        cases earlier with
        | define other _ _ => exact free _ member (Option.some.inj same)
        | declare other binding => contradiction
        | external other => contradiction
  | declare name binding =>
      cases binding with
      | global =>
          simp only [NameFacts.admits, Bool.not_eq_true', noLocal]
          constructor
          · intro notLocal earlier member conflict
            cases earlier with
            | define other _ _ => exact conflict
            | declare other binding =>
                cases binding with
                | global => exact conflict
                | «local» =>
                    obtain rfl : other = name := conflict
                    exact notLocal member
            | external other => exact conflict
          · exact fun free earlier => free _ earlier rfl
      | «local» =>
          simp only [NameFacts.admits, Bool.and_eq_true, Bool.not_eq_true', noGlobal, noExternal]
          constructor
          · rintro ⟨notGlobal, notExternal⟩ earlier member conflict
            cases earlier with
            | define other _ _ => exact conflict
            | declare other binding =>
                cases binding with
                | global =>
                    obtain rfl : other = name := conflict
                    exact notGlobal member
                | «local» => exact conflict
            | external other =>
                obtain rfl : other = name := conflict
                exact notExternal member
          · exact fun free => ⟨fun earlier => free _ earlier rfl, fun earlier => free _ earlier rfl⟩
  | external name =>
      simp only [NameFacts.admits, Bool.and_eq_true, Bool.not_eq_true', Option.isNone_iff_eq_none,
        noDefinition, noLocal]
      constructor
      · rintro ⟨fresh, notLocal⟩ earlier member conflict
        cases earlier with
        | define other _ _ => exact fresh _ member (congrArg some conflict)
        | declare other binding =>
            cases binding with
            | global => exact conflict
            | «local» =>
                obtain rfl : other = name := conflict
                exact notLocal member
        | external other => exact conflict
      · intro free
        refine ⟨fun earlier member same => ?_, fun earlier => free _ earlier rfl⟩
        cases earlier with
        | define other _ _ => exact free _ member (Option.some.inj same)
        | declare other binding => contradiction
        | external other => contradiction

/-- No two events of a list conflict. -/
def EventsConsistent (events : List SymbolEvent) : Prop :=
  events.Pairwise fun first second => ¬ Conflicts first second

theorem eventsConsistent_snoc {events : List SymbolEvent} {event : SymbolEvent} :
    EventsConsistent (events ++ [event]) ↔
      EventsConsistent events ∧ (factsOf event.name events).admits event = true := by
  rw [admits_iff, EventsConsistent, List.pairwise_append]
  simp [EventsConsistent]

/-- The order of the events does not matter. -/
theorem EventsConsistent.perm {first second : List SymbolEvent} (permuted : first.Perm second) :
    EventsConsistent first ↔ EventsConsistent second :=
  permuted.pairwise_iff fun apart conflict => apart conflict.symm

/-- The same, name by name: no name is defined twice, visible in two ways, or
external and defined or local. -/
theorem eventsConsistent_iff {events : List SymbolEvent} :
    EventsConsistent events ↔
      (events.filterMap SymbolEvent.definedName?).Nodup ∧
      (∀ name, .declare name .global ∈ events → .declare name .local ∉ events) ∧
      ∀ name, .external name ∈ events →
        name ∉ events.filterMap SymbolEvent.definedName? ∧ .declare name .local ∉ events := by
  constructor
  · intro consistent
    have apart : ∀ first second, first ∈ events → second ∈ events → first ≠ second →
        ¬ Conflicts first second := fun _ _ inFirst inSecond =>
      List.Pairwise.forall consistent inFirst inSecond
    refine ⟨?_, fun name isGlobal isLocal => ?_, fun name isExternal => ⟨fun defined => ?_,
      fun isLocal => ?_⟩⟩
    · rw [List.Nodup, List.pairwise_filterMap]
      refine List.Pairwise.imp (fun {first second} free name isFirst other isSecond same => ?_)
        consistent
      subst same
      cases first with
      | define firstName _ _ =>
          cases second with
          | define secondName _ _ =>
              exact free ((Option.some.inj isFirst).trans (Option.some.inj isSecond).symm)
          | declare _ _ => contradiction
          | external _ => contradiction
      | declare _ _ => contradiction
      | external _ => contradiction
    · exact apart _ _ isGlobal isLocal (by simp) rfl
    · obtain ⟨event, member, isName⟩ := List.mem_filterMap.mp defined
      cases event with
      | define other section_ offset =>
          obtain rfl := Option.some.inj isName
          exact apart _ _ member isExternal (by simp) rfl
      | declare _ _ => contradiction
      | external _ => contradiction
    · exact apart _ _ isExternal isLocal (by simp) rfl
  · rintro ⟨distinct, visible, external⟩
    have listed : ∀ name section_ offset, .define name section_ offset ∈ events →
        name ∈ events.filterMap SymbolEvent.definedName? :=
      fun name _ _ member => List.mem_filterMap.mpr ⟨_, member, rfl⟩
    rw [List.Nodup, List.pairwise_filterMap] at distinct
    refine distinct.imp_of_mem fun {first second} inFirst inSecond free conflict => ?_
    unfold Conflicts at conflict
    split at conflict
    · exact free _ rfl _ rfl conflict
    · exact (external _ (conflict ▸ inSecond)).1 (listed _ _ _ inFirst)
    · exact (external _ inFirst).1 (conflict ▸ listed _ _ _ inSecond)
    · exact visible _ inFirst (conflict ▸ inSecond)
    · exact visible _ (conflict ▸ inSecond) inFirst
    · exact (external _ (conflict ▸ inSecond)).2 inFirst
    · exact (external _ inFirst).2 (conflict ▸ inSecond)
    · exact conflict

/-- A run is refused nowhere exactly on a consistent list, and then it holds the
entries of the list. -/
theorem run_events (events : List SymbolEvent) :
    (EventsConsistent events →
      ∃ symtable, Walk.run SymbolEvent.step events ChainedTable.empty = .ok symtable) ∧
    ∀ symtable, Walk.run SymbolEvent.step events ChainedTable.empty = .ok symtable →
      EventsConsistent events ∧ HoldsEvents events symtable := by
  induction events using List.reverseRecOn with
  | nil =>
      refine ⟨fun _ => ⟨_, rfl⟩, fun symtable ran => ?_⟩
      obtain rfl := Except.ok.inj ran
      exact ⟨.nil, .start⟩
  | append_singleton events event inductionHypothesis =>
      obtain ⟨goesOn, arrived⟩ := inductionHypothesis
      refine ⟨fun consistent => ?_, fun symtable ran => ?_⟩
      · obtain ⟨before, admitted⟩ := eventsConsistent_snoc.mp consistent
        obtain ⟨middle, reached⟩ := goesOn before
        obtain ⟨changed, turn, -⟩ := ((arrived middle reached).2.step event).1 admitted
        exact ⟨changed, Walk.run_snoc_of_ok reached turn⟩
      · obtain ⟨middle, reached, turn⟩ := Walk.run_snoc_eq_ok.mp ran
        obtain ⟨before, holds⟩ := arrived middle reached
        obtain ⟨accepted, refused⟩ := holds.step event
        cases admitted : (factsOf event.name events).admits event with
        | false => rw [refused admitted] at turn; contradiction
        | true =>
            obtain ⟨changed, same, next⟩ := accepted admitted
            obtain rfl := Except.ok.inj (same.symm.trans turn)
            exact ⟨eventsConsistent_snoc.mpr ⟨before, admitted⟩, next⟩

/-! ## Order independence -/

/-- In a consistent list, the definition of a name is the event that defines it. -/
theorem factsOf_definition {name : List UInt8} {events : List SymbolEvent}
    (consistent : EventsConsistent events) {section_ : SymbolSection} {offset : Nat} :
    (factsOf name events).definition = some (section_, offset) ↔
      .define name section_ offset ∈ events := by
  obtain ⟨-, -, -, definition, defined⟩ := factsOf_reports name events
  refine ⟨defined section_ offset, fun member => ?_⟩
  cases known : (factsOf name events).definition with
  | none =>
      have listed : name ∈ events.filterMap SymbolEvent.definedName? :=
        List.mem_filterMap.mpr ⟨_, member, rfl⟩
      exact absurd listed (definition.mp known)
  | some found =>
      obtain ⟨other, place⟩ := found
      have isDefined := defined other place known
      by_contra different
      have apart := List.Pairwise.forall consistent member isDefined fun same => by
        obtain ⟨-, rfl, rfl⟩ := SymbolEvent.define.inj same
        exact different rfl
      exact apart rfl

/-- Facts of consistent lists with the same events are the same. -/
theorem factsOf_perm {first second : List SymbolEvent} (permuted : first.Perm second)
    (consistent : EventsConsistent first) (name : List UInt8) :
    factsOf name first = factsOf name second := by
  have consistent' := (EventsConsistent.perm permuted).mp consistent
  obtain ⟨global, isLocal, external, -, -⟩ := factsOf_reports name first
  obtain ⟨global', isLocal', external', -, -⟩ := factsOf_reports name second
  have definition : (factsOf name first).definition = (factsOf name second).definition := by
    refine Option.ext fun place => ?_
    obtain ⟨section_, offset⟩ := place
    rw [factsOf_definition consistent, factsOf_definition consistent', permuted.mem_iff]
  have sameGlobal : (factsOf name first).global = (factsOf name second).global := by
    rw [Bool.eq_iff_iff, global, global', permuted.mem_iff]
  have sameLocal : (factsOf name first).local = (factsOf name second).local := by
    rw [Bool.eq_iff_iff, isLocal, isLocal', permuted.mem_iff]
  have sameExternal : (factsOf name first).external = (factsOf name second).external := by
    rw [Bool.eq_iff_iff, external, external', permuted.mem_iff]
  generalize factsOf name first = one at definition sameGlobal sameLocal sameExternal ⊢
  generalize factsOf name second = two at definition sameGlobal sameLocal sameExternal ⊢
  obtain ⟨_, _, _, _⟩ := one
  obtain ⟨_, _, _, _⟩ := two
  simp_all

end Nazm.Symtable
