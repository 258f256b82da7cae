import Mathlib.Data.List.Perm.Basic
import Nazm.Passes.Acceptance
import Nazm.Passes.Source

/-!
Visibility declarations do not depend on their order.

Owns the lists that differ only in where their visibility lines stand, exactly
when pass 1 accepts such a list, and that it then returns the same entries.

Does not own what the other checks are.
-/

namespace Nazm.Passes

open Nazm.Encoder Nazm.Parser Nazm.Lexer Nazm.Symtable Nazm.Unicode Nazm.Diagnostics

/-! ## Lists and their lines -/

/-- The statements that are no visibility lines. -/
def others (statements : List Instruction) : List Instruction :=
  statements.filter fun instr => !isVisibility instr.directiveKind

/-- The visibility lines. -/
def visibilityLines (statements : List Instruction) : List Instruction :=
  statements.filter fun instr => isVisibility instr.directiveKind

/-- Visibility lines stand alone and name one symbol, and labels stand before
statements and data directives only. -/
structure VisibilityAlone (statements : List Instruction) : Prop where
  alone : ∀ instr ∈ statements, isVisibility instr.directiveKind = true →
    instr.label = none ∧ ∃ label line col endCol, instr.ops = [⟨.label label, line, col, endCol⟩]
  labels : ∀ instr ∈ statements, instr.label.isSome = true → EntersLabel instr

/-- Visibility lines moved and permuted among the other statements. -/
structure Rearranged (first second : List Instruction) : Prop where
  others : others first = others second
  lines : (visibilityLines first).Perm (visibilityLines second)

/-- A line of a kind for a symbol. -/
def Declares (statements : List Instruction) (kind : DirectiveKind) (name : List UInt8) : Prop :=
  ∃ instr ∈ statements, instr.directiveKind = kind ∧
    ∃ line col endCol, instr.ops = [⟨.label name, line, col, endCol⟩]

/-- The labels of a list, in order. -/
def labelNames (statements : List Instruction) : List (List UInt8) :=
  statements.filterMap fun instr => instr.label

/-- What the symbols of a list must be like: no name has two definitions, none
is both `.عام` and `.محلي`, no `.خارجي` name is defined or `.محلي`, and every
name with a visibility is defined or external. -/
structure SymbolsInOrder (statements : List Instruction) : Prop where
  definedOnce : (labelNames statements).Nodup
  oneVisibility : ∀ name, Declares statements .global name → ¬ Declares statements .local name
  external : ∀ name, Declares statements .external name →
    name ∉ labelNames statements ∧ ¬ Declares statements .local name
  resolved : ∀ name, Declares statements .global name ∨ Declares statements .local name →
    name ∈ labelNames statements ∨ Declares statements .external name

/-- The checks that are not about symbols. -/
structure OtherChecks (statements : List Instruction) : Prop where
  passes : ∀ before instr after, statements = before ++ instr :: after →
    isVisibility instr.directiveKind = false → StatementPasses (currentSection before) instr
  files : ((statements.filterMap declaredFile?).map DebugFile.id).Nodup
  located : LocationsDeclared statements

/-! ## Visibility lines take no place -/

theorem aside_of_isVisibility {kind : DirectiveKind} (visible : isVisibility kind = true) :
    sectionSwitch? kind = none ∧ isDataDirective kind = false ∧ kind ≠ .none := by
  cases kind <;> first | contradiction | exact ⟨rfl, rfl, by decide⟩

/-- Each statement stands where it stands without the visibility lines. -/
theorem places_others (layout : Layout) (statements : List Instruction) :
    (layout.places statements).filter (fun place => !isVisibility place.2.directiveKind) =
      layout.places (others statements) := by
  induction statements generalizing layout with
  | nil => rfl
  | cons instr statements inductionHypothesis =>
      rw [Layout.places, others]
      by_cases visible : isVisibility instr.directiveKind = true
      · obtain ⟨noSwitch, noData, directive⟩ := aside_of_isVisibility visible
        rw [List.filter_cons_of_neg (by simp [visible]), List.filter_cons_of_neg (by simp [visible]),
          Layout.place_of_aside _ noSwitch noData directive]
        exact inductionHypothesis layout
      · rw [List.filter_cons_of_pos (by simpa using visible),
          List.filter_cons_of_pos (by simpa using visible), Layout.places, inductionHypothesis]
        rfl

/-- The events of a list are its declarations and the events of the other statements. -/
theorem programEvents_perm (statements : List Instruction) :
    (programEvents statements).Perm
      ((visibilityLines statements).filterMap declaration? ++ programEvents (others statements)) := by
  rw [programEvents, programEvents, visibilityLines, ← places_others]
  generalize Layout.start = layout
  induction statements generalizing layout with
  | nil => exact .nil
  | cons instr statements inductionHypothesis =>
      rw [Layout.places]
      by_cases visible : isVisibility instr.directiveKind = true
      · have isEvent : statementEvent? layout instr = declaration? instr := if_pos visible
        rw [List.filter_cons_of_pos (by exact visible), List.filter_cons_of_neg (by simp [visible]),
          List.filterMap_cons, List.filterMap_cons]
        dsimp only
        rw [isEvent]
        cases declaration? instr with
        | none => exact inductionHypothesis _
        | some event => exact (inductionHypothesis _).cons event
      · rw [List.filter_cons_of_neg (by exact visible), List.filter_cons_of_pos (by simpa using visible),
          List.filterMap_cons, List.filterMap_cons]
        dsimp only
        cases statementEvent? layout instr with
        | none => exact inductionHypothesis _
        | some event =>
            exact ((inductionHypothesis _).cons event).trans List.perm_middle.symm

/-- Rearranged lists ask for the same events. -/
theorem Rearranged.events {first second : List Instruction} (rearranged : Rearranged first second) :
    (programEvents first).Perm (programEvents second) := by
  refine (programEvents_perm first).trans (.trans ?_ (programEvents_perm second).symm)
  rw [rearranged.others]
  exact (rearranged.lines.filterMap _).append_right _

theorem Rearranged.symm {first second : List Instruction} (rearranged : Rearranged first second) :
    Rearranged second first :=
  ⟨rearranged.others.symm, rearranged.lines.symm⟩

theorem perm_of_rearranged {first second : List Instruction} (rearranged : Rearranged first second) :
    first.Perm second := by
  have split : ∀ statements : List Instruction,
      (visibilityLines statements ++ others statements).Perm statements :=
    List.filter_append_perm fun instr : Instruction => isVisibility instr.directiveKind
  refine (split first).symm.trans (.trans ?_ (split second))
  rw [rearranged.others]
  exact rearranged.lines.append_right _

theorem VisibilityAlone.rearranged {first second : List Instruction}
    (alone : VisibilityAlone first) (rearranged : Rearranged first second) :
    VisibilityAlone second :=
  ⟨fun instr member => alone.alone instr ((perm_of_rearranged rearranged).mem_iff.mpr member),
    fun instr member => alone.labels instr ((perm_of_rearranged rearranged).mem_iff.mpr member)⟩

/-! ## The other checks -/

theorem otherChecks_passes_iff {statements : List Instruction} :
    (∀ before instr after, statements = before ++ instr :: after →
      isVisibility instr.directiveKind = false → StatementPasses (currentSection before) instr) ↔
      ∀ place ∈ Layout.start.places (others statements),
        StatementPasses place.1.section_ place.2 := by
  rw [← places_others]
  simp only [List.mem_filter, Bool.not_eq_true']
  constructor
  · rintro passes ⟨layout, instr⟩ ⟨member, other⟩
    obtain ⟨before, after, split, rfl⟩ := mem_places.mp member
    rw [currentSection_eq]
    exact passes before instr after split other
  · intro passes before instr after split other
    rw [← currentSection_eq]
    exact passes (Layout.after before, instr) ⟨mem_places.mpr ⟨before, after, split, rfl⟩, other⟩

theorem declaredFiles_others (statements : List Instruction) :
    statements.filterMap declaredFile? = (others statements).filterMap declaredFile? := by
  rw [others, List.filterMap_filter]
  refine List.filterMap_congr fun instr _ => ?_
  cases visible : isVisibility instr.directiveKind with
  | false => rfl
  | true =>
      refine declaredFile?_of_other ?_
      revert visible
      rw [isDebugFile]
      cases instr.directiveKind <;> simp [isVisibility]

theorem locationsDeclared_others (statements : List Instruction) :
    LocationsDeclared statements ↔ LocationsDeclared (others statements) := by
  rw [LocationsDeclared, LocationsDeclared, ← declaredFiles_others]
  constructor
  · exact fun located instr member => located instr (List.mem_filter.mp member).1
  · intro located instr member id isLocation
    refine located instr (List.mem_filter.mpr ⟨member, ?_⟩) id isLocation
    rw [Bool.not_eq_true']
    cases kind : instr.directiveKind <;> simp_all [debugLocationFile?, isVisibility]

/-- The other checks do not see the visibility lines. -/
theorem OtherChecks.rearranged {first second : List Instruction} (checks : OtherChecks first)
    (rearranged : Rearranged first second) : OtherChecks second where
  passes := by
    rw [otherChecks_passes_iff, ← rearranged.others, ← otherChecks_passes_iff]
    exact checks.passes
  files := by
    rw [declaredFiles_others, ← rearranged.others, ← declaredFiles_others]
    exact checks.files
  located := by
    rw [locationsDeclared_others, ← rearranged.others, ← locationsDeclared_others]
    exact checks.located

/-! ## Symbols -/

section Symbols

variable {statements : List Instruction}

/-- A declaration among the events is a visibility line of the list. -/
theorem mem_declarations {event : SymbolEvent} (declares : event.definedName? = none) :
    event ∈ programEvents statements ↔ ∃ instr ∈ statements, declaration? instr = some event := by
  rw [mem_programEvents]
  constructor
  · rintro ⟨before, instr, after, rfl, isEvent⟩
    refine ⟨instr, by simp, ?_⟩
    rw [statementEvent?] at isEvent
    split at isEvent
    · exact isEvent
    · rw [definition?, Option.map_eq_some_iff] at isEvent
      obtain ⟨label, -, rfl⟩ := isEvent
      contradiction
  · rintro ⟨instr, member, declared⟩
    obtain ⟨before, after, split⟩ := List.append_of_mem member
    refine ⟨before, instr, after, split, ?_⟩
    rw [statementEvent?, if_pos (isVisibility_of_declared declared), declared]

theorem declares_global_iff {name : List UInt8} :
    .declare name .global ∈ programEvents statements ↔ Declares statements .global name := by
  rw [mem_declarations rfl]
  constructor
  · rintro ⟨instr, member, declared⟩
    obtain ⟨label, line, col, endCol, ops, ⟨kind, same⟩ | ⟨kind, same⟩ | ⟨kind, same⟩⟩ :=
      declaration?_eq_some declared
    · obtain ⟨rfl, -⟩ := SymbolEvent.declare.inj same
      exact ⟨instr, member, kind, line, col, endCol, ops⟩
    · obtain ⟨-, other⟩ := SymbolEvent.declare.inj same
      contradiction
    · contradiction
  · rintro ⟨instr, member, kind, line, col, endCol, ops⟩
    exact ⟨instr, member, by simp only [declaration?, kind, ops]⟩

theorem declares_local_iff {name : List UInt8} :
    .declare name .local ∈ programEvents statements ↔ Declares statements .local name := by
  rw [mem_declarations rfl]
  constructor
  · rintro ⟨instr, member, declared⟩
    obtain ⟨label, line, col, endCol, ops, ⟨kind, same⟩ | ⟨kind, same⟩ | ⟨kind, same⟩⟩ :=
      declaration?_eq_some declared
    · obtain ⟨-, other⟩ := SymbolEvent.declare.inj same
      contradiction
    · obtain ⟨rfl, -⟩ := SymbolEvent.declare.inj same
      exact ⟨instr, member, kind, line, col, endCol, ops⟩
    · contradiction
  · rintro ⟨instr, member, kind, line, col, endCol, ops⟩
    exact ⟨instr, member, by simp only [declaration?, kind, ops]⟩

theorem declares_external_iff {name : List UInt8} :
    .external name ∈ programEvents statements ↔ Declares statements .external name := by
  rw [mem_declarations rfl]
  constructor
  · rintro ⟨instr, member, declared⟩
    obtain ⟨label, line, col, endCol, ops, ⟨kind, same⟩ | ⟨kind, same⟩ | ⟨kind, same⟩⟩ :=
      declaration?_eq_some declared
    · contradiction
    · contradiction
    · obtain rfl := SymbolEvent.external.inj same
      exact ⟨instr, member, kind, line, col, endCol, ops⟩
  · rintro ⟨instr, member, kind, line, col, endCol, ops⟩
    exact ⟨instr, member, by simp only [declaration?, kind, ops]⟩

/-- The names defined are the labels. -/
theorem definedNames_eq (alone : VisibilityAlone statements) :
    (programEvents statements).filterMap SymbolEvent.definedName? = labelNames statements := by
  have names : ∀ layout instr, instr ∈ statements →
      (statementEvent? layout instr).bind SymbolEvent.definedName? = instr.label := by
    intro layout instr member
    rw [statementEvent?]
    split
    · next visible =>
        rw [(alone.alone instr member visible).1]
        cases declared : declaration? instr with
        | none => rfl
        | some event =>
            obtain ⟨label, line, col, endCol, -, ⟨-, rfl⟩ | ⟨-, rfl⟩ | ⟨-, rfl⟩⟩ :=
              declaration?_eq_some declared
            all_goals rfl
    · rw [definition?, definedLabel?]
      cases isLabel : instr.label with
      | none => simp
      | some label =>
          rw [if_pos (alone.labels instr member (by rw [isLabel]; rfl))]
          rfl
  rw [programEvents, List.filterMap_filterMap, labelNames]
  generalize Layout.start = layout
  clear alone
  induction statements generalizing layout with
  | nil => rfl
  | cons instr statements inductionHypothesis =>
      rw [Layout.places, List.filterMap_cons, List.filterMap_cons,
        inductionHypothesis (fun layout other member => names layout other (List.mem_cons_of_mem _ member))]
      dsimp only
      rw [names layout instr List.mem_cons_self]

/-- The conditions on the symbols are those on the events. -/
theorem symbolsInOrder_iff (alone : VisibilityAlone statements) :
    SymbolsInOrder statements ↔ EventsConsistent (programEvents statements) ∧
      VisibilityResolved (programEvents statements) := by
  rw [eventsConsistent_iff, VisibilityResolved, definedNames_eq alone]
  simp only [declares_global_iff, declares_local_iff, declares_external_iff]
  constructor
  · rintro ⟨definedOnce, oneVisibility, external, resolved⟩
    refine ⟨⟨definedOnce, oneVisibility, external⟩, fun name binding declared => ?_⟩
    cases binding with
    | global => exact resolved name (.inl (declares_global_iff.mp declared))
    | «local» => exact resolved name (.inr (declares_local_iff.mp declared))
  · rintro ⟨⟨definedOnce, oneVisibility, external⟩, resolved⟩
    refine ⟨definedOnce, oneVisibility, external, fun name declared => ?_⟩
    rcases declared with isGlobal | isLocal
    · exact resolved name .global (declares_global_iff.mpr isGlobal)
    · exact resolved name .local (declares_local_iff.mpr isLocal)

end Symbols

/-! ## Acceptance -/

/-- A visibility line that names one symbol passes by itself. -/
theorem visibilityLine_passes {instr : Instruction} {section_ : SymbolSection}
    (visible : isVisibility instr.directiveKind = true)
    (named : ∃ label line col endCol, instr.ops = [⟨.label label, line, col, endCol⟩]) :
    StatementPasses section_ instr := by
  obtain ⟨noSwitch, noData, directive⟩ := aside_of_isVisibility visible
  obtain ⟨label, line, col, endCol, ops⟩ := named
  have refuse : ∀ {P : Prop}, isDataDirective instr.directiveKind = true → P := fun isData => by
    rw [noData] at isData
    contradiction
  refine ⟨⟨?_, refuse, refuse, refuse⟩, fun _ => ?_, fun isFile => ?_, fun location => ?_⟩
  · intro invalid
    rw [invalid] at visible
    contradiction
  · revert visible
    cases kind : instr.directiveKind <;> simp [isVisibility, declaration?, kind, ops]
  · revert visible isFile
    rw [isDebugFile]
    cases instr.directiveKind <;> simp [isVisibility]
  · rw [location] at visible
    contradiction

/-- Pass 1 accepts a list exactly when its symbols are in order and the other
checks are satisfied. -/
theorem pass1_accepts_iff {instructions : InstructionList}
    (alone : VisibilityAlone instructions.data) :
    errorHasAny (pass1Run instructions).errors = false ↔
      OtherChecks instructions.data ∧ SymbolsInOrder instructions.data := by
  rw [pass1Run_accepts_iff, symbolsInOrder_iff alone]
  constructor
  · rintro ⟨⟨passes, events, files⟩, resolved, located⟩
    refine ⟨⟨fun before instr after split _ => ?_, files, located⟩, events, resolved⟩
    rw [← currentSection_eq]
    exact passes before instr after split
  · rintro ⟨⟨passes, files, located⟩, events, resolved⟩
    refine ⟨⟨fun before instr after split => ?_, events, files⟩, resolved, located⟩
    cases visible : isVisibility instr.directiveKind with
    | true =>
        exact visibilityLine_passes visible
          (alone.alone instr (by rw [split]; simp) visible).2
    | false =>
        rw [currentSection_eq]
        exact passes before instr after split visible

/-- Visibility declarations do not depend on their order: pass 1 accepts every
arrangement or none, with the same entries; it accepts exactly when the symbols
are in order, and a defined symbol is global exactly when it is declared `.عام`. -/
theorem visibility_order_independent (first second : InstructionList)
    (alone : VisibilityAlone first.data) (rearranged : Rearranged first.data second.data) :
    (errorHasAny (pass1Run first).errors = false ↔
        errorHasAny (pass1Run second).errors = false) ∧
      (errorHasAny (pass1Run first).errors = false → ∀ name,
        findEntry (pass1Run first).symtable name = findEntry (pass1Run second).symtable name) ∧
      (errorHasAny (pass1Run first).errors = false ↔
        OtherChecks first.data ∧ SymbolsInOrder first.data) ∧
      (errorHasAny (pass1Run first).errors = false → ∀ name entry,
        findEntry (pass1Run first).symtable name = some entry → entry.defined = true →
        (entry.binding = .global ↔ Declares first.data .global name)) := by
  have alone' := alone.rearranged rearranged
  have accepted : errorHasAny (pass1Run first).errors = false ↔
      errorHasAny (pass1Run second).errors = false := by
    rw [pass1_accepts_iff alone, pass1_accepts_iff alone', symbolsInOrder_iff alone,
      symbolsInOrder_iff alone', EventsConsistent.perm rearranged.events]
    refine and_congr ⟨fun checks => checks.rearranged rearranged,
      fun checks => checks.rearranged rearranged.symm⟩ (and_congr Iff.rfl ?_)
    simp only [VisibilityResolved, rearranged.events.mem_iff,
      (rearranged.events.filterMap SymbolEvent.definedName?).mem_iff]
  refine ⟨accepted, fun clean name => ?_, pass1_accepts_iff alone, fun clean name entry found defined => ?_⟩
  · have passes := pass1Run_accepts_iff.mp clean
    rw [pass1Run_find passes, pass1Run_find (pass1Run_accepts_iff.mp (accepted.mp clean)),
      factsOf_perm rearranged.events passes.walk.events]
  · have passes := pass1Run_accepts_iff.mp clean
    rw [pass1Run_find passes] at found
    obtain ⟨global, -, external, definition, -⟩ :=
      factsOf_reports name (programEvents first.data)
    rw [← declares_global_iff, ← global, ← entry_of_found found]
    rw [← entry_of_found found] at defined
    have notExternal : (factsOf name (programEvents first.data)).external = false := by
      by_contra isExternal
      have undefined := (eventsConsistent_iff.mp passes.walk.events).2.2 name
        (external.mp (by simpa using isExternal))
      have none := definition.mpr undefined.1
      simp [NameFacts.entry, none] at defined
    simp [NameFacts.entry, notExternal]

/-- A labelled return, and a line that makes the label global. -/
def labelledReturn : Instruction :=
  ⟨.ret, [], some (utf8 "أ"), none, .none, 1, 4, 8, 1, 1, 3⟩

def globalLine : Instruction :=
  ⟨.invalid, [⟨.label (utf8 "أ"), 2, 6, 7⟩], none, some (utf8 ".عام"), .global, 2, 1, 7, 0, 0, 0⟩

theorem visibility_order_independent_globalLine :
    (errorHasAny (pass1Run ⟨[labelledReturn, globalLine], none⟩).errors = false ↔
        errorHasAny (pass1Run ⟨[globalLine, labelledReturn], none⟩).errors = false) ∧
      findEntry (pass1Run ⟨[labelledReturn, globalLine], none⟩).symtable (utf8 "أ") =
        findEntry (pass1Run ⟨[globalLine, labelledReturn], none⟩).symtable (utf8 "أ") := by
  have alone : VisibilityAlone [labelledReturn, globalLine] := by
    refine ⟨fun instr member visible => ?_, fun instr member labelled => ?_⟩
    · rcases List.mem_pair.mp member with rfl | rfl
      · contradiction
      · exact ⟨rfl, _, _, _, _, rfl⟩
    · rcases List.mem_pair.mp member with rfl | rfl
      · exact .inl rfl
      · contradiction
  have independent := visibility_order_independent ⟨[labelledReturn, globalLine], none⟩
    ⟨[globalLine, labelledReturn], none⟩ alone ⟨rfl, .refl _⟩
  exact ⟨independent.1, independent.2.1 (by decide +kernel) _⟩

end Nazm.Passes
