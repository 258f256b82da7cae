import Nazm.Passes.Emission
import Nazm.Passes.Labels
import Nazm.Symtable.Events

/-!
What pass 1 accepts, and what it then returns.

Owns the parts that a run of pass 1 falls into (the statements by themselves,
the events of the symbol table, the declared debug files, the alignments), and
the refinement: a walk reports nothing exactly when each part is in order, and
then its state is made of them.

Does not own the layout, nor properties of the parts.
-/

namespace Nazm.Passes

open Nazm.Encoder Nazm.Parser Nazm.Symtable Nazm.Unicode Nazm.Diagnostics

/-! ## The parts of a statement -/

/-- A line of `.عام`, `.محلي` or `.خارجي`. -/
def isVisibility : DirectiveKind → Bool
  | .global | .local | .external => true
  | _ => false

/-- What a visibility line declares of a symbol. -/
def declaration? (instr : Instruction) : Option SymbolEvent :=
  match instr.directiveKind, instr.ops with
  | .global, [⟨.label label, _, _, _⟩] => some (.declare label .global)
  | .local, [⟨.label label, _, _, _⟩] => some (.declare label .local)
  | .external, [⟨.label label, _, _, _⟩] => some (.external label)
  | _, _ => none

/-- The definition that a statement makes where it stands. -/
def definition? (layout : Layout) (instr : Instruction) : Option SymbolEvent :=
  (definedLabel? instr).map fun label => .define label layout.section_ layout.offset

/-- What a statement asks of the symbol table. -/
def statementEvent? (layout : Layout) (instr : Instruction) : Option SymbolEvent :=
  if isVisibility instr.directiveKind then declaration? instr else definition? layout instr

/-- A line of `.ملف` or `.ملف_بايتات`. -/
def isDebugFile (instr : Instruction) : Bool :=
  decide (instr.directiveKind = .debugFile) || decide (instr.directiveKind = .debugFileBytes)

/-- The debug file that a statement declares. -/
def declaredFile? (instr : Instruction) : Option DebugFile :=
  if isDebugFile instr then (debugFileDirective [] instr).toOption else none

/-- What pass 1 requires of a statement by itself. -/
structure StatementPasses (section_ : SymbolSection) (instr : Instruction) : Prop where
  accepted : StatementAccepted section_ instr
  declares : isVisibility instr.directiveKind = true → (declaration? instr).isSome = true
  file : isDebugFile instr = true → (declaredFile? instr).isSome = true
  location : instr.directiveKind = .debugLocation → debugLocationFault instr = none

/-! ## The parts of a program -/

/-- What a program asks of the symbol table, in order. -/
def programEvents (statements : List Instruction) : List SymbolEvent :=
  (Layout.start.places statements).filterMap fun (layout, instr) => statementEvent? layout instr

/-- The largest boundary asked for in each section. -/
def programAlignments (statements : List Instruction) : SectionAlignments :=
  (Layout.start.places statements).foldl
    (fun alignments (layout, instr) => pass1NoteAlignment alignments layout.section_ instr)
    ⟨0, 0, 0⟩

theorem programEvents_snoc (before : List Instruction) (instr : Instruction) :
    programEvents (before ++ [instr]) =
      programEvents before ++ (statementEvent? (Layout.after before) instr).toList := by
  rw [programEvents, places_snoc, List.filterMap_append]
  cases event : statementEvent? (Layout.after before) instr <;> simp [event, programEvents]

theorem programAlignments_snoc (before : List Instruction) (instr : Instruction) :
    programAlignments (before ++ [instr]) =
      pass1NoteAlignment (programAlignments before) (Layout.after before).section_ instr := by
  rw [programAlignments, places_snoc, List.foldl_append]
  rfl

theorem declaredFiles_snoc (before : List Instruction) (instr : Instruction) :
    (before ++ [instr]).filterMap declaredFile? =
      before.filterMap declaredFile? ++ (declaredFile? instr).toList := by
  rw [List.filterMap_append]
  cases file : declaredFile? instr <;> simp [file]

/-! ## One turn -/

/-- A declaration of a debug file is refused for itself, or for its identifier. -/
theorem debugFileDirective_eq_ok {files : List DebugFile} {instr : Instruction} {file : DebugFile} :
    debugFileDirective files instr = .ok file ↔
      debugFileDirective [] instr = .ok file ∧ debugFileFind files file.id = none := by
  have nothing : ∀ id, (debugFileFind [] id).isSome = false := fun _ => rfl
  unfold debugFileDirective
  split
  · next id _ _ _ encoded _ _ _ _ =>
      split
      · simp
      · split
        · simp
        · generalize (if instr.directiveKind = .debugFileBytes then decodeDebugPathBytes encoded
            else .ok encoded) = decoded
          cases decoded with
          | error message => simp
          | ok path =>
              simp only [nothing, Bool.false_eq_true, if_false, Except.ok.injEq]
              constructor
              · intro declared
                split at declared
                · contradiction
                · next fresh =>
                    obtain rfl := Except.ok.inj declared
                    exact ⟨rfl, Option.not_isSome_iff_eq_none.mp fresh⟩
              · rintro ⟨rfl, fresh⟩
                exact if_neg (Option.not_isSome_iff_eq_none.mpr fresh)
  · simp

section Turn

variable {instructions : InstructionList} {state : Pass1State} {instr : Instruction}

/-- The state after a statement that passes. -/
def Pass1State.passed (state : Pass1State) (instr : Instruction) (symtable : SymbolTable) :
    Pass1State :=
  { symtable := symtable
    offsets := (state.layout.place instr).sizes
    currentSection := (state.layout.place instr).section_
    alignments := pass1NoteAlignment state.alignments state.currentSection instr
    debugFiles := state.debugFiles ++ (declaredFile? instr).toList
    errors := state.errors }

/-- The conditions under which a turn reports nothing. -/
structure TurnPasses (state : Pass1State) (instr : Instruction) (symtable : SymbolTable) : Prop where
  passes : StatementPasses state.currentSection instr
  event : Walk.run SymbolEvent.step (statementEvent? state.layout instr).toList state.symtable =
    .ok symtable
  fresh : ∀ file, declaredFile? instr = some file → debugFileFind state.debugFiles file.id = none

theorem run_event_none {st symtable : SymbolTable} {event? : Option SymbolEvent}
    (none : event? = none) (ran : Walk.run SymbolEvent.step event?.toList st = .ok symtable) :
    symtable = st := by
  subst none
  exact (Except.ok.inj ran).symm

theorem run_event_some {st symtable : SymbolTable} {event? : Option SymbolEvent}
    {event : SymbolEvent} (some : event? = some event) :
    Walk.run SymbolEvent.step event?.toList st = .ok symtable ↔
      event.apply st = (symtable, true) := by
  subst some
  simp only [Option.toList_some, Walk.run, SymbolEvent.step]
  generalize event.apply st = result
  obtain ⟨changed, accepted⟩ := result
  cases accepted <;> simp

theorem pass1NoteAlignment_of_other {alignments : SectionAlignments} {section_ : SymbolSection}
    (other : instr.directiveKind ≠ .alignment) :
    pass1NoteAlignment alignments section_ instr = alignments := by
  have none : alignmentBoundary? instr = none := by
    unfold alignmentBoundary?
    split
    · next kind _ => exact absurd kind other
    · rfl
  rw [pass1NoteAlignment, none]

theorem pass1Label_passed {symtable : SymbolTable} (enters : EntersLabel instr)
    (notVisibility : isVisibility instr.directiveKind = false)
    (event : Walk.run SymbolEvent.step (statementEvent? state.layout instr).toList state.symtable =
      .ok symtable) :
    pass1Label instructions state instr = { state with symtable := symtable } := by
  have isEvent : statementEvent? state.layout instr =
      instr.label.map fun label => .define label state.layout.section_ state.layout.offset := by
    rw [statementEvent?, notVisibility, definition?, definedLabel?, if_pos enters]
    rfl
  unfold pass1Label
  split
  · next none =>
      rw [none] at isEvent
      obtain rfl := run_event_none isEvent event
      rfl
  · next label some =>
      rw [some] at isEvent
      have inserted := (run_event_some isEvent).mp event
      rw [show symtableInsertSection state.symtable label state.currentSection
        (state.offsets.get state.currentSection) = (symtable, true) from inserted]

theorem pass1Label_accepts (enters : EntersLabel instr)
    (notVisibility : isVisibility instr.directiveKind = false)
    (clean : errorHasAny (pass1Label instructions state instr).errors = false) :
    ∃ symtable, Walk.run SymbolEvent.step (statementEvent? state.layout instr).toList
      state.symtable = .ok symtable := by
  have isEvent : statementEvent? state.layout instr =
      instr.label.map fun label => .define label state.layout.section_ state.layout.offset := by
    rw [statementEvent?, notVisibility, definition?, definedLabel?, if_pos enters]
    rfl
  unfold pass1Label at clean
  split at clean
  · next none =>
      rw [isEvent, none]
      exact ⟨_, rfl⟩
  · next label some =>
      rw [some] at isEvent
      split at clean
      · next symtable inserted => exact ⟨symtable, (run_event_some isEvent).mpr inserted⟩
      · simp at clean

/-- A directive without data, file or declaration that keeps its section. -/
theorem passed_of_aside {symtable : SymbolTable} (noSwitch : sectionSwitch? instr.directiveKind = none)
    (noData : isDataDirective instr.directiveKind = false) (directive : instr.directiveKind ≠ .none)
    (noFile : declaredFile? instr = none) :
    state.passed instr symtable = { state with symtable := symtable } := by
  have place := state.layout.place_of_aside noSwitch noData directive
  have other : instr.directiveKind ≠ .alignment := by
    intro alignment
    rw [alignment] at noData
    contradiction
  rw [Pass1State.passed, place, pass1NoteAlignment_of_other other, noFile, Option.toList_none,
    List.append_nil]
  rfl

theorem event_of_other (notVisibility : isVisibility instr.directiveKind = false)
    (skips : ¬ EntersLabel instr) : statementEvent? state.layout instr = none := by
  rw [statementEvent?, notVisibility, definition?, definedLabel?, if_neg skips]
  rfl

/-! ### Each kind of statement -/

theorem pass1Statement_passed {symtable : SymbolTable} (kind : instr.directiveKind = .none)
    (event : Walk.run SymbolEvent.step (statementEvent? state.layout instr).toList state.symtable =
      .ok symtable) :
    pass1Statement instructions state instr = state.passed instr symtable := by
  have labelled := @pass1Label_passed instructions _ _ _ (.inl kind) (by rw [kind]; rfl) event
  have layout := @pass1Statement_layout instructions state _ kind
  have other : instr.directiveKind ≠ .alignment := by rw [kind]; decide
  have noFile : declaredFile? instr = none := by
    rw [declaredFile?, isDebugFile, kind]
    rfl
  rw [Pass1State.passed, ← layout, pass1NoteAlignment_of_other other, noFile, Option.toList_none,
    List.append_nil]
  unfold pass1Statement
  dsimp only
  rw [labelled]
  split
  · rfl
  · split <;> rfl

theorem pass1DataDirective_passed {symtable : SymbolTable}
    (isData : isDataDirective instr.directiveKind = true)
    (passes : StatementPasses state.currentSection instr)
    (event : Walk.run SymbolEvent.step (statementEvent? state.layout instr).toList state.symtable =
      .ok symtable) :
    pass1DataDirective instructions state instr = state.passed instr symtable := by
  have notVisibility : isVisibility instr.directiveKind = false := by
    revert isData
    cases instr.directiveKind <;> simp [isDataDirective, isVisibility]
  have labelled := @pass1Label_passed instructions
    { state with alignments := pass1NoteAlignment state.alignments state.currentSection instr } _ _
    (.inr isData) notVisibility event
  have noFile : declaredFile? instr = none := by
    rw [declaredFile?, isDebugFile, if_neg]
    revert isData
    cases instr.directiveKind <;> simp [isDataDirective]
  have inBss : ¬ (state.currentSection = .bss ∧ instr.directiveKind ≠ .zeroSpace ∧
      instr.directiveKind ≠ .alignment) := by
    rintro ⟨bss, notSpace, notAlignment⟩
    exact (passes.accepted.bssOnly isData bss).elim notSpace notAlignment
  rw [pass1DataDirective, if_neg (passes.accepted.notText isData), passes.accepted.faultless isData]
  dsimp only
  rw [if_neg inBss, labelled, Pass1State.passed, Layout.place_of_data _ isData, noFile,
    Option.toList_none, List.append_nil]
  split
  · rfl
  · next empty =>
      have nothing : (dataDirectiveSizeAt instr state.layout.offset).toNat = 0 :=
        Int.toNat_of_nonpos (Int.not_lt.mp empty)
      rw [nothing, SectionSizes.add_zero]
      rfl

/-- The lines that declare something. -/
theorem declaration?_eq_some {event : SymbolEvent} (declared : declaration? instr = some event) :
    ∃ label line col endCol, instr.ops = [⟨.label label, line, col, endCol⟩] ∧
      ((instr.directiveKind = .global ∧ event = .declare label .global) ∨
        (instr.directiveKind = .local ∧ event = .declare label .local) ∨
        (instr.directiveKind = .external ∧ event = .external label)) := by
  unfold declaration? at declared
  split at declared
  · next label line col endCol kind ops =>
      exact ⟨label, line, col, endCol, ops, .inl ⟨kind, (Option.some.inj declared).symm⟩⟩
  · next label line col endCol kind ops =>
      exact ⟨label, line, col, endCol, ops, .inr (.inl ⟨kind, (Option.some.inj declared).symm⟩)⟩
  · next label line col endCol kind ops =>
      exact ⟨label, line, col, endCol, ops, .inr (.inr ⟨kind, (Option.some.inj declared).symm⟩)⟩
  · contradiction

theorem isVisibility_of_declared {event : SymbolEvent} (declared : declaration? instr = some event) :
    isVisibility instr.directiveKind = true := by
  obtain ⟨label, line, col, endCol, -, global | isLocal | external⟩ := declaration?_eq_some declared
  · rw [global.1]; rfl
  · rw [isLocal.1]; rfl
  · rw [external.1]; rfl

/-- A declaration that the table lets in. -/
theorem pass1Step_declared {event : SymbolEvent} {symtable : SymbolTable}
    (declared : declaration? instr = some event)
    (applied : event.apply state.symtable = (symtable, true)) :
    pass1Step instructions state instr = { state with symtable := symtable } := by
  obtain ⟨label, line, col, endCol, ops, cases⟩ := declaration?_eq_some declared
  rcases cases with ⟨kind, rfl⟩ | ⟨kind, rfl⟩ | ⟨kind, rfl⟩
  · simp only [pass1Step, kind, pass1Visibility, ops]
    rw [show symtableDeclareBinding state.symtable label .global = (symtable, true) from applied]
  · simp only [pass1Step, kind, pass1Visibility, ops]
    rw [show symtableDeclareBinding state.symtable label .local = (symtable, true) from applied]
  · simp only [pass1Step, kind, pass1External, ops]
    rw [show symtableDeclareExternal state.symtable label = (symtable, true) from applied]

/-- A visibility line that is not reported declares something that is let in. -/
theorem pass1Step_visibility_clean (visible : isVisibility instr.directiveKind = true)
    (clean : errorHasAny (pass1Step instructions state instr).errors = false) :
    ∃ event symtable, declaration? instr = some event ∧
      event.apply state.symtable = (symtable, true) := by
  have visibility : ∀ binding, instr.directiveKind = (match binding with
        | .global => .global
        | .local => .local) →
      pass1Step instructions state instr = pass1Visibility instructions state instr binding →
      ∃ event symtable, declaration? instr = some event ∧
        event.apply state.symtable = (symtable, true) := by
    intro binding kind step
    rw [step] at clean
    unfold pass1Visibility at clean
    split at clean
    · next label line col endCol ops =>
        split at clean
        · next symtable declared =>
            refine ⟨.declare label binding, symtable, ?_, declared⟩
            cases binding <;> simp only [declaration?, kind, ops]
        · simp at clean
    · simp at clean
  cases kind : instr.directiveKind with
  | global => exact visibility .global kind (by rw [pass1Step, kind])
  | «local» => exact visibility .local kind (by rw [pass1Step, kind])
  | external =>
      rw [pass1Step, kind] at clean
      dsimp only at clean
      unfold pass1External at clean
      split at clean
      · next label line col endCol ops =>
          split at clean
          · next symtable declared =>
              exact ⟨.external label, symtable, by simp only [declaration?, kind, ops], declared⟩
          · simp at clean
      · simp at clean
  | _ => rw [kind] at visible; contradiction

/-! ### All statements -/

theorem declaredFile?_of_other (other : isDebugFile instr = false) : declaredFile? instr = none := by
  rw [declaredFile?, other]
  rfl

/-- A turn whose statement passes adds the parts of the statement. -/
theorem pass1Step_passed {symtable : SymbolTable} (turn : TurnPasses state instr symtable) :
    pass1Step instructions state instr = state.passed instr symtable := by
  obtain ⟨passes, event, fresh⟩ := turn
  have aside : sectionSwitch? instr.directiveKind = none →
      isDataDirective instr.directiveKind = false → instr.directiveKind ≠ .none →
      isDebugFile instr = false →
      pass1Step instructions state instr = { state with symtable := symtable } →
      pass1Step instructions state instr = state.passed instr symtable := by
    intro noSwitch noData directive noFile step
    rw [step, passed_of_aside noSwitch noData directive (declaredFile?_of_other noFile)]
  have quiet : isVisibility instr.directiveKind = false → ¬ EntersLabel instr →
      symtable = state.symtable := fun notVisibility skips =>
    run_event_none (event_of_other notVisibility skips) event
  have visibility : isVisibility instr.directiveKind = true →
      pass1Step instructions state instr = { state with symtable := symtable } := by
    intro visible
    obtain ⟨declared, isDeclared⟩ := Option.isSome_iff_exists.mp (passes.declares visible)
    have isEvent : statementEvent? state.layout instr = some declared := by
      rw [statementEvent?, if_pos visible, isDeclared]
    exact pass1Step_declared isDeclared ((run_event_some isEvent).mp event)
  have skips : instr.directiveKind ≠ .none → isDataDirective instr.directiveKind = false →
      ¬ EntersLabel instr := fun directive noData enters =>
    enters.elim directive fun isData => by rw [noData] at isData; contradiction
  cases kind : instr.directiveKind with
  | none =>
      rw [pass1Step, kind]
      exact pass1Statement_passed kind event
  | text | data | readOnlyData | bss =>
      obtain rfl := quiet (by rw [kind]; rfl) (skips (by simp [kind]) (by rw [kind]; rfl))
      rw [Pass1State.passed, Layout.place_of_switch _ (by rw [kind]; rfl),
        pass1NoteAlignment_of_other (by simp [kind]),
        declaredFile?_of_other (by simp [isDebugFile, kind]), Option.toList_none, List.append_nil,
        pass1Step, kind]
      rfl
  | int8 | int16 | int32 | int64 | alignment | zeroSpace | nulString =>
      rw [show pass1Step instructions state instr = pass1DataDirective instructions state instr by
        rw [pass1Step, kind]]
      exact pass1DataDirective_passed (by rw [kind]; rfl) passes event
  | invalid => exact absurd kind passes.accepted.known
  | external | global | «local» =>
      exact aside (by rw [kind]; rfl) (by rw [kind]; rfl) (by simp [kind])
        (by simp [isDebugFile, kind]) (visibility (by rw [kind]; rfl))
  | debugFile | debugFileBytes =>
      obtain rfl := quiet (by rw [kind]; rfl) (skips (by simp [kind]) (by rw [kind]; rfl))
      have isFile : isDebugFile instr = true := by simp [isDebugFile, kind]
      obtain ⟨file, declared⟩ := Option.isSome_iff_exists.mp (passes.file isFile)
      have alone : debugFileDirective [] instr = .ok file := by
        rw [declaredFile?, if_pos isFile] at declared
        revert declared
        generalize debugFileDirective [] instr = result
        cases result <;> simp [Except.toOption]
      have accepted := debugFileDirective_eq_ok.mpr ⟨alone, fresh file declared⟩
      rw [Pass1State.passed, Layout.place_of_aside _ (by rw [kind]; rfl) (by rw [kind]; rfl)
        (by simp [kind]), pass1NoteAlignment_of_other (by simp [kind]), declared, pass1Step, kind]
      dsimp only
      rw [pass1DebugFile, accepted]
      rfl
  | debugLocation =>
      obtain rfl := quiet (by rw [kind]; rfl) (skips (by simp [kind]) (by rw [kind]; rfl))
      refine aside (by rw [kind]; rfl) (by rw [kind]; rfl) (by simp [kind])
        (by simp [isDebugFile, kind]) ?_
      rw [pass1Step, kind]
      dsimp only
      rw [pass1DebugLocation, passes.location kind]

/-- A turn that reports nothing passes. -/
theorem pass1Step_passes (clean : errorHasAny (pass1Step instructions state instr).errors = false) :
    ∃ symtable, TurnPasses state instr symtable := by
  have accepted := (pass1Step_layout state instr clean).2.1
  have plain : isVisibility instr.directiveKind = false → ¬ EntersLabel instr →
      Walk.run SymbolEvent.step (statementEvent? state.layout instr).toList state.symtable =
        .ok state.symtable := by
    intro notVisibility skips
    rw [event_of_other notVisibility skips]
    rfl
  have skips : instr.directiveKind ≠ .none → isDataDirective instr.directiveKind = false →
      ¬ EntersLabel instr := fun directive noData enters =>
    enters.elim directive fun isData => by rw [noData] at isData; contradiction
  -- a statement that is no visibility, file or location line
  have ordinary : ∀ symtable, isVisibility instr.directiveKind = false → isDebugFile instr = false →
      instr.directiveKind ≠ .debugLocation →
      Walk.run SymbolEvent.step (statementEvent? state.layout instr).toList state.symtable =
        .ok symtable → TurnPasses state instr symtable := by
    intro symtable notVisibility noFile noLocation event
    refine ⟨⟨accepted, ?_, ?_, fun location => absurd location noLocation⟩, event, ?_⟩
    · rw [notVisibility]
      exact fun visible => by contradiction
    · rw [noFile]
      exact fun isFile => by contradiction
    · rw [declaredFile?_of_other noFile]
      exact fun _ declared => by contradiction
  have data : isDataDirective instr.directiveKind = true →
      pass1Step instructions state instr = pass1DataDirective instructions state instr →
      isVisibility instr.directiveKind = false →
      ∃ symtable, Walk.run SymbolEvent.step (statementEvent? state.layout instr).toList
        state.symtable = .ok symtable := by
    intro isData step notVisibility
    rw [step] at clean
    obtain ⟨noted, layout, symtable, -, -, errors, -⟩ :=
      (pass1DataDirective_cases state instr clean).labelled
    rw [errors] at clean
    rw [← layout, ← symtable]
    exact pass1Label_accepts (.inr isData) notVisibility clean
  cases kind : instr.directiveKind with
  | none =>
      have step : pass1Step instructions state instr = pass1Statement instructions state instr := by
        rw [pass1Step, kind]
      rw [step, pass1Statement_errors] at clean
      obtain ⟨symtable, event⟩ := pass1Label_accepts (.inl kind) (by rw [kind]; rfl) clean
      exact ⟨symtable, ordinary symtable (by rw [kind]; rfl) (by simp [isDebugFile, kind])
        (by simp [kind]) event⟩
  | text | data | readOnlyData | bss =>
      exact ⟨_, ordinary _ (by rw [kind]; rfl) (by simp [isDebugFile, kind]) (by simp [kind])
        (plain (by rw [kind]; rfl) (skips (by simp [kind]) (by rw [kind]; rfl)))⟩
  | int8 | int16 | int32 | int64 | alignment | zeroSpace | nulString =>
      obtain ⟨symtable, event⟩ := data (by rw [kind]; rfl) (by rw [pass1Step, kind])
        (by rw [kind]; rfl)
      exact ⟨symtable, ordinary symtable (by rw [kind]; rfl) (by simp [isDebugFile, kind])
        (by simp [kind]) event⟩
  | invalid => exact absurd kind accepted.known
  | external | global | «local» =>
      have visible : isVisibility instr.directiveKind = true := by rw [kind]; rfl
      obtain ⟨event, symtable, declared, applied⟩ := pass1Step_visibility_clean visible clean
      have isEvent : statementEvent? state.layout instr = some event := by
        rw [statementEvent?, if_pos visible, declared]
      have noFile : isDebugFile instr = false := by simp [isDebugFile, kind]
      refine ⟨symtable, ⟨accepted, fun _ => by rw [declared]; rfl, ?_, by simp [kind]⟩,
        (run_event_some isEvent).mpr applied, ?_⟩
      · rw [noFile]
        exact fun isFile => by contradiction
      · rw [declaredFile?_of_other noFile]
        exact fun _ declared => by contradiction
  | debugFile | debugFileBytes =>
      have isFile : isDebugFile instr = true := by simp [isDebugFile, kind]
      rw [pass1Step, kind] at clean
      dsimp only at clean
      unfold pass1DebugFile at clean
      split at clean
      · next file declared =>
          obtain ⟨alone, fresh⟩ := debugFileDirective_eq_ok.mp declared
          have isDeclared : declaredFile? instr = some file := by
            rw [declaredFile?, if_pos isFile, alone]
            rfl
          refine ⟨state.symtable, ⟨accepted, by simp [isVisibility, kind],
            fun _ => by rw [isDeclared]; rfl, by simp [kind]⟩,
            plain (by rw [kind]; rfl) (skips (by simp [kind]) (by rw [kind]; rfl)),
            fun other otherDeclared => ?_⟩
          rw [isDeclared, Option.some.injEq] at otherDeclared
          exact otherDeclared ▸ fresh
      · simp at clean
  | debugLocation =>
      have noFile : isDebugFile instr = false := by simp [isDebugFile, kind]
      rw [pass1Step, kind] at clean
      dsimp only at clean
      unfold pass1DebugLocation at clean
      split at clean
      · next faultless =>
          refine ⟨state.symtable, ⟨accepted, by simp [isVisibility, kind], ?_, fun _ => faultless⟩,
            plain (by rw [kind]; rfl) (skips (by simp [kind]) (by rw [kind]; rfl)), ?_⟩
          · rw [noFile]
            exact fun isFile => by contradiction
          · rw [declaredFile?_of_other noFile]
            exact fun _ declared => by contradiction
      · simp at clean

end Turn

/-! ## Walks -/

/-- The conditions under which a walk reports nothing. -/
structure WalkAccepts (statements : List Instruction) : Prop where
  passes : ∀ before instr after, statements = before ++ instr :: after →
    StatementPasses (Layout.after before).section_ instr
  events : EventsConsistent (programEvents statements)
  files : ((statements.filterMap declaredFile?).map DebugFile.id).Nodup

/-- A state that is made of the parts of the statements walked. -/
structure Pass1Reached (before : List Instruction) (state : Pass1State) : Prop where
  symtable : Walk.run SymbolEvent.step (programEvents before) .empty = .ok state.symtable
  layout : state.layout = Layout.after before
  alignments : state.alignments = programAlignments before
  debugFiles : state.debugFiles = before.filterMap declaredFile?
  errors : state.errors = .empty

theorem WalkAccepts.of_snoc {before : List Instruction} {instr : Instruction}
    (accepts : WalkAccepts (before ++ [instr])) : WalkAccepts before where
  passes front other back split :=
    accepts.passes front other (back ++ [instr]) (by rw [split]; simp)
  events := by
    have events := accepts.events
    rw [programEvents_snoc, EventsConsistent, List.pairwise_append] at events
    exact events.1
  files := by
    have files := accepts.files
    rw [declaredFiles_snoc, List.map_append] at files
    exact files.of_append_left

theorem debugFileFind_eq_none {files : List DebugFile} {id : Nat} :
    debugFileFind files id = none ↔ id ∉ files.map DebugFile.id := by
  rw [debugFileFind, List.find?_eq_none, List.mem_map]
  constructor
  · rintro absent ⟨file, member, isId⟩
    exact absent file member (by simpa using isId)
  · intro absent file member isId
    exact absent ⟨file, member, by simpa using isId⟩

theorem Pass1Reached.turn {before : List Instruction} {state : Pass1State} {instr : Instruction}
    {instructions : InstructionList} {symtable : SymbolTable} (reached : Pass1Reached before state)
    (turn : TurnPasses state instr symtable) :
    Pass1Reached (before ++ [instr]) (pass1Step instructions state instr) := by
  have layout := reached.layout
  rw [pass1Step_passed turn]
  refine ⟨?_, ?_, ?_, ?_, reached.errors⟩
  · rw [programEvents_snoc, ← layout, Walk.run_append_eq_ok]
    exact ⟨_, reached.symtable, turn.event⟩
  · rw [Layout.after_snoc, ← layout]
    rfl
  · rw [programAlignments_snoc, ← layout, ← reached.alignments]
    rfl
  · rw [declaredFiles_snoc, ← reached.debugFiles]
    rfl

/-- A walk reports nothing exactly when its statements, events and files are in
order, and then it has reached their parts. -/
theorem pass1Walk_accepts (instructions : InstructionList) (statements : List Instruction) :
    (WalkAccepts statements → Pass1Reached statements (pass1Walk instructions statements)) ∧
      (errorHasAny (pass1Walk instructions statements).errors = false → WalkAccepts statements) := by
  induction statements using List.reverseRecOn with
  | nil =>
      refine ⟨fun _ => ⟨rfl, rfl, rfl, rfl, rfl⟩, fun _ => ⟨fun before instr after split => ?_,
        .nil, .nil⟩⟩
      exact absurd split.symm (List.append_ne_nil_of_right_ne_nil _ (List.cons_ne_nil _ _))
  | append_singleton before instr inductionHypothesis =>
      obtain ⟨reaches, accepted⟩ := inductionHypothesis
      rw [pass1Walk_snoc]
      refine ⟨fun accepts => ?_, fun clean => ?_⟩
      · have reached := reaches accepts.of_snoc
        obtain ⟨symtable, ran⟩ := (run_events _).1 accepts.events
        rw [programEvents_snoc, Walk.run_append_eq_ok, reached.symtable, ← reached.layout] at ran
        obtain ⟨middle, same, event⟩ := ran
        obtain rfl := Except.ok.inj same
        have section_ := congrArg Layout.section_ reached.layout
        refine reached.turn ⟨?_, event, fun file declared => ?_⟩
        · rw [show (pass1Walk instructions before).currentSection = _ from section_]
          exact accepts.passes before instr [] rfl
        · have files := accepts.files
          rw [declaredFiles_snoc, declared, Option.toList_some, List.map_append,
            List.nodup_append] at files
          rw [reached.debugFiles, debugFileFind_eq_none]
          exact fun earlier => files.2.2 file.id earlier file.id (List.mem_singleton_self _) rfl
      · have accepts := accepted (pass1Step_layout _ instr clean).2.2
        have reached := reaches accepts
        obtain ⟨symtable, turn⟩ := pass1Step_passes clean
        have next := @Pass1Reached.turn _ _ _ instructions _ reached turn
        have section_ := congrArg Layout.section_ reached.layout
        refine ⟨fun front other back split => ?_, ((run_events _).2 _ next.symtable).1, ?_⟩
        · rcases snoc_split split with ⟨rfl, rfl, -⟩ | ⟨rest, -, within⟩
          · rw [← section_]
            exact turn.passes
          · exact accepts.passes front other rest within
        · rw [declaredFiles_snoc, List.map_append]
          cases declared : declaredFile? instr with
          | none => simpa [declared] using accepts.files
          | some file =>
              have fresh := turn.fresh file declared
              rw [reached.debugFiles, debugFileFind_eq_none] at fresh
              refine List.Nodup.append accepts.files (List.nodup_singleton _) ?_
              intro id earlier last
              obtain rfl := List.mem_singleton.mp last
              exact fresh earlier

theorem pass1Walk_clean_iff {instructions : InstructionList} {statements : List Instruction} :
    errorHasAny (pass1Walk instructions statements).errors = false ↔ WalkAccepts statements := by
  obtain ⟨reaches, accepted⟩ := pass1Walk_accepts instructions statements
  refine ⟨accepted, fun accepts => ?_⟩
  rw [(reaches accepts).errors]
  rfl

/-! ## After the walk -/

theorem mem_programEvents {statements : List Instruction} {event : SymbolEvent} :
    event ∈ programEvents statements ↔
      ∃ before instr after, statements = before ++ instr :: after ∧
        statementEvent? (Layout.after before) instr = some event := by
  rw [programEvents, List.mem_filterMap]
  constructor
  · rintro ⟨⟨layout, instr⟩, member, isEvent⟩
    obtain ⟨before, after, split, rfl⟩ := mem_places.mp member
    exact ⟨before, instr, after, split, isEvent⟩
  · rintro ⟨before, instr, after, split, isEvent⟩
    exact ⟨(Layout.after before, instr), mem_places.mpr ⟨before, after, split, rfl⟩, isEvent⟩

/-- A declaration comes from a line that declares it. -/
theorem declare_mem_programEvents {statements : List Instruction} {name : List UInt8}
    {binding : SymbolBinding} (declared : .declare name binding ∈ programEvents statements) :
    ∃ instr ∈ statements, declaresVisibility name instr = true := by
  obtain ⟨before, instr, after, rfl, isEvent⟩ := mem_programEvents.mp declared
  refine ⟨instr, by simp, ?_⟩
  rw [statementEvent?] at isEvent
  split at isEvent
  · obtain ⟨label, line, col, endCol, ops, ⟨kind, same⟩ | ⟨kind, same⟩ | ⟨kind, same⟩⟩ :=
      declaration?_eq_some isEvent
    · obtain ⟨rfl, -⟩ := SymbolEvent.declare.inj same
      simp [declaresVisibility, kind, ops]
    · obtain ⟨rfl, -⟩ := SymbolEvent.declare.inj same
      simp [declaresVisibility, kind, ops]
    · contradiction
  · simp [definition?] at isEvent

/-- Every name given a visibility is defined or external. -/
def VisibilityResolved (events : List SymbolEvent) : Prop :=
  ∀ name binding, .declare name binding ∈ events →
    name ∈ events.filterMap SymbolEvent.definedName? ∨ .external name ∈ events

/-- Every file that a location names is declared. -/
def LocationsDeclared (statements : List Instruction) : Prop :=
  ∀ instr ∈ statements, ∀ id, debugLocationFile? instr = some id →
    id ∈ (statements.filterMap declaredFile?).map DebugFile.id

section Run

variable {instructions : InstructionList}

/-- The report after the walk: entries with a visibility alone. -/
theorem reportUndefined_clean_iff {symtable : SymbolTable} {errors : ErrorList} :
    errorHasAny (reportUndefinedVisibilitySymbols instructions symtable errors) = false ↔
      errorHasAny errors = false ∧ ∀ entry ∈ symtable.entries,
        (entry.defined || entry.externalDeclared || !entry.bindingDeclared) = true ∨
          instructions.data.find? (declaresVisibility entry.name) = none := by
  unfold reportUndefinedVisibilitySymbols
  generalize symtable.entries = entries
  induction entries generalizing errors with
  | nil => simp
  | cons entry entries inductionHypothesis =>
      rw [List.foldl_cons, inductionHypothesis, List.forall_mem_cons]
      split
      · next settled => simp [settled]
      · next open_ =>
          split
          · next absent => simp [absent]
          · next instr found => simp [open_, found]

theorem holdsEvents_report {symtable : SymbolTable}
    (ran : Walk.run SymbolEvent.step (programEvents instructions.data) .empty = .ok symtable) :
    (∀ entry ∈ symtable.entries,
      (entry.defined || entry.externalDeclared || !entry.bindingDeclared) = true ∨
        instructions.data.find? (declaresVisibility entry.name) = none) ↔
      VisibilityResolved (programEvents instructions.data) := by
  obtain ⟨consistent, holds⟩ := (run_events _).2 _ ran
  constructor
  · intro settled name binding declared
    obtain ⟨global, isLocal, external, definition, -⟩ :=
      factsOf_reports name (programEvents instructions.data)
    have visible : ((factsOf name (programEvents instructions.data)).global ||
        (factsOf name (programEvents instructions.data)).local) = true := by
      rw [Bool.or_eq_true]
      cases binding with
      | global => exact .inl (global.mpr declared)
      | «local» => exact .inr (isLocal.mpr declared)
    have known : factsOf name (programEvents instructions.data) ≠ .start := by
      intro nothing
      rw [nothing] at visible
      contradiction
    have found := holds.entries name
    rw [NameFacts.entry?, if_neg known] at found
    have member := ChainedTable.mem_entries_iff.mpr (show ChainedTable.find symtable
      ((factsOf name (programEvents instructions.data)).entry name).name = some _ from found)
    rcases settled _ member with flags | nobody
    · simp only [NameFacts.entry, Bool.or_eq_true, Bool.not_eq_true'] at flags
      rcases flags with (defined | isExternal) | undeclared
      · refine .inl (not_not.mp fun absent => ?_)
        rw [definition.mpr absent] at defined
        contradiction
      · exact .inr (external.mp isExternal)
      · rw [visible] at undeclared
        contradiction
    · obtain ⟨instr, inData, declares⟩ := declare_mem_programEvents declared
      rw [List.find?_eq_none] at nobody
      exact absurd declares (nobody instr inData)
  · intro resolved entry member
    have found := ChainedTable.mem_entries_iff.mp member
    rw [holds.entries] at found
    obtain same := entry_of_found found
    refine .inl ?_
    obtain ⟨global, isLocal, external, definition, -⟩ :=
      factsOf_reports entry.name (programEvents instructions.data)
    rw [← same]
    simp only [NameFacts.entry, Bool.or_eq_true, Bool.not_eq_true']
    by_cases visible : ((factsOf entry.name (programEvents instructions.data)).global ||
        (factsOf entry.name (programEvents instructions.data)).local) = true
    · have declared : ∃ binding, .declare entry.name binding ∈ programEvents instructions.data := by
        rw [Bool.or_eq_true] at visible
        rcases visible with isGlobal | localToo
        · exact ⟨_, global.mp isGlobal⟩
        · exact ⟨_, isLocal.mp localToo⟩
      obtain ⟨binding, declared⟩ := declared
      rcases resolved entry.name binding declared with defined | isExternal
      · refine .inl (.inl ?_)
        rw [Option.isSome_iff_ne_none]
        exact fun absent => definition.mp absent defined
      · exact .inl (.inr (external.mpr isExternal))
    · by_cases isExternal : (factsOf entry.name (programEvents instructions.data)).external = true
      · exact .inl (.inr isExternal)
      · refine .inr ?_
        rw [Bool.not_eq_true] at visible isExternal
        rw [visible, isExternal]
        rfl

theorem validateLocations_clean_iff {files : List DebugFile} {errors : ErrorList} :
    errorHasAny (validateDebugLocationFiles instructions files errors) = false ↔
      errorHasAny errors = false ∧ ∀ instr ∈ instructions.data, ∀ id,
        debugLocationFile? instr = some id → id ∈ files.map DebugFile.id := by
  unfold validateDebugLocationFiles
  generalize instructions.data = statements
  induction statements generalizing errors with
  | nil => simp
  | cons instr statements inductionHypothesis =>
      rw [List.foldl_cons, inductionHypothesis, List.forall_mem_cons]
      split
      · next nothing => simp [nothing]
      · next id isLocation =>
          split
          · next found =>
              have declared : id ∈ files.map DebugFile.id := by
                by_contra absent
                rw [debugFileFind_eq_none.mpr absent] at found
                contradiction
              constructor
              · rintro ⟨clean, rest⟩
                refine ⟨clean, fun other same => ?_, rest⟩
                rw [isLocation, Option.some.injEq] at same
                exact same ▸ declared
              · rintro ⟨clean, -, rest⟩
                exact ⟨clean, rest⟩
          · next absent =>
              constructor
              · rintro ⟨dirty, -⟩
                simp at dirty
              · rintro ⟨-, declared, -⟩
                have found := declared id isLocation
                have none := Option.not_isSome_iff_eq_none.mp absent
                exact absurd found (debugFileFind_eq_none.mp none)

/-- The conditions under which pass 1 reports nothing. -/
structure ProgramPasses (statements : List Instruction) : Prop where
  walk : WalkAccepts statements
  resolved : VisibilityResolved (programEvents statements)
  located : LocationsDeclared statements

/-- Pass 1 reports nothing exactly when the parts of the program are in order. -/
theorem pass1Run_accepts_iff :
    errorHasAny (pass1Run instructions).errors = false ↔ ProgramPasses instructions.data := by
  rw [pass1Run]
  dsimp only
  rw [validateLocations_clean_iff, reportUndefined_clean_iff, pass1Walk_clean_iff]
  constructor
  · rintro ⟨⟨accepts, settled⟩, located⟩
    have reached := (pass1Walk_accepts instructions instructions.data).1 accepts
    rw [reached.debugFiles] at located
    exact ⟨accepts, (holdsEvents_report reached.symtable).mp settled, located⟩
  · rintro ⟨accepts, resolved, located⟩
    have reached := (pass1Walk_accepts instructions instructions.data).1 accepts
    rw [reached.debugFiles]
    exact ⟨⟨accepts, (holdsEvents_report reached.symtable).mpr resolved⟩, located⟩

/-- What pass 1 returns for a program it accepts. -/
theorem pass1Run_reached (passes : ProgramPasses instructions.data) :
    Pass1Reached instructions.data (pass1Walk instructions instructions.data) :=
  (pass1Walk_accepts instructions instructions.data).1 passes.walk

/-- The entry of a name after pass 1. -/
theorem pass1Run_find (passes : ProgramPasses instructions.data) (name : List UInt8) :
    findEntry (pass1Run instructions).symtable name =
      NameFacts.entry? name (factsOf name (programEvents instructions.data)) :=
  ((run_events _).2 _ (pass1Run_reached passes).symtable).2.entries name

end Run

end Nazm.Passes
