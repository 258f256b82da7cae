import Nazm.Passes.Renaming

/-!
The results of the passes under a renaming.

Owns that both passes accept a renamed program as they accept the program, and
return the same but for the names.

Does not own renamed sources.
-/

namespace Nazm.Passes

open Nazm.Encoder Nazm.Parser Nazm.Symtable Nazm.Unicode Nazm.Diagnostics

/-! ## Data -/

section Data

variable (rename : List UInt8 → List UInt8)

theorem stringBytes_renamed (op : Operand) : stringBytes (op.renamed rename) = stringBytes op := by
  obtain ⟨kind, line, col, endCol⟩ := op
  cases kind <;> rfl

theorem dataValue_renamed (op : Operand) : dataValue (op.renamed rename) = dataValue op := by
  obtain ⟨kind, line, col, endCol⟩ := op
  cases kind <;> rfl

theorem dataDirectiveBytes_renamed (instr : Instruction) (offset : Nat) :
    dataDirectiveBytes (instr.renamed rename) offset = dataDirectiveBytes instr offset := by
  unfold dataDirectiveBytes
  simp only [directiveKind_renamed, ops_renamed, alignmentBoundary?_renamed,
    dataDirectiveSize_renamed, List.flatMap_map, stringBytes_renamed, dataValue_renamed]

theorem isRipRelativeSymbolOperand_renamed (op : Operand) :
    isRipRelativeSymbolOperand (op.renamed rename) = isRipRelativeSymbolOperand op := by
  obtain ⟨kind, line, col, endCol⟩ := op
  cases kind <;> rfl

theorem isMovRegLabel_renamed (instr : Instruction) (operandIndex : Nat) :
    isMovRegLabel (instr.renamed rename) operandIndex = isMovRegLabel instr operandIndex := by
  unfold isMovRegLabel
  rw [opcode_renamed, ops_renamed]
  match instr.ops with
  | [] => rfl
  | [⟨first, _, _, _⟩] => cases first <;> rfl
  | [⟨first, _, _, _⟩, ⟨second, _, _, _⟩] => cases first <;> cases second <;> rfl
  | ⟨first, _, _, _⟩ :: ⟨second, _, _, _⟩ :: _ :: _ => cases first <;> cases second <;> rfl

def Relocation.renamed (relocation : Relocation) : Relocation :=
  { relocation with symbol := rename relocation.symbol }

theorem ripRelocations_renamed (textSize len : Nat) (ops : List Operand) :
    ripRelocations textSize len (ops.map (Operand.renamed rename)) =
      (ripRelocations textSize len ops).map (Relocation.renamed rename) := by
  induction ops with
  | nil => rfl
  | cons op ops inductionHypothesis =>
      obtain ⟨kind, line, col, endCol⟩ := op
      cases kind with
      | memRipLabel name =>
          simp only [List.map_cons, Operand.renamed, OperandKind.renamed, ripRelocations,
            inductionHypothesis]
          rfl
      | _ =>
          simp only [List.map_cons, Operand.renamed, OperandKind.renamed, ripRelocations,
            inductionHypothesis]

theorem dataRelocations_renamed (section_ : SymbolSection) (offset operandIndex : Nat)
    (ops : List Operand) :
    dataRelocations section_ offset operandIndex (ops.map (Operand.renamed rename)) =
      (dataRelocations section_ offset operandIndex ops).map (Relocation.renamed rename) := by
  induction ops generalizing operandIndex with
  | nil => rfl
  | cons op ops inductionHypothesis =>
      obtain ⟨kind, line, col, endCol⟩ := op
      cases kind with
      | label name =>
          simp only [List.map_cons, Operand.renamed, OperandKind.renamed, dataRelocations,
            inductionHypothesis]
          rfl
      | _ =>
          simp only [List.map_cons, Operand.renamed, OperandKind.renamed, dataRelocations,
            inductionHypothesis]

end Data

/-! ## Statements over renamed tables -/

section Statements

variable {rename : List UInt8 → List UInt8} {names : List (List UInt8)} {first second : SymbolTable}
  {instr : Instruction}

theorem symbolKnown_renamed (renamed : TableRenamed rename names first second)
    {name : List UInt8} (member : name ∈ names) :
    symbolKnown second (rename name) = symbolKnown first name := by
  rw [symbolKnown, symbolKnown, renamed.lookup member, renamed.isExternal member]

/-- The names of a statement are among the names that a table was renamed at. -/
def NamesIn (names : List (List UInt8)) (instr : Instruction) : Prop :=
  ∀ name ∈ instructionNames instr, name ∈ names

theorem NamesIn.operand (namesIn : NamesIn names instr) {op : Operand} (member : op ∈ instr.ops)
    {name : List UInt8} (named : symbolName? op = some name) : name ∈ names :=
  namesIn name (mem_names_of_operand member named)

theorem branchDisplacement_renamed (renamed : TableRenamed rename names first second)
    (namesIn : NamesIn names instr) (textSize : Nat) :
    branchDisplacement second (instr.renamed rename) textSize =
      branchDisplacement first instr textSize := by
  have size := instructionSize_renamed rename instr
  have member := fun op inOps => @NamesIn.operand _ _ namesIn op inOps
  unfold branchDisplacement
  rw [opcode_renamed, ops_renamed, size]
  revert member
  match instr.ops with
  | [] => exact fun _ => rfl
  | [⟨kind, _, _, _⟩] =>
      intro member
      cases kind with
      | label name =>
          have inNames : name ∈ names := member _ List.mem_cons_self rfl
          have lookup := renamed.lookup inNames
          simp only [List.map_cons, List.map_nil, Operand.renamed, OperandKind.renamed, lookup]
      | _ => rfl
  | ⟨kind, _, _, _⟩ :: _ :: _ =>
      intro _
      cases kind <;> rfl

theorem instructionBytes_renamed (renamed : TableRenamed rename names first second)
    (namesIn : NamesIn names instr) (textSize : Nat) :
    instructionBytes second (instr.renamed rename) textSize =
      instructionBytes first instr textSize := by
  rw [instructionBytes, instructionBytes, branchDisplacement_renamed renamed namesIn,
    opcode_renamed, ops_renamed, encoderEncode_renamed]

theorem emits_renamed (layout : Layout) :
    layout.Emits (instr.renamed rename) ↔ layout.Emits instr :=
  Iff.rfl

theorem stores_renamed (layout : Layout) :
    layout.Stores (instr.renamed rename) ↔ layout.Stores instr :=
  Iff.rfl

theorem statementBytes_renamed (renamed : TableRenamed rename names first second)
    (namesIn : NamesIn names instr) (layout : Layout) :
    statementBytes second layout (instr.renamed rename) = statementBytes first layout instr := by
  unfold statementBytes
  simp only [emits_renamed, stores_renamed, instructionBytes_renamed renamed namesIn,
    dataDirectiveBytes_renamed]

theorem labelRelocation?_renamed (renamed : TableRenamed rename names first second)
    {op : Operand} (member : ∀ name, symbolName? op = some name → name ∈ names)
    (textSize operandIndex : Nat) :
    labelRelocation? second (instr.renamed rename) textSize operandIndex (op.renamed rename) =
      (labelRelocation? first instr textSize operandIndex op).map (Relocation.renamed rename) := by
  obtain ⟨kind, line, col, endCol⟩ := op
  cases kind with
  | label name =>
      have lookup := renamed.lookup (member name rfl)
      have moves := isMovRegLabel_renamed rename instr operandIndex
      simp only [labelRelocation?, Operand.renamed, OperandKind.renamed, lookup, opcode_renamed,
        moves]
      split
      · split <;> rfl
      · split <;> rfl
  | _ => rfl

theorem labelRelocations_renamed (renamed : TableRenamed rename names first second)
    (textSize operandIndex : Nat) (ops : List Operand)
    (member : ∀ op ∈ ops, ∀ name, symbolName? op = some name → name ∈ names) :
    labelRelocations second (instr.renamed rename) textSize operandIndex
        (ops.map (Operand.renamed rename)) =
      (labelRelocations first instr textSize operandIndex ops).map (Relocation.renamed rename) := by
  induction ops generalizing operandIndex with
  | nil => rfl
  | cons op ops inductionHypothesis =>
      have here := @labelRelocation?_renamed _ _ _ _ instr renamed _
        (member op List.mem_cons_self) textSize operandIndex
      rw [List.map_cons, labelRelocations, labelRelocations, here, List.map_append,
        inductionHypothesis (operandIndex + 1) fun op inOps =>
          member op (List.mem_cons_of_mem _ inOps)]
      cases labelRelocation? first instr textSize operandIndex op <;> rfl

theorem statementRelocations_renamed (renamed : TableRenamed rename names first second)
    (namesIn : NamesIn names instr) (layout : Layout) :
    statementRelocations second layout (instr.renamed rename) =
      (statementRelocations first layout instr).map (Relocation.renamed rename) := by
  unfold statementRelocations
  simp only [emits_renamed, stores_renamed, directiveKind_renamed, ops_renamed,
    instructionSize_renamed]
  split
  · rw [labelRelocations_renamed renamed _ _ _ fun op inOps name named =>
      namesIn.operand inOps named, ripRelocations_renamed, List.map_append]
  · split
    · rw [dataRelocations_renamed]
    · rfl

/-! ## Checks of pass 2 -/

theorem symbolName?_renamed (op : Operand) :
    symbolName? (op.renamed rename) = (symbolName? op).map rename := by
  obtain ⟨kind, line, col, endCol⟩ := op
  cases kind <;> rfl

theorem label_renamed {op : Operand} {name : List UInt8} :
    (op.renamed rename).kind = .label name ↔ ∃ old, op.kind = .label old ∧ name = rename old := by
  obtain ⟨kind, line, col, endCol⟩ := op
  cases kind <;> simp [Operand.renamed, OperandKind.renamed, eq_comm]

theorem name_of_label {op : Operand} {name : List UInt8} (kind : op.kind = .label name) :
    symbolName? op = some name := by
  rw [symbolName?, kind]

theorem operandResolved_renamed (renamed : TableRenamed rename names first second)
    {op : Operand} (member : ∀ name, symbolName? op = some name → name ∈ names) (textSize : Nat) :
    OperandResolved second (instr.renamed rename) textSize (op.renamed rename) ↔
      OperandResolved first instr textSize op := by
  constructor
  · rintro ⟨known, lands⟩
    refine ⟨fun name named => ?_, fun name targetOffset targetSection kind relative found => ?_⟩
    · rw [← symbolKnown_renamed renamed (member name named)]
      exact known (rename name) (by rw [symbolName?_renamed, named]; rfl)
    · rw [← instructionSize_renamed rename instr]
      rw [← renamed.lookup (member name (name_of_label kind))] at found
      exact lands (rename name) targetOffset targetSection (label_renamed.mpr ⟨name, kind, rfl⟩)
        relative found
  · rintro ⟨known, lands⟩
    refine ⟨fun name named => ?_, fun name targetOffset targetSection kind relative found => ?_⟩
    · rw [symbolName?_renamed] at named
      obtain ⟨old, isOld, rfl⟩ := Option.map_eq_some_iff.mp named
      rw [symbolKnown_renamed renamed (member old isOld)]
      exact known old isOld
    · obtain ⟨old, isOld, rfl⟩ := label_renamed.mp kind
      rw [renamed.lookup (member old (name_of_label isOld))] at found
      rw [instructionSize_renamed]
      exact lands old targetOffset targetSection isOld relative found

theorem operandLinked_renamed (renamed : TableRenamed rename names first second)
    {op : Operand} (member : ∀ name, symbolName? op = some name → name ∈ names)
    (operandIndex : Nat) :
    OperandLinked second (instr.renamed rename) operandIndex (op.renamed rename) ↔
      OperandLinked first instr operandIndex op := by
  have moves := isMovRegLabel_renamed rename instr operandIndex
  constructor
  · intro linked name kind undefined
    rw [← renamed.lookup (member name (name_of_label kind))] at undefined
    have forms := linked (rename name) (label_renamed.mpr ⟨name, kind, rfl⟩) undefined
    rwa [opcode_renamed, moves] at forms
  · intro linked name kind undefined
    obtain ⟨old, isOld, rfl⟩ := label_renamed.mp kind
    rw [renamed.lookup (member old (name_of_label isOld))] at undefined
    rw [opcode_renamed, moves]
    exact linked old isOld undefined

theorem instructionReady_renamed (renamed : TableRenamed rename names first second)
    (namesIn : NamesIn names instr) (textSize : Nat) :
    InstructionReady second textSize (instr.renamed rename) ↔
      InstructionReady first textSize instr := by
  have rip : ((instr.renamed rename).ops.any isRipRelativeSymbolOperand) =
      instr.ops.any isRipRelativeSymbolOperand := by
    rw [ops_renamed, List.any_map]
    exact congrArg instr.ops.any (funext (isRipRelativeSymbolOperand_renamed rename))
  have resolves : ∀ op ∈ instr.ops,
      (OperandResolved second (instr.renamed rename) textSize (op.renamed rename) ↔
        OperandResolved first instr textSize op) :=
    fun op inOps => operandResolved_renamed renamed (fun _ => namesIn.operand inOps) textSize
  have links : ∀ operandIndex, ∀ op ∈ instr.ops,
      (OperandLinked second (instr.renamed rename) operandIndex (op.renamed rename) ↔
        OperandLinked first instr operandIndex op) := fun operandIndex op inOps =>
    operandLinked_renamed renamed (fun _ => namesIn.operand inOps) operandIndex
  constructor
  · rintro ⟨encoded, displaced, resolved, linked⟩
    rw [instructionBytes_renamed renamed namesIn] at encoded
    rw [rip, instructionSize_renamed] at displaced
    refine ⟨encoded, displaced, fun op inOps => ?_, fun operandIndex op there => ?_⟩
    · exact (resolves op inOps).mp (resolved _ (List.mem_map_of_mem inOps))
    · refine (links operandIndex op (List.mem_of_getElem? there)).mp (linked operandIndex _ ?_)
      rw [ops_renamed, List.getElem?_map, there]
      rfl
  · rintro ⟨encoded, displaced, resolved, linked⟩
    refine ⟨?_, ?_, fun op inOps => ?_, fun operandIndex op there => ?_⟩
    · rwa [instructionBytes_renamed renamed namesIn]
    · rwa [rip, instructionSize_renamed]
    · obtain ⟨old, inOld, rfl⟩ := List.mem_map.mp inOps
      exact (resolves old inOld).mpr (resolved old inOld)
    · rw [ops_renamed, List.getElem?_map] at there
      obtain ⟨old, isOld, rfl⟩ := Option.map_eq_some_iff.mp there
      exact (links operandIndex old (List.mem_of_getElem? isOld)).mpr (linked operandIndex old isOld)

theorem dataReady_renamed (renamed : TableRenamed rename names first second)
    (namesIn : NamesIn names instr) (offset : Nat) :
    DataReady second offset (instr.renamed rename) ↔ DataReady first offset instr := by
  constructor
  · rintro ⟨stored, known⟩
    rw [dataDirectiveBytes_renamed, dataDirectiveSizeAt_renamed] at stored
    refine ⟨stored, fun isInt64 op inOps name kind => ?_⟩
    rw [← symbolKnown_renamed renamed (namesIn.operand inOps (name_of_label kind))]
    exact known isInt64 _ (List.mem_map_of_mem inOps) _ (label_renamed.mpr ⟨name, kind, rfl⟩)
  · rintro ⟨stored, known⟩
    refine ⟨?_, fun isInt64 op inOps name kind => ?_⟩
    · rwa [dataDirectiveBytes_renamed, dataDirectiveSizeAt_renamed]
    · obtain ⟨old, inOld, rfl⟩ := List.mem_map.mp inOps
      obtain ⟨oldName, isOld, rfl⟩ := label_renamed.mp kind
      rw [symbolKnown_renamed renamed (namesIn.operand inOld (name_of_label isOld))]
      exact known isInt64 old inOld oldName isOld

theorem statementReady_renamed (renamed : TableRenamed rename names first second)
    (namesIn : NamesIn names instr) (layout : Layout) :
    StatementReady second layout (instr.renamed rename) ↔ StatementReady first layout instr := by
  constructor
  · rintro ⟨instruction, data⟩
    exact ⟨fun emits => (instructionReady_renamed renamed namesIn _).mp (instruction emits),
      fun stores => (dataReady_renamed renamed namesIn _).mp (data stores)⟩
  · rintro ⟨instruction, data⟩
    exact ⟨fun emits => (instructionReady_renamed renamed namesIn _).mpr (instruction emits),
      fun stores => (dataReady_renamed renamed namesIn _).mpr (data stores)⟩

end Statements

/-! ## Programs -/

section Programs

variable {rename : List UInt8 → List UInt8} {first second : SymbolTable}
  {statements : List Instruction}

theorem namesIn_of_mem {instr : Instruction} (member : instr ∈ statements) :
    NamesIn (programNames statements) instr :=
  fun _ named => mem_programNames member named

theorem programReady_renamed (renamed : TableRenamed rename (programNames statements) first second) :
    ProgramReady second (statements.map (Instruction.renamed rename)) ↔
      ProgramReady first statements := by
  constructor
  · intro ready before instr after split
    have here := ready (before.map (Instruction.renamed rename)) (instr.renamed rename)
      (after.map (Instruction.renamed rename)) (by rw [split]; simp)
    rw [after_renamed] at here
    exact (statementReady_renamed renamed (namesIn_of_mem (by rw [split]; simp)) _).mp here
  · intro ready before instr after split
    obtain ⟨front, rest, rfl, rfl, equal⟩ := List.map_eq_append_iff.mp split
    obtain ⟨old, back, rfl, rfl, rfl⟩ := List.map_eq_cons_iff.mp equal
    rw [after_renamed]
    exact (statementReady_renamed renamed (namesIn_of_mem (by simp)) _).mpr (ready front old back rfl)

theorem mem_statements_of_places {layout : Layout} {instr : Instruction}
    (member : (layout, instr) ∈ Layout.start.places statements) : instr ∈ statements := by
  obtain ⟨before, after, rfl, -⟩ := mem_places.mp member
  simp

theorem sectionImage_renamed (renamed : TableRenamed rename (programNames statements) first second)
    (section_ : SymbolSection) :
    sectionImage second section_ (statements.map (Instruction.renamed rename)) =
      sectionImage first section_ statements := by
  rw [sectionImage, sectionImage, places_renamed, List.flatMap_map]
  refine List.flatMap_congr fun place member => ?_
  obtain ⟨layout, instr⟩ := place
  dsimp only
  rw [statementBytes_renamed renamed (namesIn_of_mem (mem_statements_of_places member))]

theorem programRelocations_renamed
    (renamed : TableRenamed rename (programNames statements) first second) :
    programRelocations second (statements.map (Instruction.renamed rename)) =
      (programRelocations first statements).map (Relocation.renamed rename) := by
  rw [programRelocations, programRelocations, places_renamed, List.flatMap_map, List.map_flatMap]
  refine List.flatMap_congr fun place member => ?_
  obtain ⟨layout, instr⟩ := place
  exact statementRelocations_renamed renamed (namesIn_of_mem (mem_statements_of_places member)) _

end Programs

/-! ## Runs -/

/-- What the passes return for the second list is what they return for the
first, under the new names. -/
structure ResultsRenamed (rename : List UInt8 → List UInt8) (first second : InstructionList) :
    Prop where
  entries : TableRenamed rename (programNames first.data) (pass1Run first).symtable
    (pass1Run second).symtable
  names : ∀ entry ∈ (pass1Run second).symtable.entries,
    ∃ name ∈ programNames first.data, entry.name = rename name
  alignments : (pass1Run second).alignments = (pass1Run first).alignments
  debugFiles : (pass1Run second).debugFiles = (pass1Run first).debugFiles
  bytes : ∀ section_, (pass2Run second (pass1Run second)).bytesIn section_ =
    (pass2Run first (pass1Run first)).bytesIn section_
  sizes : (pass2Run second (pass1Run second)).sizes = (pass2Run first (pass1Run first)).sizes
  relocations : (pass2Run second (pass1Run second)).relocations =
    (pass2Run first (pass1Run first)).relocations.map (Relocation.renamed rename)
  debugLines : (pass2Run second (pass1Run second)).debugLines =
    (pass2Run first (pass1Run first)).debugLines

section Runs

variable {rename : List UInt8 → List UInt8} {first second : InstructionList}

theorem tableRenamed_of_passes
    (isRenamed : second.data = first.data.map (Instruction.renamed rename))
    (distinguishes : Distinguishes rename first.data) (passes : ProgramPasses first.data) :
    TableRenamed rename (programNames first.data) (pass1Run first).symtable
      (pass1Run second).symtable where
  entries name member := by
    have passes' : ProgramPasses second.data := by
      rw [isRenamed]
      exact (programPasses_renamed distinguishes).mpr passes
    rw [pass1Run_find passes', pass1Run_find passes, isRenamed, programEvents_renamed,
      factsOf_renamed fun event inEvents equal =>
        distinguishes (name_mem_of_event inEvents) member equal]
    exact entry?_renamed _ _

/-- Both passes accept a renamed list as they accept the list, and return the
same under the new names. -/
theorem passes_map_renamed (isRenamed : second.data = first.data.map (Instruction.renamed rename))
    (distinguishes : Distinguishes rename first.data) :
    (errorHasAny (pass1Run second).errors = false ↔ errorHasAny (pass1Run first).errors = false) ∧
      (errorHasAny (pass1Run first).errors = false →
        (errorHasAny (pass2Run second (pass1Run second)).errors = false ↔
          errorHasAny (pass2Run first (pass1Run first)).errors = false)) ∧
      (ProgramAccepted first → ResultsRenamed rename first second) := by
  have sizes : errorHasAny (pass1Run second).errors = false ↔
      errorHasAny (pass1Run first).errors = false := by
    rw [pass1Run_accepts_iff, pass1Run_accepts_iff, isRenamed, programPasses_renamed distinguishes]
  have encodes : errorHasAny (pass1Run first).errors = false →
      (errorHasAny (pass2Run second (pass1Run second)).errors = false ↔
        errorHasAny (pass2Run first (pass1Run first)).errors = false) := by
    intro sized
    have table := tableRenamed_of_passes isRenamed distinguishes (pass1Run_accepts_iff.mp sized)
    rw [pass2Run_accepts_iff sized, pass2Run_accepts_iff (sizes.mpr sized), isRenamed,
      programReady_renamed table]
  refine ⟨sizes, encodes, fun accepted => ?_⟩
  have accepted' : ProgramAccepted second :=
    ⟨sizes.mpr accepted.sized, (encodes accepted.sized).mpr accepted.encoded⟩
  have passes := pass1Run_accepts_iff.mp accepted.sized
  have passes' := pass1Run_accepts_iff.mp accepted'.sized
  have table := tableRenamed_of_passes isRenamed distinguishes passes
  have reached := pass1Run_reached passes
  have reached' := pass1Run_reached passes'
  obtain ⟨bytes, relocations, -, total⟩ := pass2Run_image accepted
  obtain ⟨bytes', relocations', -, total'⟩ := pass2Run_image accepted'
  exact
    { entries := table
      names := fun entry member => by
        have found := (pass1Run_find passes' entry.name).symm.trans
          (ChainedTable.mem_entries_iff.mp member)
        rw [NameFacts.entry?, Option.ite_none_left_eq_some] at found
        obtain ⟨event, inEvents, named⟩ := exists_event_of_facts found.1
        rw [isRenamed, programEvents_renamed, List.mem_map] at inEvents
        obtain ⟨old, inOld, rfl⟩ := inEvents
        exact ⟨old.name, name_mem_of_event inOld, by rw [← named, SymbolEvent.name_renamed]⟩
      alignments := by
        have same : (pass1Run second).alignments = programAlignments second.data :=
          reached'.alignments
        rw [isRenamed, programAlignments_renamed] at same
        exact same.trans reached.alignments.symm
      debugFiles := by
        have same : (pass1Run second).debugFiles = second.data.filterMap declaredFile? :=
          reached'.debugFiles
        rw [isRenamed, declaredFiles_renamed] at same
        exact same.trans reached.debugFiles.symm
      bytes := fun section_ => by
        rw [bytes', bytes, isRenamed, sectionImage_renamed table]
      sizes := by rw [total', total, isRenamed, after_renamed]
      relocations := by rw [relocations', relocations, isRenamed, programRelocations_renamed table]
      debugLines := by
        rw [pass2Run_rows accepted', pass2Run_rows accepted, isRenamed, programRows_renamed] }

theorem renamed_id_events (events : List SymbolEvent) :
    events.map (SymbolEvent.renamed id) = events := by
  refine (List.map_congr_left fun event _ => ?_).trans (List.map_id events)
  cases event <;> rfl

/-- Lists that differ in spans alone have one symbol table. -/
theorem symtable_map_renamed (isRenamed : second.data = first.data.map (Instruction.renamed id))
    (passes : ProgramPasses first.data) :
    (pass1Run second).symtable = (pass1Run first).symtable := by
  have passes' : ProgramPasses second.data := by
    rw [isRenamed]
    exact (programPasses_renamed (Set.injOn_id _)).mpr passes
  have reached : Walk.run SymbolEvent.step (programEvents first.data) .empty =
      .ok (pass1Run first).symtable := (pass1Run_reached passes).symtable
  have reached' : Walk.run SymbolEvent.step (programEvents second.data) .empty =
      .ok (pass1Run second).symtable := (pass1Run_reached passes').symtable
  rw [isRenamed, programEvents_renamed, renamed_id_events, reached] at reached'
  exact (Except.ok.inj reached').symm

theorem renamed_id_relocations (relocations : List Relocation) :
    relocations.map (Relocation.renamed id) = relocations :=
  List.map_id relocations

/-- Both passes accept a list that is another one renamed, up to spans, as they
accept the other one, and return the same under the new names. -/
theorem passes_renamed (renamed : List.Forall₂ (Renamed rename) first.data second.data)
    (distinguishes : Distinguishes rename first.data) :
    (errorHasAny (pass1Run second).errors = false ↔ errorHasAny (pass1Run first).errors = false) ∧
      (errorHasAny (pass1Run first).errors = false →
        (errorHasAny (pass2Run second (pass1Run second)).errors = false ↔
          errorHasAny (pass2Run first (pass1Run first)).errors = false)) ∧
      (ProgramAccepted first → ResultsRenamed rename first second) := by
  -- the renamed list without its spans stands between the two
  obtain ⟨middle, isMiddle⟩ : ∃ middle : InstructionList,
      middle.data = first.data.map (Instruction.renamed rename) := ⟨⟨_, none⟩, rfl⟩
  have isSpanless : middle.data = second.data.map (Instruction.renamed id) :=
    isMiddle.trans (map_renamed renamed).symm
  obtain ⟨sized, encoded, results⟩ := passes_map_renamed isMiddle distinguishes
  obtain ⟨sized', encoded', results'⟩ := passes_map_renamed isSpanless (Set.injOn_id _)
  have sizes := sized'.symm.trans sized
  have encodes : errorHasAny (pass1Run first).errors = false →
      (errorHasAny (pass2Run second (pass1Run second)).errors = false ↔
        errorHasAny (pass2Run first (pass1Run first)).errors = false) :=
    fun clean => (encoded' (sizes.mpr clean)).symm.trans (encoded clean)
  refine ⟨sizes, encodes, fun accepted => ?_⟩
  have one := results accepted
  have two := results' ⟨sizes.mpr accepted.sized, (encodes accepted.sized).mpr accepted.encoded⟩
  have symtable := symtable_map_renamed isSpanless
    (pass1Run_accepts_iff.mp (sizes.mpr accepted.sized))
  have relocations := two.relocations
  rw [renamed_id_relocations] at relocations
  exact
    { entries := symtable ▸ one.entries
      names := symtable ▸ one.names
      alignments := two.alignments.symm.trans one.alignments
      debugFiles := two.debugFiles.symm.trans one.debugFiles
      bytes := fun section_ => (two.bytes section_).symm.trans (one.bytes section_)
      sizes := two.sizes.symm.trans one.sizes
      relocations := relocations.symm.trans one.relocations
      debugLines := two.debugLines.symm.trans one.debugLines }

/-- Lists that are the same up to spans have one symbol table. -/
theorem symtable_of_spans (same : List.Forall₂ (Renamed id) first.data second.data)
    (sized : errorHasAny (pass1Run first).errors = false) :
    (pass1Run second).symtable = (pass1Run first).symtable := by
  obtain ⟨middle, isMiddle⟩ : ∃ middle : InstructionList,
      middle.data = first.data.map (Instruction.renamed id) := ⟨⟨_, none⟩, rfl⟩
  have isSpanless : middle.data = second.data.map (Instruction.renamed id) :=
    isMiddle.trans (map_renamed same).symm
  have sized' := (passes_renamed same (Set.injOn_id _)).1.mpr sized
  exact (symtable_map_renamed isSpanless (pass1Run_accepts_iff.mp sized')).symm.trans
    (symtable_map_renamed isMiddle (pass1Run_accepts_iff.mp sized))

end Runs

end Nazm.Passes
