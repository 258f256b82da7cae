import Nazm.Passes.Tiling

/-!
What pass 2 accepts, and the line table that it returns.

Owns the rows of the line table as a function of the statements, the condition
on a statement under which pass 2 reports nothing for it, and the refinement:
after pass 1, pass 2 reports nothing exactly when every statement meets the
condition where it stands.

Does not own the image of a statement, nor the order of the statements.
-/

namespace Nazm.Passes

open Nazm.Encoder Nazm.Parser Nazm.Symtable Nazm.Unicode Nazm.Diagnostics

/-! ## Rows of the line table -/

/-- The locals of the loop that `.موضع` sets. -/
structure DebugLocation where
  file : UInt32
  line : UInt32
  column : UInt32
deriving DecidableEq, Repr

def DebugLocation.cleared : DebugLocation := ⟨0, 0, 0⟩

def Pass2State.location (state : Pass2State) : DebugLocation :=
  ⟨state.debugFile, state.debugLine, state.debugColumn⟩

/-- The location that a statement sets. -/
def location? (instr : Instruction) : Option DebugLocation :=
  match instr.directiveKind, instr.ops with
  | .debugLocation, [⟨.imm file, _, _, _⟩, ⟨.imm line, _, _, _⟩, ⟨.imm column, _, _, _⟩] =>
      some ⟨file.toUInt64.toUInt32, line.toUInt64.toUInt32, column.toUInt64.toUInt32⟩
  | _, _ => none

/-- The row of an instruction, where a location is active. -/
def statementRows (location : DebugLocation) (layout : Layout) (instr : Instruction) :
    List DebugLine :=
  if layout.Emits instr ∧ location.file ≠ 0 ∧ location.line ≠ 0 then
    [⟨layout.sizes.text, location.file, location.line, location.column⟩]
  else []

/-- The location that is active after a list of statements. -/
def activeLocation (before : List Instruction) : DebugLocation :=
  ((before.filterMap location?).getLast?).getD .cleared

theorem activeLocation_snoc (before : List Instruction) (instr : Instruction) :
    activeLocation (before ++ [instr]) = (location? instr).getD (activeLocation before) := by
  rw [activeLocation, List.filterMap_append]
  cases location : location? instr <;> simp [location, activeLocation]

/-- The rows of statements at their places, from a location on. -/
def rowsFrom : DebugLocation → List (Layout × Instruction) → List DebugLine
  | _, [] => []
  | location, (layout, instr) :: places =>
      statementRows location layout instr ++ rowsFrom ((location? instr).getD location) places

def programRows (statements : List Instruction) : List DebugLine :=
  rowsFrom .cleared (Layout.start.places statements)

theorem rowsFrom_append (location : DebugLocation) (front back : List (Layout × Instruction)) :
    rowsFrom location (front ++ back) =
      rowsFrom location front ++
        rowsFrom (((front.map Prod.snd).filterMap location?).getLast?.getD location) back := by
  induction front generalizing location with
  | nil => rfl
  | cons place front inductionHypothesis =>
      obtain ⟨layout, instr⟩ := place
      rw [List.cons_append, rowsFrom, rowsFrom, inductionHypothesis, List.append_assoc, List.map_cons]
      dsimp only
      cases location? : location? instr with
      | none => rw [List.filterMap_cons_none location?]; rfl
      | some next =>
          rw [List.filterMap_cons_some location?, List.getLast?_cons, Option.getD_some,
            Option.getD_some]

theorem map_snd_places (layout : Layout) (statements : List Instruction) :
    (layout.places statements).map Prod.snd = statements := by
  induction statements generalizing layout with
  | nil => rfl
  | cons instr statements inductionHypothesis =>
      rw [Layout.places, List.map_cons, inductionHypothesis]

theorem programRows_snoc (before : List Instruction) (instr : Instruction) :
    programRows (before ++ [instr]) =
      programRows before ++ statementRows (activeLocation before) (Layout.after before) instr := by
  rw [programRows, places_snoc, rowsFrom_append, map_snd_places]
  simp only [rowsFrom, List.append_nil]
  rfl

/-! ## Rows of one turn -/

section Turns

variable {instructions : InstructionList} {pass1 : Pass1Result} {state next : Pass2State}
  {instr : Instruction}

/-- A turn that adds its rows and sets its location. -/
structure RowsTurn (state next : Pass2State) (instr : Instruction) : Prop where
  location : next.location = (location? instr).getD state.location
  rows : next.result.debugLines =
    state.result.debugLines ++ statementRows state.location state.layout instr

theorem location?_of_other (other : instr.directiveKind ≠ .debugLocation) :
    location? instr = none := by
  unfold location?
  split
  · next kind _ => exact absurd kind other
  · rfl

theorem rowsTurn_of_nothing (other : instr.directiveKind ≠ .debugLocation)
    (silent : ¬ state.layout.Emits instr) (location : next.location = state.location)
    (rows : next.result.debugLines = state.result.debugLines) : RowsTurn state next instr where
  location := by rw [location, location?_of_other other, Option.getD_none]
  rows := by rw [rows, statementRows, if_neg fun row => silent row.1, List.append_nil]

theorem fillNops_rows {textCap sz : Nat} (turn : fillNops textCap state instr sz = .ok next) :
    next.location = state.location ∧ next.result.debugLines = state.result.debugLines := by
  unfold fillNops at turn
  split at turn
  · contradiction
  · obtain rfl := Except.ok.inj turn
    exact ⟨rfl, rfl⟩

theorem appendInstruction_rows {textCap sz : Nat} {bytes : List UInt8}
    (turn : appendInstruction textCap state instr sz bytes = .ok next) :
    next.location = state.location ∧ next.result.debugLines = state.result.debugLines := by
  unfold appendInstruction at turn
  dsimp only at turn
  split at turn
  · contradiction
  · split at turn
    · contradiction
    · split at turn
      · contradiction
      · obtain rfl := Except.ok.inj turn
        exact ⟨rfl, rfl⟩

/-- An instruction has its row whether it is encoded or replaced by NOPs. -/
theorem pass2Instruction_rows (emits : state.layout.Emits instr)
    (turn : pass2Instruction instructions pass1 state instr = .ok next) :
    RowsTurn state next instr := by
  have other : instr.directiveKind ≠ .debugLocation := by
    rw [emits.1]
    decide
  have both : next.location = state.location ∧ next.result.debugLines =
      if state.debugFile ≠ 0 ∧ state.debugLine ≠ 0 then
        state.result.debugLines ++
          [⟨state.result.textBytes.length, state.debugFile, state.debugLine, state.debugColumn⟩]
      else state.result.debugLines := by
    unfold pass2Instruction at turn
    dsimp only at turn
    split at turn
    · exact fillNops_rows turn
    · split at turn
      · exact fillNops_rows turn
      · exact appendInstruction_rows turn
  refine ⟨by rw [both.1, location?_of_other other, Option.getD_none], ?_⟩
  rw [both.2, statementRows]
  by_cases active : state.debugFile ≠ 0 ∧ state.debugLine ≠ 0
  · rw [if_pos active, if_pos ⟨emits, active⟩]
    rfl
  · rw [if_neg active, if_neg fun row => active row.2, List.append_nil]

theorem setSectionBytes_debugLines (result : Pass2Result) (section_ : SymbolSection)
    (bytes : List UInt8) : (result.setSectionBytes section_ bytes).debugLines = result.debugLines := by
  cases section_ <;> rfl

theorem pass2DataDirective_rows
    (turn : pass2DataDirective instructions pass1 state instr = .ok next) :
    next.location = state.location ∧ next.result.debugLines = state.result.debugLines := by
  unfold pass2DataDirective at turn
  dsimp only at turn
  split at turn
  · obtain rfl := Except.ok.inj turn
    exact ⟨rfl, rfl⟩
  · split at turn
    · contradiction
    · split at turn
      · obtain rfl := Except.ok.inj turn
        exact ⟨rfl, rfl⟩
      · obtain ⟨resolved, -, rfl, -⟩ := pass2DataBytes_ok turn
        exact ⟨rfl, setSectionBytes_debugLines _ _ _⟩

theorem pass2DebugLocation_rows (kind : instr.directiveKind = .debugLocation)
    (turn : pass2DebugLocation state instr = .ok next) : RowsTurn state next instr := by
  have silent : ¬ state.layout.Emits instr := fun emits => by
    have none := emits.1
    rw [kind] at none
    contradiction
  have rows : state.result.debugLines =
      state.result.debugLines ++ statementRows state.location state.layout instr := by
    rw [statementRows, if_neg fun row => silent row.1, List.append_nil]
  unfold pass2DebugLocation at turn
  split at turn
  · next file _ _ _ line _ _ _ column _ _ _ ops =>
      obtain rfl := Except.ok.inj turn
      refine ⟨?_, rows⟩
      rw [location?, kind, ops]
      rfl
  · next notThree =>
      obtain rfl := Except.ok.inj turn
      refine ⟨?_, rows⟩
      have absent : location? instr = none := by
        unfold location?
        split
        · next ops => exact absurd ops (notThree _ _ _ _ _ _ _ _ _ _ _ _)
        · rfl
      rw [absent]
      rfl

/-- Every turn of pass 2 that goes on adds its rows. -/
theorem pass2Step_rows (turn : pass2Step instructions pass1 state instr = .ok next) :
    RowsTurn state next instr := by
  by_cases emits : state.layout.Emits instr
  · have step : pass2Step instructions pass1 state instr =
        pass2Instruction instructions pass1 state instr := by
      rw [pass2Step, emits.1]
      exact if_neg fun nothing => nothing.elim emits.2.1 fun elsewhere => elsewhere emits.2.2
    rw [step] at turn
    exact pass2Instruction_rows emits turn
  · unfold pass2Step at turn
    split at turn
    · next kind =>
        split at turn
        · obtain rfl := Except.ok.inj turn
          exact rowsTurn_of_nothing (by rw [kind]; decide) emits rfl rfl
        · next stands =>
            rw [not_or, not_not] at stands
            exact absurd ⟨kind, stands⟩ emits
    all_goals try
      next kind =>
        obtain rfl := Except.ok.inj turn
        exact rowsTurn_of_nothing (by rw [kind]; decide) emits rfl rfl
    · next kind => exact pass2DebugLocation_rows kind turn
    all_goals
      next kind =>
        obtain ⟨location, rows⟩ := pass2DataDirective_rows turn
        exact rowsTurn_of_nothing (by rw [kind]; decide) emits location rows

end Turns

/-! ## Statements that pass 2 accepts -/

/-- A label operand that is not defined: only a branch or MOV may name it. -/
def OperandLinked (symtable : SymbolTable) (instr : Instruction) (operandIndex : Nat)
    (op : Operand) : Prop :=
  ∀ label, op.kind = .label label → symtableLookupEx symtable label = none →
    opcodeUsesRelativeLabel instr.opcode = true ∨ isMovRegLabel instr operandIndex = true

/-- What pass 2 requires of an instruction at `textSize`. -/
structure InstructionReady (symtable : SymbolTable) (textSize : Nat) (instr : Instruction) :
    Prop where
  encoded : (instructionBytes symtable instr textSize).isSome = true
  displaced : instr.ops.any isRipRelativeSymbolOperand = true → 4 ≤ instructionSize instr
  resolved : ∀ op ∈ instr.ops, OperandResolved symtable instr textSize op
  linked : ∀ operandIndex op, instr.ops[operandIndex]? = some op →
    OperandLinked symtable instr operandIndex op

/-- What pass 2 requires of a data directive at an offset. -/
structure DataReady (symtable : SymbolTable) (offset : Nat) (instr : Instruction) : Prop where
  stored : ((dataDirectiveBytes instr offset).length : Int) = dataDirectiveSizeAt instr offset
  known : instr.directiveKind = .int64 →
    ∀ op ∈ instr.ops, ∀ label, op.kind = .label label → symbolKnown symtable label = true

/-- What pass 2 requires of a statement where it stands. -/
structure StatementReady (symtable : SymbolTable) (layout : Layout) (instr : Instruction) :
    Prop where
  instruction : layout.Emits instr → InstructionReady symtable layout.sizes.text instr
  data : layout.Stores instr → DataReady symtable layout.offset instr

section Ready

variable {instructions : InstructionList} {symtable : SymbolTable} {pass1 : Pass1Result}
  {state next : Pass2State} {instr : Instruction} {textSize : Nat}

/-! ### Operands -/

theorem resolveOperand_linked {operandIndex : Nat} {operand : Operand} {resolution : Resolution}
    (clean : errorHasAny (resolveOperand instructions symtable instr textSize
      (instructionSize instr) operandIndex operand resolution).errors = false) :
    OperandLinked symtable instr operandIndex operand := by
  intro label kind undefined
  simp only [resolveOperand, kind, undefined, resolveUndefined] at clean
  split at clean
  · next branch => exact .inl (Bool.and_eq_true_iff.mp branch).2
  · split at clean
    · next mov => exact .inr (Bool.and_eq_true_iff.mp mov).2
    · simp at clean

theorem resolveOperands_linked {operandIndex : Nat} (operands : List Operand)
    {resolution : Resolution}
    (clean : errorHasAny (resolveOperands instructions symtable instr textSize
      (instructionSize instr) operandIndex operands resolution).errors = false)
    (index : Nat) (op : Operand) (there : operands[index]? = some op) :
    OperandLinked symtable instr (operandIndex + index) op := by
  induction operands generalizing operandIndex index resolution with
  | nil => contradiction
  | cons operand operands inductionHypothesis =>
      rw [resolveOperands] at clean
      cases index with
      | zero =>
          obtain rfl := Option.some.inj there
          have here : errorHasAny (resolveOperand instructions symtable instr textSize
              (instructionSize instr) operandIndex operand resolution).errors = false := ?_
          · exact resolveOperand_linked here
          by_contra dirty
          rw [resolveOperands_keeps_dirty operands (by simpa using dirty)] at clean
          contradiction
      | succ index =>
          have rest := inductionHypothesis clean index there
          rwa [show operandIndex + 1 + index = operandIndex + (index + 1) by omega] at rest

/-- An operand that resolves and is linked reports nothing. -/
theorem resolveOperand_errors {operandIndex : Nat} {operand : Operand} {resolution : Resolution}
    (resolved : OperandResolved symtable instr textSize operand)
    (linked : OperandLinked symtable instr operandIndex operand) :
    (resolveOperand instructions symtable instr textSize (instructionSize instr) operandIndex
      operand resolution).errors = resolution.errors := by
  unfold resolveOperand
  split
  · next label kind =>
      rw [if_pos (resolved.known label (by rw [symbolName?, kind]))]
  · next label kind =>
      have known := resolved.known label (by rw [symbolName?, kind])
      split
      · next targetOffset targetSection found =>
          unfold resolveDefined
          split
          · next relative =>
              obtain ⟨text, lower, upper⟩ := resolved.lands label _ _ kind relative found
              rw [if_neg (not_not.mpr text)]
              dsimp only
              rw [if_neg (by omega)]
          · split <;> rfl
      · next undefined =>
          have isExternal : symtableIsExternal symtable label = true := by
            simpa [symbolKnown, undefined] using known
          unfold resolveUndefined
          rw [isExternal, Bool.true_and, Bool.true_and]
          rcases linked label kind undefined with relative | mov
          · rw [if_pos relative]
            rfl
          · rw [if_pos mov]
            split <;> rfl
  · rfl

theorem resolveOperands_errors {operandIndex : Nat} (operands : List Operand)
    {resolution : Resolution}
    (resolved : ∀ op ∈ operands, OperandResolved symtable instr textSize op)
    (linked : ∀ index op, operands[index]? = some op →
      OperandLinked symtable instr (operandIndex + index) op) :
    (resolveOperands instructions symtable instr textSize (instructionSize instr) operandIndex
      operands resolution).errors = resolution.errors := by
  induction operands generalizing operandIndex resolution with
  | nil => rfl
  | cons operand operands inductionHypothesis =>
      rw [resolveOperands, inductionHypothesis
        (fun op member => resolved op (List.mem_cons_of_mem _ member)) fun index op there => ?_]
      · exact resolveOperand_errors (resolved operand List.mem_cons_self) (linked 0 operand rfl)
      · have rest := linked (index + 1) op there
        rwa [show operandIndex + (index + 1) = operandIndex + 1 + index by omega] at rest

theorem resolveDataOperands_errors {section_ : SymbolSection} {before operandIndex : Nat}
    (operands : List Operand) {resolved : List Relocation × ErrorList}
    (known : ∀ op ∈ operands, ∀ label, op.kind = .label label → symbolKnown symtable label = true) :
    (resolveDataOperands instructions symtable instr section_ before operandIndex operands
      resolved).2 = resolved.2 := by
  induction operands generalizing operandIndex resolved with
  | nil => rfl
  | cons operand operands inductionHypothesis =>
      obtain ⟨relocations, errors⟩ := resolved
      rw [resolveDataOperands,
        inductionHypothesis fun op member => known op (List.mem_cons_of_mem _ member)]
      split
      · next label kind => rw [if_pos (known operand List.mem_cons_self label kind)]
      · rfl

/-! ### One turn -/

/-- An instruction that pass 2 emitted without an error was ready. -/
theorem instructionReady_of_clean (emits : state.layout.Emits instr)
    (turn : pass2Step instructions pass1 state instr = .ok next)
    (clean : errorHasAny next.result.errors = false) :
    InstructionReady pass1.symtable state.layout.sizes.text instr := by
  have step : pass2Step instructions pass1 state instr =
      pass2Instruction instructions pass1 state instr := by
    rw [pass2Step, emits.1]
    exact if_neg fun nothing => nothing.elim emits.2.1 fun elsewhere => elsewhere emits.2.2
  rw [step] at turn
  have image := pass2Instruction_clean emits turn clean
  unfold pass2Instruction at turn
  dsimp only at turn
  split at turn
  · next failed =>
      rw [fillNops_errors turn] at clean
      have resolved := (resolveOperands_clean _ clean).1.resolutionError
      rw [resolved] at failed
      contradiction
  · split at turn
    · rw [fillNops_errors turn] at clean
      simp [encodeError] at clean
    · next bytes encoded =>
        obtain ⟨sized, -, result⟩ := appendInstruction_ok turn
        rw [result] at clean
        obtain ⟨image, isBytes⟩ := image.checked.encoded emits
        refine ⟨by rw [isBytes]; rfl, fun rip => ?_, (resolveOperands_clean _ clean).2,
          fun index op there => ?_⟩
        · unfold appendInstruction at turn
          dsimp only at turn
          rw [if_neg (not_not.mpr sized), rip, Bool.true_and] at turn
          split at turn
          · contradiction
          · next long =>
              rw [decide_eq_true_eq, sized] at long
              exact Nat.not_lt.mp long
        · have linked := resolveOperands_linked _ clean index op there
          rwa [Nat.zero_add] at linked

/-- A statement that pass 2 emitted without an error was ready. -/
theorem statementReady_of_clean (accepted : StatementAccepted state.currentSection instr)
    (turn : pass2Step instructions pass1 state instr = .ok next)
    (clean : errorHasAny next.result.errors = false) :
    StatementReady pass1.symtable state.layout instr := by
  have image := pass2Step_clean accepted turn clean
  refine ⟨fun emits => instructionReady_of_clean emits turn clean, fun stores =>
    ⟨?_, image.checked.known stores⟩⟩
  obtain ⟨isData, written⟩ := stores
  have step : pass2Step instructions pass1 state instr =
      pass2DataDirective instructions pass1 state instr := by
    unfold pass2Step
    revert isData
    cases instr.directiveKind <;> simp [isDataDirective]
  rw [step, pass2DataDirective] at turn
  dsimp only at turn
  have here : state.currentSection = .data ∨ state.currentSection = .readOnlyData := written
  have notText : state.currentSection ≠ .text := accepted.notText isData
  have notBss : state.currentSection ≠ .bss := by
    rintro bss
    rw [bss] at here
    rcases here with data | readOnly <;> contradiction
  rw [if_neg notText] at turn
  rw [if_neg notBss] at turn
  split at turn
  · contradiction
  · obtain ⟨-, -, -, sized⟩ := pass2DataBytes_ok turn
    rw [length_sectionBytes here] at sized
    exact sized

/-- A turn for a ready statement goes on and reports nothing. -/
theorem pass2Instruction_of_ready (emits : state.layout.Emits instr)
    (ready : InstructionReady pass1.symtable state.layout.sizes.text instr)
    (clean : errorHasAny state.result.errors = false)
    (room : state.result.textBytes.length + instructionSize instr ≤ pass1.sizes.text) :
    ∃ next, pass2Instruction instructions pass1 state instr = .ok next ∧
      errorHasAny next.result.errors = false := by
  have errors := @resolveOperands_errors instructions pass1.symtable instr
    state.result.textBytes.length 0 instr.ops
    ⟨state.result.relocations, state.result.errors, 0, false⟩ ready.resolved fun index op there => by
      rw [Nat.zero_add]
      exact ready.linked index op there
  have quiet := (congrArg errorHasAny errors).trans clean
  obtain ⟨bytes, encoded⟩ := Option.isSome_iff_exists.mp ready.encoded
  have single : opcodeUsesRelativeLabel instr.opcode = true → ∃ op, instr.ops = [op] :=
    singleton_of_encoded encoded
  have target := resolveOperands_target single quiet
  have resolved := (resolveOperands_clean _ quiet).1
  have sized := instructionSize_of_encoded encoded
  have encoded' : encoderEncode instr.opcode instr.ops (Int64.ofInt
      (branchDisplacement pass1.symtable instr state.result.textBytes.length)) = some bytes :=
    encoded
  have goesOn : ∀ middle : Pass2State, middle.currentSection = .text →
      middle.result.textBytes = state.result.textBytes → errorHasAny middle.result.errors = false →
      ∃ next, appendInstruction pass1.sizes.text middle instr (instructionSize instr) bytes =
        .ok next ∧ errorHasAny next.result.errors = false := by
    intro middle text textBytes middleClean
    have roomToo : middle.result.textBytes.length + instructionSize instr ≤ pass1.sizes.text := by
      rw [textBytes]
      exact room
    obtain ⟨next, turn, -⟩ := appendInstruction_goesOn text sized
      (fun rip => sized ▸ ready.displaced rip) roomToo
    refine ⟨next, turn, ?_⟩
    rw [(appendInstruction_ok turn).2.2]
    exact middleClean
  unfold pass2Instruction
  dsimp only
  rw [resolved.resolutionError, if_neg (by simp), target, encoded']
  exact goesOn _ emits.2.2 rfl quiet

theorem pass2DataDirective_of_ready (isData : isDataDirective instr.directiveKind = true)
    (accepted : StatementAccepted state.currentSection instr)
    (ready : state.layout.Stores instr → DataReady pass1.symtable state.layout.offset instr)
    (clean : errorHasAny state.result.errors = false)
    (room : state.result.sizes.get state.currentSection +
      (dataDirectiveSizeAt instr (state.result.sizes.get state.currentSection)).toNat ≤
      pass1.sizes.get state.currentSection) :
    ∃ next, pass2DataDirective instructions pass1 state instr = .ok next ∧
      errorHasAny next.result.errors = false := by
  unfold pass2DataDirective
  dsimp only
  rw [if_neg (accepted.notText isData)]
  by_cases bss : state.currentSection = .bss
  · have nonneg : ¬ dataDirectiveSizeAt instr (state.result.sizes.get state.currentSection) < 0 := by
      rcases accepted.bssOnly isData bss with kind | kind
      · have size := (zeroSpace_of_faultless kind (accepted.faultless isData)).1
        rw [dataDirectiveSizeAt, alignmentBoundary?_eq_none (by rw [kind]; decide)]
        exact Int.not_lt.mpr size
      · obtain ⟨alignment, boundary, positive, bounded⟩ :=
          alignmentBoundary?_of_faultless kind (accepted.faultless isData)
        have padding := Nat.mod_lt (alignment - state.result.sizes.get state.currentSection %
          alignment) positive
        rw [dataDirectiveSizeAt, boundary]
        dsimp only
        rw [alignmentPadding, asInt_of_small (by omega) (by omega)]
        exact Int.not_lt.mpr (Int.natCast_nonneg _)
    rw [if_neg nonneg, if_pos bss]
    exact ⟨_, rfl, clean⟩
  · have written : state.currentSection = .data ∨ state.currentSection = .readOnlyData := by
      have notText := accepted.notText isData
      cases section_ : state.currentSection <;> simp [section_] at notText bss ⊢
    obtain ⟨stored, known⟩ := ready ⟨isData, written⟩
    have sized : dataDirectiveSizeAt instr (state.result.sizes.get state.currentSection) =
        (dataDirectiveBytes instr (state.result.sizes.get state.currentSection)).length := stored.symm
    rw [if_neg (by omega), if_neg bss]
    obtain ⟨next, turn, -⟩ := @pass2DataBytes_goesOn instructions pass1 state instr _ written sized
      room
    refine ⟨next, turn, ?_⟩
    obtain ⟨resolved, isResolved, rfl, -⟩ := pass2DataBytes_ok turn
    have errors : resolved.2 = state.result.errors := by
      rw [isResolved]
      split
      · next wide => exact resolveDataOperands_errors _ (known wide)
      · rfl
    simp only [Pass2State.emit, (setSectionBytes_rest _ _).2.2, errors, clean]

theorem pass2Step_of_ready (accepted : StatementAccepted state.currentSection instr)
    (ready : StatementReady pass1.symtable state.layout instr)
    (clean : errorHasAny state.result.errors = false)
    (room : ∀ section_, (state.layout.place instr).sizes.get section_ ≤ pass1.sizes.get section_) :
    ∃ next, pass2Step instructions pass1 state instr = .ok next ∧
      errorHasAny next.result.errors = false := by
  have roomHere := room state.currentSection
  simp only [Layout.place, SectionSizes.get_add, Pass2State.layout, if_true] at roomHere
  by_cases emits : state.layout.Emits instr
  · have step : pass2Step instructions pass1 state instr =
        pass2Instruction instructions pass1 state instr := by
      rw [pass2Step, emits.1]
      exact if_neg fun nothing => nothing.elim emits.2.1 fun elsewhere => elsewhere emits.2.2
    rw [step]
    refine pass2Instruction_of_ready emits (ready.instruction emits) clean ?_
    have text : state.currentSection = .text := emits.2.2
    simpa [Layout.statementSize, emits.1, emits.2.1, text, SectionSizes.get, Pass2Result.sizes]
      using roomHere
  · by_cases isData : isDataDirective instr.directiveKind = true
    · have directive : instr.directiveKind ≠ .none := by
        intro none
        rw [none] at isData
        contradiction
      have step : pass2Step instructions pass1 state instr =
          pass2DataDirective instructions pass1 state instr := by
        unfold pass2Step
        revert isData
        cases instr.directiveKind <;> simp [isDataDirective]
      rw [step]
      simp only [Layout.statementSize, if_neg directive, isData, if_true, Layout.offset] at roomHere
      exact pass2DataDirective_of_ready isData accepted ready.data clean roomHere
    · unfold pass2Step
      split
      · next kind =>
          split
          · exact ⟨_, rfl, clean⟩
          · next stands =>
              rw [not_or, not_not] at stands
              exact absurd ⟨kind, stands⟩ emits
      all_goals try
        next kind => exact ⟨_, rfl, clean⟩
      · unfold pass2DebugLocation
        split
        · exact ⟨_, rfl, clean⟩
        · exact ⟨_, rfl, clean⟩
      all_goals try
        next kind =>
          rw [kind] at isData
          exact absurd rfl isData
      · next kind => exact absurd kind accepted.known

end Ready

/-! ## Runs -/

/-- Pass 2 can emit every statement where it stands. -/
def ProgramReady (symtable : SymbolTable) (statements : List Instruction) : Prop :=
  ∀ before instr after, statements = before ++ instr :: after →
    StatementReady symtable (Layout.after before) instr

section Runs

variable {instructions : InstructionList}

theorem programReady_of_clean (accepted : ProgramAccepted instructions) :
    ProgramReady (pass1Run instructions).symtable instructions.data := by
  intro before instr after split
  obtain ⟨next, walked, nextClean⟩ :=
    @pass2Walk_clean _ accepted.encoded (before ++ [instr]) after (by simpa using split)
  obtain ⟨state, reached, turn⟩ := Walk.run_snoc_eq_ok.mp walked
  have holds := pass2Walk_image accepted split reached
  have section_ : state.currentSection = (Layout.after before).section_ :=
    congrArg Layout.section_ holds.layout
  rw [← holds.layout]
  refine statementReady_of_clean ?_ turn nextClean
  rw [section_]
  exact statementAccepted accepted.sized split

theorem pass2Walk_of_ready (sized : errorHasAny (pass1Run instructions).errors = false)
    (ready : ProgramReady (pass1Run instructions).symtable instructions.data)
    {before after : List Instruction} (split : instructions.data = before ++ after) :
    ∃ state, pass2Walk instructions (pass1Run instructions) before = .ok state ∧
      state.layout = Layout.after before ∧ errorHasAny state.result.errors = false := by
  refine Walk.run_total instructions.data (fun before (state : Pass2State) =>
    state.layout = Layout.after before ∧ errorHasAny state.result.errors = false) ⟨rfl, rfl⟩ ?_
    before after split
  intro before instr after state split _ ⟨layout, clean⟩
  have section_ : state.currentSection = (Layout.after before).section_ :=
    congrArg Layout.section_ layout
  have accepted := statementAccepted sized split
  rw [← section_] at accepted
  obtain ⟨next, turn, nextClean⟩ := @pass2Step_of_ready instructions (pass1Run instructions) state
    instr accepted (by rw [layout]; exact ready before instr after split) clean (by
      intro other
      have grows := Layout.get_after_le (before ++ [instr]) after other
      rw [layout, ← Layout.after_snoc, pass1Run_sizes sized, split]
      simpa using grows)
  exact ⟨next, turn, by rw [(pass2Step_clean accepted turn nextClean).layout, layout,
    Layout.after_snoc], nextClean⟩

/-- After pass 1, pass 2 reports nothing exactly when every statement is ready. -/
theorem pass2Run_accepts_iff (sized : errorHasAny (pass1Run instructions).errors = false) :
    errorHasAny (pass2Run instructions (pass1Run instructions)).errors = false ↔
      ProgramReady (pass1Run instructions).symtable instructions.data := by
  refine ⟨fun encoded => programReady_of_clean ⟨sized, encoded⟩, fun ready => ?_⟩
  obtain ⟨state, walked, layout, clean⟩ := pass2Walk_of_ready sized ready (List.append_nil _).symm
  have sizes : state.result.sizes = (pass1Run instructions).sizes := by
    rw [pass1Run_sizes sized]
    exact congrArg Layout.sizes layout
  rw [pass2Run, walked, pass2Finish, if_neg (not_not.mpr sizes)]
  exact clean

/-- The line table of an accepted program. -/
theorem pass2Run_rows (accepted : ProgramAccepted instructions) :
    (pass2Run instructions (pass1Run instructions)).debugLines = programRows instructions.data := by
  have invariant : ∀ {before after : List Instruction} {state : Pass2State},
      instructions.data = before ++ after →
      pass2Walk instructions (pass1Run instructions) before = .ok state →
      state.location = activeLocation before ∧ state.result.debugLines = programRows before := by
    intro before after state split reached
    refine Walk.run_invariant instructions.data (fun before (state : Pass2State) =>
      state.location = activeLocation before ∧ state.result.debugLines = programRows before)
      ⟨rfl, rfl⟩ ?_ split reached
    intro before instr after state next split reached ⟨location, rows⟩ turn
    have added := pass2Step_rows turn
    have layout := (pass2Walk_image accepted split reached).layout
    exact ⟨by rw [added.location, location, activeLocation_snoc],
      by rw [added.rows, rows, location, layout, programRows_snoc]⟩
  obtain ⟨state, walked, result, -⟩ := pass2Run_clean accepted.encoded
  rw [result]
  exact (invariant (List.append_nil _).symm walked).2

end Runs

end Nazm.Passes
