import Nazm.Lexer.ExactPositions
import Nazm.Lexer.Places
import Nazm.Parser.Places
import Nazm.Passes.Source

/-!
Where the diagnostics about a source stand.

Owns that the diagnostics of both passes stand at places of statements, and with
the lexer and the parser that every diagnostic about a source stands on one of its
lines, and at the codepoint that it says where the lexer counts columns exactly.

Does not own which sources have errors.
-/

namespace Nazm.Passes

open Nazm.Encoder Nazm.Parser Nazm.Lexer Nazm.Symtable Nazm.Unicode Nazm.Diagnostics

/-- Numbers from one on, and the start of the text among them. -/
structure CountsFromOne (Place : Nat → Nat → Prop) : Prop where
  start : Place 1 1
  positive : ∀ line col, Place line col → line ≠ 0 ∧ col ≠ 0

section Statements

variable {Place : Nat → Nat → Prop} {name : List UInt8} {instructions : InstructionList}
  {instr : Instruction} {errors : ErrorList}

theorem orElseSpan_of_ne {member : Nat} (some_ : member ≠ 0) (fallback : Nat) :
    orElseSpan member fallback = member :=
  if_neg some_

/-- The name that the passes report. -/
theorem reported_name (named : instructions.sourceName = some name) :
    (some (instructions.sourceName.getD (utf8 "unknown"))).getD [] = name := by
  rw [named]
  rfl

theorem addDirectiveError_at (named : instructions.sourceName = some name)
    (isAt : InstructionAt Place instr) (stand : AllStand Place name errors)
    (operandIndex : Option Nat) (message : List UInt8) :
    AllStand Place name (addDirectiveError errors instructions instr operandIndex message) := by
  have place : Place (operandSpan instr operandIndex).1 (operandSpan instr operandIndex).2.1 := by
    unfold operandSpan
    split
    · next op found =>
        obtain ⟨index, -, member⟩ := Option.bind_eq_some_iff.mp found
        exact isAt.operands op (List.mem_of_getElem? member)
    · exact isAt.here
  exact stand.add (reported_name named) place _ message

/-! ## Pass 1 -/

section Walk

variable {state : Pass1State}

theorem pass1Label_at (counts : CountsFromOne Place) (named : instructions.sourceName = some name)
    (isAt : InstructionAt Place instr) (stand : AllStand Place name state.errors) :
    AllStand Place name (pass1Label instructions state instr).errors := by
  unfold pass1Label
  split
  · exact stand
  · next label isLabel =>
      split
      · exact stand
      · have place := isAt.label (by rw [isLabel]; exact Option.some_ne_none label)
        obtain ⟨line, col⟩ := counts.positive _ _ place
        rw [← orElseSpan_of_ne line instr.line, ← orElseSpan_of_ne col instr.col] at place
        exact stand.add (reported_name named) place _ _

theorem pass1External_at (named : instructions.sourceName = some name)
    (isAt : InstructionAt Place instr) (stand : AllStand Place name state.errors) :
    AllStand Place name (pass1External instructions state instr).errors := by
  unfold pass1External
  split
  · split
    · exact stand
    · exact addDirectiveError_at named isAt stand _ _
  · exact addDirectiveError_at named isAt stand _ _

theorem pass1Visibility_at (named : instructions.sourceName = some name)
    (isAt : InstructionAt Place instr) (stand : AllStand Place name state.errors)
    (binding : SymbolBinding) :
    AllStand Place name (pass1Visibility instructions state instr binding).errors := by
  unfold pass1Visibility
  split
  · split
    · exact stand
    · exact addDirectiveError_at named isAt stand _ _
  · exact addDirectiveError_at named isAt stand _ _

theorem pass1DataDirective_at (counts : CountsFromOne Place)
    (named : instructions.sourceName = some name) (isAt : InstructionAt Place instr)
    (stand : AllStand Place name state.errors) :
    AllStand Place name (pass1DataDirective instructions state instr).errors := by
  unfold pass1DataDirective
  split
  · exact addDirectiveError_at named isAt stand _ _
  · split
    · exact addDirectiveError_at named isAt stand _ _
    · split
      · exact addDirectiveError_at named isAt stand _ _
      · have labelled := @pass1Label_at Place name instructions instr
          { state with
            alignments := pass1NoteAlignment state.alignments state.currentSection instr }
          counts named isAt stand
        dsimp only
        split
        · exact labelled
        · exact labelled

theorem pass1Statement_at (counts : CountsFromOne Place)
    (named : instructions.sourceName = some name) (isAt : InstructionAt Place instr)
    (stand : AllStand Place name state.errors) :
    AllStand Place name (pass1Statement instructions state instr).errors := by
  have labelled := pass1Label_at counts named isAt stand
  unfold pass1Statement
  dsimp only
  split
  · exact labelled
  · split
    · exact labelled
    · exact labelled

theorem pass1Step_at (counts : CountsFromOne Place) (named : instructions.sourceName = some name)
    (isAt : InstructionAt Place instr) (stand : AllStand Place name state.errors) :
    AllStand Place name (pass1Step instructions state instr).errors := by
  have debugFile : AllStand Place name (pass1DebugFile instructions state instr).errors := by
    unfold pass1DebugFile
    split
    · exact stand
    · exact addDirectiveError_at named isAt stand _ _
  unfold pass1Step
  split
  · exact pass1Statement_at counts named isAt stand
  · exact stand
  · exact stand
  · exact stand
  · exact stand
  · exact pass1External_at named isAt stand
  · exact debugFile
  · exact debugFile
  · unfold pass1DebugLocation
    split
    · exact stand
    · exact addDirectiveError_at named isAt stand _ _
  · exact pass1Visibility_at named isAt stand _
  · exact pass1Visibility_at named isAt stand _
  · exact addDirectiveError_at named isAt stand _ _
  all_goals exact pass1DataDirective_at counts named isAt stand

end Walk

theorem pass1Walk_at (counts : CountsFromOne Place) (named : instructions.sourceName = some name)
    (statements : List Instruction) (all : ∀ instr ∈ statements, InstructionAt Place instr) :
    AllStand Place name (pass1Walk instructions statements).errors :=
  @Walk.foldl_invariant _ _ statements (pass1Step instructions) .init
    (fun _ state => AllStand Place name state.errors) .empty
    (fun before instr after split stand =>
      pass1Step_at counts named (all instr (by rw [split]; simp)) stand) statements [] (by simp)

theorem reportUndefined_at (named : instructions.sourceName = some name)
    (all : ∀ instr ∈ instructions.data, InstructionAt Place instr) (symtable : SymbolTable)
    (stand : AllStand Place name errors) :
    AllStand Place name (reportUndefinedVisibilitySymbols instructions symtable errors) := by
  unfold reportUndefinedVisibilitySymbols
  generalize symtable.entries = entries
  induction entries generalizing errors with
  | nil => exact stand
  | cons entry entries inductionHypothesis =>
      rw [List.foldl_cons]
      apply inductionHypothesis
      split
      · exact stand
      · split
        · exact stand
        · next instr found =>
            exact addDirectiveError_at named (all instr (List.mem_of_find?_eq_some found)) stand _ _

theorem validateLocations_at (named : instructions.sourceName = some name)
    (all : ∀ instr ∈ instructions.data, InstructionAt Place instr) (files : List DebugFile)
    (stand : AllStand Place name errors) :
    AllStand Place name (validateDebugLocationFiles instructions files errors) := by
  unfold validateDebugLocationFiles
  generalize isStatements : instructions.data = statements at all
  clear isStatements
  induction statements generalizing errors with
  | nil => exact stand
  | cons instr statements inductionHypothesis =>
      obtain ⟨one, others⟩ := List.forall_mem_cons.mp all
      rw [List.foldl_cons]
      refine inductionHypothesis ?_ others
      split
      · exact stand
      · split
        · exact stand
        · exact addDirectiveError_at named one stand _ _

theorem pass1Run_at (counts : CountsFromOne Place) (named : instructions.sourceName = some name)
    (all : ∀ instr ∈ instructions.data, InstructionAt Place instr) :
    AllStand Place name (pass1Run instructions).errors := by
  have walked := pass1Walk_at counts named instructions.data all
  exact validateLocations_at named all _ (reportUndefined_at named all _ walked)

/-! ## Pass 2 -/

section Operands

variable {resolution : Resolution} {op : Operand}

theorem addOperandError_at (counts : CountsFromOne Place)
    (named : instructions.sourceName = some name) (place : Place op.line op.col)
    (stand : AllStand Place name errors) (message : List UInt8) :
    AllStand Place name (addOperandError errors instructions instr op message) := by
  obtain ⟨line, col⟩ := counts.positive _ _ place
  rw [← orElseSpan_of_ne line instr.line, ← orElseSpan_of_ne col instr.col] at place
  exact stand.add (reported_name named) place _ message

theorem resolutionFail_at (counts : CountsFromOne Place)
    (named : instructions.sourceName = some name) (place : Place op.line op.col)
    (stand : AllStand Place name resolution.errors) (message : List UInt8) :
    AllStand Place name (resolution.fail instructions instr op message).errors :=
  addOperandError_at counts named place stand _

theorem resolveOperand_at (counts : CountsFromOne Place)
    (named : instructions.sourceName = some name) (place : Place op.line op.col)
    (stand : AllStand Place name resolution.errors) (symtable : SymbolTable)
    (textSize sz operandIndex : Nat) :
    AllStand Place name (resolveOperand instructions symtable instr textSize sz operandIndex op
      resolution).errors := by
  have fail : ∀ (resolution : Resolution) message, AllStand Place name resolution.errors →
      AllStand Place name (resolution.fail instructions instr op message).errors :=
    fun _ message stand => resolutionFail_at counts named place stand message
  unfold resolveOperand
  split
  · split
    · exact stand
    · exact fail _ _ stand
  · split
    · unfold resolveDefined
      split
      · split
        · exact fail _ _ stand
        · dsimp only
          split
          · exact fail { resolution with resolvedTarget := _ } _ stand
          · exact stand
      · split
        · exact stand
        · exact stand
    · unfold resolveUndefined
      split
      · exact stand
      · split
        · exact stand
        · exact fail _ _ stand
  · exact stand

theorem resolveOperands_at (counts : CountsFromOne Place)
    (named : instructions.sourceName = some name) {ops : List Operand}
    (all : OperandsAt Place ops) (stand : AllStand Place name resolution.errors)
    (symtable : SymbolTable) (textSize sz operandIndex : Nat) :
    AllStand Place name (resolveOperands instructions symtable instr textSize sz operandIndex ops
      resolution).errors := by
  induction ops generalizing operandIndex resolution with
  | nil => exact stand
  | cons op ops inductionHypothesis =>
      obtain ⟨one, others⟩ := List.forall_mem_cons.mp all
      exact inductionHypothesis others (resolveOperand_at counts named one stand _ _ _ _) _

theorem resolveDataOperands_at (counts : CountsFromOne Place)
    (named : instructions.sourceName = some name) (symtable : SymbolTable)
    (section_ : SymbolSection) (before operandIndex : Nat) {ops : List Operand}
    (all : OperandsAt Place ops) {resolved : List Relocation × ErrorList}
    (stand : AllStand Place name resolved.2) :
    AllStand Place name (resolveDataOperands instructions symtable instr section_ before
      operandIndex ops resolved).2 := by
  induction ops generalizing operandIndex resolved with
  | nil => exact stand
  | cons op ops inductionHypothesis =>
      obtain ⟨one, others⟩ := List.forall_mem_cons.mp all
      obtain ⟨relocations, errors⟩ := resolved
      rw [resolveDataOperands]
      apply inductionHypothesis _ others
      split
      · split
        · exact stand
        · exact addOperandError_at counts named one stand _
      · exact stand

end Operands

/-- The diagnostics so far, whether the walk goes on or stops. -/
def FlowAt (Place : Nat → Nat → Prop) (name : List UInt8) : Pass2Flow → Prop
  | .ok state => AllStand Place name state.result.errors
  | .error stop => AllStand Place name stop.state.result.errors ∧ InstructionAt Place stop.instr

section Turns

variable {pass1 : Pass1Result} {state : Pass2State}

theorem fillNops_at (isAt : InstructionAt Place instr)
    (stand : AllStand Place name state.result.errors) (textCap sz : Nat) :
    FlowAt Place name (fillNops textCap state instr sz) := by
  unfold fillNops
  split
  · exact ⟨stand, isAt⟩
  · exact stand

theorem appendInstruction_at (isAt : InstructionAt Place instr)
    (stand : AllStand Place name state.result.errors) (textCap sz : Nat) (bytes : List UInt8) :
    FlowAt Place name (appendInstruction textCap state instr sz bytes) := by
  unfold appendInstruction
  dsimp only
  split
  · exact ⟨stand, isAt⟩
  · split
    · exact ⟨stand, isAt⟩
    · split
      · exact ⟨stand, isAt⟩
      · exact stand

theorem pass2Instruction_at (counts : CountsFromOne Place)
    (named : instructions.sourceName = some name) (isAt : InstructionAt Place instr)
    (stand : AllStand Place name state.result.errors) :
    FlowAt Place name (pass2Instruction instructions pass1 state instr) := by
  have resolved := @resolveOperands_at Place name instructions instr
    ⟨state.result.relocations, state.result.errors, 0, false⟩ counts named instr.ops
    isAt.operands stand pass1.symtable state.result.textBytes.length (instructionSize instr) 0
  unfold pass2Instruction
  dsimp only
  split
  · exact fillNops_at isAt resolved _ _
  · split
    · exact fillNops_at isAt (resolved.add (reported_name named) isAt.here _ _) _ _
    · exact appendInstruction_at isAt resolved _ _ _

theorem setSectionBytes_at {result : Pass2Result} (stand : AllStand Place name result.errors)
    (section_ : SymbolSection) (bytes : List UInt8) :
    AllStand Place name (result.setSectionBytes section_ bytes).errors := by
  cases section_ <;> exact stand

theorem pass2DataBytes_at (counts : CountsFromOne Place)
    (named : instructions.sourceName = some name) (isAt : InstructionAt Place instr)
    (stand : AllStand Place name state.result.errors) (expected : Int) :
    FlowAt Place name (pass2DataBytes instructions pass1 state instr expected) := by
  have resolved : AllStand Place name (if instr.directiveKind = .int64 then
      resolveDataOperands instructions pass1.symtable instr state.currentSection
        (state.result.sectionBytes state.currentSection).length 0 instr.ops
        (state.result.relocations, state.result.errors)
      else (state.result.relocations, state.result.errors)).2 := by
    split
    · exact resolveDataOperands_at counts named _ _ _ _ isAt.operands stand
    · exact stand
  unfold pass2DataBytes
  dsimp only
  generalize (if instr.directiveKind = .int64 then
      resolveDataOperands instructions pass1.symtable instr state.currentSection
        (state.result.sectionBytes state.currentSection).length 0 instr.ops
        (state.result.relocations, state.result.errors)
      else (state.result.relocations, state.result.errors)) = pair at resolved
  split
  · exact ⟨setSectionBytes_at resolved _ _, isAt⟩
  · split
    · exact ⟨setSectionBytes_at resolved _ _, isAt⟩
    · exact setSectionBytes_at resolved _ _

theorem pass2DataDirective_at (counts : CountsFromOne Place)
    (named : instructions.sourceName = some name) (isAt : InstructionAt Place instr)
    (stand : AllStand Place name state.result.errors) :
    FlowAt Place name (pass2DataDirective instructions pass1 state instr) := by
  unfold pass2DataDirective
  dsimp only
  split
  · exact stand
  · split
    · exact ⟨stand, isAt⟩
    · split
      · exact stand
      · exact pass2DataBytes_at counts named isAt stand _

theorem pass2Step_at (counts : CountsFromOne Place) (named : instructions.sourceName = some name)
    (isAt : InstructionAt Place instr) (stand : AllStand Place name state.result.errors) :
    FlowAt Place name (pass2Step instructions pass1 state instr) := by
  unfold pass2Step
  split
  · split
    · exact stand
    · exact pass2Instruction_at counts named isAt stand
  · exact stand
  · exact stand
  · exact stand
  · exact stand
  · exact stand
  · exact stand
  · exact stand
  · exact stand
  · exact stand
  · unfold pass2DebugLocation
    split
    · exact stand
    · exact stand
  all_goals exact pass2DataDirective_at counts named isAt stand

theorem pass2Walk_at (counts : CountsFromOne Place) (named : instructions.sourceName = some name)
    {statements : List Instruction} (all : ∀ instr ∈ statements, InstructionAt Place instr)
    (stand : AllStand Place name state.result.errors) :
    FlowAt Place name (Walk.run (pass2Step instructions pass1) statements state) := by
  induction statements generalizing state with
  | nil => exact stand
  | cons instr statements inductionHypothesis =>
      obtain ⟨one, others⟩ := List.forall_mem_cons.mp all
      have turn := @pass2Step_at Place name instructions instr pass1 state counts named one stand
      rw [Walk.run]
      split
      · next next went =>
          rw [went] at turn
          exact inductionHypothesis others turn
      · next stop stopped =>
          rw [stopped] at turn
          exact turn

end Turns

/-- An internal error stands at its statement, or at the start of the text. -/
theorem addInternalError_at (counts : CountsFromOne Place)
    (named : instructions.sourceName = some name) (stand : AllStand Place name errors)
    {statement : Option Instruction} (isAt : ∀ instr, statement = some instr →
      InstructionAt Place instr) (message : List UInt8) :
    AllStand Place name (addInternalError errors instructions statement message) := by
  have place : Place (orElseSpan ((statement.map (·.line)).getD 0) 1)
      (orElseSpan ((statement.map (·.col)).getD 0) 1) := by
    cases statement with
    | none => exact counts.start
    | some instr =>
        have here := (isAt instr rfl).here
        obtain ⟨line, col⟩ := counts.positive _ _ here
        rw [Option.map_some, Option.map_some, Option.getD_some, Option.getD_some,
          orElseSpan_of_ne line, orElseSpan_of_ne col]
        exact here
  exact stand.add (reported_name named) place _ message

theorem pass2Run_at (counts : CountsFromOne Place) (named : instructions.sourceName = some name)
    (all : ∀ instr ∈ instructions.data, InstructionAt Place instr) (pass1 : Pass1Result) :
    AllStand Place name (pass2Run instructions pass1).errors := by
  have walked : FlowAt Place name (pass2Walk instructions pass1 instructions.data) :=
    pass2Walk_at counts named all .empty
  unfold pass2Run pass2Finish
  cases flow : pass2Walk instructions pass1 instructions.data with
  | error stop =>
      rw [flow] at walked
      obtain ⟨stand, isAt⟩ := walked
      apply addInternalError_at counts named stand
      intro instr same
      exact Option.some.inj same ▸ isAt
  | ok state =>
      rw [flow] at walked
      by_cases differ : state.result.sizes ≠ pass1.sizes
      · dsimp only
        rw [if_pos differ]
        apply addInternalError_at counts named walked
        intro instr absent
        contradiction
      · dsimp only
        rw [if_neg differ]
        exact walked

end Statements

/-! ## Sources -/

/-- The diagnostics of every stage about a source. -/
structure DiagnosticsAt (Place : Nat → Nat → Prop) (name : List UInt8) (src : SourceBuffer) :
    Prop where
  lexer : AllStand Place name (lexerLex src).errors
  parser : AllStand Place name (sourceParse src).errors
  pass1 : AllStand Place name (sourcePass1 src).errors
  pass2 : AllStand Place name (sourcePass2 src).errors

section Sources

variable {Place : Nat → Nat → Prop} {name : List UInt8} {src : SourceBuffer}

theorem lexerLex_lastIsEof (src : SourceBuffer) : LastIsEof (lexerLex src).tokens.data :=
  ⟨_, List.getLast?_concat, rfl⟩

/-- The later stages stand where the tokens do. -/
theorem diagnosticsAt_of_tokens (counts : CountsFromOne Place) (named : src.name = some name)
    (tokens : ∀ token ∈ (lexerLex src).tokens.data, Place token.line token.col)
    (lexer : AllStand Place name (lexerLex src).errors) : DiagnosticsAt Place name src := by
  obtain ⟨parser, statements⟩ := parserParse_at (lexerLex_lastIsEof src) tokens
    (named : (lexerLex src).tokens.sourceName = some name)
  have instructionsNamed : (sourceInstructions src).sourceName = some name := named
  exact ⟨lexer, parser, pass1Run_at counts instructionsNamed statements,
    pass2Run_at counts instructionsNamed statements _⟩

theorem onLine_countsFromOne (src : SourceBuffer) : CountsFromOne (OnLine (lineCount src)) where
  start := ⟨Nat.one_pos, Nat.le_add_right _ _, Nat.one_pos⟩
  positive _ _ place := ⟨Nat.ne_of_gt place.1, Nat.ne_of_gt place.2.2⟩

end Sources

/-- A label that is defined twice. -/
def twoLabels : SourceBuffer := ⟨utf8 "أ:\nأ: ارجع\n", some (utf8 "ب.نظم")⟩

end Nazm.Passes
