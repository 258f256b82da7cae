import Nazm.Diagnostics.Places
import Nazm.Parser.Parser

/-!
Where the diagnostics of the parser stand.

Owns that the diagnostics, the statements, their labels and their operands stand at
places of tokens, whatever a place is, and that the cursor never runs out of tokens.

Does not own the places of the tokens.
-/

namespace Nazm.Parser

open Nazm.Encoder Nazm.Unicode Nazm.Diagnostics Nazm.Lexer

/-! ## The end-of-file token -/

def LastIsEof (tokens : List Token) : Prop :=
  ∃ last, tokens.getLast? = some last ∧ last.type = .eof

theorem LastIsEof.tail {token : Token} {tokens : List Token} (ends : LastIsEof (token :: tokens))
    (other : token.type ≠ .eof) : LastIsEof tokens := by
  obtain ⟨last, isLast, isEof⟩ := ends
  cases tokens with
  | nil =>
      obtain rfl : token = last := by simpa using isLast
      exact absurd isEof other
  | cons next rest => exact ⟨last, by rw [← isLast, List.getLast?_cons_cons], isEof⟩

theorem LastIsEof.dropWhile {skips : Token → Bool}
    (stops : ∀ token, token.type = .eof → skips token = false) {tokens : List Token}
    (ends : LastIsEof tokens) : LastIsEof (tokens.dropWhile skips) := by
  induction tokens with
  | nil => exact ends
  | cons token tokens inductionHypothesis =>
      by_cases skipped : skips token = true
      · rw [List.dropWhile_cons_of_pos skipped]
        apply inductionHypothesis
        apply ends.tail
        intro isEof
        rw [stops token isEof] at skipped
        contradiction
      · rw [List.dropWhile_cons_of_neg skipped]
        exact ends

/-! ## Places -/

section Places

variable {Place : Nat → Nat → Prop} {name : List UInt8}

/-- A statement, its label and its operands at places. -/
structure InstructionAt (Place : Nat → Nat → Prop) (instr : Instruction) : Prop where
  here : Place instr.line instr.col
  label : instr.label ≠ none → Place instr.labelLine instr.labelCol
  operands : ∀ op ∈ instr.ops, Place op.line op.col

/-- What is unread, what was reported and what was pushed stands at places. -/
structure ParsesAt (Place : Nat → Nat → Prop) (name : List UInt8) (p : Parser) : Prop where
  ended : LastIsEof p.tokens
  tokens : ∀ token ∈ p.tokens, Place token.line token.col
  file : p.srcName = name
  errors : AllStand Place name p.errors
  out : ∀ instr ∈ p.out, InstructionAt Place instr

def OperandsAt (Place : Nat → Nat → Prop) (ops : List Operand) : Prop :=
  ∀ op ∈ ops, Place op.line op.col

theorem OperandsAt.snoc {ops : List Operand} (all : OperandsAt Place ops) {op : Operand}
    (one : Place op.line op.col) : OperandsAt Place (ops ++ [op]) := by
  intro other member
  rcases List.mem_append.mp member with earlier | last
  · exact all other earlier
  · rw [List.mem_singleton.mp last]
    exact one

namespace ParsesAt

variable {p : Parser}

theorem cur (parses : ParsesAt Place name p) : Place (cur p).line (cur p).col := by
  obtain ⟨last, isLast, -⟩ := parses.ended
  unfold Parser.cur
  cases tokens : p.tokens with
  | nil =>
      rw [tokens] at isLast
      contradiction
  | cons token rest => exact parses.tokens token (by rw [tokens]; exact List.mem_cons_self)

theorem advance (parses : ParsesAt Place name p) : ParsesAt Place name (advance p) := by
  unfold Parser.advance
  split
  · exact parses
  · next other =>
      obtain ⟨ended, places, file, errors, out⟩ := parses
      unfold Parser.cur at other
      cases tokens : p.tokens with
      | nil =>
          rw [tokens] at other
          exact absurd rfl other
      | cons token rest =>
          rw [tokens] at ended places other
          refine ⟨ended.tail other, ?_, file, errors, out⟩
          intro next member
          exact places next (List.mem_cons_of_mem token member)

theorem dropTokens (parses : ParsesAt Place name p) {skips : Token → Bool}
    (stops : ∀ token, token.type = .eof → skips token = false) :
    ParsesAt Place name { p with tokens := p.tokens.dropWhile skips } := by
  refine ⟨parses.ended.dropWhile stops, ?_, parses.file, parses.errors, parses.out⟩
  intro token member
  exact parses.tokens token ((List.dropWhile_suffix skips).subset member)

theorem syncToNewline (parses : ParsesAt Place name p) : ParsesAt Place name (syncToNewline p) := by
  apply parses.dropTokens
  intro token isEof
  rw [isLineEnd, isEof]
  rfl

theorem skipNewlines (parses : ParsesAt Place name p) : ParsesAt Place name (skipNewlines p) := by
  apply parses.dropTokens
  intro token isEof
  rw [isNewline, isEof]
  rfl

theorem skipNewline (parses : ParsesAt Place name p) : ParsesAt Place name (skipNewline p) := by
  unfold Parser.skipNewline
  split
  · exact parses.advance
  · exact parses

theorem dropLine (parses : ParsesAt Place name p) : ParsesAt Place name (dropLine p) :=
  parses.syncToNewline.skipNewline

/-- A report at a place. -/
theorem report (parses : ParsesAt Place name p) {line col : Nat} (place : Place line col)
    (endCol : Nat) (message : List UInt8) :
    ParsesAt Place name
      { p with errors := errorAddSpan p.errors (some p.srcName) line col endCol message } :=
  ⟨parses.ended, parses.tokens, parses.file,
    @AllStand.add Place name p.errors parses.errors (some p.srcName) parses.file line col place
      endCol message, parses.out⟩

theorem tokenError (parses : ParsesAt Place name p) {token : Token}
    (place : Place token.line token.col) (message : List UInt8) :
    ParsesAt Place name (tokenError p token message) :=
  parses.report place _ message

theorem pushInstr (parses : ParsesAt Place name p) {instr : Instruction}
    (isAt : InstructionAt Place instr) : ParsesAt Place name (pushInstr p instr) := by
  refine ⟨parses.ended, parses.tokens, parses.file, parses.errors, ?_⟩
  intro other member
  rcases List.mem_append.mp member with earlier | pushed
  · exact parses.out other earlier
  · rw [List.mem_singleton.mp pushed]
    exact isAt

end ParsesAt

/-! ## Operands -/

/-- A parser behind an operand, and the operand that it read. -/
structure OperandAt (Place : Nat → Nat → Prop) (name : List UInt8)
    (result : Parser × Option Operand) : Prop where
  parses : ParsesAt Place name result.1
  operand : ∀ op, result.2 = some op → Place op.line op.col

section Operands

variable {p : Parser} {openTok : Token}

theorem operandAt_none (parses : ParsesAt Place name p) : OperandAt Place name (p, none) :=
  ⟨parses, fun _ absent => by contradiction⟩

theorem operandAt_some (parses : ParsesAt Place name p) {op : Operand}
    (place : Place op.line op.col) : OperandAt Place name (p, some op) :=
  ⟨parses, fun _ same => Option.some.inj same ▸ place⟩

theorem failOperand_at (parses : ParsesAt Place name p) {token : Token}
    (place : Place token.line token.col) (message : List UInt8) :
    OperandAt Place name (failOperand p token message) :=
  operandAt_none (parses.tokenError place message).syncToNewline

theorem closeMemory_at (parses : ParsesAt Place name p) (opened : Place openTok.line openTok.col)
    (kind : OperandKind) (unclosed : List UInt8) :
    OperandAt Place name (closeMemory p kind openTok unclosed) := by
  unfold closeMemory
  split
  · exact failOperand_at parses parses.cur _
  · exact operandAt_some parses.advance opened

theorem parseRipOperand_at (parses : ParsesAt Place name p)
    (opened : Place openTok.line openTok.col) :
    OperandAt Place name (parseRipOperand p openTok) := by
  unfold parseRipOperand
  split
  · exact failOperand_at parses parses.cur _
  · dsimp only
    split
    · exact failOperand_at parses.advance parses.advance.cur _
    · exact closeMemory_at parses.advance.advance opened _ _

theorem closeDisplacement_at (parses : ParsesAt Place name p) (base : RegId) (displacement : Int)
    {token : Token} (place : Place token.line token.col)
    (opened : Place openTok.line openTok.col) :
    OperandAt Place name (closeDisplacement p base displacement token openTok) := by
  unfold closeDisplacement
  split
  · exact failOperand_at parses place _
  · exact closeMemory_at parses opened _ _

theorem parseBaseOperand_at (parses : ParsesAt Place name p)
    (opened : Place openTok.line openTok.col) (base : RegId) :
    OperandAt Place name (parseBaseOperand p openTok base) := by
  unfold parseBaseOperand
  split
  · dsimp only
    split
    · exact failOperand_at parses.advance parses.advance.cur _
    · exact closeDisplacement_at parses.advance.advance _ _ parses.advance.cur opened
  · split
    · exact closeDisplacement_at parses.advance _ _ parses.cur opened
    · exact closeMemory_at parses opened _ _

theorem parseMemOperand_at (parses : ParsesAt Place name p)
    (opened : Place openTok.line openTok.col) :
    OperandAt Place name (parseMemOperand p openTok) := by
  unfold parseMemOperand
  dsimp only
  split
  · exact parseRipOperand_at parses.advance opened
  · split
    · split
      · exact operandAt_none (parses.tokenError parses.cur _).syncToNewline
      · exact failOperand_at parses parses.cur _
    · split
      · exact failOperand_at parses.advance parses.cur _
      · split
        · exact failOperand_at parses.advance parses.cur _
        · exact parseBaseOperand_at parses.advance opened _

theorem parseOperand_at (parses : ParsesAt Place name p) :
    OperandAt Place name (parseOperand p) := by
  have here := parses.cur
  unfold parseOperand
  dsimp only
  split
  · split
    · exact operandAt_some parses.advance here
    · exact operandAt_none (parses.advance.tokenError here _)
  · exact operandAt_some parses.advance here
  · exact parseMemOperand_at parses.advance here
  · split
    · exact operandAt_none (parses.tokenError here _).advance
    · exact operandAt_some parses.advance here
  · exact operandAt_some parses.advance here
  · exact operandAt_some parses.advance here
  · exact operandAt_none (parses.tokenError here _)

theorem tooMany_at (parses : ParsesAt Place name p) :
    ParsesAt Place name (syncToNewline (parseError p tooManyOperands)) :=
  (parses.tokenError parses.cur _).syncToNewline

theorem directiveOperands_at (fuel : Nat) {p : Parser} (parses : ParsesAt Place name p)
    {ops : List Operand} (all : OperandsAt Place ops) :
    ParsesAt Place name (directiveOperands fuel p ops).1 ∧
      OperandsAt Place (directiveOperands fuel p ops).2 := by
  induction fuel generalizing p ops with
  | zero => exact ⟨parses, all⟩
  | succ fuel inductionHypothesis =>
      rw [directiveOperands]
      split
      · exact ⟨parses, all⟩
      · split
        · exact inductionHypothesis parses.advance all
        · split
          · exact ⟨tooMany_at parses, all⟩
          · have read := parseOperand_at parses
            split
            · next after failed =>
                rw [failed] at read
                exact ⟨read.parses.syncToNewline, all⟩
            · next after op succeeded =>
                rw [succeeded] at read
                exact inductionHypothesis read.parses (all.snoc (read.operand op rfl))

theorem expectComma_at (parses : ParsesAt Place name p) :
    ParsesAt Place name (expectComma p).1 := by
  unfold expectComma
  split
  · exact parses.advance
  · exact parses.tokenError parses.cur _

theorem instructionOperands_at (fuel : Nat) {p : Parser} (parses : ParsesAt Place name p)
    {ops : List Operand} (all : OperandsAt Place ops) :
    ParsesAt Place name (instructionOperands fuel p ops).1 ∧
      OperandsAt Place (instructionOperands fuel p ops).2.1 := by
  induction fuel generalizing p ops with
  | zero => exact ⟨parses, all⟩
  | succ fuel inductionHypothesis =>
      rw [instructionOperands]
      split
      · exact ⟨parses, all⟩
      · have comma : ParsesAt Place name
            (if 0 < ops.length then expectComma p else (p, true)).1 := by
          split
          · exact expectComma_at parses
          · exact parses
        generalize (if 0 < ops.length then expectComma p else (p, true)) = separated at comma
        obtain ⟨next, isComma⟩ := separated
        dsimp only at comma ⊢
        split
        · exact ⟨comma.syncToNewline, all⟩
        · split
          · exact ⟨tooMany_at comma, all⟩
          · have read := parseOperand_at comma
            split
            · next after failed =>
                rw [failed] at read
                exact ⟨read.parses.syncToNewline, all⟩
            · next after op succeeded =>
                rw [succeeded] at read
                exact inductionHypothesis read.parses (all.snoc (read.operand op rfl))

end Operands

/-! ## Lines -/

section Lines

variable {p : Parser} {instr : Instruction}

theorem checkArity_at (parses : ParsesAt Place name p) (here : Place instr.line instr.col)
    (minOps maxOps : Nat) : ParsesAt Place name (checkArity p instr minOps maxOps) := by
  unfold checkArity
  split
  · exact parses.report here _ _
  · split
    · exact parses.report here _ _
    · exact parses

theorem parseDirectiveLine_at (parses : ParsesAt Place name p) (isAt : InstructionAt Place instr) :
    ParsesAt Place name (parseDirectiveLine p instr) := by
  unfold parseDirectiveLine
  dsimp only
  split
  · exact (parses.tokenError parses.cur _).dropLine
  · have read := directiveOperands_at p.tokens.length parses.advance
      (fun _ member => absurd member List.not_mem_nil : OperandsAt Place [])
    exact read.1.skipNewline.pushInstr ⟨isAt.here, isAt.label, read.2⟩

theorem parseInstructionLine_at (parses : ParsesAt Place name p)
    (isAt : InstructionAt Place instr) : ParsesAt Place name (parseInstructionLine p instr) := by
  unfold parseInstructionLine
  dsimp only
  split
  · exact (parses.tokenError parses.cur _).dropLine
  · have read := instructionOperands_at p.tokens.length parses.advance
      (fun _ member => absurd member List.not_mem_nil : OperandsAt Place [])
    refine ParsesAt.pushInstr (ParsesAt.skipNewline ?_) ⟨isAt.here, isAt.label, read.2⟩
    split
    · apply checkArity_at read.1
      exact isAt.here
    · exact read.1

theorem parseOtherLine_at (parses : ParsesAt Place name p) :
    ParsesAt Place name (parseOtherLine p) := by
  unfold parseOtherLine
  dsimp only
  split
  · exact (parses.tokenError parses.cur _).dropLine
  · exact (parses.tokenError parses.cur _).dropLine

theorem parseStatement_at (parses : ParsesAt Place name p) (isAt : InstructionAt Place instr) :
    ParsesAt Place name (parseStatement p instr) := by
  unfold parseStatement
  split
  · exact parseDirectiveLine_at parses isAt
  · exact parseInstructionLine_at parses isAt
  · exact parseOtherLine_at parses

theorem parseLine_at (parses : ParsesAt Place name p) : ParsesAt Place name (parseLine p) := by
  have here := parses.cur
  have noOperands : OperandsAt Place [] := fun _ member => absurd member List.not_mem_nil
  unfold parseLine
  dsimp only
  split
  · exact parses
  · split
    · exact parses.advance
    · split
      · split
        · exact parses.advance.skipNewline.pushInstr ⟨here, fun _ => here, noOperands⟩
        · exact parseStatement_at parses.advance
            ⟨parses.advance.cur, fun _ => here, noOperands⟩
      · exact parseStatement_at parses ⟨here, fun labelled => absurd rfl labelled, noOperands⟩

theorem parseLoop_at (fuel : Nat) {p : Parser} (parses : ParsesAt Place name p) :
    ParsesAt Place name (parseLoop fuel p) := by
  induction fuel generalizing p with
  | zero => exact parses
  | succ fuel inductionHypothesis =>
      rw [parseLoop]
      split
      · exact parses
      · exact inductionHypothesis (parseLine_at parses).skipNewlines

end Lines

/-- From tokens at places come statements and diagnostics at places. -/
theorem parserParse_at {tokens : TokenArray} (ended : LastIsEof tokens.data)
    (places : ∀ token ∈ tokens.data, Place token.line token.col)
    (isName : tokens.sourceName = some name) :
    AllStand Place name (parserParse tokens).errors ∧
      ∀ instr ∈ (parserParse tokens).instructions.data, InstructionAt Place instr := by
  have start : ParsesAt Place name
      ⟨tokens.data, .empty, [], tokens.sourceName.getD (utf8 "unknown")⟩ := by
    refine ⟨ended, places, ?_, .empty, fun _ member => absurd member List.not_mem_nil⟩
    rw [isName]
    rfl
  have parsed := parseLoop_at tokens.data.length start.skipNewlines
  exact ⟨parsed.errors, parsed.out⟩

end Places

end Nazm.Parser
