import Nazm.Lexer.Tokens
import Nazm.Parser.Parser

/-!
What the statements of a source are like.

Owns the facts the passes need about any statement list the parser returns:
names are those of tokens, a statement is a directive or an instruction but not both,
names and strings are paid for by tokens, and without errors every instruction
has an operand count that its opcode admits.

Does not own which statements a given source has.
-/

namespace Nazm.Parser

open Nazm.Encoder Nazm.Unicode Nazm.Diagnostics Nazm.Lexer

/-! ## Statements and their weight -/

/-- The name of a symbolic operand. -/
def symbolName? (op : Operand) : Option (List UInt8) :=
  match op.kind with
  | .memRipLabel label | .label label => some label
  | _ => none

/-- The bytes of a name or string and one more. -/
def operandWeight (op : Operand) : Nat :=
  match op.kind with
  | .memRipLabel text | .label text | .string text => text.length + 1
  | _ => 0

def operandsWeight (ops : List Operand) : Nat := (ops.map operandWeight).sum

@[simp] theorem operandsWeight_nil : operandsWeight [] = 0 := rfl

@[simp] theorem operandsWeight_cons (op : Operand) (ops : List Operand) :
    operandsWeight (op :: ops) = operandWeight op + operandsWeight ops := by
  simp [operandsWeight]

@[simp] theorem operandsWeight_append (first second : List Operand) :
    operandsWeight (first ++ second) = operandsWeight first + operandsWeight second := by
  simp [operandsWeight]

def labelWeight : Option (List UInt8) → Nat
  | some label => label.length + 1
  | none => 1

def instructionWeight (instr : Instruction) : Nat :=
  labelWeight instr.label + operandsWeight instr.ops

def instructionsWeight (statements : List Instruction) : Nat :=
  (statements.map instructionWeight).sum

@[simp] theorem instructionsWeight_nil : instructionsWeight [] = 0 := rfl

@[simp] theorem instructionsWeight_cons (instr : Instruction) (statements : List Instruction) :
    instructionsWeight (instr :: statements) =
      instructionWeight instr + instructionsWeight statements := by
  simp [instructionsWeight]

@[simp] theorem instructionsWeight_append (first second : List Instruction) :
    instructionsWeight (first ++ second) = instructionsWeight first + instructionsWeight second := by
  simp [instructionsWeight]

/-- A symbolic operand has a name. -/
def OperandWellFormed (op : Operand) : Prop :=
  ∀ label, symbolName? op = some label → IsName label

structure InstructionWellFormed (instr : Instruction) : Prop where
  label : ∀ label, instr.label = some label → IsName label
  operands : ∀ op ∈ instr.ops, OperandWellFormed op
  exclusive : instr.opcode = .invalid ∨ instr.directiveKind = .none
  count : instr.ops.length ≤ maxOperands

/-- The operand count is one that `check_arity` lets pass. -/
def ArityChecked (instr : Instruction) : Prop :=
  instr.opcode ≠ .invalid → arityAdmits instr.opcode instr.ops

/-! ## Moves of the cursor -/

/-- The cursor moved forward, no statement was pushed and no error forgotten. -/
structure Scans (before after : Parser) : Prop where
  out : after.out = before.out
  tokens : after.tokens <:+ before.tokens
  clean : errorHasAny after.errors = false → errorHasAny before.errors = false

theorem Scans.refl (p : Parser) : Scans p p := ⟨rfl, List.suffix_refl _, id⟩

theorem Scans.trans {first second third : Parser} (one : Scans first second)
    (two : Scans second third) : Scans first third :=
  ⟨two.out.trans one.out, two.tokens.trans one.tokens, fun clean => one.clean (two.clean clean)⟩

theorem tokensWeight_le_of_suffix {shorter longer : List Token} (suffix : shorter <:+ longer) :
    tokensWeight shorter ≤ tokensWeight longer := by
  obtain ⟨used, rfl⟩ := suffix
  rw [tokensWeight_append]
  omega

theorem Scans.weight_le {before after : Parser} (scans : Scans before after) :
    tokensWeight after.tokens ≤ tokensWeight before.tokens :=
  tokensWeight_le_of_suffix scans.tokens

def TokensWellFormed (p : Parser) : Prop := ∀ token ∈ p.tokens, token.WellFormed

theorem Scans.wellFormed {before after : Parser} (scans : Scans before after)
    (wellFormed : TokensWellFormed before) : TokensWellFormed after :=
  fun token member => wellFormed token (scans.tokens.subset member)

/-- The cursor's token is one of the list, or the end of the file. -/
theorem cur_wellFormed {p : Parser} (wellFormed : TokensWellFormed p) : (cur p).WellFormed := by
  unfold cur
  cases tokens : p.tokens with
  | nil => exact fun named => by contradiction
  | cons token rest =>
      exact wellFormed token (by rw [tokens]; exact List.mem_cons_self)

/-- Advancing pays for the token passed. -/
theorem advance_paid (p : Parser) :
    (cur p).weight + tokensWeight (advance p).tokens ≤ tokensWeight p.tokens := by
  unfold advance
  split
  · next eof =>
      have free : (cur p).weight = 0 := by rw [Token.weight, eof]
      omega
  · next notEof =>
      unfold cur at notEof ⊢
      cases tokens : p.tokens with
      | nil => simp [tokens] at notEof
      | cons token rest => simp

theorem advance_scans (p : Parser) : Scans p (advance p) := by
  unfold advance
  split
  · exact .refl p
  · exact ⟨rfl, List.tail_suffix _, id⟩

theorem syncToNewline_scans (p : Parser) : Scans p (syncToNewline p) :=
  ⟨rfl, List.dropWhile_suffix _, id⟩

theorem skipNewlines_scans (p : Parser) : Scans p (skipNewlines p) :=
  ⟨rfl, List.dropWhile_suffix _, id⟩

theorem skipNewline_scans (p : Parser) : Scans p (skipNewline p) := by
  unfold skipNewline
  split
  · exact advance_scans p
  · exact .refl p

@[simp] theorem tokenError_dirty (p : Parser) (t : Token) (msg : List UInt8) :
    errorHasAny (tokenError p t msg).errors = true :=
  errorHasAny_errorAddSpan _ _ _ _ _ _

theorem tokenError_scans (p : Parser) (t : Token) (msg : List UInt8) :
    Scans p (tokenError p t msg) :=
  ⟨rfl, List.suffix_refl _, fun clean => by simp at clean⟩

theorem dropLine_scans (p : Parser) : Scans p (dropLine p) :=
  (syncToNewline_scans p).trans (skipNewline_scans _)

/-! ## Operands -/

/-- An operand, where one was read, is paid for and well formed. -/
structure ReadsOperand (before : Parser) (result : Parser × Option Operand) : Prop where
  scans : Scans before result.1
  paid : ∀ op, result.2 = some op →
    operandWeight op + tokensWeight result.1.tokens ≤ tokensWeight before.tokens
  wellFormed : TokensWellFormed before → ∀ op, result.2 = some op → OperandWellFormed op
  fails : result.2 = none → errorHasAny result.1.errors = true

theorem ReadsOperand.after {before middle : Parser} {result : Parser × Option Operand}
    (scans : Scans before middle) (reads : ReadsOperand middle result) :
    ReadsOperand before result where
  scans := scans.trans reads.scans
  paid op read := Nat.le_trans (reads.paid op read) scans.weight_le
  wellFormed tokens := reads.wellFormed (scans.wellFormed tokens)
  fails := reads.fails

theorem failure_reads {before after : Parser} (scans : Scans before after)
    (dirty : errorHasAny after.errors = true) : ReadsOperand before (after, none) where
  scans := scans
  paid _ read := by contradiction
  wellFormed _ _ read := by contradiction
  fails _ := dirty

theorem failOperand_reads (p : Parser) (t : Token) (msg : List UInt8) :
    ReadsOperand p (failOperand p t msg) :=
  failure_reads ((tokenError_scans p t msg).trans (syncToNewline_scans _)) (tokenError_dirty p t msg)

/-- An operand whose name, if any, is that of a token passed. -/
theorem success_reads {before after : Parser} {op : Operand} (scans : Scans before after)
    (paid : operandWeight op + tokensWeight after.tokens ≤ tokensWeight before.tokens)
    (wellFormed : TokensWellFormed before → OperandWellFormed op) :
    ReadsOperand before (after, some op) where
  scans := scans
  paid _ read := Option.some.inj read ▸ paid
  wellFormed tokens _ read := Option.some.inj read ▸ wellFormed tokens
  fails absent := by contradiction

theorem success_reads_free {before after : Parser} {op : Operand} (scans : Scans before after)
    (free : operandWeight op = 0) (nameless : symbolName? op = none) :
    ReadsOperand before (after, some op) := by
  refine success_reads scans ?_ fun _ label named => ?_
  · rw [free, Nat.zero_add]
    exact scans.weight_le
  · exact nomatch nameless.symm.trans named

theorem closeMemory_reads {before p : Parser} (scans : Scans before p) {kind : OperandKind}
    (openTok : Token) (unclosed : List UInt8)
    (paid : ∀ line col endCol,
      operandWeight ⟨kind, line, col, endCol⟩ + tokensWeight p.tokens ≤ tokensWeight before.tokens)
    (wellFormed : TokensWellFormed before → ∀ line col endCol,
      OperandWellFormed ⟨kind, line, col, endCol⟩) :
    ReadsOperand before (closeMemory p kind openTok unclosed) := by
  unfold closeMemory
  split
  · exact (failOperand_reads p _ _).after scans
  · have advanced := advance_scans p
    refine success_reads (scans.trans advanced) ?_ fun tokens => wellFormed tokens _ _ _
    have price := paid openTok.line openTok.col (cur p).endCol
    have bound := advanced.weight_le
    omega

/-- A memory operand without a name. -/
theorem closeMemory_reads_free (p : Parser) {kind : OperandKind} (openTok : Token)
    (unclosed : List UInt8)
    (free : ∀ line col endCol, operandWeight ⟨kind, line, col, endCol⟩ = 0)
    (nameless : ∀ line col endCol, symbolName? ⟨kind, line, col, endCol⟩ = none) :
    ReadsOperand p (closeMemory p kind openTok unclosed) := by
  refine closeMemory_reads (.refl p) openTok unclosed (fun line col endCol => ?_)
    fun _ line col endCol label named => ?_
  · exact Nat.le_of_eq (by rw [free, Nat.zero_add])
  · exact nomatch (nameless line col endCol).symm.trans named

/-- A name token weighs what the operand that takes its name does. -/
theorem name_weight {token : Token} (named : token.type = .labelRef ∨ token.type = .mnemonic) :
    token.weight = token.value.length + 1 ∧ token.type.isName = true := by
  rcases named with type | type <;> simp [Token.weight, TokenType.isName, type]

theorem parseRipOperand_reads (p : Parser) (openTok : Token) :
    ReadsOperand p (parseRipOperand p openTok) := by
  unfold parseRipOperand
  split
  · exact failOperand_reads p _ _
  · refine ReadsOperand.after (advance_scans p) ?_
    dsimp only
    split
    · exact failOperand_reads _ _ _
    · next named =>
        have name : curType (advance p) = .labelRef ∨ curType (advance p) = .mnemonic :=
          Decidable.or_iff_not_not_and_not.mpr named
        obtain ⟨weight, isName⟩ := name_weight name
        have paid := advance_paid (advance p)
        refine closeMemory_reads (advance_scans _) _ _ (fun _ _ _ => ?_) fun tokens _ _ _ => ?_
        · simp only [operandWeight]
          omega
        · intro label equal
          obtain rfl := Option.some.inj equal
          exact cur_wellFormed tokens isName

theorem closeDisplacement_reads (p : Parser) (base : RegId) (displacement : Int)
    (token openTok : Token) :
    ReadsOperand p (closeDisplacement p base displacement token openTok) := by
  unfold closeDisplacement
  split
  · exact failOperand_reads p _ _
  · exact closeMemory_reads_free p _ _ (fun _ _ _ => rfl) fun _ _ _ => rfl

theorem parseBaseOperand_reads (p : Parser) (openTok : Token) (base : RegId) :
    ReadsOperand p (parseBaseOperand p openTok base) := by
  unfold parseBaseOperand
  split
  · refine ReadsOperand.after (advance_scans p) ?_
    dsimp only
    split
    · exact failOperand_reads _ _ _
    · exact (closeDisplacement_reads _ _ _ _ _).after (advance_scans _)
  · split
    · exact (closeDisplacement_reads _ _ _ _ _).after (advance_scans _)
    · exact closeMemory_reads_free p _ _ (fun _ _ _ => rfl) fun _ _ _ => rfl

theorem parseMemOperand_reads (p : Parser) (openTok : Token) :
    ReadsOperand p (parseMemOperand p openTok) := by
  unfold parseMemOperand
  dsimp only
  split
  · exact (parseRipOperand_reads _ _).after (advance_scans p)
  · split
    · split
      · exact failure_reads ((tokenError_scans p _ _).trans (syncToNewline_scans _))
          (tokenError_dirty p _ _)
      · exact failOperand_reads p _ _
    · refine ReadsOperand.after (advance_scans p) ?_
      split
      · exact failOperand_reads _ _ _
      · split
        · exact failOperand_reads _ _ _
        · exact parseBaseOperand_reads _ _ _

theorem parseOperand_reads (p : Parser) : ReadsOperand p (parseOperand p) := by
  have advanced := advance_scans p
  have paid := advance_paid p
  -- a name or string token becomes a whole operand
  have taken : ∀ kind : OperandKind,
      operandWeight ⟨kind, (cur p).line, (cur p).col, (cur p).endCol⟩ = (cur p).weight →
      (∀ label, symbolName? ⟨kind, (cur p).line, (cur p).col, (cur p).endCol⟩ = some label →
        label = (cur p).value ∧ (cur p).type.isName = true) →
      ReadsOperand p
        (advance p, some ⟨kind, (cur p).line, (cur p).col, (cur p).endCol⟩) := by
    intro kind weight named
    refine success_reads advanced (by omega) fun tokens label equal => ?_
    obtain ⟨rfl, isName⟩ := named label equal
    exact cur_wellFormed tokens isName
  unfold parseOperand
  dsimp only
  split
  · split
    · exact success_reads_free advanced rfl rfl
    · exact failure_reads (advanced.trans (tokenError_scans _ _ _)) (tokenError_dirty _ _ _)
  · exact success_reads_free advanced rfl rfl
  · exact (parseMemOperand_reads _ _).after advanced
  · next labelRef =>
      obtain ⟨weight, isName⟩ := name_weight (.inl labelRef)
      split
      · exact failure_reads ((tokenError_scans p _ _).trans (advance_scans _))
          (by
            unfold advance
            split <;> exact tokenError_dirty p _ _)
      · exact taken _ weight.symm fun label equal => ⟨(Option.some.inj equal).symm, isName⟩
  · next mnemonic =>
      obtain ⟨weight, isName⟩ := name_weight (.inr mnemonic)
      exact taken _ weight.symm fun label equal => ⟨(Option.some.inj equal).symm, isName⟩
  · next string =>
      exact taken _ (by simp [operandWeight, Token.weight, string]) fun label equal => by
        contradiction
  · exact failure_reads (tokenError_scans p _ _) (tokenError_dirty p _ _)

/-! ## Operand lists -/

/-- The operands read so far and the tokens left are paid for by the tokens there were. -/
structure ReadsOperands (before : Parser) (ops : List Operand) (after : Parser)
    (read : List Operand) : Prop where
  scans : Scans before after
  paid : operandsWeight read + tokensWeight after.tokens ≤
    operandsWeight ops + tokensWeight before.tokens
  wellFormed : TokensWellFormed before → (∀ op ∈ ops, OperandWellFormed op) →
    ∀ op ∈ read, OperandWellFormed op

theorem ReadsOperands.stop {before after : Parser} (scans : Scans before after)
    (ops : List Operand) : ReadsOperands before ops after ops :=
  ⟨scans, Nat.add_le_add_left scans.weight_le _, fun _ wellFormed => wellFormed⟩

theorem ReadsOperands.after {before middle after : Parser} {ops read : List Operand}
    (scans : Scans before middle) (reads : ReadsOperands middle ops after read) :
    ReadsOperands before ops after read :=
  ⟨scans.trans reads.scans,
    Nat.le_trans reads.paid (Nat.add_le_add_left scans.weight_le _),
    fun tokens => reads.wellFormed (scans.wellFormed tokens)⟩

/-- One more operand. -/
theorem ReadsOperands.cons {before middle after : Parser} {op : Operand} {ops read : List Operand}
    (first : ReadsOperand before (middle, some op))
    (reads : ReadsOperands middle (ops ++ [op]) after read) :
    ReadsOperands before ops after read := by
  refine ⟨first.scans.trans reads.scans, ?_, fun tokens wellFormed => ?_⟩
  · have price := first.paid op rfl
    have total := reads.paid
    simp only [operandsWeight_append, operandsWeight_cons, operandsWeight_nil] at total
    dsimp only at price
    omega
  · refine reads.wellFormed (first.scans.wellFormed tokens) fun other member => ?_
    rcases List.mem_append.mp member with inOps | last
    · exact wellFormed other inOps
    · obtain rfl := List.mem_singleton.mp last
      exact first.wellFormed tokens _ rfl

theorem tooMany_scans (p : Parser) : Scans p (syncToNewline (parseError p tooManyOperands)) :=
  (tokenError_scans p _ _).trans (syncToNewline_scans _)

theorem directiveOperands_reads (fuel : Nat) (p : Parser) (ops : List Operand) :
    ReadsOperands p ops (directiveOperands fuel p ops).1 (directiveOperands fuel p ops).2 := by
  induction fuel generalizing p ops with
  | zero => exact .stop (.refl p) ops
  | succ fuel inductionHypothesis =>
      have operand := parseOperand_reads p
      rw [directiveOperands]
      split
      · exact .stop (.refl p) ops
      · split
        · exact .after (advance_scans p) (inductionHypothesis _ _)
        · split
          · exact .stop (tooMany_scans p) ops
          · split
            · next failed =>
                rw [failed] at operand
                exact .stop (operand.scans.trans (syncToNewline_scans _)) ops
            · next read =>
                rw [read] at operand
                exact .cons operand (inductionHypothesis _ _)

/-- No list of operands grows beyond the limit. -/
theorem directiveOperands_count (fuel : Nat) (p : Parser) {ops : List Operand}
    (count : ops.length ≤ maxOperands) :
    (directiveOperands fuel p ops).2.length ≤ maxOperands := by
  induction fuel generalizing p ops with
  | zero => exact count
  | succ fuel inductionHypothesis =>
      rw [directiveOperands]
      split
      · exact count
      · split
        · exact inductionHypothesis _ count
        · split
          · exact count
          · next room =>
              split
              · exact count
              · refine inductionHypothesis _ ?_
                rw [List.length_append, List.length_singleton]
                omega

theorem expectComma_scans (p : Parser) : Scans p (expectComma p).1 := by
  unfold expectComma
  split
  · exact advance_scans p
  · exact tokenError_scans p _ _

theorem expectComma_fails {p : Parser} (missing : (expectComma p).2 = false) :
    errorHasAny (expectComma p).1.errors = true := by
  unfold expectComma at missing ⊢
  split at missing
  · contradiction
  · next notComma =>
      rw [if_neg notComma]
      exact tokenError_dirty p _ _

/-- The loop of an instruction line: what it reads, and that it fails with an error. -/
theorem instructionOperands_reads (fuel : Nat) (p : Parser) (ops : List Operand) :
    ReadsOperands p ops (instructionOperands fuel p ops).1 (instructionOperands fuel p ops).2.1 ∧
      ((instructionOperands fuel p ops).2.2 = false →
        errorHasAny (instructionOperands fuel p ops).1.errors = true) := by
  induction fuel generalizing p ops with
  | zero => exact ⟨.stop (.refl p) ops, fun failed => by contradiction⟩
  | succ fuel inductionHypothesis =>
      rw [instructionOperands]
      split
      · exact ⟨.stop (.refl p) ops, fun failed => by contradiction⟩
      · -- the comma before every operand but the first
        have scans : Scans p (if 0 < ops.length then expectComma p else (p, true)).1 := by
          split
          · exact expectComma_scans p
          · exact .refl p
        have fails : (if 0 < ops.length then expectComma p else (p, true)).2 = false →
            errorHasAny (if 0 < ops.length then expectComma p else (p, true)).1.errors = true := by
          split
          · exact expectComma_fails
          · exact fun failed => by contradiction
        generalize (if 0 < ops.length then expectComma p else (p, true)) = separated at scans fails
        obtain ⟨separated, comma⟩ := separated
        dsimp only at scans fails ⊢
        have operand := parseOperand_reads separated
        split
        · next missing =>
            refine ⟨.stop (scans.trans (syncToNewline_scans _)) ops, fun _ => ?_⟩
            exact fails (by simpa using missing)
        · split
          · exact ⟨.stop (scans.trans (tooMany_scans _)) ops, fun _ => tokenError_dirty _ _ _⟩
          · split
            · next failed =>
                rw [failed] at operand
                exact ⟨.stop ((scans.trans operand.scans).trans (syncToNewline_scans _)) ops,
                  fun _ => operand.fails rfl⟩
            · next read =>
                rw [read] at operand
                obtain ⟨reads, readsFails⟩ := inductionHypothesis _ (ops ++ [_])
                exact ⟨.after scans (.cons operand reads), readsFails⟩

theorem instructionOperands_count (fuel : Nat) (p : Parser) {ops : List Operand}
    (count : ops.length ≤ maxOperands) :
    (instructionOperands fuel p ops).2.1.length ≤ maxOperands := by
  induction fuel generalizing p ops with
  | zero => exact count
  | succ fuel inductionHypothesis =>
      rw [instructionOperands]
      split
      · exact count
      · generalize (if 0 < ops.length then expectComma p else (p, true)) = separated
        obtain ⟨separated, comma⟩ := separated
        dsimp only
        split
        · exact count
        · split
          · exact count
          · next room =>
              split
              · exact count
              · refine inductionHypothesis _ ?_
                rw [List.length_append, List.length_singleton]
                omega

/-! ## Lines -/

/-- A part of the parser's work, with the statements it pushed. -/
structure Parses (before after : Parser) : Prop where
  tokens : after.tokens <:+ before.tokens
  clean : errorHasAny after.errors = false → errorHasAny before.errors = false
  paid : instructionsWeight after.out + tokensWeight after.tokens ≤
    instructionsWeight before.out + tokensWeight before.tokens
  wellFormed : TokensWellFormed before → (∀ instr ∈ before.out, InstructionWellFormed instr) →
    ∀ instr ∈ after.out, InstructionWellFormed instr
  arity : errorHasAny after.errors = false → (∀ instr ∈ before.out, ArityChecked instr) →
    ∀ instr ∈ after.out, ArityChecked instr

theorem Scans.parses {before after : Parser} (scans : Scans before after) :
    Parses before after where
  tokens := scans.tokens
  clean := scans.clean
  paid := by
    rw [scans.out]
    exact Nat.add_le_add_left scans.weight_le _
  wellFormed _ := by
    rw [scans.out]
    exact id
  arity _ := by
    rw [scans.out]
    exact id

theorem Parses.trans {first second third : Parser} (one : Parses first second)
    (two : Parses second third) : Parses first third where
  tokens := two.tokens.trans one.tokens
  clean clean := one.clean (two.clean clean)
  paid := Nat.le_trans two.paid one.paid
  wellFormed tokens start :=
    two.wellFormed (fun token member => tokens token (one.tokens.subset member))
      (one.wellFormed tokens start)
  arity clean start := two.arity clean (one.arity (two.clean clean) start)

theorem pushInstr_parses {before after : Parser} {instr : Instruction} (scans : Scans before after)
    (paid : instructionWeight instr + tokensWeight after.tokens ≤ tokensWeight before.tokens)
    (wellFormed : TokensWellFormed before → InstructionWellFormed instr)
    (arity : errorHasAny after.errors = false → ArityChecked instr) :
    Parses before (pushInstr after instr) where
  tokens := scans.tokens
  clean := scans.clean
  paid := by
    simp only [pushInstr, scans.out, instructionsWeight_append, instructionsWeight_cons,
      instructionsWeight_nil]
    omega
  wellFormed tokens start other member := by
    rw [pushInstr, scans.out, List.mem_append, List.mem_singleton] at member
    rcases member with inOut | rfl
    · exact start other inOut
    · exact wellFormed tokens
  arity clean start other member := by
    rw [pushInstr, scans.out, List.mem_append, List.mem_singleton] at member
    rcases member with inOut | rfl
    · exact start other inOut
    · exact arity clean

theorem checkArity_scans (p : Parser) (instr : Instruction) (minOps maxOps : Nat) :
    Scans p (checkArity p instr minOps maxOps) := by
  have spanError_scans : ∀ msg, Scans p (spanError p instr msg) :=
    fun msg => ⟨rfl, List.suffix_refl _, fun clean => by simp [spanError] at clean⟩
  unfold checkArity
  split
  · exact spanError_scans _
  · split
    · exact spanError_scans _
    · exact .refl p

theorem checkArity_admits {p : Parser} {instr : Instruction} {minOps maxOps : Nat}
    (clean : errorHasAny (checkArity p instr minOps maxOps).errors = false) :
    minOps ≤ instr.ops.length ∧ instr.ops.length ≤ maxOps := by
  unfold checkArity at clean
  split at clean
  · simp [spanError] at clean
  · split at clean
    · simp [spanError] at clean
    · omega

/-- What a line has when its statement begins: a label, paid for and well formed. -/
structure LabelRead (before after : Parser) (instr : Instruction) : Prop where
  scans : Scans before after
  paid : labelWeight instr.label + tokensWeight after.tokens ≤ tokensWeight before.tokens + 1
  wellFormed : TokensWellFormed before → ∀ label, instr.label = some label → IsName label
  blank : instr.opcode = .invalid ∧ instr.directiveKind = .none

theorem parseDirectiveLine_parses {before p : Parser} {instr : Instruction}
    (labelled : LabelRead before p instr) (directive : curType p = .directive) :
    Parses before (parseDirectiveLine p instr) := by
  have operands := directiveOperands_reads p.tokens.length (advance p) []
  have advanced := advance_scans p
  have paid := advance_paid p
  have weight : (cur p).weight = 1 := by
    have type : (cur p).type = .directive := directive
    rw [Token.weight, type]
  unfold parseDirectiveLine
  dsimp only
  split
  · exact (labelled.scans.trans ((tokenError_scans p _ _).trans (dropLine_scans _))).parses
  · have skipped := skipNewline_scans (directiveOperands p.tokens.length (advance p) []).1
    refine pushInstr_parses (labelled.scans.trans ((advanced.trans operands.scans).trans skipped)) ?_
      (fun tokens => ?_) fun _ named => absurd labelled.blank.1 named
    · have read := operands.paid
      have rest := skipped.weight_le
      have labelPaid := labelled.paid
      rw [operandsWeight_nil] at read
      simp only [instructionWeight]
      omega
    · refine ⟨labelled.wellFormed tokens, ?_, .inl labelled.blank.1,
        directiveOperands_count _ _ (Nat.zero_le _)⟩
      exact operands.wellFormed (advanced.wellFormed (labelled.scans.wellFormed tokens))
        fun _ member => absurd member List.not_mem_nil

theorem parseInstructionLine_parses {before p : Parser} {instr : Instruction}
    (labelled : LabelRead before p instr) (mnemonic : curType p = .mnemonic) :
    Parses before (parseInstructionLine p instr) := by
  have advanced := advance_scans p
  have paid := advance_paid p
  have weight := (name_weight (.inr mnemonic)).1
  unfold parseInstructionLine
  dsimp only
  split
  · exact (labelled.scans.trans ((tokenError_scans p _ _).trans (dropLine_scans _))).parses
  · obtain ⟨operands, fails⟩ := instructionOperands_reads p.tokens.length (advance p) []
    have count := @instructionOperands_count p.tokens.length (advance p) [] (Nat.zero_le _)
    generalize instructionOperands p.tokens.length (advance p) [] = line at operands fails count ⊢
    obtain ⟨read, ops, syntaxOk⟩ := line
    dsimp only at operands fails count ⊢
    generalize instrEq : { instr with opcode := keywordsLookup (cur p).value, ops := ops } =
      statement
    have checked : Scans read
        (if syntaxOk then
          checkArity read statement (getArity (keywordsLookup (cur p).value)).1
            (getArity (keywordsLookup (cur p).value)).2
        else read) := by
      split
      · exact checkArity_scans _ _ _ _
      · exact .refl read
    have skipped := checked.trans (skipNewline_scans _)
    refine pushInstr_parses (labelled.scans.trans ((advanced.trans operands.scans).trans skipped))
      ?_ (fun tokens => ?_) fun clean _ => ?_
    · have readPaid := operands.paid
      have rest := skipped.weight_le
      have labelPaid := labelled.paid
      rw [operandsWeight_nil] at readPaid
      subst instrEq
      simp only [instructionWeight]
      omega
    · rw [← instrEq]
      refine ⟨labelled.wellFormed tokens, ?_, .inr labelled.blank.2, count⟩
      exact operands.wellFormed (advanced.wellFormed (labelled.scans.wellFormed tokens))
        fun _ member => absurd member List.not_mem_nil
    · have noError := (skipNewline_scans _).clean clean
      split at noError
      · rw [← instrEq] at noError ⊢
        exact checkArity_admits noError
      · next failed =>
          rw [fails (by simpa using failed)] at noError
          contradiction

theorem parseOtherLine_parses (p : Parser) : Parses p (parseOtherLine p) := by
  unfold parseOtherLine
  dsimp only
  split <;> exact ((tokenError_scans p _ _).trans (dropLine_scans _)).parses

theorem parseStatement_parses {before p : Parser} {instr : Instruction}
    (labelled : LabelRead before p instr) : Parses before (parseStatement p instr) := by
  unfold parseStatement
  split
  · next directive => exact parseDirectiveLine_parses labelled directive
  · next mnemonic => exact parseInstructionLine_parses labelled mnemonic
  · exact labelled.scans.parses.trans (parseOtherLine_parses p)

theorem parseLine_parses (p : Parser) : Parses p (parseLine p) := by
  unfold parseLine
  dsimp only
  split
  · exact (Scans.refl p).parses
  · split
    · exact (advance_scans p).parses
    · split
      · next labelDef =>
          have paid := advance_paid p
          have weight : (cur p).weight = (cur p).value.length + 1 := by rw [Token.weight, labelDef]
          have clean : TokensWellFormed p → IsName (cur p).value := fun tokens =>
            cur_wellFormed tokens (by rw [labelDef]; rfl)
          split
          · have skipped := skipNewline_scans (advance p)
            refine pushInstr_parses ((advance_scans p).trans skipped) ?_ (fun tokens => ?_)
              fun _ named => absurd rfl named
            · have rest := skipped.weight_le
              simp only [instructionWeight, labelWeight, emptyInstruction, operandsWeight_nil]
              omega
            · exact ⟨fun label equal => Option.some.inj equal ▸ clean tokens,
                fun _ member => absurd member List.not_mem_nil, .inl rfl, Nat.zero_le _⟩
          · refine parseStatement_parses ⟨advance_scans p, ?_, fun tokens label equal => ?_, rfl, rfl⟩
            · simp only [setInstructionSpan, labelWeight]
              omega
            · exact Option.some.inj equal ▸ clean tokens
      · refine parseStatement_parses ⟨.refl p, ?_, fun _ _ equal => by contradiction, rfl, rfl⟩
        simp only [emptyInstruction, labelWeight]
        omega

theorem parseLoop_parses (fuel : Nat) (p : Parser) : Parses p (parseLoop fuel p) := by
  induction fuel generalizing p with
  | zero => exact (Scans.refl p).parses
  | succ fuel inductionHypothesis =>
      rw [parseLoop]
      split
      · exact (Scans.refl p).parses
      · exact ((parseLine_parses p).trans (skipNewlines_scans _).parses).trans
          (inductionHypothesis _)

/-! ## The whole source -/

theorem parserParse_parses (tokens : TokenArray) :
    ∃ start after : Parser, start.out = [] ∧ start.tokens = tokens.data ∧ Parses start after ∧
      after.out = (parserParse tokens).instructions.data ∧
      after.errors = (parserParse tokens).errors := by
  refine ⟨⟨tokens.data, .empty, [], tokens.sourceName.getD (utf8 "unknown")⟩, _, rfl, rfl, ?_,
    rfl, rfl⟩
  exact (skipNewlines_scans _).parses.trans (parseLoop_parses _ _)

/-- Every statement of a source is well formed. -/
theorem parse_wellFormed (src : SourceBuffer) :
    ∀ instr ∈ (parserParse (lexerLex src).tokens).instructions.data, InstructionWellFormed instr := by
  obtain ⟨start, after, empty, tokens, parses, out, -⟩ := parserParse_parses (lexerLex src).tokens
  rw [← out]
  refine parses.wellFormed ?_ ?_
  · rw [TokensWellFormed, tokens]
    exact lexerLex_wellFormed src
  · rw [empty]
    exact fun _ member => absurd member List.not_mem_nil

/-- The statements of a source weigh at most twice its length. -/
theorem parse_weight (src : SourceBuffer) :
    instructionsWeight (parserParse (lexerLex src).tokens).instructions.data ≤
      2 * src.data.length := by
  obtain ⟨start, after, empty, tokens, parses, out, -⟩ := parserParse_parses (lexerLex src).tokens
  have paid := parses.paid
  have bound := lexerLex_weight src
  rw [empty, tokens, out, instructionsWeight_nil] at paid
  omega

/-- Without a parse error, every instruction has an admitted operand count. -/
theorem parse_arity (tokens : TokenArray)
    (clean : errorHasAny (parserParse tokens).errors = false) :
    ∀ instr ∈ (parserParse tokens).instructions.data, ArityChecked instr := by
  obtain ⟨start, after, empty, -, parses, out, errors⟩ := parserParse_parses tokens
  rw [← out]
  refine parses.arity (by rw [errors]; exact clean) ?_
  rw [empty]
  exact fun _ member => absurd member List.not_mem_nil

end Nazm.Parser
