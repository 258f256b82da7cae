import Nazm.Parser.Parser

/-!
The grammar of the parser.

Owns the token texts of operands, operand lists, lines and programs, with the
operands and statements they give.

Does not own the parser, nor recovery after an error.
-/

namespace Nazm.Parser

open Nazm.Encoder Nazm.Lexer Nazm.Unicode Nazm.Diagnostics

/-! ## Texts of operands -/

section Grammar

variable (vocabulary : Vocabulary)

/-- The operand that a token is by itself. -/
def wordOperand? (t : Token) : Option OperandKind :=
  match t.type with
  | .register => (@lexerRegisterId vocabulary t.value).map .reg
  | .immediate => some (.imm (strtoll t.value))
  | .labelRef =>
      if lexerRegisterLegacyReplacement t.value = none then some (.label t.value) else none
  | .mnemonic => some (.label t.value)
  | .string => some (.string t.value)
  | _ => none

/-- A 64-bit general register. -/
structure IsBase (t : Token) (base : RegId) : Prop where
  type : t.type = .register
  register : @lexerRegisterId vocabulary t.value = some base
  wide : regWidthBits base = 64

/-- A displacement of 32 bits with sign. -/
def Fits32 (displacement : Int) : Prop := -2 ^ 31 ≤ displacement ∧ displacement ≤ 2 ^ 31 - 1

instance (displacement : Int) : Decidable (Fits32 displacement) :=
  inferInstanceAs (Decidable (_ ∧ _))

/-- What a sign token makes of a number. -/
def signed (sign : TokenType) (value : Int) : Int := if sign = .minus then -value else value

/-- The text of a memory operand after its opening bracket. -/
inductive MemoryText : List Token → OperandKind → Prop where
  | base {r close : Token} {base : RegId} :
      IsBase vocabulary r base → close.type = .rbracket → MemoryText [r, close] (.memReg base)
  | signed {r sign number close : Token} {base : RegId} :
      IsBase vocabulary r base → sign.type = .plus ∨ sign.type = .minus →
      number.type = .immediate → Fits32 (signed sign.type (strtoll number.value).toInt) →
      close.type = .rbracket →
      MemoryText [r, sign, number, close]
        (.memDisp base (Int32.ofInt (Parser.signed sign.type (strtoll number.value).toInt)))
  | unsigned {r number close : Token} {base : RegId} :
      IsBase vocabulary r base → number.type = .immediate →
      Fits32 (strtoll number.value).toInt → close.type = .rbracket →
      MemoryText [r, number, close] (.memDisp base (Int32.ofInt (strtoll number.value).toInt))
  | rip {pointer plus name close : Token} :
      pointer.type = .labelRef → pointer.value = instructionPointerName → plus.type = .plus →
      name.type = .labelRef ∨ name.type = .mnemonic → close.type = .rbracket →
      MemoryText [pointer, plus, name, close] (.memRipLabel name.value)

/-- The text of an operand. -/
inductive OperandText : List Token → OperandKind → Prop where
  | word {t : Token} {kind : OperandKind} :
      wordOperand? vocabulary t = some kind → OperandText [t] kind
  | memory {openTok : Token} {text : List Token} {kind : OperandKind} :
      openTok.type = .lbracket → MemoryText vocabulary text kind →
      OperandText (openTok :: text) kind

/-- The span of a text: from its first token to its last. -/
def spanned (text : List Token) (kind : OperandKind) : Operand :=
  ⟨kind, (text.headD ⟨.eof, [], 0, 0, 0⟩).line, (text.headD ⟨.eof, [], 0, 0, 0⟩).col,
    (text.getLastD ⟨.eof, [], 0, 0, 0⟩).endCol⟩

/-! ## Texts of operand lists -/

/-- Operands, each after a comma. -/
inductive FurtherText : List Token → List Operand → Prop where
  | nil : FurtherText [] []
  | cons {comma : Token} {text rest : List Token} {kind : OperandKind} {ops : List Operand} :
      comma.type = .comma → OperandText vocabulary text kind → FurtherText rest ops →
      FurtherText (comma :: (text ++ rest)) (spanned text kind :: ops)

/-- The operands of an instruction: commas between them. -/
inductive SeparatedText : List Token → List Operand → Prop where
  | nil : SeparatedText [] []
  | cons {text rest : List Token} {kind : OperandKind} {ops : List Operand} :
      OperandText vocabulary text kind → FurtherText vocabulary rest ops →
      SeparatedText (text ++ rest) (spanned text kind :: ops)

/-- The operands of a directive: commas anywhere. -/
inductive LooseText : List Token → List Operand → Prop where
  | nil : LooseText [] []
  | comma {comma : Token} {rest : List Token} {ops : List Operand} :
      comma.type = .comma → LooseText rest ops → LooseText (comma :: rest) ops
  | cons {text rest : List Token} {kind : OperandKind} {ops : List Operand} :
      OperandText vocabulary text kind → LooseText rest ops →
      LooseText (text ++ rest) (spanned text kind :: ops)

/-! ## Texts of lines and programs -/

/-- A statement after its label, which `instr` holds. -/
inductive StatementText (instr : Instruction) : List Token → Instruction → Prop where
  | directive {t : Token} {text : List Token} {ops : List Operand} :
      t.type = .directive → directiveLegacyReplacement t.value = none →
      LooseText vocabulary text ops → ops.length ≤ maxOperands →
      StatementText instr (t :: text)
        { instr with
          directive := some t.value, directiveKind := directiveLookup t.value, ops := ops }
  | instruction {t : Token} {text : List Token} {ops : List Operand} :
      t.type = .mnemonic → @keywordsLookup vocabulary t.value ≠ .invalid →
      SeparatedText vocabulary text ops → ops.length ≤ maxOperands →
      arityAdmits (@keywordsLookup vocabulary t.value) ops →
      StatementText instr (t :: text)
        { instr with opcode := @keywordsLookup vocabulary t.value, ops := ops }

/-- The statement of a line that starts with a label. -/
def labelled (t : Token) : Instruction :=
  { emptyInstruction t with
    label := some t.value, labelLine := t.line, labelCol := t.col, labelEndCol := t.endCol }

/-- A line with a statement. -/
inductive LineText : List Token → Instruction → Prop where
  | statement {t : Token} {text : List Token} {instr : Instruction} :
      StatementText vocabulary (emptyInstruction t) (t :: text) instr → LineText (t :: text) instr
  | label {t : Token} : t.type = .labelDef → LineText [t] (labelled t)
  | labelled {label t : Token} {text : List Token} {instr : Instruction} :
      label.type = .labelDef →
      StatementText vocabulary (setInstructionSpan (labelled label) t) (t :: text) instr →
      LineText (label :: t :: text) instr

/-- The type of the first of some tokens, which end in an end of file. -/
def firstType (tokens : List Token) : TokenType := (tokens.headD ⟨.eof, [], 0, 0, 0⟩).type

/-- Lines up to the end of the file. -/
inductive ProgramText : List Token → List Instruction → Prop where
  | done {tokens : List Token} : firstType tokens = .eof → ProgramText tokens []
  | newline {t : Token} {tokens : List Token} {statements : List Instruction} :
      t.type = .newline → ProgramText tokens statements → ProgramText (t :: tokens) statements
  | line {text tokens : List Token} {instr : Instruction} {statements : List Instruction} :
      LineText vocabulary text instr → firstType tokens = .newline ∨ firstType tokens = .eof →
      ProgramText tokens statements → ProgramText (text ++ tokens) (instr :: statements)

/-- Where a line ends. -/
def EndsLine (tokens : List Token) : Prop :=
  firstType tokens = .newline ∨ firstType tokens = .eof

end Grammar

/-! ## First tokens -/

section Heads

variable {vocabulary : Vocabulary}

/-- An operand starts with a token that is no comma and ends no line. -/
theorem OperandText.head {text : List Token} {kind : OperandKind}
    (isText : OperandText vocabulary text kind) :
    ∃ t rest, text = t :: rest ∧ isLineEnd t = false ∧ t.type ≠ .comma := by
  cases isText with
  | @word t _ isWord =>
      refine ⟨t, [], rfl, ?_⟩
      unfold wordOperand? at isWord
      split at isWord
      all_goals first
        | contradiction
        | next type => simp [isLineEnd, type]
  | memory isOpen _ => exact ⟨_, _, rfl, by simp [isLineEnd, isOpen], by simp [isOpen]⟩

theorem OperandText.length_pos {text : List Token} {kind : OperandKind}
    (isText : OperandText vocabulary text kind) : 0 < text.length := by
  obtain ⟨t, rest, rfl, -⟩ := isText.head
  exact Nat.succ_pos _

theorem LineText.head (text : List Token) {stmt : Instruction}
    (isText : LineText vocabulary text stmt) :
    ∃ t tail, text = t :: tail ∧ t.type ≠ .newline ∧ t.type ≠ .eof := by
  have type : ∀ {instr stmt : Instruction} {t : Token} {text : List Token},
      StatementText vocabulary instr (t :: text) stmt → t.type ≠ .newline ∧ t.type ≠ .eof := by
    intro instr stmt t text isStatement
    cases isStatement with
    | directive isDirective => simp [isDirective]
    | instruction isMnemonic => simp [isMnemonic]
  cases isText with
  | statement isStatement => exact ⟨_, _, rfl, type isStatement⟩
  | label isLabel => exact ⟨_, _, rfl, by simp [isLabel]⟩
  | labelled isLabel _ => exact ⟨_, _, rfl, by simp [isLabel]⟩

end Heads

/-! ## Tokens of a line -/

section InLine

variable {vocabulary : Vocabulary} {text : List Token} {ops : List Operand}

theorem MemoryText.inLine {kind : OperandKind} (isText : MemoryText vocabulary text kind) :
    ∀ t ∈ text, isLineEnd t = false := by
  cases isText with
  | base isBase isClose => simp [isLineEnd, isBase.type, isClose]
  | signed isBase isSign isNumber _ isClose =>
      rcases isSign with sign | sign <;> simp [isLineEnd, isBase.type, sign, isNumber, isClose]
  | unsigned isBase isNumber _ isClose => simp [isLineEnd, isBase.type, isNumber, isClose]
  | rip isPointer _ isPlus isName isClose =>
      rcases isName with name | name <;> simp [isLineEnd, isPointer, isPlus, name, isClose]

theorem OperandText.inLine {kind : OperandKind} (isText : OperandText vocabulary text kind) :
    ∀ t ∈ text, isLineEnd t = false := by
  obtain ⟨t, rest, split, inLine, -⟩ := isText.head
  cases isText with
  | word _ =>
      obtain ⟨rfl, rfl⟩ := List.cons.inj split
      simpa using inLine
  | memory _ isMemory =>
      obtain ⟨rfl, rfl⟩ := List.cons.inj split
      intro token member
      rcases List.mem_cons.mp member with rfl | inRest
      · exact inLine
      · exact isMemory.inLine token inRest

theorem FurtherText.inLine (isText : FurtherText vocabulary text ops) :
    ∀ t ∈ text, isLineEnd t = false := by
  induction isText with
  | nil => exact fun _ member => absurd member List.not_mem_nil
  | cons isComma isOperand _ inductionHypothesis =>
      intro t member
      rcases List.mem_cons.mp member with rfl | inRest
      · simp [isLineEnd, isComma]
      · rcases List.mem_append.mp inRest with inText | inMore
        · exact isOperand.inLine t inText
        · exact inductionHypothesis t inMore

theorem SeparatedText.inLine (isText : SeparatedText vocabulary text ops) :
    ∀ t ∈ text, isLineEnd t = false := by
  cases isText with
  | nil => exact fun _ member => absurd member List.not_mem_nil
  | cons isOperand isFurther =>
      intro t member
      rcases List.mem_append.mp member with inText | inMore
      · exact isOperand.inLine t inText
      · exact isFurther.inLine t inMore

theorem LooseText.inLine (isText : LooseText vocabulary text ops) :
    ∀ t ∈ text, isLineEnd t = false := by
  induction isText with
  | nil => exact fun _ member => absurd member List.not_mem_nil
  | comma isComma _ inductionHypothesis =>
      intro t member
      rcases List.mem_cons.mp member with rfl | inRest
      · simp [isLineEnd, isComma]
      · exact inductionHypothesis t inRest
  | cons isOperand _ inductionHypothesis =>
      intro t member
      rcases List.mem_append.mp member with inText | inMore
      · exact isOperand.inLine t inText
      · exact inductionHypothesis t inMore

theorem StatementText.inLine {instr stmt : Instruction}
    (isText : StatementText vocabulary instr text stmt) : ∀ t ∈ text, isLineEnd t = false := by
  cases isText with
  | directive isDirective _ isList _ =>
      intro t member
      rcases List.mem_cons.mp member with rfl | inRest
      · simp [isLineEnd, isDirective]
      · exact isList.inLine t inRest
  | instruction isMnemonic _ isList _ _ =>
      intro t member
      rcases List.mem_cons.mp member with rfl | inRest
      · simp [isLineEnd, isMnemonic]
      · exact isList.inLine t inRest

theorem LineText.inLine {stmt : Instruction} (isText : LineText vocabulary text stmt) :
    ∀ t ∈ text, isLineEnd t = false := by
  cases isText with
  | statement isStatement => exact isStatement.inLine
  | label isLabel => simp [isLineEnd, isLabel]
  | labelled isLabel isStatement =>
      intro t member
      rcases List.mem_cons.mp member with rfl | inRest
      · simp [isLineEnd, isLabel]
      · exact isStatement.inLine t inRest

end InLine

end Nazm.Parser
