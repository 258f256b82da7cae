import Nazm.Parser.Printing
import Nazm.Parser.SourceLines

/-!
Parsing undoes printing.

Owns the lexemes of printed operands, statements and programs, and that the
lexer and the parser give back what was printed, without spans.

Does not own the printer.
-/

namespace Nazm.Parser

open Nazm.Encoder Nazm.Lexer Nazm.Unicode Nazm.Diagnostics Utf8

/-! ## Operands -/

section Operands

variable {text rest : List UInt8} {given : List Lexeme} {kind : OperandKind} {ops : List Operand}

/-- The texts of printed statements have no spans. -/
theorem spanned_plainTokens (given : List Lexeme) (kind : OperandKind) :
    spanned (plainTokens given) kind = ⟨kind, 0, 0, 0⟩ := by
  have noSpan : ∀ t ∈ plainTokens given, t.line = 0 ∧ t.col = 0 ∧ t.endCol = 0 := by
    intro t member
    obtain ⟨lexeme, -, rfl⟩ := List.mem_map.mp member
    exact ⟨rfl, rfl, rfl⟩
  have first : ((plainTokens given).headD ⟨.eof, [], 0, 0, 0⟩).line = 0 ∧
      ((plainTokens given).headD ⟨.eof, [], 0, 0, 0⟩).col = 0 := by
    cases given <;> exact ⟨rfl, rfl⟩
  have last : ((plainTokens given).getLastD ⟨.eof, [], 0, 0, 0⟩).endCol = 0 := by
    rw [List.getLastD_eq_getLast?]
    cases isLast : (plainTokens given).getLast? with
    | none => rfl
    | some t => exact (noSpan t (List.mem_of_getLast? isLast)).2.2
  rw [spanned, first.1, first.2, last]

theorem SpelledAs.operator {byte : UInt8} {type : TokenType} (small : byte.toNat < 0x80)
    (isToken : singleCharToken byte.toNat = some (type, [byte])) (notNewline : type ≠ .newline)
    (spelled : SpelledAs rest given) : SpelledAs (byte :: rest) ((type, [byte]) :: given) :=
  .token (.single (.ascii small) isToken) notNewline spelled

theorem SpelledAs.space (spelled : SpelledAs rest given) : SpelledAs (0x20 :: rest) given := by
  have isBlank : Blanks [0x20] := fun byte member => by
    rw [List.mem_singleton.mp member]
    rfl
  exact SpelledAs.blanks isBlank spelled

theorem SpelledAs.register {reg : RegId} (known : reg ≠ .invalid)
    (closes : firstCodepoint rest ∈ closers) (spelled : SpelledAs rest given) :
    SpelledAs (printRegister reg ++ rest) ((.register, printRegister reg) :: given) := by
  obtain ⟨isName, noKeyword, isRegister⟩ := printRegister_word known
  obtain ⟨-, stops, noColon, -⟩ := closers_stop _ closes
  have type : wordType .nazm (printRegister reg) = some .register := by
    have keyword : keywordsLookup (printRegister reg) = .invalid := noKeyword
    have register : lexerRegisterId (printRegister reg) = some reg := isRegister
    rw [wordType, keyword, register]
    rfl
  exact .token (.word isName noColon stops type) TokenType.noConfusion spelled

theorem SpelledAs.name {name : List UInt8} (isNew : NewName name)
    (closes : firstCodepoint rest ∈ closers) (spelled : SpelledAs rest given) :
    ∃ type, (type = .labelRef ∨ type = .mnemonic) ∧
      SpelledAs (name ++ rest) ((type, name) :: given) := by
  obtain ⟨-, stops, noColon, -⟩ := closers_stop _ closes
  obtain ⟨type, isType, isSymbol⟩ := isNew.wordType
  have isWord : type = .labelRef ∨ type = .mnemonic := by
    cases type <;> first
      | exact .inl rfl
      | exact .inr rfl
      | contradiction
  have notNewline : type ≠ .newline := by rcases isWord with rfl | rfl <;> decide
  exact ⟨type, isWord, .token (.word isNew.ident noColon stops isType) notNewline spelled⟩

theorem SpelledAs.number {value : Int} (low : -2 ^ 63 ≤ value) (high : value ≤ 2 ^ 63 - 1)
    (closes : firstCodepoint rest ∈ closers) (spelled : SpelledAs rest given) :
    SpelledAs (decimalInt value ++ rest) ((.immediate, decimalInt value) :: given) :=
  .token (spells_decimalInt low high closes) TokenType.noConfusion spelled

/-- A closing bracket, and what may stand in front of it. -/
theorem SpelledAs.close (spelled : SpelledAs rest given) :
    SpelledAs (0x5D :: rest) ((.rbracket, [0x5D]) :: given) ∧
      firstCodepoint (0x5D :: rest) ∈ closers := by
  refine ⟨spelled.operator (by decide) (by decide) (by decide), ?_⟩
  rw [firstCodepoint_ascii (by decide)]
  decide

theorem isBase_register {base : RegId} (wide : regWidthBits base = 64) :
    base ≠ .invalid ∧ IsBase .nazm ⟨.register, printRegister base, 0, 0, 0⟩ base := by
  have known : base ≠ .invalid := by
    rintro rfl
    contradiction
  exact ⟨known, rfl, (printRegister_word known).2.2, wide⟩

/-- The lexemes of a memory operand behind its bracket. -/
theorem spelled_memory {memory : List UInt8}
    (behind : ∃ inner, SpelledAs (memory ++ rest) (inner ++ given) ∧
      MemoryText .nazm (plainTokens inner) kind) :
    ∃ own, SpelledAs (0x5B :: (memory ++ rest)) (own ++ given) ∧
      OperandText .nazm (plainTokens own) kind := by
  obtain ⟨inner, spelled, isMemory⟩ := behind
  exact ⟨(.lbracket, [0x5B]) :: inner,
    spelled.operator (by decide) (by decide) (by decide), .memory rfl isMemory⟩

theorem fits32_disp (disp : Int32) : Fits32 disp.toInt :=
  ⟨Int32.le_toInt disp, Int.le_sub_one_of_lt (Int32.toInt_lt disp)⟩

/-- A displacement that is read back is that of the operand. -/
theorem memoryText_disp {r number close : Token} {base : RegId} {disp : Int32}
    (isBase : IsBase .nazm r base) (isNumber : number.type = .immediate)
    (isValue : (strtoll number.value).toInt = disp.toInt) (isClose : close.type = .rbracket) :
    MemoryText .nazm [r, number, close] (.memDisp base disp) ∧
      ∀ plus : Token, plus.type = .plus →
        MemoryText .nazm [r, plus, number, close] (.memDisp base disp) := by
  constructor
  · have fits : Fits32 (strtoll number.value).toInt := isValue ▸ fits32_disp disp
    have isText := MemoryText.unsigned isBase isNumber fits isClose
    rwa [isValue, Int32.ofInt_toInt] at isText
  · intro plus isPlus
    have unsigned : Parser.signed plus.type (strtoll number.value).toInt = disp.toInt := by
      rw [Parser.signed, isPlus, if_neg (by decide), isValue]
    have fits : Fits32 (Parser.signed plus.type (strtoll number.value).toInt) :=
      unsigned ▸ fits32_disp disp
    have isText := MemoryText.signed isBase (.inl isPlus) isNumber fits isClose
    rwa [unsigned, Int32.ofInt_toInt] at isText

/-- A displacement is read back, its sign a token of its own or part of the
number. -/
theorem spelled_displacement {base : RegId} (wide : regWidthBits base = 64) (disp : Int32)
    (spelled : SpelledAs rest given) :
    ∃ inner, SpelledAs ((printRegister base ++ (printDisplacement disp ++ [0x5D])) ++ rest)
        (inner ++ given) ∧ MemoryText .nazm (plainTokens inner) (.memDisp base disp) := by
  obtain ⟨known, isBase⟩ := isBase_register wide
  obtain ⟨low, high⟩ := fits32_disp disp
  have low64 : -2 ^ 63 ≤ disp.toInt := by omega
  have high64 : disp.toInt ≤ 2 ^ 63 - 1 := by omega
  have value : (strtoll (decimalInt disp.toInt)).toInt = disp.toInt :=
    strtoll_decimalInt low64 high64
  obtain ⟨closed, closes⟩ := spelled.close
  have number := SpelledAs.number low64 high64 closes closed
  obtain ⟨isUnsigned, isSigned⟩ := @memoryText_disp ⟨.register, printRegister base, 0, 0, 0⟩
    ⟨.immediate, decimalInt disp.toInt, 0, 0, 0⟩ ⟨.rbracket, [0x5D], 0, 0, 0⟩ base disp isBase rfl
    value rfl
  simp only [List.append_assoc, List.cons_append, List.nil_append]
  unfold printDisplacement
  split
  · next negative =>
      have starts : firstCodepoint (decimalInt disp.toInt ++ 0x5D :: rest) ∈ closers := by
        obtain ⟨size, isNegative⟩ := Int.eq_negSucc_of_lt_zero negative
        rw [isNegative, decimalInt, List.cons_append, firstCodepoint_ascii (by decide)]
        decide
      exact ⟨[(.register, printRegister base), (.immediate, decimalInt disp.toInt),
        (.rbracket, [0x5D])], SpelledAs.register known starts number, isUnsigned⟩
  · have signed := number.operator (show (0x2B : UInt8).toNat < 0x80 by decide)
      (show singleCharToken 0x2B = some (.plus, [0x2B]) by decide) (by decide)
    have starts : firstCodepoint (0x2B :: (decimalInt disp.toInt ++ 0x5D :: rest)) ∈ closers := by
      rw [firstCodepoint_ascii (by decide)]
      decide
    exact ⟨[(.register, printRegister base), (.plus, [0x2B]), (.immediate, decimalInt disp.toInt),
      (.rbracket, [0x5D])], SpelledAs.register known starts signed,
      isSigned ⟨.plus, [0x2B], 0, 0, 0⟩ rfl⟩

/-- A printed operand is read as itself. -/
theorem spelled_operand (legal : LegalOperand kind) (closes : firstCodepoint rest ∈ closers)
    (spelled : SpelledAs rest given) :
    ∃ own, SpelledAs (printOperand kind ++ rest) (own ++ given) ∧
      OperandText .nazm (plainTokens own) kind := by
  cases kind with
  | none => exact absurd legal id
  | reg reg =>
      refine ⟨[_], SpelledAs.register legal closes spelled, .word ?_⟩
      have isRegister : lexerRegisterId (printRegister reg) = some reg :=
        (printRegister_word legal).2.2
      exact congrArg (Option.map OperandKind.reg) isRegister
  | imm value =>
      have low : -2 ^ 63 ≤ value.toInt := Int64.le_toInt value
      have high : value.toInt ≤ 2 ^ 63 - 1 := Int.le_sub_one_of_lt (Int64.toInt_lt value)
      refine ⟨[_], SpelledAs.number low high closes spelled, .word ?_⟩
      have readBack : strtoll (decimalInt value.toInt) = value :=
        Int64.toInt_inj.mp (strtoll_decimalInt low high)
      exact congrArg (some ∘ OperandKind.imm) readBack
  | memReg base =>
      obtain ⟨known, isBase⟩ := isBase_register legal
      obtain ⟨closed, closes'⟩ := spelled.close
      have behind := SpelledAs.register known closes' closed
      have whole := @spelled_memory _ _ _ (printRegister base ++ [0x5D])
        ⟨[_, _], by simpa using behind, .base isBase rfl⟩
      simpa [printOperand] using whole
  | memDisp base disp => exact spelled_memory (spelled_displacement legal disp spelled)
  | memRipLabel name =>
      obtain ⟨closed, closes'⟩ := spelled.close
      obtain ⟨type, isWord, named⟩ := SpelledAs.name legal closes' closed
      have plus := named.operator (show (0x2B : UInt8).toNat < 0x80 by decide)
        (show singleCharToken 0x2B = some (.plus, [0x2B]) by decide) (by decide)
      have pointer : Spells .nazm instructionPointerName
          (.token (.labelRef, instructionPointerName))
          (firstCodepoint (0x2B :: (name ++ 0x5D :: rest))) := by
        rw [firstCodepoint_ascii (by decide)]
        exact .word (by decide +kernel) (by decide) (by decide) (by decide +kernel)
      have behind := SpelledAs.token pointer (by decide) plus
      have whole := @spelled_memory _ _ _ (instructionPointerName ++ 0x2B :: (name ++ [0x5D]))
        ⟨[_, _, _, _], by simpa using behind, .rip rfl rfl rfl isWord rfl⟩
      simpa [printOperand] using whole
  | label name =>
      obtain ⟨type, isWord, named⟩ := SpelledAs.name legal closes spelled
      refine ⟨[_], named, .word ?_⟩
      rcases isWord with rfl | rfl
      · exact if_pos legal.unremoved
      · rfl
  | string string =>
      have quoted := (quoted_printString legal).spells (firstCodepoint rest)
      exact ⟨[_], SpelledAs.token quoted TokenType.noConfusion spelled, .word rfl⟩

end Operands

/-! ## Statements -/

section Statements

variable {instr : Instruction} {ops : List Operand}

theorem plainTokens_append (first second : List Lexeme) :
    plainTokens (first ++ second) = plainTokens first ++ plainTokens second :=
  List.map_append

/-- Printed operands behind the first are read as themselves. -/
theorem spelled_further (legal : ∀ op ∈ ops, LegalOperand op.kind) :
    ∃ given, SpelledAs (printFurther ops) given ∧ firstCodepoint (printFurther ops) ∈ closers ∧
      FurtherText .nazm (plainTokens given) (ops.map (Operand.renamed id)) := by
  induction ops with
  | nil => exact ⟨[], spelledAs_nil, by decide, .nil⟩
  | cons op ops inductionHypothesis =>
      obtain ⟨isLegal, legalRest⟩ := List.forall_mem_cons.mp legal
      obtain ⟨given, spelled, closes, isFurther⟩ := inductionHypothesis legalRest
      obtain ⟨own, spelledOwn, isOperand⟩ := spelled_operand isLegal closes spelled
      have encodes : Encodes arabicCommaText 0x060C :=
        encodes_of_character (.two (by decide) (by decide) (by decide))
      have isComma : Spells .nazm arabicCommaText (.token (.comma, arabicCommaText))
          (firstCodepoint (0x20 :: (printOperand op.kind ++ printFurther ops))) :=
        .single encodes (by decide)
      refine ⟨(.comma, arabicCommaText) :: (own ++ given),
        SpelledAs.token isComma (by decide) spelledOwn.space, ?_, ?_⟩
      · rw [printFurther, firstCodepoint_append encodes]
        decide
      · have isText := FurtherText.cons
          (show (⟨.comma, arabicCommaText, 0, 0, 0⟩ : Token).type = .comma from rfl) isOperand
          isFurther
        rw [spanned_plainTokens, ← plainTokens_append, ← kind_renamed_id op.kind] at isText
        exact isText

/-- Printed operands are read as themselves. -/
theorem spelled_operands (legal : ∀ op ∈ ops, LegalOperand op.kind) :
    ∃ given, SpelledAs (printOperands ops) given ∧ firstCodepoint (printOperands ops) ∈ closers ∧
      SeparatedText .nazm (plainTokens given) (ops.map (Operand.renamed id)) := by
  cases ops with
  | nil => exact ⟨[], spelledAs_nil, by decide, .nil⟩
  | cons op ops =>
      obtain ⟨isLegal, legalRest⟩ := List.forall_mem_cons.mp legal
      obtain ⟨given, spelled, closes, isFurther⟩ := spelled_further legalRest
      obtain ⟨own, spelledOwn, isOperand⟩ := spelled_operand isLegal closes spelled
      refine ⟨own ++ given, spelledOwn.space, ?_, ?_⟩
      · rw [printOperands, firstCodepoint_ascii (by decide)]
        decide
      · have isText := SeparatedText.cons isOperand isFurther
        rw [spanned_plainTokens, ← plainTokens_append, ← kind_renamed_id op.kind] at isText
        exact isText

theorem FurtherText.loose {text : List Token} (isText : FurtherText .nazm text ops) :
    LooseText .nazm text ops := by
  induction isText with
  | nil => exact .nil
  | cons isComma isOperand _ inductionHypothesis =>
      exact .comma isComma (.cons isOperand inductionHypothesis)

/-- Operands with a comma between each two may follow a directive. -/
theorem SeparatedText.loose {text : List Token} (isText : SeparatedText .nazm text ops) :
    LooseText .nazm text ops := by
  cases isText with
  | nil => exact .nil
  | cons isOperand isFurther => exact .cons isOperand isFurther.loose

/-- What a statement is read as behind a label or none. -/
def readBody (label : Option (List UInt8)) (instr : Instruction) : Instruction :=
  { instr.renamed id with label := label }

/-- A statement before its body is read. -/
def IsStart (start : Instruction) : Prop :=
  start = { emptyInstruction ⟨.eof, [], 0, 0, 0⟩ with label := start.label }

/-- The body of a statement is read as the statement. -/
theorem spelled_body (legal : LegalInstruction instr) (notBare : isBare instr = false) :
    ∃ lexeme given, SpelledAs (printBody instr) (lexeme :: given) ∧
      ∀ start, IsStart start →
        StatementText .nazm start (plainTokens (lexeme :: given)) (readBody start.label instr) := by
  obtain ⟨given, spelled, closes, isText⟩ := spelled_operands legal.operands
  obtain ⟨continues, stops, noColon, -⟩ := closers_stop _ closes
  have count : (instr.ops.map (Operand.renamed id)).length ≤ maxOperands := by
    rw [List.length_map]
    exact legal.count
  unfold printBody
  cases legal.body with
  | label _ noOpcode noDirective =>
      rw [isBare, noDirective, noOpcode] at notBare
      contradiction
  | @directive name noOpcode isDirective isName isKind =>
      obtain ⟨⟨body, cps, rfl, isBody, all⟩, unremoved⟩ := isName
      rw [isDirective]
      refine ⟨_, given, SpelledAs.token (.directive isBody all continues) TokenType.noConfusion
        spelled, fun start plain => ?_⟩
      have isStatement : StatementText .nazm start _ _ :=
        .directive (show (⟨.directive, 0x2E :: body, 0, 0, 0⟩ : Token).type = .directive from rfl)
          unremoved isText.loose count
      rw [plain] at isStatement ⊢
      rw [readBody, Instruction.renamed, isDirective, isKind, noOpcode]
      exact isStatement
  | instruction known noDirective noKind admits =>
      obtain ⟨isName, isOpcode⟩ := printMnemonic_word known
      have keyword : keywordsLookup (printMnemonic instr.opcode) = instr.opcode :=
        isOpcode
      have type : wordType .nazm (printMnemonic instr.opcode) = some .mnemonic := by
        rw [wordType, keyword, if_pos known]
      rw [noDirective]
      refine ⟨_, given, SpelledAs.token (.word isName noColon stops type) TokenType.noConfusion
        spelled, fun start plain => ?_⟩
      have isStatement : StatementText .nazm start _ _ :=
        .instruction (show (⟨.mnemonic, printMnemonic instr.opcode, 0, 0, 0⟩ : Token).type =
          .mnemonic from rfl) (by rw [keyword]; exact known) isText count (by
            rw [keyword, arityAdmits, List.length_map]
            exact admits)
      rw [plain] at isStatement ⊢
      rw [readBody, Instruction.renamed, noDirective, noKind]
      simp only [keyword] at isStatement
      exact isStatement

/-- A printed statement is read as itself. -/
theorem spelled_instruction (legal : LegalInstruction instr) :
    ∃ given, SpelledAs (printInstruction instr) given ∧
      LineText .nazm (plainTokens given) (instr.renamed id) := by
  unfold printInstruction
  cases isLabel : instr.label with
  | none =>
      have notBare : isBare instr = false := by
        cases legal.body with
        | label some_ => exact absurd isLabel some_
        | directive _ isDirective => rw [isBare, isDirective]; rfl
        | instruction known => rw [isBare, decide_eq_false known, Bool.and_false]
      obtain ⟨lexeme, given, spelled, isBody⟩ := spelled_body legal notBare
      have isStatement := isBody (emptyInstruction ⟨lexeme.1, lexeme.2, 0, 0, 0⟩) rfl
      have whole : readBody none instr = instr.renamed id := by
        rw [readBody, Instruction.renamed, isLabel]
        rfl
      exact ⟨lexeme :: given, spelled, .statement (whole ▸ isStatement)⟩
  | some label =>
      have isNew := legal.label label isLabel
      have named : ∀ {rest : List UInt8} {given : List Lexeme}, SpelledAs rest given →
          SpelledAs (label ++ 0x3A :: rest) ((.labelDef, label) :: given) := by
        intro rest given spelled
        have whole := SpelledAs.token (.labelDef isNew.ident isNew.unreserved)
          TokenType.noConfusion spelled
        simpa using whole
      cases bare : isBare instr with
      | true =>
          refine ⟨_, named spelledAs_nil, ?_⟩
          cases legal.body with
          | label _ noOpcode noDirective noKind noOps =>
              have isText := @LineText.label .nazm ⟨.labelDef, label, 0, 0, 0⟩ rfl
              have same : labelled ⟨.labelDef, label, 0, 0, 0⟩ = instr.renamed id := by
                rw [Instruction.renamed, isLabel, noOpcode, noDirective, noKind, noOps]
                rfl
              exact same ▸ isText
          | directive _ isDirective => rw [isBare, isDirective] at bare; contradiction
          | instruction known =>
              rw [isBare, decide_eq_false known, Bool.and_false] at bare
              contradiction
      | false =>
          obtain ⟨lexeme, given, spelled, isBody⟩ := spelled_body legal bare
          have isStatement := isBody (setInstructionSpan (labelled ⟨.labelDef, label, 0, 0, 0⟩)
            ⟨lexeme.1, lexeme.2, 0, 0, 0⟩) rfl
          have whole : readBody (some label) instr = instr.renamed id := by
            rw [readBody, Instruction.renamed, isLabel]
            rfl
          exact ⟨_, named spelled.space, .labelled rfl (whole ▸ isStatement)⟩

theorem denotes_instruction (legal : LegalInstruction instr) :
    Denotes (printInstruction instr) [instr.renamed id] := by
  obtain ⟨given, spelled, isLine⟩ := spelled_instruction legal
  have denotes := spelled.denotes isLine
  have twice : (instr.renamed id).renamed id = instr.renamed id := by
    simp only [Instruction.renamed, List.map_map, Option.map_id, id_eq]
    refine congrArg (fun ops => Instruction.mk _ ops _ _ _ _ _ _ _ _ _) ?_
    exact List.map_congr_left fun op _ => by
      rw [Function.comp_apply, Operand.renamed, kind_renamed_id]
      rfl
  rwa [twice] at denotes

end Statements

/-! ## Programs -/

/-- A printed program denotes its statements. -/
theorem denotes_program {statements : List Instruction}
    (legal : ∀ instr ∈ statements, LegalInstruction instr) :
    Denotes (printProgram statements) (statements.map (Instruction.renamed id)) := by
  induction statements with
  | nil => exact denotes_nil.mpr rfl
  | cons instr statements inductionHypothesis =>
      obtain ⟨isLegal, legalRest⟩ := List.forall_mem_cons.mp legal
      exact (denotes_append (.inr ⟨_, rfl⟩)).mpr ⟨_, _, rfl,
        denotes_finalNewline.mpr (denotes_instruction isLegal), inductionHypothesis legalRest⟩

/-- A statement list as a source. -/
def printed (list : InstructionList) : SourceBuffer := ⟨printProgram list.data, list.sourceName⟩

/-- A statement list without its spans. -/
def InstructionList.spanless (list : InstructionList) : InstructionList :=
  { list with data := list.data.map (Instruction.renamed id) }

/-- Parsing undoes printing: well-formed statements, printed one a line in the
documented syntax, are lexed and parsed without an error and come back as they
were, but for their spans. -/
theorem parsing_undoes_printing (list : InstructionList)
    (legal : ∀ instr ∈ list.data, LegalInstruction instr) :
    errorHasAny (lexerLex (printed list)).errors = false ∧
    errorHasAny (parserParse (lexerLex (printed list)).tokens).errors = false ∧
    (parserParse (lexerLex (printed list)).tokens).instructions.spanless = list.spanless := by
  obtain ⟨lexed, parsed, same⟩ := (@denotes_iff (printed list) _).mp (denotes_program legal)
  refine ⟨lexed, parsed, ?_⟩
  rw [InstructionList.spanless, same]
  rfl

/-- A load from below a register under an instruction's name, and a directive with
the least integer and a quote. -/
def mixedProgram : InstructionList where
  data :=
    [ { emptyInstruction ⟨.labelDef, [], 7, 1, 4⟩ with
          opcode := .mov, label := some (utf8 "زد")
          ops := [⟨.reg (.gpr64 0), 7, 9, 12⟩, ⟨.memDisp (.gpr64 5) (-16), 7, 14, 20⟩] },
      { emptyInstruction ⟨.directive, [], 8, 1, 4⟩ with
          directive := some (utf8 ".عدد٦٤"), directiveKind := .int64
          ops := [⟨.imm Int64.minValue, 8, 8, 20⟩, ⟨.string [0x22], 8, 22, 26⟩] } ]
  sourceName := none

theorem parsing_undoes_printing_mixed :
    (printed mixedProgram).data = utf8 ("زد: انقل سجل_المركم، [مؤشر_القاعدة-16]\n" ++
      ".عدد٦٤ -9223372036854775808، \"\\\"\"\n") ∧
    (parserParse (lexerLex (printed mixedProgram)).tokens).instructions.spanless =
      mixedProgram.spanless := by
  have pair : ∀ {α : Type} {first second : α} (P : α → Prop), P first → P second →
      ∀ one ∈ [first, second], P one := by
    intro α first second P isFirst isSecond
    exact List.forall_mem_cons.mpr ⟨isFirst, List.forall_mem_singleton.mpr isSecond⟩
  have isLabel : NewName (utf8 "زد") :=
    ⟨by decide +kernel, by decide +kernel, by decide +kernel⟩
  have load : LegalInstruction mixedProgram.data[0] :=
    ⟨fun name same => Option.some.inj same ▸ isLabel,
      .instruction (by decide) rfl rfl (by decide),
      pair _ RegId.noConfusion rfl, by decide⟩
  have known := directiveName_of_mem (".عدد٦٤", .int64) (by decide +kernel)
  have quote : WellFormed [0x22] := .cons (.ascii (by decide)) .nil
  have data : LegalInstruction mixedProgram.data[1] :=
    ⟨fun name same => absurd same (by simp [mixedProgram, emptyInstruction]),
      .directive rfl rfl known.1 known.2.symm,
      pair _ trivial quote, by decide⟩
  exact ⟨by decide +kernel, (parsing_undoes_printing mixedProgram
    (pair _ load data)).2.2⟩

end Nazm.Parser
