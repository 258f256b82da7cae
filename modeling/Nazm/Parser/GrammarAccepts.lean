import Nazm.Parser.GrammarReads

/-!
The parser reads the whole grammar.

Owns, for each function of the parser, that it reads every text of the grammar,
and the refinement: the parser accepts exactly the programs of the grammar, and
returns the statements the grammar gives them.

Does not own what the parser does with other tokens.
-/

namespace Nazm.Parser

open Nazm.Encoder Nazm.Lexer Nazm.Unicode Nazm.Diagnostics

/-! ## Memory operands -/

section Complete

variable {vocabulary : Vocabulary} {p : Parser} {t : Token} {text rest : List Token}
  {kind : OperandKind}

@[simp] theorem cur_cons (errors : ErrorList) (out : List Instruction) (srcName : List UInt8) :
    cur ⟨t :: rest, errors, out, srcName⟩ = t :=
  rfl

@[simp] theorem curType_cons (errors : ErrorList) (out : List Instruction)
    (srcName : List UInt8) : curType ⟨t :: rest, errors, out, srcName⟩ = t.type :=
  rfl

theorem advance_cons (notEnd : t.type ≠ .eof) (errors : ErrorList) (out : List Instruction)
    (srcName : List UInt8) :
    advance ⟨t :: rest, errors, out, srcName⟩ = ⟨rest, errors, out, srcName⟩ :=
  if_neg notEnd

theorem closeMemory_complete {close : Token} (isClose : close.type = .rbracket)
    (openTok : Token) (unclosed : List UInt8) (errors : ErrorList) (out : List Instruction)
    (srcName : List UInt8) :
    closeMemory ⟨close :: rest, errors, out, srcName⟩ kind openTok unclosed =
      (⟨rest, errors, out, srcName⟩, some ⟨kind, openTok.line, openTok.col, close.endCol⟩) := by
  rw [closeMemory, if_neg (by simp [isClose]), advance_cons (by simp [isClose]), cur_cons]

theorem closeDisplacement_complete {base : RegId} {displacement : Int} {close : Token}
    (fits : Fits32 displacement) (isClose : close.type = .rbracket) (token openTok : Token)
    (errors : ErrorList) (out : List Instruction) (srcName : List UInt8) :
    closeDisplacement ⟨close :: rest, errors, out, srcName⟩ base displacement token openTok =
      (⟨rest, errors, out, srcName⟩,
        some ⟨.memDisp base (Int32.ofInt displacement), openTok.line, openTok.col,
          close.endCol⟩) := by
  rw [Fits32] at fits
  rw [closeDisplacement, if_neg (by omega), closeMemory_complete isClose]

/-- Every text of the grammar is read. -/
theorem parseMemOperand_complete (isText : MemoryText vocabulary text kind) (openTok : Token)
    (errors : ErrorList) (out : List Instruction) (srcName : List UInt8) :
    @parseMemOperand vocabulary ⟨text ++ rest, errors, out, srcName⟩ openTok =
      (⟨rest, errors, out, srcName⟩,
        some ⟨kind, openTok.line, openTok.col,
          (text.getLastD ⟨.eof, [], 0, 0, 0⟩).endCol⟩) := by
  -- a register is no instruction pointer
  have base : ∀ {r : Token} {base : RegId} (after : List Token), IsBase vocabulary r base →
      @parseMemOperand vocabulary ⟨r :: after, errors, out, srcName⟩ openTok =
        parseBaseOperand ⟨after, errors, out, srcName⟩ openTok base := by
    intro r base after isBase
    simp only [parseMemOperand, cur_cons, isBase.type, isBase.register, isBase.wide,
      advance_cons (t := r) (by simp [isBase.type]), ne_eq, not_true_eq_false, if_false, reduceCtorEq,
      false_and]
  cases isText with
  | base isBase isClose =>
      rw [List.cons_append, List.cons_append, List.nil_append, base _ isBase, parseBaseOperand,
        if_neg (by simp [isClose]), if_neg (by simp [isClose]), closeMemory_complete isClose]
      rfl
  | @signed r sign number close _ isBase isSign isNumber fits isClose =>
      have notEnd : sign.type ≠ .eof := by rcases isSign with type | type <;> simp [type]
      have value : (if decide (sign.type = .minus) = true then
            if (strtoll number.value).toInt = -2 ^ 63 then 2 ^ 63 - 1
            else -(strtoll number.value).toInt
          else (strtoll number.value).toInt) =
          signed sign.type (strtoll number.value).toInt := by
        unfold signed at fits ⊢
        by_cases minus : sign.type = .minus
        · rw [if_pos minus] at fits ⊢
          rw [Fits32] at fits
          rw [if_pos (by simp [minus]), if_neg (by omega)]
        · rw [if_neg minus, if_neg (by simp [minus])]
      rw [List.cons_append, List.cons_append, List.cons_append, List.cons_append, List.nil_append,
        base _ isBase, parseBaseOperand, curType_cons, if_pos isSign, advance_cons notEnd]
      dsimp only
      rw [if_neg (by simp [isNumber]), advance_cons (by simp [isNumber]), cur_cons, value,
        closeDisplacement_complete fits isClose]
      rfl
  | unsigned isBase isNumber fits isClose =>
      rw [List.cons_append, List.cons_append, List.cons_append, List.nil_append, base _ isBase,
        parseBaseOperand, if_neg (by simp [isNumber]), if_pos (by simp [isNumber])]
      dsimp only
      rw [advance_cons (by simp [isNumber]), cur_cons, closeDisplacement_complete fits isClose]
      rfl
  | @rip pointer plus name close isPointer pointerName isPlus isName isClose =>
      have notEnd : name.type ≠ .eof := by rcases isName with type | type <;> simp [type]
      rw [List.cons_append, List.cons_append, List.cons_append, List.cons_append, List.nil_append,
        parseMemOperand, cur_cons]
      dsimp only
      rw [if_pos ⟨isPointer, pointerName⟩, advance_cons (by simp [isPointer]), parseRipOperand,
        if_neg (by simp [isPlus]), advance_cons (by simp [isPlus])]
      dsimp only
      rw [if_neg (by rcases isName with type | type <;> simp [type]), advance_cons notEnd, cur_cons,
        closeMemory_complete isClose]
      rfl

end Complete

/-! ## Operands and operand lists -/

section Operands

variable {vocabulary : Vocabulary}

/-- Every text of the grammar is read. -/
theorem parseOperand_complete {text : List Token} {kind : OperandKind}
    (isText : OperandText vocabulary text kind) (rest : List Token) (errors : ErrorList)
    (out : List Instruction) (srcName : List UInt8) :
    @parseOperand vocabulary ⟨text ++ rest, errors, out, srcName⟩ =
      (⟨rest, errors, out, srcName⟩, some (spanned text kind)) := by
  cases isText with
  | @word t _ isWord =>
      rw [List.singleton_append, parseOperand, cur_cons]
      unfold wordOperand? at isWord
      split at isWord
      · next type =>
          obtain ⟨reg, known, rfl⟩ := Option.map_eq_some_iff.mp isWord
          simp only [type, known]
          rw [advance_cons (by simp [type])]
          rfl
      · next type =>
          obtain rfl := Option.some.inj isWord
          simp only [type]
          rw [advance_cons (by simp [type])]
          rfl
      · next type =>
          split at isWord
          · next notRemoved =>
              obtain rfl := Option.some.inj isWord
              simp only [type, notRemoved]
              rw [advance_cons (by simp [type])]
              rfl
          · contradiction
      · next type =>
          obtain rfl := Option.some.inj isWord
          simp only [type]
          rw [advance_cons (by simp [type])]
          rfl
      · next type =>
          obtain rfl := Option.some.inj isWord
          simp only [type]
          rw [advance_cons (by simp [type])]
          rfl
      · contradiction
  | @memory openTok text _ isOpen isText =>
      rw [List.cons_append, parseOperand, cur_cons]
      simp only [isOpen]
      rw [advance_cons (by simp [isOpen]), parseMemOperand_complete isText, spanned]
      cases isText <;> rfl

theorem directiveOperands_complete {text rest : List Token} {read : List Operand}
    (isText : LooseText vocabulary text read) (lineEnd : EndsLine rest) (errors : ErrorList)
    (out : List Instruction) (srcName : List UInt8) (fuel : Nat) (enough : text.length ≤ fuel)
    (ops : List Operand) (room : (ops ++ read).length ≤ maxOperands) :
    @directiveOperands vocabulary fuel ⟨text ++ rest, errors, out, srcName⟩ ops =
      (⟨rest, errors, out, srcName⟩, ops ++ read) := by
  induction isText generalizing fuel ops with
  | nil =>
      rw [List.append_nil]
      cases fuel with
      | zero => rfl
      | succ fuel =>
          rw [directiveOperands, if_pos ((isLineEnd_cur _).mpr lineEnd)]
          rfl
  | @comma comma text read isComma _ inductionHypothesis =>
      obtain ⟨fuel, rfl⟩ := Nat.exists_eq_add_one.mpr (Nat.lt_of_lt_of_le (Nat.succ_pos _) enough)
      rw [List.cons_append, directiveOperands,
        if_neg (by simp [isLineEnd, isComma]), curType_cons, if_pos isComma,
        advance_cons (by simp [isComma])]
      exact inductionHypothesis fuel (by simpa using enough) ops room
  | @cons text more kind read isOperand _ inductionHypothesis =>
      obtain ⟨t, tail, split, inLine, notComma⟩ := isOperand.head
      have some_ := isOperand.length_pos
      rw [List.length_append] at enough
      obtain ⟨fuel, rfl⟩ := Nat.exists_eq_add_one.mpr (Nat.lt_of_lt_of_le (by omega) enough)
      have here : cur ⟨text ++ more ++ rest, errors, out, srcName⟩ = t := by
        rw [split]
        rfl
      have vacant : ¬ maxOperands ≤ ops.length := by
        rw [List.length_append, List.length_cons] at room
        omega
      rw [directiveOperands, curType, here, if_neg (by simp [inLine]), if_neg notComma,
        if_neg vacant, List.append_assoc, parseOperand_complete isOperand]
      dsimp only
      rw [inductionHypothesis fuel (by omega) _ (by simpa using room), List.append_assoc]
      rfl

theorem furtherOperands_complete {text rest : List Token} {read : List Operand}
    (isText : FurtherText vocabulary text read) (lineEnd : EndsLine rest) (errors : ErrorList)
    (out : List Instruction) (srcName : List UInt8) (fuel : Nat) (enough : text.length ≤ fuel)
    (ops : List Operand) (some_ : 0 < ops.length) (room : (ops ++ read).length ≤ maxOperands) :
    @instructionOperands vocabulary fuel ⟨text ++ rest, errors, out, srcName⟩ ops =
      (⟨rest, errors, out, srcName⟩, ops ++ read, true) := by
  induction isText generalizing fuel ops with
  | nil =>
      rw [List.append_nil]
      cases fuel with
      | zero => rfl
      | succ fuel =>
          rw [instructionOperands, if_pos ((isLineEnd_cur _).mpr lineEnd)]
          rfl
  | @cons comma text more kind read isComma isOperand _ inductionHypothesis =>
      obtain ⟨fuel, rfl⟩ := Nat.exists_eq_add_one.mpr (Nat.lt_of_lt_of_le (Nat.succ_pos _) enough)
      have vacant : ¬ maxOperands ≤ ops.length := by
        rw [List.length_append, List.length_cons] at room
        omega
      rw [List.length_cons, List.length_append] at enough
      rw [List.cons_append, instructionOperands,
        if_neg (by simp [isLineEnd, isComma]), if_pos some_, expectComma, curType_cons,
        if_pos isComma, advance_cons (by simp [isComma])]
      dsimp only
      rw [if_neg (by decide), if_neg vacant, List.append_assoc, parseOperand_complete isOperand]
      dsimp only
      rw [inductionHypothesis fuel (by omega) _ (by simp) (by simpa using room), List.append_assoc]
      rfl

theorem instructionOperands_complete {text rest : List Token} {read : List Operand}
    (isText : SeparatedText vocabulary text read) (lineEnd : EndsLine rest) (errors : ErrorList)
    (out : List Instruction) (srcName : List UInt8) (fuel : Nat) (enough : text.length ≤ fuel)
    (room : read.length ≤ maxOperands) :
    @instructionOperands vocabulary fuel ⟨text ++ rest, errors, out, srcName⟩ [] =
      (⟨rest, errors, out, srcName⟩, read, true) := by
  cases isText with
  | nil =>
      cases fuel with
      | zero => rfl
      | succ fuel =>
          rw [instructionOperands, if_pos ((isLineEnd_cur _).mpr lineEnd)]
          rfl
  | @cons text more kind read isOperand isFurther =>
      obtain ⟨t, tail, split, inLine, notComma⟩ := isOperand.head
      have some_ := isOperand.length_pos
      rw [List.length_append] at enough
      obtain ⟨fuel, rfl⟩ := Nat.exists_eq_add_one.mpr (Nat.lt_of_lt_of_le (by omega) enough)
      have here : cur ⟨text ++ more ++ rest, errors, out, srcName⟩ = t := by
        rw [split]
        rfl
      rw [instructionOperands, here, if_neg (by simp [inLine]),
        if_neg (by simp)]
      dsimp only
      rw [if_neg (by decide), if_neg (by simp [maxOperands]), List.append_assoc,
        parseOperand_complete isOperand]
      dsimp only
      rw [furtherOperands_complete isFurther lineEnd errors out srcName fuel (by omega) _ (by simp)
        (by simpa using room)]
      rfl

/-! ## Lines -/

section Reading

variable {text rest : List Token} {instr stmt : Instruction} (errors : ErrorList)
  (out : List Instruction) (srcName : List UInt8)

theorem parseStatement_complete (isText : StatementText vocabulary instr text stmt)
    (lineEnd : EndsLine rest) :
    @parseStatement vocabulary ⟨text ++ rest, errors, out, srcName⟩ instr =
      pushInstr (skipNewline ⟨rest, errors, out, srcName⟩) stmt := by
  cases isText with
  | @directive t text ops isDirective notRemoved isList count =>
      rw [List.cons_append, parseStatement, curType_cons, isDirective]
      dsimp only
      rw [parseDirectiveLine, cur_cons]
      dsimp only
      rw [notRemoved, advance_cons (by simp [isDirective])]
      dsimp only
      rw [directiveOperands_complete isList lineEnd errors out srcName _ (by simp; omega) [] count]
      rfl
  | @instruction t text ops isMnemonic known isList count admitted =>
      rw [List.cons_append, parseStatement, curType_cons, isMnemonic]
      dsimp only
      rw [parseInstructionLine, cur_cons]
      dsimp only
      rw [if_neg known, advance_cons (by simp [isMnemonic]),
        instructionOperands_complete isList lineEnd errors out srcName _ (by simp; omega) count]
      dsimp only
      rw [if_pos rfl, checkArity, if_neg (Nat.not_lt.mpr admitted.1),
        if_neg (Nat.not_lt.mpr admitted.2)]

theorem parseLine_complete (isText : LineText vocabulary text stmt) (lineEnd : EndsLine rest) :
    @parseLine vocabulary ⟨text ++ rest, errors, out, srcName⟩ =
      pushInstr (skipNewline ⟨rest, errors, out, srcName⟩) stmt := by
  cases isText with
  | @statement t text _ isStatement =>
      have type : t.type = .directive ∨ t.type = .mnemonic := by
        cases isStatement with
        | directive isDirective => exact .inl isDirective
        | instruction isMnemonic => exact .inr isMnemonic
      rw [List.cons_append, parseLine, cur_cons]
      dsimp only
      rw [if_neg (by rcases type with same | same <;> simp [same]),
        if_neg (by rcases type with same | same <;> simp [same]),
        if_neg (by rcases type with same | same <;> simp [same])]
      exact parseStatement_complete errors out srcName isStatement lineEnd
  | @label t isLabel =>
      rw [List.singleton_append, parseLine, cur_cons]
      dsimp only
      rw [if_neg (by simp [isLabel]), if_neg (by simp [isLabel]), if_pos isLabel,
        advance_cons (by simp [isLabel]), if_pos ((isLineEnd_cur _).mpr lineEnd)]
      rfl
  | @labelled label t text _ isLabel isStatement =>
      have type : t.type = .directive ∨ t.type = .mnemonic := by
        cases isStatement with
        | directive isDirective => exact .inl isDirective
        | instruction isMnemonic => exact .inr isMnemonic
      rw [List.cons_append, parseLine, cur_cons]
      dsimp only
      rw [if_neg (by simp [isLabel]), if_neg (by simp [isLabel]), if_pos isLabel,
        advance_cons (by simp [isLabel]), List.cons_append, cur_cons,
        if_neg (by rcases type with same | same <;> simp [isLineEnd, same])]
      exact parseStatement_complete errors out srcName isStatement lineEnd

end Reading

/-! ## Programs -/

theorem dropWhile_skipNewline (rest : List Token) (errors : ErrorList) (out : List Instruction)
    (srcName : List UInt8) :
    (skipNewline ⟨rest, errors, out, srcName⟩).tokens.dropWhile isNewline =
      rest.dropWhile isNewline := by
  unfold skipNewline
  split
  · next newline =>
      cases rest with
      | nil => rfl
      | cons t rest =>
          have isType : t.type = .newline := newline
          rw [advance_cons (by simp [isType]), List.dropWhile_cons_of_pos (by simp [isNewline, isType])]
  · rfl

/-- The loop over the lines of a program. -/
theorem parseLoop_complete {tokens : List Token} {statements : List Instruction}
    (isText : ProgramText vocabulary tokens statements) (errors : ErrorList)
    (out : List Instruction) (srcName : List UInt8) (fuel : Nat) (enough : tokens.length ≤ fuel) :
    (@parseLoop vocabulary fuel (skipNewlines ⟨tokens, errors, out, srcName⟩)).out =
        out ++ statements ∧
      (@parseLoop vocabulary fuel (skipNewlines ⟨tokens, errors, out, srcName⟩)).errors =
        errors := by
  induction isText generalizing fuel out with
  | @done tokens atEnd =>
      have same : skipNewlines ⟨tokens, errors, out, srcName⟩ = ⟨tokens, errors, out, srcName⟩ := by
        cases tokens with
        | nil => rfl
        | cons t tokens =>
            have type : t.type = .eof := atEnd
            simp [skipNewlines, isNewline, type]
      have atEnd' : curType ⟨tokens, errors, out, srcName⟩ = .eof := atEnd
      rw [same, List.append_nil]
      cases fuel with
      | zero => exact ⟨rfl, rfl⟩
      | succ fuel =>
          rw [parseLoop, if_pos atEnd']
          exact ⟨rfl, rfl⟩
  | @newline t tokens statements isNewline' _ inductionHypothesis =>
      have skipped : skipNewlines ⟨t :: tokens, errors, out, srcName⟩ =
          skipNewlines ⟨tokens, errors, out, srcName⟩ := by
        simp [skipNewlines, isNewline, isNewline']
      rw [skipped]
      exact inductionHypothesis out fuel (Nat.le_of_succ_le (by simpa using enough))
  | @line text tokens instr statements isLine lineEnd _ inductionHypothesis =>
      obtain ⟨t, tail, rfl, notNewline, notEnd⟩ := LineText.head text isLine
      obtain ⟨fuel, rfl⟩ := Nat.exists_eq_add_one.mpr
        (Nat.lt_of_lt_of_le (by simp) enough)
      have stays : skipNewlines ⟨t :: tail ++ tokens, errors, out, srcName⟩ =
          ⟨t :: tail ++ tokens, errors, out, srcName⟩ := by
        simp [skipNewlines, isNewline, notNewline]
      have next : skipNewlines (pushInstr (skipNewline ⟨tokens, errors, out, srcName⟩) instr) =
          skipNewlines ⟨tokens, errors, out ++ [instr], srcName⟩ := by
        have dropped := dropWhile_skipNewline tokens errors out srcName
        have scanned := (skipNewline_scans ⟨tokens, errors, out, srcName⟩).out
        have sameErrors := skipNewline_errors ⟨tokens, errors, out, srcName⟩
        have sameName : (skipNewline ⟨tokens, errors, out, srcName⟩).srcName = srcName := by
          unfold skipNewline advance
          split
          · split <;> rfl
          · rfl
        simp only [skipNewlines, pushInstr, dropped, scanned, sameErrors, sameName]
      have loop := inductionHypothesis (out ++ [instr]) fuel (by
        rw [List.length_append, List.length_cons] at enough
        omega)
      have inside : curType ⟨t :: tail ++ tokens, errors, out, srcName⟩ ≠ .eof := notEnd
      rw [stays, parseLoop, if_neg inside, parseLine_complete errors out srcName isLine
        lineEnd, next]
      exact ⟨loop.1.trans (by simp), loop.2⟩

/-- The parser accepts exactly the programs of the grammar, and returns their
statements. -/
theorem parserParse_iff {tokens : TokenArray} {statements : List Instruction} :
    (errorHasAny (@parserParse vocabulary tokens).errors = false ∧
        (@parserParse vocabulary tokens).instructions.data = statements) ↔
      ProgramText vocabulary tokens.data statements := by
  constructor
  · rintro ⟨clean, rfl⟩
    have shorter := ((skipNewlines_scans ⟨tokens.data, .empty, [],
      tokens.sourceName.getD (utf8 "unknown")⟩).tokens).length_le
    rcases @parseLoop_outcome vocabulary tokens.data.length _ shorter
        (curType_skipNewlines _) with ⟨statements, isText, out⟩ | dirty
    · have equal : (@parserParse vocabulary tokens).instructions.data = statements := out
      rw [equal]
      exact programText_of_skipped isText
    · have same : errorHasAny (@parserParse vocabulary tokens).errors = true := dirty
      rw [same] at clean
      contradiction
  · intro isText
    obtain ⟨out, errors⟩ := parseLoop_complete isText .empty []
      (tokens.sourceName.getD (utf8 "unknown")) tokens.data.length (Nat.le_refl _)
    refine ⟨?_, out⟩
    have same : (@parserParse vocabulary tokens).errors = .empty := errors
    rw [same]
    rfl

end Operands

end Nazm.Parser
