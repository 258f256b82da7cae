import Nazm.Parser.Grammar
import Nazm.Parser.Statements

/-!
What the parser reads is in the grammar.

Owns, for each function of the parser, that it fails with an error or passes a
text of the grammar and returns what the grammar gives it.

Does not own the converse.
-/

namespace Nazm.Parser

open Nazm.Encoder Nazm.Lexer Nazm.Unicode Nazm.Diagnostics

/-! ## Moves of the cursor -/

/-- The cursor passed some tokens and changed nothing else. -/
structure Consumes (before : Parser) (text : List Token) (after : Parser) : Prop where
  tokens : before.tokens = text ++ after.tokens
  errors : after.errors = before.errors
  out : after.out = before.out
  srcName : after.srcName = before.srcName

namespace Consumes

variable {first second third p q : Parser} {text one two : List Token}

theorem refl (p : Parser) : Consumes p [] p := ⟨rfl, rfl, rfl, rfl⟩

theorem trans (fore : Consumes first one second) (back : Consumes second two third) :
    Consumes first (one ++ two) third where
  tokens := by rw [fore.tokens, back.tokens, List.append_assoc]
  errors := back.errors.trans fore.errors
  out := back.out.trans fore.out
  srcName := back.srcName.trans fore.srcName

end Consumes

theorem tokens_of_cur {p : Parser} (notEnd : curType p ≠ .eof) :
    p.tokens = cur p :: p.tokens.tail := by
  unfold curType cur at *
  cases tokens : p.tokens with
  | nil => simp [tokens] at notEnd
  | cons token rest => rfl

theorem advance_eq {p : Parser} (notEnd : curType p ≠ .eof) :
    advance p = { p with tokens := p.tokens.tail } :=
  if_neg notEnd

theorem advance_consumes {p : Parser} (notEnd : curType p ≠ .eof) :
    Consumes p [cur p] (advance p) := by
  rw [advance_eq notEnd]
  exact ⟨tokens_of_cur notEnd, rfl, rfl, rfl⟩

@[simp] theorem advance_errors (p : Parser) : (advance p).errors = p.errors := by
  unfold advance
  split <;> rfl

/-! ## Memory operands -/

/-- The tokens from the end of the line on. -/
def restOfLine (tokens : List Token) : List Token := tokens.dropWhile fun token => !isLineEnd token

theorem restOfLine_consumed {p q : Parser} {text : List Token} (consumes : Consumes p text q)
    (inLine : ∀ token ∈ text, isLineEnd token = false) :
    restOfLine q.tokens = restOfLine p.tokens := by
  rw [consumes.tokens, restOfLine, restOfLine, List.dropWhile_append_of_pos]
  intro token member
  rw [inLine token member]
  rfl

/-- A memory operand that was read after its bracket, with a given text. -/
def Closes (p : Parser) (openTok : Token) (text : List Token) (kind : OperandKind)
    (result : Parser × Option Operand) : Prop :=
  ∃ q, result = (q, some ⟨kind, openTok.line, openTok.col,
    (text.getLastD ⟨.eof, [], 0, 0, 0⟩).endCol⟩) ∧ Consumes p text q

/-- A failure: an error, and the cursor at the end of the line. -/
structure FailsLine (p : Parser) (result : Parser × Option Operand) : Prop where
  nothing : result.2 = none
  dirty : errorHasAny result.1.errors = true
  tokens : result.1.tokens = restOfLine p.tokens
  out : result.1.out = p.out

theorem failOperand_fails (p : Parser) (t : Token) (msg : List UInt8) :
    FailsLine p (failOperand p t msg) :=
  ⟨rfl, tokenError_dirty p t msg, rfl, rfl⟩

section Cursor

variable {p q : Parser} {openTok : Token} {text : List Token} {kind : OperandKind}
  {result : Parser × Option Operand}

theorem FailsLine.after (consumes : Consumes p text q)
    (inLine : ∀ token ∈ text, isLineEnd token = false) (fails : FailsLine q result) :
    FailsLine p result where
  nothing := fails.nothing
  dirty := fails.dirty
  tokens := fails.tokens.trans (restOfLine_consumed consumes inLine)
  out := fails.out.trans consumes.out

theorem Closes.after {before : List Token} (consumes : Consumes p before q) (some_ : text ≠ [])
    (closes : Closes q openTok text kind result) : Closes p openTok (before ++ text) kind result := by
  obtain ⟨last, equal, further⟩ := closes
  refine ⟨last, ?_, consumes.trans further⟩
  rw [equal, List.getLastD_eq_getLast?, List.getLastD_eq_getLast?, List.getLast?_append,
    List.getLast?_eq_some_getLast some_]
  rfl

theorem isLineEnd_eq_false {t : Token} (notNewline : t.type ≠ .newline) (notEnd : t.type ≠ .eof) :
    isLineEnd t = false := by
  simp [isLineEnd, notNewline, notEnd]

/-- The token at the cursor, of a type that ends no line. -/
theorem inLine_of_curType {type : TokenType} (here : curType p = type)
    (inside : type ≠ .newline ∧ type ≠ .eof) : ∀ token ∈ [cur p], isLineEnd token = false := by
  intro token member
  obtain rfl := List.mem_singleton.mp member
  have equal : (cur p).type = type := here
  exact isLineEnd_eq_false (equal ▸ inside.1) (equal ▸ inside.2)

theorem closeMemory_outcome (p : Parser) (kind : OperandKind) (openTok : Token)
    (unclosed : List UInt8) :
    (curType p = .rbracket ∧
        Closes p openTok [cur p] kind (closeMemory p kind openTok unclosed)) ∨
      FailsLine p (closeMemory p kind openTok unclosed) := by
  unfold closeMemory
  split
  · exact .inr (failOperand_fails p _ _)
  · next closed =>
      have here := Decidable.not_not.mp closed
      exact .inl ⟨here, advance p, rfl, advance_consumes (by rw [here]; decide)⟩

/-- The text after the instruction pointer, and the name in it. -/
theorem parseRipOperand_outcome (p : Parser) (openTok : Token) :
    (∃ plus name close : Token, plus.type = .plus ∧
        (name.type = .labelRef ∨ name.type = .mnemonic) ∧ close.type = .rbracket ∧
        Closes p openTok [plus, name, close] (.memRipLabel name.value)
          (parseRipOperand p openTok)) ∨
      FailsLine p (parseRipOperand p openTok) := by
  unfold parseRipOperand
  split
  · exact .inr (failOperand_fails p _ _)
  · next isPlus =>
      have plus := Decidable.not_not.mp isPlus
      have passed := advance_consumes (p := p) (by rw [plus]; decide)
      have inLine := inLine_of_curType plus (by decide)
      dsimp only
      split
      · exact .inr (.after passed inLine (failOperand_fails _ _ _))
      · next isName =>
          have name : curType (advance p) = .labelRef ∨ curType (advance p) = .mnemonic :=
            Decidable.or_iff_not_not_and_not.mpr isName
          have named := advance_consumes (p := advance p) (by
            rcases name with type | type <;> rw [type] <;> decide)
          have inName : ∀ token ∈ [cur (advance p)], isLineEnd token = false := by
            rcases name with type | type
            · exact inLine_of_curType type (by decide)
            · exact inLine_of_curType type (by decide)
          rcases closeMemory_outcome (advance (advance p)) (.memRipLabel (cur (advance p)).value)
            openTok (utf8 "توقعت ']' لإغلاق عنوان الذاكرة النسبي") with ⟨close, closes⟩ | fails
          · exact .inl ⟨cur p, cur (advance p), cur (advance (advance p)), plus, name, close,
              (closes.after named (by simp)).after passed (by simp)⟩
          · exact .inr ((fails.after named inName).after passed inLine)

theorem closeDisplacement_outcome (p : Parser) (base : RegId) (displacement : Int)
    (token openTok : Token) :
    (curType p = .rbracket ∧ Fits32 displacement ∧
        Closes p openTok [cur p] (.memDisp base (Int32.ofInt displacement))
          (closeDisplacement p base displacement token openTok)) ∨
      FailsLine p (closeDisplacement p base displacement token openTok) := by
  unfold closeDisplacement
  split
  · exact .inr (failOperand_fails p _ _)
  · next fits =>
      rcases closeMemory_outcome p (.memDisp base (Int32.ofInt displacement)) openTok
        unclosedMemory with ⟨close, closes⟩ | fails
      · exact .inl ⟨close, by rw [Fits32]; omega, closes⟩
      · exact .inr fails

/-- The negation of the smallest value is out of range with and without saturation. -/
theorem saturatedNegation {value : Int}
    (fits : Fits32 (if value = -2 ^ 63 then 2 ^ 63 - 1 else -value)) :
    (if value = -2 ^ 63 then 2 ^ 63 - 1 else -value) = -value := by
  rw [Fits32] at fits
  split at fits
  · omega
  · next other => rw [if_neg other]

/-- The text after the base register. -/
theorem parseBaseOperand_outcome (vocabulary : Vocabulary) (p : Parser) (openTok : Token)
    (base : RegId) :
    (∃ text kind, text ≠ [] ∧
        (∀ r, IsBase vocabulary r base → MemoryText vocabulary (r :: text) kind) ∧
        Closes p openTok text kind (parseBaseOperand p openTok base)) ∨
      FailsLine p (parseBaseOperand p openTok base) := by
  unfold parseBaseOperand
  split
  · next sign =>
      have passed := advance_consumes (p := p) (by
        rcases sign with type | type <;> rw [type] <;> decide)
      have inLine : ∀ token ∈ [cur p], isLineEnd token = false := by
        rcases sign with type | type
        · exact inLine_of_curType type (by decide)
        · exact inLine_of_curType type (by decide)
      dsimp only
      split
      · exact .inr (.after passed inLine (failOperand_fails _ _ _))
      · next isNumber =>
          have number := Decidable.not_not.mp isNumber
          have passedNumber := advance_consumes (p := advance p) (by rw [number]; decide)
          have inNumber := inLine_of_curType number (by decide)
          rcases closeDisplacement_outcome (advance (advance p)) base _ (cur (advance p)) openTok
            with ⟨close, fits, closes⟩ | fails
          · refine .inl ⟨_, _, by simp, fun r isBase => ?_,
              (closes.after passedNumber (by simp)).after passed (by simp)⟩
            have value : (if decide (curType p = .minus) = true then
                if (strtoll (cur (advance p)).value).toInt = -2 ^ 63 then 2 ^ 63 - 1
                else -(strtoll (cur (advance p)).value).toInt
              else (strtoll (cur (advance p)).value).toInt) =
                signed (cur p).type (strtoll (cur (advance p)).value).toInt := by
              by_cases minus : (cur p).type = .minus
              · have negative : curType p = .minus := minus
                simp only [negative, decide_true, if_true] at fits ⊢
                rw [signed, if_pos minus, saturatedNegation fits]
              · have positive : ¬ curType p = .minus := minus
                rw [signed, if_neg minus]
                simp [positive]
            rw [value] at fits ⊢
            exact .signed isBase sign number fits close
          · exact .inr ((fails.after passedNumber inNumber).after passed inLine)
  · split
    · next number =>
        have passed := advance_consumes (p := p) (by rw [number]; decide)
        have inLine := inLine_of_curType number (by decide)
        rcases closeDisplacement_outcome (advance p) base _ (cur p) openTok
          with ⟨close, fits, closes⟩ | fails
        · exact .inl ⟨_, _, by simp, fun r isBase => .unsigned isBase number fits close,
            closes.after passed (by simp)⟩
        · exact .inr (fails.after passed inLine)
    · rcases closeMemory_outcome p (.memReg base) openTok unclosedMemory with ⟨close, closes⟩ | fails
      · exact .inl ⟨_, _, by simp, fun r isBase => .base isBase close, closes⟩
      · exact .inr fails

/-- A memory operand has a text of the grammar, or fails. -/
theorem parseMemOperand_outcome (vocabulary : Vocabulary) (p : Parser) (openTok : Token) :
    (∃ text kind, MemoryText vocabulary text kind ∧
        Closes p openTok text kind (@parseMemOperand vocabulary p openTok)) ∨
      FailsLine p (@parseMemOperand vocabulary p openTok) := by
  unfold parseMemOperand
  dsimp only
  split
  · next pointer =>
      have here : curType p = .labelRef := pointer.1
      have passed := advance_consumes (p := p) (by rw [here]; decide)
      have inLine := inLine_of_curType here (by decide)
      rcases parseRipOperand_outcome (advance p) openTok
        with ⟨plus, name, close, isPlus, isName, isClose, closes⟩ | fails
      · exact .inl ⟨_, _, .rip pointer.1 pointer.2 isPlus isName isClose,
          closes.after passed (by simp)⟩
      · exact .inr (fails.after passed inLine)
  · split
    · split
      · exact .inr ⟨rfl, tokenError_dirty p _ _, rfl, rfl⟩
      · exact .inr (failOperand_fails p _ _)
    · next isRegister =>
        have register : curType p = .register := Decidable.not_not.mp isRegister
        have passed := advance_consumes (p := p) (by rw [register]; decide)
        have inLine := inLine_of_curType register (by decide)
        split
        · exact .inr (.after passed inLine (failOperand_fails _ _ _))
        · next base known =>
            split
            · exact .inr (.after passed inLine (failOperand_fails _ _ _))
            · next wide =>
                rcases parseBaseOperand_outcome vocabulary (advance p) openTok base
                  with ⟨text, kind, some_, isText, closes⟩ | fails
                · exact .inl ⟨_, _, isText _ ⟨register, known, Decidable.not_not.mp wide⟩,
                    closes.after passed some_⟩
                · exact .inr (fails.after passed inLine)

end Cursor

/-! ## Operands -/

section Operands

variable {vocabulary : Vocabulary}

/-- An operand has a text of the grammar, or fails. -/
theorem parseOperand_outcome (vocabulary : Vocabulary) (p : Parser) :
    (∃ text kind q, OperandText vocabulary text kind ∧
        @parseOperand vocabulary p = (q, some (spanned text kind)) ∧ Consumes p text q) ∨
      ∃ q, @parseOperand vocabulary p = (q, none) ∧ errorHasAny q.errors = true := by
  -- a token that is an operand by itself
  have word : ∀ {type : TokenType} (kind : OperandKind), (cur p).type = type → type ≠ .eof →
      wordOperand? vocabulary (cur p) = some kind →
      @parseOperand vocabulary p =
        (advance p, some ⟨kind, (cur p).line, (cur p).col, (cur p).endCol⟩) →
      ∃ text kind q, OperandText vocabulary text kind ∧
        @parseOperand vocabulary p = (q, some (spanned text kind)) ∧ Consumes p text q :=
    fun _ here notEnd isWord read =>
      ⟨[cur p], _, _, .word isWord, read, advance_consumes (by rw [curType, here]; exact notEnd)⟩
  have fails : (@parseOperand vocabulary p).2 = none ∧
      errorHasAny (@parseOperand vocabulary p).1.errors = true →
      ∃ q, @parseOperand vocabulary p = (q, none) ∧ errorHasAny q.errors = true :=
    fun ⟨nothing, dirty⟩ => ⟨_, Prod.ext rfl nothing, dirty⟩
  cases type : (cur p).type with
  | register =>
      cases known : @lexerRegisterId vocabulary (cur p).value with
      | none => exact .inr (fails (by simp [parseOperand, type, known]))
      | some reg =>
          exact .inl (word (.reg reg) type (by decide) (by simp [wordOperand?, type, known])
            (by simp [parseOperand, type, known]))
  | immediate =>
      exact .inl (word (.imm (strtoll (cur p).value)) type (by decide) (by simp [wordOperand?, type])
        (by simp [parseOperand, type]))
  | mnemonic =>
      exact .inl (word (.label (cur p).value) type (by decide) (by simp [wordOperand?, type])
        (by simp [parseOperand, type]))
  | string =>
      exact .inl (word (.string (cur p).value) type (by decide) (by simp [wordOperand?, type])
        (by simp [parseOperand, type]))
  | labelRef =>
      cases removed : lexerRegisterLegacyReplacement (cur p).value with
      | none =>
          exact .inl (word (.label (cur p).value) type (by decide)
            (by simp [wordOperand?, type, removed])
            (by simp [parseOperand, type, removed]))
      | some replacement =>
          exact .inr (fails (by simp [parseOperand, type, removed, replacementError]))
  | lbracket =>
      have passed := advance_consumes (p := p) (by
        have here : curType p = .lbracket := type
        rw [here]
        decide)
      have equal : @parseOperand vocabulary p =
          @parseMemOperand vocabulary (advance p) (cur p) := by
        simp [parseOperand, type]
      rw [equal]
      rcases parseMemOperand_outcome vocabulary (advance p) (cur p)
        with ⟨text, kind, isText, q, read, consumes⟩ | fails
      · refine .inl ⟨cur p :: text, kind, q, .memory type isText, ?_, passed.trans consumes⟩
        rw [read, spanned]
        cases isText <;> rfl
      · exact .inr ⟨_, Prod.ext rfl fails.nothing, fails.dirty⟩
  | _ => exact .inr (fails (by simp [parseOperand, type]))

/-! ## Operand lists -/

/-- The loop of a directive line reads a list up to the end of the line, or fails. -/
theorem directiveOperands_outcome (fuel : Nat) (p : Parser) (ops : List Operand)
    (enough : p.tokens.length ≤ fuel) (room : ops.length ≤ maxOperands) :
    (∃ text read q, LooseText vocabulary text read ∧
        @directiveOperands vocabulary fuel p ops = (q, ops ++ read) ∧ Consumes p text q ∧
        isLineEnd (cur q) = true ∧ (ops ++ read).length ≤ maxOperands) ∨
      errorHasAny (@directiveOperands vocabulary fuel p ops).1.errors = true := by
  induction fuel generalizing p ops with
  | zero =>
      have empty : p.tokens = [] := List.length_eq_zero_iff.mp (Nat.le_zero.mp enough)
      refine .inl ⟨[], [], p, .nil, by rw [List.append_nil]; rfl, .refl p, ?_, by simpa using room⟩
      simp [cur, empty, isLineEnd]
  | succ fuel inductionHypothesis =>
      rw [directiveOperands]
      split
      · next lineEnd =>
          exact .inl ⟨[], [], p, .nil, by rw [List.append_nil], .refl p, lineEnd, by simpa using room⟩
      · next inLine =>
          split
          · next comma =>
              have passed := advance_consumes (p := p) (by rw [comma]; decide)
              have shorter : (advance p).tokens.length ≤ fuel := by
                have length := congrArg List.length passed.tokens
                simp only [List.length_append, List.length_singleton] at length
                omega
              rcases inductionHypothesis (advance p) ops shorter room
                with ⟨text, read, q, isText, equal, consumes, lineEnd, count⟩ | dirty
              · exact .inl ⟨cur p :: text, read, q, .comma comma isText, equal,
                  passed.trans consumes, lineEnd, count⟩
              · exact .inr dirty
          · split
            · exact .inr (tokenError_dirty _ _ _)
            · next vacant =>
                rcases parseOperand_outcome vocabulary p
                  with ⟨text, kind, q, isText, equal, consumes⟩ | ⟨q, failed, dirty⟩
                · rw [equal]
                  dsimp only
                  have shorter : q.tokens.length ≤ fuel := by
                    have length := congrArg List.length consumes.tokens
                    have some_ := isText.length_pos
                    simp only [List.length_append] at length
                    omega
                  have count : (ops ++ [spanned text kind]).length ≤ maxOperands := by
                    rw [List.length_append, List.length_singleton]
                    omega
                  rcases inductionHypothesis q (ops ++ [spanned text kind]) shorter count
                    with ⟨rest, read, last, isRest, equal', consumes', lineEnd, count'⟩ | dirty
                  · rw [List.append_assoc, List.singleton_append] at equal' count'
                    exact .inl ⟨text ++ rest, spanned text kind :: read, last, .cons isText isRest,
                      equal', consumes.trans consumes', lineEnd, count'⟩
                  · exact .inr dirty
                · rw [failed]
                  exact .inr dirty

/-- The loop of an instruction line, after the first operand. -/
theorem furtherOperands_outcome (fuel : Nat) (p : Parser) (ops : List Operand)
    (enough : p.tokens.length ≤ fuel) (some_ : 0 < ops.length) (room : ops.length ≤ maxOperands) :
    (∃ text read q, FurtherText vocabulary text read ∧
        @instructionOperands vocabulary fuel p ops = (q, ops ++ read, true) ∧ Consumes p text q ∧
        isLineEnd (cur q) = true ∧ (ops ++ read).length ≤ maxOperands) ∨
      ((@instructionOperands vocabulary fuel p ops).2.2 = false ∧
        errorHasAny (@instructionOperands vocabulary fuel p ops).1.errors = true) := by
  induction fuel generalizing p ops with
  | zero =>
      have empty : p.tokens = [] := List.length_eq_zero_iff.mp (Nat.le_zero.mp enough)
      refine .inl ⟨[], [], p, .nil, by rw [List.append_nil]; rfl, .refl p, ?_, by simpa using room⟩
      simp [cur, empty, isLineEnd]
  | succ fuel inductionHypothesis =>
      rw [instructionOperands]
      split
      · next lineEnd =>
          exact .inl ⟨[], [], p, .nil, by rw [List.append_nil], .refl p, lineEnd, by simpa using room⟩
      · rw [expectComma]
        by_cases comma : curType p = .comma
        · rw [if_pos comma]
          dsimp only [Bool.not_true]
          rw [if_neg (by decide)]
          have passed := advance_consumes (p := p) (by rw [comma]; decide)
          split
          · exact .inr ⟨rfl, tokenError_dirty _ _ _⟩
          · next vacant =>
              rcases parseOperand_outcome vocabulary (advance p)
                with ⟨text, kind, q, isText, equal, consumes⟩ | ⟨q, failed, dirty⟩
              · rw [equal]
                dsimp only
                have shorter : q.tokens.length ≤ fuel := by
                  have length := congrArg List.length (passed.trans consumes).tokens
                  simp only [List.length_append, List.length_singleton] at length
                  omega
                have count : (ops ++ [spanned text kind]).length ≤ maxOperands := by
                  rw [List.length_append, List.length_singleton]
                  omega
                rcases inductionHypothesis q (ops ++ [spanned text kind]) shorter (by simp) count
                  with ⟨rest, read, last, isRest, equal', consumes', lineEnd, count'⟩ | dirty
                · rw [List.append_assoc, List.singleton_append] at equal' count'
                  exact .inl ⟨cur p :: (text ++ rest), spanned text kind :: read, last,
                    .cons comma isText isRest, equal',
                    passed.trans (consumes.trans consumes'), lineEnd, count'⟩
                · exact .inr dirty
              · rw [failed]
                exact .inr ⟨rfl, dirty⟩
        · rw [if_neg comma]
          exact .inr ⟨rfl, tokenError_dirty _ _ _⟩

/-- The loop of an instruction line. -/
theorem instructionOperands_outcome (fuel : Nat) (p : Parser) (enough : p.tokens.length ≤ fuel) :
    (∃ text read q, SeparatedText vocabulary text read ∧
        @instructionOperands vocabulary fuel p [] = (q, read, true) ∧ Consumes p text q ∧
        isLineEnd (cur q) = true ∧ read.length ≤ maxOperands) ∨
      ((@instructionOperands vocabulary fuel p []).2.2 = false ∧
        errorHasAny (@instructionOperands vocabulary fuel p []).1.errors = true) := by
  cases fuel with
  | zero =>
      have empty : p.tokens = [] := List.length_eq_zero_iff.mp (Nat.le_zero.mp enough)
      refine .inl ⟨[], [], p, .nil, rfl, .refl p, ?_, by decide⟩
      simp [cur, empty, isLineEnd]
  | succ fuel =>
      rw [instructionOperands]
      split
      · next lineEnd => exact .inl ⟨[], [], p, .nil, rfl, .refl p, lineEnd, by decide⟩
      · rw [if_neg (by decide)]
        dsimp only [Bool.not_true]
        rw [if_neg (by decide), if_neg (by decide)]
        rcases parseOperand_outcome vocabulary p
          with ⟨text, kind, q, isText, equal, consumes⟩ | ⟨q, failed, dirty⟩
        · rw [equal]
          dsimp only
          have shorter : q.tokens.length ≤ fuel := by
            have length := congrArg List.length consumes.tokens
            have some_ := isText.length_pos
            simp only [List.length_append] at length
            omega
          rcases @furtherOperands_outcome vocabulary fuel q [spanned text kind]
              shorter Nat.one_pos (by simp [maxOperands])
            with ⟨rest, read, last, isRest, equal', consumes', lineEnd, count⟩ | dirty
          · exact .inl ⟨text ++ rest, spanned text kind :: read, last, .cons isText isRest, equal',
              consumes.trans consumes', lineEnd, count⟩
          · exact .inr dirty
        · rw [failed]
          exact .inr ⟨rfl, dirty⟩

theorem isLineEnd_cur (p : Parser) : isLineEnd (cur p) = true ↔ EndsLine p.tokens := by
  rw [isLineEnd, Bool.or_eq_true, decide_eq_true_eq, decide_eq_true_eq]
  rfl

/-! ## Lines -/

/-- A line was read up to its end, and its statement pushed. -/
def PushesLine (p : Parser) (text : List Token) (instr : Instruction) (after : Parser) : Prop :=
  ∃ q, Consumes p text q ∧ isLineEnd (cur q) = true ∧ after = pushInstr (skipNewline q) instr

@[simp] theorem skipNewline_errors (p : Parser) : (skipNewline p).errors = p.errors := by
  unfold skipNewline
  split
  · exact advance_errors p
  · rfl

theorem dropLine_errors (p : Parser) : (dropLine p).errors = p.errors :=
  skipNewline_errors _

theorem curType_skipNewlines (p : Parser) : curType (skipNewlines p) ≠ .newline := by
  intro newline
  unfold curType cur skipNewlines at newline
  dsimp only at newline
  cases skipped : p.tokens.dropWhile isNewline with
  | nil => simp [skipped] at newline
  | cons t tokens =>
      have stops := List.head_dropWhile_not isNewline (l := p.tokens) (by rw [skipped]; simp)
      simp only [skipped, List.head_cons] at stops
      rw [skipped] at newline
      exact absurd newline (of_decide_eq_false stops)

theorem pushed_dirty {p : Parser} (dirty : errorHasAny p.errors = true) (instr : Instruction) :
    errorHasAny (pushInstr (skipNewline p) instr).errors = true := by
  have errors : (pushInstr (skipNewline p) instr).errors = p.errors := skipNewline_errors p
  rw [errors]
  exact dirty

theorem length_tail_tokens (p : Parser) : (advance p).tokens.length ≤ p.tokens.length := by
  unfold advance
  split
  · exact Nat.le_refl _
  · rw [List.length_tail]
    omega

theorem parseDirectiveLine_outcome {p : Parser} (directive : curType p = .directive)
    (instr : Instruction) :
    (∃ text stmt, StatementText vocabulary instr (cur p :: text) stmt ∧
        PushesLine p (cur p :: text) stmt (@parseDirectiveLine vocabulary p instr)) ∨
      errorHasAny (@parseDirectiveLine vocabulary p instr).errors = true := by
  have passed := advance_consumes (p := p) (by rw [directive]; decide)
  unfold parseDirectiveLine
  dsimp only
  cases removed : directiveLegacyReplacement (cur p).value with
  | some replacement =>
      right
      simp only [dropLine_errors]
      exact tokenError_dirty _ _ _
  | none =>
      dsimp only
      rcases @directiveOperands_outcome vocabulary p.tokens.length (advance p) []
          (length_tail_tokens p) (Nat.zero_le _)
        with ⟨text, read, q, isText, equal, consumes, lineEnd, count⟩ | dirty
      · refine .inl ⟨text, _, .directive directive removed isText count, q,
          passed.trans consumes, lineEnd, ?_⟩
        rw [equal]
        rfl
      · exact .inr (pushed_dirty dirty _)

theorem parseInstructionLine_outcome {p : Parser} (mnemonic : curType p = .mnemonic)
    (instr : Instruction) :
    (∃ text stmt, StatementText vocabulary instr (cur p :: text) stmt ∧
        PushesLine p (cur p :: text) stmt (@parseInstructionLine vocabulary p instr)) ∨
      errorHasAny (@parseInstructionLine vocabulary p instr).errors = true := by
  have passed := advance_consumes (p := p) (by rw [mnemonic]; decide)
  unfold parseInstructionLine
  dsimp only
  split
  · right
    rw [dropLine_errors]
    exact tokenError_dirty _ _ _
  · next known =>
      rcases @instructionOperands_outcome vocabulary p.tokens.length (advance p)
          (length_tail_tokens p)
        with ⟨text, read, q, isText, equal, consumes, lineEnd, count⟩ | ⟨failed, dirty⟩
      · rw [equal]
        dsimp only
        rw [if_pos rfl]
        unfold checkArity
        dsimp only
        split
        · exact .inr (pushed_dirty (errorHasAny_errorAddSpan _ _ _ _ _ _) _)
        · next least =>
            split
            · exact .inr (pushed_dirty (errorHasAny_errorAddSpan _ _ _ _ _ _) _)
            · next greatest =>
                exact .inl ⟨text, _, .instruction mnemonic known isText count
                  ⟨Nat.le_of_not_lt least, Nat.le_of_not_lt greatest⟩, q,
                  passed.trans consumes, lineEnd, rfl⟩
      · rw [failed, if_neg (by decide)]
        exact .inr (pushed_dirty dirty _)

theorem parseStatement_outcome (p : Parser) (instr : Instruction) :
    (∃ text stmt, StatementText vocabulary instr (cur p :: text) stmt ∧
        PushesLine p (cur p :: text) stmt (@parseStatement vocabulary p instr)) ∨
      errorHasAny (@parseStatement vocabulary p instr).errors = true := by
  unfold parseStatement
  split
  · next directive => exact parseDirectiveLine_outcome directive instr
  · next mnemonic => exact parseInstructionLine_outcome mnemonic instr
  · right
    unfold parseOtherLine
    dsimp only
    split
    · rw [dropLine_errors]
      exact tokenError_dirty _ _ _
    · rw [dropLine_errors]
      exact tokenError_dirty _ _ _

/-- A line has a text of the grammar, or fails. -/
theorem parseLine_outcome {p : Parser} (notEnd : curType p ≠ .eof)
    (notNewline : curType p ≠ .newline) :
    (∃ text stmt, LineText vocabulary text stmt ∧
        PushesLine p text stmt (@parseLine vocabulary p)) ∨
      errorHasAny (@parseLine vocabulary p).errors = true := by
  unfold parseLine
  dsimp only
  rw [if_neg (c := (cur p).type = .eof) notEnd, if_neg (c := (cur p).type = .newline) notNewline]
  split
  · next isLabel =>
      have passed := advance_consumes notEnd
      split
      · next lineEnd => exact .inl ⟨[cur p], _, .label isLabel, advance p, passed, lineEnd, rfl⟩
      · rcases @parseStatement_outcome vocabulary (advance p)
            (setInstructionSpan (labelled (cur p)) (cur (advance p)))
          with ⟨text, stmt, isText, q, consumes, lineEnd, pushed⟩ | dirty
        · exact .inl ⟨_, stmt, .labelled isLabel isText, q, passed.trans consumes, lineEnd, pushed⟩
        · exact .inr dirty
  · rcases @parseStatement_outcome vocabulary p (emptyInstruction (cur p))
      with ⟨text, stmt, isText, pushes⟩ | dirty
    · exact .inl ⟨_, stmt, .statement isText, pushes⟩
    · exact .inr dirty

/-! ## Programs -/

theorem programText_of_skipped {tokens : List Token} {statements : List Instruction}
    (isText : ProgramText vocabulary (tokens.dropWhile isNewline) statements) :
    ProgramText vocabulary tokens statements := by
  induction tokens with
  | nil => exact isText
  | cons t tokens inductionHypothesis =>
      by_cases newline : isNewline t = true
      · rw [List.dropWhile_cons_of_pos newline] at isText
        exact .newline (of_decide_eq_true newline) (inductionHypothesis isText)
      · rwa [List.dropWhile_cons_of_neg newline] at isText

theorem parseLine_dirty {p : Parser} (dirty : errorHasAny p.errors = true) :
    errorHasAny (@parseLine vocabulary p).errors = true := by
  by_cases atEnd : curType p = .eof
  · have same : @parseLine vocabulary p = p := if_pos atEnd
    rw [same]
    exact dirty
  · by_cases newline : curType p = .newline
    · have advanced : @parseLine vocabulary p = advance p := by
        rw [parseLine]
        exact (if_neg atEnd).trans (if_pos newline)
      rw [advanced, advance_errors]
      exact dirty
    · rcases @parseLine_outcome vocabulary _ atEnd newline
        with ⟨text, stmt, -, q, consumes, -, pushed⟩ | dirty
      · rw [pushed]
        exact pushed_dirty (consumes.errors ▸ dirty) stmt
      · exact dirty

theorem parseLoop_dirty (fuel : Nat) {p : Parser} (dirty : errorHasAny p.errors = true) :
    errorHasAny (@parseLoop vocabulary fuel p).errors = true := by
  induction fuel generalizing p with
  | zero => exact dirty
  | succ fuel inductionHypothesis =>
      rw [parseLoop]
      split
      · exact dirty
      · exact inductionHypothesis (p := skipNewlines (@parseLine vocabulary p)) (parseLine_dirty dirty)

/-- What the end of a line leaves is a program if its lines are. -/
theorem programText_of_lineEnd {q : Parser} {statements : List Instruction}
    (isText : ProgramText vocabulary ((skipNewline q).tokens.dropWhile isNewline) statements) :
    ProgramText vocabulary q.tokens statements := by
  unfold skipNewline at isText
  split at isText
  · next newline =>
      have notEnd : curType q ≠ .eof := by rw [newline]; decide
      rw [advance_eq notEnd] at isText
      rw [tokens_of_cur notEnd]
      exact .newline newline (programText_of_skipped isText)
  · exact programText_of_skipped isText

/-- The loop over the lines reads a program, or fails. -/
theorem parseLoop_outcome (fuel : Nat) {p : Parser} (enough : p.tokens.length ≤ fuel)
    (notNewline : curType p ≠ .newline) :
    (∃ statements, ProgramText vocabulary p.tokens statements ∧
        (@parseLoop vocabulary fuel p).out = p.out ++ statements) ∨
      errorHasAny (@parseLoop vocabulary fuel p).errors = true := by
  induction fuel generalizing p with
  | zero =>
      have empty : p.tokens = [] := List.length_eq_zero_iff.mp (Nat.le_zero.mp enough)
      refine .inl ⟨[], .done ?_, (List.append_nil _).symm⟩
      rw [empty]
      rfl
  | succ fuel inductionHypothesis =>
      rw [parseLoop]
      split
      · next atEnd => exact .inl ⟨[], .done atEnd, (List.append_nil _).symm⟩
      · next notEnd =>
          rcases @parseLine_outcome vocabulary _ notEnd notNewline
            with ⟨text, stmt, isText, q, consumes, lineEnd, pushed⟩ | dirty
          · rw [pushed]
            -- the line has a token, and skipping newlines only shortens what is left
            have some_ : 0 < text.length := by cases isText <;> exact Nat.succ_pos _
            have skipped : (skipNewlines (pushInstr (skipNewline q) stmt)).tokens =
                (skipNewline q).tokens.dropWhile isNewline := rfl
            have length := congrArg List.length consumes.tokens
            rw [List.length_append] at length
            have shorter : (skipNewlines (pushInstr (skipNewline q) stmt)).tokens.length ≤ fuel := by
              have dropped := ((skipNewlines_scans (skipNewline q)).tokens.trans
                (skipNewline_scans q).tokens).length_le
              rw [skipped]
              exact Nat.le_trans dropped (by omega)
            have atLine : curType (skipNewlines (pushInstr (skipNewline q) stmt)) ≠ .newline :=
              curType_skipNewlines _
            rcases inductionHypothesis shorter atLine with ⟨statements, isProgram, out⟩ | dirty
            · refine .inl ⟨stmt :: statements, ?_, ?_⟩
              · rw [consumes.tokens]
                exact .line isText ((isLineEnd_cur q).mp lineEnd) (programText_of_lineEnd isProgram)
              · rw [out]
                have pushedOut : (skipNewlines (pushInstr (skipNewline q) stmt)).out =
                    (skipNewline q).out ++ [stmt] := rfl
                rw [pushedOut, (skipNewline_scans q).out, consumes.out, List.append_assoc]
                rfl
            · exact .inr dirty
          · exact .inr (parseLoop_dirty fuel dirty)

end Operands

end Nazm.Parser
