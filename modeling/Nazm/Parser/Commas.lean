import Nazm.Parser.GrammarAccepts

/-!
Commas between operands.

Owns the lines of a token list, the lists of operands with commas between them,
and exactly when all operand lists of an accepted token list are such lists.

Does not own what an operand is.
-/

namespace Nazm.Parser

open Nazm.Encoder Nazm.Lexer Nazm.Unicode Nazm.Diagnostics

/-! ## Lines -/

/-- The lines of a token list, up to the end of the file. -/
def sourceLines : List Token → List (List Token)
  | [] => [[]]
  | t :: tokens =>
      if t.type = .eof then [[]]
      else if t.type = .newline then [] :: sourceLines tokens
      else
        match sourceLines tokens with
        | [] => [[t]]
        | line :: lines => (t :: line) :: lines

/-- The tokens of a line after its label. -/
def statementTokens : List Token → List Token
  | [] => []
  | t :: tokens => if t.type = .labelDef then tokens else t :: tokens

/-- The tokens after the name of an instruction or a directive. -/
def operandTokens (line : List Token) : List Token := (statementTokens line).tail

def isDirectiveLine (line : List Token) : Bool := decide (firstType (statementTokens line) = .directive)

/-! ## Lists of operands -/

/-- The tokens of one operand. -/
def IsOperand (text : List Token) : Prop := ∃ kind, OperandText .nazm text kind

/-- `operand (comma operand)*`, or nothing. -/
inductive CommaSeparated : List Token → Prop where
  | nil : CommaSeparated []
  | last {text : List Token} : IsOperand text → CommaSeparated text
  | more {text rest : List Token} {comma : Token} :
      IsOperand text → comma.type = .comma → rest ≠ [] → CommaSeparated rest →
      CommaSeparated (text ++ comma :: rest)

/-- The types of the tokens outside brackets; a memory operand counts by its
opening bracket. -/
def outsideBrackets (inside : Bool) : List Token → List TokenType
  | [] => []
  | t :: tokens =>
      if inside then outsideBrackets (decide (t.type ≠ .rbracket)) tokens
      else t.type :: outsideBrackets (decide (t.type = .lbracket)) tokens

/-- Neighbours that misplace no comma, between the name of a directive and the
end of its line. -/
def mayMeet (left right : TokenType) : Bool :=
  if left = .comma then decide (right ≠ .comma) && decide (right ≠ .newline)
  else if left = .directive then decide (right ≠ .comma)
  else decide (right = .comma) || decide (right = .newline)

/-- Every token of a list may stand before the next. -/
def allMeet : List TokenType → Bool
  | left :: right :: types => mayMeet left right && allMeet (right :: types)
  | _ => true

/-- The commas of a directive line stand where those of an instruction do. -/
def commasInPlace (line : List Token) : Bool :=
  allMeet (.directive :: (outsideBrackets false (operandTokens line) ++ [.newline]))

/-! ## Lines of a program -/

theorem sourceLines_of_endsLine {tokens : List Token} (lineEnd : EndsLine tokens) :
    ∃ lines, sourceLines tokens = [] :: lines := by
  cases tokens with
  | nil => exact ⟨[], rfl⟩
  | cons t tokens =>
      have type : t.type = .newline ∨ t.type = .eof := lineEnd
      rcases type with newline | atEnd
      · exact ⟨sourceLines tokens, by rw [sourceLines, if_neg (by simp [newline]), if_pos newline]⟩
      · exact ⟨[], by rw [sourceLines, if_pos atEnd]⟩

/-- A line and the lines after it. -/
theorem sourceLines_append {text tokens : List Token} {lines : List (List Token)}
    (inLine : ∀ t ∈ text, isLineEnd t = false) (after : sourceLines tokens = [] :: lines) :
    sourceLines (text ++ tokens) = text :: lines := by
  induction text with
  | nil => exact after
  | cons t text inductionHypothesis =>
      have here := inLine t List.mem_cons_self
      simp only [isLineEnd, Bool.or_eq_false_iff, decide_eq_false_iff_not] at here
      rw [List.cons_append, sourceLines, if_neg here.2, if_neg here.1,
        inductionHypothesis fun t member => inLine t (List.mem_cons_of_mem _ member)]

section Texts

variable {vocabulary : Vocabulary} {text : List Token} {ops : List Operand}

/-- A property of the empty line and of every line of the grammar holds of all lines. -/
theorem ProgramText.forall_lines {tokens : List Token} {statements : List Instruction}
    {property : List Token → Prop} (isText : ProgramText vocabulary tokens statements)
    (empty : property []) (lines : ∀ text stmt, LineText vocabulary text stmt → property text) :
    ∀ line ∈ sourceLines tokens, property line := by
  induction isText with
  | @done tokens atEnd =>
      have only : sourceLines tokens = [[]] := by
        cases tokens with
        | nil => rfl
        | cons t tokens => exact if_pos atEnd
      rw [only]
      exact fun line member => List.mem_singleton.mp member ▸ empty
  | newline isNewline _ inductionHypothesis =>
      rw [sourceLines, if_neg (by simp [isNewline]), if_pos isNewline]
      intro line member
      rcases List.mem_cons.mp member with rfl | inRest
      · exact empty
      · exact inductionHypothesis line inRest
  | @line text tokens stmt _ isLine lineEnd _ inductionHypothesis =>
      obtain ⟨more, after⟩ := sourceLines_of_endsLine lineEnd
      rw [sourceLines_append isLine.inLine after]
      intro line member
      rcases List.mem_cons.mp member with rfl | inRest
      · exact lines _ stmt isLine
      · exact inductionHypothesis line (after ▸ List.mem_cons_of_mem _ inRest)

end Texts

/-! ## Tokens outside brackets -/

theorem outsideBrackets_memory {kind : OperandKind} {text : List Token}
    (isText : MemoryText .nazm text kind) (rest : List Token) :
    outsideBrackets true (text ++ rest) = outsideBrackets false rest := by
  cases isText with
  | base isBase isClose => simp [outsideBrackets, isBase.type, isClose]
  | signed isBase isSign isNumber _ isClose =>
      rcases isSign with sign | sign <;>
        simp [outsideBrackets, isBase.type, sign, isNumber, isClose]
  | unsigned isBase isNumber _ isClose =>
      simp [outsideBrackets, isBase.type, isNumber, isClose]
  | rip isPointer _ isPlus isName isClose =>
      rcases isName with name | name <;>
        simp [outsideBrackets, isPointer, isPlus, name, isClose]

/-- An operand counts as one token that is neither comma nor directive. -/
theorem outsideBrackets_operand {text : List Token} (isOperand : IsOperand text)
    (rest : List Token) :
    ∃ type, outsideBrackets false (text ++ rest) = type :: outsideBrackets false rest ∧
      type ≠ .comma ∧ type ≠ .directive ∧ type ≠ .newline := by
  obtain ⟨kind, isText⟩ := isOperand
  cases isText with
  | @word t _ isWord =>
      have type : t.type ≠ .comma ∧ t.type ≠ .directive ∧ t.type ≠ .newline ∧
          t.type ≠ .lbracket := by
        unfold wordOperand? at isWord
        split at isWord
        all_goals first
          | contradiction
          | next type => simp [type]
      exact ⟨t.type, by simp [outsideBrackets, type.2.2.2], type.1, type.2.1, type.2.2.1⟩
  | memory isOpen isMemory =>
      refine ⟨.lbracket, ?_, by decide, by decide, by decide⟩
      rw [List.cons_append, outsideBrackets, if_neg (by decide), isOpen]
      exact congrArg _ (outsideBrackets_memory isMemory rest)

/-! ## Lists in place -/

/-- A list with its commas between its operands, after a directive's name or a comma. -/
theorem allMeet_of_separated {text : List Token} (separated : CommaSeparated text) :
    allMeet (.directive :: (outsideBrackets false text ++ [.newline])) = true ∧
      (text ≠ [] → allMeet (.comma :: (outsideBrackets false text ++ [.newline])) = true) := by
  induction separated with
  | nil => exact ⟨rfl, fun some_ => absurd rfl some_⟩
  | @last text isOperand =>
      obtain ⟨type, outside, notComma, notDirective, notNewline⟩ :=
        outsideBrackets_operand isOperand []
      rw [List.append_nil] at outside
      rw [outside]
      simp [outsideBrackets, allMeet, mayMeet, notComma, notDirective, notNewline]
  | @more text rest comma isOperand isComma some_ _ inductionHypothesis =>
      obtain ⟨type, outside, notComma, notDirective, notNewline⟩ :=
        outsideBrackets_operand isOperand (comma :: rest)
      have further : outsideBrackets false (comma :: rest) =
          .comma :: outsideBrackets false rest := by
        simp [outsideBrackets, isComma]
      rw [outside, further]
      simp only [List.cons_append, allMeet, inductionHypothesis.2 some_]
      simp [mayMeet, notComma, notDirective, notNewline]

/-- A list of a directive whose neighbours may meet, by what stands before it:
the name of the directive, an operand or a comma. -/
theorem separated_of_allMeet {text : List Token} {ops : List Operand}
    (isText : LooseText .nazm text ops) :
    (allMeet (.directive :: (outsideBrackets false text ++ [.newline])) = true →
        CommaSeparated text) ∧
      (∀ type, type ≠ .comma → type ≠ .directive →
        allMeet (type :: (outsideBrackets false text ++ [.newline])) = true →
        text = [] ∨ ∃ comma rest, text = comma :: rest ∧ comma.type = .comma ∧ rest ≠ [] ∧
          CommaSeparated rest) ∧
      (allMeet (.comma :: (outsideBrackets false text ++ [.newline])) = true →
        text ≠ [] ∧ CommaSeparated text) := by
  induction isText with
  | nil => exact ⟨fun _ => .nil, fun _ _ _ _ => .inl rfl, fun meet => by contradiction⟩
  | @comma comma rest ops isComma _ inductionHypothesis =>
      have outside : outsideBrackets false (comma :: rest) =
          .comma :: outsideBrackets false rest := by
        simp [outsideBrackets, isComma]
      rw [outside]
      refine ⟨fun meet => ?_, fun type notComma notDirective meet => ?_, fun meet => ?_⟩
      · simp [allMeet, mayMeet] at meet
      · rw [List.cons_append, allMeet, Bool.and_eq_true] at meet
        obtain ⟨some_, separated⟩ := inductionHypothesis.2.2 meet.2
        exact .inr ⟨comma, rest, rfl, isComma, some_, separated⟩
      · simp [allMeet, mayMeet] at meet
  | @cons text rest kind ops isOperand _ inductionHypothesis =>
      obtain ⟨type, outside, notComma, notDirective, notNewline⟩ :=
        outsideBrackets_operand ⟨kind, isOperand⟩ rest
      have some_ : text ++ rest ≠ [] :=
        List.append_ne_nil_of_left_ne_nil (List.ne_nil_of_length_pos isOperand.length_pos) rest
      -- what follows the operand, whatever stood before it
      have separated : ∀ {before : TokenType},
          allMeet (before :: (type :: outsideBrackets false rest ++ [.newline])) = true →
          CommaSeparated (text ++ rest) := by
        intro before meet
        rw [List.cons_append, allMeet, Bool.and_eq_true] at meet
        rcases inductionHypothesis.2.1 type notComma notDirective meet.2
          with rfl | ⟨comma, more, rfl, isComma, moreSome, isSeparated⟩
        · rw [List.append_nil]
          exact .last ⟨kind, isOperand⟩
        · exact .more ⟨kind, isOperand⟩ isComma moreSome isSeparated
      rw [outside]
      refine ⟨separated, fun before beforeComma beforeDirective meet => ?_,
        fun meet => ⟨some_, separated meet⟩⟩
      rw [List.cons_append, allMeet, Bool.and_eq_true] at meet
      have adjacent := meet.1
      simp [mayMeet, beforeComma, beforeDirective, notComma, notNewline] at adjacent

/-! ## Lists of instructions -/

theorem FurtherText.separated {text : List Token} {ops : List Operand}
    (isText : FurtherText .nazm text ops) :
    text = [] ∨ ∃ comma rest, text = comma :: rest ∧ comma.type = .comma ∧ rest ≠ [] ∧
      CommaSeparated rest := by
  induction isText with
  | nil => exact .inl rfl
  | @cons comma text rest kind ops isComma isOperand _ inductionHypothesis =>
      refine .inr ⟨comma, text ++ rest, rfl, isComma,
        List.append_ne_nil_of_left_ne_nil (List.ne_nil_of_length_pos isOperand.length_pos) rest, ?_⟩
      rcases inductionHypothesis with rfl | ⟨next, more, rfl, isNext, some_, separated⟩
      · rw [List.append_nil]
        exact .last ⟨kind, isOperand⟩
      · exact .more ⟨kind, isOperand⟩ isNext some_ separated

theorem SeparatedText.separated {text : List Token} {ops : List Operand}
    (isText : SeparatedText .nazm text ops) : CommaSeparated text := by
  cases isText with
  | nil => exact .nil
  | @cons text rest kind ops isOperand isFurther =>
      rcases isFurther.separated with rfl | ⟨comma, more, rfl, isComma, some_, separated⟩
      · rw [List.append_nil]
        exact .last ⟨kind, isOperand⟩
      · exact .more ⟨kind, isOperand⟩ isComma some_ separated

/-! ## Lines in place -/

theorem StatementText.separated_iff {instr stmt : Instruction} {t : Token} {text : List Token}
    (isText : StatementText .nazm instr (t :: text) stmt) :
    CommaSeparated text ↔ (t.type = .directive →
      allMeet (.directive :: (outsideBrackets false text ++ [.newline])) = true) := by
  cases isText with
  | directive isDirective _ isList _ =>
      exact ⟨fun separated _ => (allMeet_of_separated separated).1,
        fun meet => (separated_of_allMeet isList).1 (meet isDirective)⟩
  | instruction isMnemonic _ isList _ _ =>
      exact ⟨fun _ isDirective => by simp [isMnemonic] at isDirective, fun _ => isList.separated⟩

theorem LineText.separated_iff {stmt : Instruction} {line : List Token}
    (isText : LineText .nazm line stmt) :
    CommaSeparated (operandTokens line) ↔ (isDirectiveLine line = true → commasInPlace line = true) := by
  have named : ∀ {instr stmt : Instruction} {t : Token} {text : List Token},
      StatementText .nazm instr (t :: text) stmt → t.type ≠ .labelDef := by
    intro instr stmt t text isStatement
    cases isStatement with
    | directive isDirective => simp [isDirective]
    | instruction isMnemonic => simp [isMnemonic]
  rw [commasInPlace, isDirectiveLine, decide_eq_true_eq]
  cases isText with
  | @statement t text _ isStatement =>
      rw [operandTokens, statementTokens, if_neg (named isStatement)]
      exact isStatement.separated_iff
  | @label t isLabel =>
      rw [operandTokens, statementTokens, if_pos isLabel]
      exact ⟨fun _ isDirective => by contradiction, fun _ => .nil⟩
  | @labelled label t text _ isLabel isStatement =>
      rw [operandTokens, statementTokens, if_pos isLabel]
      exact isStatement.separated_iff

/-! ## Accepted programs -/

/-- The operands of an accepted program are separated by single commas exactly
when the commas of its directive lines are in place. -/
theorem operands_separated_iff (tokens : TokenArray)
    (accepted : errorHasAny (parserParse tokens).errors = false) :
    (∀ line ∈ sourceLines tokens.data, CommaSeparated (operandTokens line)) ↔
      ∀ line ∈ sourceLines tokens.data,
        isDirectiveLine line = true → commasInPlace line = true := by
  have isText := parserParse_iff.mp ⟨accepted, rfl⟩
  have lines : ∀ line ∈ sourceLines tokens.data, (CommaSeparated (operandTokens line) ↔
      (isDirectiveLine line = true → commasInPlace line = true)) :=
    isText.forall_lines ⟨fun _ isDirective => by contradiction, fun _ => .nil⟩
      fun _ _ isLine => isLine.separated_iff
  exact ⟨fun separated line member => (lines line member).mp (separated line member),
    fun inPlace line member => (lines line member).mpr (inPlace line member)⟩

/-- A data line with a comma between its elements. -/
def separatedData : SourceBuffer := ⟨utf8 ".بيانات\n.عدد٨ 1، 2\n", none⟩

theorem operands_separated_iff_separatedData :
    (∀ line ∈ sourceLines (lexerLex separatedData).tokens.data,
        CommaSeparated (operandTokens line)) ↔
      ∀ line ∈ sourceLines (lexerLex separatedData).tokens.data,
        isDirectiveLine line = true → commasInPlace line = true :=
  operands_separated_iff (lexerLex separatedData).tokens (by decide +kernel)

/-- A malformed binary number in a data line: two elements. -/
def splitNumber : SourceBuffer := ⟨utf8 ".بيانات\n.عدد٨ 0b12\n", none⟩

/-- The tokens of the data line. -/
def splitLine : List Token :=
  [⟨.directive, utf8 ".عدد٨", 2, 1, 6⟩, ⟨.immediate, [0x31], 2, 7, 10⟩,
    ⟨.immediate, [0x32], 2, 10, 11⟩]

theorem not_separated_splitLine : ¬ CommaSeparated (operandTokens splitLine) := by
  have notOperand : ∀ {first second : Token} {rest : List Token}, first.type = .immediate →
      ¬ IsOperand (first :: second :: rest) := by
    rintro first second rest type ⟨kind, isText⟩
    cases isText with
    | memory isOpen _ => simp [type] at isOpen
  intro separated
  have tokens : operandTokens splitLine =
    [⟨.immediate, [0x31], 2, 7, 10⟩, ⟨.immediate, [0x32], 2, 10, 11⟩] := rfl
  rw [tokens] at separated
  generalize equal : ([⟨.immediate, [0x31], 2, 7, 10⟩, ⟨.immediate, [0x32], 2, 10, 11⟩] :
    List Token) = line at separated
  cases separated with
  | nil => contradiction
  | last isOperand => exact notOperand rfl (equal ▸ isOperand)
  | @more text rest comma isOperand isComma some_ _ =>
      match text, equal with
      | [], _ =>
          obtain ⟨_, isText⟩ := isOperand
          exact absurd isText.length_pos (Nat.lt_irrefl 0)
      | [_], equal =>
          simp only [List.cons_append, List.nil_append, List.cons.injEq] at equal
          rw [← equal.2.1] at isComma
          contradiction
      | first :: second :: _, equal =>
          simp only [List.cons_append, List.cons.injEq] at equal
          exact notOperand (by rw [← equal.1]) isOperand

/-- The parser accepts operands without a comma between them. -/
theorem split_number_accepted :
    ¬ ∀ tokens : TokenArray, errorHasAny (parserParse tokens).errors = false →
      ∀ line ∈ sourceLines tokens.data, CommaSeparated (operandTokens line) := fun separated =>
  not_separated_splitLine
    (separated (lexerLex splitNumber).tokens (by decide +kernel) splitLine (by decide +kernel))

end Nazm.Parser
