import Nazm.Parser.Renaming

/-!
Newlines at both ends of a file.

Owns the statements that a list of lexemes gives, whatever the spans, and that
newlines at the start and at the end change none.

Does not own where newlines come from.
-/

namespace Nazm.Parser

open Nazm.Encoder Nazm.Lexer Nazm.Unicode Nazm.Diagnostics

section Newlines

variable {vocabulary : Vocabulary} {text tokens tail tail' : List Token} {t : Token}
  {statements : List Instruction}

/-! ## Newlines at the ends -/

/-- A newline at the start changes nothing. -/
theorem programText_newline (isNewline : t.type = .newline) :
    ProgramText vocabulary (t :: tokens) statements ↔
      ProgramText vocabulary tokens statements := by
  constructor
  · intro isText
    generalize whole : t :: tokens = all at isText
    cases isText with
    | done isEnd =>
        rw [← whole] at isEnd
        exact absurd (isNewline.symm.trans isEnd) (by decide)
    | newline _ isRest =>
        rw [(List.cons.inj whole).2]
        exact isRest
    | line isLine _ _ =>
        obtain ⟨first, rest, rfl, notNewline, -⟩ := isLine.head
        rw [← (List.cons.inj whole).1] at notNewline
        exact absurd isNewline notNewline
  · exact .newline isNewline

/-- Newlines and the end of the file. -/
def IsTail (tail : List Token) : Prop := ∀ t ∈ tail, t.type = .newline ∨ t.type = .eof

theorem IsTail.programText (isTail : IsTail tail) : ProgramText vocabulary tail [] := by
  induction tail with
  | nil => exact .done rfl
  | cons t tail inductionHypothesis =>
      obtain ⟨here, later⟩ := List.forall_mem_cons.mp isTail
      rcases here with isNewline | isEof
      · exact .newline isNewline (inductionHypothesis later)
      · exact .done isEof

theorem IsTail.statements_eq_nil (isTail : IsTail tail)
    (isText : ProgramText vocabulary tail statements) : statements = [] := by
  induction isText with
  | done _ => rfl
  | newline _ _ inductionHypothesis => exact inductionHypothesis (List.forall_mem_cons.mp isTail).2
  | line isLine _ _ _ =>
      obtain ⟨first, rest, rfl, notNewline, notEof⟩ := isLine.head
      exact absurd (isTail first (by simp)) (not_or.mpr ⟨notNewline, notEof⟩)

/-- Newlines at the end change nothing. -/
theorem ProgramText.change_tail (isTail : IsTail tail) (isTail' : IsTail tail')
    (isText : ProgramText vocabulary (tokens ++ tail) statements) :
    ProgramText vocabulary (tokens ++ tail') statements := by
  generalize whole : tokens ++ tail = all at isText
  -- before the tails the two lists start alike
  have ends : ∀ {tokens : List Token}, EndsLine (tokens ++ tail) → EndsLine (tokens ++ tail') := by
    intro tokens isEnd
    cases tokens with
    | cons t tokens => exact isEnd
    | nil =>
        cases tail' with
        | nil => exact .inr rfl
        | cons t tail' => exact isTail' t List.mem_cons_self
  induction isText generalizing tokens with
  | done isEnd =>
      cases tokens with
      | nil => exact isTail'.programText
      | cons t tokens =>
          rw [← whole] at isEnd
          exact .done isEnd
  | newline isNewline isRest inductionHypothesis =>
      cases tokens with
      | nil =>
          have isText := ProgramText.newline isNewline isRest
          rw [← whole] at isText
          rw [isTail.statements_eq_nil isText]
          exact isTail'.programText
      | cons t tokens =>
          obtain ⟨rfl, same⟩ := List.cons.inj whole
          exact .newline isNewline (inductionHypothesis same)
  | line isLine isEnd _ inductionHypothesis =>
      rcases List.append_eq_append_iff.mp whole with ⟨more, rfl, same⟩ | ⟨more, rfl, same⟩
      · cases more with
        | nil =>
            rw [List.nil_append] at same
            rw [List.append_nil] at isLine
            rw [← same] at isEnd
            exact .line isLine (@ends [] isEnd) (@inductionHypothesis [] same)
        | cons t more =>
            have inLine := isLine.inLine t (by simp)
            rw [isLineEnd, Bool.or_eq_false_iff, decide_eq_false_iff_not,
              decide_eq_false_iff_not] at inLine
            exact absurd (isTail t (by rw [same]; simp)) (not_or.mpr inLine)
      · rw [List.append_assoc]
        rw [same] at isEnd
        exact .line isLine (ends isEnd) (inductionHypothesis same.symm)

/-! ## Lexemes -/

/-- What a program of these lexemes gives, without spans. -/
def Gives (vocabulary : Vocabulary) (lexemes : List Lexeme) (spanless : List Instruction) : Prop :=
  ∃ tokens statements, tokens.map Token.lexeme = lexemes ∧
    ProgramText vocabulary tokens statements ∧ statements.map (Instruction.renamed id) = spanless

/-- Tokens of given lexemes. -/
def plainTokens (lexemes : List Lexeme) : List Token :=
  lexemes.map fun lexeme => ⟨lexeme.1, lexeme.2, 0, 0, 0⟩

theorem lexeme_plainTokens (lexemes : List Lexeme) :
    (plainTokens lexemes).map Token.lexeme = lexemes := by
  rw [plainTokens, List.map_map]
  exact List.map_id lexemes

variable {lexemes : List Lexeme} {spanless : List Instruction}

/-- All tokens of the same lexemes give the same. -/
theorem gives_iff (isLexemes : tokens.map Token.lexeme = lexemes) :
    Gives vocabulary lexemes spanless ↔ ∃ statements, ProgramText vocabulary tokens statements ∧
      statements.map (Instruction.renamed id) = spanless := by
  constructor
  · rintro ⟨others, read, same, isText, rfl⟩
    have renamed : TokensRenamed id .line others tokens := by
      rw [TokensRenamed, same, isLexemes]
      exact .same .line lexemes
    obtain ⟨statements, isText', sameStatements⟩ :=
      isText.renamed (.refl vocabulary) (.inl rfl) renamed
    exact ⟨statements, isText', map_renamed sameStatements⟩
  · rintro ⟨statements, isText, spanless⟩
    exact ⟨tokens, statements, isLexemes, isText, spanless⟩

theorem gives_newline {value : List UInt8} :
    Gives vocabulary ((.newline, value) :: lexemes) spanless ↔
      Gives vocabulary lexemes spanless := by
  have whole : List.map Token.lexeme (⟨.newline, value, 0, 0, 0⟩ :: plainTokens lexemes) =
      (.newline, value) :: lexemes := by
    rw [List.map_cons, lexeme_plainTokens]
    rfl
  rw [gives_iff (lexeme_plainTokens lexemes), gives_iff whole]
  exact exists_congr fun _ => and_congr_left fun _ => programText_newline rfl

theorem gives_finalNewline {value last : List UInt8} :
    Gives vocabulary (lexemes ++ [(.newline, value), (.eof, last)]) spanless ↔
      Gives vocabulary (lexemes ++ [(.eof, last)]) spanless := by
  have two : IsTail [⟨.newline, value, 0, 0, 0⟩, ⟨.eof, last, 0, 0, 0⟩] := by simp [IsTail]
  have one : IsTail [⟨.eof, last, 0, 0, 0⟩] := by simp [IsTail]
  have lexemesTwo : List.map Token.lexeme (plainTokens lexemes ++
      [⟨.newline, value, 0, 0, 0⟩, ⟨.eof, last, 0, 0, 0⟩]) =
        lexemes ++ [(.newline, value), (.eof, last)] := by
    rw [List.map_append, lexeme_plainTokens]
    rfl
  have lexemesOne : List.map Token.lexeme (plainTokens lexemes ++ [⟨.eof, last, 0, 0, 0⟩]) =
      lexemes ++ [(.eof, last)] := by
    rw [List.map_append, lexeme_plainTokens]
    rfl
  rw [gives_iff lexemesTwo, gives_iff lexemesOne]
  exact exists_congr fun _ => and_congr_left fun _ =>
    ⟨.change_tail two one, .change_tail one two⟩

/-- What the parser returns depends on the lexemes only. -/
theorem parserParse_gives {array : TokenArray} (isLexemes : array.data.map Token.lexeme = lexemes) :
    (errorHasAny (@parserParse vocabulary array).errors = false ∧
        (@parserParse vocabulary array).instructions.data.map (Instruction.renamed id) = spanless) ↔
      Gives vocabulary lexemes spanless := by
  rw [gives_iff isLexemes]
  constructor
  · rintro ⟨clean, isSpanless⟩
    exact ⟨_, parserParse_iff.mp ⟨clean, rfl⟩, isSpanless⟩
  · rintro ⟨statements, isText, isSpanless⟩
    obtain ⟨clean, rfl⟩ := parserParse_iff.mpr isText
    exact ⟨clean, isSpanless⟩

end Newlines

end Nazm.Parser
