import Nazm.Lexer.LayoutEdits
import Nazm.Parser.Newlines

/-!
Sources put together from lines.

Owns what a source text denotes (the statements that its pieces give, without
spans), and that texts one after another, cut at a newline, denote what they denote
alone.

Does not own what a single line denotes.
-/

namespace Nazm.Parser

open Nazm.Encoder Nazm.Lexer Nazm.Unicode Nazm.Diagnostics

/-! ## Lexemes -/

section Lexemes

variable {before after : List Piece}

/-- After a newline the lexemes start anew. -/
theorem lexemes_newline (afterNewline : Bool) :
    lexemes afterNewline (before ++ .newline :: after) =
      lexemes afterNewline (before ++ [.newline]) ++ lexemes true after := by
  induction before generalizing afterNewline with
  | nil => cases afterNewline <;> rfl
  | cons piece before inductionHypothesis =>
      cases piece with
      | blank => exact inductionHypothesis afterNewline
      | comment => exact inductionHypothesis afterNewline
      | newline =>
          cases afterNewline with
          | true => exact inductionHypothesis true
          | false => exact congrArg ((.newline, [0x0A]) :: ·) (inductionHypothesis true)
      | token lexeme =>
          rw [List.cons_append, List.cons_append, lexemes, lexemes]
          exact congrArg (lexeme :: ·) (inductionHypothesis _)

theorem canonical_newline :
    canonical (before ++ .newline :: after) = canonical before ++ canonical after := by
  rw [canonical, List.append_assoc, List.cons_append, lexemes_newline]
  rfl

/-- Lexemes up to a newline are none or end in one. -/
theorem lexemes_snoc_newline (pieces : List Piece) (afterNewline : Bool) :
    (afterNewline = true ∧ lexemes afterNewline (pieces ++ [.newline]) = []) ∨
      ∃ start last, lexemes afterNewline (pieces ++ [.newline]) = start ++ [last] ∧
        last.1 = .newline := by
  induction pieces generalizing afterNewline with
  | nil =>
      cases afterNewline with
      | true => exact .inl ⟨rfl, rfl⟩
      | false => exact .inr ⟨[], (.newline, [0x0A]), rfl, rfl⟩
  | cons piece pieces inductionHypothesis =>
      have more : ∀ (lexeme : Lexeme) (after : Bool),
          (after = true → lexeme.1 = .newline) →
          ∃ start last, lexeme :: lexemes after (pieces ++ [.newline]) = start ++ [last] ∧
            last.1 = .newline := by
        intro lexeme after type
        rcases inductionHypothesis after with ⟨isAfter, none⟩ | ⟨start, last, same, isLast⟩
        · exact ⟨[], lexeme, by rw [none]; rfl, type isAfter⟩
        · exact ⟨lexeme :: start, last, by rw [same]; rfl, isLast⟩
      cases piece with
      | blank => exact inductionHypothesis afterNewline
      | comment => exact inductionHypothesis afterNewline
      | newline =>
          cases afterNewline with
          | true => exact inductionHypothesis true
          | false => exact .inr (more (.newline, [0x0A]) true fun _ => rfl)
      | token lexeme =>
          rw [List.cons_append, lexemes]
          exact .inr (more lexeme _ of_decide_eq_true)

theorem canonical_end (pieces : List Piece) :
    canonical pieces = [] ∨ ∃ start last, canonical pieces = start ++ [last] ∧
      last.1 = .newline :=
  (lexemes_snoc_newline pieces true).imp And.right id

/-- No token of a source is its end. -/
theorem notEof_of_spells {vocabulary : Vocabulary} {text : List UInt8} {lexeme : Lexeme}
    {next : Option Nat} (spells : Spells vocabulary text (.token lexeme) next) :
    lexeme.1 ≠ .eof := by
  generalize isPiece : Piece.token lexeme = piece at spells
  cases spells with
  | blank | newline | comment => contradiction
  | single _ isToken =>
      obtain rfl := Piece.token.inj isPiece
      intro isEof
      unfold singleCharToken at isToken
      grind
  | minus | number | negative | directive | string | labelDef =>
      obtain rfl := Piece.token.inj isPiece
      exact fun isEof => by contradiction
  | word _ _ _ isType =>
      obtain rfl := Piece.token.inj isPiece
      intro isEof
      unfold wordType at isType
      grind

theorem lexemes_notEof {vocabulary : Vocabulary} {text : List UInt8} {pieces : List Piece}
    (spelled : Spelled vocabulary text pieces) (afterNewline : Bool) :
    ∀ lexeme ∈ lexemes afterNewline pieces, lexeme.1 ≠ .eof := by
  induction spelled generalizing afterNewline with
  | nil => exact fun _ member => absurd member (by simp [lexemes])
  | @cons _ _ piece pieces spells _ inductionHypothesis =>
      cases piece with
      | blank => exact inductionHypothesis afterNewline
      | comment => exact inductionHypothesis afterNewline
      | newline =>
          cases afterNewline with
          | true => exact inductionHypothesis true
          | false => exact List.forall_mem_cons.mpr ⟨by decide, inductionHypothesis true⟩
      | token lexeme =>
          rw [lexemes]
          exact List.forall_mem_cons.mpr ⟨notEof_of_spells spells, inductionHypothesis _⟩

end Lexemes

/-! ## Programs -/

section Programs

variable {vocabulary : Vocabulary} {text tokens : List Token} {t : Token}
  {statements front back : List Instruction}

/-- The first newline that a text shows stands after its first line. -/
theorem newline_after {line rest : List Token} {instr : Instruction} (isNewline : t.type = .newline)
    (isLine : LineText vocabulary line instr) (whole : text ++ t :: tokens = line ++ rest) :
    ∃ more, text = line ++ more ∧ rest = more ++ t :: tokens := by
  rcases List.append_eq_append_iff.mp whole with ⟨more, isLine', isRest⟩ | ⟨more, isText, isRest⟩
  · cases more with
    | nil =>
        rw [List.append_nil] at isLine'
        exact ⟨[], by rw [List.append_nil, isLine'], isRest.symm⟩
    | cons u more =>
        obtain ⟨rfl, -⟩ := List.cons.inj isRest
        have inLine := isLine.inLine t (by rw [isLine']; simp)
        simp [isLineEnd, isNewline] at inLine
  · exact ⟨more, isText, isRest⟩

/-- Programs one after another are a program. -/
theorem ProgramText.append (isNewline : t.type = .newline) (notEof : ∀ u ∈ text, u.type ≠ .eof)
    (isFront : ProgramText vocabulary (text ++ [t]) front)
    (isBack : ProgramText vocabulary tokens back) :
    ProgramText vocabulary (text ++ t :: tokens) (front ++ back) := by
  generalize whole : text ++ [t] = all at isFront
  induction isFront generalizing text with
  | done isEnd =>
      cases text with
      | nil =>
          rw [← whole] at isEnd
          exact absurd (isNewline.symm.trans isEnd) (by decide)
      | cons u text =>
          rw [← whole] at isEnd
          exact absurd isEnd (notEof u List.mem_cons_self)
  | newline isFirst isRest inductionHypothesis =>
      cases text with
      | nil =>
          obtain ⟨rfl, rfl⟩ := List.cons.inj whole
          have nothing : IsTail [] := fun _ member => absurd member List.not_mem_nil
          rw [nothing.statements_eq_nil isRest]
          exact .newline isFirst isBack
      | cons u text =>
          obtain ⟨rfl, same⟩ := List.cons.inj whole
          exact .newline isFirst
            (inductionHypothesis (fun other member => notEof other (by simp [member])) same)
  | @line line rest instr statements isLine lineEnd _ inductionHypothesis =>
      obtain ⟨more, rfl, rfl⟩ := newline_after isNewline isLine whole
      have lineEnd' : EndsLine (more ++ t :: tokens) := by
        cases more with
        | nil => exact .inl isNewline
        | cons u more => exact lineEnd
      rw [List.append_assoc, List.cons_append]
      exact .line isLine lineEnd'
        (inductionHypothesis (fun u member => notEof u (List.mem_append_right _ member)) rfl)

/-- A program falls apart at a newline. -/
theorem ProgramText.split (isNewline : t.type = .newline) (notEof : ∀ u ∈ text, u.type ≠ .eof)
    (isText : ProgramText vocabulary (text ++ t :: tokens) statements) :
    ∃ front back, statements = front ++ back ∧ ProgramText vocabulary (text ++ [t]) front ∧
      ProgramText vocabulary tokens back := by
  generalize whole : text ++ t :: tokens = all at isText
  induction isText generalizing text with
  | done isEnd =>
      cases text with
      | nil =>
          rw [← whole] at isEnd
          exact absurd (isNewline.symm.trans isEnd) (by decide)
      | cons u text =>
          rw [← whole] at isEnd
          exact absurd isEnd (notEof u List.mem_cons_self)
  | newline isFirst isRest inductionHypothesis =>
      cases text with
      | nil =>
          obtain ⟨rfl, rfl⟩ := List.cons.inj whole
          exact ⟨[], _, rfl, .newline isFirst (.done rfl), isRest⟩
      | cons u text =>
          obtain ⟨rfl, same⟩ := List.cons.inj whole
          obtain ⟨front, back, isWhole, isFront, isBack⟩ :=
            inductionHypothesis (fun other member => notEof other (by simp [member])) same
          exact ⟨front, back, isWhole, .newline isFirst isFront, isBack⟩
  | @line line rest instr statements isLine lineEnd _ inductionHypothesis =>
      obtain ⟨more, rfl, rfl⟩ := newline_after isNewline isLine whole
      have lineEnd' : EndsLine (more ++ [t]) := by
        cases more with
        | nil => exact .inl isNewline
        | cons u more => exact lineEnd
      obtain ⟨front, back, rfl, isFront, isBack⟩ :=
        inductionHypothesis (fun u member => notEof u (List.mem_append_right _ member)) rfl
      rw [List.append_assoc]
      exact ⟨instr :: front, back, rfl, .line isLine lineEnd' isFront, isBack⟩

end Programs

/-! ## What lexemes give -/

section Lexemes

variable {vocabulary : Vocabulary} {first second : List Lexeme} {spanless : List Instruction}

theorem gives_eof : Gives vocabulary [(.eof, [])] spanless ↔ spanless = [] := by
  have isTail : IsTail [⟨.eof, [], 0, 0, 0⟩] := by simp [IsTail]
  have isLexemes : List.map Token.lexeme [⟨.eof, [], 0, 0, 0⟩] = [(.eof, [])] := rfl
  rw [gives_iff isLexemes]
  constructor
  · rintro ⟨statements, isText, rfl⟩
    rw [isTail.statements_eq_nil isText, List.map_nil]
  · rintro rfl
    exact ⟨[], isTail.programText, rfl⟩

/-- Lexemes up to a newline give their statements before those of the others. -/
theorem gives_append (notEof : ∀ lexeme ∈ first, lexeme.1 ≠ .eof)
    (ends : first = [] ∨ ∃ start last, first = start ++ [last] ∧ last.1 = .newline) :
    Gives vocabulary (first ++ second ++ [(.eof, [])]) spanless ↔
      ∃ front back, spanless = front ++ back ∧
        Gives vocabulary (first ++ [(.eof, [])]) front ∧
        Gives vocabulary (second ++ [(.eof, [])]) back := by
  rcases ends with rfl | ⟨start, last, rfl, isNewline⟩
  · simp [gives_eof]
  · have whole : List.map Token.lexeme (plainTokens start ++ ⟨last.1, last.2, 0, 0, 0⟩ ::
        plainTokens (second ++ [(.eof, [])])) = start ++ [last] ++ second ++ [(.eof, [])] := by
      simp only [List.map_append, List.map_cons, lexeme_plainTokens, Token.lexeme, List.append_assoc,
        List.cons_append, List.nil_append]
    have frontOnly : List.map Token.lexeme (plainTokens start ++
        [⟨last.1, last.2, 0, 0, 0⟩, ⟨.eof, [], 0, 0, 0⟩]) = start ++ [last] ++ [(.eof, [])] := by
      simp only [List.map_append, List.map_cons, List.map_nil, lexeme_plainTokens, Token.lexeme,
        List.append_assoc, List.singleton_append]
    have plainNotEof : ∀ t ∈ plainTokens start, t.type ≠ .eof := by
      intro t member
      obtain ⟨lexeme, inStart, rfl⟩ := List.mem_map.mp member
      exact notEof lexeme (List.mem_append_left _ inStart)
    have one : IsTail [⟨last.1, last.2, 0, 0, 0⟩] := by simp [IsTail, isNewline]
    have two : IsTail [⟨last.1, last.2, 0, 0, 0⟩, ⟨.eof, [], 0, 0, 0⟩] := by
      simp [IsTail, isNewline]
    simp only [gives_iff whole, gives_iff frontOnly, gives_iff (lexeme_plainTokens _)]
    constructor
    · rintro ⟨statements, isText, rfl⟩
      obtain ⟨front, back, rfl, isFront, isBack⟩ := isText.split isNewline plainNotEof
      exact ⟨_, _, List.map_append .., ⟨front, isFront.change_tail one two, rfl⟩,
        back, isBack, rfl⟩
    · rintro ⟨_, _, rfl, ⟨front, isFront, rfl⟩, back, isBack, rfl⟩
      exact ⟨front ++ back, (isFront.change_tail two one).append isNewline plainNotEof isBack,
        List.map_append ..⟩

end Lexemes

/-! ## What a text denotes -/

/-- The lexer and the parser accept a text, and these are its statements without
spans. -/
def Denotes (text : List UInt8) (spanless : List Instruction) : Prop :=
  ∃ pieces, Spelled .nazm text pieces ∧ Gives .nazm (canonical pieces ++ [(.eof, [])]) spanless

/-- Only the canonical lexemes matter to the parser. -/
theorem gives_lexemes {vocabulary : Vocabulary} (pieces : List Piece)
    {spanless : List Instruction} :
    Gives vocabulary (lexemes false pieces ++ [(.eof, [])]) spanless ↔
      Gives vocabulary (canonical pieces ++ [(.eof, [])]) spanless := by
  have start : Gives vocabulary (lexemes false pieces ++ [(.eof, [])]) spanless ↔
      Gives vocabulary (lexemes true pieces ++ [(.eof, [])]) spanless := by
    rcases lexemes_start pieces with same | same
    · rw [same]
    · rw [same, List.cons_append, gives_newline]
  rw [start, canonical]
  rcases lexemes_end pieces true with same | same
  · rw [same]
  · rw [same, List.append_assoc]
    exact gives_finalNewline.symm

theorem denotes_iff {src : SourceBuffer} {spanless : List Instruction} :
    Denotes src.data spanless ↔ errorHasAny (lexerLex src).errors = false ∧
      errorHasAny (parserParse (lexerLex src).tokens).errors = false ∧
      (parserParse (lexerLex src).tokens).instructions.data.map (Instruction.renamed id) =
        spanless := by
  have parsed : ∀ {pieces : List Piece}, Spelled .nazm src.data pieces →
      ((errorHasAny (parserParse (lexerLex src).tokens).errors = false ∧
        (parserParse (lexerLex src).tokens).instructions.data.map (Instruction.renamed id) =
          spanless) ↔ Gives .nazm (canonical pieces ++ [(.eof, [])]) spanless) := by
    intro pieces spelled
    rw [← gives_lexemes, ← parserParse_gives (lexerLex_spelled spelled).2]
  constructor
  · rintro ⟨pieces, spelled, gives⟩
    exact ⟨lexerLex_iff.mpr ⟨pieces, spelled⟩, (parsed spelled).mpr gives⟩
  · rintro ⟨lexed, rest⟩
    obtain ⟨pieces, spelled⟩ := lexerLex_iff.mp lexed
    exact ⟨pieces, spelled, (parsed spelled).mp rest⟩

section Texts

variable {front back text : List UInt8} {spanless : List Instruction}

theorem Denotes.unique {one two : List Instruction} (denotes : Denotes text one) (denotes' : Denotes text two) :
    one = two := by
  have whole : (⟨text, none⟩ : SourceBuffer).data = text := rfl
  rw [← whole, denotes_iff] at denotes denotes'
  rw [← denotes.2.2, denotes'.2.2]

theorem spelled_nil {pieces : List Piece} (spelled : Spelled .nazm [] pieces) : pieces = [] := by
  generalize empty : ([] : List UInt8) = text at spelled
  cases spelled with
  | nil => rfl
  | cons spells _ => exact absurd (List.append_eq_nil_iff.mp empty.symm).1 spells.nonempty

theorem denotes_nil : Denotes [] spanless ↔ spanless = [] := by
  rw [← @gives_eof .nazm]
  constructor
  · rintro ⟨pieces, spelled, gives⟩
    obtain rfl := spelled_nil spelled
    exact gives
  · exact fun gives => ⟨[], .nil, gives⟩

/-- A newline at the end changes nothing. -/
theorem denotes_finalNewline : Denotes (text ++ [0x0A]) spanless ↔ Denotes text spanless := by
  constructor
  · rintro ⟨pieces, spelled, gives⟩
    obtain ⟨pieces', spelled', same⟩ := sameLayout_dropFinal text pieces spelled
    exact ⟨pieces', spelled', same ▸ gives⟩
  · rintro ⟨pieces, spelled, gives⟩
    obtain ⟨pieces', spelled', same⟩ := sameLayout_addFinal text pieces spelled
    exact ⟨pieces', spelled', same ▸ gives⟩

/-- Texts one after another denote what they denote alone. -/
theorem denotes_append (fresh : front = [] ∨ ∃ start, front = start ++ [0x0A]) :
    Denotes (front ++ back) spanless ↔
      ∃ one two, spanless = one ++ two ∧ Denotes front one ∧ Denotes back two := by
  rcases fresh with rfl | ⟨start, rfl⟩
  · simp [denotes_nil]
  · have together : ∀ {before after : List Piece}, SpelledBefore .nazm (0x0A :: back) start before →
        (Gives .nazm (canonical (before ++ .newline :: after) ++ [(.eof, [])]) spanless ↔
          ∃ one two, spanless = one ++ two ∧
            Gives .nazm (canonical before ++ [(.eof, [])]) one ∧
            Gives .nazm (canonical after ++ [(.eof, [])]) two) := by
      intro before after isStart
      have same : firstCodepoint [0x0A] = firstCodepoint (0x0A :: back) := by
        rw [firstCodepoint_ascii (by decide), firstCodepoint_ascii (by decide)]
      have line := (isStart.congr same).join (spelled_newline .nil)
      rw [canonical_newline]
      exact gives_append (lexemes_notEof line true) (canonical_end before)
    have denotesStart : ∀ {one : List Instruction}, Denotes (start ++ [0x0A]) one ↔
        Denotes start one := denotes_finalNewline
    rw [List.append_assoc, List.singleton_append]
    simp only [denotesStart]
    constructor
    · rintro ⟨pieces, spelled, gives⟩
      obtain ⟨before, after, rfl, isStart, isBack⟩ := split_newline spelled rfl
      obtain ⟨one, two, rfl, givesOne, givesTwo⟩ := (together isStart).mp gives
      have alone : SpelledBefore .nazm [] start before :=
        isStart.separated (by decide) fun _ => .inl rfl
      have whole := alone.join .nil
      rw [List.append_nil, List.append_nil] at whole
      exact ⟨one, two, rfl, ⟨before, whole, givesOne⟩, after, isBack, givesTwo⟩
    · rintro ⟨one, two, rfl, ⟨before, isStart, givesOne⟩, after, isBack, givesTwo⟩
      have newline : firstCodepoint (0x0A :: back) = some 0x0A :=
        firstCodepoint_ascii (by decide) back
      have separated : SpelledBefore .nazm (0x0A :: back) start before :=
        (spelledBefore_of_spelled isStart).separated (by rw [newline]; decide) fun _ =>
          .inr newline
      exact ⟨before ++ .newline :: after, separated.join (spelled_newline isBack),
        (together separated).mpr ⟨one, two, rfl, givesOne, givesTwo⟩⟩

theorem denotes_newline : Denotes (0x0A :: text) spanless ↔ Denotes text spanless := by
  have nothing : ∀ {one : List Instruction}, Denotes [0x0A] one ↔ one = [] := fun {one} =>
    (@denotes_finalNewline [] one).trans denotes_nil
  have apart : Denotes ([0x0A] ++ text) spanless ↔ ∃ one two, spanless = one ++ two ∧
      Denotes [0x0A] one ∧ Denotes text two := denotes_append (.inr ⟨[], rfl⟩)
  rw [← List.singleton_append, apart]
  simp only [nothing]
  constructor
  · rintro ⟨_, two, rfl, rfl, denotes⟩
    exact denotes
  · exact fun denotes => ⟨[], spanless, rfl, rfl, denotes⟩

end Texts

/-! ## Lines -/

/-- Spaces, tabs and carriage returns only. -/
def Blanks (text : List UInt8) : Prop := ∀ byte ∈ text, isBlankByte byte = true

/-- A text within a line that gives these lexemes. -/
def SpelledAs (text : List UInt8) (given : List Lexeme) : Prop :=
  ∃ pieces, Spelled .nazm text pieces ∧ ∀ afterNewline more,
    lexemes afterNewline (pieces ++ more) =
      given ++ lexemes (afterNewline && given.isEmpty) more

section Line

variable {text rest : List UInt8} {given : List Lexeme} {lexeme : Lexeme}

theorem spelledAs_nil : SpelledAs [] [] :=
  ⟨[], .nil, fun afterNewline more => by rw [List.isEmpty_nil, Bool.and_true]; rfl⟩

theorem SpelledAs.blanks {blanks : List UInt8} (areBlank : Blanks blanks)
    (spelled : SpelledAs text given) : SpelledAs (blanks ++ text) given := by
  obtain ⟨pieces, isText, same⟩ := spelled
  refine ⟨_, (spelled_blanks areBlank).mpr ⟨pieces, rfl, isText⟩, fun afterNewline more => ?_⟩
  rw [List.append_assoc, lexemes_blanks, same]

theorem SpelledAs.token (spells : Spells .nazm text (.token lexeme) (firstCodepoint rest))
    (notNewline : lexeme.1 ≠ .newline) (spelled : SpelledAs rest given) :
    SpelledAs (text ++ rest) (lexeme :: given) := by
  obtain ⟨pieces, isRest, same⟩ := spelled
  refine ⟨.token lexeme :: pieces, .cons spells isRest, fun afterNewline more => ?_⟩
  rw [List.cons_append, lexemes_token, same, decide_eq_false notNewline, List.isEmpty_cons,
    Bool.and_false, Bool.false_and]
  rfl

/-- A line whose lexemes are those of a statement denotes the statement. -/
theorem SpelledAs.denotes {instr : Instruction} (spelled : SpelledAs text given)
    (isLine : LineText .nazm (plainTokens given) instr) :
    Denotes text [instr.renamed id] := by
  obtain ⟨pieces, isText, same⟩ := spelled
  have some_ : given ≠ [] := by
    rintro rfl
    obtain ⟨_, _, absurd, -⟩ := LineText.head _ isLine
    contradiction
  have isCanonical : canonical pieces = given ++ [(.newline, [0x0A])] := by
    rw [canonical, same, List.isEmpty_eq_false_iff.mpr some_]
    rfl
  have isLexemes : List.map Token.lexeme (plainTokens given ++
      [⟨.newline, [0x0A], 0, 0, 0⟩, ⟨.eof, [], 0, 0, 0⟩]) =
        given ++ [(.newline, [0x0A])] ++ [(.eof, [])] := by
    rw [List.map_append, lexeme_plainTokens, List.append_assoc]
    rfl
  refine ⟨pieces, isText, ?_⟩
  rw [isCanonical, gives_iff isLexemes]
  exact ⟨[instr], .line isLine (.inl rfl) (.newline rfl (.done rfl)), rfl⟩

end Line

end Nazm.Parser
