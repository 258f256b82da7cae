import Mathlib.Logic.Relation
import Nazm.Lexer.Gaps

/-!
Edits of the layout.

Owns the edits of a source that change its layout only, and that a source and
its edit are spelled by pieces with the same lexemes, up to newlines at the
start and at the end of the file.

Does not own the parser.
-/

namespace Nazm.Lexer

open Utf8
open Nazm.Encoder Nazm.Unicode Nazm.Diagnostics

/-! ## Edits -/

/-- A turn of the main loop over `front ++ back` ends before `back`. -/
def TurnEnds (front back : List UInt8) : Prop :=
  ∃ turns, (lexLoop turns ⟨front ++ back, 1, 1, [], .empty, none⟩).rest = back

/-- A point that lies inside no token: where a turn ends, or in a comment. -/
def OutsideTokens (front back : List UInt8) : Prop :=
  TurnEnds front back ∨
    ∃ start text, front = start ++ 0x3B :: text ∧ TurnEnds start (0x3B :: text ++ back) ∧
      WellFormed text ∧ 0x0A ∉ text

/-- The text of a comment after its semicolon. -/
def IsCommentText (text : List UInt8) : Prop := WellFormed text ∧ 0x0A ∉ text

/-- The text of a line without a statement. -/
def IsEmptyLine (text : List UInt8) : Prop :=
  ∃ blanks comment, (∀ byte ∈ blanks, isBlankByte byte = true) ∧
    (comment = [] ∨ ∃ words, comment = 0x3B :: words ∧ IsCommentText words) ∧
    text = blanks ++ comment

/-- One edit of the layout of a source. -/
inductive LayoutEdit : List UInt8 → List UInt8 → Prop where
  | blanks {front back blanks : List UInt8} :
      (∀ byte ∈ blanks, isBlankByte byte = true) → OutsideTokens front back ∨ AtLineEnd back →
      LayoutEdit (front ++ back) (front ++ (blanks ++ back))
  | comment {front back words : List UInt8} :
      IsCommentText words → AtLineEnd back →
      LayoutEdit (front ++ back) (front ++ (0x3B :: words ++ back))
  | line {front back text : List UInt8} :
      front = [] ∨ (∃ start, front = start ++ [0x0A]) → IsEmptyLine text →
      LayoutEdit (front ++ back) (front ++ (text ++ 0x0A :: back))
  | carriage {front back : List UInt8} :
      LayoutEdit (front ++ 0x0A :: back) (front ++ 0x0D :: 0x0A :: back)
  | addFinal {text : List UInt8} : LayoutEdit text (text ++ [0x0A])
  | dropFinal {text : List UInt8} : LayoutEdit (text ++ [0x0A]) text

/-- A source with CRLF for every newline. -/
def crlf (text : List UInt8) : List UInt8 :=
  text.flatMap fun byte => if byte = 0x0A then [0x0D, 0x0A] else [byte]

/-- Turning every line end into CRLF is a number of edits. -/
theorem crlf_edits (front text : List UInt8) :
    Relation.ReflTransGen LayoutEdit (front ++ text) (front ++ crlf text) := by
  induction text generalizing front with
  | nil => exact .refl
  | cons byte text inductionHypothesis =>
      by_cases isNewline : byte = 0x0A
      · subst isNewline
        have rest := inductionHypothesis (front ++ [0x0D, 0x0A])
        rw [List.append_assoc, List.append_assoc] at rest
        exact .head .carriage rest
      · have rest := inductionHypothesis (front ++ [byte])
        rw [List.append_assoc, List.append_assoc] at rest
        have same : crlf (byte :: text) = [byte] ++ crlf text := by
          rw [crlf, List.flatMap_cons, if_neg isNewline]
          rfl
        rwa [same]

/-! ## Pieces with the same lexemes -/

/-- The lexemes of some pieces, with no newline at the start and one at the end. -/
def canonical (pieces : List Piece) : List Lexeme := lexemes true (pieces ++ [.newline])

theorem lexemes_congr {before after after' : List Piece}
    (same : ∀ afterNewline, lexemes afterNewline after = lexemes afterNewline after')
    (afterNewline : Bool) :
    lexemes afterNewline (before ++ after) = lexemes afterNewline (before ++ after') := by
  induction before generalizing afterNewline with
  | nil => exact same afterNewline
  | cons piece before inductionHypothesis =>
      cases piece with
      | blank => exact inductionHypothesis afterNewline
      | comment => exact inductionHypothesis afterNewline
      | newline =>
          cases afterNewline with
          | true => exact inductionHypothesis true
          | false => exact congrArg ((.newline, [0x0A]) :: ·) (inductionHypothesis true)
      | token lexeme =>
          rw [List.cons_append, List.cons_append, lexemes, lexemes]
          exact congrArg (lexeme :: ·) (inductionHypothesis _)

theorem canonical_congr {before after after' : List Piece}
    (same : ∀ last afterNewline,
      lexemes afterNewline (after ++ last) = lexemes afterNewline (after' ++ last)) :
    canonical (before ++ after) = canonical (before ++ after') := by
  rw [canonical, canonical, List.append_assoc, List.append_assoc]
  exact lexemes_congr (same [.newline]) true

theorem lexemes_start (pieces : List Piece) :
    lexemes false pieces = lexemes true pieces ∨
      lexemes false pieces = (.newline, [0x0A]) :: lexemes true pieces := by
  induction pieces with
  | nil => exact .inl rfl
  | cons piece pieces inductionHypothesis =>
      cases piece with
      | blank => exact inductionHypothesis
      | comment => exact inductionHypothesis
      | newline => exact .inr rfl
      | token lexeme => exact .inl (by rw [lexemes, lexemes])

theorem lexemes_end (pieces : List Piece) (afterNewline : Bool) :
    lexemes afterNewline (pieces ++ [.newline]) = lexemes afterNewline pieces ∨
      lexemes afterNewline (pieces ++ [.newline]) =
        lexemes afterNewline pieces ++ [(.newline, [0x0A])] := by
  induction pieces generalizing afterNewline with
  | nil =>
      cases afterNewline with
      | true => exact .inl rfl
      | false => exact .inr rfl
  | cons piece pieces inductionHypothesis =>
      cases piece with
      | blank => exact inductionHypothesis afterNewline
      | comment => exact inductionHypothesis afterNewline
      | newline =>
          cases afterNewline with
          | true => exact inductionHypothesis true
          | false =>
              exact (inductionHypothesis true).imp (congrArg ((TokenType.newline, [0x0A]) :: ·))
                (congrArg ((TokenType.newline, [0x0A]) :: ·))
      | token lexeme =>
          rw [List.cons_append, lexemes, lexemes]
          exact (inductionHypothesis _).imp (congrArg (lexeme :: ·)) (congrArg (lexeme :: ·))

theorem lexemes_blanks (count : Nat) (pieces : List Piece) (afterNewline : Bool) :
    lexemes afterNewline (List.replicate count .blank ++ pieces) = lexemes afterNewline pieces := by
  induction count with
  | zero => rfl
  | succ count inductionHypothesis => exact inductionHypothesis

/-- Each spelling of the first source has the lexemes of one of the second. -/
def SameLayout (text text' : List UInt8) : Prop :=
  ∀ pieces, Spelled .nazm text pieces →
    ∃ pieces', Spelled .nazm text' pieces' ∧ canonical pieces' = canonical pieces

theorem SameLayout.trans {first second third : List UInt8} (one : SameLayout first second)
    (two : SameLayout second third) : SameLayout first third := fun pieces spelled => by
  obtain ⟨middle, isMiddle, same⟩ := one pieces spelled
  obtain ⟨last, isLast, same'⟩ := two middle isMiddle
  exact ⟨last, isLast, same'.trans same⟩

section Edits

variable {front back : List UInt8} {pieces : List Piece}

/-! ## Insertions -/

theorem blank_small {byte : UInt8} (isBlank : isBlankByte byte = true) :
    byte.toNat < 0x80 ∧ byte.toNat ≠ 0x0A ∧ some byte.toNat ∈ separators := by
  rcases isBlankByte_iff.mp isBlank with rfl | rfl | rfl <;> decide

theorem separators_of_blank {byte : UInt8} {rest : List UInt8} (isBlank : isBlankByte byte = true) :
    firstCodepoint (byte :: rest) ∈ separators := by
  obtain ⟨small, -, separates⟩ := blank_small isBlank
  rwa [firstCodepoint_ascii small]

theorem blank_codepoints {blanks : List UInt8}
    (areBlank : ∀ byte ∈ blanks, isBlankByte byte = true) :
    ∃ cps, Codepoints blanks cps ∧ 0x0A ∉ cps := by
  induction blanks with
  | nil => exact ⟨[], .nil, List.not_mem_nil⟩
  | cons byte blanks inductionHypothesis =>
      obtain ⟨isBlank, areBlank⟩ := List.forall_mem_cons.mp areBlank
      obtain ⟨cps, isText, oneLine⟩ := inductionHypothesis areBlank
      obtain ⟨small, notNewline, -⟩ := blank_small isBlank
      refine ⟨byte.toNat :: cps, .cons (.ascii small) isText, fun member => ?_⟩
      rcases List.mem_cons.mp member with same | later
      · exact notNewline same.symm
      · exact oneLine later

/-- Text without a newline may be inserted into a comment. -/
theorem spelled_inside {start left right rest words : List UInt8} {used unread cps : List Nat}
    {before after : List Piece}
    (spelled : SpelledBefore .nazm (0x3B :: (left ++ right) ++ rest) start before)
    (isLeft : Codepoints left used) (isRight : Codepoints right unread)
    (isWords : Codepoints words cps) (clean : 0x0A ∉ used) (clean' : 0x0A ∉ unread)
    (oneLine : 0x0A ∉ cps) (ends : EndsComment (firstCodepoint rest))
    (isRest : Spelled .nazm rest after) :
    Spelled .nazm (start ++ 0x3B :: left ++ (words ++ (right ++ rest)))
      (before ++ .comment :: after) := by
  have isComment : Spells .nazm (0x3B :: (left ++ words ++ right)) .comment (firstCodepoint rest) :=
    .comment ((isLeft.append isWords).append isRight) (by simp [clean, clean', oneLine]) ends
  have same : firstCodepoint (0x3B :: (left ++ words ++ right) ++ rest) =
      firstCodepoint (0x3B :: (left ++ right) ++ rest) := by
    rw [List.cons_append, List.cons_append, firstCodepoint_ascii (by decide),
      firstCodepoint_ascii (by decide)]
  have whole := (spelled.congr same).join (.cons isComment isRest)
  have text : start ++ (0x3B :: (left ++ words ++ right) ++ rest) =
      start ++ 0x3B :: left ++ (words ++ (right ++ rest)) := by simp
  rwa [text] at whole

theorem Gap.insert_blanks {blanks : List UInt8} (gap : Gap .nazm front back pieces)
    (areBlank : ∀ byte ∈ blanks, isBlankByte byte = true) :
    ∃ pieces', Spelled .nazm (front ++ (blanks ++ back)) pieces' ∧
      canonical pieces' = canonical pieces := by
  cases gap with
  | @between front back before after notComment spelled rest =>
      cases blanks with
      | nil => exact ⟨_, spelled.join rest, rfl⟩
      | cons byte blanks =>
          have separated : SpelledBefore .nazm (byte :: blanks ++ back) front before :=
            spelled.separated (separators_of_blank (areBlank byte List.mem_cons_self))
              (fun isComment => absurd isComment notComment)
          exact ⟨_, separated.join ((spelled_blanks areBlank).mpr ⟨after, rfl, rest⟩),
            canonical_congr fun last afterNewline => by
              rw [List.append_assoc, lexemes_blanks]⟩
  | inside spelled isLeft isRight clean clean' ends isRest =>
      obtain ⟨cps, isWords, oneLine⟩ := blank_codepoints areBlank
      exact ⟨_, spelled_inside spelled isLeft isRight isWords clean clean' oneLine ends isRest, rfl⟩

/-- Before the end of a line stand at most blanks. -/
theorem AtLineEnd.split (ends : AtLineEnd back) :
    ∃ blanks rest, back = blanks ++ rest ∧ (∀ byte ∈ blanks, isBlankByte byte = true) ∧
      EndsComment (firstCodepoint rest) := by
  cases ends with
  | file => exact ⟨[], [], rfl, List.forall_mem_nil _, .inl rfl⟩
  | newline => exact ⟨[], _, rfl, List.forall_mem_nil _, .inr (firstCodepoint_ascii (by decide) _)⟩
  | carriage =>
      exact ⟨[0x0D], _, rfl, List.forall_mem_singleton.mpr rfl,
        .inr (firstCodepoint_ascii (by decide) _)⟩

theorem IsCommentText.codepoints {words : List UInt8} (isComment : IsCommentText words) :
    ∃ cps, Codepoints words cps ∧ 0x0A ∉ cps := by
  obtain ⟨cps, isText⟩ := codepoints_of_wellFormed isComment.1
  exact ⟨cps, isText, isText.no_newline isComment.2⟩

theorem Gap.insert_comment {words : List UInt8} (gap : Gap .nazm front back pieces)
    (isComment : IsCommentText words) (ends : AtLineEnd back) :
    ∃ pieces', Spelled .nazm (front ++ (0x3B :: words ++ back)) pieces' ∧
      canonical pieces' = canonical pieces := by
  obtain ⟨cps, isWords, oneLine⟩ := isComment.codepoints
  cases gap with
  | @between front back before after notComment spelled rest =>
      obtain ⟨blanks, last, rfl, areBlank, endsComment⟩ := ends.split
      obtain ⟨others, isBlanks, oneLine'⟩ := blank_codepoints areBlank
      obtain ⟨after, rfl, isLast⟩ := (spelled_blanks areBlank).mp rest
      have comment : Spells .nazm (0x3B :: (words ++ blanks)) .comment (firstCodepoint last) :=
        .comment (isWords.append isBlanks) (by simp [oneLine, oneLine']) endsComment
      have separates : firstCodepoint (0x3B :: (words ++ blanks) ++ last) ∈ separators := by
        rw [List.cons_append, firstCodepoint_ascii (by decide)]
        decide
      have separated := spelled.separated separates fun isComment => absurd isComment notComment
      refine ⟨before ++ .comment :: after, ?_, canonical_congr fun last afterNewline => ?_⟩
      · have whole := separated.join (.cons comment isLast)
        have text : front ++ (0x3B :: (words ++ blanks) ++ last) =
            front ++ (0x3B :: words ++ (blanks ++ last)) := by simp
        rwa [text] at whole
      · rw [List.append_assoc, lexemes_blanks]
        rfl
  | inside spelled isLeft isRight clean clean' endsComment isRest =>
      have isWords' := Codepoints.cons (.byte 0x3B (by decide)) isWords
      exact ⟨_, spelled_inside spelled isLeft isRight isWords' clean clean' (by simpa using oneLine)
        endsComment isRest, rfl⟩

/-! ## Newlines -/

theorem spelled_newline {after : List Piece} (spelled : Spelled .nazm back after) :
    Spelled .nazm (0x0A :: back) (.newline :: after) :=
  @Spelled.cons _ [0x0A] _ _ _ .newline spelled

theorem sameLayout_newline (fresh : front = [] ∨ ∃ start, front = start ++ [0x0A]) :
    SameLayout (front ++ back) (front ++ 0x0A :: back) := by
  intro pieces spelled
  rcases fresh with rfl | ⟨start, rfl⟩
  · exact ⟨.newline :: pieces, spelled_newline spelled, rfl⟩
  · obtain ⟨before, after, rfl, isStart, isBack⟩ :=
      split_newline spelled (List.append_assoc start [0x0A] back)
    have same : firstCodepoint (0x0A :: 0x0A :: back) = firstCodepoint (0x0A :: back) := by
      rw [firstCodepoint_ascii (by decide), firstCodepoint_ascii (by decide)]
    refine ⟨before ++ .newline :: .newline :: after, ?_, canonical_congr fun last afterNewline => ?_⟩
    · rw [List.append_assoc]
      exact (isStart.congr same).join (spelled_newline (spelled_newline isBack))
    · cases afterNewline <;> rfl

theorem sameLayout_addFinal (text : List UInt8) : SameLayout text (text ++ [0x0A]) := by
  intro pieces spelled
  have ended : SpelledBefore .nazm [] text pieces := spelledBefore_of_spelled spelled
  have separated : SpelledBefore .nazm [0x0A] text pieces :=
    ended.separated (by decide +kernel) fun _ => .inr rfl
  refine ⟨pieces ++ [.newline], separated.join (spelled_newline .nil), ?_⟩
  rw [canonical, canonical, List.append_assoc]
  exact lexemes_congr (fun afterNewline => by cases afterNewline <;> rfl) true

theorem sameLayout_dropFinal (text : List UInt8) : SameLayout (text ++ [0x0A]) text := by
  intro pieces spelled
  obtain ⟨before, after, rfl, isText, isEnd⟩ := split_newline spelled rfl
  have isAfter : after = [] := by
    generalize empty : ([] : List UInt8) = last at isEnd
    cases isEnd with
    | nil => rfl
    | cons spells _ => exact absurd (List.append_eq_nil_iff.mp empty.symm).1 spells.nonempty
  have separated : SpelledBefore .nazm [] text before :=
    isText.separated (by decide) fun _ => .inl rfl
  have whole := separated.join .nil
  rw [List.append_nil, List.append_nil] at whole
  refine ⟨before, whole, ?_⟩
  rw [isAfter, canonical, canonical, List.append_assoc]
  exact (lexemes_congr (fun afterNewline => by cases afterNewline <;> rfl) true).symm

/-! ## Points outside tokens -/

theorem split_of_turnEnds (ends : TurnEnds front back) (spelled : Spelled .nazm (front ++ back) pieces) :
    ∃ before after, pieces = before ++ after ∧ SpelledBefore .nazm back front before ∧
      Spelled .nazm back after := by
  obtain ⟨turns, rest⟩ := ends
  obtain ⟨start, before, after, same, split, isFront, isBack⟩ :=
    @split_of_turns _ ⟨front ++ back, 1, 1, [], .empty, none⟩ _ spelled turns
  rw [rest] at split isFront isBack
  have sameFront : front = start := List.append_cancel_right split
  exact ⟨before, after, same, sameFront ▸ isFront, isBack⟩

theorem gap_of_outside (outside : OutsideTokens front back)
    (spelled : Spelled .nazm (front ++ back) pieces) : Gap .nazm front back pieces := by
  rcases outside with ends | ⟨start, text, rfl, ends, well, oneLine⟩
  · obtain ⟨before, after, rfl, isFront, isBack⟩ := split_of_turnEnds ends spelled
    exact .of_split isFront isBack
  · rw [List.append_assoc] at spelled
    obtain ⟨before, after, rfl, isStart, isRest⟩ := split_of_turnEnds ends spelled
    obtain ⟨left, rest, after, same, isComment, isLast, rfl⟩ := spelled_comment isRest
    obtain ⟨used, isUsed⟩ := codepoints_of_wellFormed well
    obtain ⟨words, cps, isLeft, isWords, clean, endsComment⟩ := isComment.comment_text
    cases isLeft
    have clean' : 0x0A ∉ used := isUsed.no_newline oneLine
    -- the comment goes on up to the end of its line
    obtain ⟨right, rfl, rfl⟩ : ∃ right, left = text ++ right ∧ back = right ++ rest := by
      rcases List.append_eq_append_iff.mp same with ⟨more, isText, isRest⟩ | found
      · cases more with
        | nil =>
            rw [List.append_nil] at isText
            exact ⟨[], by rw [isText, List.append_nil], by simpa using isRest.symm⟩
        | cons byte more =>
            rw [isRest] at isLast endsComment
            obtain ⟨others, isOthers⟩ := isLast.codepoints
            have isNewline := firstCodepoint_of_codepoints isOthers
            rcases endsComment with none_ | some_
            · rw [none_] at isNewline
              cases others with
              | nil => exact absurd isOthers.eq_nil (by simp)
              | cons _ _ => contradiction
            · rw [some_] at isNewline
              obtain ⟨others, rfl⟩ : ∃ rest, others = 0x0A :: rest := by
                cases others with
                | nil => contradiction
                | cons cp others => exact ⟨others, by rw [Option.some.inj isNewline]⟩
              obtain ⟨bytes, last, split, encodes, -⟩ := isOthers.split
              rw [encodes.eq_ascii (by decide)] at split
              rw [(List.cons.inj split).1] at isText
              exact absurd (by rw [isText]; simp) oneLine
      · obtain ⟨right, isWords, isBack⟩ := found
        exact ⟨right, isWords, isBack⟩
    obtain ⟨unread, rfl, isRight⟩ := isUsed.cancel isWords
    rw [← List.append_assoc] at isStart
    exact .inside isStart isUsed isRight clean' (fun member => clean (List.mem_append_right _ member))
      endsComment isLast

/-! ## Edits -/

theorem LayoutEdit.sameLayout {text text' : List UInt8} (edit : LayoutEdit text text') :
    SameLayout text text' := by
  cases edit with
  | blanks areBlank place =>
      intro pieces spelled
      rcases place with outside | ends
      · exact (gap_of_outside outside spelled).insert_blanks areBlank
      · exact (gap_of_lineEnd spelled rfl ends).insert_blanks areBlank
  | comment isComment ends =>
      intro pieces spelled
      exact (gap_of_lineEnd spelled rfl ends).insert_comment isComment ends
  | @line front back text fresh isEmpty =>
      obtain ⟨blanks, comment, areBlank, isComment, rfl⟩ := isEmpty
      have line : SameLayout (front ++ back) (front ++ 0x0A :: back) := sameLayout_newline fresh
      have blank : SameLayout (front ++ 0x0A :: back) (front ++ (blanks ++ 0x0A :: back)) :=
        fun pieces spelled => (gap_of_lineEnd spelled rfl .newline).insert_blanks areBlank
      rcases isComment with rfl | ⟨words, rfl, isComment⟩
      · rw [List.append_nil]
        exact line.trans blank
      · have words_ : SameLayout (front ++ blanks ++ 0x0A :: back)
            (front ++ blanks ++ (0x3B :: words ++ 0x0A :: back)) := fun pieces spelled =>
          (gap_of_lineEnd spelled rfl .newline).insert_comment isComment .newline
        rw [List.append_assoc, List.append_assoc, ← List.append_assoc blanks] at words_
        exact (line.trans blank).trans words_
  | carriage =>
      intro pieces spelled
      have isBlank : ∀ byte ∈ [0x0D], isBlankByte byte = true :=
        List.forall_mem_singleton.mpr rfl
      exact (gap_of_lineEnd spelled rfl .newline).insert_blanks isBlank
  | addFinal => exact sameLayout_addFinal _
  | dropFinal => exact sameLayout_dropFinal _

/-- Any number of edits of the layout. -/
theorem sameLayout_of_edits {text text' : List UInt8}
    (edits : Relation.ReflTransGen LayoutEdit text text') : SameLayout text text' := by
  induction edits with
  | refl => exact fun pieces spelled => ⟨pieces, spelled, rfl⟩
  | tail _ edit inductionHypothesis => exact inductionHypothesis.trans edit.sameLayout

end Edits

end Nazm.Lexer
