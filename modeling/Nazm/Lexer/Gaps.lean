import Nazm.Lexer.Spelled

/-!
Gaps between the tokens of a source.

Owns the sources that are spelled up to a point, the points between two pieces
or inside a comment, and where such points are: at the end of a turn of the main
loop, and at the end of a line.

Does not own the edits at these points.
-/

namespace Nazm.Lexer

open Nazm.Encoder Nazm.Unicode Nazm.Diagnostics

/-! ## Codepoints of tokens -/

section Tokens

variable {vocabulary : Vocabulary} {text back : List UInt8} {cps : List Nat} {cp : Nat}

theorem digit_ne_of_isDigitOf {digitValue : Nat → Option Nat}
    (digits : digitValue = decimalDigitValue ∨ digitValue = hexDigitValue ∨
      digitValue = binaryDigitValue) (isDigit : isDigitOf digitValue cp = true) :
    cp ≠ 0x0A ∧ cp ≠ 0x0D ∧ cp ≠ 0x20 ∧ cp ≠ 0x09 ∧ cp ≠ 0x3B := by
  refine ⟨?_, ?_, ?_, ?_, ?_⟩ <;> rintro rfl <;> revert isDigit <;>
    rcases digits with rfl | rfl | rfl <;> decide

theorem ne_of_isIdentContinue (continues : isIdentContinue cp = true) :
    cp ≠ 0x0A ∧ cp ≠ 0x0D ∧ cp ≠ 0x20 ∧ cp ≠ 0x09 ∧ cp ≠ 0x3B := by
  refine ⟨?_, ?_, ?_, ?_, ?_⟩ <;> rintro rfl <;> revert continues <;> decide

theorem ne_of_continuesDirective (continues : continuesDirective cp = true) :
    cp ≠ 0x0A ∧ cp ≠ 0x0D := by
  refine ⟨?_, ?_⟩ <;> rintro rfl <;> revert continues <;> decide

/-- The text of a number: its first codepoint, and no end of line. -/
theorem NumberText.codepoints {value next : Nat} (isNumber : NumberText cps value next) :
    ∃ first rest, cps = first :: rest ∧ first ≠ 0x20 ∧ first ≠ 0x09 ∧ first ≠ 0x3B ∧
      ∀ cp ∈ cps, cp ≠ 0x0A ∧ cp ≠ 0x0D := by
  cases isNumber with
  | decimal some_ all _ _ =>
      obtain ⟨first, rest, rfl⟩ := List.exists_cons_of_ne_nil some_
      obtain ⟨-, -, head⟩ := digit_ne_of_isDigitOf (.inl rfl) (all first List.mem_cons_self)
      refine ⟨first, rest, rfl, head.1, head.2.1, head.2.2, fun cp member => ?_⟩
      exact ⟨(digit_ne_of_isDigitOf (.inl rfl) (all cp member)).1,
        (digit_ne_of_isDigitOf (.inl rfl) (all cp member)).2.1⟩
  | hexadecimal isMark _ all _ =>
      refine ⟨_, _, rfl, by decide, by decide, by decide, ?_⟩
      refine List.forall_mem_cons.mpr ⟨by decide, List.forall_mem_cons.mpr ⟨?_, fun cp member => ?_⟩⟩
      · rcases isMark with rfl | rfl <;> decide
      · exact ⟨(digit_ne_of_isDigitOf (.inr (.inl rfl)) (all cp member)).1,
          (digit_ne_of_isDigitOf (.inr (.inl rfl)) (all cp member)).2.1⟩
  | binary isMark _ all _ =>
      refine ⟨_, _, rfl, by decide, by decide, by decide, ?_⟩
      refine List.forall_mem_cons.mpr ⟨by decide, List.forall_mem_cons.mpr ⟨?_, fun cp member => ?_⟩⟩
      · rcases isMark with rfl | rfl <;> decide
      · exact ⟨(digit_ne_of_isDigitOf (.inr (.inr rfl)) (all cp member)).1,
          (digit_ne_of_isDigitOf (.inr (.inr rfl)) (all cp member)).2.1⟩

theorem StringText.noLineEnd {value : List UInt8} (isString : StringText text value) :
    ∃ cps, Codepoints text cps ∧ ∀ cp ∈ cps, cp ≠ 0x0A ∧ cp ≠ 0x0D := by
  induction isString with
  | close => exact ⟨[0x22], codepoints_ascii 0x22 (by decide), by decide⟩
  | @escape esc out text value small isEscape _ inductionHypothesis =>
      obtain ⟨cps, isText, clean⟩ := inductionHypothesis
      refine ⟨0x5C :: esc.toNat :: cps,
        .cons (.byte 0x5C (by decide)) (.cons (.ascii small) isText), ?_⟩
      refine List.forall_mem_cons.mpr ⟨by decide, List.forall_mem_cons.mpr ⟨?_, clean⟩⟩
      refine ⟨?_, ?_⟩ <;> intro isLineEnd <;> rw [isLineEnd] at isEscape <;> contradiction
  | @plain bytes text value cp encodes _ notNewline notReturn _ _ inductionHypothesis =>
      obtain ⟨cps, isText, clean⟩ := inductionHypothesis
      exact ⟨cp :: cps, .cons encodes isText,
        List.forall_mem_cons.mpr ⟨⟨notNewline, notReturn⟩, clean⟩⟩

theorem IdentText.codepoints (isName : IdentText text) :
    ∃ first rest, Codepoints text (first :: rest) ∧ isIdentStart first = true ∧
      ∀ cp ∈ first :: rest, isIdentContinue cp = true := by
  obtain ⟨first, rest, isText, starts, continues⟩ := isName
  exact ⟨first, rest, isText, starts,
    List.forall_mem_cons.mpr ⟨isIdentContinue_of_start starts, continues⟩⟩

/-- A token starts with no blank, no end of line and no comment, and no end of
line stands in it. -/
theorem Spells.token_codepoints {lexeme : Lexeme} {next : Option Nat}
    (spells : Spells vocabulary text (.token lexeme) next) :
    ∃ first rest, Codepoints text (first :: rest) ∧ first ≠ 0x20 ∧ first ≠ 0x09 ∧ first ≠ 0x3B ∧
      ∀ cp ∈ first :: rest, cp ≠ 0x0A ∧ cp ≠ 0x0D := by
  -- a text after one ASCII byte
  have ascii : ∀ {byte : UInt8} {text : List UInt8} {cps : List Nat}, byte.toNat < 0x80 →
      byte.toNat ≠ 0x20 ∧ byte.toNat ≠ 0x09 ∧ byte.toNat ≠ 0x3B ∧ byte.toNat ≠ 0x0A ∧
        byte.toNat ≠ 0x0D → Codepoints text cps → (∀ cp ∈ cps, cp ≠ 0x0A ∧ cp ≠ 0x0D) →
      ∃ first rest, Codepoints (byte :: text) (first :: rest) ∧ first ≠ 0x20 ∧ first ≠ 0x09 ∧
        first ≠ 0x3B ∧ ∀ cp ∈ first :: rest, cp ≠ 0x0A ∧ cp ≠ 0x0D :=
    fun small others isText all =>
      ⟨_, _, .cons (.ascii small) isText, others.1, others.2.1, others.2.2.1,
        List.forall_mem_cons.mpr ⟨others.2.2.2, all⟩⟩
  cases spells with
  | @single _ value cp type _ encodes isToken =>
      have notOther : cp ≠ 0x20 ∧ cp ≠ 0x09 ∧ cp ≠ 0x3B ∧ cp ≠ 0x0A ∧ cp ≠ 0x0D := by
        refine ⟨?_, ?_, ?_, ?_, ?_⟩ <;> rintro rfl <;> contradiction
      exact ⟨cp, [], .single encodes, notOther.1, notOther.2.1, notOther.2.2.1,
        List.forall_mem_singleton.mpr notOther.2.2.2⟩
  | minus _ => exact ascii (by decide) (by decide) .nil (by decide)
  | number isText isNumber _ =>
      obtain ⟨first, rest, rfl, blank, tab, comment, clean⟩ := isNumber.codepoints
      exact ⟨first, rest, isText, blank, tab, comment, clean⟩
  | negative isText isNumber _ =>
      obtain ⟨_, _, _, _, _, _, clean⟩ := isNumber.codepoints
      exact ascii (by decide) (by decide) isText clean
  | directive isText all _ =>
      exact ascii (by decide) (by decide) isText fun cp member =>
        ne_of_continuesDirective (all cp member)
  | string isString =>
      obtain ⟨cps, isText, clean⟩ := isString.noLineEnd
      exact ascii (by decide) (by decide) isText clean
  | @labelDef text _ isName _ =>
      obtain ⟨first, rest, isText, -, all⟩ := isName.codepoints
      obtain ⟨-, -, head⟩ := ne_of_isIdentContinue (all first List.mem_cons_self)
      have whole : Codepoints (text ++ [0x3A]) (first :: (rest ++ [0x3A])) :=
        Codepoints.append isText (codepoints_ascii 0x3A (by decide))
      refine ⟨first, rest ++ [0x3A], whole, head.1, head.2.1, head.2.2, fun cp member => ?_⟩
      rcases List.mem_append.mp (show cp ∈ first :: rest ++ [0x3A] from member) with here | colon
      · exact ⟨(ne_of_isIdentContinue (all cp here)).1, (ne_of_isIdentContinue (all cp here)).2.1⟩
      · rw [List.mem_singleton.mp colon]
        decide
  | word isName _ _ _ =>
      obtain ⟨first, rest, isText, -, all⟩ := isName.codepoints
      obtain ⟨-, -, head⟩ := ne_of_isIdentContinue (all first List.mem_cons_self)
      exact ⟨first, rest, isText, head.1, head.2.1, head.2.2, fun cp member =>
        ⟨(ne_of_isIdentContinue (all cp member)).1, (ne_of_isIdentContinue (all cp member)).2.1⟩⟩

end Tokens

/-! ## Sources up to a point -/

/-- What may stand after a token and ends it: a blank, an end of line, a comment
or the end of the file. -/
def separators : List (Option Nat) :=
  [none, some 0x20, some 0x09, some 0x0D, some 0x0A, some 0x3B]

/-- Where a comment ends. -/
def EndsComment (next : Option Nat) : Prop := next = none ∨ next = some 0x0A

/-- The start of a source, before `back`, and the pieces that spell it. -/
inductive SpelledBefore (vocabulary : Vocabulary) (back : List UInt8) :
    List UInt8 → List Piece → Prop where
  | nil : SpelledBefore vocabulary back [] []
  | cons {text rest : List UInt8} {piece : Piece} {pieces : List Piece} :
      Spells vocabulary text piece (firstCodepoint (rest ++ back)) →
      SpelledBefore vocabulary back rest pieces →
      SpelledBefore vocabulary back (text ++ rest) (piece :: pieces)

section Points

variable {vocabulary : Vocabulary} {text front back next : List UInt8} {piece : Piece}
  {pieces before after : List Piece}

theorem firstCodepoint_append {bytes : List UInt8} {cp : Nat} (encodes : Encodes bytes cp)
    (back : List UInt8) : firstCodepoint (bytes ++ back) = some cp := by
  have unread : ¬ (bytes ++ back).isEmpty = true := by
    rw [List.isEmpty_iff, List.append_eq_nil_iff]
    exact fun empty => encodes.nonempty empty.1
  rw [firstCodepoint, if_neg unread, encodes.peek]

theorem firstCodepoint_ascii {byte : UInt8} (small : byte.toNat < 0x80) (rest : List UInt8) :
    firstCodepoint (byte :: rest) = some byte.toNat :=
  firstCodepoint_append (.ascii small) rest

theorem Spells.firstCodepoint {follow : Option Nat} (spells : Spells vocabulary text piece follow)
    (back : List UInt8) : firstCodepoint (text ++ back) = firstCodepoint text := by
  obtain ⟨cp, cps, isText⟩ := spells.codepoints
  obtain ⟨bytes, rest, rfl, encodes, -⟩ := Codepoints.split isText
  rw [List.append_assoc, firstCodepoint_append encodes, firstCodepoint_append encodes]

/-- No token goes on with a separator. -/
theorem separators_stop : ∀ follow ∈ separators,
    isNumberStart (follow.getD 0) = false ∧ continuesDirective (follow.getD 0) = false ∧
      isIdentContinue (follow.getD 0) = false ∧ follow ≠ some 0x3A := by
  decide

theorem separators_noDigit : ∀ follow ∈ separators,
    isDigitOf decimalDigitValue (follow.getD 0) = false ∧
      isDigitOf hexDigitValue (follow.getD 0) = false ∧
      isDigitOf binaryDigitValue (follow.getD 0) = false ∧
      follow.getD 0 ≠ 0x78 ∧ follow.getD 0 ≠ 0x58 ∧ follow.getD 0 ≠ 0x62 ∧
      follow.getD 0 ≠ 0x42 := by
  decide

theorem NumberText.separated {cps : List Nat} {value next : Nat} {follow : Option Nat}
    (isNumber : NumberText cps value next) (separates : follow ∈ separators) :
    NumberText cps value (follow.getD 0) := by
  obtain ⟨decimal, hexadecimal, binary, noMark⟩ := separators_noDigit follow separates
  cases isNumber with
  | decimal some_ all _ _ => exact .decimal some_ all decimal fun _ => noMark
  | hexadecimal isMark some_ all _ => exact .hexadecimal isMark some_ all hexadecimal
  | binary isMark some_ all _ => exact .binary isMark some_ all binary

/-- A separator may stand after every piece; after a comment only its end. -/
theorem Spells.separated {follow : Option Nat} (spells : Spells vocabulary text piece follow)
    {follow' : Option Nat} (separates : follow' ∈ separators)
    (ends : piece = .comment → EndsComment follow') : Spells vocabulary text piece follow' := by
  have stops := separators_stop follow' separates
  have noDigit : ∀ {cps : List Nat} {value : Nat}, NumberText cps value (follow.getD 0) →
      NumberText cps value (follow'.getD 0) :=
    fun isNumber => isNumber.separated separates
  cases spells with
  | blank isBlank => exact .blank isBlank
  | newline => exact .newline
  | comment isText oneLine _ => exact .comment isText oneLine (ends rfl)
  | single encodes isToken => exact .single encodes isToken
  | minus _ => exact .minus stops.1
  | number isText isNumber fits => exact .number isText (noDigit isNumber) fits
  | negative isText isNumber fits => exact .negative isText (noDigit isNumber) fits
  | directive isText all _ => exact .directive isText all stops.2.1
  | string isString => exact .string isString
  | labelDef isName notReserved => exact .labelDef isName notReserved
  | word isName _ _ isType => exact .word isName stops.2.2.2 stops.2.2.1 isType

theorem spelledBefore_of_spelled {pieces : List Piece} (spelled : Spelled vocabulary text pieces) :
    SpelledBefore vocabulary [] text pieces := by
  induction spelled with
  | nil => exact .nil
  | cons spells _ inductionHypothesis =>
      exact .cons (by rwa [List.append_nil]) inductionHypothesis

namespace SpelledBefore

theorem join (spelled : SpelledBefore vocabulary back front before)
    (rest : Spelled vocabulary back after) :
    Spelled vocabulary (front ++ back) (before ++ after) := by
  induction spelled with
  | nil => exact rest
  | cons spells _ inductionHypothesis =>
      rw [List.append_assoc]
      exact .cons spells inductionHypothesis

/-- Only the last piece sees what follows. -/
theorem firstCodepoint_eq (spelled : SpelledBefore vocabulary back front before)
    (some_ : before ≠ []) (next : List UInt8) :
    firstCodepoint (front ++ next) = firstCodepoint (front ++ back) := by
  cases spelled with
  | nil => exact absurd rfl some_
  | cons spells _ =>
      rw [List.append_assoc, List.append_assoc, spells.firstCodepoint, spells.firstCodepoint]

theorem eq_nil (spelled : SpelledBefore vocabulary back front []) : front = [] := by
  cases spelled
  rfl

/-- A separator may come to stand at the point. -/
theorem separated (spelled : SpelledBefore vocabulary back front before)
    (separates : firstCodepoint next ∈ separators)
    (ends : before.getLast? = some .comment → EndsComment (firstCodepoint next)) :
    SpelledBefore vocabulary next front before := by
  induction spelled with
  | nil => exact .nil
  | @cons text rest piece pieces spells spelled inductionHypothesis =>
      cases pieces with
      | nil =>
          rw [spelled.eq_nil, List.append_nil]
          have alone := spells.separated separates fun isComment => ends (by rw [isComment]; rfl)
          have one : SpelledBefore vocabulary next (text ++ []) [piece] := cons alone .nil
          rwa [List.append_nil] at one
      | cons second pieces =>
          have same := spelled.firstCodepoint_eq (List.cons_ne_nil _ _) next
          refine .cons (by rw [same]; exact spells) (inductionHypothesis fun isLast => ends ?_)
          rw [← isLast, List.getLast?_cons_cons]

theorem congr (spelled : SpelledBefore vocabulary back front before)
    (same : firstCodepoint next = firstCodepoint back) :
    SpelledBefore vocabulary next front before := by
  induction spelled with
  | nil => exact .nil
  | @cons text rest piece pieces spells spelled inductionHypothesis =>
      refine .cons ?_ inductionHypothesis
      cases pieces with
      | nil =>
          rw [spelled.eq_nil, List.nil_append] at spells ⊢
          rwa [same]
      | cons second pieces =>
          rw [spelled.firstCodepoint_eq (List.cons_ne_nil _ _) next]
          exact spells

/-- The last piece before the point. -/
theorem snoc (spelled : SpelledBefore vocabulary back front (before ++ [piece])) :
    ∃ start text, front = start ++ text ∧ SpelledBefore vocabulary (text ++ back) start before ∧
      Spells vocabulary text piece (Lexer.firstCodepoint back) := by
  induction before generalizing front with
  | nil =>
      cases spelled with
      | cons spells rest =>
          rw [rest.eq_nil] at spells ⊢
          exact ⟨[], _, by rw [List.append_nil, List.nil_append], .nil, spells⟩
  | cons first before inductionHypothesis =>
      cases spelled with
      | cons spells rest =>
          obtain ⟨start, text, rfl, isStart, isLast⟩ := inductionHypothesis rest
          rw [List.append_assoc] at spells
          exact ⟨_, text, (List.append_assoc ..).symm, .cons spells isStart, isLast⟩

end SpelledBefore

/-! ## Gaps -/

/-- A point between two pieces or inside a comment. -/
inductive Gap (vocabulary : Vocabulary) : List UInt8 → List UInt8 → List Piece → Prop where
  | between {front back : List UInt8} {before after : List Piece} :
      before.getLast? ≠ some .comment → SpelledBefore vocabulary back front before →
      Spelled vocabulary back after → Gap vocabulary front back (before ++ after)
  | inside {start left right rest : List UInt8} {used unread : List Nat}
      {before after : List Piece} :
      SpelledBefore vocabulary (0x3B :: (left ++ right) ++ rest) start before →
      Codepoints left used → Codepoints right unread → 0x0A ∉ used → 0x0A ∉ unread →
      EndsComment (firstCodepoint rest) → Spelled vocabulary rest after →
      Gap vocabulary (start ++ 0x3B :: left) (right ++ rest) (before ++ .comment :: after)

/-- The text of a piece that is a comment. -/
theorem Spells.comment_text {follow : Option Nat} (spells : Spells vocabulary text .comment follow) :
    ∃ left used, text = 0x3B :: left ∧ Codepoints left used ∧ 0x0A ∉ used ∧ EndsComment follow := by
  cases spells with
  | comment isText oneLine ends => exact ⟨_, _, rfl, isText, oneLine, ends⟩

theorem Spells.newline_text {follow : Option Nat}
    (spells : Spells vocabulary text .newline follow) : text = [0x0A] := by
  cases spells
  rfl

theorem Spells.blank_text {follow : Option Nat} (spells : Spells vocabulary text .blank follow) :
    ∃ byte, text = [byte] ∧ (byte = 0x20 ∨ byte = 0x09 ∨ byte = 0x0D) := by
  cases spells with
  | blank isBlank => exact ⟨_, rfl, isBlank⟩

theorem Gap.of_split (spelled : SpelledBefore vocabulary back front before)
    (rest : Spelled vocabulary back after) : Gap vocabulary front back (before ++ after) := by
  by_cases isLast : before.getLast? = some .comment
  · obtain ⟨pieces, rfl⟩ := List.getLast?_eq_some_iff.mp isLast
    obtain ⟨start, text, rfl, isStart, spells⟩ := spelled.snoc
    obtain ⟨left, used, rfl, isText, oneLine, ends⟩ := spells.comment_text
    rw [List.append_assoc, ← List.nil_append back]
    have isStart' : SpelledBefore vocabulary (0x3B :: (left ++ []) ++ back) start pieces := by
      rwa [List.append_nil]
    exact .inside isStart' isText .nil oneLine List.not_mem_nil ends rest
  · exact .between isLast spelled rest

theorem Gap.cons {pieces : List Piece} (gap : Gap vocabulary front back pieces)
    (spells : Spells vocabulary text piece (firstCodepoint (front ++ back))) :
    Gap vocabulary (text ++ front) back (piece :: pieces) := by
  cases gap with
  | between _ spelled rest =>
      rw [← List.cons_append]
      exact .of_split (.cons spells spelled) rest
  | @inside start left right rest _ _ before after spelled isLeft isRight clean clean' ends isRest =>
      rw [← List.append_assoc, ← List.cons_append]
      refine .inside (.cons ?_ spelled) isLeft isRight clean clean' ends isRest
      have same : start ++ 0x3B :: left ++ (right ++ rest) =
          start ++ (0x3B :: (left ++ right) ++ rest) := by simp
      rwa [same] at spells

/-! ## Ends of lines -/

/-- A newline byte is a piece by itself, and a carriage return is one or stands
in a comment. -/
theorem Spells.lineEnd {follow : Option Nat} {byte : UInt8}
    (spells : Spells vocabulary text piece follow) (member : byte ∈ text)
    (isLineEnd : byte = 0x0A ∨ byte = 0x0D) :
    text = [byte] ∨ (piece = .comment ∧ byte = 0x0D) := by
  have small : byte.toNat < 0x80 := by rcases isLineEnd with rfl | rfl <;> decide
  cases piece with
  | token lexeme =>
      obtain ⟨first, rest, isText, -, -, -, clean⟩ := spells.token_codepoints
      have inside := clean _ (isText.mem_of_byte member small)
      rcases isLineEnd with rfl | rfl
      · exact absurd rfl inside.1
      · exact absurd rfl inside.2
  | blank =>
      obtain ⟨_, rfl, -⟩ := spells.blank_text
      exact .inl (by rw [List.mem_singleton.mp member])
  | newline =>
      rw [spells.newline_text] at member ⊢
      exact .inl (by rw [List.mem_singleton.mp member])
  | comment =>
      obtain ⟨left, used, rfl, isText, oneLine, -⟩ := spells.comment_text
      rcases List.mem_cons.mp member with rfl | inLeft
      · rcases isLineEnd with other | other <;> contradiction
      · rcases isLineEnd with rfl | rfl
        · exact absurd (isText.mem_of_byte inLeft small) oneLine
        · exact .inr ⟨rfl, rfl⟩

/-- Where a line ends: before a newline, with or without a carriage return, and
at the end of the file. -/
inductive AtLineEnd : List UInt8 → Prop where
  | file : AtLineEnd []
  | newline {rest : List UInt8} : AtLineEnd (0x0A :: rest)
  | carriage {rest : List UInt8} : AtLineEnd (0x0D :: 0x0A :: rest)

theorem AtLineEnd.head {byte : UInt8} (ends : AtLineEnd (byte :: back)) :
    byte = 0x0A ∨ byte = 0x0D := by
  cases ends with
  | newline => exact .inl rfl
  | carriage => exact .inr rfl

/-- The end of a line is a gap. -/
theorem gap_of_lineEnd {pieces : List Piece} (spelled : Spelled vocabulary text pieces)
    (split : text = front ++ back) (ends : AtLineEnd back) : Gap vocabulary front back pieces := by
  induction spelled generalizing front with
  | nil =>
      obtain ⟨rfl, rfl⟩ := List.append_eq_nil_iff.mp split.symm
      exact .of_split .nil .nil
  | @cons text rest piece pieces spells spelled inductionHypothesis =>
      by_cases start : front = []
      · subst start
        rw [List.nil_append] at split
        rw [← split]
        exact .of_split .nil (.cons spells spelled)
      · rcases List.append_eq_append_iff.mp split with ⟨more, rfl, same⟩ | ⟨more, same, isBack⟩
        · have gap := inductionHypothesis same
          rw [same] at spells
          exact gap.cons spells
        · cases more with
          | nil =>
              rw [List.append_nil] at same
              rw [List.nil_append] at isBack
              have gap : Gap vocabulary [] back pieces := inductionHypothesis isBack.symm
              have whole := gap.cons (by rw [List.nil_append, isBack]; exact spells)
              rwa [List.append_nil, same] at whole
          | cons byte more =>
              rw [isBack, List.cons_append] at ends
              have isLineEnd := ends.head
              have member : byte ∈ text := by rw [same]; simp
              rcases spells.lineEnd member isLineEnd with alone | ⟨rfl, rfl⟩
              · have length := congrArg List.length (same.symm.trans alone)
                rw [List.length_append, List.length_cons, List.length_singleton] at length
                exact absurd (List.length_eq_zero_iff.mp (by omega)) start
              · obtain ⟨left, used, rfl, isText, oneLine, endsComment⟩ := spells.comment_text
                obtain ⟨first, left', rfl⟩ := List.exists_cons_of_ne_nil start
                obtain ⟨rfl, rfl⟩ := List.cons.inj same
                obtain ⟨used, unread, rfl, isLeft, isRight⟩ := isText.split_byte (by decide)
                rw [List.mem_append, not_or] at oneLine
                rw [isBack]
                have isStart : SpelledBefore vocabulary
                    (0x3B :: (left' ++ 0x0D :: more) ++ rest) [] [] := .nil
                exact .inside isStart isLeft isRight oneLine.1 oneLine.2 endsComment spelled

theorem Spells.of_newline {follow : Option Nat} (spells : Spells vocabulary [0x0A] piece follow) :
    piece = .newline := by
  cases piece with
  | token lexeme =>
      obtain ⟨first, rest, isText, -, -, -, clean⟩ := spells.token_codepoints
      have inside := isText.mem_of_byte List.mem_cons_self (by decide)
      exact absurd rfl (clean _ inside).1
  | blank =>
      obtain ⟨_, same, isBlank⟩ := spells.blank_text
      rw [← (List.cons.inj same).1] at isBlank
      rcases isBlank with other | other | other <;> contradiction
  | newline => rfl
  | comment =>
      obtain ⟨left, used, other, -⟩ := spells.comment_text
      cases other

/-- A newline byte of a spelled source is a piece. -/
theorem split_newline {pieces : List Piece} (spelled : Spelled vocabulary text pieces)
    (split : text = front ++ 0x0A :: back) :
    ∃ before after, pieces = before ++ .newline :: after ∧
      SpelledBefore vocabulary (0x0A :: back) front before ∧ Spelled vocabulary back after := by
  induction spelled generalizing front with
  | nil => exact absurd split.symm (by simp)
  | @cons text rest piece pieces spells spelled inductionHypothesis =>
      rcases List.append_eq_append_iff.mp split with ⟨more, rfl, same⟩ | ⟨more, same, isBack⟩
      · obtain ⟨before, after, rfl, isFront, isBack⟩ := inductionHypothesis same
        rw [same] at spells
        exact ⟨piece :: before, after, rfl, .cons spells isFront, isBack⟩
      · cases more with
        | nil =>
            rw [List.append_nil] at same
            rw [List.nil_append] at isBack
            obtain ⟨before, after, rfl, isFront, isRest⟩ :=
              @inductionHypothesis [] isBack.symm
            have whole := SpelledBefore.cons (by rw [List.nil_append, isBack]; exact spells) isFront
            rw [List.append_nil, same] at whole
            exact ⟨piece :: before, after, rfl, whole, isRest⟩
        | cons byte more =>
            obtain ⟨rfl, isRest⟩ := List.cons.inj isBack
            have alone : text = [0x0A] := by
              have member : 0x0A ∈ text := by rw [same]; simp
              rcases spells.lineEnd member (.inl rfl) with alone | ⟨-, other⟩
              · exact alone
              · contradiction
            have front_nil : front = [] ∧ more = [] := by
              have length := congrArg List.length (same.symm.trans alone)
              rw [List.length_append, List.length_cons, List.length_singleton] at length
              exact ⟨List.length_eq_zero_iff.mp (by omega), List.length_eq_zero_iff.mp (by omega)⟩
            rw [alone] at spells
            have same : back = rest := by rw [isRest, front_nil.2]; rfl
            rw [front_nil.1, same, spells.of_newline]
            exact ⟨[], pieces, rfl, .nil, spelled⟩

/-! ## Blanks -/

/-- Spaces, tabs and carriage returns. -/
def isBlankByte (byte : UInt8) : Bool := byte = 0x20 || byte = 0x09 || byte = 0x0D

theorem isBlankByte_iff {byte : UInt8} :
    isBlankByte byte = true ↔ byte = 0x20 ∨ byte = 0x09 ∨ byte = 0x0D := by
  simp [isBlankByte, or_assoc]

/-- A blank is a piece. -/
theorem spelled_blank {byte : UInt8} {rest : List UInt8} {pieces : List Piece}
    (isBlank : isBlankByte byte = true) (spelled : Spelled vocabulary (byte :: rest) pieces) :
    ∃ after, pieces = .blank :: after ∧ Spelled vocabulary rest after := by
  generalize whole : byte :: rest = text at spelled
  have kinds := isBlankByte_iff.mp isBlank
  cases spelled with
  | nil => contradiction
  | @cons text last piece pieces spells spelled =>
      obtain ⟨first, text, rfl⟩ := List.exists_cons_of_ne_nil spells.nonempty
      obtain ⟨rfl, rfl⟩ := List.cons.inj whole
      have small : byte.toNat < 0x80 := by rcases kinds with rfl | rfl | rfl <;> decide
      cases piece with
      | token lexeme =>
          obtain ⟨cp, cps, isText, space, tab, -, clean⟩ := spells.token_codepoints
          obtain ⟨-, -, -, isFirst, -⟩ := isText.decodes
          rw [utf8NextCodepoint, if_pos small] at isFirst
          have noReturn := (clean cp List.mem_cons_self).2
          rw [← isFirst] at space tab noReturn
          rcases kinds with rfl | rfl | rfl
          · exact absurd rfl space
          · exact absurd rfl tab
          · exact absurd rfl noReturn
      | blank =>
          obtain ⟨_, same, -⟩ := spells.blank_text
          rw [(List.cons.inj same).2]
          exact ⟨pieces, rfl, spelled⟩
      | newline =>
          rw [(List.cons.inj spells.newline_text).1] at kinds
          rcases kinds with other | other | other <;> contradiction
      | comment =>
          obtain ⟨left, used, same, -⟩ := spells.comment_text
          rw [(List.cons.inj same).1] at kinds
          rcases kinds with other | other | other <;> contradiction

theorem spelled_blanks {blanks rest : List UInt8} {pieces : List Piece}
    (areBlank : ∀ byte ∈ blanks, isBlankByte byte = true) :
    Spelled vocabulary (blanks ++ rest) pieces ↔
      ∃ after, pieces = List.replicate blanks.length .blank ++ after ∧
        Spelled vocabulary rest after := by
  induction blanks generalizing pieces with
  | nil => exact ⟨fun spelled => ⟨pieces, rfl, spelled⟩, fun ⟨_, same, spelled⟩ => same ▸ spelled⟩
  | cons byte blanks inductionHypothesis =>
      obtain ⟨isBlank, areBlank⟩ := List.forall_mem_cons.mp areBlank
      constructor
      · intro spelled
        obtain ⟨after, rfl, isRest⟩ := spelled_blank isBlank spelled
        obtain ⟨last, rfl, isLast⟩ := (inductionHypothesis areBlank).mp isRest
        exact ⟨last, rfl, isLast⟩
      · rintro ⟨after, rfl, spelled⟩
        have isRest := (inductionHypothesis areBlank).mpr ⟨after, rfl, spelled⟩
        have blank : Spells vocabulary [byte] .blank (firstCodepoint (blanks ++ rest)) :=
          .blank (isBlankByte_iff.mp isBlank)
        have whole : Spelled vocabulary ([byte] ++ (blanks ++ rest)) _ := .cons blank isRest
        exact whole

/-- Where a semicolon stands between pieces, a comment starts. -/
theorem spelled_comment {rest : List UInt8} {pieces : List Piece}
    (spelled : Spelled vocabulary (0x3B :: rest) pieces) :
    ∃ left last after, left ++ last = rest ∧
      Spells vocabulary (0x3B :: left) .comment (firstCodepoint last) ∧
      Spelled vocabulary last after ∧ pieces = .comment :: after := by
  generalize whole : 0x3B :: rest = text at spelled
  cases spelled with
  | nil => contradiction
  | @cons text last piece pieces spells spelled =>
      obtain ⟨first, left, rfl⟩ := List.exists_cons_of_ne_nil spells.nonempty
      obtain ⟨rfl, rfl⟩ := List.cons.inj whole
      cases piece with
      | token lexeme =>
          obtain ⟨cp, cps, isText, -, -, notComment, -⟩ := spells.token_codepoints
          obtain ⟨-, -, -, isFirst, -⟩ := isText.decodes
          exact absurd isFirst.symm notComment
      | blank =>
          obtain ⟨byte, same, isBlank⟩ := spells.blank_text
          rw [← (List.cons.inj same).1] at isBlank
          rcases isBlank with other | other | other <;> contradiction
      | newline =>
          have other := (List.cons.inj spells.newline_text).1
          contradiction
      | comment => exact ⟨left, last, pieces, rfl, spells, spelled, rfl⟩

/-! ## Turns of the main loop -/

/-- Where a turn of the main loop ends, two pieces meet. -/
theorem split_of_turns {lx : Lexer} {pieces : List Piece}
    (spelled : Spelled vocabulary lx.rest pieces) (turns : Nat) :
    ∃ front before after, pieces = before ++ after ∧
      lx.rest = front ++ (@lexLoop vocabulary turns lx).rest ∧
      SpelledBefore vocabulary (@lexLoop vocabulary turns lx).rest front before ∧
      Spelled vocabulary (@lexLoop vocabulary turns lx).rest after := by
  induction turns generalizing lx pieces with
  | zero => exact ⟨[], [], pieces, rfl, rfl, .nil, spelled⟩
  | succ turns inductionHypothesis =>
      rw [lexLoop]
      by_cases atEnd_ : atEnd lx = true
      · rw [if_pos atEnd_]
        exact ⟨[], [], pieces, rfl, rfl, .nil, spelled⟩
      · rw [if_neg atEnd_]
        generalize whole : lx.rest = text at spelled
        cases spelled with
        | nil =>
            rw [atEnd, whole] at atEnd_
            exact absurd rfl atEnd_
        | @cons text rest piece pieces spells spelled =>
            obtain ⟨cps, isRest⟩ := spelled.codepoints
            have first := spells
            rw [firstCodepoint_of_codepoints isRest] at first
            obtain ⟨-, next⟩ := lexStep_reads isRest whole first
            rw [← next] at spelled spells
            obtain ⟨front, before, after, rfl, same, isFront, isBack⟩ := inductionHypothesis spelled
            rw [same] at spells
            refine ⟨text ++ front, piece :: before, after, rfl, ?_, .cons spells isFront, isBack⟩
            rw [List.append_assoc, ← same, next]

end Points

end Nazm.Lexer
