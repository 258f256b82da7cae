import Nazm.Lexer.Grammar

/-!
Turns of the main loop.

Owns which routine a turn runs, and that a turn over well-formed UTF-8 reads a
spelled piece or reports an error.

Does not own that every spelled piece is read, nor positions.
-/

namespace Nazm.Lexer

open Nazm.Encoder Nazm.Unicode Nazm.Diagnostics

/-! ## Reading a piece -/

/-- The cursor read a piece and reported nothing. -/
structure Reads (before after : Lexer) (text : List UInt8) (piece : Piece) : Prop where
  text : before.rest = text ++ after.rest
  errors : after.errors = before.errors
  out : ∀ pieces, after.out.map Token.lexeme ++ lexemes (lastTokenIsNewline after) pieces =
    before.out.map Token.lexeme ++ lexemes (lastTokenIsNewline before) (piece :: pieces)

/-- What the main loop sees of the end of a turn. -/
def TurnOutcome (vocabulary : Vocabulary) (before after : Lexer) : Prop :=
  (∃ text piece cps, Reads before after text piece ∧
      Spells vocabulary text piece (firstCodepoint after.rest) ∧ View after cps) ∨
    errorHasAny after.errors = true

section Reading

variable {vocabulary : Vocabulary} {lx before after : Lexer} {text rest value : List UInt8}
  {cp : Nat} {cps used back : List Nat} {type : TokenType} {line col endCol : Nat}

theorem lastTokenIsNewline_push :
    lastTokenIsNewline (pushTokenValue lx type value line col endCol) =
      decide (type = .newline) := by
  simp [lastTokenIsNewline, pushTokenValue]

theorem lexemes_token (afterNewline : Bool) (lexeme : Lexeme) (pieces : List Piece) :
    lexemes afterNewline (.token lexeme :: pieces) =
      lexeme :: lexemes (decide (lexeme.1 = .newline)) pieces := by
  cases afterNewline <;> rfl

/-- A token is pushed where the cursor stands. -/
theorem reads_push (split : before.rest = text ++ after.rest)
    (sameErrors : after.errors = before.errors) (sameOut : after.out = before.out) :
    Reads before (pushTokenValue after type value line col endCol) text (.token (type, value)) where
  text := split
  errors := sameErrors
  out pieces := by
    rw [lastTokenIsNewline_push, lexemes_token]
    simp [pushTokenValue, sameOut, Token.lexeme]

/-- Nothing is pushed. -/
theorem reads_silent {piece : Piece} (passes : Passes before after used)
    (isText : Codepoints text used) (split : before.rest = text ++ rest)
    (silent : piece = .blank ∨ piece = .comment) :
    after.rest = rest ∧ Reads before after text piece := by
  obtain ⟨bytes, whole, isBytes⟩ := passes.text
  obtain ⟨rfl, same⟩ := codepoints_unique isBytes isText (whole.symm.trans split)
  refine ⟨same, whole, passes.errors, fun pieces => ?_⟩
  have newline : lastTokenIsNewline after = lastTokenIsNewline before := by
    rw [lastTokenIsNewline, passes.out]
    rfl
  rw [passes.out, newline]
  rcases silent with rfl | rfl <;> cases lastTokenIsNewline before <;> rfl

theorem Passes.rest_eq (passes : Passes before after used) (isText : Codepoints text used)
    (split : before.rest = text ++ rest) : after.rest = rest ∧ consumed before after = text := by
  obtain ⟨whole, isBytes⟩ := consumed_of_passes passes
  obtain ⟨same, sameRest⟩ := codepoints_unique isBytes isText (whole.symm.trans split)
  exact ⟨sameRest, same⟩

/-- The codepoints of a source up to a spelled text and after it. -/
theorem view_append (isText : Codepoints text used) (isRest : Codepoints rest back)
    (split : lx.rest = text ++ rest) : View lx (used ++ back) := by
  rw [View, split]
  exact isText.append isRest

theorem takeWhile_text {continues : Nat → Bool} (all : ∀ cp ∈ used, continues cp = true)
    (stops : ∀ cp, back.head? = some cp → continues cp = false) :
    (used ++ back).takeWhile continues = used ∧ (used ++ back).dropWhile continues = back := by
  have none : back.takeWhile continues = [] ∧ back.dropWhile continues = back := by
    cases back with
    | nil => exact ⟨rfl, rfl⟩
    | cons cp back =>
        have stop : ¬ continues cp = true := Bool.eq_false_iff.mp (stops cp rfl)
        exact ⟨List.takeWhile_cons_of_neg stop, List.dropWhile_cons_of_neg stop⟩
  rw [List.takeWhile_append_of_pos all, List.dropWhile_append_of_pos all, none.1, none.2,
    List.append_nil]
  exact ⟨rfl, rfl⟩

/-! ## Turns of the main loop, by the first codepoint -/

theorem lexStep_blank (blank : peekCp lx = 0x20 ∨ peekCp lx = 0x09 ∨ peekCp lx = 0x0D) :
    @lexStep vocabulary lx = skipCp lx :=
  if_pos blank

theorem lexStep_newline (newline : peekCp lx = 0x0A) :
    @lexStep vocabulary lx = lexNewline lx lx.line lx.col := by
  unfold lexStep
  simp [newline]

theorem lexStep_comment (semicolon : peekCp lx = 0x3B) : @lexStep vocabulary lx = lexComment lx := by
  unfold lexStep
  simp [semicolon]

theorem lexStep_minus (minus : peekCp lx = 0x2D) :
    @lexStep vocabulary lx = lexMinusOrNegativeNumber lx lx.line lx.col := by
  unfold lexStep
  simp [minus, singleCharToken]

theorem lexStep_directive (dot : peekCp lx = 0x2E) :
    @lexStep vocabulary lx = lexDirective lx lx.line lx.col := by
  unfold lexStep
  simp [dot, singleCharToken]

theorem lexStep_string (quote : peekCp lx = 0x22) :
    @lexStep vocabulary lx = lexString lx lx.line lx.col := by
  unfold lexStep
  simp [quote, singleCharToken]

theorem lexStep_single (single : singleCharToken (peekCp lx) = some (type, value)) :
    @lexStep vocabulary lx =
      pushTokenValue (skipCp lx) type value lx.line lx.col (lx.col + 1) := by
  have plain : ∀ cp, singleCharToken cp ≠ none →
      ¬(cp = 0x20 ∨ cp = 0x09 ∨ cp = 0x0D) ∧ cp ≠ 0x0A ∧ cp ≠ 0x3B := by
    intro cp isSingle
    refine ⟨?_, ?_, ?_⟩
    · rintro (rfl | rfl | rfl) <;> exact isSingle rfl
    · rintro rfl
      exact isSingle rfl
    · rintro rfl
      exact isSingle rfl
  obtain ⟨notBlank, notNewline, notComment⟩ := plain (peekCp lx) (by rw [single]; simp)
  unfold lexStep
  simp only [if_neg notBlank, if_neg notNewline, if_neg notComment, single]

/-- What starts a number or an identifier starts nothing else. -/
structure StartsWord (cp : Nat) : Prop where
  blank : ¬(cp = 0x20 ∨ cp = 0x09 ∨ cp = 0x0D)
  newline : cp ≠ 0x0A
  comment : cp ≠ 0x3B
  single : singleCharToken cp = none
  minus : cp ≠ 0x2D
  directive : cp ≠ 0x2E
  string : cp ≠ 0x22

theorem startsWord_of_number (starts : isNumberStart cp = true) : StartsWord cp := by
  have range : (0x30 ≤ cp ∧ cp ≤ 0x39) ∨ (0x0660 ≤ cp ∧ cp ≤ 0x0669) := by
    simpa [isNumberStart, isAsciiDigit, nazmIsArabicDigit] using starts
  have single : singleCharToken cp = none := by
    unfold singleCharToken
    grind
  exact ⟨by omega, by omega, by omega, single, by omega, by omega, by omega⟩

theorem startsWord_of_ident (starts : isIdentStart cp = true) :
    StartsWord cp ∧ isNumberStart cp = false := by
  have range : (0x0600 ≤ cp ∧ cp ≠ 0x060C ∧ ¬(0x0660 ≤ cp ∧ cp ≤ 0x066F)) ∨ cp = 0x5F := by
    unfold isIdentStart isArabicLetter at starts
    grind
  have single : singleCharToken cp = none := by
    unfold singleCharToken
    grind
  refine ⟨⟨by omega, by omega, by omega, single, by omega, by omega, by omega⟩, ?_⟩
  simp only [isNumberStart, isAsciiDigit, nazmIsArabicDigit, Bool.or_eq_false_iff,
    Bool.and_eq_false_iff, decide_eq_false_iff_not]
  omega

theorem lexStep_word (starts : StartsWord (peekCp lx)) :
    @lexStep vocabulary lx =
      if isNumberStart (peekCp lx) then lexNumber lx lx.line lx.col
      else if isIdentStart (peekCp lx) then @lexIdentifier vocabulary lx lx.line lx.col
      else if atIllFormedUtf8 lx then lexIllFormedUtf8 lx
      else
        skipCp (lexError lx
          (snprintf 64 (utf8 "محرف غير معروف (U+" ++ hexadecimal4 (peekCp lx) ++ utf8 ")"))) := by
  unfold lexStep
  simp only [if_neg starts.blank, if_neg starts.newline, if_neg starts.comment, starts.single,
    if_neg starts.minus, if_neg starts.directive, if_neg starts.string]

theorem lexStep_number (starts : isNumberStart (peekCp lx) = true) :
    @lexStep vocabulary lx = lexNumber lx lx.line lx.col :=
  (lexStep_word (startsWord_of_number starts)).trans (if_pos starts)

theorem lexStep_ident (starts : isIdentStart (peekCp lx) = true) :
    @lexStep vocabulary lx = @lexIdentifier vocabulary lx lx.line lx.col := by
  obtain ⟨word, notNumber⟩ := startsWord_of_ident starts
  rw [lexStep_word word, if_neg (Bool.eq_false_iff.mp notNumber), if_pos starts]

/-! ## A turn reads a piece or reports an error -/

theorem firstCodepoint_of_view (view : View lx cps) : firstCodepoint lx.rest = cps.head? :=
  firstCodepoint_of_codepoints view

theorem dirty_report (list : ErrorList) (file : Option (List UInt8)) (msg : List UInt8) :
    errorHasAny (errorAddSpan list file line col endCol msg) = true :=
  errorHasAny_errorAddSpan ..

theorem outcome_blank (view : View lx (cp :: cps)) (blank : cp = 0x20 ∨ cp = 0x09 ∨ cp = 0x0D) :
    TurnOutcome vocabulary lx (skipCp lx) := by
  obtain ⟨passes, last⟩ := skipCp_passes view
  obtain ⟨bytes, split, isText⟩ := passes.text
  obtain ⟨-, reads⟩ := reads_silent passes isText split (.inl rfl)
  obtain ⟨text, rest, rfl, encodes, isRest⟩ := Codepoints.split isText
  rw [Codepoints.eq_nil isRest, List.append_nil] at reads
  rw [encodes.eq_ascii (by omega)] at reads
  exact .inl ⟨_, _, _, reads, .blank (by rcases blank with rfl | rfl | rfl <;> decide), last⟩

theorem reads_newline (view : View lx (0x0A :: cps)) :
    Reads lx (lexNewline lx line col) [0x0A] .newline ∧ View (lexNewline lx line col) cps := by
  obtain ⟨passes, last⟩ := skipCp_passes view
  obtain ⟨bytes, split, isText⟩ := passes.text
  obtain ⟨text, rest, rfl, encodes, isRest⟩ := Codepoints.split isText
  rw [Codepoints.eq_nil isRest, List.append_nil, encodes.eq_ascii (by decide)] at split
  have flag : lastTokenIsNewline (skipCp lx) = lastTokenIsNewline lx := by
    rw [lastTokenIsNewline, passes.out]
    rfl
  unfold lexNewline
  dsimp only
  rw [flag]
  cases isNewline : lastTokenIsNewline lx with
  | true =>
      rw [if_pos rfl]
      refine ⟨⟨split, passes.errors, fun pieces => ?_⟩, last⟩
      rw [flag, isNewline, passes.out]
      rfl
  | false =>
      rw [if_neg (by decide)]
      refine ⟨⟨split, passes.errors, fun pieces => ?_⟩, last⟩
      rw [lastTokenIsNewline_push, isNewline]
      simp [pushTokenValue, passes.out, Token.lexeme, lexemes]

theorem outcome_comment (view : View lx (0x3B :: cps)) :
    TurnOutcome vocabulary lx (lexComment lx) := by
  obtain ⟨passes, last⟩ := lexCommentLoop_passes lx.rest.length view (fuel_of_view view)
  rw [List.takeWhile_cons_of_pos (by decide)] at passes
  rw [List.dropWhile_cons_of_pos (by decide)] at last
  obtain ⟨bytes, split, isText⟩ := passes.text
  obtain ⟨-, reads⟩ := reads_silent passes isText split (.inr rfl)
  obtain ⟨text, rest, rfl, encodes, isRest⟩ := Codepoints.split isText
  rw [encodes.eq_ascii (by decide)] at reads
  refine .inl ⟨_, _, _, reads, .comment isRest (fun member => ?_) ?_, last⟩
  · have continues := all_takeWhile cps _ member
    exact absurd continues (by decide)
  · rw [show lexComment lx = lexCommentLoop lx.rest.length lx from rfl,
      firstCodepoint_of_view last]
    cases ends : cps.dropWhile fun cp => !endsComment cp with
    | nil => exact .inl rfl
    | cons cp rest =>
        have stops := List.head?_dropWhile_not (fun cp => !endsComment cp) cps
        rw [ends] at stops
        have isNewline : cp = 0x0A := by simpa [endsComment] using stops
        exact .inr (by rw [List.head?_cons, isNewline])

theorem outcome_single (view : View lx (cp :: cps))
    (single : singleCharToken cp = some (type, value)) :
    TurnOutcome vocabulary lx (pushTokenValue (skipCp lx) type value line col endCol) := by
  obtain ⟨passes, last⟩ := skipCp_passes view
  obtain ⟨bytes, split, isText⟩ := passes.text
  obtain ⟨text, rest, rfl, encodes, isRest⟩ := Codepoints.split isText
  rw [Codepoints.eq_nil isRest, List.append_nil] at split
  exact .inl ⟨_, _, _, reads_push split passes.errors passes.out, .single encodes single, last⟩

theorem lexMinus_notNumber (notNumber : isNumberStart (peekCp (skipCp lx)) = false) :
    lexMinusOrNegativeNumber lx line col =
      pushTokenValue (skipCp { skipCp lx with rest := lx.rest }) .minus [0x2D] line col
        (col + 1) := by
  unfold lexMinusOrNegativeNumber
  rw [if_neg (Bool.eq_false_iff.mp notNumber)]

/-- A minus read a second time is read as the first. -/
theorem skipCp_again (lx : Lexer) :
    (skipCp { skipCp lx with rest := lx.rest }).rest = (skipCp lx).rest ∧
      (skipCp { skipCp lx with rest := lx.rest }).errors = lx.errors ∧
      (skipCp { skipCp lx with rest := lx.rest }).out = lx.out := by
  refine ⟨by rw [skipCp_rest, skipCp_rest], ?_, ?_⟩
  · rw [skipCp_errors]
    exact skipCp_errors lx
  · rw [(skipCp_advances _).out]
    exact (skipCp_advances lx).out

theorem outcome_minus (view : View lx (0x2D :: cps)) :
    TurnOutcome vocabulary lx (lexMinusOrNegativeNumber lx line col) := by
  obtain ⟨passes, next⟩ := skipCp_passes view
  obtain ⟨bytes, split, isText⟩ := passes.text
  obtain ⟨text, rest, rfl, encodes, isRest⟩ := Codepoints.split isText
  rw [Codepoints.eq_nil isRest, List.append_nil, encodes.eq_ascii (by decide)] at split
  by_cases starts : isNumberStart (peekCp (skipCp lx)) = true
  · rw [peekCp_of_view next] at starts
    obtain ⟨used, left, number, rfl, reads, -, -, isNumber⟩ := parseNumber_reads next starts
    unfold lexMinusOrNegativeNumber
    dsimp only
    rw [peekCp_of_view next, if_pos starts]
    split
    · exact .inr (dirty_report ..)
    · next inRange =>
        simp only [Bool.or_eq_true, Bool.not_eq_true', decide_eq_true_eq, not_or,
          Bool.not_eq_false] at inRange
        split
        · next ok =>
            obtain ⟨-, further⟩ | ⟨notOk, -⟩ := reads.moved
            · obtain ⟨digits, digitSplit, isDigits⟩ := further.text
              rw [digitSplit] at split
              refine .inl ⟨0x2D :: digits, _, _, reads_push ?_
                (further.errors.trans passes.errors) (further.out.trans passes.out), ?_,
                reads.view⟩
              · rw [split]
                rfl
              · rw [reads.val inRange.1]
                rw [reads.val inRange.1] at inRange
                refine .negative isDigits ?_ (by omega)
                rw [show (pushImmediateToken (parseNumber (skipCp lx)).1 _ line col _).rest =
                  (parseNumber (skipCp lx)).1.rest from rfl, firstCodepoint_of_view reads.view,
                  ← nextCp_eq]
                exact isNumber ok
            · rw [ok] at notOk
              contradiction
        · next notOk =>
            obtain ⟨ok, -⟩ | ⟨-, middle, msg, -, equal⟩ := reads.moved
            · exact absurd ok notOk
            · rw [equal]
              exact .inr (dirty_report ..)
  · have notNumber : isNumberStart (peekCp (skipCp lx)) = false := Bool.eq_false_iff.mpr starts
    obtain ⟨sameRest, sameErrors, sameOut⟩ := skipCp_again lx
    rw [lexMinus_notNumber notNumber]
    refine .inl ⟨[0x2D], _, _, reads_push (by rw [sameRest]; exact split) sameErrors sameOut,
      .minus ?_, (congrArg (Codepoints · cps) sameRest).mpr next⟩
    rw [show (pushTokenValue (skipCp { skipCp lx with rest := lx.rest }) .minus [0x2D] line col
      (col + 1)).rest = (skipCp lx).rest from sameRest, firstCodepoint_of_view next, ← nextCp_eq,
      ← peekCp_of_view next]
    exact notNumber

theorem outcome_number (view : View lx cps) (starts : isNumberStart (nextCp cps) = true) :
    TurnOutcome vocabulary lx (lexNumber lx line col) := by
  obtain ⟨used, left, number, rfl, reads, -, -, isNumber⟩ := parseNumber_reads view starts
  unfold lexNumber
  dsimp only
  split
  · exact .inr (dirty_report ..)
  · next fits =>
      have fits : (parseNumber lx).2.fits = true := by simpa using fits
      split
      · next ok =>
          obtain ⟨-, passes⟩ | ⟨notOk, -⟩ := reads.moved
          · obtain ⟨digits, split, isDigits⟩ := passes.text
            refine .inl ⟨digits, _, _, reads_push split passes.errors passes.out, ?_, reads.view⟩
            rw [reads.val fits]
            have small := reads.fits
            rw [fits] at small
            refine .number isDigits ?_ (of_decide_eq_true small.symm)
            rw [show (pushImmediateToken (parseNumber lx).1 _ line col _).rest =
              (parseNumber lx).1.rest from rfl, firstCodepoint_of_view reads.view, ← nextCp_eq]
            exact isNumber ok
          · rw [ok] at notOk
            contradiction
      · next notOk =>
          obtain ⟨ok, -⟩ | ⟨-, middle, msg, -, equal⟩ := reads.moved
          · exact absurd ok notOk
          · rw [equal]
            exact .inr (dirty_report ..)

theorem outcome_directive (view : View lx (0x2E :: cps)) :
    TurnOutcome vocabulary lx (lexDirective lx line col) := by
  obtain ⟨passes, next⟩ := skipCp_passes view
  obtain ⟨bytes, split, isText⟩ := passes.text
  obtain ⟨text, rest, rfl, encodes, isRest⟩ := Codepoints.split isText
  rw [Codepoints.eq_nil isRest, List.append_nil, encodes.eq_ascii (by decide)] at split
  obtain ⟨further, last⟩ := skipWhile_passes continuesDirective
    (skipCp lx).rest.length next (fuel_of_view next)
  obtain ⟨nameSplit, isName⟩ := consumed_of_passes further
  rw [nameSplit] at split
  refine .inl ⟨_, _, _, reads_push split (further.errors.trans passes.errors)
    (further.out.trans passes.out), .directive isName (all_takeWhile _) ?_, last⟩
  change continuesDirective ((firstCodepoint (skipWhile continuesDirective _ _).rest).getD 0) = _
  rw [firstCodepoint_of_view last, ← nextCp_eq]
  exact nextCp_dropWhile (by decide) _

/-- The loop of a string pushes its token or leaves an error. -/
def StringOutcome (before after : Lexer) (buf : List UInt8) : Prop :=
  (∃ text value cps last line col endCol, StringText text value ∧
      before.rest = text ++ last.rest ∧ last.errors = before.errors ∧ last.out = before.out ∧
      after = pushTokenValue last .string (buf ++ value) line col endCol ∧ View last cps) ∨
    errorHasAny after.errors = true

/-- A part of a string passed over before the rest of it. -/
theorem StringOutcome.passed {middle : Lexer} {bytes piece buf : List UInt8}
    (split : before.rest = bytes ++ middle.rest) (sameErrors : middle.errors = before.errors)
    (sameOut : middle.out = before.out)
    (reads : ∀ text value, StringText text value → StringText (bytes ++ text) (piece ++ value))
    (outcome : StringOutcome middle after (buf ++ piece)) : StringOutcome before after buf := by
  rcases outcome with ⟨text, value, cps, last, line, col, endCol, isString, further, errors, out,
    pushed, view⟩ | dirty
  · refine .inl ⟨bytes ++ text, piece ++ value, cps, last, line, col, endCol, reads _ _ isString, ?_,
      errors.trans sameErrors, out.trans sameOut, ?_, view⟩
    · rw [split, further, List.append_assoc]
    · rw [pushed, List.append_assoc]
  · exact .inr dirty

/-- Errors stay through the loop of a string. -/
theorem lexStringLoop_dirty (fuel : Nat) (lx : Lexer) (buf : List UInt8) (ok : Bool)
    (dirty : errorHasAny lx.errors = true) :
    errorHasAny (lexStringLoop line col fuel lx buf ok).errors = true := by
  induction fuel generalizing lx buf ok with
  | zero => exact dirty
  | succ fuel inductionHypothesis =>
      have skipped : errorHasAny (skipCp lx).errors = true := by rwa [skipCp_errors]
      rw [lexStringLoop]
      split
      · exact dirty_report ..
      · split
        · exact inductionHypothesis _ _ _ (dirty_report ..)
        · dsimp only
          split
          · split
            · exact skipped
            · exact skipped
          · split
            · exact dirty_report ..
            · split
              · split
                · exact dirty_report ..
                · split
                  · exact inductionHypothesis _ _ _ (by rwa [skipCp_errors])
                  · exact inductionHypothesis _ _ _ (by rw [skipCp_errors]; exact dirty_report ..)
              · exact inductionHypothesis _ _ _ skipped

theorem escapeByte_small {esc : Nat} {out : UInt8} (escape : escapeByte esc = some out) :
    esc < 0x80 := by
  unfold escapeByte at escape
  repeat' split at escape
  all_goals first
    | contradiction
    | omega

theorem lexStringLoop_outcome (fuel : Nat) (view : View lx cps) (enough : cps.length < fuel)
    (buf : List UInt8) :
    StringOutcome lx (lexStringLoop line col fuel lx buf true) buf := by
  induction fuel generalizing lx cps buf with
  | zero => exact absurd enough (Nat.not_lt_zero _)
  | succ fuel inductionHypothesis =>
      rw [lexStringLoop, atEnd_of_view view, atIllFormedUtf8_of_view view]
      cases cps with
      | nil => exact .inr (dirty_report ..)
      | cons cp cps =>
          rw [List.isEmpty_cons, if_neg (by decide), if_neg (by decide)]
          dsimp only
          have isNext : peekCp lx = cp := peekCp_of_view view
          rw [isNext]
          obtain ⟨passes, next⟩ := skipCp_passes view
          obtain ⟨bytes, split, isText⟩ := passes.text
          obtain ⟨text, rest, rfl, encodes, isRest⟩ := Codepoints.split isText
          rw [Codepoints.eq_nil isRest, List.append_nil] at split
          have shorter := Nat.lt_of_succ_lt_succ enough
          split
          · next quote =>
              subst quote
              rw [encodes.eq_ascii (by decide)] at split
              exact .inl ⟨_, _, cps, skipCp lx, line, col, (skipCp lx).col, .close, split,
                passes.errors, passes.out, by simp, next⟩
          · next notQuote =>
              split
              · exact .inr (dirty_report ..)
              · next notLine =>
                  split
                  · next backslash =>
                      subst backslash
                      rw [encodes.eq_ascii (by decide)] at split
                      rw [atEnd_of_view next]
                      cases cps with
                      | nil => exact .inr (dirty_report ..)
                      | cons esc cps =>
                          rw [List.isEmpty_cons, if_neg (by decide), peekCp_of_view next]
                          have isEsc : nextCp (esc :: cps) = esc := rfl
                          rw [isEsc]
                          obtain ⟨passesEsc, afterEsc⟩ := skipCp_passes next
                          obtain ⟨escBytes, splitEsc, isEscText⟩ := passesEsc.text
                          obtain ⟨escText, none, rfl, escEncodes, isNone⟩ :=
                            Codepoints.split isEscText
                          rw [Codepoints.eq_nil isNone, List.append_nil] at splitEsc
                          split
                          · next out isEscape =>
                              have small := escapeByte_small isEscape
                              rw [escEncodes.eq_ascii small] at splitEsc
                              have whole : lx.rest =
                                  [0x5C, UInt8.ofNat esc] ++ (skipCp (skipCp lx)).rest := by
                                rw [split, splitEsc]
                                rfl
                              have value : (UInt8.ofNat esc).toNat = esc := by
                                rw [UInt8.toNat_ofNat']
                                omega
                              have reads : ∀ text value, StringText text value →
                                  StringText ([0x5C, UInt8.ofNat esc] ++ text) ([out] ++ value) :=
                                fun text _ isString => .escape (by rw [value]; exact small)
                                  (by rw [value]; exact isEscape) isString
                              exact .passed whole (passesEsc.errors.trans passes.errors)
                                (passesEsc.out.trans passes.out) reads
                                (inductionHypothesis afterEsc (Nat.lt_of_succ_lt shorter) _)
                          · exact .inr (lexStringLoop_dirty _ _ _ _ (by
                              rw [skipCp_errors]
                              exact dirty_report ..))
                  · next notEscape =>
                      have isConsumed : consumed lx (skipCp lx) = text :=
                        (passes.rest_eq (.single encodes) split).2
                      rw [isConsumed]
                      exact .passed split passes.errors passes.out
                        (fun text value isString => .plain encodes notQuote
                          (fun newline => notLine (.inl newline))
                          (fun return_ => notLine (.inr return_)) notEscape isString)
                        (inductionHypothesis next shorter _)

theorem outcome_string (view : View lx (0x22 :: cps)) :
    TurnOutcome vocabulary lx (lexString lx line col) := by
  obtain ⟨passes, next⟩ := skipCp_passes view
  obtain ⟨bytes, split, isText⟩ := passes.text
  obtain ⟨text, rest, rfl, encodes, isRest⟩ := Codepoints.split isText
  rw [Codepoints.eq_nil isRest, List.append_nil, encodes.eq_ascii (by decide)] at split
  have outcome : StringOutcome (skipCp lx)
      (lexStringLoop line col ((skipCp lx).rest.length + 1) (skipCp lx) [] true) [] :=
    lexStringLoop_outcome _ next (Nat.lt_succ_of_le (fuel_of_view next)) []
  rcases outcome with
    ⟨text, value, left, last, startLine, startCol, endCol, isString, further, errors, out, pushed,
      view⟩ | dirty
  · have result : lexString lx line col =
        pushTokenValue last .string value startLine startCol endCol := pushed
    rw [result]
    rw [further] at split
    exact .inl ⟨0x22 :: text, _, left, reads_push split (errors.trans passes.errors)
      (out.trans passes.out), .string isString, view⟩
  · exact .inr dirty

theorem scanIdent_passes (view : View lx cps) :
    Passes lx (scanIdent lx) (cps.takeWhile isIdentContinue) ∧
      View (scanIdent lx) (cps.dropWhile isIdentContinue) :=
  skipWhile_passes isIdentContinue lx.rest.length view (fuel_of_view view)

theorem isIdentContinue_of_start (starts : isIdentStart cp = true) : isIdentContinue cp = true := by
  unfold isIdentStart at starts
  unfold isIdentContinue
  grind

/-- After an identifier, by what follows it. -/
theorem lexIdentifier_eq {after : Lexer} {id : List UInt8} (scanned : scanIdent lx = after)
    (isId : consumed lx after = id) (view : View after back) :
    @lexIdentifier vocabulary lx line col =
      if back.head? = some 0x3A then
        let after :=
          if hasReservedRegisterPrefix id then lexReservedPrefixError after line col after.col
          else after
        pushTokenValue (skipCp after) .labelDef id line col ((skipCp after).col - 1)
      else
        match wordType vocabulary id with
        | some type => pushTokenValue after type id line col after.col
        | none =>
            pushTokenValue (lexReservedPrefixError after line col after.col) .labelRef id line col
              after.col := by
  have colon : (!atEnd after && decide (peekCp after = 0x3A)) = decide (back.head? = some 0x3A) := by
    rw [atEnd_of_view view, peekCp_of_view view]
    cases back <;> simp [nextCp]
  unfold lexIdentifier wordType
  rw [scanned]
  dsimp only
  rw [isId, colon]
  by_cases isLabel : back.head? = some 0x3A
  · simp only [isLabel, decide_true, if_true]
  · simp only [isLabel, decide_false, if_false, Bool.false_eq_true]
    split
    · rfl
    · split
      · rfl
      · split
        · rfl
        · rfl

theorem outcome_ident (view : View lx (cp :: cps)) (starts : isIdentStart cp = true) :
    TurnOutcome vocabulary lx (@lexIdentifier vocabulary lx line col) := by
  obtain ⟨passes, next⟩ := scanIdent_passes view
  obtain ⟨split, isText⟩ := consumed_of_passes passes
  have isName : IdentText (consumed lx (scanIdent lx)) := by
    rw [List.takeWhile_cons_of_pos (isIdentContinue_of_start starts)] at isText
    exact ⟨cp, _, isText, starts, all_takeWhile _⟩
  have stops : isIdentContinue (nextCp ((cp :: cps).dropWhile isIdentContinue)) = false :=
    nextCp_dropWhile (by decide) _
  rw [lexIdentifier_eq rfl rfl next]
  generalize (cp :: cps).dropWhile isIdentContinue = back at next stops ⊢
  generalize scanIdent lx = after at *
  split
  · next colon =>
      obtain ⟨left, rfl⟩ : ∃ left, back = 0x3A :: left := by
        cases back with
        | nil => contradiction
        | cons cp left => exact ⟨left, by rw [Option.some.inj colon]⟩
      by_cases reserved : hasReservedRegisterPrefix (consumed lx after) = true
      · rw [if_pos reserved]
        refine .inr ?_
        change errorHasAny (skipCp _).errors = true
        rw [skipCp_errors]
        exact dirty_report ..
      · rw [if_neg reserved]
        obtain ⟨passesColon, last⟩ := skipCp_passes next
        obtain ⟨bytes, colonSplit, isColon⟩ := passesColon.text
        obtain ⟨text, rest, rfl, encodes, isRest⟩ := Codepoints.split isColon
        rw [Codepoints.eq_nil isRest, List.append_nil, encodes.eq_ascii (by decide)] at colonSplit
        have whole : lx.rest = consumed lx after ++ [0x3A] ++ (skipCp after).rest := by
          rw [List.append_assoc]
          exact split.trans (congrArg (consumed lx after ++ ·) colonSplit)
        exact .inl ⟨consumed lx after ++ [0x3A], _, _,
          reads_push whole (passesColon.errors.trans passes.errors)
            (passesColon.out.trans passes.out),
          .labelDef isName (Bool.eq_false_iff.mpr reserved), last⟩
  · next notColon =>
      split
      · next type isType =>
          refine .inl ⟨_, _, _, reads_push split passes.errors passes.out,
            .word isName ?_ ?_ isType, next⟩
          · change firstCodepoint after.rest ≠ _
            rwa [firstCodepoint_of_view next]
          · change isIdentContinue ((firstCodepoint after.rest).getD 0) = false
            rwa [firstCodepoint_of_view next, ← nextCp_eq]
      · exact .inr (dirty_report ..)

/-- A turn of the main loop reads a spelled piece or leaves an error. -/
theorem lexStep_outcome (view : View lx (cp :: cps)) :
    TurnOutcome vocabulary lx (@lexStep vocabulary lx) := by
  have isNext : peekCp lx = cp := peekCp_of_view view
  unfold lexStep
  dsimp only
  rw [isNext]
  split
  · next blank => exact outcome_blank view blank
  · split
    · next newline =>
        subst newline
        obtain ⟨reads, last⟩ : Reads lx (lexNewline lx lx.line lx.col) [0x0A] .newline ∧
            View (lexNewline lx lx.line lx.col) _ := reads_newline view
        exact .inl ⟨_, _, _, reads, .newline, last⟩
    · split
      · next semicolon =>
          subst semicolon
          exact outcome_comment view
      · split
        · next single => exact outcome_single view single
        · split
          · next minus =>
              subst minus
              exact outcome_minus view
          · split
            · next dot =>
                subst dot
                exact outcome_directive view
            · split
              · next quote =>
                  subst quote
                  exact outcome_string view
              · split
                · next starts => exact outcome_number view starts
                · split
                  · next starts => exact outcome_ident view starts
                  · rw [atIllFormedUtf8_of_view view, if_neg (by decide)]
                    refine .inr ?_
                    rw [skipCp_errors]
                    exact dirty_report ..

end Reading

end Nazm.Lexer
