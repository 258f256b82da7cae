import Nazm.Lexer.Spelling

/-!
The lexer accepts its grammar.

Owns that a turn of the main loop reads every spelled piece, and that the lexer
accepts exactly the sources that pieces spell, with the lexemes of the pieces.

Does not own positions.
-/

namespace Nazm.Lexer

open Nazm.Encoder Nazm.Unicode Nazm.Diagnostics

section Reading

variable {vocabulary : Vocabulary} {lx before after : Lexer} {text rest value : List UInt8}
  {cp : Nat} {cps used back : List Nat} {type : TokenType} {line col endCol : Nat}

/-! ## A turn reads every spelled piece -/

theorem stops_of_next {continues : Nat → Bool} (stops : continues (back.head?.getD 0) = false) :
    ∀ cp, back.head? = some cp → continues cp = false := by
  intro cp isHead
  rwa [isHead] at stops

/-- The digits of a number are read to the codepoint that stops them. -/
theorem parseDigits_text {digitValue : Nat → Option Nat} {base : Nat}
    (isBase : IsBaseOf digitValue base) (view : View lx (used ++ back))
    (digits : ∀ cp ∈ used, isDigitOf digitValue cp = true)
    (stops : isDigitOf digitValue (back.head?.getD 0) = false) (malformed : List UInt8)
    (got : Bool) (some_ : got = true ∨ used ≠ []) :
    ReadsNumber lx used back (digitsNumber digitValue base 0 used)
        (parseDigits digitValue base malformed lx got) ∧
      (parseDigits digitValue base malformed lx got).2.ok = true := by
  obtain ⟨reads, ok⟩ := parseDigits_reads isBase view malformed got
  obtain ⟨front, last⟩ := takeWhile_text digits (stops_of_next stops)
  rw [front] at reads ok
  rw [last] at reads
  refine ⟨reads, ok.trans ?_⟩
  rcases some_ with rfl | some_
  · rfl
  · cases used with
    | nil => exact absurd rfl some_
    | cons => exact Bool.or_true got

theorem isNumberStart_of_digit (isDigit : isDigitOf decimalDigitValue cp = true) :
    isNumberStart cp = true := by
  unfold isDigitOf decimalDigitValue at isDigit
  unfold isNumberStart
  grind

/-- A spelled number is read whole. -/
theorem parseNumber_text {number : Nat} (view : View lx (used ++ back))
    (isNumber : NumberText used number (back.head?.getD 0)) :
    ReadsNumber lx used back number (parseNumber lx) ∧ (parseNumber lx).2.ok = true := by
  cases isNumber with
  | decimal some_ digits stops notMark =>
      obtain ⟨cp, rest, rfl⟩ := List.exists_cons_of_ne_nil some_
      have isNext : peekCp lx = cp := peekCp_of_view view
      unfold parseNumber
      rw [isNext]
      by_cases zero : cp = 0x30
      · subst zero
        obtain ⟨passes, next⟩ := skipCp_passes view
        rw [if_neg (by decide)]
        dsimp only
        rw [peekCp_of_view next]
        have follows : nextCp (rest ++ back) ≠ 0x78 ∧ nextCp (rest ++ back) ≠ 0x58 ∧
            nextCp (rest ++ back) ≠ 0x62 ∧ nextCp (rest ++ back) ≠ 0x42 := by
          cases rest with
          | nil =>
              rw [List.nil_append, nextCp_eq]
              exact notMark rfl
          | cons digit rest =>
              have isDigit := digits digit (by simp)
              have isNext : nextCp (digit :: rest ++ back) = digit := rfl
              rw [isNext]
              refine ⟨?_, ?_, ?_, ?_⟩ <;> (rintro rfl; exact absurd isDigit (by decide))
        rw [if_neg (by simp [follows.1, follows.2.1]), if_neg (by simp [follows.2.2])]
        obtain ⟨reads, ok⟩ := parseDigits_text isBaseOf_decimal next
          (fun cp member => digits cp (List.mem_cons_of_mem _ member)) stops
          (utf8 "رقم غير صحيح") true (.inl rfl)
        have same : digitsNumber decimalDigitValue 10 0 (0x30 :: rest) =
            digitsNumber decimalDigitValue 10 0 rest := by
          simp [digitsNumber, decimalDigitValue, isAsciiDigit]
        rw [same]
        exact ⟨reads.passed passes, ok⟩
      · rw [if_pos zero]
        exact parseDigits_text isBaseOf_decimal view digits stops _ false (.inr some_)
  | @hexadecimal mark digits _ isMark some_ isDigits stops =>
      obtain ⟨passes, next⟩ := skipCp_passes view
      obtain ⟨passesMark, afterMark⟩ := skipCp_passes next
      have isNext : peekCp lx = 0x30 := peekCp_of_view view
      have isNextMark : peekCp (skipCp lx) = mark := peekCp_of_view next
      obtain ⟨reads, ok⟩ := parseDigits_text isBaseOf_hexadecimal afterMark isDigits stops
        (utf8 "رقم ست عشري غير صحيح") false (.inr some_)
      have result : parseNumber lx = parseHexNumber (skipCp (skipCp lx)) := by
        unfold parseNumber
        simp only [isNext, isNextMark, if_pos isMark]
        rfl
      rw [result]
      exact ⟨reads.passed (passes.trans passesMark), ok⟩
  | @binary mark digits _ isMark some_ isDigits stops =>
      obtain ⟨passes, next⟩ := skipCp_passes view
      obtain ⟨passesMark, afterMark⟩ := skipCp_passes next
      have isNext : peekCp lx = 0x30 := peekCp_of_view view
      have isNextMark : peekCp (skipCp lx) = mark := peekCp_of_view next
      obtain ⟨reads, ok⟩ := parseDigits_text isBaseOf_binary afterMark isDigits stops
        (utf8 "رقم ثنائي غير صحيح") false (.inr some_)
      have notHex : ¬(mark = 0x78 ∨ mark = 0x58) := by omega
      have result : parseNumber lx = parseBinaryNumber (skipCp (skipCp lx)) := by
        unfold parseNumber
        simp only [isNext, isNextMark, if_neg notHex, if_pos isMark]
        rfl
      rw [result]
      exact ⟨reads.passed (passes.trans passesMark), ok⟩

theorem numberText_starts {number next : Nat} (isNumber : NumberText (cp :: cps) number next) :
    isNumberStart cp = true := by
  cases isNumber with
  | decimal _ digits _ _ => exact isNumberStart_of_digit (digits cp List.mem_cons_self)
  | hexadecimal _ _ _ _ => decide
  | binary _ _ _ _ => decide

/-- The loop of a string reads every spelled string. -/
theorem lexStringLoop_text (isString : StringText text value) (isRest : Codepoints rest back)
    (split : lx.rest = text ++ rest) (fuel : Nat) (enough : text.length < fuel)
    (buf : List UInt8) :
    ∃ last endCol, last.rest = rest ∧ last.errors = lx.errors ∧ last.out = lx.out ∧
      lexStringLoop line col fuel lx buf true =
        pushTokenValue last .string (buf ++ value) line col endCol := by
  induction isString generalizing lx fuel buf with
  | close =>
      obtain ⟨fuel, rfl⟩ := Nat.exists_eq_add_one.mpr (Nat.lt_of_le_of_lt (Nat.zero_le _) enough)
      have view : View lx (0x22 :: back) :=
        view_append (codepoints_ascii _ (by decide)) isRest split
      obtain ⟨passes, -⟩ := skipCp_passes view
      have isNext : peekCp lx = 0x22 := peekCp_of_view view
      refine ⟨skipCp lx, (skipCp lx).col, (passes.rest_eq (codepoints_ascii _ (by decide)) split).1,
        passes.errors, passes.out, ?_⟩
      rw [lexStringLoop, atEnd_of_view view, atIllFormedUtf8_of_view view, List.append_nil]
      simp [isNext]
  | @escape esc out text value small isEscape isString inductionHypothesis =>
      obtain ⟨fuel, rfl⟩ := Nat.exists_eq_add_one.mpr (Nat.lt_of_le_of_lt (Nat.zero_le _) enough)
      obtain ⟨cps, isText⟩ := isString.codepoints
      have view : View lx (0x5C :: esc.toNat :: cps ++ back) :=
        view_append (.cons (.byte 0x5C (by decide)) (.cons (.ascii small) isText))
          isRest split
      obtain ⟨passes, next⟩ := skipCp_passes view
      obtain ⟨passesEsc, afterEsc⟩ := skipCp_passes next
      obtain ⟨sameRest, -⟩ := passes.rest_eq (codepoints_ascii 0x5C (by decide)) split
      obtain ⟨lastRest, -⟩ := passesEsc.rest_eq (codepoints_ascii _ small) sameRest
      obtain ⟨last, endCol, same, errors, out', equal⟩ := inductionHypothesis lastRest fuel
        (by simp only [List.length_cons] at enough; omega) (buf ++ [out])
      have isNext : peekCp lx = 0x5C := peekCp_of_view view
      have isEsc : peekCp (skipCp lx) = esc.toNat := peekCp_of_view next
      refine ⟨last, endCol, same, errors.trans (passesEsc.errors.trans passes.errors),
        out'.trans (passesEsc.out.trans passes.out), ?_⟩
      rw [lexStringLoop, atEnd_of_view view, atIllFormedUtf8_of_view view]
      simp only [isNext, isEsc, isEscape, atEnd_of_view next]
      simpa using equal
  | @plain bytes text value cp encodes notQuote notNewline notReturn notEscape isString
      inductionHypothesis =>
      obtain ⟨fuel, rfl⟩ := Nat.exists_eq_add_one.mpr (Nat.lt_of_le_of_lt (Nat.zero_le _) enough)
      obtain ⟨cps, isText⟩ := isString.codepoints
      have view : View lx (cp :: cps ++ back) := view_append (.cons encodes isText) isRest split
      obtain ⟨passes, -⟩ := skipCp_passes view
      rw [List.append_assoc] at split
      obtain ⟨sameRest, isConsumed⟩ := passes.rest_eq (.single encodes) split
      have some_ := List.length_pos_iff.mpr encodes.nonempty
      obtain ⟨last, endCol, same, errors, out, equal⟩ := inductionHypothesis sameRest fuel
        (by rw [List.length_append] at enough; omega) (buf ++ bytes)
      have isNext : peekCp lx = cp := peekCp_of_view view
      refine ⟨last, endCol, same, errors.trans passes.errors, out.trans passes.out, ?_⟩
      rw [lexStringLoop, atEnd_of_view view, atIllFormedUtf8_of_view view]
      simp only [isNext, isConsumed, notQuote, notNewline, notReturn, notEscape]
      simpa using equal

/-! ## One lemma for each kind of piece -/

/-- A number that fits in 64 bits is read to its end, with its value. -/
theorem parseNumber_passes {number : Nat} (view : View lx (used ++ back))
    (isNumber : NumberText used number (back.head?.getD 0)) (small : number < 2 ^ 64) :
    Passes lx (parseNumber lx).1 used ∧ (parseNumber lx).2.ok = true ∧
      (parseNumber lx).2.fits = true ∧ (parseNumber lx).2.val = number := by
  obtain ⟨reads, ok⟩ := parseNumber_text view isNumber
  have fits : (parseNumber lx).2.fits = true := reads.fits.trans (decide_eq_true small)
  rcases reads.moved with ⟨-, passes⟩ | ⟨notOk, -⟩
  · exact ⟨passes, ok, fits, reads.val fits⟩
  · rw [ok] at notOk
    contradiction

theorem numberText_nextCp {number : Nat} (isNumber : NumberText cps number (back.head?.getD 0)) :
    isNumberStart (nextCp (cps ++ back)) = true := by
  cases cps with
  | nil =>
      cases isNumber with
      | decimal some_ _ _ _ => exact absurd rfl some_
  | cons cp cps => exact numberText_starts isNumber

/-- The name of a label or a word is scanned to its end. -/
theorem scanIdent_text (isName : IdentText text) (isRest : Codepoints rest back)
    (split : lx.rest = text ++ rest) (stops : isIdentContinue (back.head?.getD 0) = false) :
    isIdentStart (peekCp lx) = true ∧ View (scanIdent lx) back ∧ (scanIdent lx).rest = rest ∧
      consumed lx (scanIdent lx) = text ∧ ∃ cps, Passes lx (scanIdent lx) cps := by
  obtain ⟨first, cps, isText, starts, continues⟩ := isName
  have view : View lx (first :: cps ++ back) := view_append isText isRest split
  obtain ⟨passes, next⟩ := scanIdent_passes view
  have all : ∀ cp ∈ first :: cps, isIdentContinue cp = true :=
    List.forall_mem_cons.mpr ⟨isIdentContinue_of_start starts, continues⟩
  obtain ⟨front, last⟩ := takeWhile_text all (stops_of_next stops)
  rw [front] at passes
  rw [last] at next
  obtain ⟨sameRest, isConsumed⟩ := passes.rest_eq isText split
  have startsHere : isIdentStart (peekCp lx) = true := by
    rw [peekCp_of_view view]
    exact starts
  exact ⟨startsHere, next, sameRest, isConsumed, _, passes⟩

theorem reads_blank {byte : UInt8} (isBlank : byte = 0x20 ∨ byte = 0x09 ∨ byte = 0x0D)
    (isRest : Codepoints rest back) (split : lx.rest = [byte] ++ rest) :
    Reads lx (@lexStep vocabulary lx) [byte] .blank := by
  have small : byte.toNat < 0x80 := by rcases isBlank with rfl | rfl | rfl <;> decide
  have view : View lx (byte.toNat :: back) := view_append (codepoints_ascii _ small) isRest split
  have isNext : peekCp lx = byte.toNat := peekCp_of_view view
  rw [lexStep_blank (by rw [isNext]; rcases isBlank with rfl | rfl | rfl <;> decide)]
  exact (reads_silent (skipCp_passes view).1 (codepoints_ascii _ small) split (.inl rfl)).2

theorem reads_lineFeed (isRest : Codepoints rest back) (split : lx.rest = [0x0A] ++ rest) :
    Reads lx (@lexStep vocabulary lx) [0x0A] .newline := by
  have view : View lx (0x0A :: back) := view_append (codepoints_ascii _ (by decide)) isRest split
  rw [lexStep_newline (peekCp_of_view view)]
  exact (reads_newline view).1

/-- A comment is skipped up to the end of its line. -/
theorem reads_comment (isText : Codepoints text cps) (oneLine : 0x0A ∉ cps)
    (ends : back.head? = none ∨ back.head? = some 0x0A) (isRest : Codepoints rest back)
    (split : lx.rest = 0x3B :: text ++ rest) :
    Reads lx (@lexStep vocabulary lx) (0x3B :: text) .comment := by
  have isComment : Codepoints (0x3B :: text) (0x3B :: cps) :=
    .cons (.byte 0x3B (by decide)) isText
  have view : View lx (0x3B :: cps ++ back) := view_append isComment isRest split
  have continues : ∀ cp ∈ (0x3B :: cps : List Nat), (!endsComment cp) = true := by
    intro cp member
    rw [List.mem_cons] at member
    rcases member with rfl | inText
    · decide
    · have notNewline : cp ≠ 0x0A := fun newline => oneLine (newline ▸ inText)
      simp [endsComment, notNewline]
  have stops : ∀ cp, back.head? = some cp → (!endsComment cp) = false := by
    intro cp isHead
    rcases ends with atEnd | newline
    · rw [atEnd] at isHead
      contradiction
    · rw [newline] at isHead
      rw [← Option.some.inj isHead]
      rfl
  obtain ⟨passes, -⟩ := lexCommentLoop_passes lx.rest.length view (fuel_of_view view)
  rw [(takeWhile_text continues stops).1] at passes
  rw [lexStep_comment (peekCp_of_view view)]
  exact (reads_silent passes isComment split (.inr rfl)).2

theorem reads_single (encodes : Encodes text cp)
    (single : singleCharToken cp = some (type, value)) (isRest : Codepoints rest back)
    (split : lx.rest = text ++ rest) :
    Reads lx (@lexStep vocabulary lx) text (.token (type, value)) := by
  have view : View lx (cp :: back) := view_append (.single encodes) isRest split
  have isNext : peekCp lx = cp := peekCp_of_view view
  obtain ⟨passes, -⟩ := skipCp_passes view
  rw [lexStep_single (by rw [isNext]; exact single)]
  rw [← (passes.rest_eq (.single encodes) split).1] at split
  exact reads_push split passes.errors passes.out

theorem reads_minus (notNumber : isNumberStart (back.head?.getD 0) = false)
    (isRest : Codepoints rest back) (split : lx.rest = [0x2D] ++ rest) :
    Reads lx (@lexStep vocabulary lx) [0x2D] (.token (.minus, [0x2D])) := by
  have view : View lx (0x2D :: back) := view_append (codepoints_ascii _ (by decide)) isRest split
  obtain ⟨passes, next⟩ := skipCp_passes view
  have isLone : isNumberStart (peekCp (skipCp lx)) = false := by
    rw [peekCp_of_view next, nextCp_eq]
    exact notNumber
  rw [lexStep_minus (peekCp_of_view view), lexMinus_notNumber isLone]
  obtain ⟨sameRest, sameErrors, sameOut⟩ := skipCp_again lx
  rw [← (passes.rest_eq (codepoints_ascii _ (by decide)) split).1, ← sameRest] at split
  exact reads_push split sameErrors sameOut

theorem reads_number {number : Nat} (isText : Codepoints text cps)
    (isNumber : NumberText cps number (back.head?.getD 0)) (small : number < 2 ^ 64)
    (isRest : Codepoints rest back) (split : lx.rest = text ++ rest) :
    Reads lx (@lexStep vocabulary lx) text
      (.token (.immediate, decimalInt (asSignedBits number))) := by
  have view : View lx (cps ++ back) := view_append isText isRest split
  obtain ⟨passes, ok, fits, isValue⟩ := parseNumber_passes view isNumber small
  rw [← (passes.rest_eq isText split).1] at split
  rw [lexStep_number (by rw [peekCp_of_view view]; exact numberText_nextCp isNumber)]
  unfold lexNumber
  dsimp only
  rw [if_neg (by simp [fits]), if_pos ok, isValue]
  exact reads_push split passes.errors passes.out

theorem reads_negative {number : Nat} (isText : Codepoints text cps)
    (isNumber : NumberText cps number (back.head?.getD 0)) (small : number ≤ 2 ^ 63)
    (isRest : Codepoints rest back) (split : lx.rest = 0x2D :: text ++ rest) :
    Reads lx (@lexStep vocabulary lx) (0x2D :: text)
      (.token (.immediate, decimalInt (asSignedBits ((2 ^ 64 - number) % 2 ^ 64)))) := by
  have isNegative : Codepoints (0x2D :: text) (0x2D :: cps) :=
    .cons (.byte 0x2D (by decide)) isText
  have view : View lx (0x2D :: cps ++ back) := view_append isNegative isRest split
  obtain ⟨passes, next⟩ := skipCp_passes view
  obtain ⟨further, ok, fits, isValue⟩ := parseNumber_passes next isNumber (by omega)
  have isNext : peekCp (skipCp lx) = nextCp (cps ++ back) := peekCp_of_view next
  rw [← ((passes.trans further).rest_eq isNegative split).1] at split
  rw [lexStep_minus (peekCp_of_view view)]
  unfold lexMinusOrNegativeNumber
  dsimp only
  rw [isNext, if_pos (numberText_nextCp isNumber), isValue, if_neg (by simp [fits]; omega),
    if_pos ok]
  exact reads_push split (further.errors.trans passes.errors) (further.out.trans passes.out)

theorem reads_directive (isText : Codepoints text cps)
    (continues : ∀ cp ∈ cps, continuesDirective cp = true)
    (stops : continuesDirective (back.head?.getD 0) = false) (isRest : Codepoints rest back)
    (split : lx.rest = 0x2E :: text ++ rest) :
    Reads lx (@lexStep vocabulary lx) (0x2E :: text) (.token (.directive, 0x2E :: text)) := by
  have isDirective : Codepoints (0x2E :: text) (0x2E :: cps) :=
    .cons (.byte 0x2E (by decide)) isText
  have view : View lx (0x2E :: cps ++ back) := view_append isDirective isRest split
  obtain ⟨passes, next⟩ := skipCp_passes view
  have sameRest : (skipCp lx).rest = text ++ rest :=
    (passes.rest_eq (codepoints_ascii 0x2E (by decide)) split).1
  obtain ⟨further, -⟩ := skipWhile_passes continuesDirective
    (skipCp lx).rest.length next (fuel_of_view next)
  rw [show cps.append back = cps ++ back from rfl,
    (takeWhile_text continues (stops_of_next stops)).1] at further
  obtain ⟨lastRest, isConsumed⟩ := further.rest_eq isText sameRest
  rw [← lastRest] at split
  rw [lexStep_directive (peekCp_of_view view), ← isConsumed]
  exact reads_push (by rw [isConsumed]; exact split) (further.errors.trans passes.errors)
    (further.out.trans passes.out)

theorem reads_string (isString : StringText text value) (isRest : Codepoints rest back)
    (split : lx.rest = 0x22 :: text ++ rest) :
    Reads lx (@lexStep vocabulary lx) (0x22 :: text) (.token (.string, value)) := by
  obtain ⟨cps, isText⟩ := isString.codepoints
  have isWhole : Codepoints (0x22 :: text) (0x22 :: cps) :=
    .cons (.byte 0x22 (by decide)) isText
  have view : View lx (0x22 :: cps ++ back) := view_append isWhole isRest split
  obtain ⟨passes, next⟩ := skipCp_passes view
  have sameRest : (skipCp lx).rest = text ++ rest :=
    (passes.rest_eq (codepoints_ascii 0x22 (by decide)) split).1
  have enough : text.length < (skipCp lx).rest.length + 1 := by
    rw [sameRest, List.length_append]
    omega
  obtain ⟨last, endCol, lastRest, errors, out, result⟩ : ∃ last endCol, last.rest = rest ∧
      last.errors = (skipCp lx).errors ∧ last.out = (skipCp lx).out ∧
        lexString lx lx.line lx.col =
          pushTokenValue last .string value lx.line lx.col endCol :=
    lexStringLoop_text isString isRest sameRest _ enough []
  rw [lexStep_string (peekCp_of_view view), result]
  rw [← lastRest] at split
  exact reads_push split (errors.trans passes.errors) (out.trans passes.out)

/-- A label is read with the colon that ends it. -/
theorem reads_labelDef (isName : IdentText text)
    (notReserved : hasReservedRegisterPrefix text = false) (isRest : Codepoints rest back)
    (split : lx.rest = text ++ [0x3A] ++ rest) :
    Reads lx (@lexStep vocabulary lx) (text ++ [0x3A]) (.token (.labelDef, text)) := by
  rw [List.append_assoc] at split
  have isBack : Codepoints ([0x3A] ++ rest) (0x3A :: back) :=
    Codepoints.append (codepoints_ascii 0x3A (by decide)) isRest
  have colonStops : isIdentContinue ((0x3A :: back).head?.getD 0) = false := by
    rw [List.head?_cons, Option.getD_some]
    decide
  obtain ⟨starts, next, sameRest, isConsumed, _, passes⟩ :=
    scanIdent_text isName isBack split colonStops
  obtain ⟨passesColon, -⟩ := skipCp_passes next
  have colonRest : (skipCp (scanIdent lx)).rest = rest :=
    (passesColon.rest_eq (codepoints_ascii 0x3A (by decide)) sameRest).1
  rw [lexStep_ident starts, lexIdentifier_eq rfl isConsumed next, if_pos (List.head?_cons ..),
    if_neg (by simp [notReserved])]
  refine reads_push ?_ (passesColon.errors.trans passes.errors)
    (passesColon.out.trans passes.out)
  rw [colonRest, List.append_assoc]
  exact split

theorem reads_word (isName : IdentText text) (notColon : back.head? ≠ some 0x3A)
    (stops : isIdentContinue (back.head?.getD 0) = false)
    (isType : wordType vocabulary text = some type) (isRest : Codepoints rest back)
    (split : lx.rest = text ++ rest) :
    Reads lx (@lexStep vocabulary lx) text (.token (type, text)) := by
  obtain ⟨starts, next, sameRest, isConsumed, _, passes⟩ :=
    scanIdent_text isName isRest split stops
  rw [lexStep_ident starts, lexIdentifier_eq rfl isConsumed next, if_neg notColon, isType]
  refine reads_push ?_ passes.errors passes.out
  rw [sameRest]
  exact split

/-- A spelled piece is read, and nothing is reported. -/
theorem lexStep_reads {piece : Piece} (isRest : Codepoints rest back)
    (split : lx.rest = text ++ rest) (spells : Spells vocabulary text piece back.head?) :
    Reads lx (@lexStep vocabulary lx) text piece ∧ (@lexStep vocabulary lx).rest = rest := by
  -- the reading of a piece says where it ends
  suffices reads : Reads lx (@lexStep vocabulary lx) text piece from
    ⟨reads, List.append_cancel_left (reads.text.symm.trans split)⟩
  cases spells with
  | blank isBlank => exact reads_blank isBlank isRest split
  | newline => exact reads_lineFeed isRest split
  | comment isText oneLine ends => exact reads_comment isText oneLine ends isRest split
  | single encodes isToken => exact reads_single encodes isToken isRest split
  | minus notNumber => exact reads_minus notNumber isRest split
  | number isText isNumber small => exact reads_number isText isNumber small isRest split
  | negative isText isNumber small => exact reads_negative isText isNumber small isRest split
  | directive isText continues stops => exact reads_directive isText continues stops isRest split
  | string isString => exact reads_string isString isRest split
  | labelDef isName notReserved => exact reads_labelDef isName notReserved isRest split
  | word isName notColon stops isType =>
      exact reads_word isName notColon stops isType isRest split

/-! ## The main loop -/

/-- The main loop reads spelled pieces to the end. -/
theorem lexLoop_spelled {pieces : List Piece} (spelled : Spelled vocabulary text pieces)
    (fuel : Nat) (isText : lx.rest = text) (enough : text.length ≤ fuel) :
    (@lexLoop vocabulary fuel lx).errors = lx.errors ∧
      (@lexLoop vocabulary fuel lx).out.map Token.lexeme =
        lx.out.map Token.lexeme ++ lexemes (lastTokenIsNewline lx) pieces := by
  induction spelled generalizing fuel lx with
  | nil =>
      have same : @lexLoop vocabulary fuel lx = lx := by
        cases fuel with
        | zero => rfl
        | succ fuel => exact if_pos (by rw [atEnd, isText]; rfl)
      rw [same]
      exact ⟨rfl, by simp [lexemes]⟩
  | @cons text rest piece pieces spells spelled inductionHypothesis =>
      obtain ⟨back, isRest⟩ := spelled.codepoints
      have some_ := List.length_pos_iff.mpr spells.nonempty
      rw [firstCodepoint_of_codepoints isRest] at spells
      obtain ⟨reads, sameRest⟩ := lexStep_reads isRest isText spells
      rw [List.length_append] at enough
      obtain ⟨fuel, rfl⟩ := Nat.exists_eq_add_one.mpr
        (show 0 < fuel by omega)
      have unread : ¬ atEnd lx = true := by
        rw [atEnd, isText, List.isEmpty_iff, List.append_eq_nil_iff]
        exact fun empty => spells.nonempty empty.1
      obtain ⟨errors, out⟩ := inductionHypothesis fuel sameRest (by omega)
      rw [lexLoop, if_neg unread]
      exact ⟨errors.trans reads.errors, out.trans (reads.out pieces)⟩

/-- The main loop over well-formed UTF-8 reads spelled pieces or leaves an error. -/
theorem lexLoop_outcome (fuel : Nat) (view : View lx cps) (enough : lx.rest.length ≤ fuel) :
    (∃ pieces, Spelled .nazm lx.rest pieces) ∨
      errorHasAny (@lexLoop .nazm fuel lx).errors = true := by
  induction fuel generalizing lx cps with
  | zero =>
      rw [List.length_eq_zero_iff.mp (Nat.le_zero.mp enough)]
      exact .inl ⟨[], .nil⟩
  | succ fuel inductionHypothesis =>
      rw [lexLoop, atEnd_of_view view]
      cases cps with
      | nil =>
          rw [Codepoints.eq_nil view]
          exact .inl ⟨[], .nil⟩
      | cons cp cps =>
          rw [List.isEmpty_cons, if_neg (by decide)]
          rcases @lexStep_outcome .nazm _ _ _ view with
            ⟨text, piece, left, reads, spells, next⟩ | dirty
          · have some_ := List.length_pos_iff.mpr spells.nonempty
            have shorter := congrArg List.length reads.text
            rw [List.length_append] at shorter
            rcases inductionHypothesis next (by omega) with ⟨pieces, spelled⟩ | dirty
            · rw [reads.text]
              exact .inl ⟨_, .cons spells spelled⟩
            · exact .inr dirty
          · refine .inr (Bool.not_eq_false _ |>.mp fun clean => ?_)
            have before := (lexLoop_readsUtf8 fuel _ clean).clean
            rw [dirty] at before
            contradiction

/-- A spelled source is lexed without errors, into the lexemes of its pieces. -/
theorem lexerLex_spelled {src : SourceBuffer} {pieces : List Piece}
    (spelled : Spelled vocabulary src.data pieces) :
    errorHasAny (@lexerLex vocabulary src).errors = false ∧
      (@lexerLex vocabulary src).tokens.data.map Token.lexeme =
        lexemes false pieces ++ [(.eof, [])] := by
  obtain ⟨errors, out⟩ := @lexLoop_spelled _ ⟨src.data, 1, 1, [], .empty, src.name⟩ _ _ spelled
    src.data.length rfl (Nat.le_refl _)
  constructor
  · have same : (@lexerLex vocabulary src).errors = .empty := errors
    rw [same]
    rfl
  · change ((@lexLoop vocabulary src.data.length
      ⟨src.data, 1, 1, [], .empty, src.name⟩).out ++ [_]).map Token.lexeme = _
    rw [List.map_append, out]
    rfl

/-- The lexer accepts exactly the sources that pieces spell. -/
theorem lexerLex_iff {src : SourceBuffer} :
    errorHasAny (@lexerLex .nazm src).errors = false ↔ ∃ pieces, Spelled .nazm src.data pieces := by
  constructor
  · intro clean
    obtain ⟨cps, isText⟩ := codepoints_of_wellFormed (lexerLex_utf8 src clean).1
    rcases @lexLoop_outcome ⟨src.data, 1, 1, [], .empty, src.name⟩ _ src.data.length isText
      (Nat.le_refl _) with spelled | dirty
    · exact spelled
    · have same : errorHasAny (@lexerLex .nazm src).errors = true := dirty
      rw [clean] at same
      contradiction
  · rintro ⟨pieces, spelled⟩
    exact (lexerLex_spelled spelled).1

end Reading

end Nazm.Lexer
