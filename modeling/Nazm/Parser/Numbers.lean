import Nazm.Lexer.Spelling
import Nazm.Parser.Parser

/-!
Number literals.

Owns literals of any length in the three bases, the token that the lexer makes
of each, and what `strtoll` reads back from its text.

Does not own the machine arithmetic, nor where a number may stand.
-/

namespace Nazm.Parser

open Nazm.Encoder Nazm.Lexer Nazm.Unicode Nazm.Diagnostics

/-! ## Decimal texts -/

/-- A number is written as the number without its last digit, and that digit. -/
theorem decimal_eq (number : Nat) :
    decimal number = (if number < 10 then [] else decimal (number / 10)) ++
      [UInt8.ofNat (0x30 + number % 10)] := by
  have table : ∀ value : Fin 10, UInt8.ofNat (Nat.digitChar value.val).toNat =
      UInt8.ofNat (0x30 + value.val) := by decide
  have digit : ∀ value, value < 10 →
      UInt8.ofNat (Nat.digitChar value).toNat = UInt8.ofNat (0x30 + value) :=
    fun value small => table ⟨value, small⟩
  rw [decimal, Nat.toDigits_eq_if (by decide)]
  split
  · next small => rw [Nat.mod_eq_of_lt small, List.map_singleton, digit number small, List.nil_append]
  · rw [List.map_append, List.map_singleton, digit _ (Nat.mod_lt _ (by decide))]
    rfl

/-- A number is read back from its digits. -/
theorem digitsValue_decimal (number : Nat) : digitsValue (decimal number) = number := by
  have digits : (∀ byte ∈ decimal number, isAsciiDigit byte.toNat = true) ∧
      (decimal number).foldl (fun value byte => 10 * value + (byte.toNat - 0x30)) 0 = number := by
    induction number using Nat.strongRecOn with
    | ind number inductionHypothesis =>
        have byte : (UInt8.ofNat (0x30 + number % 10)).toNat = 0x30 + number % 10 :=
          Utf8.toNat_ofNat_small (by omega)
        have isDigit : isAsciiDigit (0x30 + number % 10) = true := by
          simp only [isAsciiDigit, Bool.and_eq_true, decide_eq_true_eq]
          omega
        rw [decimal_eq]
        split
        · next small =>
            simp only [List.nil_append, List.mem_singleton, forall_eq, List.foldl_cons,
              List.foldl_nil, byte, isDigit, true_and]
            omega
        · next large =>
            obtain ⟨front, value⟩ := inductionHypothesis (number / 10) (by omega)
            simp only [List.mem_append, List.mem_singleton, List.foldl_append, List.foldl_cons,
              List.foldl_nil, value, byte]
            refine ⟨fun other member => ?_, by omega⟩
            rcases member with inFront | rfl
            · exact front other inFront
            · rw [byte]
              exact isDigit
  have whole : (decimal number).takeWhile (fun byte => isAsciiDigit byte.toNat) =
      decimal number := by
    have all := @List.takeWhile_append_of_pos _ _ _ [] digits.1
    rwa [List.takeWhile_nil, List.append_nil] at all
  rw [digitsValue, whole]
  exact digits.2

/-- A minus does not start a decimal text. -/
theorem decimal_ne_minus (number : Nat) (digits : List UInt8) : decimal number ≠ 0x2D :: digits := by
  induction number using Nat.strongRecOn generalizing digits with
  | ind number inductionHypothesis =>
      rw [decimal_eq]
      split
      · intro same
        have byte : (UInt8.ofNat (0x30 + number % 10)).toNat = 0x30 + number % 10 :=
          Utf8.toNat_ofNat_small (by omega)
        rw [(List.cons.inj same).1] at byte
        have isMinus : (0x2D : UInt8).toNat = 0x2D := rfl
        omega
      · next large =>
          intro same
          rcases List.append_eq_cons_iff.mp same with ⟨empty, -⟩ | ⟨front, isFront, -⟩
          · rw [decimal_eq] at empty
            exact List.cons_ne_nil _ _ (List.append_eq_nil_iff.mp empty).2
          · exact inductionHypothesis (number / 10) (by omega) front isFront

/-- The text of every 64-bit integer is read back. -/
theorem strtoll_decimalInt {value : Int} (low : -2 ^ 63 ≤ value) (high : value ≤ 2 ^ 63 - 1) :
    (strtoll (decimalInt value)).toInt = value := by
  have clamped : ∀ read : Int, read = value →
      (Int64.ofInt (max (-2 ^ 63) (min (2 ^ 63 - 1) read))).toInt = value := by
    rintro read rfl
    have inside : max (-2 ^ 63) (min (2 ^ 63 - 1) read) = read := by omega
    rw [inside, Int64.toInt_ofInt_of_le low (by omega)]
  cases value with
  | ofNat number =>
      unfold decimalInt strtoll
      refine clamped _ ?_
      split
      · next digits isText => exact absurd isText (decimal_ne_minus number digits)
      · rw [digitsValue_decimal]
        rfl
  | negSucc number =>
      unfold decimalInt strtoll
      refine clamped _ ?_
      change -(digitsValue (decimal (number + 1)) : Int) = _
      rw [digitsValue_decimal]
      rfl

/-! ## Literals -/

/-- The base of a literal; the mark of the last two may be a capital letter. -/
inductive NumberBase where
  | decimal
  | hexadecimal (capital : Bool)
  | binary (capital : Bool)
deriving DecidableEq, Repr

namespace NumberBase

def digitValue : NumberBase → Nat → Option Nat
  | decimal => decimalDigitValue
  | hexadecimal _ => hexDigitValue
  | binary _ => binaryDigitValue

def radix : NumberBase → Nat
  | decimal => 10
  | hexadecimal _ => 16
  | binary _ => 2

/-- What stands in front of the digits. -/
def mark : NumberBase → List Nat
  | decimal => []
  | hexadecimal capital => [0x30, if capital then 0x58 else 0x78]
  | binary capital => [0x30, if capital then 0x42 else 0x62]

theorem isBase (base : NumberBase) : IsBaseOf base.digitValue base.radix := by
  cases base with
  | decimal => exact isBaseOf_decimal
  | hexadecimal capital => exact isBaseOf_hexadecimal
  | binary capital => exact isBaseOf_binary

end NumberBase

/-- A literal: a minus or none, and digits of a base; a decimal literal has one. -/
structure NumberLiteral where
  negative : Bool
  base : NumberBase
  digits : List Nat
  isDigits : ∀ cp ∈ digits, isDigitOf base.digitValue cp = true
  some_ : base = .decimal → digits ≠ []

namespace NumberLiteral

/-- The codepoints after the minus. -/
def magnitudeCps (literal : NumberLiteral) : List Nat := literal.base.mark ++ literal.digits

def codepoints (literal : NumberLiteral) : List Nat :=
  (if literal.negative then [0x2D] else []) ++ literal.magnitudeCps

def magnitude (literal : NumberLiteral) : Nat :=
  digitsNumber literal.base.digitValue literal.base.radix 0 literal.digits

/-- The exact value. -/
def value (literal : NumberLiteral) : Int :=
  if literal.negative then -literal.magnitude else literal.magnitude

/-- A value that 64 bits hold, signed or not. -/
def Holds (literal : NumberLiteral) : Prop :=
  literal.digits ≠ [] ∧ -2 ^ 63 ≤ literal.value ∧ literal.value ≤ 2 ^ 64 - 1

/-- The value with the bits of the exact value. -/
def signedValue (literal : NumberLiteral) : Int :=
  if literal.value ≤ 2 ^ 63 - 1 then literal.value else literal.value - 2 ^ 64

/-- The bytes after the literal do not continue it: no digit, and no mark of
another base after a zero. -/
def EndsBefore (literal : NumberLiteral) (rest : List UInt8) : Prop :=
  isDigitOf literal.base.digitValue (utf8PeekCodepoint rest) = false ∧
    (literal.base = .decimal → literal.digits = [0x30] →
      ¬(utf8PeekCodepoint rest = 0x78 ∨ utf8PeekCodepoint rest = 0x58) ∧
        ¬(utf8PeekCodepoint rest = 0x62 ∨ utf8PeekCodepoint rest = 0x42))

end NumberLiteral

/-! ## Scanning -/

section Scanning

variable {lx : Lexer} {bytes text rest : List UInt8} {cp : Nat} {cps : List Nat}

/-- The cursor after some codepoints of one line. -/
def passed (lx : Lexer) (rest : List UInt8) (count : Nat) : Lexer :=
  { lx with rest := rest, col := lx.col + count }

theorem skipCp_passed (here : lx.rest = bytes ++ rest) (encodes : Encodes bytes cp)
    (notNewline : cp ≠ 0x0A) : skipCp lx = passed lx rest 1 := by
  rw [skipCp, here, encodes.decodes]
  exact if_neg notNewline

theorem peekCp_here (here : lx.rest = bytes ++ rest) (encodes : Encodes bytes cp) :
    peekCp lx = cp := by
  rw [peekCp, here, encodes.peek]

theorem atEnd_here (here : lx.rest = bytes ++ rest) (encodes : Encodes bytes cp) :
    atEnd lx = false := by
  rw [atEnd, here, List.isEmpty_eq_false_iff]
  exact fun nil => encodes.nonempty (List.append_eq_nil_iff.mp nil).1

/-- The digit loop reads the digits, whatever follows them. -/
theorem digitLoop_digits {digitValue : Nat → Option Nat} {base : Nat}
    (isBase : IsBaseOf digitValue base) (isText : Codepoints text cps)
    (isDigits : ∀ cp ∈ cps, isDigitOf digitValue cp = true)
    (stops : isDigitOf digitValue (utf8PeekCodepoint rest) = false) (here : lx.rest = text ++ rest)
    {fuel : Nat} (enough : cps.length ≤ fuel) {val : Nat} (room : val < 2 ^ 64)
    (fits got : Bool) :
    ∃ read, digitLoop digitValue base fuel lx val fits got =
        (passed lx rest cps.length, read,
          fits && decide (digitsNumber digitValue base val cps < 2 ^ 64), got || !cps.isEmpty) ∧
      (fits = true → digitsNumber digitValue base val cps < 2 ^ 64 →
        read = digitsNumber digitValue base val cps) := by
  induction isText generalizing lx fuel val fits got with
  | nil =>
      have same : lx = passed lx rest 0 := by
        have unread : lx.rest = rest := here
        rw [passed, ← unread]
        rfl
      refine ⟨val, ?_, fun _ _ => rfl⟩
      have none : digitValue (peekCp lx) = none := by
        rw [peekCp, here]
        simpa [isDigitOf] using stops
      have noDigits : (fits && decide (digitsNumber digitValue base val [] < 2 ^ 64)) = fits := by
        rw [digitsNumber, List.foldl_nil, decide_eq_true room, Bool.and_true]
      rw [noDigits]
      cases fuel with
      | zero => simp [digitLoop, ← same]
      | succ fuel =>
          rw [digitLoop, none]
          simp [← same]
  | @cons bytes text cp cps encodes isText inductionHypothesis =>
      rw [List.forall_mem_cons] at isDigits
      obtain ⟨fuel, rfl⟩ := Nat.exists_eq_add_of_le' (Nat.le_trans (Nat.le_add_left 1 _) enough)
      obtain ⟨digit, isDigit⟩ := Option.isSome_iff_exists.mp isDigits.1
      have notNewline : cp ≠ 0x0A := by
        rintro rfl
        rw [isBase.newline] at isDigits
        exact Bool.false_ne_true isDigits.1
      rw [List.append_assoc] at here
      have shorter : cps.length ≤ fuel := Nat.le_of_succ_le_succ enough
      have number : digitsNumber digitValue base val (cp :: cps) =
          digitsNumber digitValue base (val * base + digit) cps := by
        simp [digitsNumber, isDigit]
      have moved : ∀ middle, passed (passed lx middle 1) rest cps.length =
          passed lx rest (cp :: cps).length := by
        intro middle
        have columns : lx.col + 1 + cps.length = lx.col + (cp :: cps).length := by
          rw [List.length_cons]
          omega
        simp only [passed, columns]
      rw [digitLoop, atEnd_here here encodes, if_neg Bool.false_ne_true, peekCp_here here encodes,
        isDigit]
      dsimp only
      rw [skipCp_passed here encodes notNewline, number,
        appendDigit_eq isBase.positive (isBase.small cp digit isDigit)]
      by_cases inRange : val * base + digit < 2 ^ 64
      · rw [if_pos inRange]
        obtain ⟨read, reads, isRead⟩ :=
          @inductionHypothesis (passed lx (text ++ rest) 1) isDigits.2 rfl fuel shorter
            (val * base + digit) inRange fits true
        dsimp only
        refine ⟨read, ?_, isRead⟩
        rw [reads, moved]
        simp
      · rw [if_neg inRange]
        obtain ⟨read, reads, -⟩ :=
          @inductionHypothesis (passed lx (text ++ rest) 1) isDigits.2 rfl fuel shorter val room
            false true
        have large := @le_digitsNumber digitValue _ isBase.positive (val * base + digit) cps
        dsimp only
        refine ⟨read, ?_, fun _ small => absurd small (by omega)⟩
        rw [reads, moved]
        simp only [Bool.false_and, List.isEmpty_cons, Bool.not_false, Bool.or_true, Bool.true_or,
          decide_eq_false (show ¬ digitsNumber digitValue base (val * base + digit) cps < 2 ^ 64 by
            omega), Bool.and_false]

/-- What the scanning of a literal comes to: the number behind the literal, or
an error for one without digits. -/
structure Scanned (lx : Lexer) (rest : List UInt8) (count : Nat) (some_ : Prop) (magnitude : Nat)
    (result : Lexer × Number) : Prop where
  read : some_ → ∃ val, result = (passed lx rest count, ⟨val, true, decide (magnitude < 2 ^ 64)⟩) ∧
    (magnitude < 2 ^ 64 → val = magnitude)
  malformed : ¬some_ → ∃ msg number, result = (lexError (passed lx rest count) msg, number) ∧
    number.ok = false ∧ number.fits = true ∧ number.val = 0

theorem parseDigits_scanned {digitValue : Nat → Option Nat} {base : Nat}
    (isBase : IsBaseOf digitValue base) (isText : Codepoints text cps)
    (isDigits : ∀ cp ∈ cps, isDigitOf digitValue cp = true)
    (stops : isDigitOf digitValue (utf8PeekCodepoint rest) = false) (here : lx.rest = text ++ rest)
    (malformed : List UInt8) (got : Bool) :
    Scanned lx rest cps.length (got = true ∨ cps ≠ []) (digitsNumber digitValue base 0 cps)
      (parseDigits digitValue base malformed lx got) := by
  have enough : cps.length ≤ lx.rest.length := by
    rw [here, List.length_append]
    exact Nat.le_trans isText.length_le (Nat.le_add_right _ _)
  obtain ⟨read, loop, isRead⟩ := @digitLoop_digits lx text rest cps digitValue base isBase isText
    isDigits stops here _ enough 0 (by decide) true got
  rw [parseDigits, loop]
  dsimp only
  rw [Bool.true_and]
  constructor
  · intro some_
    have any : (got || !cps.isEmpty) = true := by simpa using some_
    rw [any, if_pos rfl]
    exact ⟨read, rfl, isRead rfl⟩
  · intro none
    rw [not_or, not_not] at none
    obtain ⟨notGot, rfl⟩ := none
    rw [Bool.eq_false_iff.mpr notGot]
    exact ⟨_, _, rfl, rfl, by simp [digitsNumber], isRead rfl (by simp [digitsNumber])⟩

/-- The scanning of a part of a literal that begins with a codepoint passed
over. -/
theorem Scanned.passed {middle : List UInt8} {count first magnitude : Nat} {some_ : Prop}
    {result : Lexer × Number}
    (scanned : Scanned (Parser.passed lx middle first) rest count some_ magnitude result) :
    Scanned lx rest (first + count) some_ magnitude result := by
  have same : Parser.passed (Parser.passed lx middle first) rest count =
      Parser.passed lx rest (first + count) := by
    simp only [Parser.passed, Nat.add_assoc]
  obtain ⟨read, malformed⟩ := scanned
  rw [same] at read malformed
  exact ⟨read, malformed⟩

/-- A literal is scanned to its end, whatever follows it. -/
theorem parseNumber_scanned (literal : NumberLiteral)
    (isText : Codepoints text literal.magnitudeCps) (here : lx.rest = text ++ rest)
    (ends : literal.EndsBefore rest) :
    Scanned lx rest literal.magnitudeCps.length (literal.digits ≠ []) literal.magnitude
      (parseNumber lx) := by
  obtain ⟨negative, base, digits, isDigits, some_⟩ := literal
  obtain ⟨stops, alone⟩ := ends
  -- the mark of a base in front of its digits
  have marked : ∀ {digitValue : Nat → Option Nat} {radix : Nat} (mark : Nat) (malformed : List UInt8),
      IsBaseOf digitValue radix → (∀ cp ∈ digits, isDigitOf digitValue cp = true) →
      isDigitOf digitValue (utf8PeekCodepoint rest) = false → mark ≠ 0x0A →
      Codepoints text (0x30 :: mark :: digits) →
      peekCp lx = 0x30 ∧ peekCp (skipCp lx) = mark ∧
        Scanned lx rest (digits.length + 2) (digits ≠ []) (digitsNumber digitValue radix 0 digits)
          (parseDigits digitValue radix malformed (skipCp (skipCp lx)) false) := by
    intro digitValue radix mark malformed isBase isDigits stops notNewline isText
    obtain ⟨zero, text, rfl, encodesZero, isText⟩ := isText.split
    obtain ⟨one, text, rfl, encodesMark, isText⟩ := isText.split
    rw [List.append_assoc, List.append_assoc] at here
    have skipped := skipCp_passed here encodesZero (by decide)
    have next : (passed lx (one ++ (text ++ rest)) 1).rest = one ++ (text ++ rest) := rfl
    rw [skipped, skipCp_passed next encodesMark notNewline]
    have scanned := @parseDigits_scanned (passed (passed lx (one ++ (text ++ rest)) 1)
      (text ++ rest) 1) text rest digits digitValue radix isBase isText isDigits stops rfl
      malformed false
    rw [show digits.length + 2 = 1 + (1 + digits.length) by omega]
    refine ⟨peekCp_here here encodesZero, peekCp_here next encodesMark, ?_⟩
    simpa using scanned.passed.passed
  unfold parseNumber
  dsimp only [NumberLiteral.magnitudeCps, NumberLiteral.magnitude] at isText ⊢
  cases base with
  | hexadecimal capital =>
      obtain ⟨isZero, isMark, scanned⟩ := marked (if capital then 0x58 else 0x78)
        (utf8 "رقم ست عشري غير صحيح") isBaseOf_hexadecimal isDigits stops
        (by cases capital <;> decide) isText
      rw [if_neg (not_not.mpr isZero), isMark, if_pos (by cases capital <;> decide)]
      exact scanned
  | binary capital =>
      obtain ⟨isZero, isMark, scanned⟩ := marked (if capital then 0x42 else 0x62)
        (utf8 "رقم ثنائي غير صحيح") isBaseOf_binary isDigits stops
        (by cases capital <;> decide) isText
      rw [if_neg (not_not.mpr isZero), isMark, if_neg (by cases capital <;> decide),
        if_pos (by cases capital <;> decide)]
      exact scanned
  | decimal =>
      have some_ := some_ rfl
      obtain ⟨cp, digits, rfl⟩ := List.exists_cons_of_ne_nil some_
      rw [NumberBase.mark, List.nil_append] at isText ⊢
      obtain ⟨bytes, tail, split, encodes, isTail⟩ := isText.split
      have whole := here
      rw [split, List.append_assoc] at here
      rw [peekCp_here here encodes]
      by_cases zero : cp = 0x30
      · subst zero
        have skipped := skipCp_passed here encodes (by decide)
        rw [List.forall_mem_cons] at isDigits
        have notMark : ¬(peekCp (skipCp lx) = 0x78 ∨ peekCp (skipCp lx) = 0x58) ∧
            ¬(peekCp (skipCp lx) = 0x62 ∨ peekCp (skipCp lx) = 0x42) := by
          rw [skipped]
          cases digits with
          | nil =>
              have empty := isTail.eq_nil
              have peeked : peekCp (passed lx (tail ++ rest) 1) = utf8PeekCodepoint rest := by
                rw [empty]
                rfl
              rw [peeked]
              exact alone rfl rfl
          | cons digit digits =>
              obtain ⟨first, text, rfl, encodesDigit, -⟩ := isTail.split
              have next : (passed lx (first ++ text ++ rest) 1).rest = first ++ (text ++ rest) :=
                List.append_assoc ..
              rw [peekCp_here next encodesDigit]
              have isDigit := isDigits.2 digit List.mem_cons_self
              have range : (0x30 ≤ digit ∧ digit ≤ 0x39) ∨ (0x0660 ≤ digit ∧ digit ≤ 0x0669) := by
                simp only [NumberBase.digitValue, isDigitOf, decimalDigitValue, arabicDigitValue,
                  isAsciiDigit, nazmIsArabicDigit] at isDigit
                grind
              omega
        rw [if_neg (by decide), if_neg notMark.1, if_neg notMark.2, skipped]
        have scanned := @parseDigits_scanned (passed lx (tail ++ rest) 1) tail rest digits _ 10
          isBaseOf_decimal isTail isDigits.2 stops rfl (utf8 "رقم غير صحيح") true
        have same : digitsNumber decimalDigitValue 10 0 (0x30 :: digits) =
            digitsNumber decimalDigitValue 10 0 digits := by
          simp [digitsNumber, decimalDigitValue, isAsciiDigit]
        change Scanned _ _ _ _ (digitsNumber decimalDigitValue 10 0 (0x30 :: digits)) _
        rw [same, List.length_cons, Nat.add_comm]
        have some_ : (0x30 :: digits ≠ []) = (true = true ∨ digits ≠ []) := by simp
        rw [some_]
        exact scanned.passed
      · rw [if_pos zero]
        have scanned := @parseDigits_scanned lx text rest (cp :: digits) _ 10 isBaseOf_decimal
          isText isDigits stops whole (utf8 "رقم غير صحيح") false
        have same : (cp :: digits ≠ []) = (false = true ∨ cp :: digits ≠ []) := by simp
        rw [same]
        exact scanned

/-! ## The turn of the main loop -/

/-- The digits of a literal, or the zero of its mark, start a number. -/
theorem NumberLiteral.starts (literal : NumberLiteral) :
    ∃ cp tail, literal.magnitudeCps = cp :: tail ∧ isNumberStart cp = true := by
  obtain ⟨negative, base, digits, isDigits, some_⟩ := literal
  cases base with
  | decimal =>
      obtain ⟨cp, digits, rfl⟩ := List.exists_cons_of_ne_nil (some_ rfl)
      refine ⟨cp, digits, rfl, ?_⟩
      have isDigit := isDigits cp List.mem_cons_self
      unfold NumberBase.digitValue isDigitOf decimalDigitValue at isDigit
      unfold isNumberStart
      grind
  | hexadecimal capital => exact ⟨_, _, rfl, rfl⟩
  | binary capital => exact ⟨_, _, rfl, rfl⟩

/-- The bits of a number below 2^64, as a signed value. -/
theorem asSignedBits_eq {bits : Nat} (small : bits < 2 ^ 64) :
    asSignedBits bits = if (bits : Int) ≤ 2 ^ 63 - 1 then (bits : Int) else bits - 2 ^ 64 := by
  unfold asSignedBits
  grind

/-- The turn read the literal and pushed its token. -/
def Accepted (literal : NumberLiteral) (before after : Lexer) (rest : List UInt8) : Prop :=
  after = pushImmediateToken (passed before rest literal.codepoints.length) literal.signedValue
    before.line before.col (before.col + literal.codepoints.length)

/-- The turn read the literal and reported it. -/
def Refused (literal : NumberLiteral) (before after : Lexer) (rest : List UInt8) : Prop :=
  ∃ line col endCol msg,
    after = lexErrorAt (passed before rest literal.codepoints.length) line col endCol msg

theorem lexNumber_literal (literal : NumberLiteral) (positive : literal.negative = false)
    (isText : Codepoints text literal.codepoints) (here : lx.rest = text ++ rest)
    (ends : literal.EndsBefore rest) :
    (literal.Holds → Accepted literal lx (lexNumber lx lx.line lx.col) rest) ∧
      (¬literal.Holds → Refused literal lx (lexNumber lx lx.line lx.col) rest) := by
  have plain : literal.codepoints = literal.magnitudeCps := by
    rw [NumberLiteral.codepoints, positive]
    rfl
  have exact_ : literal.value = literal.magnitude := by
    rw [NumberLiteral.value, positive]
    rfl
  rw [plain] at isText
  have scanned := parseNumber_scanned literal isText here ends
  unfold Accepted Refused NumberLiteral.Holds NumberLiteral.signedValue
  rw [plain, exact_]
  by_cases some_ : literal.digits ≠ []
  · obtain ⟨val, result, isVal⟩ := scanned.read some_
    unfold lexNumber
    rw [result]
    dsimp only
    by_cases fits : literal.magnitude < 2 ^ 64
    · rw [isVal fits, decide_eq_true fits]
      refine ⟨fun _ => ?_, fun outside => absurd ⟨some_, by omega, by omega⟩ outside⟩
      rw [asSignedBits_eq fits]
      rfl
    · rw [decide_eq_false fits]
      exact ⟨fun holds => absurd holds.2.2 (by omega), fun _ => ⟨_, _, _, _, rfl⟩⟩
  · obtain ⟨msg, number, result, notOk, fits, -⟩ := scanned.malformed some_
    unfold lexNumber
    rw [result]
    dsimp only
    rw [fits, notOk]
    exact ⟨fun holds => absurd holds.1 some_, fun _ => ⟨_, _, _, _, rfl⟩⟩

theorem lexMinus_literal (literal : NumberLiteral) (isNegative : literal.negative = true)
    (isText : Codepoints text literal.codepoints) (here : lx.rest = text ++ rest)
    (ends : literal.EndsBefore rest) :
    (literal.Holds → Accepted literal lx (lexMinusOrNegativeNumber lx lx.line lx.col) rest) ∧
      (¬literal.Holds → Refused literal lx (lexMinusOrNegativeNumber lx lx.line lx.col) rest) := by
  have signed : literal.codepoints = 0x2D :: literal.magnitudeCps := by
    rw [NumberLiteral.codepoints, isNegative]
    rfl
  have exact_ : literal.value = -literal.magnitude := by
    rw [NumberLiteral.value, isNegative]
    rfl
  rw [signed] at isText
  obtain ⟨minus, text, rfl, encodes, isText⟩ := isText.split
  rw [List.append_assoc] at here
  have skipped := skipCp_passed here encodes (by decide)
  have next : (passed lx (text ++ rest) 1).rest = text ++ rest := rfl
  have scanned := (parseNumber_scanned literal isText next ends).passed
  have starts : isNumberStart (peekCp (passed lx (text ++ rest) 1)) = true := by
    obtain ⟨cp, tail, cps, isStart⟩ := literal.starts
    rw [cps] at isText
    obtain ⟨bytes, others, rfl, encodes, -⟩ := isText.split
    rw [List.append_assoc] at next
    have peeked := peekCp_here next encodes
    rw [← List.append_assoc] at peeked
    rwa [peeked]
  unfold Accepted Refused NumberLiteral.Holds NumberLiteral.signedValue lexMinusOrNegativeNumber
  dsimp only
  rw [skipped, if_pos starts, signed, exact_, List.length_cons, Nat.add_comm _ 1]
  by_cases some_ : literal.digits ≠ []
  · obtain ⟨val, result, isVal⟩ := scanned.read some_
    rw [result]
    dsimp only
    by_cases fits : literal.magnitude < 2 ^ 64
    · rw [isVal fits, decide_eq_true fits, Bool.not_true, Bool.false_or]
      by_cases small : literal.magnitude ≤ 2 ^ 63
      · refine ⟨fun _ => ?_, fun outside => absurd ⟨some_, by omega, by omega⟩ outside⟩
        have bits : asSignedBits ((2 ^ 64 - literal.magnitude) % 2 ^ 64) = -literal.magnitude := by
          rw [asSignedBits_eq (Nat.mod_lt _ (by decide))]
          by_cases zero : literal.magnitude = 0
          · simp [zero]
          · rw [Nat.mod_eq_of_lt (by omega)]
            omega
        rw [if_neg (by simpa using small), if_pos rfl, bits, if_pos (by omega)]
        rfl
      · rw [if_pos (by simpa using small)]
        exact ⟨fun holds => absurd holds.2.1 (by omega), fun _ => ⟨_, _, _, _, rfl⟩⟩
    · rw [decide_eq_false fits, Bool.not_false, Bool.true_or, if_pos rfl]
      exact ⟨fun holds => absurd holds.2.1 (by omega), fun _ => ⟨_, _, _, _, rfl⟩⟩
  · obtain ⟨msg, number, result, notOk, fits, zero⟩ := scanned.malformed some_
    rw [result]
    dsimp only
    rw [fits, notOk, zero]
    exact ⟨fun holds => absurd holds.1 some_, fun _ => ⟨_, _, _, _, rfl⟩⟩

/-- A turn at a literal pushes its token or reports it. -/
theorem lexStep_literal (literal : NumberLiteral) (isText : Codepoints text literal.codepoints)
    (here : lx.rest = text ++ rest) (ends : literal.EndsBefore rest) :
    (literal.Holds → Accepted literal lx (lexStep lx) rest) ∧
      (¬literal.Holds → Refused literal lx (lexStep lx) rest) := by
  obtain ⟨cp, tail, cps, starts⟩ := literal.starts
  have whole := here
  cases isNegative : literal.negative with
  | false =>
      have plain : literal.codepoints = cp :: tail := by
        rw [NumberLiteral.codepoints, isNegative, cps]
        rfl
      have split := isText
      rw [plain] at split
      obtain ⟨bytes, others, rfl, encodes, -⟩ := split.split
      rw [List.append_assoc] at here
      rw [lexStep_number (by rwa [peekCp_here here encodes])]
      exact lexNumber_literal literal isNegative isText whole ends
  | true =>
      have split := isText
      rw [NumberLiteral.codepoints, isNegative] at split
      obtain ⟨bytes, others, rfl, encodes, -⟩ := Codepoints.split split
      rw [List.append_assoc] at here
      rw [lexStep_minus (peekCp_here here encodes)]
      exact lexMinus_literal literal isNegative isText whole ends

end Scanning

end Nazm.Parser
