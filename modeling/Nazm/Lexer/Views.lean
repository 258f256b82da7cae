import Nazm.Lexer.Encoding
import Nazm.Unicode.Codepoints

/-!
The cursor of the lexer over codepoints.

Owns what each loop of the lexer passes over when the source is well-formed
UTF-8: which codepoints, and where the line and column counters are afterwards.

Does not own which tokens are pushed.
-/

namespace Nazm.Lexer

open Nazm.Encoder Nazm.Unicode Nazm.Diagnostics

/-! ## Positions -/

/-- The line and the column after a codepoint. -/
def stepPosition (position : Nat × Nat) (cp : Nat) : Nat × Nat :=
  if cp = 0x0A then (position.1 + 1, 1) else (position.1, position.2 + 1)

/-- The line and the column after some codepoints. -/
def advancePosition (position : Nat × Nat) (cps : List Nat) : Nat × Nat :=
  cps.foldl stepPosition position

@[simp] theorem advancePosition_nil (position : Nat × Nat) :
    advancePosition position [] = position :=
  rfl

theorem advancePosition_cons (position : Nat × Nat) (cp : Nat) (cps : List Nat) :
    advancePosition position (cp :: cps) = advancePosition (stepPosition position cp) cps :=
  rfl

theorem advancePosition_append (position : Nat × Nat) (first second : List Nat) :
    advancePosition position (first ++ second) =
      advancePosition (advancePosition position first) second :=
  List.foldl_append ..

/-- On one line the column counts codepoints. -/
theorem advancePosition_line {cps : List Nat} (oneLine : 0x0A ∉ cps) (position : Nat × Nat) :
    advancePosition position cps = (position.1, position.2 + cps.length) := by
  induction cps generalizing position with
  | nil => rfl
  | cons cp cps inductionHypothesis =>
      rw [List.mem_cons, not_or] at oneLine
      rw [advancePosition_cons, stepPosition, if_neg (Ne.symm oneLine.1),
        inductionHypothesis oneLine.2, List.length_cons, Nat.add_right_comm, Nat.add_assoc]

/-! ## Views -/

/-- The line and the column of the cursor. -/
def cursorPosition (lx : Lexer) : Nat × Nat := (lx.line, lx.col)

/-- The unread bytes are these codepoints. -/
def View (lx : Lexer) (cps : List Nat) : Prop := Codepoints lx.rest cps

/-- The codepoint that follows; 0 at the end. -/
def nextCp (cps : List Nat) : Nat := cps.headD 0

/-- The cursor passed over some codepoints and did nothing else. -/
structure Passes (before after : Lexer) (used : List Nat) : Prop where
  text : ∃ bytes, before.rest = bytes ++ after.rest ∧ Codepoints bytes used
  position : cursorPosition after = advancePosition (cursorPosition before) used
  out : after.out = before.out
  errors : after.errors = before.errors

section Views

variable {lx before middle after : Lexer} {cp : Nat} {cps used first second : List Nat}

theorem Passes.refl (lx : Lexer) : Passes lx lx [] := ⟨⟨[], rfl, .nil⟩, rfl, rfl, rfl⟩

theorem Passes.trans (front : Passes before middle first) (back : Passes middle after second) :
    Passes before after (first ++ second) where
  text := by
    obtain ⟨one, oneSplit, isOne⟩ := front.text
    obtain ⟨two, twoSplit, isTwo⟩ := back.text
    exact ⟨one ++ two, by rw [oneSplit, twoSplit, List.append_assoc], isOne.append isTwo⟩
  position := by rw [back.position, front.position, advancePosition_append]
  out := back.out.trans front.out
  errors := back.errors.trans front.errors

theorem peekCp_of_view (view : View lx cps) : peekCp lx = nextCp cps := by
  cases cps with
  | nil => rw [peekCp, Codepoints.eq_nil view]; rfl
  | cons cp cps =>
      obtain ⟨-, -, -, isCp, -⟩ := Codepoints.decodes view
      exact isCp

theorem atEnd_of_view (view : View lx cps) : atEnd lx = cps.isEmpty := by
  cases cps with
  | nil => rw [atEnd, Codepoints.eq_nil view]; rfl
  | cons cp cps =>
      obtain ⟨bytes, rest, split, encodes, -⟩ := Codepoints.split view
      rw [atEnd, split]
      cases bytes with
      | nil => exact absurd rfl encodes.nonempty
      | cons => rfl

theorem atIllFormedUtf8_of_view (view : View lx cps) : atIllFormedUtf8 lx = false := by
  rw [atIllFormedUtf8, Bool.not_eq_false']
  cases cps with
  | nil => rw [Codepoints.eq_nil view]; rfl
  | cons cp cps =>
      obtain ⟨bytes, rest, split, encodes, -⟩ := Codepoints.split view
      rw [split]
      exact encodes.wellFormedAt rest

theorem skipCp_passes (view : View lx (cp :: cps)) :
    Passes lx (skipCp lx) [cp] ∧ View (skipCp lx) cps := by
  obtain ⟨bytes, split, encodes, isCp, isRest⟩ := Codepoints.decodes view
  rw [← skipCp_rest] at split isRest
  refine ⟨⟨⟨bytes, split, .single encodes⟩, ?_, (skipCp_advances lx).out, skipCp_errors lx⟩, isRest⟩
  unfold skipCp cursorPosition
  dsimp only
  rw [isCp, advancePosition_cons, advancePosition_nil, stepPosition]
  split <;> rfl

theorem fuel_of_view (view : View lx cps) : cps.length ≤ lx.rest.length := Codepoints.length_le view

theorem consumed_of_passes (passes : Passes before after used) :
    before.rest = consumed before after ++ after.rest ∧ Codepoints (consumed before after) used := by
  obtain ⟨bytes, split, isText⟩ := passes.text
  have same : consumed before after = bytes := by
    rw [consumed, split, List.length_append, Nat.add_sub_cancel_right, List.take_left']
    rfl
  rw [same]
  exact ⟨split, isText⟩

/-- A scanning loop passes over the codepoints that continue. -/
theorem skipWhile_passes (continues : Nat → Bool) (fuel : Nat) (view : View lx cps)
    (enough : cps.length ≤ fuel) :
    Passes lx (skipWhile continues fuel lx) (cps.takeWhile continues) ∧
      View (skipWhile continues fuel lx) (cps.dropWhile continues) := by
  induction fuel generalizing lx cps with
  | zero =>
      obtain rfl := List.length_eq_zero_iff.mp (Nat.le_zero.mp enough)
      exact ⟨.refl lx, view⟩
  | succ fuel inductionHypothesis =>
      rw [skipWhile, atEnd_of_view view, peekCp_of_view view]
      cases cps with
      | nil => exact ⟨.refl lx, view⟩
      | cons cp cps =>
          rw [List.isEmpty_cons, if_neg (by decide)]
          change Passes lx (if continues cp = true then _ else _) _ ∧
            View (if continues cp = true then _ else _) _
          by_cases more : continues cp = true
          · obtain ⟨passes, view⟩ := skipCp_passes view
            obtain ⟨further, last⟩ := inductionHypothesis view (Nat.le_of_succ_le_succ enough)
            rw [if_pos more, List.takeWhile_cons_of_pos more, List.dropWhile_cons_of_pos more]
            exact ⟨passes.trans further, last⟩
          · rw [if_neg more, List.takeWhile_cons_of_neg more, List.dropWhile_cons_of_neg more]
            exact ⟨.refl lx, view⟩

/-! ## Comments -/

def endsComment (cp : Nat) : Bool := decide (cp = 0x0A)

theorem lexCommentLoop_passes (fuel : Nat) (view : View lx cps) (enough : cps.length ≤ fuel) :
    Passes lx (lexCommentLoop fuel lx) (cps.takeWhile fun cp => !endsComment cp) ∧
      View (lexCommentLoop fuel lx) (cps.dropWhile fun cp => !endsComment cp) := by
  induction fuel generalizing lx cps with
  | zero =>
      obtain rfl := List.length_eq_zero_iff.mp (Nat.le_zero.mp enough)
      exact ⟨.refl lx, view⟩
  | succ fuel inductionHypothesis =>
      rw [lexCommentLoop, atEnd_of_view view, peekCp_of_view view, atIllFormedUtf8_of_view view]
      cases cps with
      | nil => exact ⟨.refl lx, view⟩
      | cons cp cps =>
          rw [List.isEmpty_cons, Bool.false_or]
          change Passes lx (if endsComment cp = true then _ else _) _ ∧
            View (if endsComment cp = true then _ else _) _
          by_cases ends : endsComment cp = true
          · rw [if_pos ends, List.takeWhile_cons_of_neg (by simp [ends]),
              List.dropWhile_cons_of_neg (by simp [ends])]
            exact ⟨.refl lx, view⟩
          · obtain ⟨passes, view⟩ := skipCp_passes view
            obtain ⟨further, last⟩ := inductionHypothesis view (Nat.le_of_succ_le_succ enough)
            rw [if_neg ends, if_neg (by decide), List.takeWhile_cons_of_pos (by simp [ends]),
              List.dropWhile_cons_of_pos (by simp [ends])]
            exact ⟨passes.trans further, last⟩

/-! ## Numbers -/

/-- The number that digits write after a number. -/
def digitsNumber (digitValue : Nat → Option Nat) (base val : Nat) (cps : List Nat) : Nat :=
  cps.foldl (fun val cp => val * base + (digitValue cp).getD 0) val

def isDigitOf (digitValue : Nat → Option Nat) (cp : Nat) : Bool := (digitValue cp).isSome

theorem le_digitsNumber {digitValue : Nat → Option Nat} {base : Nat} (positive : 1 ≤ base)
    (val : Nat) (cps : List Nat) : val ≤ digitsNumber digitValue base val cps := by
  induction cps generalizing val with
  | nil => exact Nat.le_refl _
  | cons cp cps inductionHypothesis =>
      have more := inductionHypothesis (val * base + (digitValue cp).getD 0)
      have grows := Nat.mul_le_mul_left val positive
      rw [digitsNumber, List.foldl_cons]
      rw [digitsNumber] at more
      omega

/-- `append_digit` keeps the number while it fits in 64 bits. -/
theorem appendDigit_eq {val base digit : Nat} (positive : 1 ≤ base) (small : digit < 2 ^ 64) :
    appendDigit val base digit =
      if val * base + digit < 2 ^ 64 then some (val * base + digit) else none := by
  rw [appendDigit]
  have bound : (2 ^ 64 - 1 - digit) / base < val ↔ ¬ val * base + digit < 2 ^ 64 := by
    rw [Nat.div_lt_iff_lt_mul positive]
    omega
  by_cases fits : val * base + digit < 2 ^ 64
  · rw [if_neg (by rw [bound]; exact not_not.mpr fits), if_pos fits]
  · rw [if_pos (bound.mpr fits), if_neg fits]

/-- The digit loop passes over the digits and has their number while it fits. -/
theorem digitLoop_passes {digitValue : Nat → Option Nat} {base : Nat} (positive : 1 ≤ base)
    (small : ∀ cp digit, digitValue cp = some digit → digit < 2 ^ 64) (fuel : Nat)
    (view : View lx cps) (enough : cps.length ≤ fuel) (val : Nat) (fits got : Bool)
    (room : val < 2 ^ 64) :
    Passes lx (digitLoop digitValue base fuel lx val fits got).1
        (cps.takeWhile (isDigitOf digitValue)) ∧
      View (digitLoop digitValue base fuel lx val fits got).1
        (cps.dropWhile (isDigitOf digitValue)) ∧
      (digitLoop digitValue base fuel lx val fits got).2.2.2 =
        (got || !(cps.takeWhile (isDigitOf digitValue)).isEmpty) ∧
      (digitLoop digitValue base fuel lx val fits got).2.2.1 =
        (fits && decide (digitsNumber digitValue base val
          (cps.takeWhile (isDigitOf digitValue)) < 2 ^ 64)) ∧
      ((digitLoop digitValue base fuel lx val fits got).2.2.1 = true →
        (digitLoop digitValue base fuel lx val fits got).2.1 =
          digitsNumber digitValue base val (cps.takeWhile (isDigitOf digitValue))) := by
  have noDigits : ∀ (val : Nat) (fits : Bool), val < 2 ^ 64 →
      fits = (fits && decide (digitsNumber digitValue base val [] < 2 ^ 64)) := by
    intro val fits room
    rw [digitsNumber, List.foldl_nil, decide_eq_true room, Bool.and_true]
  induction fuel generalizing lx cps val fits got with
  | zero =>
      obtain rfl := List.length_eq_zero_iff.mp (Nat.le_zero.mp enough)
      exact ⟨.refl lx, view, by simp [digitLoop], noDigits val fits room, fun _ => rfl⟩
  | succ fuel inductionHypothesis =>
      rw [digitLoop, atEnd_of_view view, peekCp_of_view view]
      cases cps with
      | nil => exact ⟨.refl lx, view, by simp, noDigits val fits room, fun _ => rfl⟩
      | cons cp cps =>
          rw [List.isEmpty_cons, if_neg (by decide)]
          have isNext : nextCp (cp :: cps) = cp := rfl
          rw [isNext]
          cases isDigit : digitValue cp with
          | none =>
              have stops : ¬ isDigitOf digitValue cp = true := by simp [isDigitOf, isDigit]
              dsimp only
              rw [List.takeWhile_cons_of_neg stops, List.dropWhile_cons_of_neg stops]
              exact ⟨.refl lx, view, by simp, noDigits val fits room, fun _ => rfl⟩
          | some digit =>
              have more : isDigitOf digitValue cp = true := by simp [isDigitOf, isDigit]
              obtain ⟨passes, next⟩ := skipCp_passes view
              have shorter := Nat.le_of_succ_le_succ enough
              have number : ∀ cps, digitsNumber digitValue base val (cp :: cps) =
                  digitsNumber digitValue base (val * base + digit) cps := by
                intro cps
                simp [digitsNumber, isDigit]
              dsimp only
              rw [List.takeWhile_cons_of_pos more, List.dropWhile_cons_of_pos more, number,
                appendDigit_eq positive (small cp digit isDigit)]
              by_cases inRange : val * base + digit < 2 ^ 64
              · rw [if_pos inRange]
                obtain ⟨further, last, isGot, isFits, isVal⟩ :=
                  inductionHypothesis next shorter (val * base + digit) fits true inRange
                exact ⟨passes.trans further, last, by rw [isGot]; simp, isFits, isVal⟩
              · rw [if_neg inRange]
                obtain ⟨further, last, isGot, isFits, -⟩ :=
                  inductionHypothesis next shorter val false true room
                have large := @le_digitsNumber digitValue _ positive
                  (val * base + digit) (cps.takeWhile (isDigitOf digitValue))
                have notFits : (digitLoop digitValue base fuel (skipCp lx) val false true).2.2.1 =
                    (fits && decide (digitsNumber digitValue base (val * base + digit)
                      (cps.takeWhile (isDigitOf digitValue)) < 2 ^ 64)) := by
                  rw [isFits, Bool.false_and, decide_eq_false (by omega), Bool.and_false]
                refine ⟨passes.trans further, last, by rw [isGot]; simp, notFits, fun yes => ?_⟩
                rw [isFits] at yes
                simp at yes

/-- The text of a number, its value, and the codepoint that stops it. -/
inductive NumberText : List Nat → Nat → Nat → Prop where
  | decimal {digits : List Nat} {next : Nat} :
      digits ≠ [] → (∀ cp ∈ digits, isDigitOf decimalDigitValue cp = true) →
      isDigitOf decimalDigitValue next = false →
      (digits = [0x30] → next ≠ 0x78 ∧ next ≠ 0x58 ∧ next ≠ 0x62 ∧ next ≠ 0x42) →
      NumberText digits (digitsNumber decimalDigitValue 10 0 digits) next
  | hexadecimal {mark : Nat} {digits : List Nat} {next : Nat} :
      mark = 0x78 ∨ mark = 0x58 → digits ≠ [] →
      (∀ cp ∈ digits, isDigitOf hexDigitValue cp = true) → isDigitOf hexDigitValue next = false →
      NumberText (0x30 :: mark :: digits) (digitsNumber hexDigitValue 16 0 digits) next
  | binary {mark : Nat} {digits : List Nat} {next : Nat} :
      mark = 0x62 ∨ mark = 0x42 → digits ≠ [] →
      (∀ cp ∈ digits, isDigitOf binaryDigitValue cp = true) →
      isDigitOf binaryDigitValue next = false →
      NumberText (0x30 :: mark :: digits) (digitsNumber binaryDigitValue 2 0 digits) next

/-- What the scanning of a number passed over, and the number it returned. -/
structure ReadsNumber (lx : Lexer) (used left : List Nat) (value : Nat)
    (result : Lexer × Number) : Prop where
  view : View result.1 left
  fits : result.2.fits = decide (value < 2 ^ 64)
  val : result.2.fits = true → result.2.val = value
  moved : (result.2.ok = true ∧ Passes lx result.1 used) ∨
    (result.2.ok = false ∧ ∃ middle msg, Passes lx middle used ∧ result.1 = lexError middle msg)

/-- The three bases: what their loops ask of a base and its digits. -/
structure IsBaseOf (digitValue : Nat → Option Nat) (base : Nat) : Prop where
  positive : 1 ≤ base
  small : ∀ cp digit, digitValue cp = some digit → digit < 2 ^ 64
  zero : isDigitOf digitValue 0 = false
  newline : isDigitOf digitValue 0x0A = false

theorem parseDigits_reads {digitValue : Nat → Option Nat} {base : Nat}
    (isBase : IsBaseOf digitValue base) (view : View lx cps) (malformed : List UInt8)
    (got : Bool) :
    ReadsNumber lx (cps.takeWhile (isDigitOf digitValue)) (cps.dropWhile (isDigitOf digitValue))
        (digitsNumber digitValue base 0 (cps.takeWhile (isDigitOf digitValue)))
        (parseDigits digitValue base malformed lx got) ∧
      (parseDigits digitValue base malformed lx got).2.ok =
        (got || !(cps.takeWhile (isDigitOf digitValue)).isEmpty) := by
  obtain ⟨passes, last, isGot, isFits, isVal⟩ := digitLoop_passes isBase.positive isBase.small
    lx.rest.length view (fuel_of_view view) 0 true got (by decide)
  rw [Bool.true_and] at isFits
  unfold parseDigits
  generalize digitLoop digitValue base lx.rest.length lx 0 true got = result at *
  obtain ⟨after, val, fits, gotAny⟩ := result
  dsimp only at *
  cases gotAny with
  | true => exact ⟨⟨last, isFits, isVal, .inl ⟨rfl, passes⟩⟩, isGot⟩
  | false => exact ⟨⟨last, isFits, isVal, .inr ⟨rfl, after, malformed, passes, rfl⟩⟩, isGot⟩

theorem isBaseOf_decimal : IsBaseOf decimalDigitValue 10 where
  positive := by decide
  small cp digit isDigit := by
    unfold decimalDigitValue arabicDigitValue isAsciiDigit nazmIsArabicDigit at isDigit
    grind
  zero := by decide
  newline := by decide

theorem isBaseOf_hexadecimal : IsBaseOf hexDigitValue 16 where
  positive := by decide
  small cp digit isDigit := by
    unfold hexDigitValue isAsciiDigit at isDigit
    grind
  zero := by decide
  newline := by decide

theorem isBaseOf_binary : IsBaseOf binaryDigitValue 2 where
  positive := by decide
  small cp digit isDigit := by
    unfold binaryDigitValue at isDigit
    grind
  zero := by decide
  newline := by decide

/-- The codepoint after a run of digits is none. -/
theorem nextCp_dropWhile {continues : Nat → Bool} (zero : continues 0 = false) (cps : List Nat) :
    continues (nextCp (cps.dropWhile continues)) = false := by
  induction cps with
  | nil => exact zero
  | cons cp cps inductionHypothesis =>
      by_cases more : continues cp = true
      · rw [List.dropWhile_cons_of_pos more]
        exact inductionHypothesis
      · rw [List.dropWhile_cons_of_neg more]
        exact Bool.eq_false_iff.mpr more

theorem all_takeWhile {continues : Nat → Bool} (cps : List Nat) :
    ∀ cp ∈ cps.takeWhile continues, continues cp = true :=
  List.all_eq_true.mp List.all_takeWhile

theorem ReadsNumber.passed {value : Nat} {result : Lexer × Number} (passes : Passes lx middle first)
    (reads : ReadsNumber middle used second value result) :
    ReadsNumber lx (first ++ used) second value result where
  view := reads.view
  fits := reads.fits
  val := reads.val
  moved := by
    rcases reads.moved with ⟨ok, further⟩ | ⟨notOk, last, msg, further, equal⟩
    · exact .inl ⟨ok, passes.trans further⟩
    · exact .inr ⟨notOk, last, msg, passes.trans further, equal⟩

/-- A digit of some base, or the mark of one. -/
def inNumber (cp : Nat) : Bool :=
  isDigitOf decimalDigitValue cp || isDigitOf hexDigitValue cp || isDigitOf binaryDigitValue cp ||
    decide (cp ∈ [0x78, 0x58, 0x62, 0x42])

/-- A number is scanned to the codepoint that stops it. -/
theorem parseNumber_reads (view : View lx cps) (starts : isNumberStart (nextCp cps) = true) :
    ∃ used left value, cps = used ++ left ∧ ReadsNumber lx used left value (parseNumber lx) ∧
      used ≠ [] ∧ (∀ cp ∈ used, inNumber cp = true) ∧
      ((parseNumber lx).2.ok = true → NumberText used value (nextCp left)) := by
  have inDigits : ∀ {digitValue : Nat → Option Nat}, (∀ cp, isDigitOf digitValue cp = true →
      inNumber cp = true) → ∀ cps : List Nat, ∀ cp ∈ cps.takeWhile (isDigitOf digitValue),
      inNumber cp = true :=
    fun isPart cps cp member => isPart cp (all_takeWhile cps cp member)
  have inDecimal := @inDigits decimalDigitValue fun cp isDigit => by rw [inNumber, isDigit]; rfl
  have inHex := @inDigits hexDigitValue fun cp isDigit => by
    rw [inNumber, isDigit, Bool.or_true]; rfl
  have inBinary := @inDigits binaryDigitValue fun cp isDigit => by
    rw [inNumber, isDigit, Bool.or_true]; rfl
  cases cps with
  | nil => contradiction
  | cons cp cps =>
      have isNext : nextCp (cp :: cps) = cp := rfl
      rw [isNext] at starts
      have isDigit : isDigitOf decimalDigitValue cp = true := by
        obtain ⟨digit, isDigit⟩ := decimalDigit_of_start starts
        rw [isDigitOf, isDigit]
        rfl
      unfold parseNumber
      rw [peekCp_of_view view, isNext]
      by_cases zero : cp = 0x30
      · subst zero
        obtain ⟨passes, next⟩ := skipCp_passes view
        rw [if_neg (by decide)]
        dsimp only
        rw [peekCp_of_view next]
        split
        · next isMark =>
            cases cps with
            | nil => simp [nextCp] at isMark
            | cons mark cps =>
                have isMark : mark = 0x78 ∨ mark = 0x58 := isMark
                obtain ⟨passesMark, afterMark⟩ := skipCp_passes next
                obtain ⟨reads, ok⟩ := parseDigits_reads isBaseOf_hexadecimal afterMark
                  (utf8 "رقم ست عشري غير صحيح") false
                refine ⟨_, _, _, ?_, reads.passed (passes.trans passesMark), by simp, ?_,
                  fun isOk => ?_⟩
                · simp [List.takeWhile_append_dropWhile]
                · refine List.forall_mem_cons.mpr ⟨by decide, List.forall_mem_cons.mpr ⟨?_, ?_⟩⟩
                  · rcases isMark with rfl | rfl <;> decide
                  · exact inHex cps
                · have isOk : (parseDigits hexDigitValue 16 (utf8 "رقم ست عشري غير صحيح")
                    (skipCp (skipCp lx)) false).2.ok = true := isOk
                  rw [ok] at isOk
                  exact .hexadecimal isMark (by simpa using isOk) (all_takeWhile _)
                    (nextCp_dropWhile isBaseOf_hexadecimal.zero _)
        · split
          · next isMark =>
              cases cps with
              | nil => simp [nextCp] at isMark
              | cons mark cps =>
                  have isMark : mark = 0x62 ∨ mark = 0x42 := isMark
                  obtain ⟨passesMark, afterMark⟩ := skipCp_passes next
                  obtain ⟨reads, ok⟩ := parseDigits_reads isBaseOf_binary afterMark
                    (utf8 "رقم ثنائي غير صحيح") false
                  refine ⟨_, _, _, ?_, reads.passed (passes.trans passesMark), by simp, ?_,
                    fun isOk => ?_⟩
                  · simp [List.takeWhile_append_dropWhile]
                  · refine List.forall_mem_cons.mpr ⟨by decide, List.forall_mem_cons.mpr ⟨?_, ?_⟩⟩
                    · rcases isMark with rfl | rfl <;> decide
                    · exact inBinary cps
                  · have isOk : (parseDigits binaryDigitValue 2 (utf8 "رقم ثنائي غير صحيح")
                      (skipCp (skipCp lx)) false).2.ok = true := isOk
                    rw [ok] at isOk
                    exact .binary isMark (by simpa using isOk) (all_takeWhile _)
                      (nextCp_dropWhile isBaseOf_binary.zero _)
          · next notHex notBinary =>
              obtain ⟨reads, -⟩ := parseDigits_reads isBaseOf_decimal next
                (utf8 "رقم غير صحيح") true
              have whole : (0x30 :: cps).takeWhile (isDigitOf decimalDigitValue) =
                  0x30 :: cps.takeWhile (isDigitOf decimalDigitValue) :=
                List.takeWhile_cons_of_pos isDigit
              have number : digitsNumber decimalDigitValue 10 0
                    (0x30 :: cps.takeWhile (isDigitOf decimalDigitValue)) =
                  digitsNumber decimalDigitValue 10 0
                    (cps.takeWhile (isDigitOf decimalDigitValue)) := by
                simp [digitsNumber, decimalDigitValue, isAsciiDigit]
              refine ⟨_, _, _, ?_, reads.passed passes, by simp, ?_, fun _ => ?_⟩
              · simp [List.takeWhile_append_dropWhile]
              · exact List.forall_mem_cons.mpr ⟨by decide, inDecimal cps⟩
              · rw [← number]
                refine .decimal (by simp) (fun cp member => ?_)
                  (nextCp_dropWhile isBaseOf_decimal.zero _) fun alone => ?_
                · rcases List.mem_cons.mp member with rfl | inDigits
                  · exact isDigit
                  · exact all_takeWhile _ cp inDigits
                · -- a zero alone is followed by what follows the first codepoint
                  have empty : cps.takeWhile (isDigitOf decimalDigitValue) = [] := by
                    simpa using alone
                  have same := List.takeWhile_append_dropWhile
                    (p := isDigitOf decimalDigitValue) (l := cps)
                  rw [empty, List.nil_append] at same
                  rw [same]
                  exact ⟨fun equal => notHex (.inl equal), fun equal => notHex (.inr equal),
                    fun equal => notBinary (.inl equal), fun equal => notBinary (.inr equal)⟩
      · rw [if_pos zero]
        obtain ⟨reads, -⟩ := parseDigits_reads isBaseOf_decimal view (utf8 "رقم غير صحيح") false
        have some_ : (cp :: cps).takeWhile (isDigitOf decimalDigitValue) ≠ [] := by
          rw [List.takeWhile_cons_of_pos isDigit]
          exact List.cons_ne_nil _ _
        refine ⟨_, _, _, (List.takeWhile_append_dropWhile).symm, reads, some_,
          inDecimal _, fun _ => .decimal some_ (all_takeWhile _)
            (nextCp_dropWhile isBaseOf_decimal.zero _) fun alone => ?_⟩
        rw [List.takeWhile_cons_of_pos isDigit] at alone
        exact absurd (List.cons.inj alone).1 zero

end Views

end Nazm.Lexer
