import Nazm.Parser.Numbers

/-!
Machine arithmetic of number literals.

Owns the operations on machine integers in a turn of the lexer at a number, which
of them wrap, and that literals are exact.

Does not own the scanning of literals.
-/

namespace Nazm.Parser

open Nazm.Encoder Nazm.Lexer Nazm.Unicode Nazm.Diagnostics

/-! ## The arithmetic of a turn -/

/-- An operation on machine integers: its exact result, and the range of its type. -/
structure MachineStep where
  result : Int
  least : Int
  greatest : Int
deriving DecidableEq

namespace MachineStep

def Wraps (step : MachineStep) : Prop := step.result < step.least ∨ step.greatest < step.result

instance (step : MachineStep) : Decidable step.Wraps := by
  unfold Wraps
  infer_instance

def uint32 (result : Int) : MachineStep := ⟨result, 0, 2 ^ 32 - 1⟩

def uint64 (result : Int) : MachineStep := ⟨result, 0, 2 ^ 64 - 1⟩

def int64 (result : Int) : MachineStep := ⟨result, -2 ^ 63, 2 ^ 63 - 1⟩

end MachineStep

open MachineStep

/-- The differences in `hex_digit_value`, `parse_binary_number` and
`decimal_digit_value`. -/
def NumberBase.digitSteps : NumberBase → Nat → List MachineStep
  | .decimal, cp => [uint32 (if isAsciiDigit cp then cp - 0x30 else cp - 0x0660)]
  | .hexadecimal _, cp =>
      if isAsciiDigit cp then [uint32 (cp - 0x30)]
      else if 0x61 ≤ cp ∧ cp ≤ 0x66 then [uint32 (cp - 0x61), uint32 (cp - 0x61 + 10)]
      else [uint32 (cp - 0x41), uint32 (cp - 0x41 + 10)]
  | .binary _, cp => [uint32 (cp - 0x30)]

/-- `append_digit`: the guard, then the value when the guard lets it. -/
def appendSteps (val base digit : Nat) : List MachineStep :=
  [uint64 (2 ^ 64 - 1 - digit), uint64 ((2 ^ 64 - 1 - digit) / base)] ++
    if (2 ^ 64 - 1 - digit) / base < val then []
    else [uint64 (val * base), uint64 (val * base + digit)]

/-- The operations of `digitLoop`. -/
def digitLoopSteps (base : NumberBase) : Nat → Lexer → Nat → List MachineStep
  | 0, _, _ => []
  | fuel + 1, lx, val =>
      if atEnd lx then []
      else
        match base.digitValue (peekCp lx) with
        | none => []
        | some digit =>
            base.digitSteps (peekCp lx) ++ appendSteps val base.radix digit ++
              digitLoopSteps base fuel (skipCp lx) ((appendDigit val base.radix digit).getD val)

/-- The operations of `parseNumber`. -/
def parseNumberSteps (lx : Lexer) : List MachineStep :=
  if peekCp lx ≠ 0x30 then digitLoopSteps .decimal lx.rest.length lx 0
  else
    let lx := skipCp lx
    let next := peekCp lx
    if next = 0x78 ∨ next = 0x58 then
      digitLoopSteps (.hexadecimal false) (skipCp lx).rest.length (skipCp lx) 0
    else if next = 0x62 ∨ next = 0x42 then
      digitLoopSteps (.binary false) (skipCp lx).rest.length (skipCp lx) 0
    else digitLoopSteps .decimal lx.rest.length lx 0

/-- The operations of `asSignedBits`. -/
def signedSteps (bits : Nat) : List MachineStep :=
  if bits ≤ 2 ^ 63 - 1 then [int64 bits]
  else
    let flipped : Int := 2 ^ 64 - 1 - bits
    [uint64 flipped, int64 flipped, int64 (-flipped), int64 (-flipped - 1)]

/-- `0u - val`. -/
def negationStep (val : Nat) : MachineStep := uint64 (0 - val)

/-- The operations of `lexNumber`. -/
def lexNumberSteps (lx : Lexer) : List MachineStep :=
  let number := (parseNumber lx).2
  parseNumberSteps lx ++ if number.fits && number.ok then signedSteps number.val else []

/-- The operations of `lexMinusOrNegativeNumber` at a number. -/
def lexMinusSteps (lx : Lexer) : List MachineStep :=
  let after := skipCp lx
  let number := (parseNumber after).2
  let limit := uint64 (2 ^ 63 - 1 + 1)
  parseNumberSteps after ++
    if !number.fits then []
    else if 2 ^ 63 < number.val then [limit]
    else if number.ok then
      [limit, negationStep number.val] ++ signedSteps ((2 ^ 64 - number.val) % 2 ^ 64)
    else [limit]

/-- The operations of a turn at a literal. -/
def literalSteps (lx : Lexer) : List MachineStep :=
  if peekCp lx = 0x2D then lexMinusSteps lx else lexNumberSteps lx

section Arithmetic

variable {lx : Lexer} {step : MachineStep}

theorem digitSteps_exact {base : NumberBase} {cp digit : Nat}
    (isDigit : base.digitValue cp = some digit) (member : step ∈ base.digitSteps cp) :
    ¬step.Wraps := by
  unfold NumberBase.digitValue at isDigit
  unfold NumberBase.digitSteps at member
  cases base with
  | decimal =>
      simp only [decimalDigitValue, arabicDigitValue, nazmIsArabicDigit, isAsciiDigit] at isDigit
      simp only [isAsciiDigit, List.mem_singleton] at member
      subst member
      simp only [Wraps, uint32]
      grind
  | hexadecimal capital =>
      simp only [hexDigitValue, isAsciiDigit] at isDigit
      simp only [isAsciiDigit] at member
      simp only [Wraps]
      grind [uint32]
  | binary capital =>
      simp only [binaryDigitValue] at isDigit
      simp only [List.mem_singleton] at member
      subst member
      simp only [Wraps, uint32]
      grind

theorem appendSteps_exact {val base digit : Nat} (small : digit < 2 ^ 64)
    (member : step ∈ appendSteps val base digit) : ¬step.Wraps := by
  have quotient : (2 ^ 64 - 1 - digit) / base ≤ 2 ^ 64 - 1 - digit := Nat.div_le_self ..
  have sameGuard : ((2 ^ 64 - 1 - (digit : Int)) / (base : Int)) =
      (((2 ^ 64 - 1 - digit) / base : Nat) : Int) := by
    rw [Int.natCast_ediv]
    congr 1
    omega
  unfold appendSteps at member
  simp only [Wraps]
  rw [List.mem_append, List.mem_cons, List.mem_singleton, sameGuard] at member
  rcases member with (rfl | rfl) | kept
  · simp only [uint64]
    omega
  · simp only [uint64]
    generalize (2 ^ 64 - 1 - digit) / base = whole at quotient
    omega
  · split at kept
    · contradiction
    · next guard =>
        -- the guard is the bound of the sum
        have bound : val * base + digit ≤ 2 ^ 64 - 1 := by
          have product := Nat.mul_le_of_le_div base val _ (Nat.not_lt.mp guard)
          omega
        rw [List.mem_cons, List.mem_singleton] at kept
        have product : ((val * base : Nat) : Int) = (val : Int) * base := Int.natCast_mul ..
        rcases kept with rfl | rfl <;>
        · simp only [uint64]
          omega

theorem digitLoopSteps_exact (base : NumberBase) (fuel : Nat) {val : Nat} (room : val < 2 ^ 64)
    (member : step ∈ digitLoopSteps base fuel lx val) : ¬step.Wraps := by
  induction fuel generalizing lx val with
  | zero => contradiction
  | succ fuel inductionHypothesis =>
      rw [digitLoopSteps] at member
      split at member
      · contradiction
      · split at member
        · contradiction
        · next digit isDigit =>
            have positive := base.isBase.positive
            have small := base.isBase.small _ _ isDigit
            rw [List.mem_append, List.mem_append] at member
            rcases member with (inDigit | inAppend) | later
            · exact digitSteps_exact isDigit inDigit
            · exact appendSteps_exact small inAppend
            · refine inductionHypothesis ?_ later
              rw [appendDigit_eq positive small]
              split
              · assumption
              · exact room

theorem parseNumberSteps_exact (member : step ∈ parseNumberSteps lx) : ¬step.Wraps := by
  have zero : 0 < 2 ^ 64 := by decide
  unfold parseNumberSteps at member
  dsimp only at member
  split at member
  · exact digitLoopSteps_exact _ _ zero member
  · split at member
    · exact digitLoopSteps_exact _ _ zero member
    · split at member <;> exact digitLoopSteps_exact _ _ zero member

theorem signedSteps_exact {bits : Nat} (small : bits < 2 ^ 64) (member : step ∈ signedSteps bits) :
    ¬step.Wraps := by
  unfold signedSteps at member
  simp only [Wraps]
  split at member
  · rw [List.mem_singleton] at member
    subst member
    simp only [int64]
    omega
  · simp only [List.mem_cons, List.not_mem_nil, or_false] at member
    rcases member with rfl | rfl | rfl | rfl <;>
    · simp only [int64, uint64]
      omega

theorem lexNumberSteps_exact (small : (parseNumber lx).2.fits = true → (parseNumber lx).2.val < 2 ^ 64)
    (member : step ∈ lexNumberSteps lx) : ¬step.Wraps := by
  unfold lexNumberSteps at member
  dsimp only at member
  rw [List.mem_append] at member
  rcases member with scanning | signed
  · exact parseNumberSteps_exact scanning
  · split at signed
    · next kept =>
        rw [Bool.and_eq_true] at kept
        exact signedSteps_exact (small kept.1) signed
    · contradiction

/-- After a minus, only the negation of a number other than zero wraps. -/
theorem lexMinusSteps_exact (member : step ∈ lexMinusSteps lx) (wraps : step.Wraps) :
    (parseNumber (skipCp lx)).2.fits = true ∧ (parseNumber (skipCp lx)).2.val ≠ 0 ∧
      step = negationStep (parseNumber (skipCp lx)).2.val := by
  have limit : ¬(uint64 (2 ^ 63 - 1 + 1)).Wraps := by decide
  unfold lexMinusSteps at member
  dsimp only at member
  rw [List.mem_append] at member
  rcases member with scanning | later
  · exact absurd wraps (parseNumberSteps_exact scanning)
  · split at later
    · contradiction
    · next fits =>
        split at later
        · rw [List.mem_singleton] at later
          exact absurd (later ▸ wraps) limit
        · split at later
          · rw [List.mem_append, List.mem_cons, List.mem_singleton] at later
            rcases later with (rfl | rfl) | signed
            · exact absurd wraps limit
            · refine ⟨by simpa using fits, fun zero => ?_, rfl⟩
              rw [zero] at wraps
              exact absurd wraps (by decide)
            · exact absurd wraps (signedSteps_exact (Nat.mod_lt _ (by decide)) signed)
          · rw [List.mem_singleton] at later
            exact absurd (later ▸ wraps) limit

theorem literalSteps_exact (literal : NumberLiteral) {text rest : List UInt8}
    (isText : Codepoints text literal.codepoints) (here : lx.rest = text ++ rest)
    (ends : literal.EndsBefore rest) (member : step ∈ literalSteps lx) (wraps : step.Wraps) :
    literal.negative = true ∧ literal.magnitude ≠ 0 ∧ step = negationStep literal.magnitude := by
  -- a number that fits is the magnitude of the literal
  have bounded : ∀ {start : Lexer} {count : Nat},
      Scanned start rest count (literal.digits ≠ []) literal.magnitude (parseNumber start) →
      (parseNumber start).2.fits = true → (parseNumber start).2.val < 2 ^ 64 ∧
        ((parseNumber start).2.val ≠ 0 → (parseNumber start).2.val = literal.magnitude) := by
    intro start count scanned fits
    by_cases some_ : literal.digits ≠ []
    · obtain ⟨val, result, isVal⟩ := scanned.read some_
      rw [result] at fits ⊢
      have small := of_decide_eq_true fits
      rw [isVal small]
      exact ⟨small, fun _ => rfl⟩
    · obtain ⟨msg, number, result, -, -, zero⟩ := scanned.malformed some_
      rw [result]
      dsimp only
      rw [zero]
      exact ⟨by decide, fun other => absurd rfl other⟩
  cases isNegative : literal.negative with
  | false =>
      have plain : literal.codepoints = literal.magnitudeCps := by
        rw [NumberLiteral.codepoints, isNegative]
        rfl
      rw [plain] at isText
      obtain ⟨cp, tail, cps, starts⟩ := literal.starts
      have split := isText
      rw [cps] at split
      obtain ⟨bytes, others, rfl, encodes, -⟩ := split.split
      have whole := here
      rw [List.append_assoc] at here
      have notMinus : cp ≠ 0x2D := by
        rintro rfl
        exact absurd starts (by decide)
      unfold literalSteps at member
      rw [peekCp_here here encodes, if_neg notMinus] at member
      have scanned := parseNumber_scanned literal isText whole ends
      exact absurd wraps (lexNumberSteps_exact (fun fits => (bounded scanned fits).1) member)
  | true =>
      have signed : literal.codepoints = 0x2D :: literal.magnitudeCps := by
        rw [NumberLiteral.codepoints, isNegative]
        rfl
      rw [signed] at isText
      obtain ⟨minus, others, rfl, encodes, isText⟩ := isText.split
      rw [List.append_assoc] at here
      have skipped := skipCp_passed here encodes (by decide)
      have scanned := parseNumber_scanned literal isText
        (show (passed lx (others ++ rest) 1).rest = others ++ rest from rfl) ends
      rw [← skipped] at scanned
      unfold literalSteps at member
      rw [peekCp_here here encodes, if_pos rfl] at member
      obtain ⟨fits, other, isNegation⟩ := lexMinusSteps_exact member wraps
      have same := (bounded scanned fits).2 other
      rw [same] at other isNegation
      exact ⟨rfl, other, isNegation⟩

end Arithmetic

/-! ## The result -/

/-- Number literals are exact: one immediate token when the literal has a digit
and 64 bits hold its value, else an error; the parser reads the value with the
bits of the exact one back; and only the negation of a magnitude wraps. -/
theorem number_literals_exact (literal : NumberLiteral) {lx : Lexer} {text rest : List UInt8}
    (isText : Codepoints text literal.codepoints) (here : lx.rest = text ++ rest)
    (ends : literal.EndsBefore rest) :
    (lexStep lx).rest = rest ∧
    ((∃ token, token.type = .immediate ∧ (lexStep lx).out = lx.out ++ [token] ∧
        (lexStep lx).errors = lx.errors) ↔ literal.Holds) ∧
    (¬literal.Holds → (lexStep lx).out = lx.out ∧ ∃ line col endCol msg,
        (lexStep lx).errors = errorAddSpan lx.errors lx.name line col endCol msg) ∧
    (∀ token, (lexStep lx).out = lx.out ++ [token] →
        (strtoll token.value).toInt = literal.signedValue ∧
        ∀ p tokens, p.tokens = token :: tokens →
          parseOperand p = ({ p with tokens := tokens },
            some ⟨.imm (Int64.ofInt literal.signedValue), token.line, token.col, token.endCol⟩)) ∧
    ∀ step ∈ literalSteps lx, step.Wraps →
      literal.negative = true ∧ literal.magnitude ≠ 0 ∧ step = negationStep literal.magnitude := by
  obtain ⟨accepts, refuses⟩ := lexStep_literal literal isText here ends
  have wraps := fun step member => @literalSteps_exact lx step literal text rest isText here ends member
  by_cases holds : literal.Holds
  · have pushed := accepts holds
    have value : (strtoll (decimalInt literal.signedValue)).toInt = literal.signedValue := by
      have low := holds.2.1
      have high := holds.2.2
      refine strtoll_decimalInt ?_ ?_ <;>
      · unfold NumberLiteral.signedValue
        split <;> omega
    rw [pushed]
    refine ⟨rfl, ⟨fun _ => holds, fun _ => ⟨_, rfl, rfl, rfl⟩⟩, fun outside => absurd holds outside,
      ?_, wraps⟩
    intro token isToken
    obtain rfl : _ = token := List.singleton_inj.mp (List.append_cancel_left isToken)
    refine ⟨value, fun p tokens front => ?_⟩
    have current : cur p = ⟨.immediate, decimalInt literal.signedValue, lx.line, lx.col,
        lx.col + literal.codepoints.length⟩ := by
      rw [cur, front]
      rfl
    have moved : advance p = { p with tokens := tokens } := by
      rw [advance, current, front]
      rfl
    have read : strtoll (decimalInt literal.signedValue) = Int64.ofInt literal.signedValue := by
      rw [← value, Int64.ofInt_toInt]
      rw [value]
    unfold parseOperand
    rw [current, moved]
    dsimp only
    rw [read]
  · obtain ⟨line, col, endCol, msg, reported⟩ := refuses holds
    rw [reported]
    refine ⟨rfl, ⟨?_, fun inRange => absurd inRange holds⟩, fun _ => ⟨rfl, _, _, _, _, rfl⟩, ?_, wraps⟩
    · rintro ⟨token, -, grown, -⟩
      exact absurd (congrArg List.length grown) (by simp [lexErrorAt, passed])
    · intro token grown
      exact absurd (congrArg List.length grown) (by simp [lexErrorAt, passed])

/-- Two digits of two scripts. -/
theorem number_literals_exact_fortyTwo :
    ∃ token, token.type = .immediate ∧
      (lexStep ⟨[0xD9, 0xA4, 0x32], 1, 1, [], .empty, none⟩).out = [] ++ [token] ∧
      (lexStep ⟨[0xD9, 0xA4, 0x32], 1, 1, [], .empty, none⟩).errors = .empty := by
  have isText : Codepoints ([0xD9, 0xA4] ++ ([0x32] ++ [])) [0x0664, 0x32] :=
    .cons ⟨by decide, fun rest => rfl, .inl (by decide)⟩
      (.cons (Encodes.byte 0x32 (by decide)) .nil)
  have exact_ := @number_literals_exact ⟨false, .decimal, [0x0664, 0x32], by decide, by decide⟩
    ⟨[0xD9, 0xA4, 0x32], 1, 1, [], .empty, none⟩ _ [] isText rfl
    ⟨by decide, fun _ other => absurd other (by decide)⟩
  exact exact_.2.1.mpr ⟨by decide, by decide, by decide⟩

/-- The bits of `-1` are made by a subtraction that wraps. -/
theorem negation_of_one_wraps :
    ∃ step ∈ literalSteps ⟨[0x2D, 0x31], 1, 1, [], .empty, none⟩, step.Wraps :=
  ⟨negationStep 1, by decide, by decide⟩

end Nazm.Parser
