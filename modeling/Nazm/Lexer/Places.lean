import Nazm.Diagnostics.Places
import Nazm.Lexer.Encoding

/-!
The lines that the lexer counts, in any bytes.

Owns that the line counter is one more than the newlines that were read, whether or
not the bytes are UTF-8, and that the tokens and the diagnostics of any source stand
on its lines.

Does not own columns.
-/

namespace Nazm.Lexer

open Nazm.Unicode Nazm.Diagnostics

/-! ## Newlines -/

theorem count_of_continuation {count cp last : Nat} {src next : List UInt8}
    (reads : continuation count cp src = some (last, next)) :
    src.count 0x0A = next.count 0x0A := by
  induction count generalizing cp src with
  | zero =>
      obtain ⟨-, rfl⟩ := continuation_zero reads
      rfl
  | succ count inductionHypothesis =>
      obtain ⟨b, rest, rfl, tail, reads⟩ := continuation_succ reads
      have notNewline : b ≠ 0x0A := by
        rintro rfl
        exact absurd tail.1 (by decide)
      rw [List.count_cons_of_ne notNewline, inductionHypothesis reads]

/-- A newline is decoded from its byte, and nothing else is decoded from that byte. -/
theorem count_of_decoded {src rest : List UInt8} {cp : Nat}
    (decoded : utf8NextCodepoint src = (cp, rest)) :
    src.count 0x0A = rest.count 0x0A + (if cp = 0x0A then 1 else 0) := by
  cases src with
  | nil =>
      obtain ⟨rfl, rfl⟩ := Prod.mk.inj decoded
      rfl
  | cons b0 src =>
      rw [utf8NextCodepoint] at decoded
      split at decoded
      · obtain ⟨rfl, rfl⟩ := Prod.mk.inj decoded
        rw [List.count_cons]
        congr 1
        by_cases newline : b0 = 0x0A
        · rw [newline]
          rfl
        · have other : b0.toNat ≠ 0x0A := fun same => newline (UInt8.toNat_inj.mp same)
          rw [if_neg other, if_neg (by simpa using newline)]
      · next large =>
          have notNewline : b0 ≠ 0x0A := by
            rintro rfl
            exact large (by decide)
          have replaced : (0xFFFD, src) = (cp, rest) →
              src.count 0x0A = rest.count 0x0A + (if cp = 0x0A then 1 else 0) := by
            intro same
            obtain ⟨rfl, rfl⟩ := Prod.mk.inj same
            rfl
          rw [List.count_cons_of_ne notNewline]
          split at decoded
          · exact replaced decoded
          · split at decoded
            · exact replaced decoded
            · next reads =>
                rcases ite_eq_iff.mp decoded with ⟨-, same⟩ | ⟨long, read⟩
                · exact replaced same
                · obtain ⟨rfl, rfl⟩ := Prod.mk.inj read
                  rw [count_of_continuation reads, if_neg, Nat.add_zero]
                  intro newline
                  apply long
                  rw [newline]
                  left
                  split
                  · decide
                  · split <;> decide

/-! ## Lines -/

/-- A line of a source with so many, and some column. -/
def OnLine (lines line col : Nat) : Prop := 0 < line ∧ line ≤ lines ∧ 0 < col

/-- The counter counts lines, and what was pushed and reported stands on one. -/
structure CountsLines (lines : Nat) (name : List UInt8) (lx : Lexer) : Prop where
  line : 0 < lx.line
  left : lx.line + lx.rest.count 0x0A = lines
  col : 0 < lx.col
  file : lx.name.getD [] = name
  tokens : ∀ token ∈ lx.out, OnLine lines token.line token.col
  errors : AllStand (OnLine lines) name lx.errors

namespace CountsLines

variable {lines : Nat} {name : List UInt8} {lx : Lexer}

theorem here (counts : CountsLines lines name lx) : OnLine lines lx.line lx.col := by
  have left := counts.left
  exact ⟨counts.line, by omega, counts.col⟩

theorem skipCp (counts : CountsLines lines name lx) : CountsLines lines name (skipCp lx) := by
  have newlines : lx.rest.count 0x0A = (utf8NextCodepoint lx.rest).2.count 0x0A +
      (if (utf8NextCodepoint lx.rest).1 = 0x0A then 1 else 0) := count_of_decoded rfl
  have left := counts.left
  unfold Lexer.skipCp
  dsimp only
  split
  · next newline =>
      rw [if_pos newline] at newlines
      refine ⟨Nat.succ_pos _, ?_, Nat.one_pos, counts.file, counts.tokens, counts.errors⟩
      dsimp only
      omega
  · next other =>
      rw [if_neg other] at newlines
      refine ⟨counts.line, ?_, Nat.succ_pos _, counts.file, counts.tokens, counts.errors⟩
      dsimp only
      omega

theorem lexErrorAt (counts : CountsLines lines name lx) {line col : Nat}
    (place : OnLine lines line col) (endCol : Nat) (message : List UInt8) :
    CountsLines lines name (lexErrorAt lx line col endCol message) :=
  ⟨counts.line, counts.left, counts.col, counts.file, counts.tokens,
    counts.errors.add counts.file place endCol message⟩

theorem lexError (counts : CountsLines lines name lx) (message : List UInt8) :
    CountsLines lines name (lexError lx message) :=
  counts.lexErrorAt counts.here _ message

theorem push (counts : CountsLines lines name lx) {line col : Nat}
    (place : OnLine lines line col) (type : TokenType) (value : List UInt8) (endCol : Nat) :
    CountsLines lines name (pushTokenValue lx type value line col endCol) := by
  refine ⟨counts.line, counts.left, counts.col, counts.file, ?_, counts.errors⟩
  intro token member
  rcases List.mem_append.mp member with earlier | pushed
  · exact counts.tokens token earlier
  · rw [List.mem_singleton.mp pushed]
    exact place

/-! ## Loops -/

theorem skipWhile (counts : CountsLines lines name lx) (continues : Nat → Bool) (fuel : Nat) :
    CountsLines lines name (skipWhile continues fuel lx) := by
  induction fuel generalizing lx with
  | zero => exact counts
  | succ fuel inductionHypothesis =>
      rw [Lexer.skipWhile]
      split
      · exact counts
      · split
        · exact inductionHypothesis counts.skipCp
        · exact counts

theorem digitLoop (counts : CountsLines lines name lx) (digitValue : Nat → Option Nat)
    (base fuel val : Nat) (fits got : Bool) :
    CountsLines lines name (digitLoop digitValue base fuel lx val fits got).1 := by
  induction fuel generalizing lx val fits got with
  | zero => exact counts
  | succ fuel inductionHypothesis =>
      rw [Lexer.digitLoop]
      split
      · exact counts
      · split
        · exact counts
        · split
          · exact inductionHypothesis counts.skipCp _ _ _
          · exact inductionHypothesis counts.skipCp _ _ _

theorem parseDigits (counts : CountsLines lines name lx) (digitValue : Nat → Option Nat)
    (base : Nat) (malformed : List UInt8) (alreadyGotDigit : Bool) :
    CountsLines lines name (parseDigits digitValue base malformed lx alreadyGotDigit).1 := by
  have loop := counts.digitLoop digitValue base lx.rest.length 0 true alreadyGotDigit
  unfold Lexer.parseDigits
  dsimp only
  split
  · exact loop
  · exact loop.lexError malformed

theorem parseNumber (counts : CountsLines lines name lx) :
    CountsLines lines name (parseNumber lx).1 := by
  unfold Lexer.parseNumber
  split
  · exact counts.parseDigits _ _ _ _
  · dsimp only
    split
    · exact counts.skipCp.skipCp.parseDigits _ _ _ _
    · split
      · exact counts.skipCp.skipCp.parseDigits _ _ _ _
      · exact counts.skipCp.parseDigits _ _ _ _

theorem skipIllFormed (counts : CountsLines lines name lx) (fuel : Nat) :
    CountsLines lines name (skipIllFormed fuel lx) := by
  induction fuel generalizing lx with
  | zero => exact counts
  | succ fuel inductionHypothesis =>
      rw [Lexer.skipIllFormed]
      split
      · exact inductionHypothesis counts.skipCp
      · exact counts

theorem lexIllFormedUtf8 (counts : CountsLines lines name lx) :
    CountsLines lines name (lexIllFormedUtf8 lx) :=
  (counts.skipIllFormed _).lexErrorAt counts.here _ _

theorem lexCommentLoop (counts : CountsLines lines name lx) (fuel : Nat) :
    CountsLines lines name (lexCommentLoop fuel lx) := by
  induction fuel generalizing lx with
  | zero => exact counts
  | succ fuel inductionHypothesis =>
      rw [Lexer.lexCommentLoop]
      split
      · exact counts
      · split
        · exact inductionHypothesis counts.lexIllFormedUtf8
        · exact inductionHypothesis counts.skipCp

/-! ## Tokens -/

theorem lexNumber (counts : CountsLines lines name lx) {line col : Nat}
    (place : OnLine lines line col) : CountsLines lines name (lexNumber lx line col) := by
  have parsed := counts.parseNumber
  unfold Lexer.lexNumber
  dsimp only
  split
  · exact parsed.lexErrorAt place _ _
  · split
    · exact parsed.push place _ _ _
    · exact parsed

/-- A lone minus is read twice, and is no newline. -/
theorem lexMinus (counts : CountsLines lines name lx) (minus : peekCp lx = 0x2D) {line col : Nat}
    (place : OnLine lines line col) :
    CountsLines lines name (lexMinusOrNegativeNumber lx line col) := by
  have parsed := counts.skipCp.parseNumber
  unfold lexMinusOrNegativeNumber
  dsimp only
  split
  · split
    · exact parsed.lexErrorAt place _ _
    · split
      · exact parsed.push place _ _ _
      · exact parsed
  · have sameLine : (Lexer.skipCp lx).line = lx.line := by
      have decoded : (utf8NextCodepoint lx.rest).1 ≠ 0x0A := by
        intro newline
        exact absurd (minus.symm.trans newline) (by decide)
      unfold Lexer.skipCp
      dsimp only
      rw [if_neg decoded]
    have skipped := counts.skipCp
    have rewound : CountsLines lines name { Lexer.skipCp lx with rest := lx.rest } := by
      refine ⟨skipped.line, ?_, skipped.col, skipped.file, skipped.tokens, skipped.errors⟩
      dsimp only
      rw [sameLine]
      exact counts.left
    exact rewound.skipCp.push place _ _ _

theorem lexNewline (counts : CountsLines lines name lx) {line col : Nat}
    (place : OnLine lines line col) : CountsLines lines name (lexNewline lx line col) := by
  unfold Lexer.lexNewline
  dsimp only
  split
  · exact counts.skipCp
  · exact counts.skipCp.push place _ _ _

theorem lexStringLoop (counts : CountsLines lines name lx) {line col : Nat}
    (place : OnLine lines line col) (fuel : Nat) (buf : List UInt8) (ok : Bool) :
    CountsLines lines name (lexStringLoop line col fuel lx buf ok) := by
  induction fuel generalizing lx buf ok with
  | zero => exact counts
  | succ fuel inductionHypothesis =>
      rw [Lexer.lexStringLoop]
      split
      · exact counts.lexErrorAt place _ _
      · split
        · exact inductionHypothesis counts.lexIllFormedUtf8 _ _
        · dsimp only
          split
          · split
            · exact counts.skipCp.push place _ _ _
            · exact counts.skipCp
          · split
            · exact counts.lexErrorAt place _ _
            · split
              · split
                · exact counts.skipCp.lexErrorAt place _ _
                · split
                  · exact inductionHypothesis counts.skipCp.skipCp _ _
                  · exact inductionHypothesis
                      (counts.skipCp.lexErrorAt counts.skipCp.here _ _).skipCp _ _
              · exact inductionHypothesis counts.skipCp _ _

theorem lexIdentifier (counts : CountsLines lines name lx) {line col : Nat}
    (place : OnLine lines line col) : CountsLines lines name (lexIdentifier lx line col) := by
  have scanned : CountsLines lines name (scanIdent lx) := counts.skipWhile _ _
  have reserved : ∀ endCol, CountsLines lines name
      (lexReservedPrefixError (scanIdent lx) line col endCol) :=
    fun endCol => scanned.lexErrorAt place endCol _
  unfold Lexer.lexIdentifier
  dsimp only
  split
  · refine CountsLines.push (CountsLines.skipCp ?_) place _ _ _
    split
    · exact reserved _
    · exact scanned
  · split
    · exact scanned.push place _ _ _
    · split
      · exact scanned.push place _ _ _
      · refine CountsLines.push ?_ place _ _ _
        split
        · exact reserved _
        · exact scanned

end CountsLines

/-! ## The main loop -/

section Runs

variable {lines : Nat} {name : List UInt8} {lx : Lexer}

theorem lexStep_countsLines (counts : CountsLines lines name lx) :
    CountsLines lines name (lexStep lx) := by
  have here := counts.here
  unfold lexStep
  dsimp only
  split
  · exact counts.skipCp
  · split
    · exact counts.lexNewline here
    · split
      · exact counts.lexCommentLoop _
      · split
        · exact counts.skipCp.push here _ _ _
        · split
          · next minus => exact counts.lexMinus minus here
          · split
            · exact (counts.skipCp.skipWhile _ _).push here _ _ _
            · split
              · exact counts.skipCp.lexStringLoop here _ _ _
              · split
                · exact counts.lexNumber here
                · split
                  · exact counts.lexIdentifier here
                  · split
                    · exact counts.lexIllFormedUtf8
                    · exact (counts.lexError _).skipCp

theorem lexLoop_countsLines (counts : CountsLines lines name lx) (fuel : Nat) :
    CountsLines lines name (lexLoop fuel lx) := by
  induction fuel generalizing lx with
  | zero => exact counts
  | succ fuel inductionHypothesis =>
      rw [lexLoop]
      split
      · exact counts
      · exact inductionHypothesis (lexStep_countsLines counts)

end Runs

/-- The lines of a source, of any bytes. -/
def lineCount (src : SourceBuffer) : Nat := 1 + src.data.count 0x0A

/-- The tokens and the diagnostics of the lexer stand on the lines of the source. -/
theorem lexerLex_onLines (src : SourceBuffer) :
    (∀ token ∈ (lexerLex src).tokens.data, OnLine (lineCount src) token.line token.col) ∧
      AllStand (OnLine (lineCount src)) (src.name.getD []) (lexerLex src).errors := by
  have start : CountsLines (lineCount src) (src.name.getD [])
      ⟨src.data, 1, 1, [], .empty, src.name⟩ :=
    ⟨Nat.one_pos, rfl, Nat.one_pos, rfl, fun _ member => absurd member List.not_mem_nil, .empty⟩
  have run := lexLoop_countsLines start src.data.length
  exact ⟨(run.push run.here .eof [] _).tokens, run.errors⟩

end Nazm.Lexer
