import Nazm.Diagnostics.Messages
import Nazm.Lexer.Tokens

/-!
Sources without lexical errors are UTF-8.

Owns that every loop of the lexer reads whole characters or reports an error,
that the main loop reads to the end, and with it that an accepted source and the
values of its tokens are well-formed UTF-8.

Does not own the decoder.
-/

namespace Nazm.Lexer

open Utf8
open Nazm.Encoder Nazm.Unicode Nazm.Diagnostics

/-! ## Reading characters -/

/-- Between two cursors, whole characters were read and well-formed tokens
pushed, without an error before. -/
structure Utf8Read (before after : Lexer) : Prop where
  clean : errorHasAny before.errors = false
  read : ∃ text, before.rest = text ++ after.rest ∧ WellFormed text
  pushed : ∀ token ∈ after.out, token ∈ before.out ∨ WellFormed token.value

/-- A part of the lexer's work that reads UTF-8 or reports an error. -/
def ReadsUtf8 (before after : Lexer) : Prop :=
  errorHasAny after.errors = false → Utf8Read before after

theorem ReadsUtf8.refl (lx : Lexer) : ReadsUtf8 lx lx := fun clean =>
  ⟨clean, ⟨[], rfl, .nil⟩, fun _ member => .inl member⟩

theorem ReadsUtf8.trans {first second third : Lexer} (one : ReadsUtf8 first second)
    (two : ReadsUtf8 second third) : ReadsUtf8 first third := by
  intro clean
  obtain ⟨middleClean, ⟨back, backSplit, backWell⟩, backPushed⟩ := two clean
  obtain ⟨firstClean, ⟨front, frontSplit, frontWell⟩, frontPushed⟩ := one middleClean
  refine ⟨firstClean, ⟨front ++ back, ?_, frontWell.append backWell⟩, fun token member => ?_⟩
  · rw [frontSplit, backSplit, List.append_assoc]
  · rcases backPushed token member with earlier | well
    · exact frontPushed token earlier
    · exact .inr well

/-- After a report, nothing is asked of what was read. -/
theorem readsUtf8_of_error {before after : Lexer} (list : ErrorList) (file : Option (List UInt8))
    (line col endCol : Nat) (msg : List UInt8)
    (reported : after.errors = errorAddSpan list file line col endCol msg) :
    ReadsUtf8 before after := by
  intro clean
  rw [reported, errorHasAny_errorAddSpan] at clean
  contradiction

theorem lexErrorAt_readsUtf8 (before after : Lexer) (line col endCol : Nat) (msg : List UInt8) :
    ReadsUtf8 before (lexErrorAt after line col endCol msg) :=
  readsUtf8_of_error _ _ _ _ _ _ rfl

@[simp] theorem skipCp_errors (lx : Lexer) : (skipCp lx).errors = lx.errors := by
  unfold skipCp
  dsimp only
  split <;> rfl

/-- Reading at a well-formed position reads a character. -/
theorem skipCp_readsUtf8 {lx : Lexer} (well : atIllFormedUtf8 lx = false) :
    ReadsUtf8 lx (skipCp lx) := by
  intro clean
  rw [skipCp_errors] at clean
  rw [atIllFormedUtf8, Bool.not_eq_false'] at well
  obtain ⟨text, split, isText⟩ := wellFormed_of_wellFormedAt well
  rw [← skipCp_rest] at split
  exact ⟨clean, ⟨text, split, isText⟩, fun token member => .inl ((skipCp_advances lx).out ▸ member)⟩

theorem wellFormedAt_of_peekCp {lx : Lexer} (known : peekCp lx ≠ 0xFFFD) :
    atIllFormedUtf8 lx = false := by
  rw [atIllFormedUtf8, wellFormedAt_of_ne known]
  rfl

/-- Reading a codepoint other than U+FFFD. -/
theorem skipCp_readsUtf8_of_peekCp {lx : Lexer} (known : peekCp lx ≠ 0xFFFD) :
    ReadsUtf8 lx (skipCp lx) :=
  skipCp_readsUtf8 (wellFormedAt_of_peekCp known)

/-- The bytes read between two cursors are well formed. -/
theorem consumed_wellFormed {before after : Lexer} (advances : Advances before after)
    (reads : Utf8Read before after) : WellFormed (consumed before after) := by
  obtain ⟨text, split, well⟩ := reads.read
  have same : consumed before after = text :=
    List.append_cancel_right ((consumed_append advances).symm.trans split)
  rwa [same]

/-- A token with a well-formed value. -/
theorem pushTokenValue_readsUtf8 {before after : Lexer} (reads : ReadsUtf8 before after)
    (type : TokenType) {value : List UInt8} (well : Utf8Read before after → WellFormed value)
    (line col endCol : Nat) :
    ReadsUtf8 before (pushTokenValue after type value line col endCol) := by
  intro clean
  have read := reads clean
  refine ⟨read.clean, read.read, fun token member => ?_⟩
  rw [pushTokenValue, List.mem_append, List.mem_singleton] at member
  rcases member with earlier | rfl
  · exact read.pushed token earlier
  · exact .inr (well read)

/-! ## Scanning loops -/

theorem skipWhile_readsUtf8 {continues : Nat → Bool} (known : continues 0xFFFD = false)
    (fuel : Nat) (lx : Lexer) : ReadsUtf8 lx (skipWhile continues fuel lx) := by
  induction fuel generalizing lx with
  | zero => exact .refl lx
  | succ fuel inductionHypothesis =>
      rw [skipWhile]
      split
      · exact .refl lx
      · split
        · next here =>
            have notReplaced : peekCp lx ≠ 0xFFFD := by
              intro replaced
              rw [replaced, known] at here
              contradiction
            exact (skipCp_readsUtf8_of_peekCp notReplaced).trans (inductionHypothesis _)
        · exact .refl lx

theorem lexIllFormedUtf8_readsUtf8 (lx : Lexer) : ReadsUtf8 lx (lexIllFormedUtf8 lx) :=
  lexErrorAt_readsUtf8 _ _ _ _ _ _

theorem lexCommentLoop_readsUtf8 (fuel : Nat) (lx : Lexer) :
    ReadsUtf8 lx (lexCommentLoop fuel lx) := by
  induction fuel generalizing lx with
  | zero => exact .refl lx
  | succ fuel inductionHypothesis =>
      rw [lexCommentLoop]
      split
      · exact .refl lx
      · split
        · exact (lexIllFormedUtf8_readsUtf8 lx).trans (inductionHypothesis _)
        · next well =>
            exact (skipCp_readsUtf8 (by simpa using well)).trans (inductionHypothesis _)

/-! ## Numbers -/

theorem digitLoop_readsUtf8 {digitValue : Nat → Option Nat} (known : digitValue 0xFFFD = none)
    (base fuel : Nat) (lx : Lexer) (val : Nat) (fits got : Bool) :
    ReadsUtf8 lx (digitLoop digitValue base fuel lx val fits got).1 := by
  induction fuel generalizing lx val fits got with
  | zero => exact .refl lx
  | succ fuel inductionHypothesis =>
      rw [digitLoop]
      split
      · exact .refl lx
      · split
        · exact .refl lx
        · next digit isDigit =>
            have notReplaced : peekCp lx ≠ 0xFFFD := by
              intro replaced
              rw [replaced, known] at isDigit
              contradiction
            have skipped := skipCp_readsUtf8_of_peekCp notReplaced
            split
            · exact skipped.trans (inductionHypothesis _ _ _ _)
            · exact skipped.trans (inductionHypothesis _ _ _ _)

theorem parseDigits_readsUtf8 {digitValue : Nat → Option Nat} (known : digitValue 0xFFFD = none)
    (base : Nat) (malformed : List UInt8) (lx : Lexer) (alreadyGotDigit : Bool) :
    ReadsUtf8 lx (parseDigits digitValue base malformed lx alreadyGotDigit).1 := by
  have loop := digitLoop_readsUtf8 known base lx.rest.length lx 0 true alreadyGotDigit
  unfold parseDigits
  dsimp only
  split
  · exact loop
  · exact loop.trans (lexErrorAt_readsUtf8 _ _ _ _ _ _)

theorem parseNumber_readsUtf8 (lx : Lexer) : ReadsUtf8 lx (parseNumber lx).1 := by
  unfold parseNumber
  split
  · exact parseDigits_readsUtf8 (by decide) _ _ _ _
  · next zero =>
      have first : ReadsUtf8 lx (skipCp lx) :=
        skipCp_readsUtf8_of_peekCp (by rw [not_not.mp zero]; decide)
      have second : ∀ {cp : Nat}, peekCp (skipCp lx) = cp → cp ≠ 0xFFFD →
          ReadsUtf8 (skipCp lx) (skipCp (skipCp lx)) := fun isCp known =>
        skipCp_readsUtf8_of_peekCp (by rw [isCp]; exact known)
      dsimp only
      split
      · next hexadecimal =>
          have read : ReadsUtf8 (skipCp lx) (skipCp (skipCp lx)) :=
            hexadecimal.elim (second · (by decide)) (second · (by decide))
          exact (first.trans read).trans (parseDigits_readsUtf8 (by decide) _ _ _ _)
      · split
        · next binary =>
            have read : ReadsUtf8 (skipCp lx) (skipCp (skipCp lx)) :=
              binary.elim (second · (by decide)) (second · (by decide))
            exact (first.trans read).trans (parseDigits_readsUtf8 (by decide) _ _ _ _)
        · exact first.trans (parseDigits_readsUtf8 (by decide) _ _ _ _)

theorem lexNumber_readsUtf8 (lx : Lexer) (line col : Nat) :
    ReadsUtf8 lx (lexNumber lx line col) := by
  have parsed := parseNumber_readsUtf8 lx
  unfold lexNumber
  dsimp only
  split
  · exact lexErrorAt_readsUtf8 _ _ _ _ _ _
  · split
    · exact pushTokenValue_readsUtf8 parsed _ (fun _ => decimalInt_wellFormed _) _ _ _
    · exact parsed

theorem lexMinus_readsUtf8 {lx : Lexer} (minus : peekCp lx = 0x2D) (line col : Nat) :
    ReadsUtf8 lx (lexMinusOrNegativeNumber lx line col) := by
  have skipped : ReadsUtf8 lx (skipCp lx) :=
    skipCp_readsUtf8_of_peekCp (by rw [minus]; decide)
  have parsed := skipped.trans (parseNumber_readsUtf8 (skipCp lx))
  unfold lexMinusOrNegativeNumber
  dsimp only
  split
  · split
    · exact lexErrorAt_readsUtf8 _ _ _ _ _ _
    · split
      · exact pushTokenValue_readsUtf8 parsed _ (fun _ => decimalInt_wellFormed _) _ _ _
      · exact parsed
  · -- the minus is skipped again from where it stands
    have rewound : ReadsUtf8 lx { skipCp lx with rest := lx.rest } := by
      intro clean
      have read := skipped clean
      exact ⟨read.clean, ⟨[], rfl, .nil⟩, read.pushed⟩
    have again := rewound.trans (skipCp_readsUtf8_of_peekCp (by
      change utf8PeekCodepoint lx.rest ≠ 0xFFFD
      rw [show utf8PeekCodepoint lx.rest = 0x2D from minus]
      decide))
    exact pushTokenValue_readsUtf8 again _
      (fun _ => .of_ascii (by simp)) _ _ _

/-! ## Newlines, strings and names -/

theorem lexNewline_readsUtf8 {lx : Lexer} (newline : peekCp lx = 0x0A) (line col : Nat) :
    ReadsUtf8 lx (lexNewline lx line col) := by
  have skipped : ReadsUtf8 lx (skipCp lx) :=
    skipCp_readsUtf8_of_peekCp (by rw [newline]; decide)
  unfold lexNewline
  dsimp only
  split
  · exact skipped
  · exact pushTokenValue_readsUtf8 skipped _ (fun _ => .of_ascii (by simp)) _ _ _

theorem escapeByte_known {esc : Nat} {out : UInt8} (escape : escapeByte esc = some out) :
    esc ≠ 0xFFFD ∧ out ≤ 0x7F := by
  unfold escapeByte at escape
  repeat' split at escape
  all_goals first
    | contradiction
    | next isEsc =>
        obtain rfl := Option.some.inj escape
        exact ⟨by rw [isEsc]; decide, by decide⟩

/-- The string loop: what stands in the buffer is well formed. -/
theorem lexStringLoop_readsUtf8 {start : Lexer} (line col fuel : Nat) {lx : Lexer}
    {buf : List UInt8} (ok : Bool) (reads : ReadsUtf8 start lx)
    (buffered : errorHasAny lx.errors = false → WellFormed buf) :
    ReadsUtf8 start (lexStringLoop line col fuel lx buf ok) := by
  induction fuel generalizing lx buf ok with
  | zero => exact reads
  | succ fuel inductionHypothesis =>
      rw [lexStringLoop]
      split
      · exact lexErrorAt_readsUtf8 _ _ _ _ _ _
      · split
        · refine inductionHypothesis _ (reads.trans (lexIllFormedUtf8_readsUtf8 lx)) ?_
          intro clean
          simp [lexIllFormedUtf8, lexErrorAt] at clean
        · next well =>
          have wellFormed : atIllFormedUtf8 lx = false := by simpa using well
          have skipped := skipCp_readsUtf8 wellFormed
          dsimp only
          split
          · split
            · intro clean
              exact pushTokenValue_readsUtf8 (reads.trans skipped) _
                (fun _ => buffered (by rw [← skipCp_errors]; exact clean)) _ _ _ clean
            · exact reads.trans skipped
          · split
            · exact lexErrorAt_readsUtf8 _ _ _ _ _ _
            · split
              · split
                · exact lexErrorAt_readsUtf8 _ _ _ _ _ _
                · split
                  · next out escape =>
                      obtain ⟨known, ascii⟩ := escapeByte_known escape
                      refine inductionHypothesis _
                        ((reads.trans skipped).trans (skipCp_readsUtf8_of_peekCp known)) ?_
                      intro clean
                      rw [skipCp_errors, skipCp_errors] at clean
                      exact (buffered clean).append (.single (.ascii ascii))
                  · refine inductionHypothesis _
                      (readsUtf8_of_error _ _ _ _ _ _ (skipCp_errors _)) ?_
                    intro clean
                    simp [lexErrorAt] at clean
              · refine inductionHypothesis _ (reads.trans skipped) ?_
                intro clean
                have read := skipped clean
                exact (buffered read.clean).append
                  (consumed_wellFormed (skipCp_advances lx) read)

theorem lexString_readsUtf8 {lx : Lexer} (quote : peekCp lx = 0x22) (line col : Nat) :
    ReadsUtf8 lx (lexString lx line col) :=
  lexStringLoop_readsUtf8 line col _ true
    (skipCp_readsUtf8_of_peekCp (by rw [quote]; decide)) fun _ => .nil

theorem lexDirective_readsUtf8 {lx : Lexer} (dot : peekCp lx = 0x2E) (line col : Nat) :
    ReadsUtf8 lx (lexDirective lx line col) := by
  have skipped : ReadsUtf8 lx (skipCp lx) := skipCp_readsUtf8_of_peekCp (by rw [dot]; decide)
  have scanned := @skipWhile_readsUtf8 (fun cp => isIdentContinue cp || isArabicLetter cp)
    (by decide) (skipCp lx).rest.length (skipCp lx)
  intro clean
  have name := consumed_wellFormed (skipWhile_advances _ _ _) (scanned clean)
  exact pushTokenValue_readsUtf8 (skipped.trans scanned) _
    (fun _ => (WellFormed.single (.ascii (by decide))).append name) _ _ _ clean

theorem lexIdentifier_readsUtf8 (lx : Lexer) (line col : Nat) :
    ReadsUtf8 lx (lexIdentifier lx line col) := by
  have scanned : ReadsUtf8 lx (scanIdent lx) := skipWhile_readsUtf8 (by decide) _ _
  have named : Utf8Read lx (scanIdent lx) → WellFormed (consumed lx (scanIdent lx)) :=
    consumed_wellFormed (scanIdent_advances lx)
  have reserved : ∀ endCol : Nat,
      ReadsUtf8 lx (lexReservedPrefixError (scanIdent lx) line col endCol) :=
    fun _ => lexErrorAt_readsUtf8 _ _ _ _ _ _
  -- a name after a cursor that has reported the reserved beginning of the name, or nothing
  have push : ∀ {after : Lexer} (type : TokenType) (endCol : Nat), ReadsUtf8 lx after →
      (errorHasAny after.errors = false → errorHasAny (scanIdent lx).errors = false) →
      ReadsUtf8 lx (pushTokenValue after type (consumed lx (scanIdent lx)) line col endCol) :=
    fun type endCol reads still clean =>
      pushTokenValue_readsUtf8 reads type (fun _ => named (scanned (still clean))) _ _ _ clean
  unfold lexIdentifier
  dsimp only
  split
  · next colon =>
      rw [Bool.and_eq_true, decide_eq_true_eq] at colon
      split
      · refine push _ _ (readsUtf8_of_error _ _ _ _ _ _ (skipCp_errors _)) fun clean => ?_
        simp [lexReservedPrefixError, lexErrorAt] at clean
      · refine push _ _ (scanned.trans (skipCp_readsUtf8_of_peekCp ?_)) fun clean => ?_
        · rw [colon.2]
          decide
        · rwa [skipCp_errors] at clean
  · split
    · exact push _ _ scanned id
    · split
      · exact push _ _ scanned id
      · split
        · refine push _ _ (reserved _) fun clean => ?_
          simp [lexReservedPrefixError, lexErrorAt] at clean
        · exact push _ _ scanned id

/-! ## The main loop -/

theorem singleCharToken_known {cp : Nat} {type : TokenType} {value : List UInt8}
    (single : singleCharToken cp = some (type, value)) : cp ≠ 0xFFFD ∧ WellFormed value := by
  unfold singleCharToken at single
  repeat' split at single
  all_goals first
    | contradiction
    | next isCp =>
        obtain ⟨-, rfl⟩ := Prod.mk.inj (Option.some.inj single)
        refine ⟨by rw [isCp]; decide, ?_⟩
        first
          | exact .of_ascii (by simp)
          | exact .single (.two (by decide) (by decide) (by decide))

theorem lexStep_readsUtf8 (lx : Lexer) : ReadsUtf8 lx (lexStep lx) := by
  unfold lexStep
  dsimp only
  split
  · next blank =>
      refine skipCp_readsUtf8_of_peekCp fun replaced => ?_
      rw [replaced] at blank
      exact absurd blank (by decide)
  · split
    · next newline => exact lexNewline_readsUtf8 newline _ _
    · split
      · exact lexCommentLoop_readsUtf8 _ lx
      · split
        · next single =>
            obtain ⟨known, well⟩ := singleCharToken_known single
            exact pushTokenValue_readsUtf8 (skipCp_readsUtf8_of_peekCp known) _ (fun _ => well) _ _ _
        · split
          · next minus => exact lexMinus_readsUtf8 minus _ _
          · split
            · next dot => exact lexDirective_readsUtf8 dot _ _
            · split
              · next quote => exact lexString_readsUtf8 quote _ _
              · split
                · exact lexNumber_readsUtf8 lx _ _
                · split
                  · exact lexIdentifier_readsUtf8 lx _ _
                  · split
                    · exact lexIllFormedUtf8_readsUtf8 lx
                    · exact readsUtf8_of_error _ _ _ _ _ _ (skipCp_errors _)

theorem lexLoop_readsUtf8 (fuel : Nat) (lx : Lexer) : ReadsUtf8 lx (lexLoop fuel lx) := by
  induction fuel generalizing lx with
  | zero => exact .refl lx
  | succ fuel inductionHypothesis =>
      rw [lexLoop]
      split
      · exact .refl lx
      · exact (lexStep_readsUtf8 lx).trans (inductionHypothesis _)

/-! ## Reading to the end -/

theorem atEnd_eq_false {lx : Lexer} (unread : lx.rest ≠ []) : atEnd lx = false := by
  simpa [atEnd] using unread

/-- The first digit of a number is read. -/
theorem digitLoop_length_lt {digitValue : Nat → Option Nat} {base : Nat} {lx : Lexer}
    {digit val : Nat} {fits got : Bool} (unread : lx.rest ≠ [])
    (isDigit : digitValue (peekCp lx) = some digit) :
    (digitLoop digitValue base lx.rest.length lx val fits got).1.rest.length < lx.rest.length := by
  obtain ⟨fuel, enough⟩ := Nat.exists_eq_add_one.mpr (List.length_pos_iff.mpr unread)
  have shorter := skipCp_length_lt unread
  rw [enough, digitLoop, if_neg (by simp [atEnd_eq_false unread])]
  simp only [isDigit]
  rw [← enough]
  split
  · exact Nat.lt_of_le_of_lt (digitLoop_advances _ _ _ _ _ _ _).length_le shorter
  · exact Nat.lt_of_le_of_lt (digitLoop_advances _ _ _ _ _ _ _).length_le shorter

theorem decimalDigit_of_start {cp : Nat} (starts : isNumberStart cp = true) :
    ∃ digit, decimalDigitValue cp = some digit := by
  unfold isNumberStart at starts
  unfold decimalDigitValue
  by_cases ascii : isAsciiDigit cp = true
  · exact ⟨_, if_pos ascii⟩
  · rw [if_neg ascii]
    simp only [Bool.not_eq_true] at ascii
    rw [ascii, Bool.false_or] at starts
    rw [if_pos starts]
    exact ⟨_, if_pos starts⟩

theorem parseNumber_length_lt {lx : Lexer} (unread : lx.rest ≠ [])
    (starts : isNumberStart (peekCp lx) = true) :
    (parseNumber lx).1.rest.length < lx.rest.length := by
  have shorter := skipCp_length_lt unread
  have after : ∀ {last : Lexer}, Advances (skipCp lx) last →
      last.rest.length < lx.rest.length :=
    fun advances => Nat.lt_of_le_of_lt advances.length_le shorter
  unfold parseNumber
  split
  · obtain ⟨digit, isDigit⟩ := decimalDigit_of_start starts
    have read := @digitLoop_length_lt decimalDigitValue 10 lx digit 0 true false unread isDigit
    unfold parseDecimalNumber parseDigits
    dsimp only
    split
    · exact read
    · exact read
  · dsimp only
    split
    · exact after ((skipCp_advances _).trans (parseDigits_advances _ _ _ _ _))
    · split
      · exact after ((skipCp_advances _).trans (parseDigits_advances _ _ _ _ _))
      · exact after (parseDigits_advances _ _ _ _ _)

theorem lexNumber_length_lt {lx : Lexer} (unread : lx.rest ≠ [])
    (starts : isNumberStart (peekCp lx) = true) (line col : Nat) :
    (lexNumber lx line col).rest.length < lx.rest.length := by
  have shorter := parseNumber_length_lt unread starts
  unfold lexNumber
  dsimp only
  split
  · exact shorter
  · split
    · exact shorter
    · exact shorter

theorem lexMinus_length_lt {lx : Lexer} (unread : lx.rest ≠ []) (line col : Nat) :
    (lexMinusOrNegativeNumber lx line col).rest.length < lx.rest.length := by
  have shorter := skipCp_length_lt unread
  have parsed := (parseNumber_advances (skipCp lx)).length_le
  unfold lexMinusOrNegativeNumber
  dsimp only
  split
  · split
    · exact Nat.lt_of_le_of_lt parsed shorter
    · split
      · exact Nat.lt_of_le_of_lt parsed shorter
      · exact Nat.lt_of_le_of_lt parsed shorter
  · exact @skipCp_length_lt { skipCp lx with rest := lx.rest } unread

theorem lexComment_length_lt {lx : Lexer} (semicolon : peekCp lx = 0x3B) :
    (lexComment lx).rest.length < lx.rest.length := by
  have unread : lx.rest ≠ [] := rest_ne_nil_of_peekCp (by rw [semicolon]; decide)
  have well : atIllFormedUtf8 lx = false := wellFormedAt_of_peekCp (by rw [semicolon]; decide)
  obtain ⟨fuel, enough⟩ := Nat.exists_eq_add_one.mpr (List.length_pos_iff.mpr unread)
  have shorter := skipCp_length_lt unread
  rw [lexComment, enough, lexCommentLoop, if_neg (by simp [atEnd_eq_false unread, semicolon]),
    if_neg (by simp [well]), ← enough]
  exact Nat.lt_of_le_of_lt (lexCommentLoop_advances _ _).length_le shorter

theorem lexIllFormedUtf8_length_lt {lx : Lexer} (unread : lx.rest ≠ [])
    (illFormed : atIllFormedUtf8 lx = true) :
    (lexIllFormedUtf8 lx).rest.length < lx.rest.length := by
  obtain ⟨fuel, enough⟩ := Nat.exists_eq_add_one.mpr (List.length_pos_iff.mpr unread)
  have shorter := skipCp_length_lt unread
  change (skipIllFormed lx.rest.length lx).rest.length < lx.rest.length
  rw [enough, skipIllFormed, if_pos illFormed, ← enough]
  exact Nat.lt_of_le_of_lt (skipIllFormed_advances _ _).length_le shorter

theorem lexStringLoop_length_le (line col fuel : Nat) (lx : Lexer) (buf : List UInt8) (ok : Bool) :
    (lexStringLoop line col fuel lx buf ok).rest.length ≤ lx.rest.length := by
  induction fuel generalizing lx buf ok with
  | zero => exact Nat.le_refl _
  | succ fuel inductionHypothesis =>
      have skipped := (skipCp_advances lx).length_le
      rw [lexStringLoop]
      split
      · exact Nat.le_refl _
      · split
        · exact Nat.le_trans (inductionHypothesis _ _ _) (lexIllFormedUtf8_advances lx).length_le
        · dsimp only
          split
          · split
            · exact skipped
            · exact skipped
          · split
            · exact Nat.le_refl _
            · split
              · split
                · exact skipped
                · split
                  · exact Nat.le_trans (inductionHypothesis _ _ _)
                      (Nat.le_trans (skipCp_advances _).length_le skipped)
                  · exact Nat.le_trans (inductionHypothesis _ _ _)
                      (Nat.le_trans (skipCp_advances _).length_le skipped)
              · exact Nat.le_trans (inductionHypothesis _ _ _) skipped

theorem lexIdentifier_length_lt {lx : Lexer} (starts : isIdentStart (peekCp lx) = true)
    (line col : Nat) : (lexIdentifier lx line col).rest.length < lx.rest.length := by
  have shorter := scanIdent_length_lt starts
  unfold lexIdentifier
  dsimp only
  split
  · split
    · exact Nat.lt_of_le_of_lt (skipCp_advances _).length_le shorter
    · exact Nat.lt_of_le_of_lt (skipCp_advances _).length_le shorter
  · split
    · exact shorter
    · split
      · exact shorter
      · split
        · exact shorter
        · exact shorter

/-- Every turn of the main loop reads something. -/
theorem lexStep_length_lt {lx : Lexer} (unread : lx.rest ≠ []) :
    (lexStep lx).rest.length < lx.rest.length := by
  have shorter := skipCp_length_lt unread
  unfold lexStep
  dsimp only
  split
  · exact shorter
  · split
    · unfold lexNewline
      dsimp only
      split
      · exact shorter
      · exact shorter
    · split
      · next semicolon => exact lexComment_length_lt semicolon
      · split
        · exact shorter
        · split
          · exact lexMinus_length_lt unread _ _
          · split
            · exact Nat.lt_of_le_of_lt (skipWhile_advances _ _ _).length_le shorter
            · split
              · exact Nat.lt_of_le_of_lt (lexStringLoop_length_le _ _ _ _ _ _) shorter
              · split
                · next starts => exact lexNumber_length_lt unread starts _ _
                · split
                  · next starts => exact lexIdentifier_length_lt starts _ _
                  · split
                    · next illFormed => exact lexIllFormedUtf8_length_lt unread illFormed
                    · exact @skipCp_length_lt (lexError lx _) unread

/-- The main loop reads the whole source. -/
theorem lexLoop_rest (fuel : Nat) (lx : Lexer) (enough : lx.rest.length ≤ fuel) :
    (lexLoop fuel lx).rest = [] := by
  induction fuel generalizing lx with
  | zero => exact List.length_eq_zero_iff.mp (Nat.le_zero.mp enough)
  | succ fuel inductionHypothesis =>
      rw [lexLoop]
      split
      · next ended => simpa [atEnd] using ended
      · next goesOn =>
          have unread : lx.rest ≠ [] := by simpa [atEnd] using goesOn
          have shorter := lexStep_length_lt unread
          exact inductionHypothesis _ (by omega)

/-- A source without lexical errors is well-formed UTF-8, and so is the value of
each of its tokens. -/
theorem lexerLex_utf8 (src : SourceBuffer) (lexed : errorHasAny (lexerLex src).errors = false) :
    WellFormed src.data ∧ ∀ token ∈ (lexerLex src).tokens.data, WellFormed token.value := by
  have ended := lexLoop_rest src.data.length ⟨src.data, 1, 1, [], .empty, src.name⟩ (Nat.le_refl _)
  obtain ⟨-, ⟨text, split, well⟩, pushed⟩ :=
    lexLoop_readsUtf8 src.data.length ⟨src.data, 1, 1, [], .empty, src.name⟩ lexed
  refine ⟨?_, fun token member => ?_⟩
  · rw [ended, List.append_nil] at split
    have whole : src.data = text := split
    rwa [whole]
  · simp only [lexerLex, lexAll, pushTokenValue, List.mem_append, List.mem_singleton] at member
    rcases member with earlier | rfl
    · exact (pushed token earlier).resolve_left List.not_mem_nil
    · exact .nil

/-- A comment, a string with an escape and a written U+FFFD, and Arabic names. -/
def writtenReplacement : SourceBuffer :=
  ⟨utf8 "أ: ارجع ; \uFFFD\n.بيانات\n.سلسلة_منتهية_بصفر \"\uFFFD\\n\"\n", none⟩

theorem lexerLex_utf8_writtenReplacement :
    WellFormed writtenReplacement.data ∧
      ∀ token ∈ (lexerLex writtenReplacement).tokens.data, WellFormed token.value :=
  lexerLex_utf8 writtenReplacement (by decide +kernel)

end Nazm.Lexer
