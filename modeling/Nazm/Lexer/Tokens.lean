import Nazm.Lexer.Lexer

/-!
What the tokens of a source are like.

Owns the facts later stages need about any token list the lexer returns: names
hold something but no NUL, and names and strings are paid for by bytes of the source.

Does not own which tokens a given source has.
-/

namespace Nazm.Lexer

open Nazm.Encoder Nazm.Unicode Nazm.Diagnostics

/-! ## Decoding reads from the front -/

theorem continuation_split {count cp last : Nat} {src next : List UInt8}
    (reads : continuation count cp src = some (last, next)) :
    ∃ used, src = used ++ next ∧ 0 ∉ used := by
  induction count generalizing cp src with
  | zero =>
      obtain ⟨-, rfl⟩ := Prod.mk.inj (Option.some.inj reads)
      exact ⟨[], rfl, List.not_mem_nil⟩
  | succ count inductionHypothesis =>
      cases src with
      | nil => contradiction
      | cons b src =>
          rw [continuation] at reads
          split at reads
          · contradiction
          · next continues =>
              obtain ⟨used, rfl, clean⟩ := inductionHypothesis reads
              refine ⟨b :: used, rfl, ?_⟩
              intro zero
              rcases List.mem_cons.mp zero with rfl | inUsed
              · exact continues (by decide)
              · exact clean inUsed

/-- A codepoint takes bytes from the front, none of them NUL unless it is U+0000. -/
theorem utf8NextCodepoint_split (src : List UInt8) :
    ∃ used, src = used ++ (utf8NextCodepoint src).2 ∧ (src ≠ [] → used ≠ []) ∧
      ((utf8NextCodepoint src).1 ≠ 0 → 0 ∉ used) := by
  cases src with
  | nil => exact ⟨[], rfl, fun absent => absurd rfl absent, fun _ => List.not_mem_nil⟩
  | cons b0 src =>
      have single : ∀ cp : Nat, (cp ≠ 0 → b0 ≠ 0) →
          ∃ used, b0 :: src = used ++ src ∧ (b0 :: src ≠ [] → used ≠ []) ∧
            (cp ≠ 0 → 0 ∉ used) := by
        intro cp notZero
        refine ⟨[b0], rfl, fun _ => List.cons_ne_nil _ _, fun cpNotZero => ?_⟩
        simpa using (notZero cpNotZero).symm
      rw [utf8NextCodepoint]
      split
      · refine single _ fun cpNotZero => ?_
        rintro rfl
        exact cpNotZero rfl
      · next large =>
          have lead : b0 ≠ 0 := by rintro rfl; exact large (by decide)
          split
          · exact single _ fun _ => lead
          · next bytes bits announced =>
              split
              · exact single _ fun _ => lead
              · next cp next' reads =>
                  by_cases invalid : cp < (if bytes = 2 then 0x80 else if bytes = 3 then 0x800
                      else 0x10000) ∨ (0xD800 ≤ cp ∧ cp ≤ 0xDFFF) ∨ 0x10FFFF < cp
                  · simp only [if_pos invalid]
                    exact single _ fun _ => lead
                  · simp only [if_neg invalid]
                    obtain ⟨used, rfl, clean⟩ := continuation_split reads
                    refine ⟨b0 :: used, rfl, fun _ => List.cons_ne_nil _ _, fun _ zero => ?_⟩
                    rcases List.mem_cons.mp zero with equal | inUsed
                    · exact lead equal.symm
                    · exact clean inUsed

/-! ## Cursors that move without a token -/

/-- The cursor moved forward and pushed nothing. -/
structure Advances (before after : Lexer) : Prop where
  out : after.out = before.out
  rest : after.rest <:+ before.rest

theorem Advances.refl (lx : Lexer) : Advances lx lx := ⟨rfl, List.suffix_refl _⟩

theorem Advances.trans {first second third : Lexer} (one : Advances first second)
    (two : Advances second third) : Advances first third :=
  ⟨two.out.trans one.out, two.rest.trans one.rest⟩

theorem Advances.length_le {before after : Lexer} (advances : Advances before after) :
    after.rest.length ≤ before.rest.length :=
  advances.rest.length_le

theorem skipCp_rest (lx : Lexer) : (skipCp lx).rest = (utf8NextCodepoint lx.rest).2 := by
  unfold skipCp
  dsimp only
  split <;> rfl

theorem skipCp_advances (lx : Lexer) : Advances lx (skipCp lx) := by
  constructor
  · unfold skipCp
    dsimp only
    split <;> rfl
  · obtain ⟨used, split, -⟩ := utf8NextCodepoint_split lx.rest
    rw [skipCp_rest]
    exact ⟨used, split.symm⟩

/-- Skipping at a byte consumes it. -/
theorem skipCp_length_lt {lx : Lexer} (unread : lx.rest ≠ []) :
    (skipCp lx).rest.length < lx.rest.length := by
  obtain ⟨used, split, consumes, -⟩ := utf8NextCodepoint_split lx.rest
  have positive := List.length_pos_iff.mpr (consumes unread)
  have total := congrArg List.length split
  rw [List.length_append] at total
  rw [skipCp_rest]
  omega

/-- A codepoint other than U+0000 is one that stands there. -/
theorem rest_ne_nil_of_peekCp {lx : Lexer} (peeked : peekCp lx ≠ 0) : lx.rest ≠ [] := by
  intro empty
  rw [peekCp, empty] at peeked
  exact peeked rfl

theorem lexErrorAt_advances (lx : Lexer) (line col endCol : Nat) (msg : List UInt8) :
    Advances lx (lexErrorAt lx line col endCol msg) :=
  ⟨rfl, List.suffix_refl _⟩

theorem lexError_advances (lx : Lexer) (msg : List UInt8) : Advances lx (lexError lx msg) :=
  lexErrorAt_advances lx _ _ _ msg

theorem skipWhile_advances (continues : Nat → Bool) (fuel : Nat) (lx : Lexer) :
    Advances lx (skipWhile continues fuel lx) := by
  induction fuel generalizing lx with
  | zero => exact .refl lx
  | succ fuel inductionHypothesis =>
      rw [skipWhile]
      split
      · exact .refl lx
      · split
        · exact (skipCp_advances lx).trans (inductionHypothesis _)
        · exact .refl lx

theorem digitLoop_advances (digitValue : Nat → Option Nat) (base fuel : Nat) (lx : Lexer)
    (val : Nat) (fits got : Bool) :
    Advances lx (digitLoop digitValue base fuel lx val fits got).1 := by
  induction fuel generalizing lx val fits got with
  | zero => exact .refl lx
  | succ fuel inductionHypothesis =>
      rw [digitLoop]
      split
      · exact .refl lx
      · split
        · exact .refl lx
        · split
          · exact (skipCp_advances lx).trans (inductionHypothesis _ _ _ _)
          · exact (skipCp_advances lx).trans (inductionHypothesis _ _ _ _)

theorem parseDigits_advances (digitValue : Nat → Option Nat) (base : Nat) (malformed : List UInt8)
    (lx : Lexer) (alreadyGotDigit : Bool) :
    Advances lx (parseDigits digitValue base malformed lx alreadyGotDigit).1 := by
  have loop := digitLoop_advances digitValue base lx.rest.length lx 0 true alreadyGotDigit
  unfold parseDigits
  dsimp only
  split
  · exact loop
  · exact loop.trans (lexError_advances _ _)

theorem parseNumber_advances (lx : Lexer) : Advances lx (parseNumber lx).1 := by
  have first := skipCp_advances lx
  unfold parseNumber
  split
  · exact parseDigits_advances _ _ _ _ _
  · dsimp only
    split
    · exact (first.trans (skipCp_advances _)).trans (parseDigits_advances _ _ _ _ _)
    · split
      · exact (first.trans (skipCp_advances _)).trans (parseDigits_advances _ _ _ _ _)
      · exact first.trans (parseDigits_advances _ _ _ _ _)

theorem skipIllFormed_advances (fuel : Nat) (lx : Lexer) :
    Advances lx (skipIllFormed fuel lx) := by
  induction fuel generalizing lx with
  | zero => exact .refl lx
  | succ fuel inductionHypothesis =>
      rw [skipIllFormed]
      split
      · exact (skipCp_advances lx).trans (inductionHypothesis _)
      · exact .refl lx

theorem lexIllFormedUtf8_advances (lx : Lexer) : Advances lx (lexIllFormedUtf8 lx) :=
  (skipIllFormed_advances _ lx).trans (lexErrorAt_advances _ _ _ _ _)

theorem lexCommentLoop_advances (fuel : Nat) (lx : Lexer) :
    Advances lx (lexCommentLoop fuel lx) := by
  induction fuel generalizing lx with
  | zero => exact .refl lx
  | succ fuel inductionHypothesis =>
      rw [lexCommentLoop]
      split
      · exact .refl lx
      · split
        · exact (lexIllFormedUtf8_advances lx).trans (inductionHypothesis _)
        · exact (skipCp_advances lx).trans (inductionHypothesis _)

/-! ## Consumed bytes -/

theorem consumed_append {before after : Lexer} (advances : Advances before after) :
    before.rest = consumed before after ++ after.rest := by
  obtain ⟨used, split⟩ := advances.rest
  have taken : consumed before after = used := by
    rw [consumed, ← split, List.length_append, Nat.add_sub_cancel, List.take_left]
  rw [taken, split]

theorem length_consumed {before after : Lexer} (advances : Advances before after) :
    (consumed before after).length + after.rest.length = before.rest.length := by
  rw [← List.length_append, ← consumed_append advances]

theorem isIdentContinue_ne_zero {cp : Nat} (continues : isIdentContinue cp = true) : cp ≠ 0 := by
  rintro rfl
  exact absurd continues (by decide)

/-- A name holds no NUL. -/
theorem skipWhile_consumes_nonzero (fuel : Nat) (lx : Lexer) :
    ∃ used, lx.rest = used ++ (skipWhile isIdentContinue fuel lx).rest ∧ 0 ∉ used := by
  induction fuel generalizing lx with
  | zero => exact ⟨[], rfl, List.not_mem_nil⟩
  | succ fuel inductionHypothesis =>
      rw [skipWhile]
      split
      · exact ⟨[], rfl, List.not_mem_nil⟩
      · split
        · next continues =>
            obtain ⟨first, split, -, clean⟩ := utf8NextCodepoint_split lx.rest
            obtain ⟨used, usedSplit, usedClean⟩ := inductionHypothesis (skipCp lx)
            refine ⟨first ++ used, ?_, ?_⟩
            · rw [List.append_assoc, ← usedSplit, skipCp_rest]
              exact split
            · rw [List.mem_append]
              exact not_or.mpr ⟨clean (isIdentContinue_ne_zero continues), usedClean⟩
        · exact ⟨[], rfl, List.not_mem_nil⟩

theorem scanIdent_advances (lx : Lexer) : Advances lx (scanIdent lx) :=
  skipWhile_advances _ _ _

theorem not_mem_consumed_scanIdent (lx : Lexer) : 0 ∉ consumed lx (scanIdent lx) := by
  obtain ⟨used, split, clean⟩ := skipWhile_consumes_nonzero lx.rest.length lx
  have taken := consumed_append (scanIdent_advances lx)
  have equal : consumed lx (scanIdent lx) = used :=
    List.append_cancel_right (taken.symm.trans split)
  rwa [equal]

/-- A name has at least its first letter. -/
theorem scanIdent_length_lt {lx : Lexer} (starts : isIdentStart (peekCp lx) = true) :
    (scanIdent lx).rest.length < lx.rest.length := by
  have continues : isIdentContinue (peekCp lx) = true := by
    rw [isIdentStart, Bool.or_eq_true] at starts
    rcases starts with letter | underscore
    · simp [isIdentContinue, letter]
    · simp [isIdentContinue, underscore]
  have unread := rest_ne_nil_of_peekCp (isIdentContinue_ne_zero continues)
  obtain ⟨fuel, enough⟩ := Nat.exists_eq_add_one.mpr (List.length_pos_iff.mpr unread)
  have notEnd : atEnd lx = false := by simpa [atEnd] using unread
  rw [scanIdent, enough, skipWhile, if_neg (by simp [notEnd]), if_pos continues, ← enough]
  exact Nat.lt_of_le_of_lt (skipWhile_advances _ _ _).length_le (skipCp_length_lt unread)

/-! ## Tokens -/

/-- The types of tokens that can name a symbol. -/
def TokenType.isName : TokenType → Bool
  | .labelDef | .labelRef | .mnemonic => true
  | _ => false

/-- What a token takes from the source: names and strings their bytes and one
more, a directive one byte. -/
def Token.weight (token : Token) : Nat :=
  match token.type with
  | .labelDef | .labelRef | .mnemonic | .string => token.value.length + 1
  | .directive => 1
  | _ => 0

def tokensWeight (tokens : List Token) : Nat := (tokens.map Token.weight).sum

@[simp] theorem tokensWeight_nil : tokensWeight [] = 0 := rfl

@[simp] theorem tokensWeight_cons (token : Token) (tokens : List Token) :
    tokensWeight (token :: tokens) = token.weight + tokensWeight tokens := by
  simp [tokensWeight]

@[simp] theorem tokensWeight_append (first second : List Token) :
    tokensWeight (first ++ second) = tokensWeight first + tokensWeight second := by
  simp [tokensWeight]

/-- A name of a symbol is a C string that is not empty. -/
structure IsName (name : List UInt8) : Prop where
  nonempty : name ≠ []
  clean : 0 ∉ name

def Token.WellFormed (token : Token) : Prop := token.type.isName = true → IsName token.value

/-- A part of the lexer's work: the tokens it appends are well formed, and each
byte read pays for two units of their weight. -/
structure Lexes (before after : Lexer) : Prop where
  wellFormed : (∀ token ∈ before.out, token.WellFormed) → ∀ token ∈ after.out, token.WellFormed
  paid : tokensWeight after.out + 2 * after.rest.length ≤
    tokensWeight before.out + 2 * before.rest.length

theorem Lexes.trans {first second third : Lexer} (one : Lexes first second)
    (two : Lexes second third) : Lexes first third :=
  ⟨fun start => two.wellFormed (one.wellFormed start), Nat.le_trans two.paid one.paid⟩

theorem Advances.lexes {before after : Lexer} (advances : Advances before after) :
    Lexes before after := by
  have shorter := advances.length_le
  refine ⟨fun start => by rwa [advances.out], ?_⟩
  rw [advances.out]
  omega

/-- A token is pushed after enough bytes were read for it. -/
theorem pushTokenValue_lexes {before after : Lexer} (advances : Advances before after)
    {type : TokenType} {value : List UInt8} (clean : type.isName = true → IsName value)
    (line col endCol : Nat)
    (paid : (Token.mk type value line col endCol).weight + 2 * after.rest.length ≤
      2 * before.rest.length) :
    Lexes before (pushTokenValue after type value line col endCol) := by
  constructor
  · intro start token member
    rw [pushTokenValue, advances.out, List.mem_append, List.mem_singleton] at member
    rcases member with inOut | rfl
    · exact start token inOut
    · exact clean
  · simp only [pushTokenValue, advances.out, tokensWeight_append, tokensWeight_cons,
      tokensWeight_nil]
    omega

/-- A token without weight costs nothing. -/
theorem pushTokenValue_lexes_free {before after : Lexer} (advances : Advances before after)
    {type : TokenType} (free : ∀ value line col endCol, (Token.mk type value line col endCol).weight = 0)
    (nameless : type.isName = false) (value : List UInt8) (line col endCol : Nat) :
    Lexes before (pushTokenValue after type value line col endCol) := by
  refine pushTokenValue_lexes advances (fun named => ?_) line col endCol ?_
  · rw [nameless] at named
    contradiction
  · have shorter := advances.length_le
    rw [free]
    omega

/-! ## One turn of the main loop -/

theorem lexNewline_lexes (lx : Lexer) (line col : Nat) : Lexes lx (lexNewline lx line col) := by
  have skipped := skipCp_advances lx
  unfold lexNewline
  dsimp only
  split
  · exact skipped.lexes
  · exact pushTokenValue_lexes_free skipped (fun _ _ _ _ => rfl) rfl _ _ _ _

theorem lexNumber_lexes (lx : Lexer) (line col : Nat) : Lexes lx (lexNumber lx line col) := by
  have parsed := parseNumber_advances lx
  unfold lexNumber
  dsimp only
  split
  · exact (parsed.trans (lexErrorAt_advances _ _ _ _ _)).lexes
  · split
    · exact pushTokenValue_lexes_free parsed (fun _ _ _ _ => rfl) rfl _ _ _ _
    · exact parsed.lexes

theorem lexMinus_lexes (lx : Lexer) (line col : Nat) :
    Lexes lx (lexMinusOrNegativeNumber lx line col) := by
  have skipped := skipCp_advances lx
  have parsed := skipped.trans (parseNumber_advances (skipCp lx))
  unfold lexMinusOrNegativeNumber
  dsimp only
  split
  · split
    · exact (parsed.trans (lexErrorAt_advances _ _ _ _ _)).lexes
    · split
      · exact pushTokenValue_lexes_free parsed (fun _ _ _ _ => rfl) rfl _ _ _ _
      · exact parsed.lexes
  · have rewound : Advances lx { skipCp lx with rest := lx.rest } :=
      ⟨skipped.out, List.suffix_refl _⟩
    exact pushTokenValue_lexes_free (rewound.trans (skipCp_advances _)) (fun _ _ _ _ => rfl) rfl
      _ _ _ _

theorem lexDirective_lexes {lx : Lexer} (unread : lx.rest ≠ []) (line col : Nat) :
    Lexes lx (lexDirective lx line col) := by
  have skipped := skipCp_advances lx
  have scanned := skipWhile_advances (fun cp => isIdentContinue cp || isArabicLetter cp)
    (skipCp lx).rest.length (skipCp lx)
  have shorter := skipCp_length_lt unread
  have bound := scanned.length_le
  refine pushTokenValue_lexes (skipped.trans scanned) (fun named => by contradiction) _ _ _ ?_
  simp only [Token.weight]
  omega

theorem lexIdentifier_lexes {lx : Lexer} (starts : isIdentStart (peekCp lx) = true)
    (line col : Nat) : Lexes lx (lexIdentifier lx line col) := by
  have scanned := scanIdent_advances lx
  have total := length_consumed scanned
  have shorter := scanIdent_length_lt starts
  have isName : IsName (consumed lx (scanIdent lx)) :=
    ⟨List.ne_nil_of_length_pos (by omega), not_mem_consumed_scanIdent lx⟩
  -- pushing the name after a cursor that read at least the name
  have named : ∀ {after : Lexer} {type : TokenType} (endCol : Nat),
      Advances (scanIdent lx) after →
      (∀ value line col endCol, (Token.mk type value line col endCol).weight ≤ value.length + 1) →
      Lexes lx (pushTokenValue after type (consumed lx (scanIdent lx)) line col endCol) := by
    intro after type endCol further bound
    refine pushTokenValue_lexes (scanned.trans further) (fun _ => isName) _ _ _ ?_
    have weight := bound (consumed lx (scanIdent lx)) line col endCol
    have furtherBound := further.length_le
    omega
  have reserved : ∀ endCol,
      Advances (scanIdent lx) (lexReservedPrefixError (scanIdent lx) line col endCol) :=
    fun _ => lexErrorAt_advances _ _ _ _ _
  unfold lexIdentifier
  dsimp only
  split
  · refine named _ (Advances.trans ?_ (skipCp_advances _)) fun _ _ _ _ => Nat.le_refl _
    split
    · exact reserved _
    · exact .refl _
  · split
    · exact named _ (.refl _) fun _ _ _ _ => Nat.le_refl _
    · split
      · exact named _ (.refl _) fun _ _ _ _ => Nat.zero_le _
      · refine named _ ?_ fun _ _ _ _ => Nat.le_refl _
        split
        · exact reserved _
        · exact .refl _

/-- The string loop: what stands in the buffer was read after the quote. -/
theorem lexStringLoop_lexes {start : Lexer} (line col fuel : Nat) {lx : Lexer} {buf : List UInt8}
    (ok : Bool) (advances : Advances start lx)
    (buffered : buf.length + lx.rest.length + 1 ≤ start.rest.length) :
    Lexes start (lexStringLoop line col fuel lx buf ok) := by
  induction fuel generalizing lx buf ok with
  | zero => exact advances.lexes
  | succ fuel inductionHypothesis =>
      have unclosed : ∀ {after : Lexer}, Advances start after →
          Lexes start (lexErrorAt after line col after.col unclosedString) :=
        fun further => (further.trans (lexErrorAt_advances _ _ _ _ _)).lexes
      have skipped := advances.trans (skipCp_advances lx)
      have skippedBound := (skipCp_advances lx).length_le
      rw [lexStringLoop]
      split
      · exact unclosed advances
      · split
        · have illFormed := lexIllFormedUtf8_advances lx
          have bound := illFormed.length_le
          exact inductionHypothesis _ (advances.trans illFormed) (by omega)
        · dsimp only
          split
          · split
            · refine pushTokenValue_lexes skipped (fun named => by contradiction) _ _ _ ?_
              simp only [Token.weight]
              omega
            · exact skipped.lexes
          · split
            · exact unclosed advances
            · split
              · -- an escape: two codepoints for at most one byte
                next backslash =>
                have unread : lx.rest ≠ [] := rest_ne_nil_of_peekCp (by rw [backslash]; decide)
                have backslashRead := skipCp_length_lt unread
                have escape := skipCp_advances (skipCp lx)
                have escapeBound := escape.length_le
                split
                · exact unclosed skipped
                · split
                  · refine inductionHypothesis _ (skipped.trans escape) ?_
                    rw [List.length_append, List.length_singleton]
                    omega
                  · exact inductionHypothesis _
                      ((skipped.trans (lexErrorAt_advances _ _ _ _ _)).trans (skipCp_advances _))
                      (by
                        have bound := (skipCp_advances (lexErrorAt (skipCp lx) (skipCp lx).line
                          (skipCp lx).col ((skipCp lx).col + 1)
                          (utf8 "تسلسل هروب غير معروف داخل السلسلة النصية"))).length_le
                        simp only [lexErrorAt] at bound ⊢
                        omega)
              · have taken := length_consumed (skipCp_advances lx)
                refine inductionHypothesis _ skipped ?_
                rw [List.length_append]
                omega

theorem lexString_lexes {lx : Lexer} (unread : lx.rest ≠ []) (line col : Nat) :
    Lexes lx (lexString lx line col) := by
  have shorter := skipCp_length_lt unread
  exact lexStringLoop_lexes line col _ true (skipCp_advances lx) (by simp; omega)

theorem singleCharToken_free {cp : Nat} {type : TokenType} {value : List UInt8}
    (single : singleCharToken cp = some (type, value)) :
    (∀ value line col endCol, (Token.mk type value line col endCol).weight = 0) ∧
      type.isName = false := by
  unfold singleCharToken at single
  repeat' split at single
  all_goals first
    | contradiction
    | obtain ⟨rfl, -⟩ := Prod.mk.inj (Option.some.inj single)
      exact ⟨fun _ _ _ _ => rfl, rfl⟩

theorem lexStep_lexes (lx : Lexer) : Lexes lx (lexStep lx) := by
  have skipped := skipCp_advances lx
  unfold lexStep
  dsimp only
  split
  · exact skipped.lexes
  · split
    · exact lexNewline_lexes lx _ _
    · split
      · exact (lexCommentLoop_advances _ lx).lexes
      · split
        · next single =>
            obtain ⟨free, nameless⟩ := singleCharToken_free single
            exact pushTokenValue_lexes_free skipped free nameless _ _ _ _
        · split
          · exact lexMinus_lexes lx _ _
          · split
            · next dot =>
                exact lexDirective_lexes (rest_ne_nil_of_peekCp (by rw [dot]; decide)) _ _
            · split
              · next quote =>
                  exact lexString_lexes (rest_ne_nil_of_peekCp (by rw [quote]; decide)) _ _
              · split
                · exact lexNumber_lexes lx _ _
                · split
                  · next starts => exact lexIdentifier_lexes starts _ _
                  · split
                    · exact (lexIllFormedUtf8_advances lx).lexes
                    · exact ((lexError_advances lx _).trans (skipCp_advances _)).lexes

theorem lexLoop_lexes (fuel : Nat) (lx : Lexer) : Lexes lx (lexLoop fuel lx) := by
  induction fuel generalizing lx with
  | zero => exact (Advances.refl lx).lexes
  | succ fuel inductionHypothesis =>
      rw [lexLoop]
      split
      · exact (Advances.refl lx).lexes
      · exact (lexStep_lexes lx).trans (inductionHypothesis _)

/-! ## The whole source -/

theorem lexerLex_lexes (src : SourceBuffer) :
    ∃ start after : Lexer, start.out = [] ∧ start.rest = src.data ∧ Lexes start after ∧
      after.out = (lexerLex src).tokens.data := by
  refine ⟨⟨src.data, 1, 1, [], .empty, src.name⟩, _, rfl, rfl, ?_, rfl⟩
  exact (lexLoop_lexes _ _).trans
    (pushTokenValue_lexes_free (.refl _) (fun _ _ _ _ => rfl) rfl _ _ _ _)

/-- Names in a token list of the lexer are names. -/
theorem lexerLex_wellFormed (src : SourceBuffer) :
    ∀ token ∈ (lexerLex src).tokens.data, token.WellFormed := by
  obtain ⟨start, after, empty, -, lexes, equal⟩ := lexerLex_lexes src
  rw [← equal]
  refine lexes.wellFormed ?_
  rw [empty]
  exact fun _ member => absurd member List.not_mem_nil

/-- The names and strings of a source weigh at most twice its length. -/
theorem lexerLex_weight (src : SourceBuffer) :
    tokensWeight (lexerLex src).tokens.data ≤ 2 * src.data.length := by
  obtain ⟨start, after, empty, source, lexes, equal⟩ := lexerLex_lexes src
  have paid := lexes.paid
  rw [empty, source, equal, tokensWeight_nil] at paid
  omega

end Nazm.Lexer
