import Nazm.Lexer.Gaps
import Nazm.Parser.Renaming

/-!
Renamed sources.

Owns when one source is another with its symbols renamed, and that it is spelled
by renamed pieces.

Does not own the parser.
-/

namespace Nazm.Lexer

open Nazm.Encoder Nazm.Parser Nazm.Unicode Nazm.Diagnostics

/-! ## Renaming -/

/-- An identifier without a reserved prefix that is no removed register name. -/
structure NewName (name : List UInt8) : Prop where
  ident : IdentText name
  unreserved : hasReservedRegisterPrefix name = false
  unremoved : lexerRegisterLegacyReplacement name = none

/-- Where the next piece stands. -/
def placeAfter (place : Place) : Piece → Place
  | .token lexeme => place.after lexeme.1
  | .newline => .line
  | _ => place

/-- A piece that is the definition of a symbol or refers to one. -/
def isSymbolAt (place : Place) : Piece → Bool
  | .token lexeme => lexeme.1 = .labelDef || (place = .operands && isSymbolType lexeme.1)
  | _ => false

/-- A source and the same with its symbols renamed, definitions and references
alike. -/
inductive SourceRenamed (rename : List UInt8 → List UInt8) :
    Place → List UInt8 → List UInt8 → Prop where
  | nil {place : Place} : SourceRenamed rename place [] []
  | kept {place : Place} {text rest rest' : List UInt8} {piece : Piece} :
      Spells .nazm text piece (firstCodepoint rest) → isSymbolAt place piece = false →
      SourceRenamed rename (placeAfter place piece) rest rest' →
      SourceRenamed rename place (text ++ rest) (text ++ rest')
  | definition {place : Place} {name rest rest' : List UInt8} :
      Spells .nazm (name ++ [0x3A]) (.token (.labelDef, name)) (firstCodepoint rest) →
      NewName (rename name) → SourceRenamed rename (place.after .labelDef) rest rest' →
      SourceRenamed rename place (name ++ [0x3A] ++ rest) (rename name ++ [0x3A] ++ rest')
  | reference {name rest rest' : List UInt8} {type : TokenType} :
      isSymbolType type = true → Spells .nazm name (.token (type, name)) (firstCodepoint rest) →
      NewName (rename name) → SourceRenamed rename .operands rest rest' →
      SourceRenamed rename .operands (name ++ rest) (rename name ++ rest')

section Names

variable {vocabulary : Vocabulary} {text name rest rest' : List UInt8} {piece : Piece}

/-! ## Words -/

theorem range_of_isIdentStart {cp : Nat} (starts : isIdentStart cp = true) :
    cp = 0x5F ∨ (0x0600 ≤ cp ∧ ¬ (0x0660 ≤ cp ∧ cp ≤ 0x0669)) := by
  rw [isIdentStart, Bool.or_eq_true, decide_eq_true_eq] at starts
  rcases starts with letter | underscore
  · right
    unfold isArabicLetter at letter
    split at letter
    · contradiction
    · split at letter
      · contradiction
      · simp only [Bool.or_eq_true, Bool.and_eq_true, decide_eq_true_eq] at letter
        omega
  · exact .inl underscore

/-- A name that starts after a number does not go on with it. -/
theorem noDigit_of_isIdentStart {cp : Nat} (starts : isIdentStart cp = true) :
    isNumberStart cp = false ∧ isDigitOf decimalDigitValue cp = false ∧
      isDigitOf hexDigitValue cp = false ∧ isDigitOf binaryDigitValue cp = false ∧
      cp ≠ 0x78 ∧ cp ≠ 0x58 ∧ cp ≠ 0x62 ∧ cp ≠ 0x42 := by
  rcases range_of_isIdentStart starts with rfl | ⟨large, noArabicDigit⟩
  · decide
  · have notAscii : isAsciiDigit cp = false := by
      rw [isAsciiDigit, decide_eq_false (show ¬ cp ≤ 0x39 by omega), Bool.and_false]
    have notArabic : nazmIsArabicDigit cp = false := by
      simp only [nazmIsArabicDigit, Bool.and_eq_false_iff, decide_eq_false_iff_not]
      omega
    refine ⟨by rw [isNumberStart, notAscii, notArabic]; rfl, ?_, ?_, ?_, by omega, by omega,
      by omega, by omega⟩
    · rw [isDigitOf, decimalDigitValue, notAscii, notArabic]
      rfl
    · rw [isDigitOf, hexDigitValue, notAscii, if_neg (by decide), if_neg (by omega),
        if_neg (by omega)]
      rfl
    · rw [isDigitOf, binaryDigitValue, if_neg (by omega)]
      rfl

/-- After a piece that ends where a name starts, any other name may start. -/
theorem Spells.name_follows {first second : Nat} (starts : isIdentStart first = true)
    (starts' : isIdentStart second = true) (spells : Spells vocabulary text piece (some first)) :
    Spells vocabulary text piece (some second) := by
  obtain ⟨noNumber, decimal, hexadecimal, binary, noMark⟩ := noDigit_of_isIdentStart starts'
  have continues := isIdentContinue_of_start starts
  have number : ∀ {cps : List Nat} {value : Nat}, NumberText cps value first →
      NumberText cps value second := by
    intro cps value isNumber
    cases isNumber with
    | decimal some_ all _ _ => exact .decimal some_ all decimal fun _ => noMark
    | hexadecimal isMark some_ all _ => exact .hexadecimal isMark some_ all hexadecimal
    | binary isMark some_ all _ => exact .binary isMark some_ all binary
  cases spells with
  | blank isBlank => exact .blank isBlank
  | newline => exact .newline
  | comment isText oneLine ends =>
      rcases ends with other | other
      · contradiction
      · rw [Option.some.inj other] at starts
        exact absurd starts (by decide)
  | single encodes isToken => exact .single encodes isToken
  | minus _ => exact .minus noNumber
  | number isText isNumber fits => exact .number isText (number isNumber) fits
  | negative isText isNumber fits => exact .negative isText (number isNumber) fits
  | directive _ _ stops =>
      rw [Option.getD_some, continuesDirective, continues] at stops
      contradiction
  | string isString => exact .string isString
  | labelDef isName notReserved => exact .labelDef isName notReserved
  | word _ _ stops _ =>
      rw [Option.getD_some, continues] at stops
      contradiction

theorem regTable_reserved : ∀ entry ∈ regTable,
    hasReservedRegisterPrefix (utf8 entry.1) = true := by
  decide +kernel

theorem no_register (unreserved : hasReservedRegisterPrefix name = false) :
    @lexerRegisterId .nazm name = none := by
  rw [lexerRegisterId, tableLookup, Option.map_eq_none_iff, List.find?_eq_none]
  intro entry member same
  rw [← of_decide_eq_true same, regTable_reserved entry member] at unreserved
  contradiction

/-- The type of a new name. -/
theorem NewName.wordType (isNew : NewName name) :
    ∃ type, Lexer.wordType .nazm name = some type ∧ isSymbolType type = true := by
  by_cases known : @keywordsLookup .nazm name = .invalid
  · refine ⟨.labelRef, ?_, rfl⟩
    have noRegister : @lexerRegisterId .nazm name = none := no_register isNew.unreserved
    rw [Lexer.wordType, known, noRegister, isNew.unreserved]
    rfl
  · exact ⟨.mnemonic, if_pos known, rfl⟩

theorem IdentText.firstCodepoint (isName : IdentText name) (rest : List UInt8) :
    ∃ first, Lexer.firstCodepoint (name ++ rest) = some first ∧ isIdentStart first = true := by
  obtain ⟨first, cps, isText, starts, -⟩ := isName
  obtain ⟨bytes, last, rfl, encodes, -⟩ := isText.split
  exact ⟨first, by rw [List.append_assoc]; exact firstCodepoint_append encodes _, starts⟩

theorem singleCharToken_notSymbol {cp : Nat} {type : TokenType} {value : List UInt8}
    (isToken : singleCharToken cp = some (type, value)) : isSymbolType type = false := by
  unfold singleCharToken at isToken
  repeat' split at isToken
  all_goals first
    | contradiction
    | (obtain ⟨rfl, -⟩ := Prod.mk.inj (Option.some.inj isToken); rfl)

/-- A reference is spelled by its name. -/
theorem Spells.isName {type : TokenType} {follow : Option Nat} (isSymbol : isSymbolType type = true)
    (spells : Spells vocabulary text (.token (type, name)) follow) :
    text = name ∧ IdentText name ∧ follow ≠ some 0x3A ∧ isIdentContinue (follow.getD 0) = false := by
  generalize same : Piece.token (type, name) = piece at spells
  cases spells with
  | blank _ => contradiction
  | newline => contradiction
  | comment _ _ _ => contradiction
  | word isName notColon stops _ =>
      obtain ⟨-, rfl⟩ := Prod.mk.inj (Piece.token.inj same)
      exact ⟨rfl, isName, notColon, stops⟩
  | single _ isToken =>
      obtain ⟨rfl, -⟩ := Prod.mk.inj (Piece.token.inj same)
      rw [singleCharToken_notSymbol isToken] at isSymbol
      contradiction
  | _ =>
      obtain ⟨rfl, -⟩ := Prod.mk.inj (Piece.token.inj same)
      contradiction

theorem wordType_ne_labelDef : Lexer.wordType vocabulary text ≠ some .labelDef := by
  unfold Lexer.wordType
  repeat' split
  all_goals exact fun other => by contradiction

/-- A label definition is spelled by its name and a colon. -/
theorem Spells.isDefinition {follow : Option Nat}
    (spells : Spells vocabulary text (.token (.labelDef, name)) follow) : IdentText name := by
  generalize same : Piece.token (TokenType.labelDef, name) = piece at spells
  cases spells with
  | blank _ => contradiction
  | newline => contradiction
  | comment _ _ _ => contradiction
  | labelDef isName _ =>
      obtain ⟨-, rfl⟩ := Prod.mk.inj (Piece.token.inj same)
      exact isName
  | single _ isToken =>
      obtain ⟨rfl, -⟩ := Prod.mk.inj (Piece.token.inj same)
      unfold singleCharToken at isToken
      repeat' split at isToken
      all_goals cases isToken
  | word _ _ _ isType =>
      obtain ⟨rfl, -⟩ := Prod.mk.inj (Piece.token.inj same)
      exact absurd isType wordType_ne_labelDef
  | _ =>
      have other := (Prod.mk.inj (Piece.token.inj same)).1
      contradiction

/-! ## Spelling -/

section Sources

variable {rename : List UInt8 → List UInt8} {place : Place} {text' : List UInt8}

/-- Two texts that go on alike: with the same codepoint, or each with a name. -/
def GoOnAlike (first second : Option Nat) : Prop :=
  second = first ∨ ∃ one two, first = some one ∧ second = some two ∧ isIdentStart one = true ∧
    isIdentStart two = true

theorem Spells.alike {first second : Option Nat} (alike : GoOnAlike first second)
    (spells : Spells vocabulary text piece first) : Spells vocabulary text piece second := by
  rcases alike with rfl | ⟨one, two, rfl, rfl, starts, starts'⟩
  · exact spells
  · exact spells.name_follows starts starts'

theorem SourceRenamed.alike (renamed : SourceRenamed rename place text text') :
    GoOnAlike (firstCodepoint text) (firstCodepoint text') := by
  have names : ∀ {name name' rest rest' : List UInt8}, IdentText name → IdentText name' →
      GoOnAlike (firstCodepoint (name ++ rest)) (firstCodepoint (name' ++ rest')) := by
    intro name name' rest rest' isName isName'
    obtain ⟨one, isOne, starts⟩ := isName.firstCodepoint rest
    obtain ⟨two, isTwo, starts'⟩ := isName'.firstCodepoint rest'
    exact .inr ⟨one, two, isOne, isTwo, starts, starts'⟩
  cases renamed with
  | nil => exact .inl rfl
  | kept spells _ _ =>
      left
      rw [spells.firstCodepoint, spells.firstCodepoint]
  | @definition _ name rest rest' spells isNew _ =>
      rw [List.append_assoc, List.append_assoc]
      exact names spells.isDefinition isNew.ident
  | reference isSymbol spells isNew _ => exact names (spells.isName isSymbol).2.1 isNew.ident

/-- A renamed source is spelled by renamed pieces. -/
theorem SourceRenamed.spelled (renamed : SourceRenamed rename place text text')
    (afterNewline : Bool) (fresh : afterNewline = true → place = .line) :
    ∃ pieces pieces', Spelled .nazm text pieces ∧ Spelled .nazm text' pieces' ∧
      LexemesRenamed rename place (lexemes afterNewline pieces ++ [(.eof, [])])
        (lexemes afterNewline pieces' ++ [(.eof, [])]) := by
  induction renamed generalizing afterNewline with
  | nil => exact ⟨[], [], .nil, .nil, .cons (.kept (by decide) fun _ => rfl) .nil⟩
  | @kept place text rest rest' piece spells notSymbol renamed inductionHypothesis =>
      have spells' := spells.alike renamed.alike
      cases piece with
      | blank =>
          obtain ⟨pieces, pieces', one, two, lexemes⟩ := inductionHypothesis afterNewline fresh
          exact ⟨_, _, .cons spells one, .cons spells' two, lexemes⟩
      | comment =>
          obtain ⟨pieces, pieces', one, two, lexemes⟩ := inductionHypothesis afterNewline fresh
          exact ⟨_, _, .cons spells one, .cons spells' two, lexemes⟩
      | newline =>
          obtain ⟨pieces, pieces', one, two, lexemes⟩ := inductionHypothesis true fun _ => rfl
          refine ⟨_, _, .cons spells one, .cons spells' two, ?_⟩
          cases afterNewline with
          | true =>
              rw [fresh rfl]
              exact lexemes
          | false =>
              have next : place.after .newline = .line := by cases place <;> rfl
              exact .cons (.kept (by decide) fun _ => rfl) (by rw [next]; exact lexemes)
      | token lexeme =>
          have isFresh : decide (lexeme.1 = .newline) = true → place.after lexeme.1 = .line := by
            intro isNewline
            rw [of_decide_eq_true isNewline]
            cases place <;> rfl
          obtain ⟨pieces, pieces', one, two, more⟩ := inductionHypothesis _ isFresh
          refine ⟨_, _, .cons spells one, .cons spells' two, ?_⟩
          rw [isSymbolAt, Bool.or_eq_false_iff, decide_eq_false_iff_not, Bool.and_eq_false_iff,
            decide_eq_false_iff_not] at notSymbol
          rw [lexemes, lexemes]
          exact .cons (.kept notSymbol.1 fun isPlace => notSymbol.2.resolve_left
            (not_not.mpr isPlace)) more
  | @definition place name rest rest' spells isNew renamed inductionHypothesis =>
      obtain ⟨pieces, pieces', one, two, more⟩ := inductionHypothesis false fun _ => by contradiction
      have spells' : Spells .nazm (rename name ++ [0x3A]) (.token (.labelDef, rename name))
          (firstCodepoint rest') := .labelDef isNew.ident isNew.unreserved
      exact ⟨_, _, .cons spells one, .cons spells' two, .cons .label more⟩
  | @reference name rest rest' type isSymbol spells isNew renamed inductionHypothesis =>
      obtain ⟨pieces, pieces', one, two, more⟩ := inductionHypothesis false fun _ => by contradiction
      obtain ⟨type', isType, isSymbol'⟩ := isNew.wordType
      obtain ⟨-, -, notColon, stops⟩ := spells.isName isSymbol
      have follows : firstCodepoint rest' = firstCodepoint rest := by
        rcases renamed.alike with same | ⟨first, _, isFirst, -, starts, -⟩
        · exact same
        · rw [isFirst, Option.getD_some, isIdentContinue_of_start starts] at stops
          contradiction
      have spells' : Spells .nazm (rename name) (.token (type', rename name))
          (firstCodepoint rest') := by
        rw [follows]
        exact .word isNew.ident notColon stops isType
      have notNewline : ∀ {type : TokenType}, isSymbolType type = true →
          decide (type = .newline) = false := by
        intro type isSymbol
        cases type <;> first | rfl | contradiction
      have next : Place.operands.after type = .operands := by
        cases type <;> first | rfl | contradiction
      refine ⟨_, _, .cons spells one, .cons spells' two, ?_⟩
      rw [lexemes, lexemes, notNewline isSymbol, notNewline isSymbol']
      exact .cons (.symbol isSymbol isSymbol' (.inr (.inl isNew.unremoved))) (by rw [next]; exact more)

end Sources

end Names

end Nazm.Lexer
