import Nazm.Lexer.Views

/-!
The grammar of the lexer.

Owns the spellings of blanks, comments and tokens, sources as lists of spelled
pieces, and the lexemes and lines that pieces give.

Does not own the lexer, nor what tokens mean.
-/

namespace Nazm.Lexer

open Nazm.Encoder Nazm.Unicode Nazm.Diagnostics

/-! ## Pieces -/

/-- A token without its position. -/
abbrev Lexeme := TokenType × List UInt8

def Token.lexeme (token : Token) : Lexeme := (token.type, token.value)

/-- What one turn of the main loop reads when it reports nothing. -/
inductive Piece where
  | blank
  | newline
  | comment
  | token (lexeme : Lexeme)
deriving DecidableEq

/-- The lexemes of some pieces; a run of newlines is one lexeme. -/
def lexemes : Bool → List Piece → List Lexeme
  | _, [] => []
  | afterNewline, .blank :: pieces => lexemes afterNewline pieces
  | afterNewline, .comment :: pieces => lexemes afterNewline pieces
  | true, .newline :: pieces => lexemes true pieces
  | false, .newline :: pieces => (.newline, [0x0A]) :: lexemes true pieces
  | _, .token lexeme :: pieces => lexeme :: lexemes (decide (lexeme.1 = .newline)) pieces

/-! ## Spellings -/

/-- The text of an identifier. -/
def IdentText (text : List UInt8) : Prop :=
  ∃ first cps, Codepoints text (first :: cps) ∧ isIdentStart first = true ∧
    ∀ cp ∈ cps, isIdentContinue cp = true

/-- `IdentText`, decided by decoding the text. -/
def isIdentText (text : List UInt8) : Bool :=
  match codepoints? text.length text with
  | some (first :: cps) => isIdentStart first && cps.all isIdentContinue
  | _ => false

theorem isIdentText_iff {text : List UInt8} : isIdentText text = true ↔ IdentText text := by
  constructor
  · intro decided
    unfold isIdentText at decided
    split at decided
    · next first cps decoded =>
        rw [Bool.and_eq_true, List.all_eq_true] at decided
        exact ⟨first, cps, codepoints?_sound decoded, decided.1, decided.2⟩
    · contradiction
  · rintro ⟨first, cps, isText, starts, continues⟩
    rw [isIdentText, codepoints?_complete isText (Nat.le_refl _)]
    exact Bool.and_eq_true _ _ |>.mpr ⟨starts, List.all_eq_true.mpr continues⟩

instance (text : List UInt8) : Decidable (IdentText text) :=
  decidable_of_iff _ isIdentText_iff

/-- The text of a string after its opening quote, and its value. -/
inductive StringText : List UInt8 → List UInt8 → Prop where
  | close : StringText [0x22] []
  | escape {esc out : UInt8} {text value : List UInt8} :
      esc.toNat < 0x80 → escapeByte esc.toNat = some out → StringText text value →
      StringText (0x5C :: esc :: text) (out :: value)
  | plain {bytes text value : List UInt8} {cp : Nat} :
      Encodes bytes cp → cp ≠ 0x22 → cp ≠ 0x0A → cp ≠ 0x0D → cp ≠ 0x5C →
      StringText text value → StringText (bytes ++ text) (bytes ++ value)

/-- What continues the name of a directive. -/
def continuesDirective (cp : Nat) : Bool := isIdentContinue cp || isArabicLetter cp

/-- The token type of a word that no colon follows. -/
def wordType (vocabulary : Vocabulary) (text : List UInt8) : Option TokenType :=
  if @keywordsLookup vocabulary text ≠ .invalid then some .mnemonic
  else if (@lexerRegisterId vocabulary text).isSome then some .register
  else if hasReservedRegisterPrefix text && !decide (text = instructionPointerName) &&
      (lexerRegisterLegacyReplacement text).isNone then none
  else some .labelRef

/-- The text of a piece, and the codepoint that may follow it. -/
inductive Spells (vocabulary : Vocabulary) : List UInt8 → Piece → Option Nat → Prop where
  | blank {byte : UInt8} {next : Option Nat} :
      byte = 0x20 ∨ byte = 0x09 ∨ byte = 0x0D → Spells vocabulary [byte] .blank next
  | newline {next : Option Nat} : Spells vocabulary [0x0A] .newline next
  | comment {text : List UInt8} {cps : List Nat} {next : Option Nat} :
      Codepoints text cps → 0x0A ∉ cps → next = none ∨ next = some 0x0A →
      Spells vocabulary (0x3B :: text) .comment next
  | single {text value : List UInt8} {cp : Nat} {type : TokenType} {next : Option Nat} :
      Encodes text cp → singleCharToken cp = some (type, value) →
      Spells vocabulary text (.token (type, value)) next
  | minus {next : Option Nat} :
      isNumberStart (next.getD 0) = false → Spells vocabulary [0x2D] (.token (.minus, [0x2D])) next
  | number {text : List UInt8} {cps : List Nat} {value : Nat} {next : Option Nat} :
      Codepoints text cps → NumberText cps value (next.getD 0) → value < 2 ^ 64 →
      Spells vocabulary text (.token (.immediate, decimalInt (asSignedBits value))) next
  | negative {text : List UInt8} {cps : List Nat} {value : Nat} {next : Option Nat} :
      Codepoints text cps → NumberText cps value (next.getD 0) → value ≤ 2 ^ 63 →
      Spells vocabulary (0x2D :: text)
        (.token (.immediate, decimalInt (asSignedBits ((2 ^ 64 - value) % 2 ^ 64)))) next
  | directive {text : List UInt8} {cps : List Nat} {next : Option Nat} :
      Codepoints text cps → (∀ cp ∈ cps, continuesDirective cp = true) →
      continuesDirective (next.getD 0) = false →
      Spells vocabulary (0x2E :: text) (.token (.directive, 0x2E :: text)) next
  | string {text value : List UInt8} {next : Option Nat} :
      StringText text value → Spells vocabulary (0x22 :: text) (.token (.string, value)) next
  | labelDef {text : List UInt8} {next : Option Nat} :
      IdentText text → hasReservedRegisterPrefix text = false →
      Spells vocabulary (text ++ [0x3A]) (.token (.labelDef, text)) next
  | word {text : List UInt8} {type : TokenType} {next : Option Nat} :
      IdentText text → next ≠ some 0x3A → isIdentContinue (next.getD 0) = false →
      wordType vocabulary text = some type → Spells vocabulary text (.token (type, text)) next

/-- The first codepoint of a text, if there is one. -/
def firstCodepoint (text : List UInt8) : Option Nat :=
  if text.isEmpty then none else some (utf8PeekCodepoint text)

/-- A source and the pieces that spell it. -/
inductive Spelled (vocabulary : Vocabulary) : List UInt8 → List Piece → Prop where
  | nil : Spelled vocabulary [] []
  | cons {text rest : List UInt8} {piece : Piece} {pieces : List Piece} :
      Spells vocabulary text piece (firstCodepoint rest) → Spelled vocabulary rest pieces →
      Spelled vocabulary (text ++ rest) (piece :: pieces)

/-! ## Codepoints of spellings -/

section Codepoints

variable {vocabulary : Vocabulary} {text rest : List UInt8} {cps : List Nat}

theorem firstCodepoint_of_codepoints (isText : Codepoints text cps) :
    firstCodepoint text = cps.head? := by
  cases cps with
  | nil => rw [Codepoints.eq_nil isText]; rfl
  | cons cp cps =>
      obtain ⟨bytes, rest, rfl, encodes, -⟩ := Codepoints.split isText
      have unread : bytes ++ rest ≠ [] := fun empty =>
        encodes.nonempty (List.append_eq_nil_iff.mp empty).1
      rw [firstCodepoint, encodes.peek, if_neg (by simpa using unread)]
      rfl

theorem nextCp_eq (cps : List Nat) : nextCp cps = cps.head?.getD 0 := by
  cases cps <;> rfl

/-- Texts of the same codepoints in one source are the same. -/
theorem codepoints_unique {first second back last : List UInt8} (one : Codepoints first cps)
    (two : Codepoints second cps) (same : first ++ back = second ++ last) :
    first = second ∧ back = last := by
  have equal : back = last := by
    induction one generalizing second with
    | nil =>
        rw [Codepoints.eq_nil two] at same
        exact same
    | @cons bytes text cp cps encodes _ inductionHypothesis =>
        obtain ⟨others, rest, rfl, encodesToo, isRest⟩ := Codepoints.split two
        rw [List.append_assoc, List.append_assoc] at same
        have decoded := encodes.decodes (text ++ back)
        rw [same, encodesToo.decodes] at decoded
        exact inductionHypothesis isRest (Prod.mk.inj decoded).2.symm
  subst equal
  exact ⟨List.append_cancel_right same, rfl⟩

theorem codepoints_ascii (byte : UInt8) (small : byte.toNat < 0x80) :
    Codepoints [byte] [byte.toNat] :=
  .single (.ascii small)

theorem StringText.codepoints {value : List UInt8} (isString : StringText text value) :
    ∃ cps, Codepoints text cps := by
  induction isString with
  | close => exact ⟨_, codepoints_ascii 0x22 (by decide)⟩
  | escape small _ _ inductionHypothesis =>
      obtain ⟨cps, isText⟩ := inductionHypothesis
      exact ⟨_, .cons (.byte 0x5C (by decide)) (.cons (.ascii small) isText)⟩
  | plain encodes _ _ _ _ _ inductionHypothesis =>
      obtain ⟨cps, isText⟩ := inductionHypothesis
      exact ⟨_, .cons encodes isText⟩

theorem Spells.codepoints {piece : Piece} {next : Option Nat}
    (spells : Spells vocabulary text piece next) : ∃ cp cps, Codepoints text (cp :: cps) := by
  have ascii : ∀ {byte : UInt8} {text : List UInt8} {cps : List Nat}, byte.toNat < 0x80 →
      Codepoints text cps → ∃ cp cps, Codepoints (byte :: text) (cp :: cps) :=
    fun small isText => ⟨_, _, .cons (.ascii small) isText⟩
  cases spells with
  | blank isBlank => rcases isBlank with rfl | rfl | rfl <;> exact ascii (by decide) .nil
  | newline => exact ascii (by decide) .nil
  | comment isText _ _ => exact ascii (by decide) isText
  | single encodes _ => exact ⟨_, _, .single encodes⟩
  | minus _ => exact ascii (by decide) .nil
  | number isText isNumber _ =>
      cases isNumber with
      | decimal some_ _ _ _ =>
          obtain ⟨cp, cps, rfl⟩ := List.exists_cons_of_ne_nil some_
          exact ⟨_, _, isText⟩
      | hexadecimal _ _ _ _ => exact ⟨_, _, isText⟩
      | binary _ _ _ _ => exact ⟨_, _, isText⟩
  | negative isText _ _ => exact ascii (by decide) isText
  | directive isText _ _ => exact ascii (by decide) isText
  | string isString =>
      obtain ⟨cps, isText⟩ := isString.codepoints
      exact ascii (by decide) isText
  | labelDef isName _ =>
      obtain ⟨first, cps, isText, -, -⟩ := isName
      exact ⟨_, _, Codepoints.append isText (codepoints_ascii 0x3A (by decide))⟩
  | word isName _ _ _ =>
      obtain ⟨first, cps, isText, -, -⟩ := isName
      exact ⟨_, _, isText⟩

theorem Spells.nonempty {piece : Piece} {next : Option Nat}
    (spells : Spells vocabulary text piece next) : text ≠ [] := by
  obtain ⟨cp, cps, isText⟩ := spells.codepoints
  obtain ⟨bytes, rest, rfl, encodes, -⟩ := Codepoints.split isText
  exact fun empty => encodes.nonempty (List.append_eq_nil_iff.mp empty).1

theorem Spelled.codepoints {pieces : List Piece} (spelled : Spelled vocabulary text pieces) :
    ∃ cps, Codepoints text cps := by
  induction spelled with
  | nil => exact ⟨[], .nil⟩
  | cons spells _ inductionHypothesis =>
      obtain ⟨cp, front, isFront⟩ := spells.codepoints
      obtain ⟨back, isBack⟩ := inductionHypothesis
      exact ⟨_, Codepoints.append isFront isBack⟩

end Codepoints

end Nazm.Lexer
