import Nazm.Lexer.Grammar
import Nazm.Parser.GrammarAccepts
import Nazm.Parser.Names

/-!
Renamed tokens.

Owns when one list of lexemes is another with its symbols renamed, and that the
parser reads the renamed statements from renamed tokens, also over other word
tables that keep the words of the first.

Does not own the spelling of tokens.
-/

namespace Nazm.Parser

open Nazm.Encoder Nazm.Lexer Nazm.Unicode Nazm.Diagnostics

/-! ## Lexemes -/

/-- Where a lexeme stands in its line. -/
inductive Place where
  | line
  | statement
  | operands
  | pointer
deriving DecidableEq

/-- Where the next lexeme stands. -/
def Place.after : Place → TokenType → Place
  | _, .newline => .line
  | _, .eof => .line
  | .line, .labelDef => .statement
  | _, .lbracket => .pointer
  | _, _ => .operands

/-- The types of a symbol reference. -/
def isSymbolType (type : TokenType) : Bool := type = .labelRef || type = .mnemonic

/-- The types that a renaming keeps. -/
def keptType (place : Place) (type : TokenType) : Bool :=
  type ≠ .labelDef && type ≠ .labelRef && (place ≠ .operands || type ≠ .mnemonic)

/-- A lexeme and the same with its symbol renamed. A reference may change its
type, but not into a removed register name where it was none; what becomes of a
reference where the parser takes none does not matter. -/
inductive LexemeRenamed (rename : List UInt8 → List UInt8) : Place → Lexeme → Lexeme → Prop where
  | label {place : Place} {name : List UInt8} :
      LexemeRenamed rename place (.labelDef, name) (.labelDef, rename name)
  | symbol {name : List UInt8} {type type' : TokenType} :
      isSymbolType type = true → isSymbolType type' = true →
      type' = .mnemonic ∨ lexerRegisterLegacyReplacement (rename name) = none ∨
        (type = .labelRef ∧ lexerRegisterLegacyReplacement name ≠ none) →
      LexemeRenamed rename .operands (type, name) (type', rename name)
  | kept {place : Place} {lexeme : Lexeme} :
      lexeme.1 ≠ .labelDef → (place = .operands → isSymbolType lexeme.1 = false) →
      LexemeRenamed rename place lexeme lexeme
  | stray {place : Place} {name : List UInt8} {lexeme' : Lexeme} :
      place ≠ .operands → (place = .pointer → name ≠ instructionPointerName) →
      LexemeRenamed rename place (.labelRef, name) lexeme'

inductive LexemesRenamed (rename : List UInt8 → List UInt8) :
    Place → List Lexeme → List Lexeme → Prop where
  | nil {place : Place} : LexemesRenamed rename place [] []
  | cons {place : Place} {lexeme lexeme' : Lexeme} {rest rest' : List Lexeme} :
      LexemeRenamed rename place lexeme lexeme' →
      LexemesRenamed rename (place.after lexeme.1) rest rest' →
      LexemesRenamed rename place (lexeme :: rest) (lexeme' :: rest')

def TokensRenamed (rename : List UInt8 → List UInt8) (place : Place) (tokens tokens' : List Token) :
    Prop :=
  LexemesRenamed rename place (tokens.map Token.lexeme) (tokens'.map Token.lexeme)

/-- The second tables know every word of the first, as the same. -/
structure Keeps (old new : Vocabulary) : Prop where
  keyword : ∀ text, @keywordsLookup old text ≠ .invalid →
    @keywordsLookup new text = @keywordsLookup old text
  register : ∀ name reg, @lexerRegisterId old name = some reg → @lexerRegisterId new name = some reg

theorem Keeps.refl (vocabulary : Vocabulary) : Keeps vocabulary vocabulary :=
  ⟨fun _ _ => rfl, fun _ _ => id⟩

/-- A lexeme that stays is renamed by the renaming that changes no name. -/
theorem LexemeRenamed.same (place : Place) (lexeme : Lexeme) :
    LexemeRenamed id place lexeme lexeme := by
  obtain ⟨type, value⟩ := lexeme
  by_cases isLabel : type = .labelDef
  · subst isLabel
    exact @LexemeRenamed.label id place value
  · by_cases isSymbol : place = .operands ∧ isSymbolType type = true
    · obtain ⟨rfl, isSymbol⟩ := isSymbol
      refine @LexemeRenamed.symbol id value type type isSymbol isSymbol ?_
      by_cases removed : lexerRegisterLegacyReplacement value = none
      · exact .inr (.inl removed)
      · simp only [isSymbolType, Bool.or_eq_true, decide_eq_true_eq] at isSymbol
        exact isSymbol.elim (fun isRef => .inr (.inr ⟨isRef, removed⟩)) .inl
    · exact .kept isLabel fun isPlace => Bool.not_eq_true _ |>.mp fun other =>
        isSymbol ⟨isPlace, other⟩

theorem LexemesRenamed.same (place : Place) (lexemes : List Lexeme) :
    LexemesRenamed id place lexemes lexemes := by
  induction lexemes generalizing place with
  | nil => exact .nil
  | cons lexeme rest inductionHypothesis => exact .cons (.same place lexeme) (inductionHypothesis _)

section Renaming

variable {rename : List UInt8 → List UInt8} {old new : Vocabulary} {place : Place}
  {t t' : Token} {text rest tokens tokens' : List Token}

theorem TokensRenamed.split (renamed : TokensRenamed rename place (t :: rest) tokens') :
    ∃ t' rest', tokens' = t' :: rest' ∧ LexemeRenamed rename place t.lexeme t'.lexeme ∧
      TokensRenamed rename (place.after t.type) rest rest' := by
  cases tokens' with
  | nil => cases renamed
  | cons t' rest' =>
      cases renamed with
      | cons one more => exact ⟨t', rest', rfl, one, more⟩

theorem lexeme_kept (renamed : LexemeRenamed rename place t.lexeme t'.lexeme)
    (kept : keptType place t.type = true) : t'.type = t.type ∧ t'.value = t.value := by
  obtain ⟨type, value, _, _, _⟩ := t
  obtain ⟨type', value', _, _, _⟩ := t'
  dsimp only [Token.lexeme] at renamed kept ⊢
  cases renamed with
  | label => contradiction
  | symbol isSymbol _ _ =>
      cases type with
      | labelRef => contradiction
      | mnemonic => contradiction
      | _ => contradiction
  | kept _ _ => exact ⟨rfl, rfl⟩
  | stray _ _ =>
      rw [keptType] at kept
      contradiction

/-- The word of the instruction pointer is kept after a bracket. -/
theorem pointer_kept (renamed : LexemeRenamed rename .pointer t.lexeme t'.lexeme)
    (isRef : t.type = .labelRef) (isPointer : t.value = instructionPointerName) :
    t'.type = .labelRef ∧ t'.value = instructionPointerName := by
  obtain ⟨type, value, _, _, _⟩ := t
  obtain ⟨type', value', _, _, _⟩ := t'
  dsimp only [Token.lexeme] at renamed isRef isPointer ⊢
  cases renamed with
  | label => contradiction
  | kept _ _ => exact ⟨isRef, isPointer⟩
  | stray _ notPointer => exact absurd isPointer (notPointer rfl)

/-- A token of a type that is kept. -/
theorem TokensRenamed.split_kept {type : TokenType}
    (renamed : TokensRenamed rename place (t :: rest) tokens') (isType : t.type = type)
    (kept : keptType place type = true) :
    ∃ t' rest', tokens' = t' :: rest' ∧ t'.type = type ∧ t'.value = t.value ∧
      TokensRenamed rename (place.after type) rest rest' := by
  obtain ⟨t', rest', rfl, one, more⟩ := renamed.split
  rw [← isType] at kept
  obtain ⟨sameType, sameValue⟩ := lexeme_kept one kept
  rw [isType] at more sameType
  exact ⟨t', rest', rfl, sameType, sameValue, more⟩

/-! ## Operands -/

theorem kind_renamed_id (kind : OperandKind) : kind.renamed id = kind := by cases kind <;> rfl

theorem spanned_renamed (text text' : List Token) (kind : OperandKind) :
    (spanned text' (kind.renamed rename)).renamed id = (spanned text kind).renamed rename := by
  rw [Operand.renamed, Operand.renamed, spanned, spanned, kind_renamed_id]

/-- A token that is an operand by itself becomes the renamed operand. -/
theorem wordOperand_renamed {kind : OperandKind} (keeps : Keeps old new)
    (renamed : LexemeRenamed rename .operands t.lexeme t'.lexeme)
    (isWord : wordOperand? old t = some kind) :
    wordOperand? new t' = some (kind.renamed rename) := by
  obtain ⟨type, value, _, _, _⟩ := t
  obtain ⟨type', value', _, _, _⟩ := t'
  dsimp only [Token.lexeme] at renamed
  cases renamed with
  | label => contradiction
  | symbol isSymbol isSymbol' fits =>
      have isLabel : kind = .label value ∧
          (type = .labelRef → lexerRegisterLegacyReplacement value = none) := by
        unfold wordOperand? at isWord
        cases type with
        | labelRef =>
            obtain ⟨known, isKind⟩ := Option.ite_some_none_eq_some.mp isWord
            exact ⟨isKind.symm, fun _ => known⟩
        | mnemonic => exact ⟨(Option.some.inj isWord).symm, fun other => by contradiction⟩
        | _ => contradiction
      rw [isLabel.1]
      cases type' with
      | mnemonic => rfl
      | labelRef =>
          rcases fits with other | unremoved | ⟨isRef, removed⟩
          · contradiction
          · exact if_pos unremoved
          · exact absurd (isLabel.2 isRef) removed
      | _ => contradiction
  | kept _ notSymbol =>
      unfold wordOperand? at isWord ⊢
      cases type with
      | register =>
          obtain ⟨reg, isReg, rfl⟩ := Option.map_eq_some_iff.mp isWord
          dsimp only
          rw [keeps.register _ _ isReg]
          rfl
      | immediate =>
          rw [← Option.some.inj isWord]
          rfl
      | string =>
          rw [← Option.some.inj isWord]
          rfl
      | labelRef => exact absurd (notSymbol rfl) (show ¬ isSymbolType .labelRef = false by decide)
      | mnemonic => exact absurd (notSymbol rfl) (show ¬ isSymbolType .mnemonic = false by decide)
      | _ => contradiction
  | stray notOperands _ => exact absurd rfl notOperands

theorem IsBase.kept {base : RegId} (keeps : Keeps old new) (isBase : IsBase old t base)
    (type : t'.type = .register) (value : t'.value = t.value) : IsBase new t' base :=
  ⟨type, by rw [value]; exact keeps.register _ _ isBase.register, isBase.wide⟩

/-- A reference among operands becomes a reference by the new name. -/
theorem symbol_renamed (isName : t.type = .labelRef ∨ t.type = .mnemonic)
    (renamed : LexemeRenamed rename .operands t.lexeme t'.lexeme) :
    (t'.type = .labelRef ∨ t'.type = .mnemonic) ∧ t'.value = rename t.value := by
  obtain ⟨type, value, _, _, _⟩ := t
  obtain ⟨type', value', _, _, _⟩ := t'
  dsimp only [Token.lexeme] at renamed isName ⊢
  cases renamed with
  | label => rcases isName with other | other <;> contradiction
  | symbol _ isSymbol' _ =>
      refine ⟨?_, rfl⟩
      simpa [isSymbolType] using isSymbol'
  | kept _ notSymbol =>
      have isSymbol : isSymbolType type = true := by simpa [isSymbolType] using isName
      rw [notSymbol rfl] at isSymbol
      contradiction
  | stray notOperands _ => exact absurd rfl notOperands

theorem MemoryText.renamed {kind : OperandKind} (keeps : Keeps old new)
    (isText : MemoryText old text kind)
    (renamed : TokensRenamed rename .pointer (text ++ rest) tokens') :
    ∃ text' rest', tokens' = text' ++ rest' ∧ MemoryText new text' (kind.renamed rename) ∧
      TokensRenamed rename .operands rest rest' := by
  cases isText with
  | base isBase isClose =>
      obtain ⟨r', _, rfl, type, value, renamed⟩ :=
        renamed.split_kept isBase.type rfl
      obtain ⟨close', rest', rfl, isClose', -, renamed⟩ :=
        renamed.split_kept isClose rfl
      exact ⟨[r', close'], rest', rfl, .base (isBase.kept keeps type value) isClose', renamed⟩
  | @signed r sign number close base isBase isSign isNumber fits isClose =>
      obtain ⟨r', _, rfl, type, value, renamed⟩ :=
        renamed.split_kept isBase.type rfl
      have keptSign : keptType .operands sign.type = true := by
        rcases isSign with type | type <;> rw [type] <;> rfl
      obtain ⟨sign', _, rfl, isSign', -, renamed⟩ := renamed.split_kept rfl keptSign
      have next : (Place.operands.after sign.type) = .operands := by
        rcases isSign with type | type <;> rw [type] <;> rfl
      rw [show (Place.pointer.after .register) = .operands from rfl, next] at renamed
      obtain ⟨number', _, rfl, isNumber', sameNumber, renamed⟩ :=
        renamed.split_kept isNumber rfl
      obtain ⟨close', rest', rfl, isClose', -, renamed⟩ :=
        renamed.split_kept isClose rfl
      rw [← isSign', ← sameNumber] at fits ⊢
      rw [← isSign'] at isSign
      exact ⟨[r', sign', number', close'], rest', rfl,
        .signed (isBase.kept keeps type value) isSign isNumber' fits isClose', renamed⟩
  | unsigned isBase isNumber fits isClose =>
      obtain ⟨r', _, rfl, type, value, renamed⟩ :=
        renamed.split_kept isBase.type rfl
      obtain ⟨number', _, rfl, isNumber', sameNumber, renamed⟩ :=
        renamed.split_kept isNumber rfl
      obtain ⟨close', rest', rfl, isClose', -, renamed⟩ :=
        renamed.split_kept isClose rfl
      rw [← sameNumber] at fits ⊢
      exact ⟨[r', number', close'], rest', rfl,
        .unsigned (isBase.kept keeps type value) isNumber' fits isClose', renamed⟩
  | @rip pointer plus name close isRef isPointer isPlus isName isClose =>
      obtain ⟨pointer', _, rfl, one, renamed⟩ := renamed.split
      obtain ⟨isRef', isPointer'⟩ := pointer_kept one isRef isPointer
      rw [isRef] at renamed
      obtain ⟨plus', _, rfl, isPlus', -, renamed⟩ :=
        renamed.split_kept isPlus rfl
      obtain ⟨name', _, rfl, one, renamed⟩ := renamed.split
      have next : (Place.operands.after name.type) = .operands := by
        rcases isName with type | type <;> rw [type] <;> rfl
      obtain ⟨isName', sameName⟩ := symbol_renamed isName one
      rw [show ((Place.pointer.after .labelRef).after .plus) = .operands from rfl, next] at renamed
      obtain ⟨close', rest', rfl, isClose', -, renamed⟩ :=
        renamed.split_kept isClose rfl
      rw [OperandKind.renamed, ← sameName]
      exact ⟨[pointer', plus', name', close'], rest', rfl,
        .rip isRef' isPointer' isPlus' isName' isClose', renamed⟩

theorem OperandText.renamed {kind : OperandKind} (keeps : Keeps old new)
    (isText : OperandText old text kind)
    (renamed : TokensRenamed rename .operands (text ++ rest) tokens') :
    ∃ text' rest', tokens' = text' ++ rest' ∧ OperandText new text' (kind.renamed rename) ∧
      TokensRenamed rename .operands rest rest' := by
  cases isText with
  | @word t _ isWord =>
      obtain ⟨t', rest', rfl, one, more⟩ := renamed.split
      have next : Place.operands.after t.type = .operands := by
        unfold wordOperand? at isWord
        split at isWord
        all_goals first
          | contradiction
          | next type => rw [type]; rfl
      rw [next] at more
      exact ⟨[t'], rest', rfl, .word (wordOperand_renamed keeps one isWord), more⟩
  | memory isOpen isMemory =>
      obtain ⟨open', _, rfl, isOpen', -, renamed⟩ :=
        renamed.split_kept isOpen rfl
      obtain ⟨text', rest', rfl, isMemory', renamed⟩ := isMemory.renamed keeps renamed
      exact ⟨open' :: text', rest', rfl, .memory isOpen' isMemory', renamed⟩

/-! ## Operand lists -/

/-- The second operands are the first renamed, up to spans. -/
def OperandsRenamed (rename : List UInt8 → List UInt8) (ops ops' : List Operand) : Prop :=
  ops'.map (Operand.renamed id) = ops.map (Operand.renamed rename)

theorem OperandsRenamed.cons {ops ops' : List Operand} (kind : OperandKind)
    (renamed : OperandsRenamed rename ops ops') (text text' : List Token) :
    OperandsRenamed rename (spanned text kind :: ops)
      (spanned text' (kind.renamed rename) :: ops') := by
  rw [OperandsRenamed, List.map_cons, List.map_cons, renamed, spanned_renamed text text']

theorem OperandsRenamed.length {ops ops' : List Operand}
    (renamed : OperandsRenamed rename ops ops') : ops'.length = ops.length := by
  have same := congrArg List.length renamed
  rwa [List.length_map, List.length_map] at same

theorem FurtherText.renamed {ops : List Operand} (keeps : Keeps old new)
    (isText : FurtherText old text ops)
    (renamed : TokensRenamed rename .operands (text ++ rest) tokens') :
    ∃ text' rest' ops', tokens' = text' ++ rest' ∧ FurtherText new text' ops' ∧
      OperandsRenamed rename ops ops' ∧ TokensRenamed rename .operands rest rest' := by
  induction isText generalizing tokens' with
  | nil => exact ⟨[], tokens', [], rfl, .nil, rfl, renamed⟩
  | cons isComma isOperand _ inductionHypothesis =>
      rw [List.cons_append, List.append_assoc] at renamed
      obtain ⟨comma', _, rfl, isComma', -, renamed⟩ :=
        renamed.split_kept isComma rfl
      obtain ⟨front, _, rfl, isOperand', renamed⟩ := isOperand.renamed keeps renamed
      obtain ⟨text', rest', ops', rfl, isText', opsRenamed, renamed⟩ := inductionHypothesis renamed
      exact ⟨comma' :: (front ++ text'), rest', _, by simp, .cons isComma' isOperand' isText',
        opsRenamed.cons _ _ _, renamed⟩

theorem SeparatedText.renamed {ops : List Operand} (keeps : Keeps old new)
    (isText : SeparatedText old text ops)
    (renamed : TokensRenamed rename .operands (text ++ rest) tokens') :
    ∃ text' rest' ops', tokens' = text' ++ rest' ∧ SeparatedText new text' ops' ∧
      OperandsRenamed rename ops ops' ∧ TokensRenamed rename .operands rest rest' := by
  cases isText with
  | nil => exact ⟨[], tokens', [], rfl, .nil, rfl, renamed⟩
  | cons isOperand isFurther =>
      rw [List.append_assoc] at renamed
      obtain ⟨front, _, rfl, isOperand', renamed⟩ := isOperand.renamed keeps renamed
      obtain ⟨text', rest', ops', rfl, isText', opsRenamed, renamed⟩ :=
        isFurther.renamed keeps renamed
      exact ⟨front ++ text', rest', _, by simp, .cons isOperand' isText', opsRenamed.cons _ _ _,
        renamed⟩

theorem LooseText.renamed {ops : List Operand} (keeps : Keeps old new)
    (isText : LooseText old text ops)
    (renamed : TokensRenamed rename .operands (text ++ rest) tokens') :
    ∃ text' rest' ops', tokens' = text' ++ rest' ∧ LooseText new text' ops' ∧
      OperandsRenamed rename ops ops' ∧ TokensRenamed rename .operands rest rest' := by
  induction isText generalizing tokens' with
  | nil => exact ⟨[], tokens', [], rfl, .nil, rfl, renamed⟩
  | comma isComma _ inductionHypothesis =>
      obtain ⟨comma', _, rfl, isComma', -, renamed⟩ :=
        renamed.split_kept isComma rfl
      obtain ⟨text', rest', ops', rfl, isText', opsRenamed, renamed⟩ := inductionHypothesis renamed
      exact ⟨comma' :: text', rest', ops', rfl, .comma isComma' isText', opsRenamed, renamed⟩
  | cons isOperand _ inductionHypothesis =>
      rw [List.append_assoc] at renamed
      obtain ⟨front, _, rfl, isOperand', renamed⟩ := isOperand.renamed keeps renamed
      obtain ⟨text', rest', ops', rfl, isText', opsRenamed, renamed⟩ := inductionHypothesis renamed
      exact ⟨front ++ text', rest', _, by simp, .cons isOperand' isText', opsRenamed.cons _ _ _,
        renamed⟩

/-! ## Lines -/

/-- Where a statement may start. -/
def Place.starts (place : Place) : Prop := place = .line ∨ place = .statement

theorem Place.starts.kept (starts : place.starts) {type : TokenType}
    (isHead : type = .directive ∨ type = .mnemonic) : keptType place type = true := by
  rcases starts with rfl | rfl <;> rcases isHead with rfl | rfl <;> rfl

theorem StatementText.renamed {instr stmt : Instruction} (keeps : Keeps old new)
    (starts : place.starts) (isText : StatementText old instr text stmt)
    (renamed : TokensRenamed rename place (text ++ rest) tokens') :
    ∃ t' text' rest', tokens' = t' :: text' ++ rest' ∧
      (∀ instr', Renamed rename instr instr' →
        ∃ stmt', StatementText new instr' (t' :: text') stmt' ∧ Renamed rename stmt stmt') ∧
      TokensRenamed rename .operands rest rest' := by
  have next : ∀ {type : TokenType}, type = .directive ∨ type = .mnemonic →
      place.after type = .operands := by
    rintro type (rfl | rfl) <;> rcases starts with rfl | rfl <;> rfl
  cases isText with
  | @directive t text ops isDirective unremoved isOperands few =>
      obtain ⟨t', _, rfl, isDirective', sameValue, renamed⟩ :=
        renamed.split_kept isDirective (starts.kept (.inl rfl))
      rw [next (.inl rfl)] at renamed
      obtain ⟨text', rest', ops', rfl, isOperands', opsRenamed, renamed⟩ :=
        isOperands.renamed keeps renamed
      refine ⟨t', text', rest', rfl, fun instr' instrRenamed => ⟨_, .directive isDirective'
        (by rw [sameValue]; exact unremoved) isOperands' (by rw [opsRenamed.length]; exact few),
        ?_⟩, renamed⟩
      rw [Renamed, Instruction.renamed, Instruction.renamed, Instruction.mk.injEq] at instrRenamed
      rw [Renamed, Instruction.renamed, Instruction.renamed, Instruction.mk.injEq]
      exact ⟨instrRenamed.1, opsRenamed, instrRenamed.2.2.1, by rw [sameValue], by rw [sameValue],
        rfl, rfl, rfl, rfl, rfl, rfl⟩
  | @instruction t text ops isMnemonic known isOperands few admits =>
      obtain ⟨t', _, rfl, isMnemonic', sameValue, renamed⟩ :=
        renamed.split_kept isMnemonic (starts.kept (.inr rfl))
      rw [next (.inr rfl)] at renamed
      obtain ⟨text', rest', ops', rfl, isOperands', opsRenamed, renamed⟩ :=
        isOperands.renamed keeps renamed
      have sameOpcode : @keywordsLookup new t'.value = @keywordsLookup old t.value := by
        rw [sameValue]
        exact keeps.keyword _ known
      refine ⟨t', text', rest', rfl, fun instr' instrRenamed => ⟨_, .instruction isMnemonic'
        (by rw [sameOpcode]; exact known) isOperands' (by rw [opsRenamed.length]; exact few)
        (by rw [sameOpcode, arityAdmits, opsRenamed.length]; exact admits), ?_⟩, renamed⟩
      rw [Renamed, Instruction.renamed, Instruction.renamed, Instruction.mk.injEq] at instrRenamed
      rw [Renamed, Instruction.renamed, Instruction.renamed, Instruction.mk.injEq]
      exact ⟨sameOpcode, opsRenamed, instrRenamed.2.2⟩

theorem emptyInstruction_renamed (t t' : Token) :
    Renamed rename (emptyInstruction t) (emptyInstruction t') := rfl

theorem labelled_renamed (renamed : LexemeRenamed rename place t.lexeme t'.lexeme)
    (isLabel : t.type = .labelDef) :
    t'.type = .labelDef ∧ Renamed rename (labelled t) (labelled t') := by
  obtain ⟨type, value, _, _, _⟩ := t
  obtain ⟨type', value', _, _, _⟩ := t'
  dsimp only [Token.lexeme] at renamed isLabel ⊢
  cases renamed with
  | label => exact ⟨rfl, rfl⟩
  | symbol isSymbol _ _ =>
      rw [isLabel] at isSymbol
      contradiction
  | kept notLabel _ => exact absurd isLabel notLabel
  | stray _ _ => contradiction

theorem LineText.renamed {stmt : Instruction} (keeps : Keeps old new)
    (isText : LineText old text stmt)
    (renamed : TokensRenamed rename .line (text ++ rest) tokens') :
    ∃ text' rest' stmt' place, tokens' = text' ++ rest' ∧ LineText new text' stmt' ∧
      Renamed rename stmt stmt' ∧ TokensRenamed rename place rest rest' := by
  cases isText with
  | @statement t text _ isStatement =>
      obtain ⟨t', text', rest', rfl, read, renamed⟩ :=
        isStatement.renamed keeps (.inl rfl) renamed
      obtain ⟨stmt', isStatement', stmtRenamed⟩ := read _ (emptyInstruction_renamed t t')
      exact ⟨t' :: text', rest', stmt', _, rfl, .statement isStatement', stmtRenamed, renamed⟩
  | label isLabel =>
      obtain ⟨t', rest', rfl, one, renamed⟩ := renamed.split
      obtain ⟨isLabel', labelRenamed⟩ := labelled_renamed one isLabel
      exact ⟨[t'], rest', Parser.labelled t', _, rfl, .label isLabel', labelRenamed, renamed⟩
  | @labelled label t text _ isLabel isStatement =>
      obtain ⟨label', _, rfl, one, renamed⟩ := renamed.split
      obtain ⟨isLabel', labelRenamed⟩ := labelled_renamed one isLabel
      rw [isLabel] at renamed
      obtain ⟨t', text', rest', rfl, read, renamed⟩ :=
        isStatement.renamed keeps (.inr rfl) renamed
      obtain ⟨stmt', isStatement', stmtRenamed⟩ :=
        read (setInstructionSpan (Parser.labelled label') t') labelRenamed
      exact ⟨label' :: t' :: text', rest', stmt', _, rfl, .labelled isLabel' isStatement',
        stmtRenamed, renamed⟩

/-! ## Programs -/

theorem endsLine_renamed (renamed : TokensRenamed rename place tokens tokens')
    (ends : EndsLine tokens) : firstType tokens' = firstType tokens := by
  cases tokens with
  | nil =>
      cases tokens' with
      | nil => rfl
      | cons => cases renamed
  | cons t rest =>
      have type : t.type = .newline ∨ t.type = .eof := ends
      have kept : keptType place t.type = true := by
        rcases type with type | type <;> rw [type] <;> cases place <;> rfl
      obtain ⟨t', rest', rfl, sameType, -, -⟩ := renamed.split_kept rfl kept
      exact sameType

/-- Renamed tokens are a renamed program. -/
theorem ProgramText.renamed {statements : List Instruction} (keeps : Keeps old new)
    (isText : ProgramText old tokens statements) (fresh : place = .line ∨ EndsLine tokens)
    (renamed : TokensRenamed rename place tokens tokens') :
    ∃ statements', ProgramText new tokens' statements' ∧
      List.Forall₂ (Renamed rename) statements statements' := by
  induction isText generalizing place tokens' with
  | done isEnd =>
      exact ⟨[], .done ((endsLine_renamed renamed (.inr isEnd)).trans isEnd), .nil⟩
  | newline isNewline _ inductionHypothesis =>
      obtain ⟨t', rest', rfl, isNewline', -, renamed⟩ :=
        renamed.split_kept isNewline (by cases place <;> rfl)
      have next : place.after .newline = .line := by cases place <;> rfl
      obtain ⟨statements', isText', statementsRenamed⟩ :=
        inductionHypothesis (.inl next) renamed
      exact ⟨statements', .newline isNewline' isText', statementsRenamed⟩
  | @line text tokens stmt statements isLine ends _ inductionHypothesis =>
      obtain ⟨t, tail, rfl, notNewline, notEof⟩ := isLine.head
      have isFresh : place = .line := fresh.resolve_right fun ends =>
        ends.elim notNewline notEof
      rw [isFresh] at renamed
      obtain ⟨text', rest', stmt', _, rfl, isLine', stmtRenamed, renamed⟩ :=
        isLine.renamed keeps renamed
      obtain ⟨statements', isText', statementsRenamed⟩ :=
        inductionHypothesis (.inr ends) renamed
      have ends' : EndsLine rest' := by
        rw [EndsLine, endsLine_renamed renamed ends]
        exact ends
      exact ⟨stmt' :: statements', .line isLine' ends' isText', .cons stmtRenamed statementsRenamed⟩

/-- The parser reads the renamed statements from renamed tokens. -/
theorem parserParse_renamed {tokens tokens' : TokenArray} (keeps : Keeps old new)
    (renamed : TokensRenamed rename .line tokens.data tokens'.data)
    (clean : errorHasAny (@parserParse old tokens).errors = false) :
    errorHasAny (@parserParse new tokens').errors = false ∧
      List.Forall₂ (Renamed rename) (@parserParse old tokens).instructions.data
        (@parserParse new tokens').instructions.data := by
  obtain ⟨statements', isText', statementsRenamed⟩ :=
    (parserParse_iff.mp ⟨clean, rfl⟩).renamed keeps (.inl rfl) renamed
  obtain ⟨clean', rfl⟩ := parserParse_iff.mpr isText'
  exact ⟨clean', statementsRenamed⟩

end Renaming

end Nazm.Parser
