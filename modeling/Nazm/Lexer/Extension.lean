import Nazm.Lexer.Spelled
import Nazm.Parser.Renaming

/-!
Word tables with one more word.

Owns the extensions of the tables of the source, and that the lexer over an
extension reads a source that it accepted before into the same lexemes, but for
references that have become instruction names.

Does not own what the passes make of them.
-/

namespace Nazm.Lexer

open Nazm.Encoder Nazm.Unicode Nazm.Diagnostics

/-! ## Extensions -/

/-- The tables of the source with one more instruction name or register name,
anywhere in its table. -/
inductive Extension : Vocabulary → Prop where
  | instruction {front back : List (String × OpcodeEnum)} {name : String} {opcode : OpcodeEnum} :
      keywordTable = front ++ back → IdentText (utf8 name) →
      hasReservedRegisterPrefix (utf8 name) = false →
      tableLookup keywordTable (utf8 name) = none → lexerRegisterId (utf8 name) = none →
      Extension ⟨front ++ (name, opcode) :: back, regTable⟩
  | register {front back : List (String × RegId)} {name : String} {reg : RegId} :
      regTable = front ++ back → hasReservedRegisterPrefix (utf8 name) = true →
      utf8 name ≠ instructionPointerName → lexerRegisterLegacyReplacement (utf8 name) = none →
      lexerRegisterId (utf8 name) = none →
      Extension ⟨keywordTable, front ++ (name, reg) :: back⟩

/-- A new word is found under its name, and every other word as before. -/
theorem tableLookup_insert {α : Type} {table front back : List (String × α)} {name : String}
    {value : α} (split : table = front ++ back) (absent : tableLookup table (utf8 name) = none)
    (text : List UInt8) :
    tableLookup (front ++ (name, value) :: back) text =
      if text = utf8 name then some value else tableLookup table text := by
  subst split
  unfold tableLookup at absent ⊢
  rw [Option.map_eq_none_iff, List.find?_append, Option.or_eq_none_iff] at absent
  rw [List.find?_append, List.find?_append, List.find?_cons]
  by_cases isName : text = utf8 name
  · rw [if_pos isName, isName, absent.1, decide_eq_true rfl]
    rfl
  · rw [if_neg isName, decide_eq_false (fun same => isName same.symm)]

section Extended

theorem keywordsLookup_of_tables (keywords : List (String × OpcodeEnum))
    (registers : List (String × RegId)) (text : List UInt8) :
    @keywordsLookup ⟨keywords, registers⟩ text = (tableLookup keywords text).getD .invalid := rfl

theorem lexerRegisterId_of_tables (keywords : List (String × OpcodeEnum))
    (registers : List (String × RegId)) (name : List UInt8) :
    @lexerRegisterId ⟨keywords, registers⟩ name = tableLookup registers name := rfl

variable {larger : Vocabulary} {text : List UInt8} {type : TokenType}

theorem Extension.keeps (extension : Extension larger) : Parser.Keeps .nazm larger := by
  cases extension with
  | @instruction front back name opcode split _ _ absent _ =>
      refine ⟨fun text known => ?_, fun _ _ => id⟩
      have old : text ≠ utf8 name := by
        rintro rfl
        rw [Vocabulary.nazm, keywordsLookup_of_tables, absent] at known
        exact known rfl
      rw [keywordsLookup_of_tables, tableLookup_insert split absent, if_neg old]
      rfl
  | @register front back name reg split _ _ _ absent =>
      refine ⟨fun _ _ => rfl, fun text reg known => ?_⟩
      have old : text ≠ utf8 name := by
        rintro rfl
        have same := absent.symm.trans known
        contradiction
      rw [lexerRegisterId_of_tables, tableLookup_insert split absent, if_neg old]
      exact known

/-- The type of a word that is in neither table. -/
theorem wordType_unknown {vocabulary : Vocabulary}
    (noKeyword : @keywordsLookup vocabulary text = .invalid)
    (noRegister : @lexerRegisterId vocabulary text = none) :
    wordType vocabulary text =
      if hasReservedRegisterPrefix text && !decide (text = instructionPointerName) &&
          (lexerRegisterLegacyReplacement text).isNone then none
      else some .labelRef := by
  rw [wordType, noKeyword, noRegister]
  rfl

theorem keywordsLookup_unknown (absent : tableLookup keywordTable text = none) :
    @keywordsLookup .nazm text = .invalid := by
  rw [Vocabulary.nazm, keywordsLookup_of_tables, absent]
  rfl

/-- A word keeps its type, or it was a reference and is an instruction name. -/
theorem wordType_extended (extension : Extension larger)
    (isType : wordType .nazm text = some type) :
    wordType larger text = some type ∨
      (type = .labelRef ∧ text ≠ instructionPointerName ∧
        wordType larger text = some .mnemonic) := by
  cases extension with
  | @instruction front back name opcode split _ notReserved absent noRegister =>
      have lookup := @tableLookup_insert _ _ _ _ _ opcode split absent text
      by_cases isName : text = utf8 name
      · subst isName
        rw [if_pos rfl] at lookup
        have isRef : type = .labelRef := by
          rw [wordType_unknown (keywordsLookup_unknown absent) noRegister, notReserved] at isType
          exact (Option.some.inj isType).symm
        have notPointer : utf8 name ≠ instructionPointerName := fun same => by
          rw [same] at notReserved
          revert notReserved
          decide +kernel
        by_cases isInvalid : opcode = .invalid
        · left
          have noKeyword : @keywordsLookup ⟨front ++ (name, opcode) :: back, regTable⟩
              (utf8 name) = .invalid := by
            rw [keywordsLookup_of_tables, lookup, isInvalid]
            rfl
          rw [wordType_unknown noKeyword noRegister, notReserved, isRef]
          rfl
        · refine .inr ⟨isRef, notPointer, ?_⟩
          rw [wordType, keywordsLookup_of_tables, lookup]
          exact if_pos isInvalid
      · left
        rw [if_neg isName] at lookup
        rw [wordType, keywordsLookup_of_tables, lookup]
        exact isType
  | @register front back name reg split reserved notPointer unremoved absent =>
      left
      have lookup := @tableLookup_insert _ _ _ _ _ reg split absent text
      by_cases isName : text = utf8 name
      · by_cases known : @keywordsLookup .nazm text = .invalid
        · rw [isName] at known isType
          rw [wordType_unknown known absent, reserved, unremoved, decide_eq_false notPointer]
            at isType
          contradiction
        · rw [wordType, if_pos known] at isType
          rw [wordType]
          exact (if_pos known).trans isType
      · rw [if_neg isName] at lookup
        rw [wordType, lexerRegisterId_of_tables, lookup]
        exact isType

/-! ## Sources -/

/-- A piece, and the same over the extended tables. -/
def PieceExtended (piece piece' : Piece) : Prop :=
  piece' = piece ∨ ∃ name, name ≠ instructionPointerName ∧ piece = .token (.labelRef, name) ∧
    piece' = .token (.mnemonic, name)

theorem Spells.extended {piece : Piece} {next : Option Nat} (extension : Extension larger)
    (spells : Spells .nazm text piece next) :
    ∃ piece', Spells larger text piece' next ∧ PieceExtended piece piece' := by
  cases spells with
  | blank isBlank => exact ⟨_, .blank isBlank, .inl rfl⟩
  | newline => exact ⟨_, .newline, .inl rfl⟩
  | comment isText oneLine ends => exact ⟨_, .comment isText oneLine ends, .inl rfl⟩
  | single encodes isToken => exact ⟨_, .single encodes isToken, .inl rfl⟩
  | minus stops => exact ⟨_, .minus stops, .inl rfl⟩
  | number isText isNumber fits => exact ⟨_, .number isText isNumber fits, .inl rfl⟩
  | negative isText isNumber fits => exact ⟨_, .negative isText isNumber fits, .inl rfl⟩
  | directive isText continues stops => exact ⟨_, .directive isText continues stops, .inl rfl⟩
  | string isString => exact ⟨_, .string isString, .inl rfl⟩
  | labelDef isName notReserved => exact ⟨_, .labelDef isName notReserved, .inl rfl⟩
  | word isName notColon stops isType =>
      rcases wordType_extended extension isType with isType' | ⟨rfl, notPointer, isType'⟩
      · exact ⟨_, .word isName notColon stops isType', .inl rfl⟩
      · exact ⟨_, .word isName notColon stops isType', .inr ⟨_, notPointer, rfl, rfl⟩⟩

theorem Spelled.extended {pieces : List Piece} (extension : Extension larger)
    (spelled : Spelled .nazm text pieces) :
    ∃ pieces', Spelled larger text pieces' ∧ List.Forall₂ PieceExtended pieces pieces' := by
  induction spelled with
  | nil => exact ⟨[], .nil, .nil⟩
  | cons spells _ inductionHypothesis =>
      obtain ⟨piece', spells', one⟩ := spells.extended extension
      obtain ⟨pieces', spelled', rest⟩ := inductionHypothesis
      exact ⟨piece' :: pieces', .cons spells' spelled', .cons one rest⟩

end Extended

end Nazm.Lexer
