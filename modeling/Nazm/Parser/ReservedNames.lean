import Nazm.Lexer.Gaps
import Nazm.Lexer.RenamedSource
import Nazm.Parser.Newlines

/-!
Reserved words among the symbols.

Owns the references that start like a register, where in a source they name no
symbol, and that a source has symbols with reserved names exactly where it has
such a reference elsewhere.

Does not own the symbol table.
-/

namespace Nazm.Parser

open Nazm.Encoder Nazm.Lexer Nazm.Unicode Nazm.Diagnostics

/-! ## References with a reserved prefix -/

/-- A reference that starts like a register. -/
def isReservedReference (lexeme : Lexeme) : Bool :=
  lexeme.1 = .labelRef && hasReservedRegisterPrefix lexeme.2

/-- Up to the end of the file, references that start like a register stand
directly after an opening bracket. -/
def reservedBracketed : Bool → List Lexeme → Bool
  | _, [] => true
  | afterBracket, lexeme :: rest =>
      if lexeme.1 = .eof then true
      else (afterBracket || !isReservedReference lexeme) &&
        reservedBracketed (decide (lexeme.1 = .lbracket)) rest

/-- No name starts like a register. -/
def allUnreserved (names : List (List UInt8)) : Bool :=
  names.all fun name => !hasReservedRegisterPrefix name

theorem allUnreserved_append (first second : List (List UInt8)) :
    allUnreserved (first ++ second) = (allUnreserved first && allUnreserved second) :=
  List.all_append

/-- Labels and instruction names never start like a register. -/
def UnreservedWord (lexeme : Lexeme) : Prop :=
  lexeme.1 = .labelDef ∨ lexeme.1 = .mnemonic → hasReservedRegisterPrefix lexeme.2 = false

section Words

variable {text name : List UInt8} {piece : Piece} {follow : Option Nat}

theorem unreserved_of_keyword (known : keywordsLookup name ≠ .invalid) :
    hasReservedRegisterPrefix name = false := by
  have unreserved : ∀ entry ∈ keywordTable, hasReservedRegisterPrefix (utf8 entry.1) = false := by
    decide +kernel
  have looked : (tableLookup keywordTable name).getD .invalid ≠ .invalid := known
  rw [tableLookup] at looked
  cases found : keywordTable.find? fun entry => utf8 entry.1 = name with
  | none =>
      rw [found] at looked
      exact absurd rfl looked
  | some entry =>
      have chosen := List.find?_some found
      have same : utf8 entry.1 = name := of_decide_eq_true chosen
      rw [← same]
      exact unreserved entry (List.mem_of_find?_eq_some found)

theorem unreservedWord_of_spells {lexeme : Lexeme}
    (spells : Spells .nazm text (.token lexeme) follow) : UnreservedWord lexeme := by
  cases spells with
  | labelDef _ unreserved => exact fun _ => unreserved
  | @word _ type _ _ _ _ isType =>
      rintro (isLabel | isMnemonic)
      · have sameType : type = .labelDef := isLabel
        rw [sameType] at isType
        exact absurd isType wordType_ne_labelDef
      · have sameType : type = .mnemonic := isMnemonic
        rw [sameType] at isType
        unfold wordType at isType
        split at isType
        · next known => exact unreserved_of_keyword known
        · repeat' split at isType
          all_goals contradiction
  | single _ isToken =>
      unfold singleCharToken at isToken
      repeat' split at isToken
      all_goals first
        | contradiction
        | (obtain ⟨rfl, -⟩ := Prod.mk.inj (Option.some.inj isToken)
           rintro (other | other) <;> contradiction)
  | _ => rintro (other | other) <;> contradiction

theorem unreservedWord_of_spelled {pieces : List Piece} (spelled : Spelled .nazm text pieces)
    (afterNewline : Bool) : ∀ lexeme ∈ lexemes afterNewline pieces, UnreservedWord lexeme := by
  induction spelled generalizing afterNewline with
  | nil => exact fun _ member => absurd member List.not_mem_nil
  | @cons text rest piece pieces spells _ inductionHypothesis =>
      cases piece with
      | blank => exact inductionHypothesis afterNewline
      | comment => exact inductionHypothesis afterNewline
      | newline =>
          cases afterNewline with
          | true => exact inductionHypothesis true
          | false =>
              refine List.forall_mem_cons.mpr ⟨?_, inductionHypothesis true⟩
              rintro (other | other) <;> contradiction
      | token lexeme =>
          rw [lexemes]
          exact List.forall_mem_cons.mpr
            ⟨unreservedWord_of_spells spells, inductionHypothesis _⟩

end Words

/-! ## Texts of the grammar -/

/-- After this text, whose symbols are these names, the scan goes on. -/
def ScansNames (text : List Token) (names : List (List UInt8)) : Prop :=
  ∀ rest, reservedBracketed false (text.map Token.lexeme ++ rest) =
    (allUnreserved names && reservedBracketed false rest)

/-- Words that never start like a register. -/
def UnreservedWords (text : List Token) : Prop := ∀ t ∈ text, UnreservedWord t.lexeme

section Texts

variable {vocabulary : Vocabulary} {text : List Token} {t : Token} {kind : OperandKind}
  {ops : List Operand} {instr stmt : Instruction}

theorem UnreservedWords.append {first second : List Token}
    (words : UnreservedWords (first ++ second)) :
    UnreservedWords first ∧ UnreservedWords second :=
  List.forall_mem_append.mp words

/-- One more token that is no reference. -/
theorem scan_cons {type : TokenType} (isType : t.type = type) (notEof : type ≠ .eof)
    (notRef : type ≠ .labelRef) (afterBracket : Bool) (rest : List Lexeme) :
    reservedBracketed afterBracket (t.lexeme :: rest) =
      reservedBracketed (decide (type = .lbracket)) rest := by
  have noReference : isReservedReference t.lexeme = false := by
    rw [isReservedReference, decide_eq_false (by rw [Token.lexeme, isType]; exact notRef)]
    rfl
  have sameType : t.lexeme.1 = type := isType
  rw [reservedBracketed, sameType, if_neg notEof, noReference, Bool.not_false, Bool.or_true,
    Bool.true_and]

/-- One more reference outside brackets. -/
theorem scan_reference (isRef : t.type = .labelRef) (rest : List Lexeme) :
    reservedBracketed false (t.lexeme :: rest) =
      (!hasReservedRegisterPrefix t.value && reservedBracketed false rest) := by
  have sameType : t.lexeme.1 = .labelRef := isRef
  rw [reservedBracketed, sameType, if_neg (by decide), isReservedReference, sameType]
  rfl

/-- The name of a memory operand or a word. -/
theorem scan_name (isName : t.type = .labelRef ∨ t.type = .mnemonic)
    (word : UnreservedWord t.lexeme) (rest : List Lexeme) :
    reservedBracketed false (t.lexeme :: rest) =
      (!hasReservedRegisterPrefix t.value && reservedBracketed false rest) := by
  rcases isName with isRef | isMnemonic
  · exact scan_reference isRef rest
  · rw [scan_cons isMnemonic (by decide) (by decide),
      show hasReservedRegisterPrefix t.value = false from word (.inr isMnemonic)]
    rfl

/-- The symbol of an operand, if it has one. -/
def kindNames (kind : OperandKind) : List (List UInt8) := (symbolName? ⟨kind, 0, 0, 0⟩).toList

theorem names_cons (op : Operand) (ops : List Operand) :
    (op :: ops).filterMap symbolName? = kindNames op.kind ++ ops.filterMap symbolName? := by
  obtain ⟨kind, line, col, endCol⟩ := op
  cases kind <;> rfl

theorem wordOperand_scans (isWord : wordOperand? vocabulary t = some kind)
    (word : UnreservedWord t.lexeme) : ScansNames [t] (kindNames kind) := by
  intro rest
  rw [List.map_singleton, List.singleton_append]
  unfold wordOperand? at isWord
  split at isWord
  · next isRegister =>
      obtain ⟨reg, -, rfl⟩ := Option.map_eq_some_iff.mp isWord
      exact scan_cons isRegister (by decide) (by decide) false rest
  · next isImmediate =>
      rw [← Option.some.inj isWord]
      exact scan_cons isImmediate (by decide) (by decide) false rest
  · next isRef =>
      rw [← (Option.ite_some_none_eq_some.mp isWord).2, scan_name (.inl isRef) word]
      simp [allUnreserved, kindNames, symbolName?]
  · next isMnemonic =>
      rw [← Option.some.inj isWord, scan_name (.inr isMnemonic) word]
      simp [allUnreserved, kindNames, symbolName?]
  · next isString =>
      rw [← Option.some.inj isWord]
      exact scan_cons isString (by decide) (by decide) false rest
  · contradiction

/-- What stands directly after a bracket is let through. -/
theorem MemoryText.scans (isText : MemoryText vocabulary text kind)
    (words : UnreservedWords text) (rest : List Lexeme) :
    reservedBracketed true (text.map Token.lexeme ++ rest) =
      (allUnreserved (kindNames kind) && reservedBracketed false rest) := by
  cases isText with
  | base isBase isClose =>
      simp only [List.map_cons, List.map_nil, List.cons_append, List.nil_append]
      rw [scan_cons isBase.type (by decide) (by decide),
        scan_cons isClose (by decide) (by decide)]
      rfl
  | signed isBase isSign isNumber _ isClose =>
      simp only [List.map_cons, List.map_nil, List.cons_append, List.nil_append]
      rw [scan_cons isBase.type (by decide) (by decide)]
      rcases isSign with isSign | isSign
      · rw [scan_cons isSign (by decide) (by decide), scan_cons isNumber (by decide) (by decide),
          scan_cons isClose (by decide) (by decide)]
        rfl
      · rw [scan_cons isSign (by decide) (by decide), scan_cons isNumber (by decide) (by decide),
          scan_cons isClose (by decide) (by decide)]
        rfl
  | unsigned isBase isNumber _ isClose =>
      simp only [List.map_cons, List.map_nil, List.cons_append, List.nil_append]
      rw [scan_cons isBase.type (by decide) (by decide),
        scan_cons isNumber (by decide) (by decide), scan_cons isClose (by decide) (by decide)]
      rfl
  | @rip pointer plus name close isRef _ isPlus isName isClose =>
      have word : UnreservedWord name.lexeme := words name (by simp)
      have pointerType : pointer.lexeme.1 = .labelRef := isRef
      simp only [List.map_cons, List.map_nil, List.cons_append, List.nil_append]
      rw [reservedBracketed, pointerType, if_neg (by decide), Bool.true_or, Bool.true_and,
        scan_cons isPlus (by decide) (by decide)]
      refine (scan_name isName word _).trans ?_
      rw [scan_cons isClose (by decide) (by decide)]
      simp [allUnreserved, kindNames, symbolName?]

theorem OperandText.scans (isText : OperandText vocabulary text kind)
    (words : UnreservedWords text) : ScansNames text (kindNames kind) := by
  cases isText with
  | word isWord => exact wordOperand_scans isWord (words _ List.mem_cons_self)
  | memory isOpen isMemory =>
      intro rest
      rw [List.map_cons, List.cons_append, scan_cons isOpen (by decide) (by decide)]
      exact isMemory.scans (List.forall_mem_cons.mp words).2 rest

/-! ## Lists and lines -/

theorem ScansNames.append {first second : List Token} {one two : List (List UInt8)}
    (front : ScansNames first one) (back : ScansNames second two) :
    ScansNames (first ++ second) (one ++ two) := by
  intro rest
  rw [List.map_append, List.append_assoc, front, back, allUnreserved_append, Bool.and_assoc]

theorem ScansNames.cons {type : TokenType} {names : List (List UInt8)} (isType : t.type = type)
    (notEof : type ≠ .eof) (notRef : type ≠ .labelRef) (notOpen : type ≠ .lbracket)
    (scans : ScansNames text names) : ScansNames (t :: text) names := by
  intro rest
  rw [List.map_cons, List.cons_append, scan_cons isType notEof notRef,
    decide_eq_false notOpen, scans]

theorem ScansNames.nil : ScansNames [] [] := fun _ => rfl

theorem FurtherText.scans (isText : FurtherText vocabulary text ops)
    (words : UnreservedWords text) : ScansNames text (ops.filterMap symbolName?) := by
  induction isText with
  | nil => exact .nil
  | cons isComma isOperand _ inductionHypothesis =>
      obtain ⟨here, later⟩ := UnreservedWords.append (List.forall_mem_cons.mp words).2
      rw [names_cons]
      exact .cons isComma (by decide) (by decide) (by decide)
        ((isOperand.scans here).append (inductionHypothesis later))

theorem SeparatedText.scans (isText : SeparatedText vocabulary text ops)
    (words : UnreservedWords text) : ScansNames text (ops.filterMap symbolName?) := by
  cases isText with
  | nil => exact .nil
  | cons isOperand isFurther =>
      obtain ⟨here, later⟩ := UnreservedWords.append words
      rw [names_cons]
      exact (isOperand.scans here).append (isFurther.scans later)

theorem LooseText.scans (isText : LooseText vocabulary text ops)
    (words : UnreservedWords text) : ScansNames text (ops.filterMap symbolName?) := by
  induction isText with
  | nil => exact .nil
  | comma isComma _ inductionHypothesis =>
      exact .cons isComma (by decide) (by decide) (by decide)
        (inductionHypothesis (List.forall_mem_cons.mp words).2)
  | cons isOperand _ inductionHypothesis =>
      obtain ⟨here, later⟩ := UnreservedWords.append words
      rw [names_cons]
      exact (isOperand.scans here).append (inductionHypothesis later)

/-- The operands of a statement; its label stands before it. -/
theorem StatementText.scans (isText : StatementText vocabulary instr text stmt)
    (words : UnreservedWords text) :
    ScansNames text (stmt.ops.filterMap symbolName?) ∧ stmt.label = instr.label := by
  cases isText with
  | directive isDirective _ isOperands _ =>
      exact ⟨.cons isDirective (by decide) (by decide) (by decide)
        (isOperands.scans (List.forall_mem_cons.mp words).2), rfl⟩
  | instruction isMnemonic _ isOperands _ _ =>
      exact ⟨.cons isMnemonic (by decide) (by decide) (by decide)
        (isOperands.scans (List.forall_mem_cons.mp words).2), rfl⟩

theorem allUnreserved_label {names : List (List UInt8)} (isLabel : t.type = .labelDef)
    (word : UnreservedWord t.lexeme) : allUnreserved (t.value :: names) = allUnreserved names := by
  rw [allUnreserved, List.all_cons,
    show hasReservedRegisterPrefix t.value = false from word (.inl isLabel)]
  rfl

theorem LineText.scans (isText : LineText vocabulary text stmt) (words : UnreservedWords text) :
    ScansNames text (instructionNames stmt) := by
  cases isText with
  | statement isStatement =>
      obtain ⟨scans, sameLabel⟩ := isStatement.scans words
      rw [instructionNames, sameLabel]
      exact scans
  | @label t isLabel =>
      intro rest
      have same : instructionNames (Parser.labelled t) = [t.value] := rfl
      rw [List.map_singleton, List.singleton_append, scan_cons isLabel (by decide) (by decide),
        same, allUnreserved_label isLabel (words t List.mem_cons_self)]
      rfl
  | @labelled label t text _ isLabel isStatement =>
      obtain ⟨here, later⟩ := List.forall_mem_cons.mp words
      obtain ⟨scans, sameLabel⟩ := isStatement.scans later
      intro rest
      have same : instructionNames stmt = label.value :: stmt.ops.filterMap symbolName? := by
        rw [instructionNames, sameLabel]
        rfl
      rw [same, allUnreserved_label isLabel here]
      exact ScansNames.cons isLabel (by decide) (by decide) (by decide) scans rest

/-- The symbols of a program start like a register exactly where a reference
outside brackets does. -/
theorem ProgramText.scans {tokens : List Token} {statements : List Instruction}
    (isText : ProgramText vocabulary tokens statements) (words : UnreservedWords tokens) :
    reservedBracketed false (tokens.map Token.lexeme) = allUnreserved (programNames statements) := by
  induction isText with
  | @done tokens isEnd =>
      cases tokens with
      | nil => rfl
      | cons t tokens => exact if_pos isEnd
  | newline isNewline _ inductionHypothesis =>
      rw [List.map_cons, scan_cons isNewline (by decide) (by decide)]
      exact inductionHypothesis (List.forall_mem_cons.mp words).2
  | line isLine _ _ inductionHypothesis =>
      obtain ⟨here, later⟩ := UnreservedWords.append words
      rw [List.map_append, isLine.scans here, inductionHypothesis later, programNames,
        programNames, List.flatMap_cons, allUnreserved_append]

end Texts

end Nazm.Parser
