import Nazm.Lexer.StringLiterals
import Nazm.Parser.Numbers
import Nazm.Parser.ReservedNames

/-!
Printing statements.

Owns the printer of operands, statements and programs in the documented syntax,
the statements that can be printed, and that each printed word is a token of its
own.

Does not own how printed statements are read.
-/

namespace Nazm.Parser

open Nazm.Encoder Nazm.Lexer Nazm.Unicode Nazm.Diagnostics Utf8

/-! ## The printer -/

/-- The first spelling of a value in a word table. -/
def spellingOf {α : Type} [DecidableEq α] (table : List (String × α)) (value : α) : List UInt8 :=
  ((table.find? fun entry => entry.2 = value).map fun entry => utf8 entry.1).getD []

def printMnemonic (op : OpcodeEnum) : List UInt8 := spellingOf keywordTable op

def printRegister (reg : RegId) : List UInt8 := spellingOf regTable reg

/-- A byte of a string, as an escape where there is one. -/
def printStringByte (byte : UInt8) : List UInt8 :=
  match documentedEscapes.find? fun entry => entry.2 = byte with
  | some (esc, _) => [0x5C, esc]
  | none => [byte]

def printString (string : List UInt8) : List UInt8 :=
  0x22 :: (string.flatMap printStringByte ++ [0x22])

/-- A displacement with its sign. -/
def printDisplacement (disp : Int32) : List UInt8 :=
  if disp.toInt < 0 then decimalInt disp.toInt else 0x2B :: decimalInt disp.toInt

def printOperand : OperandKind → List UInt8
  | .none => []
  | .reg reg => printRegister reg
  | .imm value => decimalInt value.toInt
  | .memReg base => 0x5B :: (printRegister base ++ [0x5D])
  | .memDisp base disp => 0x5B :: (printRegister base ++ (printDisplacement disp ++ [0x5D]))
  | .memRipLabel name => 0x5B :: (instructionPointerName ++ 0x2B :: (name ++ [0x5D]))
  | .label name => name
  | .string string => printString string

def arabicCommaText : List UInt8 := utf8 "،"

/-- Operands, each after a comma. -/
def printFurther : List Operand → List UInt8
  | [] => []
  | op :: ops => arabicCommaText ++ 0x20 :: (printOperand op.kind ++ printFurther ops)

def printOperands : List Operand → List UInt8
  | [] => []
  | op :: ops => 0x20 :: (printOperand op.kind ++ printFurther ops)

/-- A statement without its label. -/
def printBody (instr : Instruction) : List UInt8 :=
  match instr.directive with
  | some name => name ++ printOperands instr.ops
  | none => printMnemonic instr.opcode ++ printOperands instr.ops

/-- A statement that is only a label. -/
def isBare (instr : Instruction) : Bool :=
  instr.directive.isNone && decide (instr.opcode = .invalid)

def printInstruction (instr : Instruction) : List UInt8 :=
  match instr.label with
  | none => printBody instr
  | some label => label ++ 0x3A :: (if isBare instr then [] else 0x20 :: printBody instr)

/-- One statement a line. -/
def printProgram (statements : List Instruction) : List UInt8 :=
  statements.flatMap fun instr => printInstruction instr ++ [0x0A]

/-! ## What can be printed -/

/-- The name of a directive that has not been removed. -/
structure DirectiveName (name : List UInt8) : Prop where
  text : ∃ body cps, name = 0x2E :: body ∧ Codepoints body cps ∧
    ∀ cp ∈ cps, continuesDirective cp = true
  unremoved : directiveLegacyReplacement name = none

/-- An operand of a well-formed statement. -/
def LegalOperand : OperandKind → Prop
  | .none => False
  | .reg reg => reg ≠ .invalid
  | .imm _ => True
  | .memReg base | .memDisp base _ => regWidthBits base = 64
  | .memRipLabel name | .label name => NewName name
  | .string string => WellFormed string

/-- What a well-formed statement is besides its label and its operands. -/
inductive LegalBody : Instruction → Prop where
  | label {instr : Instruction} :
      instr.label ≠ none → instr.opcode = .invalid → instr.directive = none →
      instr.directiveKind = .none → instr.ops = [] → LegalBody instr
  | directive {instr : Instruction} {name : List UInt8} :
      instr.opcode = .invalid → instr.directive = some name → DirectiveName name →
      instr.directiveKind = directiveLookup name → LegalBody instr
  | instruction {instr : Instruction} :
      instr.opcode ≠ .invalid → instr.directive = none → instr.directiveKind = .none →
      arityAdmits instr.opcode instr.ops → LegalBody instr

/-- A well-formed statement. -/
structure LegalInstruction (instr : Instruction) : Prop where
  label : ∀ name, instr.label = some name → NewName name
  body : LegalBody instr
  operands : ∀ op ∈ instr.ops, LegalOperand op.kind
  count : instr.ops.length ≤ maxOperands

/-- Every directive of the table has a name that can be printed. -/
theorem directiveName_of_mem : ∀ entry ∈ directiveTable, DirectiveName (utf8 entry.1) ∧
    directiveLookup (utf8 entry.1) = entry.2 := by
  have table : ∀ entry ∈ directiveTable, ∃ body cps, utf8 entry.1 = 0x2E :: body ∧
      codepoints? body.length body = some cps ∧ cps.all continuesDirective = true ∧
      directiveLegacyReplacement (utf8 entry.1) = none ∧
      directiveLookup (utf8 entry.1) = entry.2 := by
    have computed : ∀ entry ∈ directiveTable,
        utf8 entry.1 = 0x2E :: (utf8 entry.1).tail ∧
        codepoints? (utf8 entry.1).tail.length (utf8 entry.1).tail =
          some ((codepoints? (utf8 entry.1).tail.length (utf8 entry.1).tail).getD []) ∧
        ((codepoints? (utf8 entry.1).tail.length (utf8 entry.1).tail).getD []).all
          continuesDirective = true ∧
        directiveLegacyReplacement (utf8 entry.1) = none ∧
        directiveLookup (utf8 entry.1) = entry.2 := by
      decide +kernel
    exact fun entry member => ⟨_, _, computed entry member⟩
  intro entry member
  obtain ⟨body, cps, isName, decoded, continues, unremoved, known⟩ := table entry member
  exact ⟨⟨⟨body, cps, isName, codepoints?_sound decoded, List.all_eq_true.mp continues⟩,
    unremoved⟩, known⟩

/-! ## Words -/

section Words

variable {name : List UInt8} {next : Option Nat}

/-- What a printed word can have behind it. -/
def closers : List (Option Nat) :=
  [none, some 0x20, some 0x060C, some 0x5D, some 0x2B, some 0x2D]

/-- No printed word goes on with what is printed behind it. -/
theorem closers_stop : ∀ next ∈ closers,
    continuesDirective (next.getD 0) = false ∧ isIdentContinue (next.getD 0) = false ∧
      next ≠ some 0x3A ∧ isDigitOf decimalDigitValue (next.getD 0) = false ∧
      next.getD 0 ≠ 0x78 ∧ next.getD 0 ≠ 0x58 ∧ next.getD 0 ≠ 0x62 ∧ next.getD 0 ≠ 0x42 := by
  decide

/-- What is found in a table under a value is an entry with it. -/
theorem spellingOf_eq {α : Type} [DecidableEq α] {table : List (String × α)} {value : α}
    (some_ : ∃ entry ∈ table, entry.2 = value) :
    ∃ entry ∈ table, entry.2 = value ∧ spellingOf table value = utf8 entry.1 := by
  obtain ⟨entry, member, isValue⟩ := some_
  have found := List.find?_isSome (p := fun entry => decide (entry.2 = value)) |>.mpr
    ⟨entry, member, decide_eq_true isValue⟩
  obtain ⟨chosen, isChosen⟩ := Option.isSome_iff_exists.mp found
  have isValue' := List.find?_some isChosen
  refine ⟨chosen, List.mem_of_find?_eq_some isChosen, of_decide_eq_true isValue', ?_⟩
  rw [spellingOf, isChosen]
  rfl

theorem printMnemonic_word {op : OpcodeEnum} (known : op ≠ .invalid) :
    IdentText (printMnemonic op) ∧ keywordsLookup (printMnemonic op) = op := by
  have table : ∀ entry ∈ keywordTable,
      isIdentText (utf8 entry.1) = true ∧ keywordsLookup (utf8 entry.1) = entry.2 := by
    decide +kernel
  have some_ : ∃ entry ∈ keywordTable, entry.2 = op := by
    cases op with
    | invalid => exact absurd rfl known
    | _ => decide
  obtain ⟨entry, member, rfl, spelling⟩ := spellingOf_eq some_
  rw [printMnemonic, spelling]
  exact ⟨isIdentText_iff.mp (table entry member).1, (table entry member).2⟩

theorem printRegister_word {reg : RegId} (known : reg ≠ .invalid) :
    IdentText (printRegister reg) ∧ keywordsLookup (printRegister reg) = .invalid ∧
      lexerRegisterId (printRegister reg) = some reg := by
  have table : ∀ entry ∈ regTable,
      isIdentText (utf8 entry.1) = true ∧ lexerRegisterId (utf8 entry.1) = some entry.2 := by
    decide +kernel
  have some_ : ∃ entry ∈ regTable, entry.2 = reg := by
    cases reg with
    | invalid => exact absurd rfl known
    | gpr64 index | gpr32 index | gpr16 index | gpr8 index | xmm index =>
        revert index
        decide
  obtain ⟨entry, member, rfl, spelling⟩ := spellingOf_eq some_
  have noKeyword : keywordsLookup (utf8 entry.1) = .invalid := by
    by_contra isKeyword
    have unreserved := unreserved_of_keyword isKeyword
    rw [regTable_reserved entry member] at unreserved
    exact Bool.noConfusion unreserved
  rw [printRegister, spelling]
  exact ⟨isIdentText_iff.mp (table entry member).1, noKeyword, (table entry member).2⟩

/-- A number is spelled by its digits. -/
theorem codepoints_decimal (number : Nat) :
    ∃ cps, Codepoints (decimal number) cps ∧ cps ≠ [] ∧
      (∀ cp ∈ cps, isDigitOf decimalDigitValue cp = true) ∧
      digitsNumber decimalDigitValue 10 0 cps = number := by
  induction number using Nat.strongRecOn with
  | ind number inductionHypothesis =>
      have table : ∀ digit : Fin 10, (UInt8.ofNat (0x30 + digit.val)).toNat = 0x30 + digit.val ∧
          isDigitOf decimalDigitValue (0x30 + digit.val) = true ∧
          decimalDigitValue (0x30 + digit.val) = some digit.val := by decide
      obtain ⟨isByte, isDigit, value⟩ := table ⟨number % 10, by omega⟩
      dsimp only at isByte isDigit value
      have last : Codepoints [UInt8.ofNat (0x30 + number % 10)] [0x30 + number % 10] := by
        have one := codepoints_ascii (UInt8.ofNat (0x30 + number % 10)) (by omega)
        rwa [isByte] at one
      rw [decimal_eq]
      split
      · next small =>
          refine ⟨_, last, List.cons_ne_nil _ _, by simpa using isDigit, ?_⟩
          rw [digitsNumber, List.foldl_cons, List.foldl_nil, value, Option.getD_some]
          omega
      · next large =>
          obtain ⟨cps, isFront, -, digits, front⟩ := inductionHypothesis (number / 10) (by omega)
          refine ⟨cps ++ [0x30 + number % 10], isFront.append last, by simp, ?_, ?_⟩
          · intro cp member
            rcases List.mem_append.mp member with inFront | isLast
            · exact digits cp inFront
            · rw [List.mem_singleton.mp isLast]
              exact isDigit
          · rw [digitsNumber] at front
            rw [digitsNumber, List.foldl_append, front, List.foldl_cons, List.foldl_nil, value,
              Option.getD_some]
            omega

/-- The text of a 64-bit integer is a token, and its value the same text. -/
theorem spells_decimalInt {value : Int} (low : -2 ^ 63 ≤ value) (high : value ≤ 2 ^ 63 - 1)
    (closes : next ∈ closers) :
    Spells .nazm (decimalInt value) (.token (.immediate, decimalInt value)) next := by
  obtain ⟨-, -, -, noDigit, noMark⟩ := closers_stop next closes
  have text : ∀ number, ∃ cps, Codepoints (decimal number) cps ∧
      NumberText cps number (next.getD 0) := by
    intro number
    obtain ⟨cps, isText, some_, digits, isNumber⟩ := codepoints_decimal number
    have literal := NumberText.decimal some_ digits noDigit fun _ => noMark
    rw [isNumber] at literal
    exact ⟨cps, isText, literal⟩
  cases value with
  | ofNat number =>
      have small : (number : Int) ≤ 2 ^ 63 - 1 := high
      obtain ⟨cps, isText, literal⟩ := text number
      have isSigned : asSignedBits number = Int.ofNat number := by
        rw [asSignedBits, if_pos (by omega)]
        rfl
      have spells := @Spells.number .nazm _ _ _ next isText literal (by omega)
      rwa [isSigned] at spells
  | negSucc number =>
      obtain ⟨cps, isText, literal⟩ := text (number + 1)
      have isSigned : asSignedBits ((2 ^ 64 - (number + 1)) % 2 ^ 64) = Int.negSucc number := by
        rw [asSignedBits, if_neg (by omega)]
        omega
      have spells := @Spells.negative .nazm _ _ _ next isText literal (by omega)
      rwa [isSigned] at spells

/-- The escapes of a string are a quotation of it. -/
theorem quoted_printString {string : List UInt8} (wellFormed : WellFormed string) :
    Quoted string (string.flatMap printStringByte) := by
  induction wellFormed with
  | nil => exact .nil
  | @cons character rest isCharacter _ inductionHypothesis =>
      rw [List.flatMap_append]
      have encodes := encodes_of_character isCharacter
      by_cases escaped : ∃ entry ∈ documentedEscapes, [entry.2] = character
      · obtain ⟨entry, member, rfl⟩ := escaped
        have table : ∀ entry ∈ documentedEscapes, ∃ esc, (esc, entry.2) ∈ documentedEscapes ∧
            printStringByte entry.2 = [0x5C, esc] := by
          have computed : (documentedEscapes.all fun entry =>
              printStringByte entry.2 = [0x5C, entry.1]) = true := by decide
          exact fun entry member => ⟨entry.1, member,
            of_decide_eq_true (List.all_eq_true.mp computed entry member)⟩
        obtain ⟨esc, isEscape, printed⟩ := table entry member
        rw [List.flatMap_singleton, printed]
        exact .escape isEscape inductionHypothesis
      · have verbatim : ∀ byte ∈ character, printStringByte byte = [byte] := by
          intro byte inCharacter
          rw [printStringByte, List.find?_eq_none.mpr]
          intro entry member same
          have isByte : entry.2 = byte := of_decide_eq_true same
          have small : (documentedEscapes.all fun entry => entry.2.toNat < 0x80) = true := by
            decide
          have ascii := of_decide_eq_true (List.all_eq_true.mp small entry member)
          rw [isByte] at ascii
          obtain ⟨whole, -⟩ := encodes.eq_of_mem inCharacter ascii
          exact escaped ⟨entry, member, by rw [whole, isByte]⟩
        have plain : value character ∉ [0x00, 0x22, 0x5C, 0x0A, 0x0D] := by
          intro special
          have table : ∀ cp ∈ [0x00, 0x22, 0x5C, 0x0A, 0x0D],
              ∃ entry ∈ documentedEscapes, [entry.2] = [UInt8.ofNat cp] ∧ cp < 0x80 := by decide
          obtain ⟨entry, member, same, small⟩ := table _ special
          exact escaped ⟨entry, member, same.trans (encodes.eq_ascii small).symm⟩
        have same : character.flatMap printStringByte = character := by
          rw [List.flatMap_congr verbatim, List.flatMap_singleton']
        rw [same]
        exact .verbatim encodes plain inductionHypothesis

end Words

end Nazm.Parser
