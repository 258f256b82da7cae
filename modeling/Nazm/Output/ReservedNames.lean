import Nazm.Output.SymbolLists
import Nazm.Parser.ReservedNames

/-!
Reserved words among the symbols of an accepted source.

Owns that an accepted source has no symbol with a reserved name exactly where
its references with a reserved prefix stand directly after an opening bracket.

Does not own the scan of the references.
-/

namespace Nazm.Output

open Nazm.Encoder Nazm.Parser Nazm.Lexer Nazm.Symtable Nazm.Passes Nazm.Unicode Nazm.Diagnostics

section Reserved

variable {src : SourceBuffer}

/-- No symbol that a source defines, refers to or writes starts like a register. -/
structure NoReservedSymbol (src : SourceBuffer) : Prop where
  defined : ∀ instr ∈ (sourceInstructions src).data, ∀ name, instr.label = some name →
    hasReservedRegisterPrefix name = false
  named : ∀ instr ∈ (sourceInstructions src).data, ∀ op ∈ instr.ops, ∀ name,
    symbolName? op = some name → hasReservedRegisterPrefix name = false
  written : ∀ symbol ∈ objectSymbolList (sourcePass1 src).symtable,
    hasReservedRegisterPrefix symbol.name = false

theorem allUnreserved_iff {names : List (List UInt8)} :
    allUnreserved names = true ↔ ∀ name ∈ names, hasReservedRegisterPrefix name = false := by
  simp [allUnreserved]

/-- Each symbol of the object is named in a statement. -/
theorem symbol_mem_programNames (accepted : Accepted src) {symbol : OutputSymbol}
    (member : symbol ∈ objectSymbolList (sourcePass1 src).symtable) :
    symbol.name ∈ programNames (sourceInstructions src).data := by
  obtain ⟨entry, inTable, -, rfl⟩ := mem_objectSymbolList.mp member
  obtain ⟨event, inEvents, isName⟩ := exists_event_of_facts (entry_of_source accepted inTable).1
  obtain ⟨before, instr, after, split, isEvent⟩ := mem_programEvents.mp inEvents
  have inData : instr ∈ (sourceInstructions src).data := by
    rw [split]
    simp
  have sameName : (outputSymbol entry).name = event.name := isName.symm
  rw [sameName]
  refine mem_programNames inData ?_
  rcases event_name isEvent with isLabel | ⟨op, inOps, kind⟩
  · exact mem_names_of_label isLabel
  · exact mem_names_of_operand inOps (by rw [symbolName?, kind])

theorem noReservedSymbol_iff (accepted : Accepted src) :
    NoReservedSymbol src ↔ allUnreserved (programNames (sourceInstructions src).data) = true := by
  rw [allUnreserved_iff]
  constructor
  · intro unreserved name member
    obtain ⟨instr, inData, inNames⟩ := List.mem_flatMap.mp member
    rcases List.mem_append.mp inNames with isLabel | isOperand
    · exact unreserved.defined instr inData name (Option.mem_toList.mp isLabel)
    · obtain ⟨op, inOps, isName⟩ := List.mem_filterMap.mp isOperand
      exact unreserved.named instr inData op inOps name isName
  · intro unreserved
    exact ⟨fun instr inData name isLabel =>
        unreserved name (mem_programNames inData (mem_names_of_label isLabel)),
      fun instr inData op inOps name isName =>
        unreserved name (mem_programNames inData (mem_names_of_operand inOps isName)),
      fun symbol member => unreserved _ (symbol_mem_programNames accepted member)⟩

/-- The end of the file changes nothing. -/
theorem reservedBracketed_eof (lexemes : List Lexeme) (afterBracket : Bool) :
    reservedBracketed afterBracket (lexemes ++ [(.eof, [])]) =
      reservedBracketed afterBracket lexemes := by
  induction lexemes generalizing afterBracket with
  | nil => rfl
  | cons lexeme rest inductionHypothesis =>
      rw [List.cons_append, reservedBracketed, reservedBracketed, inductionHypothesis]

/-- The scan of the source decides the names of its statements. -/
theorem allUnreserved_of_spelled (parsed : errorHasAny (sourceParse src).errors = false)
    {pieces : List Piece} (spelled : Spelled .nazm src.data pieces) :
    reservedBracketed false (lexemes false pieces) =
      allUnreserved (programNames (sourceInstructions src).data) := by
  have tokens := (lexerLex_spelled spelled).2
  have isText : ProgramText .nazm (lexerLex src).tokens.data (sourceInstructions src).data :=
    parserParse_iff.mp ⟨parsed, rfl⟩
  have words : UnreservedWords (lexerLex src).tokens.data := by
    intro t member
    have inLexemes := List.mem_map_of_mem (f := Token.lexeme) member
    rw [tokens] at inLexemes
    rcases List.mem_append.mp inLexemes with inPieces | isEnd
    · exact unreservedWord_of_spelled spelled false _ inPieces
    · rw [List.mem_singleton.mp isEnd]
      rintro (other | other) <;> contradiction
  rw [← isText.scans words, tokens, reservedBracketed_eof]

/-- An accepted source has no symbol with a reserved name exactly when its
references with a reserved prefix stand directly after an opening bracket. -/
theorem reserved_names_exact (accepted : Accepted src) :
    NoReservedSymbol src ↔
      ∀ pieces, Spelled .nazm src.data pieces →
        reservedBracketed false (lexemes false pieces) = true := by
  rw [noReservedSymbol_iff accepted]
  constructor
  · intro unreserved pieces spelled
    exact (allUnreserved_of_spelled accepted.parsed spelled).trans unreserved
  · intro bracketed
    obtain ⟨pieces, spelled⟩ := lexerLex_iff.mp accepted.lexed
    exact (allUnreserved_of_spelled accepted.parsed spelled).symm.trans (bracketed pieces spelled)

end Reserved

/-- An address relative to the instruction pointer. -/
def pointerLoad : SourceBuffer := ⟨utf8 "أ: احسب_عنوان سجل_المركم، [مؤشر_التعليمة+أ]", none⟩

theorem reserved_names_exact_pointerLoad :
    NoReservedSymbol pointerLoad ↔
      ∀ pieces, Spelled .nazm pointerLoad.data pieces →
        reservedBracketed false (lexemes false pieces) = true :=
  reserved_names_exact (by decide +kernel)

/-- The instruction pointer declared as an external symbol. -/
def pointerSymbol : SourceBuffer := ⟨utf8 ".خارجي مؤشر_التعليمة", none⟩

theorem pointerSymbol_reserved : Accepted pointerSymbol ∧ ¬ NoReservedSymbol pointerSymbol := by
  refine ⟨by decide +kernel, fun unreserved => ?_⟩
  have written : ∃ symbol ∈ objectSymbolList (sourcePass1 pointerSymbol).symtable,
      hasReservedRegisterPrefix symbol.name = true := by decide +kernel
  obtain ⟨symbol, member, isReserved⟩ := written
  exact Bool.false_ne_true ((unreserved.written symbol member).symm.trans isReserved)

end Nazm.Output
