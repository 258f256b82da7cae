import Nazm.Lexer.Extension
import Nazm.Output.Coff
import Nazm.Output.Elf64
import Nazm.Output.UpToSpans

/-!
Sources under an extended vocabulary.

Owns the pipeline over any word tables, and that one more instruction or
register name changes neither the statements nor the object of a source that
was accepted before.

Does not own the extensions of the tables.
-/

namespace Nazm.Output

open Nazm.Encoder Nazm.Parser Nazm.Lexer Nazm.Passes Nazm.Unicode Nazm.Diagnostics

/-! ## The pipeline over any tables -/

/-- The statements that the lexer and the parser read from a source. -/
def vocabularyInstructions (vocabulary : Vocabulary) (src : SourceBuffer) : InstructionList :=
  (@parserParse vocabulary (@lexerLex vocabulary src).tokens).instructions

/-- No stage over these tables reports an error. -/
structure AcceptedOver (vocabulary : Vocabulary) (src : SourceBuffer) : Prop where
  lexed : errorHasAny (@lexerLex vocabulary src).errors = false
  parsed : errorHasAny (@parserParse vocabulary (@lexerLex vocabulary src).tokens).errors = false
  program : ProgramAccepted (vocabularyInstructions vocabulary src)

/-- What the writers get over these tables. -/
def vocabularyOutput (vocabulary : Vocabulary) (src : SourceBuffer) : OutputInput :=
  listOutput (vocabularyInstructions vocabulary src) src.name

theorem vocabularyInstructions_nazm (src : SourceBuffer) :
    vocabularyInstructions .nazm src = sourceInstructions src := rfl

theorem acceptedOver_nazm {src : SourceBuffer} : AcceptedOver .nazm src ↔ Accepted src :=
  ⟨fun clean => ⟨clean.lexed, clean.parsed, clean.program.sized, clean.program.encoded⟩,
    fun accepted => ⟨accepted.lexed, accepted.parsed, accepted.program⟩⟩

/-! ## Extended tables -/

theorem lexemeRenamed_extended {name : List UInt8} (place : Place)
    (notPointer : name ≠ instructionPointerName) :
    LexemeRenamed id place (.labelRef, name) (.mnemonic, name) := by
  by_cases isOperand : place = .operands
  · subst isOperand
    exact @LexemeRenamed.symbol id name .labelRef .mnemonic rfl rfl (.inl rfl)
  · exact .stray isOperand fun _ => notPointer

theorem lexemesRenamed_extended {pieces pieces' : List Piece} {last : List Lexeme}
    (pairs : List.Forall₂ PieceExtended pieces pieces') (afterNewline : Bool) (place : Place) :
    LexemesRenamed id place (lexemes afterNewline pieces ++ last)
      (lexemes afterNewline pieces' ++ last) := by
  induction pairs generalizing afterNewline place with
  | nil => exact .same place last
  | @cons piece piece' pieces pieces' one _ inductionHypothesis =>
      rcases one with rfl | ⟨name, notPointer, rfl, rfl⟩
      · cases piece' with
        | blank => exact inductionHypothesis afterNewline place
        | comment => exact inductionHypothesis afterNewline place
        | newline =>
            cases afterNewline with
            | true => exact inductionHypothesis true place
            | false => exact .cons (.same _ _) (inductionHypothesis true _)
        | token lexeme =>
            rw [lexemes, lexemes]
            exact .cons (.same _ _) (inductionHypothesis _ _)
      · exact .cons (lexemeRenamed_extended _ notPointer) (inductionHypothesis _ _)

section Extended

variable {src : SourceBuffer} {larger : Vocabulary}

theorem tokensRenamed_extended (extension : Extension larger)
    (lexed : errorHasAny (@lexerLex .nazm src).errors = false) :
    errorHasAny (@lexerLex larger src).errors = false ∧
      TokensRenamed id .line (@lexerLex .nazm src).tokens.data
        (@lexerLex larger src).tokens.data := by
  obtain ⟨pieces, spelled⟩ := lexerLex_iff.mp lexed
  obtain ⟨pieces', spelled', pairs⟩ := spelled.extended extension
  obtain ⟨lexed', tokens'⟩ := lexerLex_spelled spelled'
  refine ⟨lexed', ?_⟩
  rw [TokensRenamed, (lexerLex_spelled spelled).2, tokens']
  exact lexemesRenamed_extended pairs false .line

/-- One more instruction or register name breaks no source: the statements of an
accepted source stay the same up to spans, and so do its objects. -/
theorem extension_keeps_source (accepted : Accepted src) (extension : Extension larger) :
    AcceptedOver larger src ∧
      SameStatements (sourceInstructions src) (vocabularyInstructions larger src) ∧
      outputWriteElf64 (vocabularyOutput larger src) = outputWriteElf64 (sourceOutput src) ∧
      outputWriteCoff (vocabularyOutput larger src) = outputWriteCoff (sourceOutput src) := by
  obtain ⟨lexed', renamed⟩ := tokensRenamed_extended extension accepted.lexed
  obtain ⟨parsed', same⟩ := parserParse_renamed extension.keeps renamed
    (acceptedOver_nazm.mpr accepted).parsed
  have sameStatements : SameStatements (sourceInstructions src)
      (vocabularyInstructions larger src) := by
    rw [← vocabularyInstructions_nazm]
    exact same
  have program := (programAccepted_of_spans sameStatements).mpr accepted.program
  have output : vocabularyOutput larger src = sourceOutput src :=
    listOutput_of_spans sameStatements accepted.program src.name
  exact ⟨⟨lexed', parsed', program⟩, sameStatements, by rw [output], by rw [output]⟩

/-- A loop to a label that becomes an instruction name. -/
def labelledLoop : SourceBuffer := ⟨utf8 "دورة: زد سجل_المركم\nاقفز دورة\n", none⟩

theorem extension_keeps_source_labelledLoop :
    ∃ larger, @keywordsLookup larger (utf8 "دورة") = .rdtsc ∧ AcceptedOver larger labelledLoop ∧
      SameStatements (sourceInstructions labelledLoop)
        (vocabularyInstructions larger labelledLoop) ∧
      outputWriteElf64 (vocabularyOutput larger labelledLoop) =
        outputWriteElf64 (sourceOutput labelledLoop) ∧
      outputWriteCoff (vocabularyOutput larger labelledLoop) =
        outputWriteCoff (sourceOutput labelledLoop) :=
  ⟨⟨keywordTable ++ [("دورة", .rdtsc)], regTable⟩, by decide +kernel,
    extension_keeps_source (by decide +kernel)
      (.instruction (List.append_nil _).symm (by decide +kernel) (by decide +kernel)
        (by decide +kernel) (by decide +kernel))⟩

end Extended

end Nazm.Output
