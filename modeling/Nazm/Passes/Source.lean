import Nazm.Parser.Statements
import Nazm.Passes.Pass2

/-!
From a source to the results of the passes.

Owns the chain of calls of `nazm_assemble_caught` in `src/api/api.c` up to pass
2, the sources it does not stop at, and the size limit of source files.

Does not own the writers.
-/

namespace Nazm.Passes

open Nazm.Parser Nazm.Lexer Nazm.Diagnostics

/-- `NAZM_API_MAX_SOURCE_SIZE`. -/
def nazmApiMaxSourceSize : Nat := 100 * 1024 * 1024

def sourceParse (src : SourceBuffer) : ParseResult := parserParse (lexerLex src).tokens

def sourceInstructions (src : SourceBuffer) : InstructionList := (sourceParse src).instructions

def sourcePass1 (src : SourceBuffer) : Pass1Result := pass1Run (sourceInstructions src)

def sourcePass2 (src : SourceBuffer) : Pass2Result :=
  pass2Run (sourceInstructions src) (sourcePass1 src)

/-- No stage up to pass 2 reports an error. -/
structure Accepted (src : SourceBuffer) : Prop where
  lexed : errorHasAny (lexerLex src).errors = false
  parsed : errorHasAny (sourceParse src).errors = false
  sized : errorHasAny (sourcePass1 src).errors = false
  encoded : errorHasAny (sourcePass2 src).errors = false

instance (src : SourceBuffer) : Decidable (Accepted src) :=
  decidable_of_iff
    (errorHasAny (lexerLex src).errors = false ∧ errorHasAny (sourceParse src).errors = false ∧
      errorHasAny (sourcePass1 src).errors = false ∧ errorHasAny (sourcePass2 src).errors = false)
    ⟨fun ⟨lexed, parsed, sized, encoded⟩ => ⟨lexed, parsed, sized, encoded⟩,
      fun accepted => ⟨accepted.lexed, accepted.parsed, accepted.sized, accepted.encoded⟩⟩

end Nazm.Passes
