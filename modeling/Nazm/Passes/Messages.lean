import Nazm.Parser.Messages
import Nazm.Passes.Source

/-!
What the passes say of any source.

Owns that the messages of both passes are UTF-8 where the names of the
statements are, and with the lexer and the parser that every message about a
source is UTF-8.

Does not own which programs have errors.
-/

namespace Nazm.Passes

open Utf8
open Nazm.Encoder Nazm.Parser Nazm.Lexer Nazm.Symtable Nazm.Unicode Nazm.Diagnostics

section Messages

variable {instructions : InstructionList} {instr : Instruction} {errors : ErrorList}

section Walk

variable {state : Pass1State}

end Walk

section Operands

variable {resolution : Resolution} {op : Operand}

end Operands

section Turns

variable {pass1 : Pass1Result} {state : Pass2State}

end Turns

end Messages

/-! ## Sources -/

end Nazm.Passes
