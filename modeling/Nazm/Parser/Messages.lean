import Nazm.Lexer.Messages
import Nazm.Parser.Statements

/-!
What the parser says of any token list.

Owns that the messages of the parser, and the names in the statements that it
returns, are UTF-8 where the values of the tokens are.

Does not own which token lists have errors.
-/

namespace Nazm.Parser

open Utf8
open Nazm.Encoder Nazm.Unicode Nazm.Diagnostics Nazm.Lexer

/-! ## Names -/

def OperandUtf8 (op : Operand) : Prop := ∀ name, symbolName? op = some name → WellFormed name

/-- The label, the directive and the symbols of a statement are UTF-8. -/
structure InstructionUtf8 (instr : Instruction) : Prop where
  label : ∀ name, instr.label = some name → WellFormed name
  directive : ∀ name, instr.directive = some name → WellFormed name
  operands : ∀ op ∈ instr.ops, OperandUtf8 op

/-- A parser whose tokens, messages and statements are UTF-8. -/
structure Spoken (p : Parser) : Prop where
  tokens : ∀ token ∈ p.tokens, WellFormed token.value
  messages : Utf8Messages p.errors
  out : ∀ instr ∈ p.out, InstructionUtf8 instr

namespace Spoken

variable {p : Parser}

theorem cur (spoken : Spoken p) : WellFormed (cur p).value := by
  unfold Parser.cur
  cases tokens : p.tokens with
  | nil => exact .nil
  | cons token rest => exact spoken.tokens token (by rw [tokens]; exact List.mem_cons_self)

/-- Moving the cursor forward. -/
theorem scan (spoken : Spoken p) {after : Parser} (scans : Scans p after)
    (messages : Utf8Messages after.errors) : Spoken after :=
  ⟨fun token member => spoken.tokens token (scans.tokens.subset member), messages,
    fun instr member => spoken.out instr (scans.out ▸ member)⟩

theorem advance (spoken : Spoken p) : Spoken (advance p) := by
  refine spoken.scan (advance_scans p) ?_
  unfold Parser.advance
  split
  · exact spoken.messages
  · exact spoken.messages

theorem syncToNewline (spoken : Spoken p) : Spoken (syncToNewline p) :=
  spoken.scan (syncToNewline_scans p) spoken.messages

theorem skipNewlines (spoken : Spoken p) : Spoken (skipNewlines p) :=
  spoken.scan (skipNewlines_scans p) spoken.messages

theorem skipNewline (spoken : Spoken p) : Spoken (skipNewline p) := by
  unfold Parser.skipNewline
  split
  · exact spoken.advance
  · exact spoken

theorem dropLine (spoken : Spoken p) : Spoken (dropLine p) := spoken.syncToNewline.skipNewline

theorem tokenError (spoken : Spoken p) (t : Token) {msg : List UInt8} (cut : CutText msg) :
    Spoken (tokenError p t msg) :=
  ⟨spoken.tokens, spoken.messages.add cut _ _ _ _, spoken.out⟩

theorem replacementError (spoken : Spoken p) {token : Token} (value : WellFormed token.value)
    (category : String) {replacement : List UInt8} (wellFormed : WellFormed replacement) :
    Spoken (replacementError p token (utf8 category) replacement) := by
  refine spoken.tokenError token (.snprintf 256 ?_)
  exact (((((wellFormed_utf8 _).append (wellFormed_utf8 _)).append
    (cString_wellFormed value)).append (wellFormed_utf8 _)).append wellFormed).append
    (wellFormed_utf8 _)

theorem pushInstr (spoken : Spoken p) {instr : Instruction} (isUtf8 : InstructionUtf8 instr) :
    Spoken (pushInstr p instr) := by
  refine ⟨spoken.tokens, spoken.messages, fun other member => ?_⟩
  rcases List.mem_append.mp member with earlier | pushed
  · exact spoken.out other earlier
  · rw [List.mem_singleton.mp pushed]
    exact isUtf8

end Spoken

/-! ## Operands -/

section Operands

variable {p : Parser}

end Operands

/-! ## Operand lists -/

def OperandsUtf8 (ops : List Operand) : Prop := ∀ op ∈ ops, OperandUtf8 op

theorem OperandsUtf8.snoc {ops : List Operand} (all : OperandsUtf8 ops) {op : Operand}
    (one : OperandUtf8 op) : OperandsUtf8 (ops ++ [op]) := by
  intro other member
  rcases List.mem_append.mp member with earlier | last
  · exact all other earlier
  · rw [List.mem_singleton.mp last]
    exact one

section Lines

variable {p : Parser} {instr : Instruction}

end Lines

end Nazm.Parser
