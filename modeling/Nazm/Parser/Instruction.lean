import Nazm.Encoder.Operand

/-!
Statements, as the parser hands them to the passes.

Owns `src/parser/instruction.h` and the operand count table of `parser.c`.

Does not own parsing.
-/

namespace Nazm.Parser

open Nazm.Encoder

/-- `DirectiveKind`. -/
inductive DirectiveKind where
  | none
  | text | data | readOnlyData | bss
  | int8 | int16 | int32 | int64
  | alignment | zeroSpace | nulString
  | global | local | external
  | debugFile | debugFileBytes | debugLocation
  | invalid
deriving DecidableEq, Repr

/-- `MAX_OPERANDS`. -/
def maxOperands : Nat := 3

/-- `Instruction`: one statement. `op_count` is the length of `ops`. Names are
byte strings without NUL; `none` is the null pointer. -/
structure Instruction where
  opcode : OpcodeEnum
  ops : List Operand
  label : Option (List UInt8)
  directive : Option (List UInt8)
  directiveKind : DirectiveKind
  line : Nat
  col : Nat
  endCol : Nat
  labelLine : Nat
  labelCol : Nat
  labelEndCol : Nat
deriving DecidableEq

/-- `InstructionList`, less the borrowed source text, which only the printer of
diagnostics reads. -/
structure InstructionList where
  data : List Instruction
  sourceName : Option (List UInt8)
deriving DecidableEq

/-! ## Operand counts -/

/-- `ARITY_TABLE`, less its sentinel. -/
def arityTable : List (OpcodeEnum × Nat × Nat) :=
  [ (.mov, 2, 2), (.lea, 2, 2), (.push, 1, 1), (.pop, 1, 1), (.add, 2, 2), (.sub, 2, 2),
    (.imul, 2, 3), (.idiv, 1, 1), (.inc, 1, 1), (.dec, 1, 1), (.neg, 1, 1), (.addsd, 2, 2),
    (.subsd, 2, 2), (.mulsd, 2, 2), (.divsd, 2, 2), (.ucomisd, 2, 2), (.xorpd, 2, 2),
    (.cvtsi2sd, 2, 2), (.cvttsd2si, 2, 2), (.and, 2, 2), (.or, 2, 2), (.xor, 2, 2), (.not, 1, 1),
    (.shl, 2, 2), (.shr, 2, 2), (.sar, 2, 2), (.cmp, 2, 2), (.test, 2, 2), (.jmp, 1, 1),
    (.call, 1, 1), (.ret, 0, 0), (.je, 1, 1), (.jne, 1, 1), (.jg, 1, 1), (.jge, 1, 1), (.jl, 1, 1),
    (.jle, 1, 1), (.jz, 1, 1), (.jnz, 1, 1), (.js, 1, 1), (.jns, 1, 1), (.syscall, 0, 0),
    (.nop, 0, 0), (.rdtsc, 0, 0), (.hlt, 0, 0), (.int, 1, 1) ]

/-- `get_arity`: the least and the greatest operand count. -/
def getArity (op : OpcodeEnum) : Nat × Nat :=
  match arityTable.find? fun entry => entry.1 = op with
  | some (_, least, greatest) => (least, greatest)
  | none => (0, maxOperands)

/-- An operand list whose length the opcode's arity admits. -/
def arityAdmits (op : OpcodeEnum) (ops : List Operand) : Prop :=
  (getArity op).1 ≤ ops.length ∧ ops.length ≤ (getArity op).2

instance (op : OpcodeEnum) (ops : List Operand) : Decidable (arityAdmits op ops) :=
  inferInstanceAs (Decidable (_ ∧ _))

end Nazm.Parser
