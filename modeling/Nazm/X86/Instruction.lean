import Mathlib.Algebra.Group.Int.Defs
import Mathlib.Algebra.GroupWithZero.Nat

/-!
Machine instructions of x86-64 long mode, as a decoder reports them.

Owns the register, operand, operation and instruction types.

Does not own any byte encoding.
-/

namespace X86

/-- A register operand. `highByte` stands for AH, CH, DH, BH. -/
inductive Register where
  | gpr (width index : Nat)
  | highByte (index : Nat)
  | xmm (index : Nat)
deriving DecidableEq, Repr

/-- An instruction operand. -/
inductive Operand where
  | register (register : Register)
  /-- `[base + scale * index + disp]` over 64-bit registers. -/
  | memory (base : Option Nat) (index : Option (Nat × Nat)) (disp : Int)
  /-- `[rip + disp]`, relative to the end of the instruction. -/
  | ripRelative (disp : Int)
  /-- The bit pattern the processor uses, extended to the operand width. -/
  | immediate (pattern : Nat)
  /-- A branch displacement, relative to the end of the instruction. -/
  | relative (disp : Int)
deriving DecidableEq, Repr

/-- The sixteen condition codes, in encoding order. -/
inductive Condition where
  | o | no | b | ae | e | ne | be | a | s | ns | p | np | l | ge | le | g
deriving DecidableEq, Repr

/-- The condition with a given 4-bit encoding. -/
def Condition.ofCode : Nat → Condition
  | 0 => .o | 1 => .no | 2 => .b | 3 => .ae | 4 => .e | 5 => .ne | 6 => .be | 7 => .a
  | 8 => .s | 9 => .ns | 10 => .p | 11 => .np | 12 => .l | 13 => .ge | 14 => .le | _ => .g

/-- The eight two-operand arithmetic operations, in encoding order. -/
inductive AluOperation where
  | add | or | adc | sbb | and | sub | xor | cmp
deriving DecidableEq, Repr

def AluOperation.ofCode : Nat → AluOperation
  | 0 => .add | 1 => .or | 2 => .adc | 3 => .sbb | 4 => .and | 5 => .sub | 6 => .xor | _ => .cmp

/-- The shift and rotate operations, in encoding order; `/6` is an alias of SHL. -/
inductive ShiftOperation where
  | rol | ror | rcl | rcr | shl | shr | sar
deriving DecidableEq, Repr

def ShiftOperation.ofCode : Nat → ShiftOperation
  | 0 => .rol | 1 => .ror | 2 => .rcl | 3 => .rcr | 4 => .shl | 5 => .shr | 6 => .shl | _ => .sar

inductive Operation where
  | mov | push | pop | lea | movzx | movsx
  | alu (operation : AluOperation)
  | test | imul | mul | div | idiv | not | neg | inc | dec
  | shift (operation : ShiftOperation)
  | cqo | set (condition : Condition)
  | jmp | call | ret | jcc (condition : Condition)
  | syscall | nop | rdtsc | hlt | int
  | movq | addsd | mulsd | subsd | divsd | ucomisd | xorpd | cvtsi2sd | cvttsd2si
deriving DecidableEq, Repr

/-- A decoded instruction: what it does, the operand width it works at (0 when
it has none), and its operands, destination first. -/
structure Instruction where
  operation : Operation
  width : Nat
  operands : List Operand
deriving DecidableEq, Repr

end X86
