import Nazm.Library.FetchDecode
import Nazm.X86.Decoder

/-!
Instructions at an address.

Owns what becomes of displacements once it is known where an instruction
stands, and the decoder for code in memory.

Does not own what an instruction does.
-/

namespace X86

/-- An operand with addresses in place of displacements. -/
inductive PlacedOperand where
  | register (register : Register)
  /-- `[base + scale * index + disp]` over 64-bit registers. -/
  | memory (base : Option Nat) (index : Option (Nat × Nat)) (disp : Int)
  /-- The memory at an address. -/
  | memoryAt (address : Int)
  | immediate (pattern : Nat)
  /-- Where a branch goes. -/
  | target (address : Int)
deriving DecidableEq, Repr

/-- Where a branch operand goes. -/
def PlacedOperand.target? : PlacedOperand → Option Int
  | .target address => some address
  | _ => none

structure PlacedInstruction where
  operation : Operation
  width : Nat
  operands : List PlacedOperand
deriving DecidableEq, Repr

/-- An operand of an instruction that ends at `next`. -/
def Operand.place (next : Int) : Operand → PlacedOperand
  | .register r => .register r
  | .memory base index disp => .memory base index disp
  | .ripRelative disp => .memoryAt (next + disp)
  | .immediate pattern => .immediate pattern
  | .relative disp => .target (next + disp)

def Instruction.place (next : Int) (instruction : Instruction) : PlacedInstruction where
  operation := instruction.operation
  width := instruction.width
  operands := instruction.operands.map (Operand.place next)

/-- Decode what stands at an address. -/
def decodeAt : FetchDecode.Decoder PlacedInstruction := fun address code =>
  (decode code).map fun (instruction, rest) =>
    (instruction.place (address + (code.length - rest.length : Nat)), rest)

/-- Code that reads as one instruction wherever it stands. -/
theorem decodeAt_of_decode {code : List UInt8} {instruction : Instruction}
    (reads : ∀ rest, decode (code ++ rest) = some (instruction, rest)) (address : Int) :
    FetchDecode.DecodesAt decodeAt address code (instruction.place (address + code.length)) := by
  intro rest
  have length : (code ++ rest).length - rest.length = code.length := by
    rw [List.length_append, Nat.add_sub_cancel]
  rw [decodeAt, reads, Option.map_some]
  dsimp only
  rw [length]

end X86
