import Nazm.Encoder.Operand

/-!
Scalar SSE2 instruction forms.

Owns `src/encoder/sse2.c`, with its own emit helpers and its own address
encoder.
-/

namespace Nazm.Encoder

/-- `SseBuf`: the bytes emitted so far. -/
abbrev SseBuf := List UInt8

def sseEmit (buffer : SseBuf) (byte : UInt8) : SseBuf :=
  if buffer.length < maxInstructionBytes then buffer ++ [byte] else buffer

def sseEmit32 (buffer : SseBuf) (value : Int32) : SseBuf :=
  let buffer := sseEmit buffer (UInt8.ofInt (value.toInt >>> (0 : Nat)))
  let buffer := sseEmit buffer (UInt8.ofInt (value.toInt >>> (8 : Nat)))
  let buffer := sseEmit buffer (UInt8.ofInt (value.toInt >>> (16 : Nat)))
  sseEmit buffer (UInt8.ofInt (value.toInt >>> (24 : Nat)))

/-- `operand_is_memory`, with the base and `operand_displacement`. -/
def operandMemory : OperandKind → Option (RegId × Int32)
  | .memReg base => some (base, 0)
  | .memDisp base disp => some (base, disp)
  | _ => none

def emitRexIfNeeded (buffer : SseBuf) (width64 : Bool) (regField rmField : RegId) : SseBuf :=
  let rexR := decide (regField ≠ .invalid) && regNeedsRex regField
  let rexB := decide (rmField ≠ .invalid) && regNeedsRex rmField
  if rexRequired width64 rexR false rexB then
    sseEmit buffer (rexByte width64 rexR false rexB)
  else buffer

def emitMemoryAddress (buffer : SseBuf) (modrmReg : Nat) (base : RegId) (displacement : Int32) :
    SseBuf :=
  let baseField := regField base
  let needsSib := decide (baseField = 4)
  let rmField := if needsSib then 4 else baseField
  let emitSib := fun buffer : SseBuf =>
    if needsSib then sseEmit buffer (sibByte 0 4 baseField) else buffer
  if displacement = 0 ∧ baseField ≠ 5 then
    emitSib (sseEmit buffer (modrmByte 0 modrmReg rmField))
  else if -128 ≤ displacement.toInt ∧ displacement.toInt ≤ 127 then
    sseEmit (emitSib (sseEmit buffer (modrmByte 1 modrmReg rmField)))
      (UInt8.ofInt displacement.toInt)
  else
    sseEmit32 (emitSib (sseEmit buffer (modrmByte 2 modrmReg rmField))) displacement

/-- `valid_memory_base`: a memory operand over a 64-bit general register. -/
def validMemoryBase (operand : OperandKind) : Option (RegId × Int32) :=
  match operandMemory operand with
  | some (base, disp) =>
      if regIsGpr base && decide (regWidthBits base = 64) then some (base, disp) else none
  | none => none

def isXmmOperand (operand : Operand) : Bool :=
  match operand.kind with
  | .reg r => regIsXmm r
  | _ => false

def sse2OperandsUseXmm (ops : List Operand) : Bool := ops.any isXmmOperand

/-- The register-to-register tail shared by the two-operand forms: mandatory
prefix, REX, `0F opcode`, ModRM with mod 3. -/
def encodeXmmRegisters (mandatory opcode : UInt8) (width64 : Bool) (regOperand rmOperand : RegId) :
    EncodedInstruction :=
  let buffer := sseEmit [] mandatory
  let buffer := emitRexIfNeeded buffer width64 regOperand rmOperand
  let buffer := sseEmit (sseEmit buffer 0x0F) opcode
  some (sseEmit buffer (modrmByte 3 (regField regOperand) (regField rmOperand)))

/-- The register-and-memory tail of `sse2_encode_move`. -/
def encodeXmmMemory (mandatory opcode : UInt8) (regOperand base : RegId) (displacement : Int32) :
    EncodedInstruction :=
  let buffer := sseEmit [] mandatory
  let buffer := emitRexIfNeeded buffer false regOperand base
  let buffer := sseEmit (sseEmit buffer 0x0F) opcode
  some (emitMemoryAddress buffer (regField regOperand) base displacement)

def sse2EncodeMove (ops : List Operand) : EncodedInstruction :=
  match ops with
  | [destination, source] =>
      match destination.kind, source.kind with
      | .reg destination, .reg source =>
          if regIsXmm destination && regIsXmm source then
            encodeXmmRegisters 0xF3 0x7E false destination source
          else if regIsXmm destination && regIsGpr source && decide (regWidthBits source = 64) then
            encodeXmmRegisters 0x66 0x6E true destination source
          else if regIsGpr destination && decide (regWidthBits destination = 64) &&
              regIsXmm source then
            encodeXmmRegisters 0x66 0x7E true source destination
          else none
      | .reg destination, memory =>
          match validMemoryBase memory with
          | some (base, disp) =>
              if regIsXmm destination then encodeXmmMemory 0xF3 0x7E destination base disp
              else none
          | none => none
      | memory, .reg source =>
          match validMemoryBase memory with
          | some (base, disp) =>
              if regIsXmm source then encodeXmmMemory 0x66 0xD6 source base disp else none
          | none => none
      | _, _ => none
  | _ => none

def encodeXmmBinary (ops : List Operand) (mandatory opcode : UInt8) : EncodedInstruction :=
  match ops with
  | [destination, source] =>
      match destination.kind, source.kind with
      | .reg destination, .reg source =>
          if regIsXmm destination && regIsXmm source then
            encodeXmmRegisters mandatory opcode false destination source
          else none
      | _, _ => none
  | _ => none

def encodeCvtsi2sd (ops : List Operand) : EncodedInstruction :=
  match ops with
  | [destination, source] =>
      match destination.kind, source.kind with
      | .reg destination, .reg source =>
          if regIsXmm destination && regIsGpr source then
            let sourceWidth := regWidthBits source
            if sourceWidth ≠ 32 ∧ sourceWidth ≠ 64 then none
            else encodeXmmRegisters 0xF2 0x2A (decide (sourceWidth = 64)) destination source
          else none
      | _, _ => none
  | _ => none

def encodeCvttsd2si (ops : List Operand) : EncodedInstruction :=
  match ops with
  | [destination, source] =>
      match destination.kind, source.kind with
      | .reg destination, .reg source =>
          if regIsGpr destination && regIsXmm source then
            let destinationWidth := regWidthBits destination
            if destinationWidth ≠ 32 ∧ destinationWidth ≠ 64 then none
            else encodeXmmRegisters 0xF2 0x2C (decide (destinationWidth = 64)) destination source
          else none
      | _, _ => none
  | _ => none

def sse2Encode (opcode : OpcodeEnum) (ops : List Operand) : EncodedInstruction :=
  match opcode with
  | .addsd => encodeXmmBinary ops 0xF2 0x58
  | .subsd => encodeXmmBinary ops 0xF2 0x5C
  | .mulsd => encodeXmmBinary ops 0xF2 0x59
  | .divsd => encodeXmmBinary ops 0xF2 0x5E
  | .ucomisd => encodeXmmBinary ops 0x66 0x2E
  | .xorpd => encodeXmmBinary ops 0x66 0x57
  | .cvtsi2sd => encodeCvtsi2sd ops
  | .cvttsd2si => encodeCvttsd2si ops
  | _ => none

end Nazm.Encoder
