import Nazm.Encoder.Table
import Nazm.Encoder.Sse2

/-!
The encoder's public functions.

Owns `encoder_encode` and `encoder_instruction_size`.
-/

namespace Nazm.Encoder

/-- `encoder_encode`. `resolvedTarget` is the displacement of a jump or call. -/
def encoderEncode (opcode : OpcodeEnum) (ops : List Operand) (resolvedTarget : Int64) :
    EncodedInstruction :=
  match opcode with
  | .mov => if sse2OperandsUseXmm ops then sse2EncodeMove ops else encMov ops
  | .push => encPush ops
  | .pop => encPop ops
  | .lea => encLea ops
  | .movzx => encMovx ops false
  | .movsx => encMovx ops true
  | .add => encAlu ops 0x01 0
  | .sub => encAlu ops 0x29 5
  | .and => encAlu ops 0x21 4
  | .or => encAlu ops 0x09 1
  | .xor => encAlu ops 0x31 6
  | .cmp => encAlu ops 0x39 7
  | .imul => encImul ops
  | .idiv => encIdiv ops
  | .div => encDiv ops
  | .cqo => encCqo ops
  | .inc => encUnary ops 0
  | .dec => encUnary ops 1
  | .neg => encUnary ops 3
  | .not => encUnary ops 2
  | .addsd | .subsd | .mulsd | .divsd | .ucomisd | .xorpd | .cvtsi2sd | .cvttsd2si =>
      sse2Encode opcode ops
  | .test => encTest ops
  | .sete => encSetcc ops 0x94
  | .setne => encSetcc ops 0x95
  | .setg => encSetcc ops 0x9F
  | .setl => encSetcc ops 0x9C
  | .setge => encSetcc ops 0x9D
  | .setle => encSetcc ops 0x9E
  | .seta => encSetcc ops 0x97
  | .setb => encSetcc ops 0x92
  | .setae => encSetcc ops 0x93
  | .setbe => encSetcc ops 0x96
  | .setp => encSetcc ops 0x9A
  | .setnp => encSetcc ops 0x9B
  | .shl => encShift ops 4
  | .shr => encShift ops 5
  | .sar => encShift ops 7
  | .jmp => encJmp ops resolvedTarget
  | .call => encCall ops resolvedTarget
  | .ret => encRet
  | .je => encJcc ops resolvedTarget 0x84
  | .jne => encJcc ops resolvedTarget 0x85
  | .jg => encJcc ops resolvedTarget 0x8F
  | .jge => encJcc ops resolvedTarget 0x8D
  | .jl => encJcc ops resolvedTarget 0x8C
  | .jle => encJcc ops resolvedTarget 0x8E
  | .jz => encJcc ops resolvedTarget 0x84
  | .jnz => encJcc ops resolvedTarget 0x85
  | .js => encJcc ops resolvedTarget 0x88
  | .jns => encJcc ops resolvedTarget 0x89
  | .syscall => encSyscall
  | .nop => encNop
  | .rdtsc => encRdtsc
  | .hlt => encHlt
  | .int => encInt ops
  | .invalid => none

/-- `encoded.error ? MAX_INSTRUCTION_BYTES : encoded.len`. -/
def encodedSize (encoded : EncodedInstruction) : Nat :=
  match encoded with
  | some bytes => bytes.length
  | none => maxInstructionBytes

/-- The predicted size of PUSH and POP. -/
def sizeStack (ops : List Operand) : Nat :=
  match ops with
  | [op] =>
      match op.kind with
      | .reg r =>
          if regWidthBits r ≠ 64 then maxInstructionBytes
          else if regNeedsRex r then 2 else 1
      | _ => maxInstructionBytes
  | _ => maxInstructionBytes

/-- The predicted size of JMP and CALL: a register form, else `rel32`. -/
def sizeNear (ops : List Operand) : Nat :=
  match ops with
  | [op] =>
      match op.kind with
      | .reg r =>
          if regWidthBits r ≠ 64 then maxInstructionBytes
          else if regNeedsRex r then 3 else 2
      | _ => 5
  | _ => 5

def sizeInt (ops : List Operand) : Nat :=
  match ops with
  | [op] =>
      match op.kind with
      | .imm value => if immediateFitsU8 value then 2 else maxInstructionBytes
      | _ => maxInstructionBytes
  | _ => maxInstructionBytes

/-- `encoder_instruction_size`. -/
def encoderInstructionSize (opcode : OpcodeEnum) (ops : List Operand) : Nat :=
  match opcode with
  | .mov =>
      if !sse2OperandsUseXmm ops then encodedSize (encMov ops)
      else encodedSize (sse2EncodeMove ops)
  | .push | .pop => sizeStack ops
  | .lea => encodedSize (encLea ops)
  | .movzx | .movsx => encodedSize (encMovx ops (decide (opcode = .movsx)))
  | .add => encodedSize (encAlu ops 0x01 0)
  | .sub => encodedSize (encAlu ops 0x29 5)
  | .and => encodedSize (encAlu ops 0x21 4)
  | .or => encodedSize (encAlu ops 0x09 1)
  | .xor => encodedSize (encAlu ops 0x31 6)
  | .cmp => encodedSize (encAlu ops 0x39 7)
  | .imul => encodedSize (encImul ops)
  | .idiv | .div => encodedSize (if opcode = .idiv then encIdiv ops else encDiv ops)
  | .cqo => encodedSize (encCqo ops)
  | .inc | .dec | .neg | .not =>
      let ext :=
        if opcode = .inc then 0
        else if opcode = .dec then 1
        else if opcode = .neg then 3
        else 2
      encodedSize (encUnary ops ext)
  | .addsd | .subsd | .mulsd | .divsd | .ucomisd | .xorpd | .cvtsi2sd | .cvttsd2si =>
      encodedSize (sse2Encode opcode ops)
  | .test => encodedSize (encTest ops)
  | .sete | .setne | .setg | .setl | .setge | .setle | .seta | .setb | .setae | .setbe
  | .setp | .setnp =>
      let opcode2 :=
        if opcode = .sete then 0x94
        else if opcode = .setne then 0x95
        else if opcode = .setg then 0x9F
        else if opcode = .setl then 0x9C
        else if opcode = .setge then 0x9D
        else if opcode = .setle then 0x9E
        else if opcode = .seta then 0x97
        else if opcode = .setb then 0x92
        else if opcode = .setae then 0x93
        else if opcode = .setbe then 0x96
        else if opcode = .setp then 0x9A
        else 0x9B
      encodedSize (encSetcc ops opcode2)
  | .shl | .shr | .sar => encodedSize (encShift ops 4)
  | .jmp | .call => sizeNear ops
  | .je | .jne | .jg | .jge | .jl | .jle | .jz | .jnz | .js | .jns => 6
  | .ret => 1
  | .syscall => 2
  | .nop => 1
  | .rdtsc => 2
  | .hlt => 1
  | .int => sizeInt ops
  | .invalid => maxInstructionBytes

end Nazm.Encoder
