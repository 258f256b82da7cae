import Nazm.Encoder.Operand
import Nazm.X86.Instruction

/-!
What an instruction statement asks for, as a machine instruction.

Owns the abstract meaning of an opcode with its operands: operation, operand
width, and each operand in the processor's terms. It is stated from the opcode
names and the operand kinds alone.

Does not own the encoder: nothing here mentions a byte.
-/

namespace Nazm.Encoder

def registerMeaning : RegId → Option X86.Register
  | .gpr64 index => some (.gpr 64 index)
  | .gpr32 index => some (.gpr 32 index)
  | .gpr16 index => some (.gpr 16 index)
  | .gpr8 index => some (.gpr 8 index)
  | .xmm index => some (.xmm index)
  | .invalid => none

/-- The register of a register operand. -/
def Operand.register? (operand : Operand) : Option RegId :=
  match operand.kind with
  | .reg r => some r
  | _ => none

/-- The width of the first general-purpose register among the operands. -/
def generalWidth (ops : List Operand) : Nat :=
  match (ops.filterMap Operand.register?).find? regIsGpr with
  | some r => regWidthBits r
  | none => 0

/-- MOV moves a scalar double when one of its operands is an XMM register. -/
def movesScalar (ops : List Operand) : Bool :=
  (ops.filterMap Operand.register?).any regIsXmm

def operationMeaning (opcode : OpcodeEnum) (ops : List Operand) : Option X86.Operation :=
  match opcode with
  | .mov => some (if movesScalar ops then .movq else .mov)
  | .push => some .push
  | .pop => some .pop
  | .lea => some .lea
  | .movzx => some .movzx
  | .movsx => some .movsx
  | .add => some (.alu .add)
  | .sub => some (.alu .sub)
  | .imul => some .imul
  | .idiv => some .idiv
  | .div => some .div
  | .cqo => some .cqo
  | .inc => some .inc
  | .dec => some .dec
  | .neg => some .neg
  | .addsd => some .addsd
  | .subsd => some .subsd
  | .mulsd => some .mulsd
  | .divsd => some .divsd
  | .ucomisd => some .ucomisd
  | .xorpd => some .xorpd
  | .cvtsi2sd => some .cvtsi2sd
  | .cvttsd2si => some .cvttsd2si
  | .and => some (.alu .and)
  | .or => some (.alu .or)
  | .xor => some (.alu .xor)
  | .not => some .not
  | .shl => some (.shift .shl)
  | .shr => some (.shift .shr)
  | .sar => some (.shift .sar)
  | .cmp => some (.alu .cmp)
  | .test => some .test
  | .sete => some (.set .e)
  | .setne => some (.set .ne)
  | .setg => some (.set .g)
  | .setl => some (.set .l)
  | .setge => some (.set .ge)
  | .setle => some (.set .le)
  | .seta => some (.set .a)
  | .setb => some (.set .b)
  | .setae => some (.set .ae)
  | .setbe => some (.set .be)
  | .setp => some (.set .p)
  | .setnp => some (.set .np)
  | .jmp => some .jmp
  | .call => some .call
  | .ret => some .ret
  | .je | .jz => some (.jcc .e)
  | .jne | .jnz => some (.jcc .ne)
  | .jg => some (.jcc .g)
  | .jge => some (.jcc .ge)
  | .jl => some (.jcc .l)
  | .jle => some (.jcc .le)
  | .js => some (.jcc .s)
  | .jns => some (.jcc .ns)
  | .syscall => some .syscall
  | .nop => some .nop
  | .rdtsc => some .rdtsc
  | .hlt => some .hlt
  | .int => some .int
  | .invalid => none

/-- The operand width an instruction works at; 0 when it has none. -/
def widthMeaning (opcode : OpcodeEnum) (ops : List Operand) : Nat :=
  match opcode with
  | .mov => if movesScalar ops then 64 else generalWidth ops
  | .push | .pop | .lea | .jmp | .call
  | .je | .jne | .jg | .jge | .jl | .jle | .jz | .jnz | .js | .jns
  | .addsd | .subsd | .mulsd | .divsd | .ucomisd => 64
  | .xorpd => 128
  | .sete | .setne | .setg | .setl | .setge | .setle | .seta | .setb | .setae | .setbe
  | .setp | .setnp => 8
  | .cqo | .ret | .syscall | .nop | .rdtsc | .hlt | .int => 0
  | _ => generalWidth ops

/-- Shift counts and interrupt vectors are bytes; any other immediate has the
operand width. -/
def immediateWidth (opcode : OpcodeEnum) (ops : List Operand) : Nat :=
  match opcode with
  | .shl | .shr | .sar | .int => 8
  | _ => widthMeaning opcode ops

def isShift : OpcodeEnum → Bool
  | .shl | .shr | .sar => true
  | _ => false

/-- One operand. `target` is the displacement a branch asks for; `symbol` is
what stands in the field of any other symbolic operand, zero before linking. -/
def operandMeaning (opcode : OpcodeEnum) (width : Nat) (target symbol : Int) :
    OperandKind → Option X86.Operand
  | .reg r => (registerMeaning r).map .register
  | .imm value => some (.immediate (value.toInt % 2 ^ width).toNat)
  | .memReg base => some (.memory (some (regIndex base).toNat) none 0)
  | .memDisp base disp => some (.memory (some (regIndex base).toNat) none disp.toInt)
  | .memRipLabel _ => some (.ripRelative symbol)
  | .label _ =>
      if opcode = .mov then some (.immediate (symbol % 2 ^ 64).toNat) else some (.relative target)
  | .none | .string _ => none

/-- A shift count given as RCX stands for CL. -/
def countMeaning (width : Nat) : OperandKind → Option X86.Operand
  | .reg r => if r = .cl ∨ r = .rcx then some (.register (.gpr 8 1)) else none
  | kind => operandMeaning .shl width 0 0 kind

def operandsMeaning (opcode : OpcodeEnum) (ops : List Operand) (target symbol : Int) :
    Option (List X86.Operand) :=
  let width := immediateWidth opcode ops
  match isShift opcode, ops with
  | true, [operand, count] => do
      let operand ← operandMeaning opcode width target symbol operand.kind
      let count ← countMeaning width count.kind
      return [operand, count]
  | _, ops => ops.mapM fun operand => operandMeaning opcode width target symbol operand.kind

/-- The machine instruction a statement asks for. -/
def meaning (opcode : OpcodeEnum) (ops : List Operand) (target symbol : Int) :
    Option X86.Instruction := do
  let operation ← operationMeaning opcode ops
  let operands ← operandsMeaning opcode ops target symbol
  return ⟨operation, widthMeaning opcode ops, operands⟩

end Nazm.Encoder
