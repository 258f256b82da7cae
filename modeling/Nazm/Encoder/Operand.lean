import Mathlib.Algebra.Group.Int.Defs
import Mathlib.Algebra.GroupWithZero.Nat

/-!
Vocabulary of the encoder: register identities, operand kinds and opcodes.

Owns `src/encoder/encoder.h` and the register helpers, ModRM, SIB and REX
byte constructors of `modrm.c` and `rex.c`, and the representability checks of
`immediate.c`.

Does not own any instruction form.
-/

namespace Nazm.Encoder

/-! ## Register identities -/

/-- A run of registers is not empty, so its registers have numerals. -/
instance registersNonempty : NeZero 16 := ⟨by decide⟩

/-- `RegId`. The enumeration lists five runs of sixteen registers, each in
architectural order, so a register is its run and its index in it. -/
inductive RegId where
  | gpr64 (index : Fin 16)
  | gpr32 (index : Fin 16)
  | gpr16 (index : Fin 16)
  | gpr8 (index : Fin 16)
  | xmm (index : Fin 16)
  | invalid
deriving DecidableEq, Repr

/-- `REG_RCX`. -/
abbrev RegId.rcx : RegId := .gpr64 1

/-- `REG_CL`. -/
abbrev RegId.cl : RegId := .gpr8 1

/-- `reg_index`: architectural index within the class, or `-1`. -/
def regIndex : RegId → Int
  | .gpr64 index | .gpr32 index | .gpr16 index | .gpr8 index | .xmm index => index.val
  | .invalid => -1

/-- `reg_width_bits`. -/
def regWidthBits : RegId → Nat
  | .gpr64 _ => 64
  | .gpr32 _ => 32
  | .gpr16 _ => 16
  | .gpr8 _ => 8
  | .xmm _ => 128
  | .invalid => 0

def regIsGpr : RegId → Bool
  | .gpr64 _ | .gpr32 _ | .gpr16 _ | .gpr8 _ => true
  | .xmm _ | .invalid => false

def regIsXmm : RegId → Bool
  | .xmm _ => true
  | _ => false

/-- `reg_needs_rex`. -/
def regNeedsRex (r : RegId) : Bool := decide (8 ≤ regIndex r)

/-- `reg_requires_rex_byte`: SPL, BPL, SIL, DIL and above. -/
def regRequiresRexByte (r : RegId) : Bool :=
  decide (regWidthBits r = 8) && decide (4 ≤ regIndex r)

/-- `reg_field`: the 3-bit field, without the REX bit. -/
def regField (r : RegId) : Nat :=
  if 0 ≤ regIndex r then (regIndex r).toNat % 8 else 0

/-! ## ModRM, SIB and REX bytes -/

def modrmByte (mod reg rm : Nat) : UInt8 :=
  UInt8.ofNat (((mod &&& 3) <<< 6) ||| ((reg &&& 7) <<< 3) ||| (rm &&& 7))

def sibByte (scale index base : Nat) : UInt8 :=
  UInt8.ofNat (((scale &&& 3) <<< 6) ||| ((index &&& 7) <<< 3) ||| (base &&& 7))

def rexByte (w r x b : Bool) : UInt8 :=
  0x40 ||| (if w then 0x08 else 0) ||| (if r then 0x04 else 0) |||
    (if x then 0x02 else 0) ||| (if b then 0x01 else 0)

def rexRequired (w r x b : Bool) : Bool := w || r || x || b

/-! ## Representability of immediates -/

def immediateFitsI8 (value : Int64) : Bool :=
  decide (-128 ≤ value.toInt) && decide (value.toInt ≤ 127)

def immediateFitsI32 (value : Int64) : Bool :=
  decide (-2147483648 ≤ value.toInt) && decide (value.toInt ≤ 2147483647)

def immediateFitsU8 (value : Int64) : Bool :=
  decide (0 ≤ value.toInt) && decide (value.toInt ≤ 255)

/-! ## Operands -/

/-- `OperandKind` with the member of the union that the kind selects. Labels
and strings are byte strings; a label holds no NUL. -/
inductive OperandKind where
  | none
  | reg (reg : RegId)
  | imm (value : Int64)
  | memReg (base : RegId)
  | memDisp (base : RegId) (disp : Int32)
  | memRipLabel (label : List UInt8)
  | label (label : List UInt8)
  | string (data : List UInt8)
deriving DecidableEq

/-- `Operand`: a kind and the source span it was parsed from. -/
structure Operand where
  kind : OperandKind
  line : Nat
  col : Nat
  endCol : Nat
deriving DecidableEq

/-! ## Opcodes -/

/-- `OpcodeEnum`. -/
inductive OpcodeEnum where
  | mov | push | pop | lea | movzx | movsx
  | add | sub | imul | idiv | div | cqo | inc | dec | neg
  | addsd | subsd | mulsd | divsd | ucomisd | xorpd | cvtsi2sd | cvttsd2si
  | and | or | xor | not | shl | shr | sar
  | cmp | test
  | sete | setne | setg | setl | setge | setle
  | seta | setb | setae | setbe | setp | setnp
  | jmp | call | ret
  | je | jne | jg | jge | jl | jle | jz | jnz | js | jns
  | syscall | nop | rdtsc | hlt | int
  | invalid
deriving DecidableEq, Repr

/-- The enumerator's value, as diagnostics print it. -/
def OpcodeEnum.toNat : OpcodeEnum → Nat
  | .invalid => 0xFF
  | opcode => opcode.ctorIdx

/-- `MAX_INSTRUCTION_BYTES`. -/
def maxInstructionBytes : Nat := 15

/-- `EncodedInstruction`: the emitted bytes, or `none` for `error`. The
relocation members of the struct are never set and are left out. -/
abbrev EncodedInstruction := Option (List UInt8)

end Nazm.Encoder
