import Nazm.Library.LittleEndian
import Nazm.X86.Instruction

/-!
A reference decoder for the x86-64 long-mode encoding.

Owns the reading of legacy prefixes, REX, opcode, ModRM, SIB, displacement and
immediate bytes, in the order the architecture gives them, for the integer
instructions and the scalar double-precision instructions of `Operation`.

Does not own segment, lock and address-size prefixes, VEX and EVEX forms, or
any opcode outside the table below; those bytes decode to nothing.
-/

namespace X86

/-! ## Prefixes -/

/-- The legacy prefixes that select an operand size or an opcode. -/
structure LegacyPrefixes where
  operandSize : Bool
  repne : Bool
  rep : Bool
deriving DecidableEq, Repr

/-- The four extension bits of a REX prefix; all clear when there is none. -/
structure Rex where
  w : Bool
  r : Bool
  x : Bool
  b : Bool
deriving DecidableEq, Repr

/-- Everything that stands before the opcode. -/
structure Context where
  legacy : LegacyPrefixes
  rexPresent : Bool
  rex : Rex
deriving DecidableEq, Repr

def noLegacyPrefixes : LegacyPrefixes := ⟨false, false, false⟩

def noRex : Rex := ⟨false, false, false, false⟩

def readLegacyPrefixes (legacy : LegacyPrefixes) : List UInt8 → LegacyPrefixes × List UInt8
  | 0x66 :: code => readLegacyPrefixes { legacy with operandSize := true } code
  | 0xF2 :: code => readLegacyPrefixes { legacy with repne := true } code
  | 0xF3 :: code => readLegacyPrefixes { legacy with rep := true } code
  | code => (legacy, code)

def bitSet (byte : UInt8) (position : Nat) : Bool := decide (byte.toNat / 2 ^ position % 2 = 1)

/-- A REX prefix is a byte `0x40`–`0x4F` right before the opcode. -/
def readRex : List UInt8 → Option Rex × List UInt8
  | [] => (none, [])
  | byte :: code =>
      if byte.toNat / 16 = 4 then
        (some ⟨bitSet byte 3, bitSet byte 2, bitSet byte 1, bitSet byte 0⟩, code)
      else (none, byte :: code)

/-- The width of an operand whose size follows REX.W and the 0x66 prefix. -/
def Context.operandWidth (context : Context) : Nat :=
  if context.rex.w then 64 else if context.legacy.operandSize then 16 else 32

/-- The byte form of an opcode works at 8 bits, the other at the operand width. -/
def Context.formWidth (context : Context) (byteForm : Bool) : Nat :=
  if byteForm then 8 else context.operandWidth

/-! ## Little-endian fields -/

def readUnsigned (count : Nat) (code : List UInt8) : Option (Nat × List UInt8) :=
  if code.length < count then none
  else some (LittleEndian.value (code.take count), code.drop count)

def readSigned (count : Nat) (code : List UInt8) : Option (Int × List UInt8) :=
  (readUnsigned count code).map fun (number, code) =>
    (LittleEndian.signed (8 * count) number, code)

/-- An immediate of `count` bytes, sign-extended to the operand width. -/
def readImmediate (count width : Nat) (code : List UInt8) : Option (Operand × List UInt8) :=
  (readSigned count code).map fun (number, code) =>
    (.immediate (number % 2 ^ width).toNat, code)

/-- The bytes of an immediate of the operand size: at most four. -/
def immediateBytes (width : Nat) : Nat := min width 32 / 8

/-! ## ModRM -/

/-- A register number with its REX extension bit. -/
def extend (high : Bool) (field : Nat) : Nat := if high then 8 + field else field

/-- Without REX, byte registers 4 to 7 are AH, CH, DH and BH. -/
def generalRegister (context : Context) (width index : Nat) : Register :=
  if width = 8 ∧ context.rexPresent = false ∧ 4 ≤ index ∧ index < 8 then .highByte (index - 4)
  else .gpr width index

def readDisplacement (mod : Nat) (code : List UInt8) : Option (Int × List UInt8) :=
  match mod with
  | 0 => some (0, code)
  | 1 => readSigned 1 code
  | _ => readSigned 4 code

/-- The memory operand of a ModRM byte with `mod ≠ 3`. -/
def readMemory (rex : Rex) (mod rm : Nat) (code : List UInt8) : Option (Operand × List UInt8) :=
  if rm = 4 then
    match code with
    | [] => none
    | sib :: code =>
        let number := extend rex.x (sib.toNat / 8 % 8)
        let index := if number = 4 then none else some (number, 2 ^ (sib.toNat / 64))
        if mod = 0 ∧ sib.toNat % 8 = 5 then
          (readSigned 4 code).map fun (disp, code) => (.memory none index disp, code)
        else
          (readDisplacement mod code).map fun (disp, code) =>
            (.memory (some (extend rex.b (sib.toNat % 8))) index disp, code)
  else if mod = 0 ∧ rm = 5 then
    (readSigned 4 code).map fun (disp, code) => (.ripRelative disp, code)
  else
    (readDisplacement mod code).map fun (disp, code) =>
      (.memory (some (extend rex.b rm)) none disp, code)

/-- The operands a ModRM byte selects: the `/digit`, the number in the reg
field with its extension, and the register or memory operand. -/
structure ModRm where
  digit : Nat
  reg : Nat
  rm : Operand
deriving DecidableEq, Repr

def readModRm (context : Context) (rmRegister : Nat → Register) :
    List UInt8 → Option (ModRm × List UInt8)
  | [] => none
  | byte :: code =>
      let mod := byte.toNat / 64
      let reg := byte.toNat / 8 % 8
      let rm := byte.toNat % 8
      if mod = 3 then
        some (⟨reg, extend context.rex.r reg,
          .register (rmRegister (extend context.rex.b rm))⟩, code)
      else
        (readMemory context.rex mod rm code).map fun (operand, code) =>
          (⟨reg, extend context.rex.r reg, operand⟩, code)

/-! ## Instruction forms -/

abbrev Result := Option (Instruction × List UInt8)

/-- `op r/m, r`. -/
def formRmReg (operation : Operation) (width : Nat) (context : Context) (code : List UInt8) :
    Result :=
  (readModRm context (generalRegister context width) code).map fun (fields, code) =>
    (⟨operation, width, [fields.rm, .register (generalRegister context width fields.reg)]⟩, code)

/-- `op r, r/m`, with a source of its own width. -/
def formRegRm (operation : Operation) (width sourceWidth : Nat) (context : Context)
    (code : List UInt8) : Result :=
  (readModRm context (generalRegister context sourceWidth) code).map fun (fields, code) =>
    (⟨operation, width, [.register (generalRegister context width fields.reg), fields.rm]⟩, code)

/-- `op r/m`, where the `/digit` selects the operation. -/
def formRm (operation : Nat → Option Operation) (width : Nat) (context : Context)
    (code : List UInt8) : Result := do
  let (fields, code) ← readModRm context (generalRegister context width) code
  let operation ← operation fields.digit
  return (⟨operation, width, [fields.rm]⟩, code)

/-- `op r/m, imm`, with a sign-extended immediate of `count` bytes. -/
def formRmImmediate (operation : Nat → Option Operation) (width count : Nat) (context : Context)
    (code : List UInt8) : Result := do
  let (fields, code) ← readModRm context (generalRegister context width) code
  let operation ← operation fields.digit
  let (immediate, code) ← readImmediate count width code
  return (⟨operation, width, [fields.rm, immediate]⟩, code)

/-- `op r/m, imm8` with an unsigned shift count. -/
def formShiftImmediate (width : Nat) (context : Context) (code : List UInt8) : Result := do
  let (fields, code) ← readModRm context (generalRegister context width) code
  let (count, code) ← readUnsigned 1 code
  return (⟨.shift (.ofCode fields.digit), width, [fields.rm, .immediate count]⟩, code)

/-- A shift by a fixed operand: the constant 1 or CL. -/
def formShiftFixed (count : Operand) (width : Nat) (context : Context) (code : List UInt8) :
    Result :=
  (readModRm context (generalRegister context width) code).map fun (fields, code) =>
    (⟨.shift (.ofCode fields.digit), width, [fields.rm, count]⟩, code)

/-- `imul r, r/m, imm`. -/
def formRegRmImmediate (width count : Nat) (context : Context) (code : List UInt8) : Result := do
  let (fields, code) ← readModRm context (generalRegister context width) code
  let (immediate, code) ← readImmediate count width code
  return (⟨.imul, width,
    [.register (generalRegister context width fields.reg), fields.rm, immediate]⟩, code)

/-- A register in the low three opcode bits. -/
def opcodeRegister (context : Context) (width opcode : Nat) : Operand :=
  .register (generalRegister context width (extend context.rex.b (opcode % 8)))

/-- A near branch with a 32-bit displacement. -/
def formRelative (operation : Operation) (code : List UInt8) : Result :=
  (readSigned 4 code).map fun (disp, code) => (⟨operation, 64, [.relative disp]⟩, code)

/-- Scalar forms `op xmm, xmm/m`. -/
def formXmmRm (operation : Operation) (width : Nat) (context : Context) (code : List UInt8) :
    Result :=
  (readModRm context .xmm code).map fun (fields, code) =>
    (⟨operation, width, [.register (.xmm fields.reg), fields.rm]⟩, code)

/-! ## Opcode maps -/

def unaryOperation : Nat → Option Operation
  | 2 => some .not
  | 3 => some .neg
  | 4 => some .mul
  | 5 => some .imul
  | 6 => some .div
  | 7 => some .idiv
  | _ => none

/-- Group 3 (`F6`, `F7`): `/0` takes an immediate, the others do not. -/
def formGroup3 (width : Nat) (context : Context) (code : List UInt8) : Result := do
  let (fields, code) ← readModRm context (generalRegister context width) code
  if fields.digit = 0 then
    let (immediate, code) ← readImmediate (immediateBytes width) width code
    return (⟨.test, width, [fields.rm, immediate]⟩, code)
  else
    let operation ← unaryOperation fields.digit
    return (⟨operation, width, [fields.rm]⟩, code)

/-- Group 5 (`FF`): INC and DEC at the operand width; CALL and JMP at 64 bits. -/
def formGroup5 (context : Context) (code : List UInt8) : Result := do
  let (fields, _) ← readModRm context (generalRegister context 64) code
  match fields.digit with
  | 0 => formRm (fun _ => some .inc) context.operandWidth context code
  | 1 => formRm (fun _ => some .dec) context.operandWidth context code
  | 2 => formRm (fun _ => some .call) 64 context code
  | 4 => formRm (fun _ => some .jmp) 64 context code
  | _ => none

/-- The one-byte opcode map. -/
def decodePrimary (context : Context) (opcode : Nat) (code : List UInt8) : Result :=
  let width := context.formWidth (opcode % 2 = 0)
  if opcode < 0x40 then
    let operation := Operation.alu (.ofCode (opcode / 8))
    match opcode % 8 with
    | 0 | 1 => formRmReg operation width context code
    | 2 | 3 => formRegRm operation width width context code
    | _ => none
  else
    match opcode with
    | 0x50 | 0x51 | 0x52 | 0x53 | 0x54 | 0x55 | 0x56 | 0x57 =>
        some (⟨.push, 64, [opcodeRegister context 64 opcode]⟩, code)
    | 0x58 | 0x59 | 0x5A | 0x5B | 0x5C | 0x5D | 0x5E | 0x5F =>
        some (⟨.pop, 64, [opcodeRegister context 64 opcode]⟩, code)
    | 0x63 => formRegRm .movsx context.operandWidth 32 context code
    | 0x69 => formRegRmImmediate context.operandWidth (immediateBytes context.operandWidth)
        context code
    | 0x6B => formRegRmImmediate context.operandWidth 1 context code
    | 0x80 => formRmImmediate (fun digit => some (.alu (.ofCode digit))) 8 1 context code
    | 0x81 => formRmImmediate (fun digit => some (.alu (.ofCode digit))) context.operandWidth
        (immediateBytes context.operandWidth) context code
    | 0x83 => formRmImmediate (fun digit => some (.alu (.ofCode digit))) context.operandWidth 1
        context code
    | 0x84 | 0x85 => formRmReg .test width context code
    | 0x88 | 0x89 => formRmReg .mov width context code
    | 0x8A | 0x8B => formRegRm .mov width width context code
    | 0x8D => formRegRm .lea context.operandWidth context.operandWidth context code
    | 0x90 => if context.rex.b then none else some (⟨.nop, 0, []⟩, code)
    | 0x99 => if context.rex.w then some (⟨.cqo, 0, []⟩, code) else none
    | 0xB0 | 0xB1 | 0xB2 | 0xB3 | 0xB4 | 0xB5 | 0xB6 | 0xB7 =>
        (readImmediate 1 8 code).map fun (immediate, code) =>
          (⟨.mov, 8, [opcodeRegister context 8 opcode, immediate]⟩, code)
    | 0xB8 | 0xB9 | 0xBA | 0xBB | 0xBC | 0xBD | 0xBE | 0xBF =>
        let width := context.operandWidth
        (readImmediate (width / 8) width code).map fun (immediate, code) =>
          (⟨.mov, width, [opcodeRegister context width opcode, immediate]⟩, code)
    | 0xC0 | 0xC1 => formShiftImmediate width context code
    | 0xC3 => some (⟨.ret, 0, []⟩, code)
    | 0xC6 => formRmImmediate (fun digit => if digit = 0 then some .mov else none) 8 1 context code
    | 0xC7 => formRmImmediate (fun digit => if digit = 0 then some .mov else none)
        context.operandWidth (immediateBytes context.operandWidth) context code
    | 0xCD => (readUnsigned 1 code).map fun (vector, code) =>
        (⟨.int, 0, [.immediate vector]⟩, code)
    | 0xD0 | 0xD1 => formShiftFixed (.immediate 1) width context code
    | 0xD2 | 0xD3 => formShiftFixed (.register (.gpr 8 1)) width context code
    | 0xE8 => formRelative .call code
    | 0xE9 => formRelative .jmp code
    | 0xF4 => some (⟨.hlt, 0, []⟩, code)
    | 0xF6 | 0xF7 => formGroup3 width context code
    | 0xFE => formRm (fun digit => if digit = 0 then some .inc
        else if digit = 1 then some .dec else none) 8 context code
    | 0xFF => formGroup5 context code
    | _ => none

/-- The two-byte opcode map, after `0F`. A mandatory prefix selects among the
scalar forms. -/
def decodeSecondary (context : Context) (opcode : Nat) (code : List UInt8) : Result :=
  let legacy := context.legacy
  match opcode with
  | 0x05 => some (⟨.syscall, 0, []⟩, code)
  | 0x31 => some (⟨.rdtsc, 0, []⟩, code)
  | 0x2A =>
      if legacy.repne then
        let width := if context.rex.w then 64 else 32
        (readModRm context (generalRegister context width) code).map fun (fields, code) =>
          (⟨.cvtsi2sd, width, [.register (.xmm fields.reg), fields.rm]⟩, code)
      else none
  | 0x2C =>
      if legacy.repne then
        let width := if context.rex.w then 64 else 32
        (readModRm context .xmm code).map fun (fields, code) =>
          (⟨.cvttsd2si, width,
            [.register (generalRegister context width fields.reg), fields.rm]⟩, code)
      else none
  | 0x2E => if legacy.operandSize then formXmmRm .ucomisd 64 context code else none
  | 0x57 => if legacy.operandSize then formXmmRm .xorpd 128 context code else none
  | 0x58 => if legacy.repne then formXmmRm .addsd 64 context code else none
  | 0x59 => if legacy.repne then formXmmRm .mulsd 64 context code else none
  | 0x5C => if legacy.repne then formXmmRm .subsd 64 context code else none
  | 0x5E => if legacy.repne then formXmmRm .divsd 64 context code else none
  | 0x6E =>
      if legacy.operandSize && context.rex.w then
        (readModRm context (generalRegister context 64) code).map fun (fields, code) =>
          (⟨.movq, 64, [.register (.xmm fields.reg), fields.rm]⟩, code)
      else none
  | 0x7E =>
      if legacy.rep then formXmmRm .movq 64 context code
      else if legacy.operandSize && context.rex.w then
        (readModRm context (generalRegister context 64) code).map fun (fields, code) =>
          (⟨.movq, 64, [fields.rm, .register (.xmm fields.reg)]⟩, code)
      else none
  | 0xD6 =>
      if legacy.operandSize then
        (readModRm context .xmm code).map fun (fields, code) =>
          (⟨.movq, 64, [fields.rm, .register (.xmm fields.reg)]⟩, code)
      else none
  | 0xAF => formRegRm .imul context.operandWidth context.operandWidth context code
  | 0xB6 => formRegRm .movzx context.operandWidth 8 context code
  | 0xB7 => formRegRm .movzx context.operandWidth 16 context code
  | 0xBE => formRegRm .movsx context.operandWidth 8 context code
  | 0xBF => formRegRm .movsx context.operandWidth 16 context code
  | opcode =>
      if opcode / 16 = 8 then formRelative (.jcc (.ofCode (opcode % 16))) code
      else if opcode / 16 = 9 then
        formRm (fun _ => some (.set (.ofCode (opcode % 16)))) 8 context code
      else none

/-- The opcode, once everything before it has been read. -/
def decodeOpcode (context : Context) : List UInt8 → Result
  | [] => none
  | 0x0F :: [] => none
  | 0x0F :: opcode :: code => decodeSecondary context opcode.toNat code
  | opcode :: code => decodePrimary context opcode.toNat code

/-- One instruction from the front of a byte string, and the bytes after it. -/
def decode (code : List UInt8) : Result :=
  let (legacy, code) := readLegacyPrefixes noLegacyPrefixes code
  let (rex, code) := readRex code
  decodeOpcode ⟨legacy, rex.isSome, rex.getD noRex⟩ code

end X86
