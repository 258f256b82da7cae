import Nazm.Encoder.Operand

/-!
Integer instruction forms.

Owns the `enc_*` functions of `src/encoder/table.c` and the emit helpers they
share.

Does not own the scalar SSE2 forms (`Sse2`) or the dispatch over opcodes
(`Encode`).
-/

namespace Nazm.Encoder

/-! ## Emit helpers -/

/-- `Buf`: the bytes emitted so far. -/
abbrev Buf := List UInt8

/-- `emit`: bytes past the fifteenth are dropped. -/
def emit (b : Buf) (byte : UInt8) : Buf :=
  if b.length < maxInstructionBytes then b ++ [byte] else b

def emitRex (b : Buf) (w r x bp : Bool) : Buf :=
  if rexRequired w r x bp then emit b (rexByte w r x bp) else b

def rexR (r : RegId) : Bool := regNeedsRex r

def rexB (r : RegId) : Bool := regNeedsRex r

def rf (r : RegId) : Nat := regField r

def emitRexForWidth (b : Buf) (width : Nat) (regField rmField : RegId) : Buf :=
  let r := decide (regField ≠ .invalid) && rexR regField
  let bp := decide (rmField ≠ .invalid) && rexB rmField
  let force := decide (width = 8) &&
    ((decide (regField ≠ .invalid) && regRequiresRexByte regField) ||
      (decide (rmField ≠ .invalid) && regRequiresRexByte rmField))
  if force || rexRequired (decide (width = 64)) r false bp then
    emit b (rexByte (decide (width = 64)) r false bp)
  else b

def emitWidthPrefix (b : Buf) (width : Nat) : Buf :=
  if width = 16 then emit b 0x66 else b

def validIntegerWidth (width : Nat) : Bool :=
  decide (width = 8) || decide (width = 16) || decide (width = 32) || decide (width = 64)

def sameRegisterWidth (left right : RegId) : Bool :=
  validIntegerWidth (regWidthBits left) && decide (regWidthBits right = regWidthBits left)

def emitRexForExtension (b : Buf) (destinationWidth : Nat) (destination source : RegId) : Buf :=
  let force := decide (regWidthBits source = 8) && regRequiresRexByte source
  let r := rexR destination
  let bp := rexB source
  if force || rexRequired (decide (destinationWidth = 64)) r false bp then
    emit b (rexByte (decide (destinationWidth = 64)) r false bp)
  else b

/-- `(uint8_t)(v >> shift)`: the shift is arithmetic, the cast keeps eight bits. -/
def byteAt (v : Int) (shift : Nat) : UInt8 := UInt8.ofInt (v >>> shift)

def emit32 (b : Buf) (v : Int) : Buf :=
  emit (emit (emit (emit b (byteAt v 0)) (byteAt v 8)) (byteAt v 16)) (byteAt v 24)

def emit64 (b : Buf) (v : Int) : Buf :=
  (List.range 8).foldl (fun b i => emit b (byteAt v (i * 8))) b

/-- `operand_is_mem`, with the base and the displacement (`operand_disp`) of a
memory operand. -/
def operandMem : OperandKind → Option (RegId × Int32)
  | .memReg base => some (base, 0)
  | .memDisp base disp => some (base, disp)
  | _ => none

/-! ## ModRM encoders -/

def emitRr (b : Buf) (opcode : UInt8) (dst src : RegId) (width : Nat) : Buf :=
  let b := emitWidthPrefix b width
  let b := emitRexForWidth b width src dst
  let b := emit b opcode
  emit b (modrmByte 3 (rf src) (rf dst))

def emitMemAddress (b : Buf) (modrmReg : Nat) (base : RegId) (disp : Int32) : Buf :=
  let needSib := decide (rf base = 4)
  let rmField := if needSib then 4 else rf base
  let emitSib := fun b : Buf => if needSib then emit b (sibByte 0 4 (rf base)) else b
  if disp = 0 ∧ rf base ≠ 5 then
    -- mod=00, no displacement (except RBP/R13, which must use mod=01)
    emitSib (emit b (modrmByte 0 modrmReg rmField))
  else if -128 ≤ disp.toInt ∧ disp.toInt ≤ 127 then
    emit (emitSib (emit b (modrmByte 1 modrmReg rmField))) (byteAt disp.toInt 0)
  else
    emit32 (emitSib (emit b (modrmByte 2 modrmReg rmField))) disp.toInt

def emitMem (b : Buf) (opcode : UInt8) (regField base : RegId) (disp : Int32) (width : Nat) : Buf :=
  let b := emitWidthPrefix b width
  let b := emitRexForWidth b width regField base
  let b := emit b opcode
  emitMemAddress b (rf regField) base disp

def emitRipRelativeMem (b : Buf) (opcode : UInt8) (regField : RegId) (width : Nat) : Buf :=
  let b := emitWidthPrefix b width
  let b := emitRexForWidth b width regField .invalid
  let b := emit b opcode
  let b := emit b (modrmByte 0 (rf regField) 5)
  emit32 b 0

/-! ## MOV and the extending moves -/

/-- An immediate in the signed or the unsigned range of an 8-, 16- or 32-bit
field. -/
def fitsField (value : Int64) (signedMin unsignedMax : Int) : Bool :=
  !(decide (value.toInt < signedMin) || decide (unsignedMax < value.toInt))

def encMovRegImm (dst : RegId) (value : Int64) : EncodedInstruction :=
  let width := regWidthBits dst
  let v := value.toInt
  if !validIntegerWidth width then none
  else if width = 8 then
    if !fitsField value (-128) 255 then none
    else
      let b := emitRexForWidth [] width .invalid dst
      let b := emit b (UInt8.ofNat (0xB0 + rf dst))
      some (emit b (byteAt v 0))
  else if width = 16 then
    if !fitsField value (-32768) 65535 then none
    else
      let b := emitWidthPrefix [] width
      let b := emitRexForWidth b width .invalid dst
      let b := emit b (UInt8.ofNat (0xB8 + rf dst))
      some (emit (emit b (byteAt v 0)) (byteAt v 8))
  else if width = 32 then
    if !fitsField value (-2147483648) 4294967295 then none
    else
      let b := emitRexForWidth [] width .invalid dst
      let b := emit b (UInt8.ofNat (0xB8 + rf dst))
      some (emit32 b v)
  else if immediateFitsI32 value then
    let b := emitRexForWidth [] width .invalid dst
    let b := emit b 0xC7
    let b := emit b (modrmByte 3 0 (rf dst))
    some (emit32 b v)
  else
    let b := emitRexForWidth [] width .invalid dst
    let b := emit b (UInt8.ofNat (0xB8 + rf dst))
    some (emit64 b v)

def encMovRegLabel (dst : RegId) : EncodedInstruction :=
  if regWidthBits dst ≠ 64 then none
  else
    let b := emitRexForWidth [] 64 .invalid dst
    let b := emit b (UInt8.ofNat (0xB8 + rf dst))
    some (emit64 b 0)

/-- The store or load opcode: the byte form when the register is 8 bits wide. -/
def opcodeForWidth (width : Nat) (byteForm wideForm : UInt8) : UInt8 :=
  if width = 8 then byteForm else wideForm

def encMov (ops : List Operand) : EncodedInstruction :=
  match ops with
  | [dst, src] =>
      match dst.kind, src.kind with
      | .reg dst, .imm value => encMovRegImm dst value
      | .reg dst, .label _ => encMovRegLabel dst
      | .reg dst, .reg src =>
          if !sameRegisterWidth dst src then none
          else
            let width := regWidthBits dst
            some (emitRr [] (opcodeForWidth width 0x88 0x89) dst src width)
      | .reg dst, .memRipLabel _ =>
          let width := regWidthBits dst
          if !validIntegerWidth width then none
          else some (emitRipRelativeMem [] (opcodeForWidth width 0x8A 0x8B) dst width)
      | .memRipLabel _, .reg src =>
          let width := regWidthBits src
          if !validIntegerWidth width then none
          else some (emitRipRelativeMem [] (opcodeForWidth width 0x88 0x89) src width)
      | .reg dst, source =>
          match operandMem source with
          | some (base, disp) =>
              let width := regWidthBits dst
              if !validIntegerWidth width || decide (regWidthBits base ≠ 64) then none
              else some (emitMem [] (opcodeForWidth width 0x8A 0x8B) dst base disp width)
          | none => none
      | destination, .reg src =>
          match operandMem destination with
          | some (base, disp) =>
              let width := regWidthBits src
              if !validIntegerWidth width || decide (regWidthBits base ≠ 64) then none
              else some (emitMem [] (opcodeForWidth width 0x88 0x89) src base disp width)
          | none => none
      | _, _ => none
  | _ => none

def encMovx (ops : List Operand) (signExtend : Bool) : EncodedInstruction :=
  match ops with
  | [dst, src] =>
      match dst.kind, src.kind with
      | .reg destination, .reg source =>
          let destinationWidth := regWidthBits destination
          let sourceWidth := regWidthBits source
          let supported :=
            (decide (sourceWidth = 8) && (decide (destinationWidth = 16) ||
              decide (destinationWidth = 32) || decide (destinationWidth = 64))) ||
            (decide (sourceWidth = 16) &&
              (decide (destinationWidth = 32) || decide (destinationWidth = 64))) ||
            (signExtend && decide (sourceWidth = 32) && decide (destinationWidth = 64))
          if !supported then none
          else
            let b := emitWidthPrefix [] destinationWidth
            let b := emitRexForExtension b destinationWidth destination source
            let b :=
              if signExtend && decide (sourceWidth = 32) then emit b 0x63
              else
                let b := emit b 0x0F
                if sourceWidth = 8 then emit b (if signExtend then 0xBE else 0xB6)
                else emit b (if signExtend then 0xBF else 0xB7)
            some (emit b (modrmByte 3 (rf destination) (rf source)))
      | _, _ => none
  | _ => none

/-! ## PUSH and POP -/

/-- The shared body of `enc_push` and `enc_pop`, which differ in the opcode. -/
def encStack (ops : List Operand) (opcode : Nat) : EncodedInstruction :=
  match ops with
  | [op] =>
      match op.kind with
      | .reg r =>
          if regWidthBits r ≠ 64 then none
          else
            let b := if rexB r then emit [] (rexByte false false false true) else []
            some (emit b (UInt8.ofNat (opcode + rf r)))
      | _ => none
  | _ => none

def encPush (ops : List Operand) : EncodedInstruction := encStack ops 0x50

def encPop (ops : List Operand) : EncodedInstruction := encStack ops 0x58

/-! ## ALU: ADD, SUB, AND, OR, XOR, CMP -/

/-- The range checks shared by `enc_alu`, `enc_imul` and `enc_test`: a 64-bit
operand takes a sign-extended imm32, a narrower one its signed or unsigned
range. -/
def immediateFitsWidth (width : Nat) (value : Int64) : Bool :=
  if width = 64 then immediateFitsI32 value
  else if width = 32 then fitsField value (-2147483648) 4294967295
  else if width = 16 then fitsField value (-32768) 65535
  else if width = 8 then fitsField value (-128) 255
  else true

/-- An immediate of the operand's width; a 64-bit operand takes 32 bits. -/
def emitImmediate (b : Buf) (width : Nat) (v : Int) : Buf :=
  if width = 8 then emit b (byteAt v 0)
  else if width = 16 then emit (emit b (byteAt v 0)) (byteAt v 8)
  else emit32 b v

def encAlu (ops : List Operand) (opRr : UInt8) (riExt : Nat) : EncodedInstruction :=
  match ops with
  | [dst, src] =>
      match dst.kind, src.kind with
      | .reg dst, .reg src =>
          if !sameRegisterWidth dst src then none
          else
            let width := regWidthBits dst
            some (emitRr [] (opcodeForWidth width (opRr - 1) opRr) dst src width)
      | .reg dst, .imm value =>
          let width := regWidthBits dst
          let v := value.toInt
          if !validIntegerWidth width then none
          else if !immediateFitsWidth width value then none
          else
            let b := emitWidthPrefix [] width
            let b := emitRexForWidth b width .invalid dst
            if width = 8 then
              let b := emit b 0x80
              let b := emit b (modrmByte 3 riExt (rf dst))
              some (emitImmediate b width v)
            else if immediateFitsI8 value then
              let b := emit b 0x83
              let b := emit b (modrmByte 3 riExt (rf dst))
              some (emit b (byteAt v 0))
            else
              let b := emit b 0x81
              let b := emit b (modrmByte 3 riExt (rf dst))
              some (emitImmediate b width v)
      | .reg dst, source =>
          match operandMem source with
          | some (base, disp) =>
              let width := regWidthBits dst
              if !validIntegerWidth width || decide (regWidthBits base ≠ 64) then none
              else
                let storeOpcode := opcodeForWidth width (opRr - 1) opRr
                some (emitMem [] (storeOpcode + 2) dst base disp width)
          | none => none
      | _, _ => none
  | _ => none

/-! ## INC, DEC, NEG, NOT -/

def encUnary (ops : List Operand) (ext : Nat) : EncodedInstruction :=
  match ops with
  | [op] =>
      match op.kind with
      | .reg r =>
          let width := regWidthBits r
          if !validIntegerWidth width then none
          else
            let b := emitWidthPrefix [] width
            let b := emitRexForWidth b width .invalid r
            if ext = 0 ∨ ext = 1 then
              let b := emit b (opcodeForWidth width 0xFE 0xFF)
              some (emit b (modrmByte 3 ext (rf r)))
            else
              let b := emit b (opcodeForWidth width 0xF6 0xF7)
              some (emit b (modrmByte 3 ext (rf r)))
      | _ => none
  | _ => none

/-! ## IMUL -/

def encImulTwo (dst : RegId) (source : OperandKind) : EncodedInstruction :=
  let width := regWidthBits dst
  if width = 8 then none
  else if !validIntegerWidth width then none
  else
    match source with
    | .reg src =>
        if !sameRegisterWidth dst src then none
        else
          let b := emitWidthPrefix [] width
          let b := emitRexForWidth b width dst src
          let b := emit (emit b 0x0F) 0xAF
          some (emit b (modrmByte 3 (rf dst) (rf src)))
    | source =>
        match operandMem source with
        | some (base, disp) =>
            if regWidthBits base ≠ 64 then none
            else
              let b := emitWidthPrefix [] width
              let b := emitRexForWidth b width dst base
              let b := emit (emit b 0x0F) 0xAF
              some (emitMemAddress b (rf dst) base disp)
        | none => none

def encImulThree (dst src : RegId) (value : Int64) : EncodedInstruction :=
  let width := regWidthBits dst
  let v := value.toInt
  if !sameRegisterWidth dst src then none
  else if width = 8 then none
  else if !immediateFitsWidth width value then none
  else
    let b := emitWidthPrefix [] width
    let b := emitRexForWidth b width dst src
    if immediateFitsI8 value then
      let b := emit b 0x6B
      let b := emit b (modrmByte 3 (rf dst) (rf src))
      some (emit b (byteAt v 0))
    else
      let b := emit b 0x69
      let b := emit b (modrmByte 3 (rf dst) (rf src))
      some (emitImmediate b width v)

def encImul (ops : List Operand) : EncodedInstruction :=
  match ops with
  | [dst, src] =>
      match dst.kind with
      | .reg dst => encImulTwo dst src.kind
      | _ => none
  | [dst, src, immediate] =>
      match dst.kind, src.kind, immediate.kind with
      | .reg dst, .reg src, .imm value => encImulThree dst src value
      | _, _, _ => none
  | _ => none

/-! ## IDIV, DIV and CQO -/

def encDivide (ops : List Operand) (ext : Nat) : EncodedInstruction :=
  match ops with
  | [op] =>
      match op.kind with
      | .reg r =>
          let width := regWidthBits r
          if !validIntegerWidth width then none
          else
            let b := emitWidthPrefix [] width
            let b := emitRexForWidth b width .invalid r
            let b := emit b (opcodeForWidth width 0xF6 0xF7)
            some (emit b (modrmByte 3 ext (rf r)))
      | _ => none
  | _ => none

def encIdiv (ops : List Operand) : EncodedInstruction := encDivide ops 7

def encDiv (ops : List Operand) : EncodedInstruction := encDivide ops 6

def encCqo (ops : List Operand) : EncodedInstruction :=
  if ops.length ≠ 0 then none else some (emit (emit [] 0x48) 0x99)

/-! ## Shifts: SHL, SHR, SAR -/

def encShift (ops : List Operand) (ext : Nat) : EncodedInstruction :=
  match ops with
  | [op, count] =>
      match op.kind with
      | .reg r =>
          let width := regWidthBits r
          if !validIntegerWidth width then none
          else
            match count.kind with
            | .imm value =>
                if !immediateFitsU8 value then none
                else
                  let b := emitWidthPrefix [] width
                  let b := emitRexForWidth b width .invalid r
                  if value.toInt = 1 then
                    let b := emit b (opcodeForWidth width 0xD0 0xD1)
                    some (emit b (modrmByte 3 ext (rf r)))
                  else
                    let b := emit b (opcodeForWidth width 0xC0 0xC1)
                    let b := emit b (modrmByte 3 ext (rf r))
                    some (emit b (byteAt value.toInt 0))
            | .reg countRegister =>
                if countRegister = .cl ∨ countRegister = .rcx then
                  let b := emitWidthPrefix [] width
                  let b := emitRexForWidth b width .invalid r
                  let b := emit b (opcodeForWidth width 0xD2 0xD3)
                  some (emit b (modrmByte 3 ext (rf r)))
                else none
            | _ => none
      | _ => none
  | _ => none

/-! ## TEST and SETcc -/

def encTest (ops : List Operand) : EncodedInstruction :=
  match ops with
  | [dst, src] =>
      match dst.kind, src.kind with
      | .reg dst, .reg src =>
          if !sameRegisterWidth dst src then none
          else
            let width := regWidthBits dst
            some (emitRr [] (opcodeForWidth width 0x84 0x85) dst src width)
      | .reg dst, .imm value =>
          let width := regWidthBits dst
          if !validIntegerWidth width then none
          else if !immediateFitsWidth width value then none
          else
            let b := emitWidthPrefix [] width
            let b := emitRexForWidth b width .invalid dst
            let b := emit b (opcodeForWidth width 0xF6 0xF7)
            let b := emit b (modrmByte 3 0 (rf dst))
            some (emitImmediate b width value.toInt)
      | _, _ => none
  | _ => none

def encSetcc (ops : List Operand) (opcode2 : UInt8) : EncodedInstruction :=
  match ops with
  | [op] =>
      match op.kind with
      | .reg r =>
          if regWidthBits r ≠ 8 then none
          else
            let b := emitRexForWidth [] 8 .invalid r
            let b := emit (emit b 0x0F) opcode2
            some (emit b (modrmByte 3 0 (rf r)))
      | operand =>
          match operandMem operand with
          | some (base, disp) =>
              if regWidthBits base ≠ 64 then none
              else
                let b := emitRexForWidth [] 8 .invalid base
                let b := emit (emit b 0x0F) opcode2
                -- SETcc uses the fixed /0 ModRM extension.
                some (emitMemAddress b 0 base disp)
          | none => none
  | _ => none

/-! ## Control flow -/

/-- The shared body of `enc_jmp` and `enc_call`: `FF /ext` for a register, the
near relative `opcode rel32` for a label. -/
def encNear (ops : List Operand) (resolvedDisp : Int64) (ext : Nat) (opcode : UInt8) :
    EncodedInstruction :=
  match ops with
  | [op] =>
      match op.kind with
      | .reg r =>
          if regWidthBits r ≠ 64 then none
          else
            let b := emitRex [] false false false (rexB r)
            let b := emit b 0xFF
            some (emit b (modrmByte 3 ext (rf r)))
      | .label _ =>
          if !immediateFitsI32 resolvedDisp then none
          else some (emit32 (emit [] opcode) resolvedDisp.toInt)
      | _ => none
  | _ => none

def encJmp (ops : List Operand) (resolvedDisp : Int64) : EncodedInstruction :=
  encNear ops resolvedDisp 4 0xE9

def encCall (ops : List Operand) (resolvedDisp : Int64) : EncodedInstruction :=
  encNear ops resolvedDisp 2 0xE8

def encJcc (ops : List Operand) (disp : Int64) (opcode2 : UInt8) : EncodedInstruction :=
  match ops with
  | [op] =>
      match op.kind with
      | .label _ =>
          if !immediateFitsI32 disp then none
          else some (emit32 (emit (emit [] 0x0F) opcode2) disp.toInt)
      | _ => none
  | _ => none

def encRet : EncodedInstruction := some (emit [] 0xC3)

def encNop : EncodedInstruction := some (emit [] 0x90)

def encRdtsc : EncodedInstruction := some (emit (emit [] 0x0F) 0x31)

def encHlt : EncodedInstruction := some (emit [] 0xF4)

def encSyscall : EncodedInstruction := some (emit (emit [] 0x0F) 0x05)

def encInt (ops : List Operand) : EncodedInstruction :=
  match ops with
  | [op] =>
      match op.kind with
      | .imm value =>
          if !immediateFitsU8 value then none
          else some (emit (emit [] 0xCD) (byteAt value.toInt 0))
      | _ => none
  | _ => none

/-! ## LEA -/

def encLea (ops : List Operand) : EncodedInstruction :=
  match ops with
  | [dst, src] =>
      match dst.kind with
      | .reg dst =>
          match src.kind with
          | .memRipLabel _ =>
              if regWidthBits dst ≠ 64 then none
              else some (emitRipRelativeMem [] 0x8D dst 64)
          | source =>
              match operandMem source with
              | some (base, disp) =>
                  if regWidthBits dst ≠ 64 ∨ regWidthBits base ≠ 64 then none
                  else some (emitMem [] 0x8D dst base disp 64)
              | none => none
      | _ => none
  | _ => none

end Nazm.Encoder
