import Nazm.Encoder.DecodeEncode
import Nazm.Encoder.Size
import Nazm.Passes.Pass2

/-!
Where an encoded instruction keeps the field of its symbolic operand.

Owns, for branches, MOV with a symbol and RIP-relative operands, the split of
the bytes into what the encoder fixes and the field, and the reading of the
bytes with any other field in its place.

Does not own what pass 2 or a linker writes there.
-/

namespace Nazm.Passes

open LittleEndian
open Nazm.Encoder Nazm.Parser

/-! ## Instructions without a RIP-relative operand -/

theorem notRip_of_operandMem {op : Operand} {address : RegId × Int32}
    (memory : operandMem op.kind = some address) : isRipRelativeSymbolOperand op = false := by
  unfold isRipRelativeSymbolOperand
  split
  · next kind =>
      rw [kind] at memory
      contradiction
  · rfl

/-- No operand is RIP-relative. -/
def RipFree (ops : List Operand) : Prop := ops.any isRipRelativeSymbolOperand = false

theorem encMovx_ripFree {ops : List Operand} {signExtend : Bool} {bytes : List UInt8}
    (encoded : encMovx ops signExtend = some bytes) : RipFree ops := by
  unfold encMovx at encoded
  grind [RipFree, isRipRelativeSymbolOperand]

theorem encStack_ripFree {ops : List Operand} {opcode : Nat} {bytes : List UInt8}
    (encoded : encStack ops opcode = some bytes) : RipFree ops := by
  unfold encStack at encoded
  grind [RipFree, isRipRelativeSymbolOperand]

theorem encAlu_ripFree {ops : List Operand} {opRr : UInt8} {riExt : Nat} {bytes : List UInt8}
    (encoded : encAlu ops opRr riExt = some bytes) : RipFree ops := by
  unfold encAlu at encoded
  grind [RipFree, isRipRelativeSymbolOperand, notRip_of_operandMem]

theorem encUnary_ripFree {ops : List Operand} {ext : Nat} {bytes : List UInt8}
    (encoded : encUnary ops ext = some bytes) : RipFree ops := by
  unfold encUnary at encoded
  grind [RipFree, isRipRelativeSymbolOperand]

theorem encImul_ripFree {ops : List Operand} {bytes : List UInt8}
    (encoded : encImul ops = some bytes) : RipFree ops := by
  unfold encImul encImulTwo at encoded
  grind [RipFree, isRipRelativeSymbolOperand, notRip_of_operandMem]

theorem encDivide_ripFree {ops : List Operand} {ext : Nat} {bytes : List UInt8}
    (encoded : encDivide ops ext = some bytes) : RipFree ops := by
  unfold encDivide at encoded
  grind [RipFree, isRipRelativeSymbolOperand]

theorem encShift_ripFree {ops : List Operand} {ext : Nat} {bytes : List UInt8}
    (encoded : encShift ops ext = some bytes) : RipFree ops := by
  unfold encShift at encoded
  grind [RipFree, isRipRelativeSymbolOperand]

theorem encTest_ripFree {ops : List Operand} {bytes : List UInt8}
    (encoded : encTest ops = some bytes) : RipFree ops := by
  unfold encTest at encoded
  grind [RipFree, isRipRelativeSymbolOperand]

theorem encSetcc_ripFree {ops : List Operand} {opcode2 : UInt8} {bytes : List UInt8}
    (encoded : encSetcc ops opcode2 = some bytes) : RipFree ops := by
  unfold encSetcc at encoded
  grind [RipFree, isRipRelativeSymbolOperand, notRip_of_operandMem]

theorem encNear_ripFree {ops : List Operand} {disp : Int64} {ext : Nat} {opcode : UInt8}
    {bytes : List UInt8} (encoded : encNear ops disp ext opcode = some bytes) : RipFree ops := by
  unfold encNear at encoded
  grind [RipFree, isRipRelativeSymbolOperand]

theorem encJcc_ripFree {ops : List Operand} {disp : Int64} {opcode2 : UInt8} {bytes : List UInt8}
    (encoded : encJcc ops disp opcode2 = some bytes) : RipFree ops := by
  unfold encJcc at encoded
  grind [RipFree, isRipRelativeSymbolOperand]

theorem encInt_ripFree {ops : List Operand} {bytes : List UInt8}
    (encoded : encInt ops = some bytes) : RipFree ops := by
  unfold encInt at encoded
  grind [RipFree, isRipRelativeSymbolOperand]

theorem sse2EncodeMove_ripFree {ops : List Operand} {bytes : List UInt8}
    (encoded : sse2EncodeMove ops = some bytes) : RipFree ops := by
  unfold sse2EncodeMove validMemoryBase at encoded
  grind [RipFree, isRipRelativeSymbolOperand, operandMemory]

theorem sse2Encode_ripFree {opcode : OpcodeEnum} {ops : List Operand} {bytes : List UInt8}
    (encoded : sse2Encode opcode ops = some bytes) : RipFree ops := by
  unfold sse2Encode encodeXmmBinary encodeCvtsi2sd encodeCvttsd2si at encoded
  grind [RipFree, isRipRelativeSymbolOperand]

/-- Only MOV and LEA take RIP-relative operands. -/
theorem encoderEncode_ripFree {opcode : OpcodeEnum} {ops : List Operand} {resolvedTarget : Int64}
    {bytes : List UInt8} (admitted : getArity opcode = (0, 0) → ops = [])
    (encoded : encoderEncode opcode ops resolvedTarget = some bytes) (notMov : opcode ≠ .mov)
    (notLea : opcode ≠ .lea) : RipFree ops := by
  cases opcode with
  | mov | lea => contradiction
  | push | pop => exact encStack_ripFree encoded
  | movzx | movsx => exact encMovx_ripFree encoded
  | add | sub | and | or | xor | cmp => exact encAlu_ripFree encoded
  | imul => exact encImul_ripFree encoded
  | idiv | div => exact encDivide_ripFree encoded
  | cqo =>
      simp only [encoderEncode, encCqo, Option.ite_none_left_eq_some, ne_eq, not_not,
        List.length_eq_zero_iff] at encoded
      obtain ⟨rfl, -⟩ := encoded
      rfl
  | inc | dec | neg | not => exact encUnary_ripFree encoded
  | addsd | subsd | mulsd | divsd | ucomisd | xorpd | cvtsi2sd | cvttsd2si =>
      simp only [encoderEncode] at encoded
      exact sse2Encode_ripFree encoded
  | test => exact encTest_ripFree encoded
  | sete | setne | setg | setl | setge | setle | seta | setb | setae | setbe | setp | setnp =>
      exact encSetcc_ripFree encoded
  | shl | shr | sar => exact encShift_ripFree encoded
  | jmp | call => exact encNear_ripFree encoded
  | je | jne | jg | jge | jl | jle | jz | jnz | js | jns => exact encJcc_ripFree encoded
  | int => exact encInt_ripFree encoded
  | ret | syscall | nop | rdtsc | hlt =>
      obtain rfl := admitted (by decide)
      rfl
  | invalid => contradiction

/-! ## RIP-relative operands -/

/-- Bytes that end in a zero field, and read with any other field as the same
statement with that field's value as the displacement of the symbol. -/
def RipField (opcode : OpcodeEnum) (ops : List Operand) (bytes : List UInt8) : Prop :=
  ∃ front, bytes = front ++ intBytes 4 0 ∧
    ∀ field : List UInt8, field.length = 4 → ∀ target,
      ReadsAs (front ++ field) opcode ops target (signed 32 (value field))

/-- A statement with one RIP-relative operand, next to a register. -/
def RipPair (ops : List Operand) (label : List UInt8) : Prop :=
  ∃ first second, ops = [first, second] ∧
    ((∃ r, first.kind = .reg r ∧ second.kind = .memRipLabel label) ∨
      ∃ r, first.kind = .memRipLabel label ∧ second.kind = .reg r)

theorem header_split (width : Nat) (r b force : Bool) (opcode modrm : UInt8)
    (field : List UInt8) :
    headerBytes width r b force ++ opcode :: modrm :: field =
      (headerBytes width r b force ++ [opcode, modrm]) ++ field := by
  simp

theorem encMov_ripField {ops : List Operand} {bytes : List UInt8}
    (scalar : sse2OperandsUseXmm ops = false) (encoded : encMov ops = some bytes)
    (rip : ops.any isRipRelativeSymbolOperand = true) :
    RipField .mov ops bytes ∧ ∃ label, RipPair ops label := by
  have general := mov_isGeneral scalar
  unfold encMov at encoded
  split at encoded
  · next first second =>
    split at encoded
    · next firstKind secondKind => simp [isRipRelativeSymbolOperand, firstKind, secondKind] at rip
    · next firstKind secondKind => simp [isRipRelativeSymbolOperand, firstKind, secondKind] at rip
    · next firstKind secondKind => simp [isRipRelativeSymbolOperand, firstKind, secondKind] at rip
    · next dst label firstKind secondKind =>
        simp only [Option.ite_none_left_eq_some, Bool.not_eq_true', Option.some.injEq,
          Bool.not_eq_false] at encoded
        obtain ⟨valid, rfl⟩ := encoded
        refine ⟨⟨_, (emitRipRelativeMem_bytes _ _ _).trans (header_split _ _ _ _ _ _ _),
          fun field length target => ?_⟩, label, first, second, rfl,
          .inl ⟨dst, firstKind, secondKind⟩⟩
        rw [← header_split]
        exact readsAs_symbol_load general firstKind secondKind valid
          (reads_symbol_regRm movLoad_isForm valid length)
    · next label src firstKind secondKind =>
        simp only [Option.ite_none_left_eq_some, Bool.not_eq_true', Option.some.injEq,
          Bool.not_eq_false] at encoded
        obtain ⟨valid, rfl⟩ := encoded
        refine ⟨⟨_, (emitRipRelativeMem_bytes _ _ _).trans (header_split _ _ _ _ _ _ _),
          fun field length target => ?_⟩, label, first, second, rfl,
          .inr ⟨src, firstKind, secondKind⟩⟩
        rw [← header_split]
        exact readsAs_symbol_store general firstKind secondKind valid
          (reads_symbol_rmReg movStore_isForm valid length)
    · next firstKind _ _ _ _ =>
        split at encoded
        · next memory =>
            have notRip := notRip_of_operandMem memory
            simp [notRip] at rip
            simp [isRipRelativeSymbolOperand, firstKind] at rip
        · contradiction
    · next secondKind _ _ =>
        split at encoded
        · next memory =>
            have notRip := notRip_of_operandMem memory
            simp [notRip] at rip
            simp [isRipRelativeSymbolOperand, secondKind] at rip
        · contradiction
    · contradiction
  · contradiction

theorem encLea_ripField {ops : List Operand} {bytes : List UInt8}
    (encoded : encLea ops = some bytes) (rip : ops.any isRipRelativeSymbolOperand = true) :
    RipField .lea ops bytes ∧ ∃ label, RipPair ops label := by
  unfold encLea at encoded
  split at encoded
  · next first second =>
    split at encoded
    · next dst firstKind =>
      split at encoded
      · next label secondKind =>
          simp only [ne_eq, Option.ite_none_left_eq_some, not_not, Option.some.injEq] at encoded
          obtain ⟨wide, rfl⟩ := encoded
          refine ⟨⟨_, (emitRipRelativeMem_bytes _ _ _).trans (header_split _ _ _ _ _ _ _),
            fun field length target => ?_⟩, label, first, second, rfl,
            .inl ⟨dst, firstKind, secondKind⟩⟩
          rw [← header_split]
          exact readsAs_lea firstKind wide (by rw [secondKind]; rfl) (reads_lea_symbol wide length)
      · split at encoded
        · next memory =>
            have notRip := notRip_of_operandMem memory
            simp [notRip] at rip
            simp [isRipRelativeSymbolOperand, firstKind] at rip
        · contradiction
    · contradiction
  · contradiction

/-- An encoded instruction with a RIP-relative operand ends in its field. -/
theorem encoderEncode_ripField {opcode : OpcodeEnum} {ops : List Operand} {resolvedTarget : Int64}
    {bytes : List UInt8} (admitted : getArity opcode = (0, 0) → ops = [])
    (encoded : encoderEncode opcode ops resolvedTarget = some bytes)
    (rip : ops.any isRipRelativeSymbolOperand = true) :
    (opcode = .mov ∨ opcode = .lea) ∧ RipField opcode ops bytes ∧ ∃ label, RipPair ops label := by
  by_cases mov : opcode = .mov
  · subst mov
    simp only [encoderEncode] at encoded
    split at encoded
    · have free := sse2EncodeMove_ripFree encoded
      rw [RipFree, rip] at free
      contradiction
    · next integer => exact ⟨.inl rfl, encMov_ripField (by simpa using integer) encoded rip⟩
  · by_cases lea : opcode = .lea
    · subst lea
      exact ⟨.inr rfl, encLea_ripField encoded rip⟩
    · have free := encoderEncode_ripFree admitted encoded mov lea
      rw [RipFree, rip] at free
      contradiction

theorem RipField.four_le {opcode : OpcodeEnum} {ops : List Operand} {bytes : List UInt8}
    (field : RipField opcode ops bytes) : 4 ≤ bytes.length := by
  obtain ⟨front, rfl, -⟩ := field
  rw [List.length_append, length_intBytes]
  omega

/-! ## MOV with a symbol -/

/-- Bytes that hold a zero field of eight bytes after two, and read with any
other field as the same statement with that value for the symbol. -/
def MovField (ops : List Operand) (bytes : List UInt8) : Prop :=
  ∃ front, bytes = front ++ intBytes 8 0 ∧ front.length = movRegLabelRelocationOffset ∧
    ∀ symbol target, ReadsAs (front ++ intBytes 8 symbol) .mov ops target symbol

theorem length_movHeader (dst : RegId) :
    (headerBytes 64 (regNeedsRex .invalid) (regNeedsRex dst) (forcesRex 64 .invalid dst)).length =
      1 := by
  have plain : regNeedsRex .invalid = false := rfl
  cases extended : regNeedsRex dst <;> simp [headerBytes, plain, forcesRex]

theorem encoderEncode_movField {first second : Operand} {dst : RegId} {label bytes : List UInt8}
    {resolvedTarget : Int64} (firstKind : first.kind = .reg dst)
    (secondKind : second.kind = .label label)
    (encoded : encoderEncode .mov [first, second] resolvedTarget = some bytes) :
    MovField [first, second] bytes := by
  simp only [encoderEncode] at encoded
  split at encoded
  · simp [sse2EncodeMove, firstKind, secondKind, validMemoryBase, operandMemory] at encoded
  · next integer =>
      have general := mov_isGeneral (by simpa using integer)
      simp only [encMov, firstKind, secondKind] at encoded
      obtain ⟨wide, rfl⟩ := encMovRegLabel_bytes encoded
      refine ⟨headerBytes 64 (regNeedsRex .invalid) (regNeedsRex dst) (forcesRex 64 .invalid dst) ++
        [UInt8.ofNat (0xB8 + rf dst)], by simp, ?_, fun symbol target => ?_⟩
      · rw [List.length_append, length_movHeader]
        rfl
      · rw [List.append_assoc]
        exact readsAs_movLabel general firstKind secondKind wide target symbol

/-! ## Branches -/

/-- Bytes that end in a field at the offset pass 2 relocates, and read with any
field as the branch with that displacement. -/
def BranchField (opcode : OpcodeEnum) (ops : List Operand) (displacement : Int)
    (bytes : List UInt8) : Prop :=
  ∃ front, bytes = front ++ intBytes 4 displacement ∧
    front.length = relativeLabelRelocationOffset opcode ∧
    -2147483648 ≤ displacement ∧ displacement ≤ 2147483647 ∧
    ∀ field : List UInt8, field.length = 4 → ∀ symbol,
      ReadsAs (front ++ field) opcode ops (signed 32 (value field)) symbol

theorem encNear_branchField {opcode : OpcodeEnum} {operation : X86.Operation} {operand : Operand}
    {label bytes : List UInt8} {disp : Int64} {ext : Nat} {code : UInt8}
    (kind : operand.kind = .label label) (notMov : opcode ≠ .mov)
    (isOperation : operationMeaning opcode [operand] = some operation)
    (isWidth : widthMeaning opcode [operand] = 64)
    (offset : relativeLabelRelocationOffset opcode = 1)
    (decoded : ∀ rest, X86.decode (code :: rest) = X86.formRelative operation rest)
    (encoded : encNear [operand] disp ext code = some bytes) :
    BranchField opcode [operand] disp.toInt bytes := by
  rcases encNear_cases encoded with ⟨other, r, isOther, register, -, -⟩ |
    ⟨other, -, -, -, fits, rfl⟩
  · obtain rfl := List.singleton_inj.mp isOther
    rw [kind] at register
    contradiction
  · have range := (immediateFitsI32_iff disp).mp fits
    refine ⟨[code], rfl, offset.symm, by omega, by omega, fun field length symbol => ?_⟩
    exact readsAs_branch kind notMov isOperation isWidth (reads_near operation code decoded length)

theorem encJcc_branchField {opcode : OpcodeEnum} {operand : Operand} {label bytes : List UInt8}
    {disp : Int64} {code : Nat} (bound : code < 16) (kind : operand.kind = .label label)
    (notMov : opcode ≠ .mov)
    (isOperation : operationMeaning opcode [operand] = some (.jcc (.ofCode code)))
    (isWidth : widthMeaning opcode [operand] = 64)
    (offset : relativeLabelRelocationOffset opcode = 2)
    (encoded : encJcc [operand] disp (UInt8.ofNat (0x80 + code)) = some bytes) :
    BranchField opcode [operand] disp.toInt bytes := by
  obtain ⟨-, -, -, -, fits, rfl⟩ := encJcc_cases encoded
  have range := (immediateFitsI32_iff disp).mp fits
  refine ⟨[0x0F, UInt8.ofNat (0x80 + code)], rfl, offset.symm, by omega, by omega,
    fun field length symbol => ?_⟩
  exact readsAs_branch kind notMov isOperation isWidth (reads_jcc bound length)

/-- An encoded branch to a label ends in its displacement. -/
theorem encoderEncode_branchField {opcode : OpcodeEnum} {operand : Operand}
    {label bytes : List UInt8} {disp : Int64} (relative : opcodeUsesRelativeLabel opcode = true)
    (kind : operand.kind = .label label)
    (encoded : encoderEncode opcode [operand] disp = some bytes) :
    BranchField opcode [operand] disp.toInt bytes := by
  cases opcode with
  | jmp => exact encNear_branchField kind (by decide) rfl rfl rfl (fun _ => rfl) encoded
  | call => exact encNear_branchField kind (by decide) rfl rfl rfl (fun _ => rfl) encoded
  | je | jz =>
      exact @encJcc_branchField _ _ _ _ _ 0x4 (by omega) kind (by decide) rfl rfl rfl encoded
  | jne | jnz =>
      exact @encJcc_branchField _ _ _ _ _ 0x5 (by omega) kind (by decide) rfl rfl rfl encoded
  | jg => exact @encJcc_branchField _ _ _ _ _ 0xF (by omega) kind (by decide) rfl rfl rfl encoded
  | jge => exact @encJcc_branchField _ _ _ _ _ 0xD (by omega) kind (by decide) rfl rfl rfl encoded
  | jl => exact @encJcc_branchField _ _ _ _ _ 0xC (by omega) kind (by decide) rfl rfl rfl encoded
  | jle => exact @encJcc_branchField _ _ _ _ _ 0xE (by omega) kind (by decide) rfl rfl rfl encoded
  | js => exact @encJcc_branchField _ _ _ _ _ 0x8 (by omega) kind (by decide) rfl rfl rfl encoded
  | jns => exact @encJcc_branchField _ _ _ _ _ 0x9 (by omega) kind (by decide) rfl rfl rfl encoded
  | _ => contradiction

end Nazm.Passes
