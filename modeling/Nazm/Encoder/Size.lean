import Nazm.Encoder.Sse2RoundTrip

/-!
The size the first pass predicts is the size the second pass emits.

Owns the comparison of `encoder_instruction_size` with `encoder_encode`.
-/

namespace Nazm.Encoder

theorem encodedSize_of_some {encoded : EncodedInstruction} {bytes : List UInt8}
    (isSome : encoded = some bytes) : encodedSize encoded = bytes.length := by
  rw [isSome]
  rfl

/-! ## Forms sized without encoding -/

theorem length_headerBytes_register64 (r : RegId) :
    (headerBytes 32 (regNeedsRex .invalid) (regNeedsRex r) false).length =
      if regNeedsRex r then 1 else 0 := by
  cases rex : regNeedsRex r <;> rfl

theorem encStack_length {ops : List Operand} {opcode : Nat} {bytes : List UInt8}
    (encoded : encStack ops opcode = some bytes) : bytes.length = sizeStack ops := by
  obtain ⟨operand, r, rfl, kind, wide, rfl⟩ := encStack_cases encoded
  simp only [sizeStack, kind, wide, ne_eq, not_true, if_false, List.length_append,
    length_headerBytes_register64, List.length_cons, List.length_nil]
  split <;> rfl

theorem encNear_length {ops : List Operand} {disp : Int64} {ext : Nat} {opcode : UInt8}
    {bytes : List UInt8} (encoded : encNear ops disp ext opcode = some bytes) :
    bytes.length = sizeNear ops := by
  rcases encNear_cases encoded with ⟨operand, r, rfl, kind, wide, rfl⟩ |
    ⟨operand, label, rfl, kind, fits, rfl⟩
  · simp only [sizeNear, kind, wide, ne_eq, not_true, if_false, List.length_append,
      length_headerBytes_register64, List.length_cons, List.length_nil]
    split <;> rfl
  · simp [sizeNear, kind]

theorem encJcc_length {ops : List Operand} {disp : Int64} {opcode2 : UInt8} {bytes : List UInt8}
    (encoded : encJcc ops disp opcode2 = some bytes) : bytes.length = 6 := by
  obtain ⟨operand, label, rfl, kind, fits, rfl⟩ := encJcc_cases encoded
  simp

theorem encInt_length {ops : List Operand} {bytes : List UInt8} (encoded : encInt ops = some bytes) :
    bytes.length = sizeInt ops := by
  unfold encInt at encoded
  split at encoded
  · next operand =>
    split at encoded
    · next value kind =>
        simp only [Option.ite_none_left_eq_some, Bool.not_eq_true', Bool.not_eq_false,
          Option.some.injEq] at encoded
        obtain ⟨fits, rfl⟩ := encoded
        simp [sizeInt, kind, fits, emit, maxInstructionBytes]
    · contradiction
  · contradiction

theorem length_registerImmediateBytes (r : RegId) (opcode : UInt8) (digit digit' : Nat)
    (field : List UInt8) :
    (registerImmediateBytes r opcode digit field).length =
      (registerImmediateBytes r opcode digit' field).length := by
  simp [registerImmediateBytes]

/-- The `/digit` of a shift does not change its length. -/
theorem encShift_size (ops : List Operand) (ext ext' : Nat) :
    encodedSize (encShift ops ext) = encodedSize (encShift ops ext') := by
  unfold encShift
  split
  · split
    · simp only [emit_registerImmediate, emit_byte_registerImmediate]
      split
      · rfl
      · split
        · split
          · rfl
          · split <;> exact length_registerImmediateBytes _ _ _ _ _
        · split
          · exact length_registerImmediateBytes _ _ _ _ _
          · rfl
        · rfl
    · rfl
  · rfl

/-- An instruction that encodes has the size that was predicted for it. -/
theorem encoderEncode_length {opcode : OpcodeEnum} {ops : List Operand} {resolvedTarget : Int64}
    {bytes : List UInt8} (encoded : encoderEncode opcode ops resolvedTarget = some bytes) :
    bytes.length = encoderInstructionSize opcode ops := by
  cases opcode with
  | mov =>
      simp only [encoderEncode] at encoded
      simp only [encoderInstructionSize]
      cases scalar : sse2OperandsUseXmm ops
      · simp only [scalar, Bool.false_eq_true, if_false] at encoded
        exact (encodedSize_of_some encoded).symm
      · simp only [scalar, if_true] at encoded
        exact (encodedSize_of_some encoded).symm
  | push => exact encStack_length encoded
  | pop => exact encStack_length encoded
  | jmp => exact encNear_length encoded
  | call => exact encNear_length encoded
  | je | jne | jg | jge | jl | jle | jz | jnz | js | jns => exact encJcc_length encoded
  | int => exact encInt_length encoded
  | shl | shr | sar =>
      exact (encodedSize_of_some encoded).symm.trans (encShift_size ops _ _)
  | ret | syscall | nop | rdtsc | hlt =>
      obtain rfl := Option.some.inj encoded
      rfl
  | invalid => contradiction
  | _ => exact (encodedSize_of_some encoded).symm

/-! ## The cap of fifteen bytes -/

section Growth

variable (b : Buf)

theorem length_emit_le (byte : UInt8) : (emit b byte).length ≤ b.length + 1 := by
  rw [emit]
  split
  · rw [List.length_append, List.length_singleton]
  · exact Nat.le_succ _

theorem length_emit_emit_le (first second : UInt8) :
    (emit (emit b first) second).length ≤ b.length + 2 := by
  have inner := length_emit_le b first
  have outer := length_emit_le (emit b first) second
  omega

theorem length_foldl_emit_le (string : List UInt8) :
    (string.foldl emit b).length ≤ b.length + string.length := by
  induction string generalizing b with
  | nil => exact Nat.le_refl _
  | cons byte string inductionHypothesis =>
      have first := length_emit_le b byte
      have rest := inductionHypothesis (emit b byte)
      rw [List.foldl_cons, List.length_cons]
      omega

theorem length_emit32_le (v : Int) : (emit32 b v).length ≤ b.length + 4 := by
  rw [emit32_eq_foldl]
  exact length_foldl_emit_le b _

theorem length_emit64_le (v : Int) : (emit64 b v).length ≤ b.length + 8 := by
  have folded := length_foldl_emit_le b ((List.range 8).map fun i => byteAt v (i * 8))
  rwa [List.foldl_map] at folded

theorem length_emitWidthPrefix_le (width : Nat) :
    (emitWidthPrefix b width).length ≤ b.length + 1 := by
  rw [emitWidthPrefix]
  split
  · exact length_emit_le b _
  · exact Nat.le_succ _

theorem length_emitRexForWidth_le (width : Nat) (reg rm : RegId) :
    (emitRexForWidth b width reg rm).length ≤ b.length + 1 := by
  unfold emitRexForWidth
  dsimp only
  split
  · exact length_emit_le b _
  · exact Nat.le_succ _

theorem length_emitRexForExtension_le (width : Nat) (reg rm : RegId) :
    (emitRexForExtension b width reg rm).length ≤ b.length + 1 := by
  unfold emitRexForExtension
  dsimp only
  split
  · exact length_emit_le b _
  · exact Nat.le_succ _

theorem length_emitHeader_le (width : Nat) (reg rm : RegId) :
    (emitRexForWidth (emitWidthPrefix b width) width reg rm).length ≤ b.length + 2 := by
  have widthPrefix := length_emitWidthPrefix_le b width
  have rex := length_emitRexForWidth_le (emitWidthPrefix b width) width reg rm
  omega

theorem length_emitMemAddress_le (modrmReg : Nat) (base : RegId) (disp : Int32) :
    (emitMemAddress b modrmReg base disp).length ≤ b.length + 6 := by
  rw [emitMemAddress_eq_foldl]
  exact Nat.le_trans (length_foldl_emit_le b _)
    (Nat.add_le_add_left (length_addressBytes_le modrmReg base disp) _)

theorem length_emitImmediate_le (width : Nat) (v : Int) :
    (emitImmediate b width v).length ≤ b.length + 4 := by
  have one := length_emit_le b (byteAt v 0)
  have two := length_emit_le (emit b (byteAt v 0)) (byteAt v 8)
  unfold emitImmediate
  split
  · omega
  · split
    · omega
    · exact length_emit32_le b v

theorem length_emitRr_le (opcode : UInt8) (dst src : RegId) (width : Nat) :
    (emitRr b opcode dst src width).length ≤ b.length + 4 := by
  have widthPrefix := length_emitWidthPrefix_le b width
  have rex := length_emitRexForWidth_le (emitWidthPrefix b width) width src dst
  have tail := length_foldl_emit_le (emitRexForWidth (emitWidthPrefix b width) width src dst)
    [opcode, modrmByte 3 (rf src) (rf dst)]
  exact Nat.le_trans tail (by simp only [List.length_cons, List.length_nil]; omega)

theorem length_emitMem_le (opcode : UInt8) (reg base : RegId) (disp : Int32) (width : Nat) :
    (emitMem b opcode reg base disp width).length ≤ b.length + 9 := by
  have widthPrefix := length_emitWidthPrefix_le b width
  have rex := length_emitRexForWidth_le (emitWidthPrefix b width) width reg base
  have named := length_emit_le (emitRexForWidth (emitWidthPrefix b width) width reg base) opcode
  exact Nat.le_trans (length_emitMemAddress_le _ _ _ _) (by omega)

theorem length_emitRipRelativeMem_le (opcode : UInt8) (reg : RegId) (width : Nat) :
    (emitRipRelativeMem b opcode reg width).length ≤ b.length + 8 := by
  have widthPrefix := length_emitWidthPrefix_le b width
  have rex := length_emitRexForWidth_le (emitWidthPrefix b width) width reg .invalid
  have head := length_foldl_emit_le (emitRexForWidth (emitWidthPrefix b width) width reg .invalid)
    [opcode, modrmByte 0 (rf reg) 5]
  exact Nat.le_trans (length_emit32_le _ _) (by
    simp only [List.length_cons, List.length_nil] at head
    exact Nat.le_trans (Nat.add_le_add_right head 4) (by omega))

grind_pattern length_emit_le => (emit b byte).length
grind_pattern length_emit_emit_le => (emit (emit b first) second).length
grind_pattern length_emit32_le => (emit32 b v).length
grind_pattern length_emit64_le => (emit64 b v).length
grind_pattern length_emitWidthPrefix_le => (emitWidthPrefix b width).length
grind_pattern length_emitRexForWidth_le => (emitRexForWidth b width reg rm).length
grind_pattern length_emitRexForExtension_le => (emitRexForExtension b width reg rm).length
grind_pattern length_emitHeader_le =>
  (emitRexForWidth (emitWidthPrefix b width) width reg rm).length
grind_pattern length_emitMemAddress_le => (emitMemAddress b modrmReg base disp).length
grind_pattern length_emitImmediate_le => (emitImmediate b width v).length
grind_pattern length_emitRr_le => (emitRr b opcode dst src width).length
grind_pattern length_emitMem_le => (emitMem b opcode reg base disp width).length
grind_pattern length_emitRipRelativeMem_le => (emitRipRelativeMem b opcode reg width).length

end Growth

/-- The cap is not reached: an encoding is shorter. -/
def Short (encoded : EncodedInstruction) : Prop :=
  ∀ bytes, encoded = some bytes → bytes.length < maxInstructionBytes

/-- Whatever bytes were emitted one by one, they are the bytes of the encoding. -/
def NothingDropped (bytes : List UInt8) : Prop :=
  (∀ emitted, emitted.foldl emit [] = bytes → emitted = bytes) ∧
    ∀ emitted, emitted.foldl sseEmit [] = bytes → emitted = bytes

/-- Bytes are only dropped at the cap, and the buffer never gets shorter. -/
theorem foldl_emit_of_short {b : Buf} {emitted : List UInt8}
    (short : (emitted.foldl emit b).length < maxInstructionBytes) :
    emitted.foldl emit b = b ++ emitted := by
  induction emitted generalizing b with
  | nil => exact (List.append_nil b).symm
  | cons byte emitted inductionHypothesis =>
      rw [List.foldl_cons] at short ⊢
      have rest := inductionHypothesis short
      rw [rest, List.length_append] at short
      rw [rest, emit]
      split
      · rw [List.append_assoc, List.singleton_append]
      · next full =>
          rw [emit, if_neg full] at short
          omega

theorem nothingDropped_of_short {bytes : List UInt8} (short : bytes.length < maxInstructionBytes) :
    NothingDropped bytes := by
  have whole : ∀ emitted : List UInt8, emitted.foldl emit [] = bytes → emitted = bytes := by
    rintro emitted rfl
    exact (foldl_emit_of_short short).symm
  exact ⟨whole, whole⟩

theorem short_none : Short none := nofun

theorem short_some {bytes : List UInt8} (short : bytes.length ≤ 14) : Short (some bytes) := by
  intro other same
  obtain rfl := Option.some.inj same
  exact Nat.lt_succ_of_le short

theorem encMovRegImm_short (dst : RegId) (value : Int64) : Short (encMovRegImm dst value) := by
  unfold encMovRegImm
  dsimp only
  repeat' split
  all_goals first
    | exact short_none
    | refine short_some ?_
  all_goals grind

theorem encMov_short (ops : List Operand) : Short (encMov ops) := by
  unfold encMov
  dsimp only
  split
  · split
    · exact encMovRegImm_short _ _
    · unfold encMovRegLabel
      dsimp only
      split
      · exact short_none
      · exact short_some (by grind)
    all_goals repeat' split
    all_goals first
      | exact short_none
      | refine short_some ?_
    all_goals grind
  · exact short_none

theorem encMovx_short (ops : List Operand) (signExtend : Bool) : Short (encMovx ops signExtend) := by
  unfold encMovx
  dsimp only
  repeat' split
  all_goals first
    | exact short_none
    | refine short_some ?_
  all_goals grind

theorem encAlu_short (ops : List Operand) (opRr : UInt8) (ext : Nat) : Short (encAlu ops opRr ext) := by
  unfold encAlu
  dsimp only
  repeat' split
  all_goals first
    | exact short_none
    | refine short_some ?_
  all_goals grind

theorem encUnary_short (ops : List Operand) (ext : Nat) : Short (encUnary ops ext) := by
  unfold encUnary
  dsimp only
  repeat' split
  all_goals first
    | exact short_none
    | refine short_some ?_
  all_goals grind

theorem encImul_short (ops : List Operand) : Short (encImul ops) := by
  unfold encImul encImulTwo encImulThree
  dsimp only
  repeat' split
  all_goals first
    | exact short_none
    | refine short_some ?_
  all_goals grind

theorem encDivide_short (ops : List Operand) (ext : Nat) : Short (encDivide ops ext) := by
  unfold encDivide
  dsimp only
  repeat' split
  all_goals first
    | exact short_none
    | refine short_some ?_
  all_goals grind

theorem encCqo_short (ops : List Operand) : Short (encCqo ops) := by
  unfold encCqo
  repeat' split
  all_goals first
    | exact short_none
    | refine short_some ?_
  all_goals grind

theorem encShift_short (ops : List Operand) (ext : Nat) : Short (encShift ops ext) := by
  unfold encShift
  dsimp only
  repeat' split
  all_goals first
    | exact short_none
    | refine short_some ?_
  all_goals grind

theorem encTest_short (ops : List Operand) : Short (encTest ops) := by
  unfold encTest
  dsimp only
  repeat' split
  all_goals first
    | exact short_none
    | refine short_some ?_
  all_goals grind

theorem encSetcc_short (ops : List Operand) (opcode2 : UInt8) : Short (encSetcc ops opcode2) := by
  unfold encSetcc
  dsimp only
  repeat' split
  all_goals first
    | exact short_none
    | refine short_some ?_
  all_goals grind

theorem encLea_short (ops : List Operand) : Short (encLea ops) := by
  unfold encLea
  repeat' split
  all_goals first
    | exact short_none
    | refine short_some ?_
  all_goals grind

theorem encodeXmm_short (mandatory opcode : UInt8) (width64 : Bool) (reg rm : RegId)
    (disp : Int32) :
    Short (encodeXmmRegisters mandatory opcode width64 reg rm) ∧
      Short (encodeXmmMemory mandatory opcode reg rm disp) := by
  have registers := length_scalarHeader_le mandatory width64 (regNeedsRex reg) (regNeedsRex rm)
  have memory := length_scalarHeader_le mandatory false (regNeedsRex reg) (regNeedsRex rm)
  have address := length_addressBytes_le (rf reg) rm disp
  rw [encodeXmmRegisters_bytes, encodeXmmMemory_bytes]
  constructor
  · refine short_some ?_
    simp only [List.length_append, List.length_cons, List.length_nil]
    omega
  · refine short_some ?_
    simp only [List.length_append, List.length_cons]
    omega

theorem sse2EncodeMove_short (ops : List Operand) : Short (sse2EncodeMove ops) := by
  unfold sse2EncodeMove
  repeat' split
  all_goals first
    | exact short_none
    | exact (encodeXmm_short _ _ _ _ _ 0).1
    | exact (encodeXmm_short _ _ false _ _ _).2

theorem sse2Encode_short (opcode : OpcodeEnum) (ops : List Operand) :
    Short (sse2Encode opcode ops) := by
  unfold sse2Encode encodeXmmBinary encodeCvtsi2sd encodeCvttsd2si
  dsimp only
  repeat' split
  all_goals first
    | exact short_none
    | exact (encodeXmm_short _ _ _ _ _ 0).1

theorem encStack_short (ops : List Operand) (opcode : Nat) : Short (encStack ops opcode) := by
  unfold encStack
  dsimp only
  repeat' split
  all_goals first
    | exact short_none
    | refine short_some ?_
  all_goals grind

theorem encNear_short (ops : List Operand) (disp : Int64) (ext : Nat) (opcode : UInt8) :
    Short (encNear ops disp ext opcode) := by
  unfold encNear emitRex
  dsimp only
  repeat' split
  all_goals first
    | exact short_none
    | refine short_some ?_
  all_goals grind

theorem encJcc_short (ops : List Operand) (disp : Int64) (opcode2 : UInt8) :
    Short (encJcc ops disp opcode2) := by
  unfold encJcc
  repeat' split
  all_goals first
    | exact short_none
    | refine short_some ?_
  all_goals grind

theorem encInt_short (ops : List Operand) : Short (encInt ops) := by
  unfold encInt
  repeat' split
  all_goals first
    | exact short_none
    | refine short_some ?_
  all_goals grind

/-- No encoding reaches the cap. -/
theorem encoderEncode_short (opcode : OpcodeEnum) (ops : List Operand) (resolvedTarget : Int64) :
    Short (encoderEncode opcode ops resolvedTarget) := by
  cases opcode with
  | mov =>
      rw [encoderEncode]
      split
      · exact sse2EncodeMove_short ops
      · exact encMov_short ops
  | push | pop => exact encStack_short ops _
  | lea => exact encLea_short ops
  | movzx | movsx => exact encMovx_short ops _
  | add | sub | and | or | xor | cmp => exact encAlu_short ops _ _
  | imul => exact encImul_short ops
  | idiv | div => exact encDivide_short ops _
  | cqo => exact encCqo_short ops
  | inc | dec | neg | not => exact encUnary_short ops _
  | addsd | subsd | mulsd | divsd | ucomisd | xorpd | cvtsi2sd | cvttsd2si =>
      rw [encoderEncode]
      exact sse2Encode_short _ ops
  | test => exact encTest_short ops
  | sete | setne | setg | setl | setge | setle | seta | setb | setae | setbe | setp | setnp =>
      exact encSetcc_short ops _
  | shl | shr | sar => exact encShift_short ops _
  | jmp | call => exact encNear_short ops _ _ _
  | je | jne | jg | jge | jl | jle | jz | jnz | js | jns => exact encJcc_short ops _ _
  | int => exact encInt_short ops
  | ret | syscall | nop | rdtsc | hlt => exact short_some (by decide)
  | invalid => exact short_none

theorem Short.encodedSize_le {encoded : EncodedInstruction} (short : Short encoded) :
    encodedSize encoded ≤ 15 := by
  cases encoded with
  | none => exact Nat.le_refl _
  | some bytes => exact Nat.le_of_lt (short bytes rfl)

/-- No statement is sized beyond the architectural limit. -/
theorem encoderInstructionSize_le (opcode : OpcodeEnum) (ops : List Operand) :
    encoderInstructionSize opcode ops ≤ 15 := by
  cases opcode with
  | mov =>
      simp only [encoderInstructionSize]
      split
      · exact (encMov_short ops).encodedSize_le
      · exact (sse2EncodeMove_short ops).encodedSize_le
  | push | pop =>
      simp only [encoderInstructionSize, sizeStack]
      repeat' split
      all_goals decide
  | lea => exact (encLea_short ops).encodedSize_le
  | movzx | movsx => exact (encMovx_short ops _).encodedSize_le
  | add | sub | and | or | xor | cmp => exact (encAlu_short ops _ _).encodedSize_le
  | imul => exact (encImul_short ops).encodedSize_le
  | idiv | div => exact (encDivide_short ops _).encodedSize_le
  | cqo => exact (encCqo_short ops).encodedSize_le
  | inc | dec | neg | not => exact (encUnary_short ops _).encodedSize_le
  | addsd | subsd | mulsd | divsd | ucomisd | xorpd | cvtsi2sd | cvttsd2si =>
      exact (sse2Encode_short _ ops).encodedSize_le
  | test => exact (encTest_short ops).encodedSize_le
  | sete | setne | setg | setl | setge | setle | seta | setb | setae | setbe | setp | setnp =>
      exact (encSetcc_short ops _).encodedSize_le
  | shl | shr | sar => exact (encShift_short ops _).encodedSize_le
  | jmp | call =>
      simp only [encoderInstructionSize, sizeNear]
      repeat' split
      all_goals decide
  | int =>
      simp only [encoderInstructionSize, sizeInt]
      repeat' split
      all_goals decide
  | _ => exact Nat.le_of_ble_eq_true rfl

end Nazm.Encoder
