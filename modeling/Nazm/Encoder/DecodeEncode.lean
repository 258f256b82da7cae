import Nazm.Encoder.Size
import Nazm.Parser.Instruction

/-!
Decode undoes encode, over the whole opcode enumeration.

Owns the dispatch of `encoder_encode` to the reading lemmas.
-/

namespace Nazm.Encoder

open Nazm.Parser

/-- An opcode that takes no operand is only given none. -/
theorem nil_of_arityAdmits {opcode : OpcodeEnum} {ops : List Operand}
    (admitted : arityAdmits opcode ops) (nullary : getArity opcode = (0, 0)) : ops = [] := by
  have bound := admitted.2
  rw [nullary] at bound
  exact List.length_eq_zero_iff.mp (by omega)

/-- Only the instructions without operands ignore the ones they are given. -/
theorem encoderEncode_readsAs {opcode : OpcodeEnum} {ops : List Operand} {resolvedTarget : Int64}
    {bytes : List UInt8} (admitted : getArity opcode = (0, 0) → ops = [])
    (encoded : encoderEncode opcode ops resolvedTarget = some bytes) :
    ReadsAs bytes opcode ops resolvedTarget.toInt 0 := by
  cases opcode with
  | mov =>
      simp only [encoderEncode] at encoded
      split at encoded
      · exact sse2EncodeMove_readsAs encoded _
      · next integer => exact encMov_readsAs (by simpa using integer) encoded _
  | push => exact encPush_readsAs encoded _
  | pop => exact encPop_readsAs encoded _
  | lea => exact encLea_readsAs encoded _
  | movzx => exact encMovx_readsAs encoded _
  | movsx => exact encMovx_readsAs encoded _
  | add => exact @encAlu_readsAs .add _ 0x01 0 _ ⟨rfl, rfl, rfl, rfl⟩ (by omega) rfl encoded _
  | sub => exact @encAlu_readsAs .sub _ 0x29 5 _ ⟨rfl, rfl, rfl, rfl⟩ (by omega) rfl encoded _
  | and => exact @encAlu_readsAs .and _ 0x21 4 _ ⟨rfl, rfl, rfl, rfl⟩ (by omega) rfl encoded _
  | or => exact @encAlu_readsAs .or _ 0x09 1 _ ⟨rfl, rfl, rfl, rfl⟩ (by omega) rfl encoded _
  | xor => exact @encAlu_readsAs .xor _ 0x31 6 _ ⟨rfl, rfl, rfl, rfl⟩ (by omega) rfl encoded _
  | cmp => exact @encAlu_readsAs .cmp _ 0x39 7 _ ⟨rfl, rfl, rfl, rfl⟩ (by omega) rfl encoded _
  | imul => exact encImul_readsAs encoded _
  | idiv =>
      exact encDivide_readsAs rfl rfl (group3_selects (by omega) (by omega) rfl) encoded _
  | div =>
      exact encDivide_readsAs rfl rfl (group3_selects (by omega) (by omega) rfl) encoded _
  | cqo => exact encCqo_readsAs encoded _
  | inc => exact encUnary_readsAs rfl rfl (.inl ⟨by omega, rfl⟩) encoded _
  | dec => exact encUnary_readsAs rfl rfl (.inl ⟨by omega, rfl⟩) encoded _
  | neg =>
      exact encUnary_readsAs rfl rfl
        (.inr ⟨by omega, group3_selects (by omega) (by omega) rfl⟩) encoded _
  | not =>
      exact encUnary_readsAs rfl rfl
        (.inr ⟨by omega, group3_selects (by omega) (by omega) rfl⟩) encoded _
  | addsd =>
      exact encodeXmmBinary_readsAs (.inr (.inl rfl)) (fun _ _ _ _ => rfl) rfl rfl rfl encoded _
  | subsd =>
      exact encodeXmmBinary_readsAs (.inr (.inl rfl)) (fun _ _ _ _ => rfl) rfl rfl rfl encoded _
  | mulsd =>
      exact encodeXmmBinary_readsAs (.inr (.inl rfl)) (fun _ _ _ _ => rfl) rfl rfl rfl encoded _
  | divsd =>
      exact encodeXmmBinary_readsAs (.inr (.inl rfl)) (fun _ _ _ _ => rfl) rfl rfl rfl encoded _
  | ucomisd => exact encodeXmmBinary_readsAs (.inl rfl) (fun _ _ _ _ => rfl) rfl rfl rfl encoded _
  | xorpd => exact encodeXmmBinary_readsAs (.inl rfl) (fun _ _ _ _ => rfl) rfl rfl rfl encoded _
  | cvtsi2sd => exact encodeCvtsi2sd_readsAs encoded _
  | cvttsd2si => exact encodeCvttsd2si_readsAs encoded _
  | test => exact encTest_readsAs encoded _
  | sete => exact @encSetcc_readsAs _ _ 0x4 _ (by omega) rfl rfl encoded _
  | setne => exact @encSetcc_readsAs _ _ 0x5 _ (by omega) rfl rfl encoded _
  | setg => exact @encSetcc_readsAs _ _ 0xF _ (by omega) rfl rfl encoded _
  | setl => exact @encSetcc_readsAs _ _ 0xC _ (by omega) rfl rfl encoded _
  | setge => exact @encSetcc_readsAs _ _ 0xD _ (by omega) rfl rfl encoded _
  | setle => exact @encSetcc_readsAs _ _ 0xE _ (by omega) rfl rfl encoded _
  | seta => exact @encSetcc_readsAs _ _ 0x7 _ (by omega) rfl rfl encoded _
  | setb => exact @encSetcc_readsAs _ _ 0x2 _ (by omega) rfl rfl encoded _
  | setae => exact @encSetcc_readsAs _ _ 0x3 _ (by omega) rfl rfl encoded _
  | setbe => exact @encSetcc_readsAs _ _ 0x6 _ (by omega) rfl rfl encoded _
  | setp => exact @encSetcc_readsAs _ _ 0xA _ (by omega) rfl rfl encoded _
  | setnp => exact @encSetcc_readsAs _ _ 0xB _ (by omega) rfl rfl encoded _
  | shl => exact @encShift_readsAs .shl _ 4 _ rfl rfl (by omega) encoded _
  | shr => exact @encShift_readsAs .shr _ 5 _ rfl rfl (by omega) encoded _
  | sar => exact @encShift_readsAs .sar _ 7 _ rfl rfl (by omega) encoded _
  | jmp => exact encJmp_readsAs encoded
  | call => exact encCall_readsAs encoded
  | je => exact @encJcc_readsAs _ _ _ 0x4 _ (by omega) (by decide) rfl rfl encoded
  | jne => exact @encJcc_readsAs _ _ _ 0x5 _ (by omega) (by decide) rfl rfl encoded
  | jg => exact @encJcc_readsAs _ _ _ 0xF _ (by omega) (by decide) rfl rfl encoded
  | jge => exact @encJcc_readsAs _ _ _ 0xD _ (by omega) (by decide) rfl rfl encoded
  | jl => exact @encJcc_readsAs _ _ _ 0xC _ (by omega) (by decide) rfl rfl encoded
  | jle => exact @encJcc_readsAs _ _ _ 0xE _ (by omega) (by decide) rfl rfl encoded
  | jz => exact @encJcc_readsAs _ _ _ 0x4 _ (by omega) (by decide) rfl rfl encoded
  | jnz => exact @encJcc_readsAs _ _ _ 0x5 _ (by omega) (by decide) rfl rfl encoded
  | js => exact @encJcc_readsAs _ _ _ 0x8 _ (by omega) (by decide) rfl rfl encoded
  | jns => exact @encJcc_readsAs _ _ _ 0x9 _ (by omega) (by decide) rfl rfl encoded
  | int => exact encInt_readsAs encoded _
  | ret | syscall | nop | rdtsc | hlt =>
      obtain rfl := admitted (by decide)
      obtain rfl := Option.some.inj encoded
      exact readsAs_nullary rfl rfl fun _ => rfl
  | invalid => contradiction

/-- No instruction is encoded as nothing. -/
theorem encoderEncode_ne_nil {opcode : OpcodeEnum} {ops : List Operand} {resolvedTarget : Int64}
    {bytes : List UInt8} (encoded : encoderEncode opcode ops resolvedTarget = some bytes) :
    bytes ≠ [] := by
  by_cases nullary : getArity opcode = (0, 0)
  · cases opcode with
    | ret | syscall | nop | rdtsc | hlt =>
        obtain rfl := Option.some.inj encoded
        decide
    | _ => contradiction
  · obtain ⟨instruction, -, reads⟩ := encoderEncode_readsAs (absurd · nullary) encoded
    rintro rfl
    exact absurd (reads []) (by simp [show X86.decode [] = none from rfl])

/-- An instruction that encodes has the size that was predicted for it, at least one byte and
fewer than the cap of fifteen, so that no byte of it was dropped. -/
theorem encoder_size_exact (opcode : OpcodeEnum) (ops : List Operand) (resolvedTarget : Int64)
    (bytes : List UInt8) (encoded : encoderEncode opcode ops resolvedTarget = some bytes) :
    encoderInstructionSize opcode ops = bytes.length ∧ 1 ≤ bytes.length ∧
      bytes.length < maxInstructionBytes ∧ NothingDropped bytes := by
  have short := encoderEncode_short opcode ops resolvedTarget bytes encoded
  exact ⟨(encoderEncode_length encoded).symm,
    List.length_pos_iff.mpr (encoderEncode_ne_nil encoded), short,
    nothingDropped_of_short short⟩

/-- A 16-bit multiplication with a SIB byte and a 32-bit displacement: ten bytes. -/
theorem encoder_size_exact_imulR12 :
    encoderInstructionSize .imul [⟨.reg (.gpr16 9), 1, 1, 2⟩, ⟨.memDisp (.gpr64 12) 300, 1, 3, 4⟩] =
        10 ∧ 1 ≤ 10 ∧ 10 < maxInstructionBytes ∧
      NothingDropped [0x66, 0x45, 0x0F, 0xAF, 0x8C, 0x24, 0x2C, 0x01, 0x00, 0x00] :=
  encoder_size_exact .imul [⟨.reg (.gpr16 9), 1, 1, 2⟩, ⟨.memDisp (.gpr64 12) 300, 1, 3, 4⟩] 0
    [0x66, 0x45, 0x0F, 0xAF, 0x8C, 0x24, 0x2C, 0x01, 0x00, 0x00] (by decide +kernel)

/-- Decoding undoes encoding: the produced bytes are exactly one instruction,
whatever follows them, and it is the one that the statement asked for. -/
theorem decode_encoderEncode (opcode : OpcodeEnum) (ops : List Operand) (resolvedTarget : Int64)
    (bytes rest : List UInt8) (admitted : arityAdmits opcode ops)
    (encoded : encoderEncode opcode ops resolvedTarget = some bytes) :
    ∃ instruction, meaning opcode ops resolvedTarget.toInt 0 = some instruction ∧
      X86.decode (bytes ++ rest) = some (instruction, rest) := by
  obtain ⟨instruction, isMeaning, reads⟩ :=
    encoderEncode_readsAs (nil_of_arityAdmits admitted) encoded
  exact ⟨instruction, isMeaning, reads rest⟩

/-- A store through R12, whose address needs a SIB byte, with a 32-bit displacement. -/
theorem decode_encoderEncode_storeR12 :
    ∃ instruction,
      meaning .mov [⟨.memDisp (.gpr64 12) 300, 1, 1, 2⟩, ⟨.reg (.gpr8 6), 1, 3, 4⟩] 0 0 =
        some instruction ∧
      X86.decode ([0x41, 0x88, 0xB4, 0x24, 0x2C, 0x01, 0x00, 0x00] ++ [0x90]) =
        some (instruction, [0x90]) :=
  decode_encoderEncode .mov [⟨.memDisp (.gpr64 12) 300, 1, 1, 2⟩, ⟨.reg (.gpr8 6), 1, 3, 4⟩] 0
    [0x41, 0x88, 0xB4, 0x24, 0x2C, 0x01, 0x00, 0x00] [0x90] (by decide +kernel) (by decide +kernel)

end Nazm.Encoder
