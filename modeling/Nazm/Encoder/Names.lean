import Nazm.Encoder.Encode

/-!
Names mean nothing to the encoder.

Owns the renaming of the symbols of operands, which also drops their spans, and
that the encoder returns the same for renamed operands.

Does not own statements.
-/

namespace Nazm.Encoder

/-- A kind with its symbol renamed. -/
def OperandKind.renamed (rename : List UInt8 → List UInt8) : OperandKind → OperandKind
  | .memRipLabel name => .memRipLabel (rename name)
  | .label name => .label (rename name)
  | kind => kind

/-- An operand with its symbol renamed and without its span. -/
def Operand.renamed (rename : List UInt8 → List UInt8) (op : Operand) : Operand :=
  ⟨op.kind.renamed rename, 0, 0, 0⟩

section Names

variable (rename : List UInt8 → List UInt8) (ops : List Operand)

/-! ## Instruction forms -/

/-- A form of one operand. -/
theorem one_renamed (encode : List Operand → EncodedInstruction)
    (more : ∀ first second rest, encode (first :: second :: rest) = none)
    (same : ∀ kind line col endCol,
      encode [⟨kind.renamed rename, 0, 0, 0⟩] = encode [⟨kind, line, col, endCol⟩]) :
    encode (ops.map (Operand.renamed rename)) = encode ops := by
  match ops with
  | [] => rfl
  | [op] => exact same op.kind _ _ _
  | _ :: _ :: _ => exact (more _ _ _).trans (more _ _ _).symm

/-- A form of two operands. -/
theorem two_renamed (encode : List Operand → EncodedInstruction)
    (one : ∀ op, encode [op] = none)
    (more : ∀ first second third rest, encode (first :: second :: third :: rest) = none)
    (same : ∀ first line col endCol second line' col' endCol',
      encode [⟨first.renamed rename, 0, 0, 0⟩, ⟨second.renamed rename, 0, 0, 0⟩] =
        encode [⟨first, line, col, endCol⟩, ⟨second, line', col', endCol'⟩]) :
    encode (ops.map (Operand.renamed rename)) = encode ops := by
  match ops with
  | [] => rfl
  | [_] => exact (one _).trans (one _).symm
  | [first, second] => exact same first.kind _ _ _ second.kind _ _ _
  | _ :: _ :: _ :: _ => exact (more _ _ _ _).trans (more _ _ _ _).symm

theorem encMov_renamed : encMov (ops.map (Operand.renamed rename)) = encMov ops :=
  two_renamed rename ops encMov (fun _ => rfl) (fun _ _ _ _ => rfl)
    fun first _ _ _ second _ _ _ => by cases first <;> cases second <;> rfl

theorem encLea_renamed : encLea (ops.map (Operand.renamed rename)) = encLea ops :=
  two_renamed rename ops encLea (fun _ => rfl) (fun _ _ _ _ => rfl)
    fun first _ _ _ second _ _ _ => by cases first <;> cases second <;> rfl

theorem encMovx_renamed (signExtend : Bool) :
    encMovx (ops.map (Operand.renamed rename)) signExtend = encMovx ops signExtend :=
  two_renamed rename ops (encMovx · signExtend) (fun _ => rfl) (fun _ _ _ _ => rfl)
    fun first _ _ _ second _ _ _ => by cases first <;> cases second <;> rfl

theorem encStack_renamed (opcode : Nat) :
    encStack (ops.map (Operand.renamed rename)) opcode = encStack ops opcode :=
  one_renamed rename ops (encStack · opcode) (fun _ _ _ => rfl)
    fun kind _ _ _ => by cases kind <;> rfl

theorem encAlu_renamed (opRr : UInt8) (riExt : Nat) :
    encAlu (ops.map (Operand.renamed rename)) opRr riExt = encAlu ops opRr riExt :=
  two_renamed rename ops (encAlu · opRr riExt) (fun _ => rfl) (fun _ _ _ _ => rfl)
    fun first _ _ _ second _ _ _ => by cases first <;> cases second <;> rfl

theorem encUnary_renamed (ext : Nat) :
    encUnary (ops.map (Operand.renamed rename)) ext = encUnary ops ext :=
  one_renamed rename ops (encUnary · ext) (fun _ _ _ => rfl)
    fun kind _ _ _ => by cases kind <;> rfl

theorem encDivide_renamed (ext : Nat) :
    encDivide (ops.map (Operand.renamed rename)) ext = encDivide ops ext :=
  one_renamed rename ops (encDivide · ext) (fun _ _ _ => rfl)
    fun kind _ _ _ => by cases kind <;> rfl

theorem encShift_renamed (ext : Nat) :
    encShift (ops.map (Operand.renamed rename)) ext = encShift ops ext :=
  two_renamed rename ops (encShift · ext) (fun _ => rfl) (fun _ _ _ _ => rfl)
    fun first _ _ _ second _ _ _ => by cases first <;> cases second <;> rfl

theorem encTest_renamed : encTest (ops.map (Operand.renamed rename)) = encTest ops :=
  two_renamed rename ops encTest (fun _ => rfl) (fun _ _ _ _ => rfl)
    fun first _ _ _ second _ _ _ => by cases first <;> cases second <;> rfl

theorem encSetcc_renamed (opcode2 : UInt8) :
    encSetcc (ops.map (Operand.renamed rename)) opcode2 = encSetcc ops opcode2 :=
  one_renamed rename ops (encSetcc · opcode2) (fun _ _ _ => rfl)
    fun kind _ _ _ => by cases kind <;> rfl

theorem encNear_renamed (disp : Int64) (ext : Nat) (opcode : UInt8) :
    encNear (ops.map (Operand.renamed rename)) disp ext opcode = encNear ops disp ext opcode :=
  one_renamed rename ops (encNear · disp ext opcode) (fun _ _ _ => rfl)
    fun kind _ _ _ => by cases kind <;> rfl

theorem encJcc_renamed (disp : Int64) (opcode2 : UInt8) :
    encJcc (ops.map (Operand.renamed rename)) disp opcode2 = encJcc ops disp opcode2 :=
  one_renamed rename ops (encJcc · disp opcode2) (fun _ _ _ => rfl)
    fun kind _ _ _ => by cases kind <;> rfl

theorem encInt_renamed : encInt (ops.map (Operand.renamed rename)) = encInt ops :=
  one_renamed rename ops encInt (fun _ _ _ => rfl)
    fun kind _ _ _ => by cases kind <;> rfl

theorem sse2EncodeMove_renamed :
    sse2EncodeMove (ops.map (Operand.renamed rename)) = sse2EncodeMove ops :=
  two_renamed rename ops sse2EncodeMove (fun _ => rfl) (fun _ _ _ _ => rfl)
    fun first _ _ _ second _ _ _ => by cases first <;> cases second <;> rfl

theorem encodeXmmBinary_renamed (mandatory opcode : UInt8) :
    encodeXmmBinary (ops.map (Operand.renamed rename)) mandatory opcode =
      encodeXmmBinary ops mandatory opcode :=
  two_renamed rename ops (encodeXmmBinary · mandatory opcode) (fun _ => rfl) (fun _ _ _ _ => rfl)
    fun first _ _ _ second _ _ _ => by cases first <;> cases second <;> rfl

theorem encodeCvtsi2sd_renamed :
    encodeCvtsi2sd (ops.map (Operand.renamed rename)) = encodeCvtsi2sd ops :=
  two_renamed rename ops encodeCvtsi2sd (fun _ => rfl) (fun _ _ _ _ => rfl)
    fun first _ _ _ second _ _ _ => by cases first <;> cases second <;> rfl

theorem encodeCvttsd2si_renamed :
    encodeCvttsd2si (ops.map (Operand.renamed rename)) = encodeCvttsd2si ops :=
  two_renamed rename ops encodeCvttsd2si (fun _ => rfl) (fun _ _ _ _ => rfl)
    fun first _ _ _ second _ _ _ => by cases first <;> cases second <;> rfl

theorem encImul_renamed : encImul (ops.map (Operand.renamed rename)) = encImul ops := by
  match ops with
  | [] => rfl
  | [_] => rfl
  | [⟨first, _, _, _⟩, ⟨second, _, _, _⟩] => cases first <;> cases second <;> rfl
  | [⟨first, _, _, _⟩, ⟨second, _, _, _⟩, ⟨third, _, _, _⟩] =>
      cases first <;> cases second <;> cases third <;> rfl
  | _ :: _ :: _ :: _ :: _ => rfl

theorem encCqo_renamed : encCqo (ops.map (Operand.renamed rename)) = encCqo ops := by
  rw [encCqo, encCqo, List.length_map]

theorem sse2OperandsUseXmm_renamed :
    sse2OperandsUseXmm (ops.map (Operand.renamed rename)) = sse2OperandsUseXmm ops := by
  have one : ∀ op : Operand, isXmmOperand (op.renamed rename) = isXmmOperand op := by
    rintro ⟨kind, _, _, _⟩
    cases kind <;> rfl
  rw [sse2OperandsUseXmm, sse2OperandsUseXmm, List.any_map]
  exact congrArg ops.any (funext one)

theorem sse2Encode_renamed (opcode : OpcodeEnum) :
    sse2Encode opcode (ops.map (Operand.renamed rename)) = sse2Encode opcode ops := by
  unfold sse2Encode
  simp only [encodeXmmBinary_renamed, encodeCvtsi2sd_renamed, encodeCvttsd2si_renamed]

/-! ## The encoder -/

/-- The encoder returns the same for renamed operands. -/
theorem encoderEncode_renamed (opcode : OpcodeEnum) (resolvedTarget : Int64) :
    encoderEncode opcode (ops.map (Operand.renamed rename)) resolvedTarget =
      encoderEncode opcode ops resolvedTarget := by
  unfold encoderEncode
  simp only [sse2OperandsUseXmm_renamed, sse2EncodeMove_renamed, encMov_renamed, encPush, encPop,
    encStack_renamed, encLea_renamed, encMovx_renamed, encAlu_renamed, encImul_renamed, encIdiv, encDiv,
    encDivide_renamed, encCqo_renamed, encUnary_renamed, sse2Encode_renamed, encTest_renamed,
    encSetcc_renamed, encShift_renamed, encJmp, encCall, encNear_renamed, encJcc_renamed,
    encInt_renamed]

theorem sizeStack_renamed : sizeStack (ops.map (Operand.renamed rename)) = sizeStack ops := by
  match ops with
  | [] => rfl
  | [⟨kind, _, _, _⟩] => cases kind <;> rfl
  | _ :: _ :: _ => rfl

theorem sizeNear_renamed : sizeNear (ops.map (Operand.renamed rename)) = sizeNear ops := by
  match ops with
  | [] => rfl
  | [⟨kind, _, _, _⟩] => cases kind <;> rfl
  | _ :: _ :: _ => rfl

theorem sizeInt_renamed : sizeInt (ops.map (Operand.renamed rename)) = sizeInt ops := by
  match ops with
  | [] => rfl
  | [⟨kind, _, _, _⟩] => cases kind <;> rfl
  | _ :: _ :: _ => rfl

theorem encoderInstructionSize_renamed (opcode : OpcodeEnum) :
    encoderInstructionSize opcode (ops.map (Operand.renamed rename)) =
      encoderInstructionSize opcode ops := by
  unfold encoderInstructionSize
  simp only [sse2OperandsUseXmm_renamed, sse2EncodeMove_renamed, encMov_renamed, sizeStack_renamed,
    encLea_renamed, encMovx_renamed, encAlu_renamed, encImul_renamed, encIdiv, encDiv, encDivide_renamed,
    encCqo_renamed, encUnary_renamed, sse2Encode_renamed, encTest_renamed, encSetcc_renamed,
    encShift_renamed, sizeNear_renamed, sizeInt_renamed]

end Names

end Nazm.Encoder
