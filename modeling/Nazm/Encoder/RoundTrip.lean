import Mathlib.Tactic.IntervalCases
import Nazm.Encoder.Forms

/-!
Decoding undoes encoding, function by function.

Owns, for each `enc_*` function of `table.c`, the statement that the bytes it
returns read as the meaning of the instruction it was given.
-/

namespace Nazm.Encoder

open LittleEndian

/-! ## The meaning of an operand list -/

theorem regIsGpr_of_valid {r : RegId} (valid : validIntegerWidth (regWidthBits r) = true) :
    regIsGpr r = true := by
  cases r <;> first | rfl | simp [validIntegerWidth, regWidthBits] at valid

theorem generalWidth_first {operand : Operand} {r : RegId} (kind : operand.kind = .reg r)
    (valid : validIntegerWidth (regWidthBits r) = true) (ops : List Operand) :
    generalWidth (operand :: ops) = regWidthBits r := by
  simp [generalWidth, Operand.register?, kind, regIsGpr_of_valid valid]

theorem generalWidth_second {first operand : Operand} {r : RegId}
    (notRegister : first.register? = none) (kind : operand.kind = .reg r)
    (valid : validIntegerWidth (regWidthBits r) = true) (ops : List Operand) :
    generalWidth (first :: operand :: ops) = regWidthBits r := by
  have register : operand.register? = some r := by rw [Operand.register?, kind]
  simp [generalWidth, notRegister, register, regIsGpr_of_valid valid]

theorem register?_of_memory {operand : Operand} {base : RegId} {disp : Int32}
    (memory : operandMem operand.kind = some (base, disp)) : operand.register? = none := by
  unfold Operand.register?
  cases kind : operand.kind <;> simp [kind, operandMem] at memory ⊢

theorem sse2OperandsUseXmm_eq (ops : List Operand) : sse2OperandsUseXmm ops = movesScalar ops := by
  induction ops with
  | nil => rfl
  | cons operand ops inductionHypothesis =>
      simp only [sse2OperandsUseXmm, movesScalar, List.any_cons] at inductionHypothesis ⊢
      cases kind : operand.kind <;>
        simp [isXmmOperand, Operand.register?, kind, inductionHypothesis]

theorem meaning_eq {opcode : OpcodeEnum} {ops : List Operand} {target symbol : Int}
    {operation : X86.Operation} {width : Nat} {operands : List X86.Operand}
    (isOperation : operationMeaning opcode ops = some operation)
    (isWidth : widthMeaning opcode ops = width)
    (areOperands : operandsMeaning opcode ops target symbol = some operands) :
    meaning opcode ops target symbol = some ⟨operation, width, operands⟩ := by
  simp [meaning, isOperation, isWidth, areOperands]

theorem operandsMeaning_nil (opcode : OpcodeEnum) (target symbol : Int) :
    operandsMeaning opcode [] target symbol = some [] := by
  cases opcode <;> rfl

theorem operandsMeaning_one {opcode : OpcodeEnum} {operand : Operand} {target symbol : Int}
    {first : X86.Operand}
    (isFirst : operandMeaning opcode (immediateWidth opcode [operand]) target symbol operand.kind =
      some first) :
    operandsMeaning opcode [operand] target symbol = some [first] := by
  cases shift : isShift opcode <;> simp [operandsMeaning, shift, isFirst]

theorem operandsMeaning_two {opcode : OpcodeEnum} {dst src : Operand} {target symbol : Int}
    {first second : X86.Operand} (notShift : isShift opcode = false)
    (isFirst : operandMeaning opcode (immediateWidth opcode [dst, src]) target symbol dst.kind =
      some first)
    (isSecond : operandMeaning opcode (immediateWidth opcode [dst, src]) target symbol src.kind =
      some second) :
    operandsMeaning opcode [dst, src] target symbol = some [first, second] := by
  simp [operandsMeaning, notShift, isFirst, isSecond]

/-- The bytes of a statement read as what it asks for. -/
def ReadsAs (bytes : List UInt8) (opcode : OpcodeEnum) (ops : List Operand) (target symbol : Int) :
    Prop :=
  ∃ instruction, meaning opcode ops target symbol = some instruction ∧ Reads bytes instruction

/-! ## Forms of `op r, r`, `op r, [m]`, `op [m], r` over one opcode -/

/-- An opcode that takes a general destination and its width from it. -/
structure IsGeneral (opcode : OpcodeEnum) (ops : List Operand) (operation : X86.Operation) :
    Prop where
  operation : operationMeaning opcode ops = some operation
  width : widthMeaning opcode ops = generalWidth ops
  notShift : isShift opcode = false
  immediateWidth : immediateWidth opcode ops = generalWidth ops

theorem readsAs_registers {opcode : OpcodeEnum} {operation : X86.Operation} {first second : Operand}
    {dst src : RegId} (general : IsGeneral opcode [first, second] operation)
    (firstKind : first.kind = .reg dst) (secondKind : second.kind = .reg src)
    (same : sameRegisterWidth dst src = true) {bytes : List UInt8} {target symbol : Int}
    (reads : Reads bytes
      ⟨operation, regWidthBits dst, [.register (registerOf dst), .register (registerOf src)]⟩) :
    ReadsAs bytes opcode [first, second] target symbol := by
  obtain ⟨valid, widths⟩ := sameRegisterWidth_cases same
  refine ⟨_, meaning_eq general.operation ?_ (operandsMeaning_two general.notShift ?_ ?_), reads⟩
  · rw [general.width, generalWidth_first firstKind valid]
  · rw [firstKind]
    exact operandMeaning_register _ _ _ _ valid
  · rw [secondKind]
    exact operandMeaning_register _ _ _ _ (widths ▸ valid)

theorem readsAs_load {opcode : OpcodeEnum} {operation : X86.Operation} {first second : Operand}
    {dst base : RegId} {disp : Int32} (general : IsGeneral opcode [first, second] operation)
    (firstKind : first.kind = .reg dst) (memory : operandMem second.kind = some (base, disp))
    (valid : validIntegerWidth (regWidthBits dst) = true) {bytes : List UInt8} {target symbol : Int}
    (reads : Reads bytes
      ⟨operation, regWidthBits dst,
        [.register (registerOf dst), .memory (some (registerNumber base)) none disp.toInt]⟩) :
    ReadsAs bytes opcode [first, second] target symbol := by
  refine ⟨_, meaning_eq general.operation ?_ (operandsMeaning_two general.notShift ?_ ?_), reads⟩
  · rw [general.width, generalWidth_first firstKind valid]
  · rw [firstKind]
    exact operandMeaning_register _ _ _ _ valid
  · exact operandMeaning_memory memory _ _ _ _

theorem readsAs_store {opcode : OpcodeEnum} {operation : X86.Operation} {first second : Operand}
    {src base : RegId} {disp : Int32} (general : IsGeneral opcode [first, second] operation)
    (memory : operandMem first.kind = some (base, disp)) (secondKind : second.kind = .reg src)
    (valid : validIntegerWidth (regWidthBits src) = true) {bytes : List UInt8} {target symbol : Int}
    (reads : Reads bytes
      ⟨operation, regWidthBits src,
        [.memory (some (registerNumber base)) none disp.toInt, .register (registerOf src)]⟩) :
    ReadsAs bytes opcode [first, second] target symbol := by
  refine ⟨_, meaning_eq general.operation ?_ (operandsMeaning_two general.notShift ?_ ?_), reads⟩
  · rw [general.width, generalWidth_second (register?_of_memory memory) secondKind valid]
  · exact operandMeaning_memory memory _ _ _ _
  · rw [secondKind]
    exact operandMeaning_register _ _ _ _ valid

theorem readsAs_immediate {opcode : OpcodeEnum} {operation : X86.Operation} {first second : Operand}
    {dst : RegId} {value : Int64} (general : IsGeneral opcode [first, second] operation)
    (firstKind : first.kind = .reg dst) (secondKind : second.kind = .imm value)
    (valid : validIntegerWidth (regWidthBits dst) = true) {bytes : List UInt8} {target symbol : Int}
    (reads : Reads bytes
      ⟨operation, regWidthBits dst,
        [.register (registerOf dst),
          .immediate (value.toInt % 2 ^ regWidthBits dst).toNat]⟩) :
    ReadsAs bytes opcode [first, second] target symbol := by
  refine ⟨_, meaning_eq general.operation ?_ (operandsMeaning_two general.notShift ?_ ?_), reads⟩
  · rw [general.width, generalWidth_first firstKind valid]
  · rw [firstKind]
    exact operandMeaning_register _ _ _ _ valid
  · rw [secondKind, general.immediateWidth, generalWidth_first firstKind valid]
    rfl

theorem readsAs_symbol_load {opcode : OpcodeEnum} {operation : X86.Operation}
    {first second : Operand} {dst : RegId} {label : List UInt8}
    (general : IsGeneral opcode [first, second] operation) (firstKind : first.kind = .reg dst)
    (secondKind : second.kind = .memRipLabel label)
    (valid : validIntegerWidth (regWidthBits dst) = true) {bytes : List UInt8} {target symbol : Int}
    (reads : Reads bytes
      ⟨operation, regWidthBits dst, [.register (registerOf dst), .ripRelative symbol]⟩) :
    ReadsAs bytes opcode [first, second] target symbol := by
  refine ⟨_, meaning_eq general.operation ?_ (operandsMeaning_two general.notShift ?_ ?_), reads⟩
  · rw [general.width, generalWidth_first firstKind valid]
  · rw [firstKind]
    exact operandMeaning_register _ _ _ _ valid
  · rw [secondKind]
    rfl

theorem readsAs_symbol_store {opcode : OpcodeEnum} {operation : X86.Operation}
    {first second : Operand} {src : RegId} {label : List UInt8}
    (general : IsGeneral opcode [first, second] operation)
    (firstKind : first.kind = .memRipLabel label) (secondKind : second.kind = .reg src)
    (valid : validIntegerWidth (regWidthBits src) = true) {bytes : List UInt8} {target symbol : Int}
    (reads : Reads bytes
      ⟨operation, regWidthBits src, [.ripRelative symbol, .register (registerOf src)]⟩) :
    ReadsAs bytes opcode [first, second] target symbol := by
  have notRegister : first.register? = none := by rw [Operand.register?, firstKind]
  refine ⟨_, meaning_eq general.operation ?_ (operandsMeaning_two general.notShift ?_ ?_), reads⟩
  · rw [general.width, generalWidth_second notRegister secondKind valid]
  · rw [firstKind]
    rfl
  · rw [secondKind]
    exact operandMeaning_register _ _ _ _ valid

/-! ## MOV -/

theorem movStore_isForm : IsForm 0x88 0x89 (X86.formRmReg .mov) :=
  ⟨by decide, by decide, fun _ _ => ⟨rfl, rfl⟩⟩

theorem movLoad_isForm : IsForm 0x8A 0x8B fun width => X86.formRegRm .mov width width :=
  ⟨by decide, by decide, fun _ _ => ⟨rfl, rfl⟩⟩

theorem mov_isGeneral {ops : List Operand} (scalar : sse2OperandsUseXmm ops = false) :
    IsGeneral .mov ops .mov := by
  rw [sse2OperandsUseXmm_eq] at scalar
  exact ⟨by simp [operationMeaning, scalar], by simp [widthMeaning, scalar], rfl,
    by simp [immediateWidth, widthMeaning, scalar]⟩

/-- The register named in an opcode byte. -/
theorem opcodeRegister_read {r : RegId} (valid : validIntegerWidth (regWidthBits r) = true)
    {opcode : Nat} (low : opcode % 8 = rf r) :
    X86.opcodeRegister
        (headerContext (regWidthBits r) (regNeedsRex .invalid) (regNeedsRex r)
          (forcesRex (regWidthBits r) .invalid r)) (regWidthBits r) opcode =
      .register (registerOf r) := by
  rw [X86.opcodeRegister, low]
  exact congrArg X86.Operand.register (generalRegister_rm .invalid valid)

theorem toNat_add_rf {base : Nat} (room : base + 7 < 256) (r : RegId) :
    (UInt8.ofNat (base + rf r)).toNat = base + rf r := by
  have bound := rf_lt r
  rw [UInt8.toNat_ofNat', Nat.mod_eq_of_lt (by omega)]

/-- `opcode + r` is neither a prefix nor the escape byte. -/
theorem plain_add_rf (r : RegId) :
    plainOpcode (UInt8.ofNat (0xB0 + rf r)) = true ∧ UInt8.ofNat (0xB0 + rf r) ≠ 0x0F ∧
      plainOpcode (UInt8.ofNat (0xB8 + rf r)) = true ∧ UInt8.ofNat (0xB8 + rf r) ≠ 0x0F ∧
      plainOpcode (UInt8.ofNat (0x50 + rf r)) = true ∧ UInt8.ofNat (0x50 + rf r) ≠ 0x0F ∧
      plainOpcode (UInt8.ofNat (0x58 + rf r)) = true ∧ UInt8.ofNat (0x58 + rf r) ≠ 0x0F := by
  have all : ∀ field : Fin 8,
      plainOpcode (UInt8.ofNat (0xB0 + field)) = true ∧ UInt8.ofNat (0xB0 + field) ≠ 0x0F ∧
      plainOpcode (UInt8.ofNat (0xB8 + field)) = true ∧ UInt8.ofNat (0xB8 + field) ≠ 0x0F ∧
      plainOpcode (UInt8.ofNat (0x50 + field)) = true ∧ UInt8.ofNat (0x50 + field) ≠ 0x0F ∧
      plainOpcode (UInt8.ofNat (0x58 + field)) = true ∧ UInt8.ofNat (0x58 + field) ≠ 0x0F := by
    decide
  exact all ⟨rf r, rf_lt r⟩

theorem decodePrimary_movByte (r : RegId) (context : X86.Context) (code : List UInt8) :
    X86.decodePrimary context (0xB0 + rf r) code =
      (X86.readImmediate 1 8 code).map fun (immediate, code) =>
        (⟨.mov, 8, [X86.opcodeRegister context 8 (0xB0 + rf r), immediate]⟩, code) := by
  have bound := rf_lt r
  generalize rf r = field at bound
  interval_cases field <;> rfl

theorem decodePrimary_movWide (r : RegId) (context : X86.Context) (code : List UInt8) :
    X86.decodePrimary context (0xB8 + rf r) code =
      (X86.readImmediate (context.operandWidth / 8) context.operandWidth code).map
        fun (immediate, code) =>
          (⟨.mov, context.operandWidth,
            [X86.opcodeRegister context context.operandWidth (0xB8 + rf r), immediate]⟩, code) := by
  have bound := rf_lt r
  generalize rf r = field at bound
  interval_cases field <;> rfl

/-- `B8+r` with an immediate as wide as the register, whatever it holds. -/
theorem reads_movWide {r : RegId} (valid : validIntegerWidth (regWidthBits r) = true)
    (wide : regWidthBits r ≠ 8) (number : Int) :
    Reads (headerBytes (regWidthBits r) (regNeedsRex .invalid) (regNeedsRex r)
          (forcesRex (regWidthBits r) .invalid r) ++
        UInt8.ofNat (0xB8 + rf r) :: intBytes (regWidthBits r / 8) number)
      ⟨.mov, regWidthBits r,
        [.register (registerOf r), .immediate (number % 2 ^ regWidthBits r).toNat]⟩ := by
  intro rest
  have octets : 8 * (regWidthBits r / 8) = regWidthBits r := by
    rcases validIntegerWidth_cases valid with width | width | width | width <;> rw [width]
  have immediate := readImmediate_exact (regWidthBits r / 8) number rest
  rw [octets] at immediate
  have bound := rf_lt r
  rw [List.append_assoc, List.cons_append,
    decode_primary _ _ _ _ (plain_add_rf r).2.2.1 (plain_add_rf r).2.2.2.1,
    toNat_add_rf (by omega), decodePrimary_movWide]
  simp only [operandWidth_header valid wide, immediate, Option.map_some,
    opcodeRegister_read valid (show (0xB8 + rf r) % 8 = rf r by omega)]

theorem reads_movByte {r : RegId} (byte : regWidthBits r = 8) (number : Int) :
    Reads (headerBytes (regWidthBits r) (regNeedsRex .invalid) (regNeedsRex r)
          (forcesRex (regWidthBits r) .invalid r) ++
        UInt8.ofNat (0xB0 + rf r) :: intBytes 1 number)
      ⟨.mov, regWidthBits r,
        [.register (registerOf r), .immediate (number % 2 ^ regWidthBits r).toNat]⟩ := by
  intro rest
  have valid : validIntegerWidth (regWidthBits r) = true := by rw [byte]; rfl
  have immediate := readImmediate_exact 1 number rest
  have register := opcodeRegister_read valid
    (show (0xB0 + rf r) % 8 = rf r by have bound := rf_lt r; omega)
  rw [List.append_assoc, List.cons_append,
    decode_primary _ _ _ _ (plain_add_rf r).1 (plain_add_rf r).2.1,
    toNat_add_rf (by omega), decodePrimary_movByte]
  rw [byte] at register ⊢
  simp only [immediate, Option.map_some, register]

theorem reads_movSigned {r : RegId} (wide : regWidthBits r = 64) {value : Int64}
    (fits : immediateFitsI32 value = true) :
    Reads (headerBytes (regWidthBits r) (regNeedsRex .invalid) (regNeedsRex r)
          (forcesRex (regWidthBits r) .invalid r) ++
        0xC7 :: modrmByte 3 0 (rf r) :: intBytes 4 value.toInt)
      ⟨.mov, regWidthBits r,
        [.register (registerOf r), .immediate (value.toInt % 2 ^ regWidthBits r).toNat]⟩ := by
  intro rest
  have valid := general_of_width64 wide
  have read := readImmediate_width valid
    (show immediateFitsWidth (regWidthBits r) value = true by rw [wide]; exact fits) rest
  rw [show X86.immediateBytes (regWidthBits r) = 4 by rw [wide]; rfl] at read
  rw [List.append_assoc, List.cons_append,
    decode_wide (fun width context code => X86.formRmImmediate
        (fun digit => if digit = 0 then some .mov else none) width (X86.immediateBytes width)
        context code)
      (by decide) (by decide) (fun _ _ => rfl) valid (by omega),
    List.cons_append, show X86.immediateBytes (regWidthBits r) = 4 by rw [wide]; rfl]
  exact formRmImmediate_register _ (by omega) rfl valid read

theorem intBytes_one (number : Int) : intBytes 1 number = [byteAt number 0] := by
  rw [intBytes_eq_map_byteAt]
  rfl

theorem intBytes_two (number : Int) : intBytes 2 number = [byteAt number 0, byteAt number 8] := by
  rw [intBytes_eq_map_byteAt]
  rfl

theorem encMovRegImm_reads {dst : RegId} {value : Int64} {bytes : List UInt8}
    (encoded : encMovRegImm dst value = some bytes) :
    validIntegerWidth (regWidthBits dst) = true ∧
      Reads bytes ⟨.mov, regWidthBits dst,
        [.register (registerOf dst), .immediate (value.toInt % 2 ^ regWidthBits dst).toNat]⟩ := by
  have length := length_headerBytes_le (regWidthBits dst) (regNeedsRex .invalid) (regNeedsRex dst)
    (forcesRex (regWidthBits dst) .invalid dst)
  cases valid : validIntegerWidth (regWidthBits dst) with
  | false => simp [encMovRegImm, valid] at encoded
  | true =>
      refine ⟨rfl, ?_⟩
      simp only [encMovRegImm, valid, Bool.not_true, Bool.false_eq_true, if_false] at encoded
      rcases validIntegerWidth_cases valid with width | width | width | width
      · simp only [width, if_true, Option.ite_none_left_eq_some, Option.some.injEq] at encoded
        obtain ⟨-, rfl⟩ := encoded
        have reads := reads_movByte width value.toInt
        rw [emitRexForWidth_nil (by omega), emit_header, emit_header_append _ _ _ _ (by simp)]
        rw [intBytes_one] at reads
        rwa [width] at reads ⊢
      · simp only [width, Nat.reduceEqDiff, reduceIte, Option.ite_none_left_eq_some,
          Option.some.injEq] at encoded
        obtain ⟨-, rfl⟩ := encoded
        have reads := reads_movWide valid (by omega) value.toInt
        rw [emitRexForWidth_header, emit_header, emit_header_append _ _ _ _ (by simp),
          emit_header_append _ _ _ _ (by simp)]
        rw [width, intBytes_two] at reads
        rwa [width]
      · simp only [width, Nat.reduceEqDiff, reduceIte, Option.ite_none_left_eq_some,
          Option.some.injEq] at encoded
        obtain ⟨-, rfl⟩ := encoded
        have reads := reads_movWide valid (by omega) value.toInt
        rw [width] at length reads
        rw [emitRexForWidth_nil (by omega), emit_header, emit32_of_le (by simp; omega),
          List.append_assoc]
        rwa [width]
      · rw [width] at length
        simp only [width] at encoded
        by_cases fits : immediateFitsI32 value = true
        · have reads := reads_movSigned width fits
          rw [width] at reads ⊢
          simp only [fits, if_true] at encoded
          obtain rfl := Option.some.inj encoded
          rw [emitRexForWidth_nil (by omega), emit_header, emit_header_append _ _ _ _ (by simp),
            emit32_of_le (by simp; omega), List.append_assoc]
          exact reads
        · have reads := reads_movWide valid (by omega) value.toInt
          rw [width] at reads ⊢
          simp only [fits] at encoded
          obtain rfl := Option.some.inj encoded
          rw [emitRexForWidth_nil (by omega), emit_header, emit64_of_le (by simp; omega),
            List.append_assoc]
          exact reads

/-- `B8+r imm64` for a symbol: its field is the last eight bytes. -/
theorem readsAs_movLabel {first second : Operand} {dst : RegId} {label : List UInt8}
    (general : IsGeneral .mov [first, second] .mov) (firstKind : first.kind = .reg dst)
    (secondKind : second.kind = .label label) (wide : regWidthBits dst = 64) (target symbol : Int) :
    ReadsAs (headerBytes 64 (regNeedsRex .invalid) (regNeedsRex dst) (forcesRex 64 .invalid dst) ++
        UInt8.ofNat (0xB8 + rf dst) :: intBytes 8 symbol) .mov [first, second] target symbol := by
  have valid := general_of_width64 wide
  have reads := reads_movWide valid (by omega) symbol
  rw [wide] at reads
  refine ⟨_, meaning_eq general.operation ?_ (operandsMeaning_two general.notShift ?_ ?_), reads⟩
  · rw [general.width, generalWidth_first firstKind valid, wide]
  · rw [firstKind]
    exact operandMeaning_register _ _ _ _ valid
  · rw [secondKind]
    rfl

theorem encMovRegLabel_bytes {dst : RegId} {bytes : List UInt8}
    (encoded : encMovRegLabel dst = some bytes) :
    regWidthBits dst = 64 ∧
      bytes = headerBytes 64 (regNeedsRex .invalid) (regNeedsRex dst) (forcesRex 64 .invalid dst) ++
        UInt8.ofNat (0xB8 + rf dst) :: intBytes 8 0 := by
  have length := length_headerBytes_le 64 (regNeedsRex .invalid) (regNeedsRex dst)
    (forcesRex 64 .invalid dst)
  simp only [encMovRegLabel, Option.ite_none_left_eq_some, ne_eq, not_not,
    Option.some.injEq] at encoded
  obtain ⟨wide, rfl⟩ := encoded
  refine ⟨wide, ?_⟩
  rw [emitRexForWidth_nil (by omega), emit_header, emit64_of_le (by simp; omega), List.append_assoc]
  rfl

theorem encMovRegLabel_readsAs {first second : Operand} {dst : RegId} {label bytes : List UInt8}
    {target : Int} (general : IsGeneral .mov [first, second] .mov)
    (firstKind : first.kind = .reg dst) (secondKind : second.kind = .label label)
    (encoded : encMovRegLabel dst = some bytes) : ReadsAs bytes .mov [first, second] target 0 := by
  obtain ⟨wide, rfl⟩ := encMovRegLabel_bytes encoded
  exact readsAs_movLabel general firstKind secondKind wide target 0

theorem encMov_readsAs {ops : List Operand} {bytes : List UInt8}
    (scalar : sse2OperandsUseXmm ops = false) (encoded : encMov ops = some bytes) (target : Int) :
    ReadsAs bytes .mov ops target 0 := by
  have general := mov_isGeneral scalar
  unfold encMov at encoded
  split at encoded
  · next first second =>
    split at encoded
    · next dst value firstKind secondKind =>
        obtain ⟨valid, reads⟩ := encMovRegImm_reads encoded
        exact readsAs_immediate general firstKind secondKind valid reads
    · next dst label firstKind secondKind =>
        exact encMovRegLabel_readsAs general firstKind secondKind encoded
    · next dst src firstKind secondKind =>
        simp only [Option.ite_none_left_eq_some, Bool.not_eq_true', Option.some.injEq,
          Bool.not_eq_false] at encoded
        obtain ⟨same, rfl⟩ := encoded
        exact readsAs_registers general firstKind secondKind same
          (reads_registers_rmReg movStore_isForm same)
    · next dst label firstKind secondKind =>
        simp only [Option.ite_none_left_eq_some, Bool.not_eq_true', Option.some.injEq,
          Bool.not_eq_false] at encoded
        obtain ⟨valid, rfl⟩ := encoded
        rw [emitRipRelativeMem_bytes]
        exact readsAs_symbol_load general firstKind secondKind valid
          (reads_symbol_regRm movLoad_isForm valid (length_intBytes 4 0))
    · next label src firstKind secondKind =>
        simp only [Option.ite_none_left_eq_some, Bool.not_eq_true', Option.some.injEq,
          Bool.not_eq_false] at encoded
        obtain ⟨valid, rfl⟩ := encoded
        rw [emitRipRelativeMem_bytes]
        exact readsAs_symbol_store general firstKind secondKind valid
          (reads_symbol_rmReg movStore_isForm valid (length_intBytes 4 0))
    · next dst source firstKind _ _ _ _ =>
        split at encoded
        · next base disp memory =>
            simp only [Option.ite_none_left_eq_some, Bool.or_eq_true, Bool.not_eq_true', not_or,
              Option.some.injEq, Bool.not_eq_false] at encoded
            obtain ⟨⟨valid, -⟩, rfl⟩ := encoded
            exact readsAs_load general firstKind memory valid
              (reads_memory_regRm movLoad_isForm disp valid)
        · contradiction
    · next src _ secondKind _ _ =>
        split at encoded
        · next base disp memory =>
            simp only [Option.ite_none_left_eq_some, Bool.or_eq_true, Bool.not_eq_true', not_or,
              Option.some.injEq, Bool.not_eq_false] at encoded
            obtain ⟨⟨valid, -⟩, rfl⟩ := encoded
            exact readsAs_store general memory secondKind valid
              (reads_memory_rmReg movStore_isForm disp valid)
        · contradiction
    · contradiction
  · contradiction

/-! ## MOVZX and MOVSX -/

/-- `emit_rex_for_extension` writes the header of a form at the destination's
width, except that the byte source decides whether REX is forced. -/
theorem emitRexForExtension_header {width : Nat} (wide : width ≠ 8) (destination source : RegId) :
    emitRexForExtension (emitWidthPrefix [] width) width destination source =
      headerBytes width (regNeedsRex destination) (regNeedsRex source)
        (decide (regWidthBits source = 8) && regRequiresRexByte source) := by
  simp only [emitRexForExtension, rexRequired, Bool.or_false, headerBytes, rexR, rexB]
  by_cases sixteen : width = 16
  · subst sixteen
    by_cases rex : (decide (regWidthBits source = 8) && regRequiresRexByte source ||
        (regNeedsRex destination || regNeedsRex source)) = true
    · simp [emitWidthPrefix, emit, maxInstructionBytes, rex]
    · simp [emitWidthPrefix, emit, maxInstructionBytes, rex]
  · simp [emitWidthPrefix, emit, maxInstructionBytes, sixteen]

/-- `op r, r/m` with a source register of its own width. -/
theorem formRegRm_extension (operation : X86.Operation) {destination source : RegId}
    (destinationValid : validIntegerWidth (regWidthBits destination) = true)
    (notByte : regWidthBits destination ≠ 8)
    (sourceValid : validIntegerWidth (regWidthBits source) = true) {context : X86.Context}
    (isContext : context = headerContext (regWidthBits destination) (regNeedsRex destination)
      (regNeedsRex source) (decide (regWidthBits source = 8) && regRequiresRexByte source))
    (rest : List UInt8) :
    X86.formRegRm operation (regWidthBits destination) (regWidthBits source) context
        (modrmByte 3 (rf destination) (rf source) :: rest) =
      some (⟨operation, regWidthBits destination,
        [.register (registerOf destination), .register (registerOf source)]⟩, rest) := by
  have destinationRead := generalRegister_read context destinationValid
    (fun required => absurd (regRequiresRexByte_width required) notByte)
  have sourceRead := generalRegister_read context sourceValid (fun required => by
    simp [isContext, headerContext, required, regRequiresRexByte_width required])
  have extensionR : context.rex.r = regNeedsRex destination := by rw [isContext]; rfl
  have extensionB : context.rex.b = regNeedsRex source := by rw [isContext]; rfl
  rw [X86.formRegRm, readModRm_registers _ _ (rf_lt destination) (rf_lt source), extensionR,
    extensionB]
  simp only [Option.map_some, destinationRead, sourceRead]

/-- `0F op r, r/m` with a narrower source. -/
theorem reads_extension (operation : X86.Operation) (opcode : UInt8) {sourceWidth : Nat}
    (secondary : ∀ context code, X86.decodeSecondary context opcode.toNat code =
      X86.formRegRm operation context.operandWidth sourceWidth context code)
    {destination source : RegId}
    (destinationValid : validIntegerWidth (regWidthBits destination) = true)
    (notByte : regWidthBits destination ≠ 8)
    (sourceValid : validIntegerWidth (regWidthBits source) = true)
    (isWidth : regWidthBits source = sourceWidth) :
    Reads
      (headerBytes (regWidthBits destination) (regNeedsRex destination) (regNeedsRex source)
          (decide (regWidthBits source = 8) && regRequiresRexByte source) ++
        [0x0F, opcode, modrmByte 3 (rf destination) (rf source)])
      ⟨operation, regWidthBits destination,
        [.register (registerOf destination), .register (registerOf source)]⟩ := by
  intro rest
  rw [List.append_assoc, List.cons_append, List.cons_append,
    decode_secondary_wide (fun width => X86.formRegRm operation width sourceWidth)
      secondary destinationValid notByte, ← isWidth]
  exact formRegRm_extension operation destinationValid notByte sourceValid rfl rest

/-- `63 r64, r/m32`. -/
theorem reads_extension_dword {destination source : RegId} (wide : regWidthBits destination = 64)
    (dword : regWidthBits source = 32) :
    Reads
      (headerBytes (regWidthBits destination) (regNeedsRex destination) (regNeedsRex source)
          (decide (regWidthBits source = 8) && regRequiresRexByte source) ++
        [0x63, modrmByte 3 (rf destination) (rf source)])
      ⟨.movsx, regWidthBits destination,
        [.register (registerOf destination), .register (registerOf source)]⟩ := by
  intro rest
  have valid := general_of_width64 wide
  have sourceValid : validIntegerWidth (regWidthBits source) = true := by rw [dword]; rfl
  rw [List.append_assoc, List.cons_append,
    decode_wide (fun width => X86.formRegRm .movsx width 32) (by decide) (by decide)
      (fun _ _ => rfl) valid (by omega), ← dword]
  exact formRegRm_extension .movsx valid (by omega) sourceValid rfl rest

theorem encMovx_readsAs {ops : List Operand} {signExtend : Bool} {bytes : List UInt8}
    (encoded : encMovx ops signExtend = some bytes) (target : Int) :
    ReadsAs bytes (if signExtend then .movsx else .movzx) ops target 0 := by
  unfold encMovx at encoded
  split at encoded
  · next first second =>
    split at encoded
    · next destination source firstKind secondKind =>
        simp only [Option.ite_none_left_eq_some, Bool.not_eq_true', Bool.not_eq_false,
          Bool.or_eq_true, Bool.and_eq_true, decide_eq_true_eq, Option.some.injEq] at encoded
        obtain ⟨supported, rfl⟩ := encoded
        have valid : validIntegerWidth (regWidthBits destination) = true := by
          simp only [validIntegerWidth, Bool.or_eq_true, decide_eq_true_eq]
          omega
        have notByte : regWidthBits destination ≠ 8 := by omega
        have sourceValid : validIntegerWidth (regWidthBits source) = true := by
          simp only [validIntegerWidth, Bool.or_eq_true, decide_eq_true_eq]
          omega
        have asRead : ∀ {bytes}, Reads bytes
            ⟨if signExtend then .movsx else .movzx, regWidthBits destination,
              [.register (registerOf destination), .register (registerOf source)]⟩ →
            ReadsAs bytes (if signExtend then .movsx else .movzx) [first, second] target 0 := by
          intro bytes reads
          refine ⟨_, meaning_eq ?_ ?_ (operandsMeaning_two ?_ ?_ ?_), reads⟩
          · cases signExtend <;> rfl
          · rw [← generalWidth_first firstKind valid [second]]
            cases signExtend <;> rfl
          · cases signExtend <;> rfl
          · rw [firstKind]
            exact operandMeaning_register _ _ _ _ valid
          · rw [secondKind]
            exact operandMeaning_register _ _ _ _ sourceValid
        apply asRead
        rw [emitRexForExtension_header notByte]
        by_cases dword : regWidthBits source = 32
        · have signed : signExtend = true := by
            rcases supported with (byte | word) | ⟨⟨signed, -⟩, -⟩
            · omega
            · omega
            · exact signed
          subst signed
          have reads := reads_extension_dword
            (show regWidthBits destination = 64 by omega) dword
          simpa [dword, emit_header, emit_header_append] using reads
        · by_cases byte : regWidthBits source = 8
          · cases signExtend
            · have reads := reads_extension .movzx 0xB6
                (fun _ _ => rfl) valid notByte sourceValid byte
              simpa [byte, emit_header, emit_header_append] using reads
            · have reads := reads_extension .movsx 0xBE
                (fun _ _ => rfl) valid notByte sourceValid byte
              simpa [byte, emit_header, emit_header_append] using reads
          · have word : regWidthBits source = 16 := by omega
            cases signExtend
            · have reads := reads_extension .movzx 0xB7
                (fun _ _ => rfl) valid notByte sourceValid word
              simpa [word, emit_header, emit_header_append] using reads
            · have reads := reads_extension .movsx 0xBF
                (fun _ _ => rfl) valid notByte sourceValid word
              simpa [word, emit_header, emit_header_append] using reads
    · contradiction
  · contradiction

/-! ## PUSH and POP -/

theorem decodePrimary_stack (r : RegId) (context : X86.Context) (code : List UInt8) :
    X86.decodePrimary context (0x50 + rf r) code =
        some (⟨.push, 64, [X86.opcodeRegister context 64 (0x50 + rf r)]⟩, code) ∧
      X86.decodePrimary context (0x58 + rf r) code =
        some (⟨.pop, 64, [X86.opcodeRegister context 64 (0x58 + rf r)]⟩, code) := by
  have bound := rf_lt r
  generalize rf r = field at bound
  interval_cases field <;> exact ⟨rfl, rfl⟩

/-- The header of a form that has a 64-bit operand without REX.W. -/
theorem rexB_header (r : RegId) :
    (if rexB r then emit [] (rexByte false false false true) else []) =
      headerBytes 32 (regNeedsRex .invalid) (regNeedsRex r) false := by
  unfold rexB
  cases regNeedsRex r <;> rfl

theorem opcodeRegister_header32 {r : RegId} (wide : regWidthBits r = 64) {opcode : Nat}
    (low : opcode % 8 = rf r) :
    X86.opcodeRegister (headerContext 32 (regNeedsRex .invalid) (regNeedsRex r) false) 64 opcode =
      .register (registerOf r) := by
  have register := generalRegister_read
    (headerContext 32 (regNeedsRex .invalid) (regNeedsRex r) false)
    (general_of_width64 wide) (fun required => by
      rw [regRequiresRexByte_width required] at wide
      omega)
  rw [wide] at register
  rw [X86.opcodeRegister, low]
  exact congrArg X86.Operand.register register

/-- An instruction over one 64-bit register. -/
theorem readsAs_register64 {opcode : OpcodeEnum} {operation : X86.Operation} {operand : Operand}
    {r : RegId} (isOperation : operationMeaning opcode [operand] = some operation)
    (isWidth : widthMeaning opcode [operand] = 64) (kind : operand.kind = .reg r)
    (wide : regWidthBits r = 64) {bytes : List UInt8} {target symbol : Int}
    (reads : Reads bytes ⟨operation, 64, [.register (registerOf r)]⟩) :
    ReadsAs bytes opcode [operand] target symbol := by
  refine ⟨_, meaning_eq isOperation isWidth (operandsMeaning_one ?_), reads⟩
  rw [kind]
  exact operandMeaning_register _ _ _ _ (general_of_width64 wide)

theorem encStack_cases {ops : List Operand} {opcode : Nat} {bytes : List UInt8}
    (encoded : encStack ops opcode = some bytes) :
    ∃ operand r, ops = [operand] ∧ operand.kind = .reg r ∧ regWidthBits r = 64 ∧
      bytes = headerBytes 32 (regNeedsRex .invalid) (regNeedsRex r) false ++
        [UInt8.ofNat (opcode + rf r)] := by
  unfold encStack at encoded
  split at encoded
  · next operand =>
    split at encoded
    · next r kind =>
        simp only [ne_eq, Option.ite_none_left_eq_some, not_not, Option.some.injEq] at encoded
        obtain ⟨wide, rfl⟩ := encoded
        exact ⟨operand, r, rfl, kind, wide, by rw [rexB_header, emit_header]⟩
    · contradiction
  · contradiction

theorem encPush_readsAs {ops : List Operand} {bytes : List UInt8}
    (encoded : encPush ops = some bytes) (target : Int) : ReadsAs bytes .push ops target 0 := by
  obtain ⟨operand, r, rfl, kind, wide, rfl⟩ := encStack_cases encoded
  refine readsAs_register64 rfl rfl kind wide ?_
  intro rest
  have bound := rf_lt r
  rw [List.append_assoc, List.cons_append,
    decode_primary _ _ _ _ (plain_add_rf r).2.2.2.2.1 (plain_add_rf r).2.2.2.2.2.1,
    toNat_add_rf (by omega), (decodePrimary_stack r _ _).1,
    opcodeRegister_header32 wide (by omega)]
  rfl

theorem encPop_readsAs {ops : List Operand} {bytes : List UInt8}
    (encoded : encPop ops = some bytes) (target : Int) : ReadsAs bytes .pop ops target 0 := by
  obtain ⟨operand, r, rfl, kind, wide, rfl⟩ := encStack_cases encoded
  refine readsAs_register64 rfl rfl kind wide ?_
  intro rest
  have bound := rf_lt r
  rw [List.append_assoc, List.cons_append,
    decode_primary _ _ _ _ (plain_add_rf r).2.2.2.2.2.2.1 (plain_add_rf r).2.2.2.2.2.2.2,
    toNat_add_rf (by omega), (decodePrimary_stack r _ _).2,
    opcodeRegister_header32 wide (by omega)]
  rfl

/-! ## Two-operand arithmetic -/

/-- The opcode row of an arithmetic operation: `8 * ext` for bytes, the next
for wider operands, and two higher for loads. -/
theorem alu_isForm {ext : Nat} (bound : ext < 8) {opRr : UInt8}
    (row : opRr = UInt8.ofNat (8 * ext + 1)) :
    IsForm (opRr - 1) opRr (X86.formRmReg (.alu (.ofCode ext))) ∧
      IsForm (opRr - 1 + 2) (opRr + 2)
        fun width => X86.formRegRm (.alu (.ofCode ext)) width width := by
  subst row
  interval_cases ext
  all_goals
    exact ⟨⟨by decide, by decide, fun _ _ => ⟨rfl, rfl⟩⟩,
      ⟨by decide, by decide, fun _ _ => ⟨rfl, rfl⟩⟩⟩

theorem opcodeForWidth_add (width : Nat) (byteForm wideForm : UInt8) :
    opcodeForWidth width byteForm wideForm + 2 =
      opcodeForWidth width (byteForm + 2) (wideForm + 2) := by
  unfold opcodeForWidth
  split <;> rfl

/-- Header, opcode, `/digit` with a register, and an immediate field. -/
def registerImmediateBytes (r : RegId) (opcode : UInt8) (digit : Nat) (field : List UInt8) :
    List UInt8 :=
  headerBytes (regWidthBits r) (regNeedsRex .invalid) (regNeedsRex r)
      (forcesRex (regWidthBits r) .invalid r) ++
    opcode :: modrmByte 3 digit (rf r) :: field

theorem emit_registerImmediate (r : RegId) (opcode : UInt8) (digit : Nat) :
    emit (emit (emitRexForWidth (emitWidthPrefix [] (regWidthBits r)) (regWidthBits r) .invalid r)
        opcode) (modrmByte 3 digit (rf r)) =
      registerImmediateBytes r opcode digit [] := by
  rw [emitRexForWidth_header, emit_header, emit_header_append _ _ _ _ (by simp)]
  rfl

theorem foldl_registerImmediate (r : RegId) (opcode : UInt8) (digit : Nat) (field : List UInt8)
    (length : field.length ≤ 11) :
    field.foldl emit (registerImmediateBytes r opcode digit []) =
      registerImmediateBytes r opcode digit field := by
  have header := length_headerBytes_le (regWidthBits r) (regNeedsRex .invalid) (regNeedsRex r)
    (forcesRex (regWidthBits r) .invalid r)
  rw [foldl_emit _ (by simp [registerImmediateBytes]; omega)]
  simp [registerImmediateBytes]

theorem emitImmediate_registerImmediate {r : RegId}
    (valid : validIntegerWidth (regWidthBits r) = true) (opcode : UInt8) (digit : Nat) (v : Int) :
    emitImmediate (registerImmediateBytes r opcode digit []) (regWidthBits r) v =
      registerImmediateBytes r opcode digit (intBytes (X86.immediateBytes (regWidthBits r)) v) := by
  have small := immediateBytes_le (regWidthBits r)
  rw [emitImmediate_eq_foldl _ valid, foldl_registerImmediate _ _ _ _ (by simp; omega)]

theorem emit_byte_registerImmediate (r : RegId) (opcode : UInt8) (digit : Nat) (v : Int) :
    emit (registerImmediateBytes r opcode digit []) (byteAt v 0) =
      registerImmediateBytes r opcode digit (intBytes 1 v) := by
  rw [intBytes_one]
  exact foldl_registerImmediate r opcode digit [byteAt v 0] (by simp)

/-- The three immediate forms of group 1: `80 ib`, `83 ib` sign-extended, and
`81` with an immediate of the operand size. -/
theorem group1_reads {r : RegId} (valid : validIntegerWidth (regWidthBits r) = true) {ext : Nat}
    (bound : ext < 8) {value : Int64} (fits : immediateFitsWidth (regWidthBits r) value = true) :
    (regWidthBits r = 8 →
      Reads (registerImmediateBytes r 0x80 ext
          (intBytes (X86.immediateBytes (regWidthBits r)) value.toInt))
        ⟨.alu (.ofCode ext), regWidthBits r,
          [.register (registerOf r), .immediate (value.toInt % 2 ^ regWidthBits r).toNat]⟩) ∧
    (regWidthBits r ≠ 8 → immediateFitsI8 value = true →
      Reads (registerImmediateBytes r 0x83 ext (intBytes 1 value.toInt))
        ⟨.alu (.ofCode ext), regWidthBits r,
          [.register (registerOf r), .immediate (value.toInt % 2 ^ regWidthBits r).toNat]⟩) ∧
    (regWidthBits r ≠ 8 →
      Reads (registerImmediateBytes r 0x81 ext
          (intBytes (X86.immediateBytes (regWidthBits r)) value.toInt))
        ⟨.alu (.ofCode ext), regWidthBits r,
          [.register (registerOf r), .immediate (value.toInt % 2 ^ regWidthBits r).toNat]⟩) := by
  refine ⟨?_, ?_, ?_⟩
  · intro byte rest
    have read := readImmediate_width valid fits rest
    rw [registerImmediateBytes, List.append_assoc, List.cons_append,
      decode_primary _ _ _ _ (by decide) (by decide)]
    refine Eq.trans ?_ (formRmImmediate_register (fun digit => some (.alu (.ofCode digit))) bound
      rfl valid read)
    rw [byte]
    rfl
  · intro notByte fitsByte rest
    have read := readImmediate_byte (regWidthBits r) fitsByte rest
    rw [registerImmediateBytes, List.append_assoc, List.cons_append,
      decode_wide (fun width => X86.formRmImmediate
        (fun digit => some (.alu (.ofCode digit))) width 1) (by decide) (by decide)
        (fun _ _ => rfl) valid notByte]
    exact formRmImmediate_register _ bound rfl valid read
  · intro notByte rest
    have read := readImmediate_width valid fits rest
    rw [registerImmediateBytes, List.append_assoc, List.cons_append,
      decode_wide (fun width => X86.formRmImmediate
        (fun digit => some (.alu (.ofCode digit))) width (X86.immediateBytes width)) (by decide)
        (by decide) (fun _ _ => rfl) valid notByte]
    exact formRmImmediate_register _ bound rfl valid read

theorem encAlu_readsAs {opcode : OpcodeEnum} {ops : List Operand} {opRr : UInt8} {ext : Nat}
    {bytes : List UInt8} (general : IsGeneral opcode ops (.alu (.ofCode ext))) (bound : ext < 8)
    (row : opRr = UInt8.ofNat (8 * ext + 1)) (encoded : encAlu ops opRr ext = some bytes)
    (target : Int) : ReadsAs bytes opcode ops target 0 := by
  obtain ⟨storeForm, loadForm⟩ := alu_isForm bound row
  unfold encAlu at encoded
  split at encoded
  · next first second =>
    split at encoded
    · next dst src firstKind secondKind =>
        simp only [Option.ite_none_left_eq_some, Bool.not_eq_true', Option.some.injEq,
          Bool.not_eq_false] at encoded
        obtain ⟨same, rfl⟩ := encoded
        exact readsAs_registers general firstKind secondKind same
          (reads_registers_rmReg storeForm same)
    · next dst value firstKind secondKind =>
        simp only [Option.ite_none_left_eq_some, Bool.not_eq_true', Bool.not_eq_false,
          emit_registerImmediate] at encoded
        obtain ⟨valid, fits, encoded⟩ := encoded
        obtain ⟨byteReads, signedReads, wideReads⟩ := group1_reads valid bound fits
        rw [emitImmediate_registerImmediate valid, emit_byte_registerImmediate,
          emitImmediate_registerImmediate valid] at encoded
        apply readsAs_immediate general firstKind secondKind valid
        split at encoded
        · next byte =>
            obtain rfl := Option.some.inj encoded
            exact byteReads byte
        · next notByte =>
          split at encoded
          · next fitsByte =>
              obtain rfl := Option.some.inj encoded
              exact signedReads notByte fitsByte
          · obtain rfl := Option.some.inj encoded
            exact wideReads notByte
    · next dst source firstKind _ _ =>
        split at encoded
        · next base disp memory =>
            simp only [Option.ite_none_left_eq_some, Bool.or_eq_true, Bool.not_eq_true', not_or,
              Option.some.injEq, Bool.not_eq_false] at encoded
            obtain ⟨⟨valid, -⟩, rfl⟩ := encoded
            rw [opcodeForWidth_add]
            exact readsAs_load general firstKind memory valid
              (reads_memory_regRm loadForm disp valid)
        · contradiction
    · contradiction
  · contradiction

/-! ## One register with a `/digit` -/

/-- An opcode pair that selects an operation over one register by `/digit`. -/
def SelectsDigit (byteForm wideForm : UInt8) (digit : Nat) (operation : X86.Operation) : Prop :=
  ∃ form : Nat → X86.Context → List UInt8 → X86.Result, IsForm byteForm wideForm form ∧
    ∀ (r : RegId) (rest : List UInt8), validIntegerWidth (regWidthBits r) = true →
      form (regWidthBits r)
          (headerContext (regWidthBits r) (regNeedsRex .invalid) (regNeedsRex r)
            (forcesRex (regWidthBits r) .invalid r))
          (modrmByte 3 digit (rf r) :: rest) =
        some (⟨operation, regWidthBits r, [.register (registerOf r)]⟩, rest)

/-- Group 3 selects NOT, NEG, DIV and IDIV. -/
theorem group3_selects {digit : Nat} (bound : digit < 8) (notTest : digit ≠ 0)
    {operation : X86.Operation} (selected : X86.unaryOperation digit = some operation) :
    SelectsDigit 0xF6 0xF7 digit operation := by
  refine ⟨X86.formGroup3, ⟨by decide, by decide, fun _ _ => ⟨rfl, rfl⟩⟩, ?_⟩
  intro r rest valid
  simp only [X86.formGroup3, readModRm_rm .invalid bound valid, Option.bind_eq_bind,
    Option.bind_some, notTest, if_false, selected]
  rfl

/-- The form of `FE` and `FF` for INC and DEC. -/
def incDecOperation (digit : Nat) : Option X86.Operation :=
  if digit = 0 then some .inc else if digit = 1 then some .dec else none

/-- `FF` with `/0` or `/1` works at the operand width; the register it names
does not depend on the width at which the digit is read. -/
theorem formGroup5_incDec {digit : Nat} (small : digit < 2) {r : RegId}
    (valid : validIntegerWidth (regWidthBits r) = true) (notByte : regWidthBits r ≠ 8)
    (rest : List UInt8) :
    X86.formGroup5
        (headerContext (regWidthBits r) (regNeedsRex .invalid) (regNeedsRex r)
          (forcesRex (regWidthBits r) .invalid r))
        (modrmByte 3 digit (rf r) :: rest) =
      X86.formRm incDecOperation (regWidthBits r)
        (headerContext (regWidthBits r) (regNeedsRex .invalid) (regNeedsRex r)
          (forcesRex (regWidthBits r) .invalid r))
        (modrmByte 3 digit (rf r) :: rest) := by
  simp only [X86.formGroup5, readModRm_registers _ _ (show digit < 8 by omega) (rf_lt r),
    Option.bind_eq_bind, Option.bind_some, operandWidth_header valid notByte]
  interval_cases digit
  · simp only [X86.formRm, readModRm_rm .invalid (show 0 < 8 by omega) valid]
    rfl
  · simp only [X86.formRm, readModRm_rm .invalid (show 1 < 8 by omega) valid]
    rfl

theorem encUnary_incDec_reads {r : RegId} (valid : validIntegerWidth (regWidthBits r) = true)
    {ext : Nat} (small : ext < 2) {operation : X86.Operation}
    (selected : incDecOperation ext = some operation) :
    Reads (registerImmediateBytes r (opcodeForWidth (regWidthBits r) 0xFE 0xFF) ext [])
      ⟨operation, regWidthBits r, [.register (registerOf r)]⟩ := by
  intro rest
  have form : X86.formRm incDecOperation (regWidthBits r)
        (headerContext (regWidthBits r) (regNeedsRex .invalid) (regNeedsRex r)
          (forcesRex (regWidthBits r) .invalid r))
        (modrmByte 3 ext (rf r) :: rest) =
      some (⟨operation, regWidthBits r, [.register (registerOf r)]⟩, rest) := by
    simp only [X86.formRm, readModRm_rm .invalid (show ext < 8 by omega) valid,
      Option.bind_eq_bind, Option.bind_some, selected]
    rfl
  rw [registerImmediateBytes, List.append_assoc, List.cons_append, opcodeForWidth]
  by_cases byte : regWidthBits r = 8
  · rw [if_pos byte, decode_primary _ _ _ _ (by decide) (by decide), ← form, byte]
    rfl
  · rw [if_neg byte, decode_primary _ _ _ _ (by decide) (by decide), ← form,
      ← formGroup5_incDec small valid byte rest]
    rfl

theorem selectsDigit_reads {byteForm wideForm : UInt8} {digit : Nat} {operation : X86.Operation}
    (selects : SelectsDigit byteForm wideForm digit operation) {r : RegId}
    (valid : validIntegerWidth (regWidthBits r) = true) :
    Reads (registerImmediateBytes r (opcodeForWidth (regWidthBits r) byteForm wideForm) digit [])
      ⟨operation, regWidthBits r, [.register (registerOf r)]⟩ := by
  intro rest
  obtain ⟨form, isForm, read⟩ := selects
  rw [registerImmediateBytes, List.append_assoc, List.cons_append, isForm.decode valid]
  exact read r rest valid

theorem readsAs_register {opcode : OpcodeEnum} {operation : X86.Operation} {operand : Operand}
    {r : RegId} (isOperation : operationMeaning opcode [operand] = some operation)
    (isWidth : widthMeaning opcode [operand] = generalWidth [operand]) (kind : operand.kind = .reg r)
    (valid : validIntegerWidth (regWidthBits r) = true) {bytes : List UInt8} {target symbol : Int}
    (reads : Reads bytes ⟨operation, regWidthBits r, [.register (registerOf r)]⟩) :
    ReadsAs bytes opcode [operand] target symbol := by
  refine ⟨_, meaning_eq isOperation ?_ (operandsMeaning_one ?_), reads⟩
  · rw [isWidth, generalWidth_first kind valid]
  · rw [kind]
    exact operandMeaning_register _ _ _ _ valid

theorem encUnary_readsAs {opcode : OpcodeEnum} {ops : List Operand} {ext : Nat} {bytes : List UInt8}
    {operation : X86.Operation} (isOperation : operationMeaning opcode ops = some operation)
    (isWidth : widthMeaning opcode ops = generalWidth ops)
    (selected : ext < 2 ∧ incDecOperation ext = some operation ∨
      2 ≤ ext ∧ SelectsDigit 0xF6 0xF7 ext operation)
    (encoded : encUnary ops ext = some bytes) (target : Int) :
    ReadsAs bytes opcode ops target 0 := by
  unfold encUnary at encoded
  split at encoded
  · next operand =>
    split at encoded
    · next r kind =>
        simp only [Option.ite_none_left_eq_some, Bool.not_eq_true', Bool.not_eq_false,
          emit_registerImmediate] at encoded
        obtain ⟨valid, encoded⟩ := encoded
        apply readsAs_register isOperation isWidth kind valid
        rcases selected with ⟨small, selected⟩ | ⟨large, selects⟩
        · rw [if_pos (by omega)] at encoded
          obtain rfl := Option.some.inj encoded
          exact encUnary_incDec_reads valid small selected
        · rw [if_neg (by omega)] at encoded
          obtain rfl := Option.some.inj encoded
          exact selectsDigit_reads selects valid
    · contradiction
  · contradiction

theorem encDivide_readsAs {opcode : OpcodeEnum} {ops : List Operand} {ext : Nat}
    {bytes : List UInt8} {operation : X86.Operation}
    (isOperation : operationMeaning opcode ops = some operation)
    (isWidth : widthMeaning opcode ops = generalWidth ops)
    (selects : SelectsDigit 0xF6 0xF7 ext operation) (encoded : encDivide ops ext = some bytes)
    (target : Int) : ReadsAs bytes opcode ops target 0 := by
  unfold encDivide at encoded
  split at encoded
  · next operand =>
    split at encoded
    · next r kind =>
        simp only [Option.ite_none_left_eq_some, Bool.not_eq_true', Bool.not_eq_false,
          emit_registerImmediate, Option.some.injEq] at encoded
        obtain ⟨valid, rfl⟩ := encoded
        exact readsAs_register isOperation isWidth kind valid (selectsDigit_reads selects valid)
    · contradiction
  · contradiction

/-! ## IMUL -/

theorem imulRegister_reads {dst src : RegId} (same : sameRegisterWidth dst src = true)
    (notByte : regWidthBits dst ≠ 8) :
    Reads
      (headerBytes (regWidthBits dst) (regNeedsRex dst) (regNeedsRex src)
          (forcesRex (regWidthBits dst) dst src) ++
        [0x0F, 0xAF, modrmByte 3 (rf dst) (rf src)])
      ⟨.imul, regWidthBits dst, [.register (registerOf dst), .register (registerOf src)]⟩ := by
  intro rest
  obtain ⟨valid, widths⟩ := sameRegisterWidth_cases same
  have reg := generalRegister_reg src valid
  have sourceValid : validIntegerWidth (regWidthBits src) = true := widths ▸ valid
  have rm := readModRm_rm dst (rf_lt dst) sourceValid rest
  rw [widths] at rm
  rw [List.append_assoc, List.cons_append, List.cons_append,
    decode_secondary_wide (fun width => X86.formRegRm .imul width width) (fun _ _ => rfl)
      valid notByte, List.cons_append, List.nil_append]
  simp only [X86.formRegRm, rm, Option.map_some, reg]

theorem imulMemory_reads {dst base : RegId} (disp : Int32)
    (valid : validIntegerWidth (regWidthBits dst) = true) (notByte : regWidthBits dst ≠ 8) :
    Reads
      (headerBytes (regWidthBits dst) (regNeedsRex dst) (regNeedsRex base)
          (forcesRex (regWidthBits dst) dst base) ++
        0x0F :: 0xAF :: addressBytes (rf dst) base disp)
      ⟨.imul, regWidthBits dst,
        [.register (registerOf dst), .memory (some (registerNumber base)) none disp.toInt]⟩ := by
  intro rest
  have reg := generalRegister_reg base valid
  rw [List.append_assoc, List.cons_append, List.cons_append,
    decode_secondary_wide (fun width => X86.formRegRm .imul width width) (fun _ _ => rfl)
      valid notByte]
  simp only [X86.formRegRm, readModRm_header_address _ _ _ _ (rf_lt dst), Option.map_some, reg]

theorem imulImmediate_reads {dst src : RegId} (same : sameRegisterWidth dst src = true)
    (notByte : regWidthBits dst ≠ 8) (opcode : UInt8) (count : Nat → Nat)
    (plain : plainOpcode opcode = true) (notEscape : opcode ≠ 0x0F)
    (primary : ∀ context code, X86.decodePrimary context opcode.toNat code =
      X86.formRegRmImmediate context.operandWidth (count context.operandWidth) context code)
    {field : List UInt8} {immediate : X86.Operand}
    (read : ∀ rest, X86.readImmediate (count (regWidthBits dst)) (regWidthBits dst)
      (field ++ rest) = some (immediate, rest)) :
    Reads
      (headerBytes (regWidthBits dst) (regNeedsRex dst) (regNeedsRex src)
          (forcesRex (regWidthBits dst) dst src) ++
        opcode :: modrmByte 3 (rf dst) (rf src) :: field)
      ⟨.imul, regWidthBits dst,
        [.register (registerOf dst), .register (registerOf src), immediate]⟩ := by
  intro rest
  obtain ⟨valid, widths⟩ := sameRegisterWidth_cases same
  have reg := generalRegister_reg src valid
  have sourceValid : validIntegerWidth (regWidthBits src) = true := widths ▸ valid
  have rm := readModRm_rm dst (rf_lt dst) sourceValid (field ++ rest)
  rw [widths] at rm
  rw [List.append_assoc, List.cons_append,
    decode_wide (fun width => X86.formRegRmImmediate width (count width)) plain notEscape
      primary valid notByte, List.cons_append]
  simp only [X86.formRegRmImmediate, rm, Option.bind_eq_bind, Option.bind_some, read, reg]
  rfl

theorem imul_isGeneral (ops : List Operand) : IsGeneral .imul ops .imul := ⟨rfl, rfl, rfl, rfl⟩

theorem encImulTwo_readsAs {first second : Operand} {dst : RegId} {bytes : List UInt8}
    (firstKind : first.kind = .reg dst) (encoded : encImulTwo dst second.kind = some bytes)
    (target : Int) : ReadsAs bytes .imul [first, second] target 0 := by
  simp only [encImulTwo, Option.ite_none_left_eq_some, Bool.not_eq_true',
    Bool.not_eq_false] at encoded
  obtain ⟨notByte, valid, encoded⟩ := encoded
  split at encoded
  · next src secondKind =>
      simp only [Option.ite_none_left_eq_some, Bool.not_eq_false,
        Option.some.injEq] at encoded
      obtain ⟨same, rfl⟩ := encoded
      apply readsAs_registers (imul_isGeneral _) firstKind secondKind same
      rw [emitRexForWidth_header, emit_header, emit_header_append _ _ _ _ (by simp),
        emit_header_append _ _ _ _ (by simp)]
      exact imulRegister_reads same notByte
  · split at encoded
    · next base disp memory =>
        simp only [Option.ite_none_left_eq_some, ne_eq, not_not, Option.some.injEq] at encoded
        obtain ⟨-, rfl⟩ := encoded
        have length := length_headerBytes_le (regWidthBits dst) (regNeedsRex dst)
          (regNeedsRex base) (forcesRex (regWidthBits dst) dst base)
        apply readsAs_load (imul_isGeneral _) firstKind memory valid
        rw [emitRexForWidth_header, emit_header, emit_header_append _ _ _ _ (by simp),
          emitMemAddress_of_le (by simp; omega), List.append_assoc]
        exact imulMemory_reads disp valid notByte
    · contradiction

theorem encImulThree_readsAs {first second third : Operand} {dst src : RegId} {value : Int64}
    {bytes : List UInt8} (firstKind : first.kind = .reg dst) (secondKind : second.kind = .reg src)
    (thirdKind : third.kind = .imm value) (encoded : encImulThree dst src value = some bytes)
    (target : Int) : ReadsAs bytes .imul [first, second, third] target 0 := by
  simp only [encImulThree, Option.ite_none_left_eq_some, Bool.not_eq_true',
    Bool.not_eq_false] at encoded
  obtain ⟨same, notByte, fits, encoded⟩ := encoded
  obtain ⟨valid, widths⟩ := sameRegisterWidth_cases same
  have length := length_headerBytes_le (regWidthBits dst) (regNeedsRex dst) (regNeedsRex src)
    (forcesRex (regWidthBits dst) dst src)
  have small := immediateBytes_le (regWidthBits dst)
  have width : generalWidth [first, second, third] = regWidthBits dst :=
    generalWidth_first firstKind valid _
  have isMeaning : meaning .imul [first, second, third] target 0 =
      some ⟨.imul, regWidthBits dst, [.register (registerOf dst), .register (registerOf src),
        .immediate (value.toInt % 2 ^ regWidthBits dst).toNat]⟩ := by
    have isWidth : widthMeaning .imul [first, second, third] = regWidthBits dst := width
    apply meaning_eq rfl isWidth
    simp [operandsMeaning, isShift, immediateWidth, widthMeaning, width, firstKind, secondKind,
      thirdKind, operandMeaning_register _ _ _ _ valid,
      operandMeaning_register _ _ _ _ (widths ▸ valid : validIntegerWidth (regWidthBits src) = true)]
    rfl
  refine ⟨_, isMeaning, ?_⟩
  rw [emitRexForWidth_header] at encoded
  split at encoded
  · next fitsByte =>
      obtain rfl := Option.some.inj encoded
      rw [emit_header, emit_header_append _ _ _ _ (by simp), emit_header_append _ _ _ _ (by simp)]
      have reads := imulImmediate_reads same notByte 0x6B (fun _ => 1)
        (by decide) (by decide) (fun _ _ => rfl)
        (fun rest => readImmediate_byte (regWidthBits dst) fitsByte rest)
      rwa [intBytes_one] at reads
  · obtain rfl := Option.some.inj encoded
    rw [emitImmediate_eq_foldl _ valid, emit_header, emit_header_append _ _ _ _ (by simp),
      foldl_emit _ (by simp; omega), List.append_assoc]
    exact imulImmediate_reads same notByte 0x69 X86.immediateBytes
      (by decide) (by decide) (fun _ _ => rfl) (fun rest => readImmediate_width valid fits rest)

theorem encImul_readsAs {ops : List Operand} {bytes : List UInt8}
    (encoded : encImul ops = some bytes) (target : Int) : ReadsAs bytes .imul ops target 0 := by
  unfold encImul at encoded
  split at encoded
  · split at encoded
    · next dst firstKind => exact encImulTwo_readsAs firstKind encoded target
    · contradiction
  · split at encoded
    · next dst src value firstKind secondKind thirdKind =>
        exact encImulThree_readsAs firstKind secondKind thirdKind encoded target
    · contradiction
  · contradiction

/-! ## Instructions without operands -/

theorem readsAs_nullary {opcode : OpcodeEnum} {operation : X86.Operation}
    (isOperation : operationMeaning opcode [] = some operation)
    (isWidth : widthMeaning opcode [] = 0) {bytes : List UInt8} {target symbol : Int}
    (reads : Reads bytes ⟨operation, 0, []⟩) : ReadsAs bytes opcode [] target symbol :=
  ⟨_, meaning_eq isOperation isWidth (operandsMeaning_nil opcode target symbol), reads⟩

theorem encCqo_readsAs {ops : List Operand} {bytes : List UInt8}
    (encoded : encCqo ops = some bytes) (target : Int) : ReadsAs bytes .cqo ops target 0 := by
  simp only [encCqo, ne_eq, List.length_eq_zero_iff, ite_not, Option.ite_none_right_eq_some,
    Option.some.injEq] at encoded
  obtain ⟨rfl, rfl⟩ := encoded
  exact readsAs_nullary rfl rfl fun _ => rfl

/-! ## Shifts -/

/-- The `/digit` of each shift opcode that the encoder has. -/
theorem readsAs_shift {opcode : OpcodeEnum} {operation : X86.ShiftOperation} {first second : Operand}
    {r : RegId} (shift : isShift opcode = true)
    (isOperation : operationMeaning opcode [first, second] = some (.shift operation))
    (kind : first.kind = .reg r) (valid : validIntegerWidth (regWidthBits r) = true)
    {count : X86.Operand} (isCount : countMeaning 8 second.kind = some count) {bytes : List UInt8}
    {target symbol : Int}
    (reads : Reads bytes ⟨.shift operation, regWidthBits r, [.register (registerOf r), count]⟩) :
    ReadsAs bytes opcode [first, second] target symbol := by
  have isWidth : widthMeaning opcode [first, second] = regWidthBits r := by
    rw [← generalWidth_first kind valid [second]]
    cases opcode <;> first | rfl | contradiction
  have byteCount : immediateWidth opcode [first, second] = 8 := by
    cases opcode <;> first | rfl | contradiction
  refine ⟨_, meaning_eq isOperation isWidth ?_, reads⟩
  simp [operandsMeaning, shift, kind, operandMeaning_register _ _ _ _ valid, byteCount, isCount]

theorem shiftForms_isForm :
    IsForm 0xC0 0xC1 X86.formShiftImmediate ∧
      IsForm 0xD0 0xD1 (X86.formShiftFixed (.immediate 1)) ∧
      IsForm 0xD2 0xD3 (X86.formShiftFixed (.register (.gpr 8 1))) :=
  ⟨⟨by decide, by decide, fun _ _ => ⟨rfl, rfl⟩⟩, ⟨by decide, by decide, fun _ _ => ⟨rfl, rfl⟩⟩,
    ⟨by decide, by decide, fun _ _ => ⟨rfl, rfl⟩⟩⟩

theorem shiftFixed_reads {byteForm wideForm : UInt8} {count : X86.Operand}
    (isForm : IsForm byteForm wideForm (X86.formShiftFixed count)) {r : RegId}
    (valid : validIntegerWidth (regWidthBits r) = true) {ext : Nat} (bound : ext < 8) :
    Reads (registerImmediateBytes r (opcodeForWidth (regWidthBits r) byteForm wideForm) ext [])
      ⟨.shift (.ofCode ext), regWidthBits r, [.register (registerOf r), count]⟩ := by
  intro rest
  rw [registerImmediateBytes, List.append_assoc, List.cons_append, isForm.decode valid]
  simp only [List.cons_append, List.nil_append, X86.formShiftFixed,
    readModRm_rm .invalid bound valid, Option.map_some]

theorem shiftImmediate_reads {r : RegId} (valid : validIntegerWidth (regWidthBits r) = true)
    {ext : Nat} (bound : ext < 8) (number : Int) :
    Reads
      (registerImmediateBytes r (opcodeForWidth (regWidthBits r) 0xC0 0xC1) ext (intBytes 1 number))
      ⟨.shift (.ofCode ext), regWidthBits r,
        [.register (registerOf r), .immediate (number % 2 ^ 8).toNat]⟩ := by
  intro rest
  rw [registerImmediateBytes, List.append_assoc, List.cons_append,
    shiftForms_isForm.1.decode valid]
  simp only [List.cons_append, X86.formShiftImmediate, readModRm_rm .invalid bound valid,
    Option.bind_eq_bind, Option.bind_some, readUnsigned_byte]
  rfl

theorem encShift_readsAs {opcode : OpcodeEnum} {ops : List Operand} {ext : Nat} {bytes : List UInt8}
    (shift : isShift opcode = true)
    (isOperation : operationMeaning opcode ops = some (.shift (.ofCode ext))) (bound : ext < 8)
    (encoded : encShift ops ext = some bytes) (target : Int) :
    ReadsAs bytes opcode ops target 0 := by
  unfold encShift at encoded
  split at encoded
  · next first second =>
    split at encoded
    · next r kind =>
      simp only [Option.ite_none_left_eq_some, Bool.not_eq_true', Bool.not_eq_false] at encoded
      obtain ⟨valid, encoded⟩ := encoded
      split at encoded
      · next value countKind =>
          simp only [Option.ite_none_left_eq_some, Bool.not_eq_false, emit_registerImmediate,
            emit_byte_registerImmediate] at encoded
          obtain ⟨-, encoded⟩ := encoded
          split at encoded
          · next one =>
              obtain rfl := Option.some.inj encoded
              refine readsAs_shift shift isOperation kind valid ?_
                (shiftFixed_reads shiftForms_isForm.2.1 valid bound)
              rw [countKind]
              simp [countMeaning, operandMeaning, one]
          · obtain rfl := Option.some.inj encoded
            refine readsAs_shift shift isOperation kind valid ?_
              (shiftImmediate_reads valid bound value.toInt)
            rw [countKind]
            rfl
      · next countRegister countKind =>
          simp only [Option.ite_none_right_eq_some, emit_registerImmediate,
            Option.some.injEq] at encoded
          obtain ⟨isCl, rfl⟩ := encoded
          refine readsAs_shift shift isOperation kind valid ?_
            (shiftFixed_reads shiftForms_isForm.2.2 valid bound)
          rw [countKind]
          exact if_pos isCl
      · contradiction
    · contradiction
  · contradiction

/-! ## TEST -/

theorem test_isForm : IsForm 0x84 0x85 (X86.formRmReg .test) :=
  ⟨by decide, by decide, fun _ _ => ⟨rfl, rfl⟩⟩

theorem group3_isForm : IsForm 0xF6 0xF7 X86.formGroup3 :=
  ⟨by decide, by decide, fun _ _ => ⟨rfl, rfl⟩⟩

theorem test_isGeneral (ops : List Operand) : IsGeneral .test ops .test := ⟨rfl, rfl, rfl, rfl⟩

theorem testImmediate_reads {r : RegId} (valid : validIntegerWidth (regWidthBits r) = true)
    {value : Int64} (fits : immediateFitsWidth (regWidthBits r) value = true) :
    Reads
      (registerImmediateBytes r (opcodeForWidth (regWidthBits r) 0xF6 0xF7) 0
        (intBytes (X86.immediateBytes (regWidthBits r)) value.toInt))
      ⟨.test, regWidthBits r,
        [.register (registerOf r), .immediate (value.toInt % 2 ^ regWidthBits r).toNat]⟩ := by
  intro rest
  rw [registerImmediateBytes, List.append_assoc, List.cons_append, group3_isForm.decode valid]
  simp only [List.cons_append, X86.formGroup3,
    readModRm_rm .invalid (show 0 < 8 by omega) valid, Option.bind_eq_bind, Option.bind_some,
    if_true, readImmediate_width valid fits]
  rfl

theorem encTest_readsAs {ops : List Operand} {bytes : List UInt8}
    (encoded : encTest ops = some bytes) (target : Int) : ReadsAs bytes .test ops target 0 := by
  unfold encTest at encoded
  split at encoded
  · next first second =>
    split at encoded
    · next dst src firstKind secondKind =>
        simp only [Option.ite_none_left_eq_some, Bool.not_eq_true', Option.some.injEq,
          Bool.not_eq_false] at encoded
        obtain ⟨same, rfl⟩ := encoded
        exact readsAs_registers (test_isGeneral _) firstKind secondKind same
          (reads_registers_rmReg test_isForm same)
    · next dst value firstKind secondKind =>
        simp only [Option.ite_none_left_eq_some, Bool.not_eq_true', Bool.not_eq_false,
          emit_registerImmediate, Option.some.injEq] at encoded
        obtain ⟨valid, fits, rfl⟩ := encoded
        rw [emitImmediate_registerImmediate valid]
        exact readsAs_immediate (test_isGeneral _) firstKind secondKind valid
          (testImmediate_reads valid fits)
    · contradiction
  · contradiction

/-! ## SETcc -/

/-- The second opcode byte of the SETcc with condition code `code`. -/
theorem decodeSecondary_setcc {code : Nat} (bound : code < 16) (context : X86.Context)
    (tail : List UInt8) :
    X86.decodeSecondary context (UInt8.ofNat (0x90 + code)).toNat tail =
      X86.formRm (fun _ => some (.set (.ofCode code))) 8 context tail := by
  interval_cases code <;> rfl

theorem encSetcc_readsAs {opcode : OpcodeEnum} {ops : List Operand} {code : Nat}
    {bytes : List UInt8} (bound : code < 16)
    (isOperation : operationMeaning opcode ops = some (.set (.ofCode code)))
    (isWidth : widthMeaning opcode ops = 8)
    (encoded : encSetcc ops (UInt8.ofNat (0x90 + code)) = some bytes) (target : Int) :
    ReadsAs bytes opcode ops target 0 := by
  unfold encSetcc at encoded
  split at encoded
  · next operand =>
    split at encoded
    · next r kind =>
        simp only [ne_eq, Option.ite_none_left_eq_some, not_not, Option.some.injEq] at encoded
        obtain ⟨byte, rfl⟩ := encoded
        have valid : validIntegerWidth (regWidthBits r) = true := by rw [byte]; rfl
        refine ⟨⟨.set (.ofCode code), 8, [.register (registerOf r)]⟩,
          meaning_eq isOperation isWidth (operandsMeaning_one ?_), ?_⟩
        · rw [kind]
          exact operandMeaning_register _ _ _ _ valid
        · intro rest
          have rm := readModRm_rm .invalid (show 0 < 8 by omega) valid rest
          rw [byte] at rm
          rw [emitRexForWidth_nil (by omega), emit_header, emit_header_append _ _ _ _ (by simp),
            emit_header_append _ _ _ _ (by simp), List.append_assoc]
          simp only [List.cons_append, List.nil_append, decode_secondary,
            decodeSecondary_setcc bound, X86.formRm, rm, Option.bind_eq_bind, Option.bind_some]
          rfl
    · split at encoded
      · next base disp memory =>
          simp only [ne_eq, Option.ite_none_left_eq_some, not_not, Option.some.injEq] at encoded
          obtain ⟨-, rfl⟩ := encoded
          have length := length_headerBytes_le 8 (regNeedsRex .invalid) (regNeedsRex base)
            (forcesRex 8 .invalid base)
          refine ⟨⟨.set (.ofCode code), 8, [.memory (some (registerNumber base)) none disp.toInt]⟩,
            meaning_eq isOperation isWidth
              (operandsMeaning_one (operandMeaning_memory memory _ _ _ _)), ?_⟩
          intro rest
          rw [emitRexForWidth_nil (by omega), emit_header, emit_header_append _ _ _ _ (by simp),
            emitMemAddress_of_le (by simp; omega), List.append_assoc, List.append_assoc]
          simp only [List.cons_append, List.nil_append, decode_secondary,
            decodeSecondary_setcc bound, X86.formRm,
            readModRm_header_address _ _ _ _ (show 0 < 8 by omega), Option.bind_eq_bind,
            Option.bind_some]
          rfl
      · contradiction
  · contradiction

/-! ## Control flow -/

/-- A branch to a label: the displacement is whatever stands in the field. -/
theorem readsAs_branch {opcode : OpcodeEnum} {operation : X86.Operation} {operand : Operand}
    {label : List UInt8} (kind : operand.kind = .label label) (notMov : opcode ≠ .mov)
    (isOperation : operationMeaning opcode [operand] = some operation)
    (isWidth : widthMeaning opcode [operand] = 64) {bytes : List UInt8} {target symbol : Int}
    (reads : Reads bytes ⟨operation, 64, [.relative target]⟩) :
    ReadsAs bytes opcode [operand] target symbol := by
  refine ⟨_, meaning_eq isOperation isWidth (operandsMeaning_one ?_), reads⟩
  rw [kind, operandMeaning, if_neg notMov]

theorem reads_near (operation : X86.Operation) (opcode : UInt8)
    (decoded : ∀ code, X86.decode (opcode :: code) = X86.formRelative operation code)
    {field : List UInt8} (length : field.length = 4) :
    Reads (opcode :: field) ⟨operation, 64, [.relative (signed 32 (value field))]⟩ := by
  intro rest
  rw [List.cons_append, decoded, X86.formRelative, readSigned_field length]
  rfl

/-- `FF /4` and `FF /2` name a 64-bit register. -/
theorem reads_group5 {r : RegId} (wide : regWidthBits r = 64) {ext : Nat}
    {operation : X86.Operation} (selected : ext = 4 ∧ operation = .jmp ∨
      ext = 2 ∧ operation = .call) :
    Reads
      (headerBytes 32 (regNeedsRex .invalid) (regNeedsRex r) false ++
        [0xFF, modrmByte 3 ext (rf r)])
      ⟨operation, 64, [.register (registerOf r)]⟩ := by
  intro rest
  have register := generalRegister_read
    (headerContext 32 (regNeedsRex .invalid) (regNeedsRex r) false)
    (general_of_width64 wide) (fun required => by
      rw [regRequiresRexByte_width required] at wide
      omega)
  rw [wide] at register
  rw [List.append_assoc, List.cons_append, decode_primary _ _ _ _ (by decide) (by decide)]
  change X86.formGroup5 _ (modrmByte 3 ext (rf r) :: rest) = _
  rcases selected with ⟨rfl, rfl⟩ | ⟨rfl, rfl⟩
  · simp only [X86.formGroup5, X86.formRm,
      readModRm_registers _ _ (show 4 < 8 by omega) (rf_lt r), Option.bind_eq_bind,
      Option.bind_some, headerContext] at register ⊢
    rw [register]
    rfl
  · simp only [X86.formGroup5, X86.formRm,
      readModRm_registers _ _ (show 2 < 8 by omega) (rf_lt r), Option.bind_eq_bind,
      Option.bind_some, headerContext] at register ⊢
    rw [register]
    rfl

/-- What `enc_near` returns: a register form, or the opcode and the field of a
displacement in signed 32-bit range. -/
theorem encNear_cases {ops : List Operand} {disp : Int64} {ext : Nat} {opcode : UInt8}
    {bytes : List UInt8} (encoded : encNear ops disp ext opcode = some bytes) :
    (∃ operand r, ops = [operand] ∧ operand.kind = .reg r ∧ regWidthBits r = 64 ∧
      bytes = headerBytes 32 (regNeedsRex .invalid) (regNeedsRex r) false ++
        [0xFF, modrmByte 3 ext (rf r)]) ∨
    (∃ operand label, ops = [operand] ∧ operand.kind = .label label ∧
      immediateFitsI32 disp = true ∧ bytes = opcode :: intBytes 4 disp.toInt) := by
  unfold encNear at encoded
  split at encoded
  · next operand =>
    split at encoded
    · next r kind =>
        simp only [ne_eq, Option.ite_none_left_eq_some, not_not, Option.some.injEq] at encoded
        obtain ⟨wide, rfl⟩ := encoded
        refine .inl ⟨operand, r, rfl, kind, wide, ?_⟩
        have header : emitRex [] false false false (rexB r) =
            headerBytes 32 (regNeedsRex .invalid) (regNeedsRex r) false := by
          unfold rexB
          cases regNeedsRex r <;> rfl
        rw [header, emit_header, emit_header_append _ _ _ _ (by simp)]
        rfl
    · next label kind =>
        simp only [Option.ite_none_left_eq_some, Bool.not_eq_true', Bool.not_eq_false,
          Option.some.injEq] at encoded
        obtain ⟨fits, rfl⟩ := encoded
        exact .inr ⟨operand, label, rfl, kind, fits,
          emit32_of_le (by simp [emit, maxInstructionBytes]) _⟩
    · contradiction
  · contradiction

/-- A displacement in signed 32-bit range is what its field holds. -/
theorem signed_displacement {disp : Int64} (fits : immediateFitsI32 disp = true) :
    signed 32 (value (intBytes 4 disp.toInt)) = disp.toInt := by
  have range := (immediateFitsI32_iff disp).mp fits
  exact @signed_intBytes 4 disp.toInt (by omega) (by omega)

theorem encJmp_readsAs {ops : List Operand} {disp : Int64} {bytes : List UInt8}
    (encoded : encJmp ops disp = some bytes) : ReadsAs bytes .jmp ops disp.toInt 0 := by
  rcases encNear_cases encoded with ⟨operand, r, rfl, kind, wide, rfl⟩ |
    ⟨operand, label, rfl, kind, fits, rfl⟩
  · exact readsAs_register64 rfl rfl kind wide (reads_group5 wide (.inl ⟨rfl, rfl⟩))
  · have reads := reads_near .jmp 0xE9 (fun _ => rfl)
      (length_intBytes 4 disp.toInt)
    rw [signed_displacement fits] at reads
    exact readsAs_branch kind (by decide) rfl rfl reads

theorem encCall_readsAs {ops : List Operand} {disp : Int64} {bytes : List UInt8}
    (encoded : encCall ops disp = some bytes) : ReadsAs bytes .call ops disp.toInt 0 := by
  rcases encNear_cases encoded with ⟨operand, r, rfl, kind, wide, rfl⟩ |
    ⟨operand, label, rfl, kind, fits, rfl⟩
  · exact readsAs_register64 rfl rfl kind wide (reads_group5 wide (.inr ⟨rfl, rfl⟩))
  · have reads := reads_near .call 0xE8 (fun _ => rfl)
      (length_intBytes 4 disp.toInt)
    rw [signed_displacement fits] at reads
    exact readsAs_branch kind (by decide) rfl rfl reads

theorem reads_jcc {code : Nat} (bound : code < 16) {field : List UInt8}
    (length : field.length = 4) :
    Reads (0x0F :: UInt8.ofNat (0x80 + code) :: field)
      ⟨.jcc (.ofCode code), 64, [.relative (signed 32 (value field))]⟩ := by
  intro rest
  have decoded : X86.decode (0x0F :: UInt8.ofNat (0x80 + code) :: (field ++ rest)) =
      X86.formRelative (.jcc (.ofCode code)) (field ++ rest) := by
    interval_cases code <;> rfl
  rw [List.cons_append, List.cons_append, decoded, X86.formRelative, readSigned_field length]
  rfl

theorem encJcc_cases {ops : List Operand} {disp : Int64} {opcode2 : UInt8} {bytes : List UInt8}
    (encoded : encJcc ops disp opcode2 = some bytes) :
    ∃ operand label, ops = [operand] ∧ operand.kind = .label label ∧
      immediateFitsI32 disp = true ∧ bytes = 0x0F :: opcode2 :: intBytes 4 disp.toInt := by
  unfold encJcc at encoded
  split at encoded
  · next operand =>
    split at encoded
    · next label kind =>
        simp only [Option.ite_none_left_eq_some, Bool.not_eq_true', Bool.not_eq_false,
          Option.some.injEq] at encoded
        obtain ⟨fits, rfl⟩ := encoded
        exact ⟨operand, label, rfl, kind, fits, emit32_of_le (by simp [emit, maxInstructionBytes]) _⟩
    · contradiction
  · contradiction

theorem encJcc_readsAs {opcode : OpcodeEnum} {ops : List Operand} {disp : Int64} {code : Nat}
    {bytes : List UInt8} (bound : code < 16) (notMov : opcode ≠ .mov)
    (isOperation : operationMeaning opcode ops = some (.jcc (.ofCode code)))
    (isWidth : widthMeaning opcode ops = 64)
    (encoded : encJcc ops disp (UInt8.ofNat (0x80 + code)) = some bytes) :
    ReadsAs bytes opcode ops disp.toInt 0 := by
  obtain ⟨operand, label, rfl, kind, fits, rfl⟩ := encJcc_cases encoded
  have reads := reads_jcc bound (length_intBytes 4 disp.toInt)
  rw [signed_displacement fits] at reads
  exact readsAs_branch kind notMov isOperation isWidth reads

theorem encInt_readsAs {ops : List Operand} {bytes : List UInt8}
    (encoded : encInt ops = some bytes) (target : Int) : ReadsAs bytes .int ops target 0 := by
  unfold encInt at encoded
  split at encoded
  · next operand =>
    split at encoded
    · next value kind =>
        simp only [Option.ite_none_left_eq_some, Bool.not_eq_true', Bool.not_eq_false,
          Option.some.injEq] at encoded
        obtain ⟨-, rfl⟩ := encoded
        refine ⟨⟨.int, 0, [.immediate (value.toInt % 2 ^ 8).toNat]⟩,
          meaning_eq rfl rfl (operandsMeaning_one (by rw [kind]; rfl)), ?_⟩
        intro rest
        have read := readUnsigned_byte value.toInt rest
        rw [intBytes_one] at read
        have decoded : ∀ code, X86.decode (0xCD :: code) = (X86.readUnsigned 1 code).map
            fun read => ((⟨.int, 0, [.immediate read.1]⟩ : X86.Instruction), read.2) :=
          fun _ => rfl
        change X86.decode (0xCD :: ([byteAt value.toInt 0] ++ rest)) = _
        rw [decoded, read]
        rfl
    · contradiction
  · contradiction

/-! ## LEA -/

/-- LEA has one width, so its opcode is its own byte form. -/
theorem decode_lea {r b force : Bool} (code : List UInt8) :
    X86.decode (headerBytes 64 r b force ++ 0x8D :: code) =
      X86.formRegRm .lea 64 64 (headerContext 64 r b force) code :=
  decode_wide (fun width => X86.formRegRm .lea width width) (by decide) (by decide)
    (fun _ _ => rfl) rfl (by omega) _ _ _ code

theorem readsAs_lea {first second : Operand} {dst : RegId} {address : X86.Operand}
    (kind : first.kind = .reg dst) (wide : regWidthBits dst = 64) {target symbol : Int}
    (isAddress : operandMeaning .lea 64 target symbol second.kind = some address)
    {bytes : List UInt8} (reads : Reads bytes ⟨.lea, 64, [.register (registerOf dst), address]⟩) :
    ReadsAs bytes .lea [first, second] target symbol := by
  refine ⟨_, meaning_eq rfl rfl (operandsMeaning_two rfl ?_ isAddress), reads⟩
  rw [kind]
  exact operandMeaning_register _ _ _ _ (general_of_width64 wide)

theorem reads_lea_symbol {dst : RegId} (wide : regWidthBits dst = 64) {field : List UInt8}
    (length : field.length = 4) :
    Reads
      (headerBytes 64 (regNeedsRex dst) false (forcesRex 64 dst .invalid) ++
        0x8D :: modrmByte 0 (rf dst) 5 :: field)
      ⟨.lea, 64, [.register (registerOf dst), .ripRelative (signed 32 (value field))]⟩ := by
  intro rest
  have register := generalRegister_reg .invalid (general_of_width64 wide)
  rw [wide, show regNeedsRex .invalid = false from rfl] at register
  rw [List.append_assoc, List.cons_append, decode_lea, List.cons_append, X86.formRegRm,
    readModRm_rip _ _ (rf_lt dst) length]
  simp only [Option.map_some, headerContext] at register ⊢
  rw [register]

theorem encLea_readsAs {ops : List Operand} {bytes : List UInt8}
    (encoded : encLea ops = some bytes) (target : Int) : ReadsAs bytes .lea ops target 0 := by
  unfold encLea at encoded
  split at encoded
  · next first second =>
    split at encoded
    · next dst firstKind =>
      split at encoded
      · next label secondKind =>
          simp only [ne_eq, Option.ite_none_left_eq_some, not_not, Option.some.injEq] at encoded
          obtain ⟨wide, rfl⟩ := encoded
          rw [emitRipRelativeMem_bytes]
          exact readsAs_lea firstKind wide (by rw [secondKind]; rfl)
            (reads_lea_symbol wide (length_intBytes 4 0))
      · split at encoded
        · next base disp memory =>
            simp only [Option.ite_none_left_eq_some, not_or, ne_eq, not_not,
              Option.some.injEq] at encoded
            obtain ⟨⟨wide, -⟩, rfl⟩ := encoded
            refine readsAs_lea firstKind wide (operandMeaning_memory memory _ _ _ _) ?_
            intro rest
            have register := generalRegister_reg base (general_of_width64 wide)
            rw [wide] at register
            rw [emitMem_bytes, List.append_assoc, List.cons_append, decode_lea, X86.formRegRm,
              readModRm_header_address _ _ _ _ (rf_lt dst)]
            simp only [Option.map_some, register]
        · contradiction
    · contradiction
  · contradiction

end Nazm.Encoder
