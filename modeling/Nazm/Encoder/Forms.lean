import Nazm.Encoder.Fields

/-!
The integer instruction forms, decoded.

Owns one reading lemma for each `enc_*` function: when the function returns
bytes, the decoder reads from them the operation, the width and the operands
that the statement asked for.

Does not own the dispatch over opcodes or the SSE2 forms.
-/

namespace Nazm.Encoder

open LittleEndian

/-! ## Registers in a header's context -/

/-- The processor's register of a general register. -/
def registerOf (r : RegId) : X86.Register := .gpr (regWidthBits r) (registerNumber r)

theorem registerMeaning_general {r : RegId} (valid : validIntegerWidth (regWidthBits r) = true) :
    registerMeaning r = some (registerOf r) := by
  cases r <;> first | rfl | simp [validIntegerWidth, regWidthBits] at valid

/-- A general register is read back from its field, given its REX bit and, for
SPL, BPL, SIL and DIL, the REX prefix itself. -/
theorem generalRegister_read (context : X86.Context) {r : RegId}
    (valid : validIntegerWidth (regWidthBits r) = true)
    (forced : regRequiresRexByte r = true → context.rexPresent = true) :
    X86.generalRegister context (regWidthBits r) (X86.extend (regNeedsRex r) (rf r)) =
      registerOf r := by
  have general := generalRegister_registerNumber valid forced
  rw [registerMeaning_general valid] at general
  rw [rf, extend_regField]
  exact (Option.some.inj general).symm

theorem regRequiresRexByte_width {r : RegId} (required : regRequiresRexByte r = true) :
    regWidthBits r = 8 := by
  simp only [regRequiresRexByte, Bool.and_eq_true, decide_eq_true_eq] at required
  exact required.1

/-- The register in the `reg` field of a form of its own width. -/
theorem generalRegister_reg {reg : RegId} (rm : RegId)
    (valid : validIntegerWidth (regWidthBits reg) = true) :
    X86.generalRegister (headerContext (regWidthBits reg) (regNeedsRex reg) (regNeedsRex rm)
        (forcesRex (regWidthBits reg) reg rm)) (regWidthBits reg)
      (X86.extend (regNeedsRex reg) (rf reg)) = registerOf reg := by
  apply generalRegister_read _ valid
  intro required
  simp [headerContext, forcesRex, required, regRequiresRexByte_width required]

/-- The register in the `rm` field of a form of its own width. -/
theorem generalRegister_rm (reg : RegId) {rm : RegId}
    (valid : validIntegerWidth (regWidthBits rm) = true) :
    X86.generalRegister (headerContext (regWidthBits rm) (regNeedsRex reg) (regNeedsRex rm)
        (forcesRex (regWidthBits rm) reg rm)) (regWidthBits rm)
      (X86.extend (regNeedsRex rm) (rf rm)) = registerOf rm := by
  apply generalRegister_read _ valid
  intro required
  simp [headerContext, forcesRex, required, regRequiresRexByte_width required]

theorem sameRegisterWidth_cases {left right : RegId} (same : sameRegisterWidth left right = true) :
    validIntegerWidth (regWidthBits left) = true ∧ regWidthBits right = regWidthBits left := by
  simpa [sameRegisterWidth] using same

theorem operandWidth_header {width : Nat} (valid : validIntegerWidth width = true)
    (wide : width ≠ 8) (r b force : Bool) :
    (headerContext width r b force).operandWidth = width := by
  rcases validIntegerWidth_cases valid with rfl | rfl | rfl | rfl
  · exact absurd rfl wide
  all_goals rfl

/-! ## Opcodes after a header -/

theorem decode_primary (width : Nat) (r b force : Bool) {opcode : UInt8}
    (plain : plainOpcode opcode = true) (notEscape : opcode ≠ 0x0F) (code : List UInt8) :
    X86.decode (headerBytes width r b force ++ opcode :: code) =
      X86.decodePrimary (headerContext width r b force) opcode.toNat code := by
  rw [decode_header width r b force plain]
  unfold X86.decodeOpcode
  split
  · contradiction
  · next equal => exact absurd (List.cons.inj equal).1 notEscape
  · next equal => exact absurd (List.cons.inj equal).1 notEscape
  · next equal =>
      obtain ⟨rfl, rfl⟩ := List.cons.inj equal
      rfl

/-- A primary opcode whose form works at the operand width. -/
theorem decode_wide {opcode : UInt8} (form : Nat → X86.Context → List UInt8 → X86.Result)
    (plain : plainOpcode opcode = true) (notEscape : opcode ≠ 0x0F)
    (primary : ∀ context code,
      X86.decodePrimary context opcode.toNat code = form context.operandWidth context code)
    {width : Nat} (valid : validIntegerWidth width = true) (wide : width ≠ 8) (r b force : Bool)
    (code : List UInt8) :
    X86.decode (headerBytes width r b force ++ opcode :: code) =
      form width (headerContext width r b force) code := by
  rw [decode_primary _ _ _ _ plain notEscape, primary, operandWidth_header valid wide]

theorem decode_secondary (width : Nat) (r b force : Bool) (opcode : UInt8) (code : List UInt8) :
    X86.decode (headerBytes width r b force ++ 0x0F :: opcode :: code) =
      X86.decodeSecondary (headerContext width r b force) opcode.toNat code := by
  rw [decode_header width r b force (by decide)]
  rfl

/-- A two-byte opcode whose form works at the operand width. -/
theorem decode_secondary_wide {opcode : UInt8}
    (form : Nat → X86.Context → List UInt8 → X86.Result)
    (secondary : ∀ context code,
      X86.decodeSecondary context opcode.toNat code = form context.operandWidth context code)
    {width : Nat} (valid : validIntegerWidth width = true) (wide : width ≠ 8) (r b force : Bool)
    (code : List UInt8) :
    X86.decode (headerBytes width r b force ++ 0x0F :: opcode :: code) =
      form width (headerContext width r b force) code := by
  rw [decode_secondary, secondary, operandWidth_header valid wide]

/-- `form [base64 + disp]`: the base register is extended by REX.B. -/
theorem readModRm_header_address (width : Nat) (r force : Bool) (rmRegister : Nat → X86.Register)
    {reg : Nat} (regBound : reg < 8) (base : RegId) (disp : Int32) (code : List UInt8) :
    X86.readModRm (headerContext width r (regNeedsRex base) force) rmRegister
        (addressBytes reg base disp ++ code) =
      some (⟨reg, X86.extend r reg, .memory (some (registerNumber base)) none disp.toInt⟩, code) := by
  rw [readModRm_address _ rfl rmRegister regBound base disp code]
  simp only [headerContext, extend_regField]

/-! ## Operands of a statement -/

theorem operandMeaning_register {r : RegId} (opcode : OpcodeEnum) (width : Nat)
    (target symbol : Int) (valid : validIntegerWidth (regWidthBits r) = true) :
    operandMeaning opcode width target symbol (.reg r) = some (.register (registerOf r)) := by
  simp only [operandMeaning, registerMeaning_general valid, Option.map_some]

theorem operandMeaning_memory {kind : OperandKind} {base : RegId} {disp : Int32}
    (memory : operandMem kind = some (base, disp)) (opcode : OpcodeEnum) (width : Nat)
    (target symbol : Int) :
    operandMeaning opcode width target symbol kind =
      some (.memory (some (registerNumber base)) none disp.toInt) := by
  cases kind with
  | memReg _ | memDisp _ _ =>
      obtain ⟨rfl, rfl⟩ := Prod.mk.inj (Option.some.inj memory)
      rfl
  | _ => contradiction

/-- A base register that a memory form accepts is a 64-bit register. -/
theorem general_of_width64 {r : RegId} (wide : regWidthBits r = 64) :
    validIntegerWidth (regWidthBits r) = true := by
  rw [wide]
  rfl

/-! ## What a byte string reads as -/

/-- Whatever follows, the decoder takes exactly `bytes` and reports `instruction`. -/
def Reads (bytes : List UInt8) (instruction : X86.Instruction) : Prop :=
  ∀ rest, X86.decode (bytes ++ rest) = some (instruction, rest)

theorem emit_header (width : Nat) (r b force : Bool) (byte : UInt8) :
    emit (headerBytes width r b force) byte = headerBytes width r b force ++ [byte] := by
  have length := length_headerBytes_le width r b force
  exact emit_of_lt (by omega) byte

theorem emit_header_append (width : Nat) (r b force : Bool) {tail : List UInt8}
    (room : tail.length ≤ 12) (byte : UInt8) :
    emit (headerBytes width r b force ++ tail) byte =
      headerBytes width r b force ++ (tail ++ [byte]) := by
  have length := length_headerBytes_le width r b force
  rw [emit_of_lt (by simp; omega), List.append_assoc]

theorem emitRr_bytes (opcode : UInt8) (dst src : RegId) (width : Nat) :
    emitRr [] opcode dst src width =
      headerBytes width (regNeedsRex src) (regNeedsRex dst) (forcesRex width src dst) ++
        [opcode, modrmByte 3 (rf src) (rf dst)] := by
  unfold emitRr
  dsimp only
  rw [emitRexForWidth_header, emit_header, emit_header_append _ _ _ _ (by simp)]
  rfl

theorem emitMem_bytes (opcode : UInt8) (reg base : RegId) (disp : Int32) (width : Nat) :
    emitMem [] opcode reg base disp width =
      headerBytes width (regNeedsRex reg) (regNeedsRex base) (forcesRex width reg base) ++
        opcode :: addressBytes (rf reg) base disp := by
  have length := length_headerBytes_le width (regNeedsRex reg) (regNeedsRex base)
    (forcesRex width reg base)
  unfold emitMem
  dsimp only
  rw [emitRexForWidth_header, emit_header, emitMemAddress_of_le (by simp; omega)]
  simp

theorem emitRipRelativeMem_bytes (opcode : UInt8) (reg : RegId) (width : Nat) :
    emitRipRelativeMem [] opcode reg width =
      headerBytes width (regNeedsRex reg) false (forcesRex width reg .invalid) ++
        opcode :: modrmByte 0 (rf reg) 5 :: intBytes 4 0 := by
  have length := length_headerBytes_le width (regNeedsRex reg) (regNeedsRex .invalid)
    (forcesRex width reg .invalid)
  unfold emitRipRelativeMem
  dsimp only
  rw [emitRexForWidth_header, emit_header, emit_header_append _ _ _ _ (by simp)]
  rw [emit32_of_le (by simp; omega)]
  simp [show regNeedsRex .invalid = false from rfl]

/-! ## The forms that several instructions share -/

/-- A primary opcode whose byte and wide forms are neighbours. -/
structure IsForm (byteForm wideForm : UInt8)
    (form : Nat → X86.Context → List UInt8 → X86.Result) : Prop where
  plain : plainOpcode byteForm = true ∧ plainOpcode wideForm = true
  notEscape : byteForm ≠ 0x0F ∧ wideForm ≠ 0x0F
  primary : ∀ context code,
    X86.decodePrimary context byteForm.toNat code = form 8 context code ∧
      X86.decodePrimary context wideForm.toNat code = form context.operandWidth context code

theorem IsForm.decode {byteForm wideForm : UInt8}
    {form : Nat → X86.Context → List UInt8 → X86.Result} (isForm : IsForm byteForm wideForm form)
    {width : Nat} (valid : validIntegerWidth width = true) (r b force : Bool) (code : List UInt8) :
    X86.decode (headerBytes width r b force ++ opcodeForWidth width byteForm wideForm :: code) =
      form width (headerContext width r b force) code := by
  unfold opcodeForWidth
  by_cases byte : width = 8
  · rw [if_pos byte, decode_primary _ _ _ _ isForm.plain.1 isForm.notEscape.1,
      (isForm.primary _ _).1, byte]
  · rw [if_neg byte, decode_primary _ _ _ _ isForm.plain.2 isForm.notEscape.2,
      (isForm.primary _ _).2, operandWidth_header valid byte]

/-- A register form: the `rm` field names a register of the form's width. -/
theorem readModRm_rm (reg : RegId) {digit : Nat} (digitBound : digit < 8) {r : RegId}
    (valid : validIntegerWidth (regWidthBits r) = true) (code : List UInt8) :
    X86.readModRm
        (headerContext (regWidthBits r) (regNeedsRex reg) (regNeedsRex r)
          (forcesRex (regWidthBits r) reg r))
        (X86.generalRegister
          (headerContext (regWidthBits r) (regNeedsRex reg) (regNeedsRex r)
            (forcesRex (regWidthBits r) reg r)) (regWidthBits r))
        (modrmByte 3 digit (rf r) :: code) =
      some (⟨digit, X86.extend (regNeedsRex reg) digit, .register (registerOf r)⟩, code) := by
  have rm := generalRegister_rm reg valid
  rw [readModRm_registers _ _ digitBound (rf_lt r)]
  simp only [headerContext] at rm ⊢
  rw [rm]

theorem reads_registers_rmReg {byteForm wideForm : UInt8} {operation : X86.Operation}
    (isForm : IsForm byteForm wideForm (X86.formRmReg operation)) {dst src : RegId}
    (same : sameRegisterWidth dst src = true) :
    Reads (emitRr [] (opcodeForWidth (regWidthBits dst) byteForm wideForm) dst src
        (regWidthBits dst))
      ⟨operation, regWidthBits dst, [.register (registerOf dst), .register (registerOf src)]⟩ := by
  intro rest
  obtain ⟨valid, widths⟩ := sameRegisterWidth_cases same
  have sourceValid : validIntegerWidth (regWidthBits src) = true := widths ▸ valid
  have reg := generalRegister_reg dst sourceValid
  rw [widths] at reg
  rw [emitRr_bytes, List.append_assoc, List.cons_append, isForm.decode valid, X86.formRmReg,
    List.cons_append, readModRm_rm src (rf_lt src) valid]
  simp only [Option.map_some, reg]
  rfl

theorem reads_memory_rmReg {byteForm wideForm : UInt8} {operation : X86.Operation}
    (isForm : IsForm byteForm wideForm (X86.formRmReg operation)) {reg base : RegId} (disp : Int32)
    (valid : validIntegerWidth (regWidthBits reg) = true) :
    Reads (emitMem [] (opcodeForWidth (regWidthBits reg) byteForm wideForm) reg base disp
        (regWidthBits reg))
      ⟨operation, regWidthBits reg,
        [.memory (some (registerNumber base)) none disp.toInt, .register (registerOf reg)]⟩ := by
  intro rest
  rw [emitMem_bytes, List.append_assoc, List.cons_append, isForm.decode valid, X86.formRmReg,
    readModRm_header_address _ _ _ _ (rf_lt reg)]
  simp only [Option.map_some, generalRegister_reg _ valid]

theorem reads_memory_regRm {byteForm wideForm : UInt8} {operation : X86.Operation}
    (isForm : IsForm byteForm wideForm fun width => X86.formRegRm operation width width)
    {reg base : RegId} (disp : Int32) (valid : validIntegerWidth (regWidthBits reg) = true) :
    Reads (emitMem [] (opcodeForWidth (regWidthBits reg) byteForm wideForm) reg base disp
        (regWidthBits reg))
      ⟨operation, regWidthBits reg,
        [.register (registerOf reg), .memory (some (registerNumber base)) none disp.toInt]⟩ := by
  intro rest
  rw [emitMem_bytes, List.append_assoc, List.cons_append, isForm.decode valid, X86.formRegRm,
    readModRm_header_address _ _ _ _ (rf_lt reg)]
  simp only [Option.map_some, generalRegister_reg _ valid]

/-- A load or store of a symbol, whatever the linker puts in the field. -/
theorem reads_symbol_rmReg {byteForm wideForm : UInt8} {operation : X86.Operation}
    (isForm : IsForm byteForm wideForm (X86.formRmReg operation)) {reg : RegId}
    (valid : validIntegerWidth (regWidthBits reg) = true) {field : List UInt8}
    (length : field.length = 4) :
    Reads (headerBytes (regWidthBits reg) (regNeedsRex reg) false
          (forcesRex (regWidthBits reg) reg .invalid) ++
        opcodeForWidth (regWidthBits reg) byteForm wideForm :: modrmByte 0 (rf reg) 5 :: field)
      ⟨operation, regWidthBits reg,
        [.ripRelative (signed 32 (value field)), .register (registerOf reg)]⟩ := by
  intro rest
  have register := generalRegister_reg .invalid valid
  rw [List.append_assoc, List.cons_append, isForm.decode valid, X86.formRmReg, List.cons_append,
    readModRm_rip _ _ (rf_lt reg) length]
  simp only [Option.map_some, headerContext] at register ⊢
  rw [show regNeedsRex .invalid = false from rfl] at register
  rw [register]

theorem reads_symbol_regRm {byteForm wideForm : UInt8} {operation : X86.Operation}
    (isForm : IsForm byteForm wideForm fun width => X86.formRegRm operation width width)
    {reg : RegId} (valid : validIntegerWidth (regWidthBits reg) = true) {field : List UInt8}
    (length : field.length = 4) :
    Reads (headerBytes (regWidthBits reg) (regNeedsRex reg) false
          (forcesRex (regWidthBits reg) reg .invalid) ++
        opcodeForWidth (regWidthBits reg) byteForm wideForm :: modrmByte 0 (rf reg) 5 :: field)
      ⟨operation, regWidthBits reg,
        [.register (registerOf reg), .ripRelative (signed 32 (value field))]⟩ := by
  intro rest
  have register := generalRegister_reg .invalid valid
  rw [List.append_assoc, List.cons_append, isForm.decode valid, X86.formRegRm, List.cons_append,
    readModRm_rip _ _ (rf_lt reg) length]
  simp only [Option.map_some, headerContext] at register ⊢
  rw [show regNeedsRex .invalid = false from rfl] at register
  rw [register]

/-! ## Immediates -/

theorem immediateFitsI8_iff (value : Int64) :
    immediateFitsI8 value = true ↔ -128 ≤ value.toInt ∧ value.toInt ≤ 127 := by
  simp [immediateFitsI8]

theorem immediateFitsI32_iff (value : Int64) :
    immediateFitsI32 value = true ↔ -2147483648 ≤ value.toInt ∧ value.toInt ≤ 2147483647 := by
  simp [immediateFitsI32]

theorem emitImmediate_eq_foldl (b : Buf) {width : Nat} (valid : validIntegerWidth width = true)
    (v : Int) :
    emitImmediate b width v = (intBytes (X86.immediateBytes width) v).foldl emit b := by
  rcases validIntegerWidth_cases valid with rfl | rfl | rfl | rfl
  · simp [emitImmediate, X86.immediateBytes, intBytes_eq_map_byteAt]
  · simp [emitImmediate, X86.immediateBytes, intBytes_eq_map_byteAt, List.range_succ]
  · exact emit32_eq_foldl b v
  · exact emit32_eq_foldl b v

theorem immediateBytes_le (width : Nat) : X86.immediateBytes width ≤ 4 := by
  unfold X86.immediateBytes
  omega

/-- The immediate of the operand size is read back modulo the operand width:
exactly for a 64-bit operand, whose field is sign-extended. -/
theorem readImmediate_width {width : Nat} (valid : validIntegerWidth width = true) {number : Int64}
    (fits : immediateFitsWidth width number = true) (code : List UInt8) :
    X86.readImmediate (X86.immediateBytes width) width
        (intBytes (X86.immediateBytes width) number.toInt ++ code) =
      some (.immediate (number.toInt % 2 ^ width).toNat, code) := by
  rcases validIntegerWidth_cases valid with rfl | rfl | rfl | rfl
  · exact readImmediate_exact 1 number.toInt code
  · exact readImmediate_exact 2 number.toInt code
  · exact readImmediate_exact 4 number.toInt code
  · have range := (immediateFitsI32_iff number).mp fits
    exact readImmediate_signed 4 64 (by omega) (by omega) code

theorem readImmediate_byte (width : Nat) {number : Int64} (fits : immediateFitsI8 number = true)
    (code : List UInt8) :
    X86.readImmediate 1 width (intBytes 1 number.toInt ++ code) =
      some (.immediate (number.toInt % 2 ^ width).toNat, code) := by
  have range := (immediateFitsI8_iff number).mp fits
  exact readImmediate_signed 1 width (by omega) (by omega) code

/-- `op r, imm` with the register in `rm` and a `/digit`. -/
theorem formRmImmediate_register (operation : Nat → Option X86.Operation) {digit : Nat}
    (digitBound : digit < 8) {op : X86.Operation} (selected : operation digit = some op) {r : RegId}
    (valid : validIntegerWidth (regWidthBits r) = true) {count : Nat} {field : List UInt8}
    {immediate : X86.Operand} {rest : List UInt8}
    (read : X86.readImmediate count (regWidthBits r) field = some (immediate, rest)) :
    X86.formRmImmediate operation (regWidthBits r) count
        (headerContext (regWidthBits r) (regNeedsRex .invalid) (regNeedsRex r)
          (forcesRex (regWidthBits r) .invalid r))
        (modrmByte 3 digit (rf r) :: field) =
      some (⟨op, regWidthBits r, [.register (registerOf r), immediate]⟩, rest) := by
  simp only [X86.formRmImmediate, readModRm_rm .invalid digitBound valid, Option.bind_eq_bind,
    Option.bind_some, selected, read]
  rfl

end Nazm.Encoder
