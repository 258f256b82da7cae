import Nazm.Encoder.RoundTrip

/-!
Decoding undoes the scalar SSE2 encoder.

Owns the reading lemmas for `sse2.c`: the mandatory prefix before REX, the
XMM register fields, and the second address encoder.
-/

namespace Nazm.Encoder

/-! ## Header -/

/-- Mandatory prefix and REX of a scalar form. -/
def scalarHeader (mandatory : UInt8) (w r b : Bool) : List UInt8 :=
  mandatory :: if w || r || b then [rexByte w r false b] else []

/-- The decoder's state after the header of a scalar form. -/
def scalarContext (mandatory : UInt8) (w r b : Bool) : X86.Context where
  legacy := ⟨mandatory == 0x66, mandatory == 0xF2, mandatory == 0xF3⟩
  rexPresent := w || r || b
  rex := ⟨w, r, false, b⟩

/-- The mandatory prefixes that the encoder uses. -/
def IsMandatory (mandatory : UInt8) : Prop :=
  mandatory = 0x66 ∨ mandatory = 0xF2 ∨ mandatory = 0xF3

theorem decode_scalar {mandatory : UInt8} (isMandatory : IsMandatory mandatory) (w r b : Bool)
    (opcode : UInt8) (code : List UInt8) :
    X86.decode (scalarHeader mandatory w r b ++ 0x0F :: opcode :: code) =
      X86.decodeSecondary (scalarContext mandatory w r b) opcode.toNat code := by
  rcases isMandatory with rfl | rfl | rfl
  all_goals cases w <;> cases r <;> cases b <;> rfl

theorem emitRexIfNeeded_header (mandatory : UInt8) (width64 : Bool) (reg rm : RegId) :
    emitRexIfNeeded (sseEmit [] mandatory) width64 reg rm =
      scalarHeader mandatory width64 (regNeedsRex reg) (regNeedsRex rm) := by
  have present : ∀ r : RegId, (decide (r ≠ .invalid) && regNeedsRex r) = regNeedsRex r := by
    intro r
    cases r <;> (simp; try rfl)
  simp only [emitRexIfNeeded, present, rexRequired, Bool.or_false, scalarHeader]
  split <;> rfl

theorem length_scalarHeader_le (mandatory : UInt8) (w r b : Bool) :
    (scalarHeader mandatory w r b).length ≤ 2 := by
  unfold scalarHeader
  split <;> simp

theorem encodeXmmRegisters_bytes (mandatory opcode : UInt8) (width64 : Bool) (reg rm : RegId) :
    encodeXmmRegisters mandatory opcode width64 reg rm =
      some (scalarHeader mandatory width64 (regNeedsRex reg) (regNeedsRex rm) ++
        [0x0F, opcode, modrmByte 3 (rf reg) (rf rm)]) := by
  have length := length_scalarHeader_le mandatory width64 (regNeedsRex reg) (regNeedsRex rm)
  unfold encodeXmmRegisters
  dsimp only
  rw [emitRexIfNeeded_header]
  exact congrArg some
    (foldl_emit [0x0F, opcode, modrmByte 3 (rf reg) (rf rm)] (by simp; omega))

theorem encodeXmmMemory_bytes (mandatory opcode : UInt8) (reg base : RegId) (disp : Int32) :
    encodeXmmMemory mandatory opcode reg base disp =
      some (scalarHeader mandatory false (regNeedsRex reg) (regNeedsRex base) ++
        0x0F :: opcode :: addressBytes (rf reg) base disp) := by
  have length := length_scalarHeader_le mandatory false (regNeedsRex reg) (regNeedsRex base)
  unfold encodeXmmMemory
  dsimp only
  have opcodes : sseEmit (sseEmit (scalarHeader mandatory false (regNeedsRex reg)
      (regNeedsRex base)) 0x0F) opcode =
      scalarHeader mandatory false (regNeedsRex reg) (regNeedsRex base) ++ [0x0F, opcode] :=
    foldl_emit [0x0F, opcode] (by simp; omega)
  rw [emitRexIfNeeded_header, opcodes, emitMemoryAddress_eq,
    emitMemAddress_of_le (by simp; omega), List.append_assoc]
  rfl

/-! ## Registers -/

theorem registerMeaning_xmm {r : RegId} (xmm : regIsXmm r = true) :
    registerMeaning r = some (.xmm (X86.extend (regNeedsRex r) (rf r))) := by
  rw [rf, extend_regField]
  cases r <;> first | rfl | contradiction

/-- The decoder's general register in a form that leaves byte registers out. -/
theorem generalRegister_scalar (context : X86.Context) {r : RegId} {width : Nat}
    (isWidth : regWidthBits r = width) (wide : width = 32 ∨ width = 64) :
    registerMeaning r =
      some (X86.generalRegister context width (X86.extend (regNeedsRex r) (rf r))) := by
  have valid : validIntegerWidth (regWidthBits r) = true := by
    rcases wide with rfl | rfl <;> rw [isWidth] <;> rfl
  have read := generalRegister_read context valid (fun required => by
    rw [regRequiresRexByte_width required] at isWidth
    omega)
  rw [registerMeaning_general valid, ← read, isWidth]

theorem readModRm_scalar (mandatory : UInt8) (width64 : Bool) (rmRegister : Nat → X86.Register)
    (reg rm : RegId) (code : List UInt8) :
    X86.readModRm (scalarContext mandatory width64 (regNeedsRex reg) (regNeedsRex rm)) rmRegister
        (modrmByte 3 (rf reg) (rf rm) :: code) =
      some (⟨rf reg, X86.extend (regNeedsRex reg) (rf reg),
        .register (rmRegister (X86.extend (regNeedsRex rm) (rf rm)))⟩, code) :=
  readModRm_registers _ _ (rf_lt reg) (rf_lt rm) code

theorem readModRm_scalar_address (mandatory : UInt8) (rmRegister : Nat → X86.Register)
    (reg base : RegId) (disp : Int32) (code : List UInt8) :
    X86.readModRm (scalarContext mandatory false (regNeedsRex reg) (regNeedsRex base)) rmRegister
        (addressBytes (rf reg) base disp ++ code) =
      some (⟨rf reg, X86.extend (regNeedsRex reg) (rf reg),
        .memory (some (registerNumber base)) none disp.toInt⟩, code) := by
  rw [readModRm_address _ rfl rmRegister (rf_lt reg) base disp code]
  simp only [scalarContext, extend_regField]

/-! ## Meanings -/

theorem readsAs_pair {opcode : OpcodeEnum} {operation : X86.Operation} {width : Nat}
    {first second : Operand} {dst src : RegId} {dstRegister srcRegister : X86.Register}
    (notShift : isShift opcode = false)
    (isOperation : operationMeaning opcode [first, second] = some operation)
    (isWidth : widthMeaning opcode [first, second] = width)
    (firstKind : first.kind = .reg dst) (secondKind : second.kind = .reg src)
    (dstMeaning : registerMeaning dst = some dstRegister)
    (srcMeaning : registerMeaning src = some srcRegister) {bytes : List UInt8} {target symbol : Int}
    (reads : Reads bytes ⟨operation, width, [.register dstRegister, .register srcRegister]⟩) :
    ReadsAs bytes opcode [first, second] target symbol := by
  refine ⟨_, meaning_eq isOperation isWidth (operandsMeaning_two notShift ?_ ?_), reads⟩
  · simp only [firstKind, operandMeaning, dstMeaning, Option.map_some]
  · simp only [secondKind, operandMeaning, srcMeaning, Option.map_some]

/-- A scalar form over two XMM registers. -/
theorem xmmRegisters_reads {mandatory opcode : UInt8} {operation : X86.Operation} {width : Nat}
    (isMandatory : IsMandatory mandatory)
    (secondary : ∀ w r b code, X86.decodeSecondary (scalarContext mandatory w r b) opcode.toNat code =
      X86.formXmmRm operation width (scalarContext mandatory w r b) code) (reg rm : RegId) :
    Reads
      (scalarHeader mandatory false (regNeedsRex reg) (regNeedsRex rm) ++
        [0x0F, opcode, modrmByte 3 (rf reg) (rf rm)])
      ⟨operation, width, [.register (.xmm (X86.extend (regNeedsRex reg) (rf reg))),
        .register (.xmm (X86.extend (regNeedsRex rm) (rf rm)))]⟩ := by
  intro rest
  rw [List.append_assoc, List.cons_append, List.cons_append, decode_scalar isMandatory, secondary,
    X86.formXmmRm, List.cons_append, readModRm_scalar]
  rfl

theorem movesScalar_first {first : Operand} {r : RegId} (kind : first.kind = .reg r)
    (xmm : regIsXmm r = true) (ops : List Operand) : movesScalar (first :: ops) = true := by
  have register : first.register? = some r := by rw [Operand.register?, kind]
  simp [movesScalar, register, xmm]

theorem movesScalar_second {first second : Operand} {r : RegId} (kind : second.kind = .reg r)
    (xmm : regIsXmm r = true) (ops : List Operand) : movesScalar (first :: second :: ops) = true := by
  have register : second.register? = some r := by rw [Operand.register?, kind]
  simp [movesScalar, register, xmm]

/-- A scalar MOV works at 64 bits. -/
theorem movScalar_meaning {ops : List Operand} (scalar : movesScalar ops = true) :
    operationMeaning .mov ops = some .movq ∧ widthMeaning .mov ops = 64 := by
  simp [operationMeaning, widthMeaning, scalar]

theorem operandMem_of_validMemoryBase {kind : OperandKind} {base : RegId} {disp : Int32}
    (valid : validMemoryBase kind = some (base, disp)) : operandMem kind = some (base, disp) := by
  unfold validMemoryBase at valid
  split at valid
  · next memory =>
      rw [Option.ite_none_right_eq_some] at valid
      exact memory.trans valid.2
  · contradiction

/-! ## MOV between XMM, general registers and memory -/

theorem movRegisters_readsAs {first second : Operand} {destination source : RegId}
    {bytes : List UInt8} (firstKind : first.kind = .reg destination)
    (secondKind : second.kind = .reg source)
    (encoded : sse2EncodeMove [first, second] = some bytes) (target : Int) :
    ReadsAs bytes .mov [first, second] target 0 := by
  simp only [sse2EncodeMove, firstKind, secondKind, encodeXmmRegisters_bytes] at encoded
  split at encoded
  · next xmm =>
      simp only [Bool.and_eq_true] at xmm
      obtain ⟨operation, width⟩ := movScalar_meaning (movesScalar_first firstKind xmm.1 [second])
      obtain rfl := Option.some.inj encoded
      exact readsAs_pair rfl operation width firstKind secondKind (registerMeaning_xmm xmm.1)
        (registerMeaning_xmm xmm.2)
        (xmmRegisters_reads (.inr (.inr rfl)) (fun _ _ _ _ => rfl) destination source)
  · split at encoded
    · next toXmm =>
        simp only [Bool.and_eq_true, decide_eq_true_eq] at toXmm
        obtain ⟨operation, width⟩ :=
          movScalar_meaning (movesScalar_first firstKind toXmm.1.1 [second])
        obtain rfl := Option.some.inj encoded
        refine readsAs_pair rfl operation width firstKind secondKind
          (registerMeaning_xmm toXmm.1.1) (generalRegister_scalar (scalarContext 0x66 true
            (regNeedsRex destination) (regNeedsRex source)) toXmm.2 (.inr rfl)) ?_
        intro rest
        rw [List.append_assoc, List.cons_append, List.cons_append, decode_scalar (.inl rfl)]
        change (X86.readModRm _ _ (modrmByte 3 (rf destination) (rf source) :: rest)).map _ = _
        rw [readModRm_scalar]
        rfl
    · rw [Option.ite_none_right_eq_some] at encoded
      obtain ⟨fromXmm, encoded⟩ := encoded
      simp only [Bool.and_eq_true, decide_eq_true_eq] at fromXmm
      obtain ⟨operation, width⟩ :=
        movScalar_meaning (movesScalar_second secondKind fromXmm.2 [])
      obtain rfl := Option.some.inj encoded
      refine readsAs_pair rfl operation width firstKind secondKind
        (generalRegister_scalar (scalarContext 0x66 true (regNeedsRex source)
          (regNeedsRex destination)) fromXmm.1.2 (.inr rfl)) (registerMeaning_xmm fromXmm.2) ?_
      intro rest
      rw [List.append_assoc, List.cons_append, List.cons_append, decode_scalar (.inl rfl)]
      change (X86.readModRm _ _ (modrmByte 3 (rf source) (rf destination) :: rest)).map _ = _
      rw [readModRm_scalar]
      rfl

/-- Load and store forms of a scalar MOV. -/
theorem movMemory_reads (xmmRegister base : RegId) (disp : Int32) :
    Reads
        (scalarHeader 0xF3 false (regNeedsRex xmmRegister) (regNeedsRex base) ++
          0x0F :: 0x7E :: addressBytes (rf xmmRegister) base disp)
        ⟨.movq, 64, [.register (.xmm (X86.extend (regNeedsRex xmmRegister) (rf xmmRegister))),
          .memory (some (registerNumber base)) none disp.toInt]⟩ ∧
      Reads
        (scalarHeader 0x66 false (regNeedsRex xmmRegister) (regNeedsRex base) ++
          0x0F :: 0xD6 :: addressBytes (rf xmmRegister) base disp)
        ⟨.movq, 64, [.memory (some (registerNumber base)) none disp.toInt,
          .register (.xmm (X86.extend (regNeedsRex xmmRegister) (rf xmmRegister)))]⟩ := by
  constructor
  · intro rest
    rw [List.append_assoc, List.cons_append, List.cons_append, decode_scalar (.inr (.inr rfl))]
    change (X86.readModRm _ _ (addressBytes (rf xmmRegister) base disp ++ rest)).map _ = _
    rw [readModRm_scalar_address]
    rfl
  · intro rest
    rw [List.append_assoc, List.cons_append, List.cons_append, decode_scalar (.inl rfl)]
    change (X86.readModRm _ _ (addressBytes (rf xmmRegister) base disp ++ rest)).map _ = _
    rw [readModRm_scalar_address]
    rfl

theorem sse2EncodeMove_readsAs {ops : List Operand} {bytes : List UInt8}
    (encoded : sse2EncodeMove ops = some bytes) (target : Int) :
    ReadsAs bytes .mov ops target 0 := by
  rcases ops with _ | ⟨first, _ | ⟨second, _ | ⟨third, ops⟩⟩⟩
  · contradiction
  · contradiction
  · have original := encoded
    simp only [sse2EncodeMove] at encoded
    split at encoded
    · next destination source firstKind secondKind =>
        exact movRegisters_readsAs firstKind secondKind original target
    · next destination firstKind _ =>
      split at encoded
      · next base disp memory =>
          rw [Option.ite_none_right_eq_some, encodeXmmMemory_bytes, Option.some.injEq] at encoded
          obtain ⟨xmm, rfl⟩ := encoded
          obtain ⟨operation, width⟩ := movScalar_meaning (movesScalar_first firstKind xmm [second])
          refine ⟨_, meaning_eq operation width (operandsMeaning_two rfl ?_
            (operandMeaning_memory (operandMem_of_validMemoryBase memory) _ _ _ _)),
            (movMemory_reads destination base disp).1⟩
          simp only [firstKind, operandMeaning, registerMeaning_xmm xmm, Option.map_some]
      · contradiction
    · next source secondKind _ =>
      split at encoded
      · next base disp memory =>
          rw [Option.ite_none_right_eq_some, encodeXmmMemory_bytes, Option.some.injEq] at encoded
          obtain ⟨xmm, rfl⟩ := encoded
          obtain ⟨operation, width⟩ := movScalar_meaning (movesScalar_second secondKind xmm [])
          refine ⟨_, meaning_eq operation width (operandsMeaning_two rfl
            (operandMeaning_memory (operandMem_of_validMemoryBase memory) _ _ _ _) ?_),
            (movMemory_reads source base disp).2⟩
          simp only [secondKind, operandMeaning, registerMeaning_xmm xmm, Option.map_some]
      · contradiction
    · contradiction
  · contradiction

/-! ## Arithmetic and conversions -/

theorem encodeXmmBinary_readsAs {opcode : OpcodeEnum} {operation : X86.Operation} {width : Nat}
    {mandatory byte : UInt8} {ops : List Operand} {bytes : List UInt8}
    (isMandatory : IsMandatory mandatory)
    (secondary : ∀ w r b code, X86.decodeSecondary (scalarContext mandatory w r b) byte.toNat code =
      X86.formXmmRm operation width (scalarContext mandatory w r b) code)
    (notShift : isShift opcode = false) (isOperation : operationMeaning opcode ops = some operation)
    (isWidth : widthMeaning opcode ops = width)
    (encoded : encodeXmmBinary ops mandatory byte = some bytes) (target : Int) :
    ReadsAs bytes opcode ops target 0 := by
  unfold encodeXmmBinary at encoded
  split at encoded
  · split at encoded
    · next destination source firstKind secondKind =>
        simp only [Option.ite_none_right_eq_some, Bool.and_eq_true, encodeXmmRegisters_bytes,
          Option.some.injEq] at encoded
        obtain ⟨xmm, rfl⟩ := encoded
        exact readsAs_pair notShift isOperation isWidth firstKind secondKind
          (registerMeaning_xmm xmm.1) (registerMeaning_xmm xmm.2)
          (xmmRegisters_reads isMandatory secondary destination source)
    · contradiction
  · contradiction

theorem regIsGpr_of_wide {r : RegId} (wide : ¬(regWidthBits r ≠ 32 ∧ regWidthBits r ≠ 64)) :
    regIsGpr r = true ∧ (regWidthBits r = 32 ∨ regWidthBits r = 64) := by
  refine ⟨?_, by omega⟩
  cases r <;> first | rfl | simp [regWidthBits] at wide

theorem generalWidth_scalar {first second : Operand} {r : RegId} {x : RegId}
    (gpr : regIsGpr r = true) (xmm : regIsXmm x = true)
    (kinds : first.kind = .reg r ∧ second.kind = .reg x ∨
      first.kind = .reg x ∧ second.kind = .reg r) :
    generalWidth [first, second] = regWidthBits r := by
  have notGpr : regIsGpr x = false := by cases x <;> first | rfl | contradiction
  rcases kinds with ⟨firstKind, secondKind⟩ | ⟨firstKind, secondKind⟩
  · have one : first.register? = some r := by rw [Operand.register?, firstKind]
    have two : second.register? = some x := by rw [Operand.register?, secondKind]
    simp [generalWidth, one, gpr]
  · have one : first.register? = some x := by rw [Operand.register?, firstKind]
    have two : second.register? = some r := by rw [Operand.register?, secondKind]
    simp [generalWidth, one, two, gpr, notGpr]

theorem encodeCvtsi2sd_readsAs {ops : List Operand} {bytes : List UInt8}
    (encoded : encodeCvtsi2sd ops = some bytes) (target : Int) :
    ReadsAs bytes .cvtsi2sd ops target 0 := by
  unfold encodeCvtsi2sd at encoded
  split at encoded
  · next first second =>
    split at encoded
    · next destination source firstKind secondKind =>
        simp only [Option.ite_none_right_eq_some, Option.ite_none_left_eq_some, Bool.and_eq_true,
          encodeXmmRegisters_bytes, Option.some.injEq] at encoded
        obtain ⟨⟨xmm, gpr⟩, wide, rfl⟩ := encoded
        obtain ⟨-, widths⟩ := regIsGpr_of_wide wide
        have width : widthMeaning .cvtsi2sd [first, second] = regWidthBits source :=
          generalWidth_scalar gpr xmm (.inr ⟨firstKind, secondKind⟩)
        refine readsAs_pair rfl rfl width firstKind secondKind (registerMeaning_xmm xmm) (generalRegister_scalar (scalarContext 0xF2
            (decide (regWidthBits source = 64)) (regNeedsRex destination) (regNeedsRex source))
            rfl widths) ?_
        intro rest
        rw [List.append_assoc, List.cons_append, List.cons_append, decode_scalar (.inr (.inl rfl)),
          List.cons_append, List.nil_append]
        have read := fun rmRegister => readModRm_scalar 0xF2 (decide (regWidthBits source = 64))
          rmRegister destination source rest
        rcases widths with width | width
        · rw [width] at read ⊢
          change (X86.readModRm _ (X86.generalRegister _ 32) _).map _ = _
          rw [read]
          rfl
        · rw [width] at read ⊢
          change (X86.readModRm _ (X86.generalRegister _ 64) _).map _ = _
          rw [read]
          rfl
    · contradiction
  · contradiction

theorem encodeCvttsd2si_readsAs {ops : List Operand} {bytes : List UInt8}
    (encoded : encodeCvttsd2si ops = some bytes) (target : Int) :
    ReadsAs bytes .cvttsd2si ops target 0 := by
  unfold encodeCvttsd2si at encoded
  split at encoded
  · next first second =>
    split at encoded
    · next destination source firstKind secondKind =>
        simp only [Option.ite_none_right_eq_some, Option.ite_none_left_eq_some, Bool.and_eq_true,
          encodeXmmRegisters_bytes, Option.some.injEq] at encoded
        obtain ⟨⟨gpr, xmm⟩, wide, rfl⟩ := encoded
        obtain ⟨-, widths⟩ := regIsGpr_of_wide wide
        have width : widthMeaning .cvttsd2si [first, second] = regWidthBits destination :=
          generalWidth_scalar gpr xmm (.inl ⟨firstKind, secondKind⟩)
        refine readsAs_pair rfl rfl width firstKind secondKind (generalRegister_scalar (scalarContext 0xF2
            (decide (regWidthBits destination = 64)) (regNeedsRex destination) (regNeedsRex source))
            rfl widths) (registerMeaning_xmm xmm) ?_
        intro rest
        rw [List.append_assoc, List.cons_append, List.cons_append, decode_scalar (.inr (.inl rfl)),
          List.cons_append, List.nil_append]
        have read := readModRm_scalar 0xF2 (decide (regWidthBits destination = 64)) .xmm destination
          source rest
        rcases widths with width | width
        · rw [width] at read ⊢
          change (X86.readModRm _ .xmm _).map _ = _
          rw [read]
          rfl
        · rw [width] at read ⊢
          change (X86.readModRm _ .xmm _).map _ = _
          rw [read]
          rfl
    · contradiction
  · contradiction

end Nazm.Encoder
