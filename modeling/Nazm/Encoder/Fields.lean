import Nazm.Encoder.Encode
import Nazm.Encoder.Meaning
import Nazm.X86.Decoder

/-!
The fields of an encoded instruction, written and read.

Owns, for each part that `emit_*` appends (prefix and REX header, ModRM and
SIB with displacement, immediates), its explicit byte string and the decoder's
reading of it.

Does not own any instruction form.
-/

namespace Nazm.Encoder

open LittleEndian

/-! ## Emission under the length cap -/

theorem emit_of_lt {b : Buf} (room : b.length < 15) (byte : UInt8) : emit b byte = b ++ [byte] :=
  if_pos room

theorem byteAt_eq (v : Int) (shift : Nat) : byteAt v shift = UInt8.ofInt (v / 2 ^ shift) := by
  rw [byteAt, Int.shiftRight_eq_div_pow]
  rfl

/-- Eight places of a shift are one division by 256. -/
theorem div_div_pow (v : Int) (count : Nat) : v / 256 / 2 ^ (8 * count) = v / 2 ^ (8 * (count + 1)) := by
  rw [Int.ediv_ediv_of_nonneg (by omega), Nat.mul_succ, pow_add, mul_comm]
  norm_num

/-- The low `count` bytes of a number, as the shifts of `emit64` produce them. -/
theorem intBytes_eq_map_byteAt (count : Nat) (v : Int) :
    intBytes count v = (List.range count).map fun i => byteAt v (i * 8) := by
  induction count generalizing v with
  | zero => rfl
  | succ count inductionHypothesis =>
      rw [intBytes, inductionHypothesis, List.range_succ_eq_map, List.map_cons, List.map_map]
      congr 1
      · rw [byteAt_eq, Nat.zero_mul, pow_zero, Int.ediv_one]
      · apply List.map_congr_left
        intro i _
        simp only [Function.comp_apply, byteAt_eq, Nat.succ_eq_add_one]
        rw [Nat.mul_comm, div_div_pow, Nat.mul_comm]

theorem foldl_emit {b : Buf} (string : List UInt8) (room : b.length + string.length ≤ 15) :
    string.foldl emit b = b ++ string := by
  induction string generalizing b with
  | nil => simp
  | cons byte string inductionHypothesis =>
      rw [List.length_cons] at room
      rw [List.foldl_cons, emit_of_lt (by omega), inductionHypothesis (by simp; omega)]
      simp

theorem emit32_eq_foldl (b : Buf) (v : Int) : emit32 b v = (intBytes 4 v).foldl emit b := by
  rw [intBytes_eq_map_byteAt, List.foldl_map]
  rfl

theorem emit32_of_le {b : Buf} (room : b.length ≤ 11) (v : Int) :
    emit32 b v = b ++ intBytes 4 v := by
  rw [emit32_eq_foldl, foldl_emit _ (by simp; omega)]

theorem emit64_of_le {b : Buf} (room : b.length ≤ 7) (v : Int) : emit64 b v = b ++ intBytes 8 v := by
  rw [intBytes_eq_map_byteAt, ← foldl_emit _ (by simp; omega), List.foldl_map]
  rfl

/-! ## Register numbers -/

theorem regField_lt (r : RegId) : regField r < 8 := by
  unfold regField
  split <;> omega

theorem rf_lt (r : RegId) : rf r < 8 := regField_lt r

/-- The number of a register, as the decoder assembles it. -/
def registerNumber (r : RegId) : Nat := (regIndex r).toNat

theorem extend_regField (r : RegId) :
    X86.extend (regNeedsRex r) (regField r) = registerNumber r := by
  rcases r with index | index | index | index | index | _
  all_goals first
    | (revert index; decide)
    | rfl

theorem validIntegerWidth_cases {width : Nat} (valid : validIntegerWidth width = true) :
    width = 8 ∨ width = 16 ∨ width = 32 ∨ width = 64 := by
  simpa [validIntegerWidth, or_assoc] using valid

/-! ## The header: operand-size prefix and REX -/

/-- The bytes before the opcode. -/
def headerBytes (width : Nat) (r b force : Bool) : List UInt8 :=
  (if width = 16 then [0x66] else []) ++
    if force || (decide (width = 64) || r || b) then [rexByte (decide (width = 64)) r false b]
    else []

/-- The decoder's state after the header. -/
def headerContext (width : Nat) (r b force : Bool) : X86.Context where
  legacy := ⟨decide (width = 16), false, false⟩
  rexPresent := force || (decide (width = 64) || r || b)
  rex := ⟨decide (width = 64), r, false, b⟩

theorem length_headerBytes_le (width : Nat) (r b force : Bool) :
    (headerBytes width r b force).length ≤ 2 := by
  unfold headerBytes
  split <;> split <;> simp

/-- Some byte register of the form needs a REX prefix to be reached. -/
def forcesRex (width : Nat) (reg rm : RegId) : Bool :=
  decide (width = 8) && (regRequiresRexByte reg || regRequiresRexByte rm)

theorem emitRexForWidth_header (width : Nat) (reg rm : RegId) :
    emitRexForWidth (emitWidthPrefix [] width) width reg rm =
      headerBytes width (regNeedsRex reg) (regNeedsRex rm) (forcesRex width reg rm) := by
  have present : ∀ r : RegId, (decide (r ≠ .invalid) && rexB r) = regNeedsRex r := by
    intro r
    cases r <;> (simp [rexB]; try rfl)
  have required : ∀ r : RegId,
      (decide (r ≠ .invalid) && regRequiresRexByte r) = regRequiresRexByte r := by
    intro r
    cases r <;> (simp; try rfl)
  have presentR : (decide (reg ≠ .invalid) && rexR reg) = regNeedsRex reg := present reg
  simp only [emitRexForWidth, presentR, present, required, forcesRex, rexRequired, Bool.or_false,
    headerBytes]
  by_cases wide : width = 16
  · subst wide
    by_cases rex : (regNeedsRex reg || regNeedsRex rm) = true
    · simp [emitWidthPrefix, emit, maxInstructionBytes, rex]
    · simp [emitWidthPrefix, emit, maxInstructionBytes, rex]
  · simp [emitWidthPrefix, emit, maxInstructionBytes, wide]

/-- Without the prefix step: `emit_rex_for_width` alone, at a width other than 16. -/
theorem emitRexForWidth_nil {width : Nat} (narrow : width ≠ 16) (reg rm : RegId) :
    emitRexForWidth [] width reg rm =
      headerBytes width (regNeedsRex reg) (regNeedsRex rm) (forcesRex width reg rm) := by
  rw [← emitRexForWidth_header, emitWidthPrefix, if_neg narrow]

/-- An opcode byte that the decoder cannot take for a prefix. -/
def plainOpcode (opcode : UInt8) : Bool :=
  opcode != 0x66 && opcode != 0xF2 && opcode != 0xF3 && opcode.toNat / 16 != 4

theorem readLegacyPrefixes_plain {opcode : UInt8} (plain : plainOpcode opcode = true)
    (legacy : X86.LegacyPrefixes) (code : List UInt8) :
    X86.readLegacyPrefixes legacy (opcode :: code) = (legacy, opcode :: code) := by
  simp only [plainOpcode, Bool.and_eq_true, bne_iff_ne, ne_eq] at plain
  obtain ⟨⟨⟨size, repne⟩, rep⟩, -⟩ := plain
  unfold X86.readLegacyPrefixes
  split
  · next equal => exact absurd (List.cons.inj equal).1 size
  · next equal => exact absurd (List.cons.inj equal).1 repne
  · next equal => exact absurd (List.cons.inj equal).1 rep
  · rfl

theorem readRex_plain {opcode : UInt8} (plain : plainOpcode opcode = true) (code : List UInt8) :
    X86.readRex (opcode :: code) = (none, opcode :: code) := by
  simp only [plainOpcode, Bool.and_eq_true, bne_iff_ne, ne_eq] at plain
  exact if_neg plain.2

/-- A REX byte right before the opcode, whatever the mandatory prefixes were. -/
theorem readPrefixes_rex (w r b : Bool) (legacy : X86.LegacyPrefixes) (code : List UInt8) :
    X86.readLegacyPrefixes legacy (rexByte w r false b :: code) =
        (legacy, rexByte w r false b :: code) ∧
      X86.readRex (rexByte w r false b :: code) = (some ⟨w, r, false, b⟩, code) := by
  cases w <;> cases r <;> cases b <;> exact ⟨rfl, rfl⟩

theorem decode_header (width : Nat) (r b force : Bool) {opcode : UInt8}
    (plain : plainOpcode opcode = true) (code : List UInt8) :
    X86.decode (headerBytes width r b force ++ opcode :: code) =
      X86.decodeOpcode (headerContext width r b force) (opcode :: code) := by
  unfold headerBytes headerContext X86.decode
  by_cases rex : (force || (decide (width = 64) || r || b)) = true
  · rw [if_pos rex]
    by_cases wide : width = 16
    · simp only [if_pos wide, List.cons_append, List.nil_append, X86.readLegacyPrefixes,
        (readPrefixes_rex _ r b _ _).1, (readPrefixes_rex _ r b X86.noLegacyPrefixes _).2, rex]
      simp [X86.noLegacyPrefixes, wide]
    · simp only [if_neg wide, List.cons_append, List.nil_append,
        (readPrefixes_rex _ r b _ _).1, (readPrefixes_rex _ r b X86.noLegacyPrefixes _).2, rex]
      simp [X86.noLegacyPrefixes, wide]
  · rw [if_neg rex]
    simp only [Bool.or_eq_true, not_or, Bool.not_eq_true] at rex
    obtain ⟨noForce, ⟨notWide, noR⟩, noB⟩ := rex
    by_cases wide : width = 16
    · simp only [if_pos wide, List.cons_append, List.nil_append, X86.readLegacyPrefixes,
        readLegacyPrefixes_plain plain, readRex_plain plain, noForce, noR, noB, notWide]
      simp [X86.noLegacyPrefixes, X86.noRex, wide]
    · simp only [if_neg wide, List.nil_append, readLegacyPrefixes_plain plain, readRex_plain plain,
        noForce, noR, noB, notWide]
      simp [X86.noLegacyPrefixes, X86.noRex, wide]

/-! ## ModRM, SIB and displacement -/

theorem modrmByte_fields {mod reg rm : Nat} (modBound : mod < 4) (regBound : reg < 8)
    (rmBound : rm < 8) :
    (modrmByte mod reg rm).toNat / 64 = mod ∧ (modrmByte mod reg rm).toNat / 8 % 8 = reg ∧
      (modrmByte mod reg rm).toNat % 8 = rm := by
  have all : ∀ (mod : Fin 4) (reg rm : Fin 8), (modrmByte mod reg rm).toNat / 64 = mod ∧
      (modrmByte mod reg rm).toNat / 8 % 8 = reg ∧ (modrmByte mod reg rm).toNat % 8 = rm := by
    decide +kernel
  exact all ⟨mod, modBound⟩ ⟨reg, regBound⟩ ⟨rm, rmBound⟩

/-- A SIB byte without index: scale 0, index field 4. -/
theorem sibByte_noIndex {base : Nat} (baseBound : base < 8) :
    (sibByte 0 4 base).toNat / 8 % 8 = 4 ∧ (sibByte 0 4 base).toNat % 8 = base := by
  have all : ∀ base : Fin 8, (sibByte 0 4 base).toNat / 8 % 8 = 4 ∧
      (sibByte 0 4 base).toNat % 8 = base := by decide +kernel
  exact all ⟨base, baseBound⟩

/-- The ModRM `mod` field of `[base + disp]`. -/
def addressMod (base : RegId) (disp : Int32) : Nat :=
  if disp = 0 ∧ rf base ≠ 5 then 0
  else if -128 ≤ disp.toInt ∧ disp.toInt ≤ 127 then 1
  else 2

/-- The displacement bytes that go with `addressMod`. -/
def dispBytes (base : RegId) (disp : Int32) : List UInt8 :=
  if disp = 0 ∧ rf base ≠ 5 then []
  else if -128 ≤ disp.toInt ∧ disp.toInt ≤ 127 then intBytes 1 disp.toInt
  else intBytes 4 disp.toInt

/-- ModRM, SIB and displacement of `[base + disp]`. -/
def addressBytes (modrmReg : Nat) (base : RegId) (disp : Int32) : List UInt8 :=
  (if rf base = 4 then [modrmByte (addressMod base disp) modrmReg 4, sibByte 0 4 (rf base)]
    else [modrmByte (addressMod base disp) modrmReg (rf base)]) ++ dispBytes base disp

theorem length_addressBytes_le (modrmReg : Nat) (base : RegId) (disp : Int32) :
    (addressBytes modrmReg base disp).length ≤ 6 := by
  have dispLength : (dispBytes base disp).length ≤ 4 := by
    unfold dispBytes
    split
    · simp
    · split <;> simp
  unfold addressBytes
  rw [List.length_append]
  split <;> simp <;> omega

theorem emitMemAddress_eq_foldl (b : Buf) (modrmReg : Nat) (base : RegId) (disp : Int32) :
    emitMemAddress b modrmReg base disp = (addressBytes modrmReg base disp).foldl emit b := by
  have low : byteAt disp.toInt 0 = UInt8.ofInt disp.toInt := by
    rw [byteAt_eq, pow_zero, Int.ediv_one]
  unfold emitMemAddress addressBytes addressMod dispBytes
  rw [low, List.foldl_append]
  by_cases sib : rf base = 4
  · simp only [sib, decide_true, if_true, emit32_eq_foldl]
    split
    · rfl
    · split <;> rfl
  · simp only [sib, decide_false, if_false, Bool.false_eq_true, emit32_eq_foldl]
    split
    · rfl
    · split <;> rfl

theorem emitMemAddress_of_le {b : Buf} (room : b.length ≤ 9) (modrmReg : Nat) (base : RegId)
    (disp : Int32) : emitMemAddress b modrmReg base disp = b ++ addressBytes modrmReg base disp := by
  have length := length_addressBytes_le modrmReg base disp
  rw [emitMemAddress_eq_foldl, foldl_emit _ (by omega)]

/-- The emit helpers of the scalar forms are those of the table. -/
theorem sseEmit_eq : sseEmit = emit := rfl

theorem sseEmit32_eq (buffer : SseBuf) (value : Int32) :
    sseEmit32 buffer value = emit32 buffer value.toInt := rfl

theorem emitMemoryAddress_eq (buffer : SseBuf) (modrmReg : Nat) (base : RegId) (disp : Int32) :
    emitMemoryAddress buffer modrmReg base disp = emitMemAddress buffer modrmReg base disp := by
  have low : UInt8.ofInt disp.toInt = byteAt disp.toInt 0 := by
    rw [byteAt_eq, pow_zero, Int.ediv_one]
  unfold emitMemoryAddress emitMemAddress rf
  simp only [low, sseEmit_eq, sseEmit32_eq]

theorem int32_range (disp : Int32) : -2147483648 ≤ disp.toInt ∧ disp.toInt < 2147483648 :=
  ⟨Int32.le_toInt disp, Int32.toInt_lt disp⟩

/-- A signed field is read back from the bytes of a number in its range. -/
theorem readSigned_intBytes {count : Nat} {number : Int} (lower : -(2 ^ (8 * count)) ≤ 2 * number)
    (upper : 2 * number < 2 ^ (8 * count)) (code : List UInt8) :
    X86.readSigned count (intBytes count number ++ code) = some (number, code) := by
  unfold X86.readSigned X86.readUnsigned
  rw [if_neg (by simp), List.take_left' (by simp), List.drop_left' (by simp)]
  simp only [Option.map_some, signed_intBytes lower upper]

theorem readSigned_field {count : Nat} {field : List UInt8} (length : field.length = count)
    (code : List UInt8) :
    X86.readSigned count (field ++ code) = some (signed (8 * count) (value field), code) := by
  unfold X86.readSigned X86.readUnsigned
  rw [if_neg (by simp [length]), List.take_left' length, List.drop_left' length]
  rfl

theorem readDisplacement_address (base : RegId) (disp : Int32) (code : List UInt8) :
    X86.readDisplacement (addressMod base disp) (dispBytes base disp ++ code) =
      some (disp.toInt, code) := by
  have range := int32_range disp
  unfold addressMod dispBytes
  split
  · next zero =>
      rw [zero.1]
      rfl
  · split
    · next small => exact readSigned_intBytes (by omega) (by omega) code
    · exact readSigned_intBytes (by omega) (by omega) code

theorem addressMod_lt (base : RegId) (disp : Int32) : addressMod base disp < 3 := by
  unfold addressMod
  split
  · omega
  · split <;> omega

theorem addressMod_rbp {base : RegId} (disp : Int32) (five : rf base = 5) :
    addressMod base disp ≠ 0 := by
  unfold addressMod
  rw [if_neg (by simp [five])]
  split <;> omega

theorem readModRm_registers (context : X86.Context) (rmRegister : Nat → X86.Register)
    {reg rm : Nat} (regBound : reg < 8) (rmBound : rm < 8) (code : List UInt8) :
    X86.readModRm context rmRegister (modrmByte 3 reg rm :: code) =
      some (⟨reg, X86.extend context.rex.r reg,
        .register (rmRegister (X86.extend context.rex.b rm))⟩, code) := by
  obtain ⟨mod, regField, rmField⟩ := modrmByte_fields (show 3 < 4 by omega) regBound rmBound
  simp only [X86.readModRm, mod, regField, rmField, if_true]

theorem readModRm_address (context : X86.Context) (noIndex : context.rex.x = false)
    (rmRegister : Nat → X86.Register) {reg : Nat} (regBound : reg < 8) (base : RegId) (disp : Int32)
    (code : List UInt8) :
    X86.readModRm context rmRegister (addressBytes reg base disp ++ code) =
      some (⟨reg, X86.extend context.rex.r reg,
        .memory (some (X86.extend context.rex.b (regField base))) none disp.toInt⟩, code) := by
  have modBound := addressMod_lt base disp
  have baseBound : rf base < 8 := regField_lt base
  have displacement := readDisplacement_address base disp code
  unfold addressBytes
  by_cases sib : rf base = 4
  · obtain ⟨mod, regRead, rmRead⟩ :=
      modrmByte_fields (show addressMod base disp < 4 by omega) regBound (show 4 < 8 by omega)
    obtain ⟨index, baseRead⟩ := sibByte_noIndex baseBound
    rw [if_pos sib]
    simp only [List.cons_append, List.nil_append, X86.readModRm, mod, regRead, rmRead,
      show addressMod base disp ≠ 3 by omega, if_false, X86.readMemory, if_true, index, baseRead,
      noIndex, show ¬ (addressMod base disp = 0 ∧ rf base = 5) by omega, displacement]
    rfl
  · obtain ⟨mod, regRead, rmRead⟩ :=
      modrmByte_fields (show addressMod base disp < 4 by omega) regBound baseBound
    have notRip : ¬ (addressMod base disp = 0 ∧ rf base = 5) :=
      fun both => addressMod_rbp disp both.2 both.1
    rw [if_neg sib]
    simp only [List.cons_append, List.nil_append, X86.readModRm, mod, regRead, rmRead,
      show addressMod base disp ≠ 3 by omega, if_false, X86.readMemory, sib, notRip, displacement]
    rfl

/-- A RIP-relative operand, whatever its field holds. -/
theorem readModRm_rip (context : X86.Context) (rmRegister : Nat → X86.Register) {reg : Nat}
    (regBound : reg < 8) {field : List UInt8} (length : field.length = 4) (code : List UInt8) :
    X86.readModRm context rmRegister (modrmByte 0 reg 5 :: (field ++ code)) =
      some (⟨reg, X86.extend context.rex.r reg, .ripRelative (signed 32 (value field))⟩, code) := by
  obtain ⟨mod, regRead, rmRead⟩ :=
    modrmByte_fields (show 0 < 4 by omega) regBound (show 5 < 8 by omega)
  simp only [X86.readModRm, mod, regRead, rmRead, X86.readMemory, readSigned_field length]
  rfl

/-! ## Immediates -/

/-- A field of `count` bytes, read at an operand width at least as large,
when the number is in the signed range of the field. -/
theorem readImmediate_signed (count width : Nat) {number : Int}
    (lower : -(2 ^ (8 * count)) ≤ 2 * number) (upper : 2 * number < 2 ^ (8 * count))
    (code : List UInt8) :
    X86.readImmediate count width (intBytes count number ++ code) =
      some (.immediate (number % 2 ^ width).toNat, code) := by
  rw [X86.readImmediate, readSigned_intBytes lower upper]
  rfl

/-- A field as wide as the operand holds any number modulo that width. -/
theorem readImmediate_exact (count : Nat) (number : Int) (code : List UInt8) :
    X86.readImmediate count (8 * count) (intBytes count number ++ code) =
      some (.immediate (number % 2 ^ (8 * count)).toNat, code) := by
  rw [X86.readImmediate, readSigned_field (length_intBytes count number)]
  simp only [Option.map_some, signed_intBytes_emod]

theorem readUnsigned_byte (number : Int) (code : List UInt8) :
    X86.readUnsigned 1 (intBytes 1 number ++ code) = some ((number % 2 ^ 8).toNat, code) := by
  have read := value_intBytes 1 number
  unfold X86.readUnsigned
  rw [if_neg (by simp), List.take_left' (by simp), List.drop_left' (by simp)]
  congr 2
  omega

/-! ## Registers -/

/-- A general register is read back from its field, given its REX bit and, for
SPL, BPL, SIL and DIL, the REX prefix itself. -/
theorem generalRegister_registerNumber {context : X86.Context} {r : RegId}
    (valid : validIntegerWidth (regWidthBits r) = true)
    (forced : regRequiresRexByte r = true → context.rexPresent = true) :
    registerMeaning r =
      some (X86.generalRegister context (regWidthBits r) (registerNumber r)) := by
  have number : ∀ index : Fin 16, ((index.val : Int)).toNat = index.val := fun _ => rfl
  rcases r with index | index | index | index | index | _
  · simp [registerMeaning, X86.generalRegister, regWidthBits, registerNumber, regIndex]
  · simp [registerMeaning, X86.generalRegister, regWidthBits, registerNumber, regIndex]
  · simp [registerMeaning, X86.generalRegister, regWidthBits, registerNumber, regIndex]
  · by_cases high : 4 ≤ index.val
    · have present := forced (by simp [regRequiresRexByte, regWidthBits, regIndex]; omega)
      simp [registerMeaning, X86.generalRegister, regWidthBits, registerNumber, regIndex, present]
    · simp [registerMeaning, X86.generalRegister, regWidthBits, registerNumber, regIndex, high]
  · simp [validIntegerWidth, regWidthBits] at valid
  · simp [validIntegerWidth, regWidthBits] at valid

end Nazm.Encoder
