import Nazm.Passes.Written

/-!
The integers of `.عدد٨`, `.عدد١٦`, `.عدد٣٢` and `.عدد٦٤`.

Owns which values each width holds, that pass 1 accepts exactly these, and that
pass 2 writes each of them so that it can be read back.

Does not own symbol operands.
-/

namespace Nazm.Passes

open Nazm.Encoder Nazm.Parser Nazm.Lexer Nazm.Symtable Nazm.Unicode Nazm.Diagnostics

/-! ## Values -/

/-- The values that a width holds, signed or not; 64 bits hold what an operand
can hold. -/
def FitsWidth (bits : Nat) (value : Int) : Prop :=
  bits = 64 ∨ (-2 ^ (bits - 1) ≤ value ∧ value ≤ 2 ^ bits - 1)

/-- The bytes of a value modulo the width. -/
def valueBytes (size : Nat) (value : Int) : List UInt8 :=
  LittleEndian.bytes size (value % 2 ^ (8 * size)).toNat

theorem dataValueFitsWidth_iff {value : Int64} {bits : Nat} :
    dataValueFitsWidth value bits = true ↔ FitsWidth bits value.toInt := by
  have half : (0 : Int) < 2 ^ (bits - 1) := by positivity
  have full : (0 : Int) < 2 ^ bits := by positivity
  unfold dataValueFitsWidth FitsWidth
  by_cases wide : bits = 64
  · rw [if_pos wide]
    exact iff_of_true rfl (.inl wide)
  · rw [if_neg wide]
    split <;> rw [decide_eq_true_eq] <;> omega

/-- A value is read back unsigned unless it is negative, and signed from the
lower half. -/
theorem valueBytes_readBack {size : Nat} {value : Int64}
    (integer : size = 1 ∨ size = 2 ∨ size = 4 ∨ size = 8)
    (fits : FitsWidth (8 * size) value.toInt) :
    (0 ≤ value.toInt → (LittleEndian.value (valueBytes size value.toInt) : Int) = value.toInt) ∧
      (2 * value.toInt < 2 ^ (8 * size) →
        LittleEndian.signed (8 * size) (LittleEndian.value (valueBytes size value.toInt)) =
          value.toInt) := by
  have power : 256 ^ size = 2 ^ (8 * size) := by rw [pow_mul]; norm_num
  have low := value.le_toInt
  have high := value.toInt_lt
  have read : LittleEndian.value (valueBytes size value.toInt) =
      (value.toInt % 2 ^ (8 * size)).toNat := by
    have positive : (0 : Int) < 2 ^ (8 * size) := by positivity
    have small := Int.emod_lt_of_pos value.toInt positive
    have nonnegative := Int.emod_nonneg value.toInt (Int.ne_of_gt positive)
    refine LittleEndian.value_bytes_of_lt ?_
    rw [power]
    have cast : (((2 ^ (8 * size) : Nat)) : Int) = 2 ^ (8 * size) := by push_cast; rfl
    omega
  have range : -(2 ^ (8 * size)) ≤ 2 * value.toInt ∧ value.toInt < 2 ^ (8 * size) := by
    rcases integer with rfl | rfl | rfl | rfl <;> simp only [FitsWidth] at fits <;> omega
  rw [read]
  constructor
  · intro nonnegative
    rw [Int.emod_eq_of_lt nonnegative range.2, Int.toNat_of_nonneg nonnegative]
  · exact LittleEndian.signed_emod range.1

/-! ## Operands -/

/-- The sizes of the four directives. -/
theorem elementSize?_cases {kind : DirectiveKind} {size : Nat}
    (isInteger : elementSize? kind = some size) :
    (size = 1 ∨ size = 2 ∨ size = 4 ∨ size = 8) ∧ directiveBits kind = 8 * size ∧
      isDataDirective kind = true ∧ kind ≠ .zeroSpace ∧ kind ≠ .alignment := by
  cases kind <;> first | contradiction |
    (obtain rfl := Option.some.inj isInteger
     decide)

/-- The bytes of an immediate operand. -/
theorem bytes_dataValue {size : Nat} {op : Operand} {value : Int64} (kind : op.kind = .imm value)
    (integer : size = 1 ∨ size = 2 ∨ size = 4 ∨ size = 8) :
    LittleEndian.bytes size (dataValue op).toNat = valueBytes size value.toInt := by
  have bits := toNat_toUInt64 value
  have same : value.toUInt64.toNat % 256 ^ size = (value.toInt % 2 ^ (8 * size)).toNat := by
    rcases integer with rfl | rfl | rfl | rfl <;> omega
  have isValue : dataValue op = value.toUInt64 := by rw [dataValue, kind]
  rw [isValue, valueBytes, ← same, LittleEndian.bytes_mod]

/-- Immediate operands, by their values. -/
theorem flatMap_dataValue {size : Nat} {ops : List Operand} {values : List Int64}
    (immediates : ops.map Operand.kind = values.map .imm)
    (integer : size = 1 ∨ size = 2 ∨ size = 4 ∨ size = 8) :
    (ops.flatMap fun op => LittleEndian.bytes size (dataValue op).toNat) =
      values.flatMap fun value => valueBytes size value.toInt := by
  induction ops generalizing values with
  | nil =>
      obtain rfl := List.map_eq_nil_iff.mp immediates.symm
      rfl
  | cons op ops inductionHypothesis =>
      obtain ⟨value, values, rfl, kind, rest⟩ := List.map_eq_cons_iff.mp immediates.symm
      rw [List.flatMap_cons, List.flatMap_cons, bytes_dataValue kind.symm integer,
        inductionHypothesis rest.symm]

theorem integerOperandsFault_iff {bits index : Nat} {ops : List Operand} {values : List Int64}
    (immediates : ops.map Operand.kind = values.map .imm) :
    integerOperandsFault bits index ops = none ↔ ∀ value ∈ values, FitsWidth bits value.toInt := by
  induction ops generalizing index values with
  | nil =>
      obtain rfl := List.map_eq_nil_iff.mp immediates.symm
      exact iff_of_true rfl fun _ member => absurd member List.not_mem_nil
  | cons op ops inductionHypothesis =>
      obtain ⟨value, values, rfl, kind, rest⟩ := List.map_eq_cons_iff.mp immediates.symm
      rw [integerOperandsFault, ← kind, List.forall_mem_cons, ← dataValueFitsWidth_iff]
      dsimp only
      split
      · next fits => rw [inductionHypothesis rest.symm, and_iff_right fits]
      · next refused => exact iff_of_false (Option.some_ne_none _) fun both => refused both.1

/-- What pass 1 checks of the four directives. -/
theorem dataDirectiveFault_integer {instr : Instruction} {size : Nat}
    (isInteger : elementSize? instr.directiveKind = some size) :
    dataDirectiveFault instr = none ↔
      instr.ops ≠ [] ∧ integerOperandsFault (8 * size) 0 instr.ops = none := by
  unfold dataDirectiveFault
  cases kind : instr.directiveKind <;> rw [kind] at isInteger <;> first | contradiction |
    (obtain rfl := Option.some.inj isInteger
     dsimp only [directiveBits]
     split
     · next empty => exact iff_of_false (Option.some_ne_none _) fun both => both.1 empty
     · next some_ => exact (and_iff_right some_).symm)

theorem dataDirectiveSizeAt_integer {instr : Instruction} {size : Nat}
    (isInteger : elementSize? instr.directiveKind = some size) (offset : Nat) :
    dataDirectiveSizeAt instr offset = (dataDirectiveBytes instr offset).length := by
  unfold dataDirectiveSizeAt dataDirectiveBytes
  have boundary : alignmentBoundary? instr = none :=
    alignmentBoundary?_eq_none (elementSize?_cases isInteger).2.2.2.2
  rw [boundary]
  cases kind : instr.directiveKind <;> rw [kind] at isInteger <;> first | contradiction |
    simp [dataDirectiveSize, kind, elementSize?]

theorem dataDirectiveBytes_integer {instr : Instruction} {size : Nat}
    (isInteger : elementSize? instr.directiveKind = some size) (offset : Nat) :
    dataDirectiveBytes instr offset =
      instr.ops.flatMap fun op => LittleEndian.bytes size (dataValue op).toNat := by
  unfold dataDirectiveBytes
  cases kind : instr.directiveKind <;> rw [kind] at isInteger <;> first | contradiction |
    (obtain rfl := Option.some.inj isInteger
     rfl)

/-! ## Statements -/

/-- In a section with bytes, pass 1 says of the four directives what their check
says, and enters their label. -/
theorem pass1Step_integer {instructions : InstructionList} {state : Pass1State}
    {instr : Instruction} {size : Nat}
    (isInteger : elementSize? instr.directiveKind = some size)
    (written : state.currentSection = .data ∨ state.currentSection = .readOnlyData) :
    errorHasAny (pass1Step instructions state instr).errors = false ↔
      dataDirectiveFault instr = none ∧
        errorHasAny (pass1Label instructions state instr).errors = false := by
  obtain ⟨-, -, isData, notSpace, notAlignment⟩ := elementSize?_cases isInteger
  have step : pass1Step instructions state instr =
      pass1DataDirective instructions state instr := by
    rw [pass1Step]
    cases kind : instr.directiveKind <;> first | rfl | (rw [kind] at isData; contradiction)
  have notText : state.currentSection ≠ .text := by
    rcases written with same | same <;> rw [same] <;> decide
  have notBss : state.currentSection ≠ .bss := by
    rcases written with same | same <;> rw [same] <;> decide
  have noted : pass1NoteAlignment state.alignments state.currentSection instr =
      state.alignments := by
    rw [pass1NoteAlignment, alignmentBoundary?_eq_none notAlignment]
  rw [step, pass1DataDirective, if_neg notText]
  cases fault : dataDirectiveFault instr with
  | some found =>
      dsimp only
      rw [pass1Fault_dirty]
      simp
  | none =>
      dsimp only
      rw [if_neg fun bss => notBss bss.1, noted]
      split <;> simp

/-- What holds of every statement of the four directives whose operands are
immediates: pass 1 accepts exactly the values of the width, pass 2 appends each
of them modulo the width and nothing else, and they can be read back. -/
theorem integer_data_exact {instructions : InstructionList} {instr : Instruction} {size : Nat}
    {values : List Int64} (isInteger : elementSize? instr.directiveKind = some size)
    (immediates : instr.ops.map Operand.kind = values.map .imm) :
    (dataDirectiveFault instr = none ↔
      values ≠ [] ∧ ∀ value ∈ values, FitsWidth (8 * size) value.toInt) ∧
    (∀ state : Pass1State,
      state.currentSection = .data ∨ state.currentSection = .readOnlyData →
      (errorHasAny (pass1Step instructions state instr).errors = false ↔
        (values ≠ [] ∧ ∀ value ∈ values, FitsWidth (8 * size) value.toInt) ∧
          errorHasAny (pass1Label instructions state instr).errors = false)) ∧
    (∀ before after state, instructions.data = before ++ instr :: after →
      errorHasAny (pass1Run instructions).errors = false →
      pass2Walk instructions (pass1Run instructions) before = .ok state →
      DirectiveWritten instructions before instr state
        (values.flatMap fun value => valueBytes size value.toInt)) ∧
    ∀ value ∈ values, FitsWidth (8 * size) value.toInt →
      (0 ≤ value.toInt →
        (LittleEndian.value (valueBytes size value.toInt) : Int) = value.toInt) ∧
      (2 * value.toInt < 2 ^ (8 * size) →
        LittleEndian.signed (8 * size) (LittleEndian.value (valueBytes size value.toInt)) =
          value.toInt) := by
  obtain ⟨integer, -, isData, notSpace, notAlignment⟩ := elementSize?_cases isInteger
  have accepts : dataDirectiveFault instr = none ↔
      values ≠ [] ∧ ∀ value ∈ values, FitsWidth (8 * size) value.toInt := by
    have some_ : instr.ops ≠ [] ↔ values ≠ [] := by
      have lengths := congrArg List.length immediates
      rw [List.length_map, List.length_map] at lengths
      rw [← List.length_pos_iff, ← List.length_pos_iff, lengths]
    rw [dataDirectiveFault_integer isInteger, integerOperandsFault_iff immediates, some_]
  refine ⟨accepts, fun state written => ?_, fun before after state split sized reached => ?_,
    fun value _ fits => valueBytes_readBack integer fits⟩
  · rw [pass1Step_integer isInteger written, accepts]
  · have notBss : state.currentSection ≠ .bss := by
      intro bss
      have accepted := statementAccepted sized split
      rw [← pass2Walk_layout sized split reached] at accepted
      exact (accepted.bssOnly isData bss).elim notSpace notAlignment
    have holds := directiveWritten sized split reached isData notBss
      (dataDirectiveSizeAt_integer isInteger _)
    rwa [dataDirectiveBytes_integer isInteger, flatMap_dataValue immediates integer] at holds

/-- The statement `.عدد١٦ -2، 65535`. -/
def wordPair : Instruction :=
  ⟨.invalid, [⟨.imm (-2), 2, 8, 10⟩, ⟨.imm 65535, 2, 12, 17⟩], none, some (utf8 ".عدد١٦"), .int16,
    2, 1, 7, 0, 0, 0⟩

/-- The statement `.بيانات`. -/
def dataSwitch : Instruction :=
  ⟨.invalid, [], none, some (utf8 ".بيانات"), .data, 1, 1, 8, 0, 0, 0⟩

theorem integer_data_exact_wordPair :
    DirectiveWritten ⟨[dataSwitch, wordPair], none⟩ [dataSwitch] wordPair
        { Pass2State.init with currentSection := .data }.emitNothing [0xFE, 0xFF, 0xFF, 0xFF] ∧
      LittleEndian.signed 16 (LittleEndian.value (valueBytes 2 (-2))) = -2 :=
  have exact_ := @integer_data_exact ⟨[dataSwitch, wordPair], none⟩ wordPair 2 [-2, 65535] rfl rfl
  ⟨exact_.2.2.1 [dataSwitch] [] _ rfl (by decide +kernel) rfl,
    (exact_.2.2.2 (-2) (by decide) (.inr (by decide))).2 (by decide)⟩

end Nazm.Passes
