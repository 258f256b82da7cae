import Nazm.Passes.Layout

/-!
The bytes of a data directive.

Owns the abstract value of a data directive at an offset, and that it is what
`emit_data_directive` appends and what `data_directive_size_at` measures.

Does not own relocations.
-/

namespace Nazm.Passes

open Nazm.Encoder Nazm.Parser

/-! ## The abstract value -/

/-- The bits of an operand, as a number. -/
theorem toNat_toUInt64 (value : Int64) : (value.toUInt64.toNat : Int) = value.toInt % 2 ^ 64 := by
  have signed := BitVec.toInt_eq_toNat_cond value.toBitVec
  have small := value.toBitVec.isLt
  change (value.toBitVec.toNat : Int) = value.toBitVec.toInt % _
  rw [signed]
  split <;> omega

def stringBytes (op : Operand) : List UInt8 :=
  match op.kind with
  | .string data => data ++ [0]
  | _ => []

/-- The bytes each integer of a directive takes. -/
def elementSize? : DirectiveKind → Option Nat
  | .int8 => some 1
  | .int16 => some 2
  | .int32 => some 4
  | .int64 => some 8
  | _ => none

/-- What a data directive stands for at an offset of its section. -/
def dataDirectiveBytes (instr : Instruction) (offset : Nat) : List UInt8 :=
  match instr.directiveKind with
  | .nulString => instr.ops.flatMap stringBytes
  | .alignment =>
      match alignmentBoundary? instr with
      | some alignment => List.replicate (alignmentPadding alignment offset) 0
      | none => []
  | .zeroSpace => List.replicate (dataDirectiveSize instr).toNat 0
  | kind =>
      match elementSize? kind with
      | some size => instr.ops.flatMap fun op => LittleEndian.bytes size (dataValue op).toNat
      | none => []

/-! ## Its size -/

theorem asInt_of_small {value : Int} (lower : 0 ≤ value) (upper : value < 2 ^ 31) :
    asInt value = value := by
  rw [asInt, Int.bmod]
  omega

theorem stringBytes_of_other {op : Operand} (other : ∀ data, op.kind ≠ .string data) :
    stringBytes op = [] := by
  unfold stringBytes
  split
  · next kind => exact absurd kind (other _)
  · rfl

theorem length_stringBytes_le (op : Operand) : (stringBytes op).length ≤ operandWeight op := by
  unfold stringBytes operandWeight
  split <;> simp [*]

/-- The sum over the strings of a directive does not wrap. -/
theorem foldl_addStringSize (ops : List Operand) (total : Nat)
    (small : total + operandsWeight ops < 2 ^ 31) :
    ops.foldl addStringSize total = ((total + (ops.flatMap stringBytes).length : Nat) : Int) := by
  induction ops generalizing total with
  | nil => simp
  | cons op ops inductionHypothesis =>
      have bound := length_stringBytes_le op
      rw [operandsWeight_cons] at small
      have turn : addStringSize total op = ((total + (stringBytes op).length : Nat) : Int) := by
        unfold addStringSize
        split
        · next data kind =>
            have length : (stringBytes op).length = data.length + 1 := by simp [stringBytes, kind]
            have dataLength : asInt data.length = data.length :=
              asInt_of_small (by omega) (by omega)
            rw [dataLength, asInt_of_small (by omega) (by omega), length]
            omega
        · next other => simp [stringBytes_of_other other]
      rw [List.foldl_cons, turn, inductionHypothesis _ (by omega), List.flatMap_cons,
        List.length_append, Nat.add_assoc]

theorem length_flatMap_integers (size : Nat) (ops : List Operand) :
    (ops.flatMap fun op => LittleEndian.bytes size (dataValue op).toNat).length =
      ops.length * size := by
  induction ops with
  | nil => simp
  | cons op ops inductionHypothesis =>
      simp only [List.flatMap_cons, List.length_append, LittleEndian.length_bytes,
        inductionHypothesis, List.length_cons, Nat.succ_mul]
      omega

theorem alignmentBoundary?_eq_none {instr : Instruction}
    (other : instr.directiveKind ≠ .alignment) : alignmentBoundary? instr = none := by
  unfold alignmentBoundary?
  split
  · next kind _ => exact absurd kind other
  · rfl

/-- The boundary of a directive that pass 1 lets pass. -/
theorem alignmentBoundary?_of_faultless {instr : Instruction}
    (kind : instr.directiveKind = .alignment) (faultless : dataDirectiveFault instr = none) :
    ∃ alignment, alignmentBoundary? instr = some alignment ∧ 0 < alignment ∧ alignment ≤ 4096 := by
  unfold dataDirectiveFault at faultless
  rw [kind] at faultless
  dsimp only at faultless
  split at faultless
  · next value line col endCol ops =>
      split at faultless
      · contradiction
      · next inRange =>
          simp only [not_or, not_lt] at inRange
          refine ⟨value.toInt.toNat, ?_, by omega, by omega⟩
          simp [alignmentBoundary?, kind, ops]
          omega
  · contradiction

theorem zeroSpace_of_faultless {instr : Instruction} (kind : instr.directiveKind = .zeroSpace)
    (faultless : dataDirectiveFault instr = none) :
    0 ≤ dataDirectiveSize instr ∧ dataDirectiveSize instr < 2 ^ 31 := by
  unfold dataDirectiveFault at faultless
  rw [kind] at faultless
  dsimp only at faultless
  split at faultless
  · next value line col endCol ops =>
      split at faultless
      · contradiction
      · next inRange =>
          simp only [not_or, not_lt] at inRange
          simp only [dataDirectiveSize, kind, ops]
          rw [asInt_of_small (by omega) (by omega)]
          omega
  · contradiction

/-- Pass 1 and the abstract value agree on the size of a directive without fault. -/
theorem dataDirectiveSizeAt_eq {instr : Instruction}
    (isData : isDataDirective instr.directiveKind = true)
    (faultless : dataDirectiveFault instr = none) (small : operandsWeight instr.ops < 2 ^ 31)
    (offset : Nat) :
    dataDirectiveSizeAt instr offset = (dataDirectiveBytes instr offset).length := by
  unfold dataDirectiveSizeAt dataDirectiveBytes
  cases kind : instr.directiveKind with
  | nulString =>
      rw [alignmentBoundary?_eq_none (by simp [kind])]
      have sum := foldl_addStringSize instr.ops 0 (by omega)
      rw [Nat.zero_add] at sum
      simp only [dataDirectiveSize, kind]
      exact sum
  | alignment =>
      obtain ⟨alignment, boundary, positive, bounded⟩ :=
        alignmentBoundary?_of_faultless kind faultless
      simp only [boundary, List.length_replicate]
      have below := Nat.mod_lt (alignment - offset % alignment) positive
      rw [alignmentPadding, asInt_of_small (by omega) (by omega)]
  | zeroSpace =>
      obtain ⟨lower, -⟩ := zeroSpace_of_faultless kind faultless
      rw [alignmentBoundary?_eq_none (by simp [kind])]
      simp only [List.length_replicate]
      omega
  | int8 | int16 | int32 | int64 =>
      rw [alignmentBoundary?_eq_none (by simp [kind])]
      simp [dataDirectiveSize, kind, elementSize?]
  | _ => simp [kind, isDataDirective] at isData

/-! ## What pass 2 appends -/

theorem bufferHasCapacity_iff {written amount capacity : Nat} :
    bufferHasCapacity written amount capacity = true ↔ written + amount ≤ capacity := by
  simp only [bufferHasCapacity, Bool.and_eq_true, decide_eq_true_eq]
  omega

theorem bufferAppend_eq_some {buffer data appended : List UInt8} {capacity : Nat} :
    bufferAppend buffer capacity data = some appended ↔
      buffer.length + data.length ≤ capacity ∧ appended = buffer ++ data := by
  rw [bufferAppend, Option.ite_none_right_eq_some, bufferHasCapacity_iff, Option.some.injEq,
    @eq_comm _ (buffer ++ data)]

theorem bufferAppend_of_fits {buffer data : List UInt8} {capacity : Nat}
    (fits : buffer.length + data.length ≤ capacity) :
    bufferAppend buffer capacity data = some (buffer ++ data) :=
  bufferAppend_eq_some.mpr ⟨fits, rfl⟩

theorem emitStrings_value {capacity : Nat} (ops : List Operand) {buffer : List UInt8}
    (emitted : (emitStrings capacity ops buffer).2 = true) :
    (emitStrings capacity ops buffer).1 = buffer ++ ops.flatMap stringBytes := by
  induction ops generalizing buffer with
  | nil => simp [emitStrings]
  | cons op ops inductionHypothesis =>
      rw [emitStrings] at emitted ⊢
      split at emitted
      · next data kind =>
          split at emitted
          · next fits =>
              rw [if_pos fits, inductionHypothesis emitted, List.flatMap_cons]
              simp [stringBytes, kind]
          · contradiction
      · next other =>
          rw [List.flatMap_cons, stringBytes_of_other other, List.nil_append]
          exact inductionHypothesis emitted

theorem emitStrings_of_fits {capacity : Nat} (ops : List Operand) {buffer : List UInt8}
    (fits : buffer.length + (ops.flatMap stringBytes).length ≤ capacity) :
    (emitStrings capacity ops buffer).2 = true := by
  induction ops generalizing buffer with
  | nil => rfl
  | cons op ops inductionHypothesis =>
      rw [List.flatMap_cons, List.length_append] at fits
      rw [emitStrings]
      split
      · next data kind =>
          have bytes : stringBytes op = data ++ [0] := by simp [stringBytes, kind]
          rw [bytes, List.length_append, List.length_singleton] at fits
          rw [if_pos]
          · refine inductionHypothesis ?_
            simp only [List.length_append, List.length_singleton]
            omega
          · rw [Bool.and_eq_true, bufferHasCapacity_iff, bufferHasCapacity_iff]
            omega
      · next other =>
          rw [stringBytes_of_other other, List.length_nil] at fits
          exact inductionHypothesis (by omega)

theorem emitIntegers_value {elemSize capacity : Nat} (ops : List Operand) {buffer : List UInt8}
    (emitted : (emitIntegers elemSize capacity ops buffer).2 = true) :
    (emitIntegers elemSize capacity ops buffer).1 =
      buffer ++ ops.flatMap fun op => LittleEndian.bytes elemSize (dataValue op).toNat := by
  induction ops generalizing buffer with
  | nil => simp [emitIntegers]
  | cons op ops inductionHypothesis =>
      rw [emitIntegers] at emitted ⊢
      split at emitted
      · next appended append =>
          obtain ⟨-, rfl⟩ := bufferAppend_eq_some.mp append
          rw [inductionHypothesis emitted, List.flatMap_cons, List.append_assoc]
      · contradiction

theorem emitIntegers_of_fits {elemSize capacity : Nat} (ops : List Operand) {buffer : List UInt8}
    (fits : buffer.length + ops.length * elemSize ≤ capacity) :
    (emitIntegers elemSize capacity ops buffer).2 = true := by
  induction ops generalizing buffer with
  | nil => rfl
  | cons op ops inductionHypothesis =>
      rw [List.length_cons, Nat.succ_mul] at fits
      rw [emitIntegers, bufferAppend_of_fits (by rw [LittleEndian.length_bytes]; omega)]
      exact inductionHypothesis (by rw [List.length_append, LittleEndian.length_bytes]; omega)

theorem emitZeros_value {amount capacity : Nat} {buffer : List UInt8}
    (emitted : (emitZeros amount capacity buffer).2 = true) :
    (emitZeros amount capacity buffer).1 = buffer ++ List.replicate amount 0 := by
  unfold emitZeros at emitted ⊢
  split at emitted
  · next filled fill => exact (bufferAppend_eq_some.mp fill).2
  · contradiction

theorem emitZeros_of_fits {amount capacity : Nat} {buffer : List UInt8}
    (fits : buffer.length + amount ≤ capacity) : (emitZeros amount capacity buffer).2 = true := by
  rw [emitZeros, bufferFill, bufferAppend_of_fits (by rw [List.length_replicate]; exact fits)]

/-- What pass 2 appends for a directive is its abstract value. -/
theorem emitDataDirective_value {instr : Instruction} {capacity : Nat} {buffer : List UInt8}
    (emitted : (emitDataDirective instr capacity buffer).2 = true) :
    (emitDataDirective instr capacity buffer).1 =
      buffer ++ dataDirectiveBytes instr buffer.length := by
  unfold emitDataDirective at emitted ⊢
  unfold dataDirectiveBytes
  cases kind : instr.directiveKind with
  | nulString =>
      rw [kind] at emitted
      exact emitStrings_value instr.ops emitted
  | int8 | int16 | int32 | int64 =>
      rw [kind] at emitted
      exact emitIntegers_value instr.ops emitted
  | alignment =>
      cases boundary : alignmentBoundary? instr with
      | none => simp
      | some alignment =>
          simp only [kind, boundary] at emitted
          exact emitZeros_value emitted
  | zeroSpace =>
      simp only [kind] at emitted ⊢
      split at emitted
      · next positive =>
          rw [if_pos positive]
          exact emitZeros_value emitted
      · next empty =>
          rw [if_neg empty, Int.toNat_of_nonpos (by omega), List.replicate_zero, List.append_nil]
  | _ => simp [elementSize?]

/-- Pass 2 has something to append where the buffer has room for it. -/
theorem emitDataDirective_of_fits {instr : Instruction} {capacity : Nat} {buffer : List UInt8}
    (fits : buffer.length + (dataDirectiveBytes instr buffer.length).length ≤ capacity) :
    emitDataDirective instr capacity buffer =
      (buffer ++ dataDirectiveBytes instr buffer.length, true) := by
  have emitted : (emitDataDirective instr capacity buffer).2 = true := by
    unfold emitDataDirective
    unfold dataDirectiveBytes at fits
    cases kind : instr.directiveKind with
    | nulString =>
        rw [kind] at fits
        exact emitStrings_of_fits instr.ops fits
    | int8 | int16 | int32 | int64 =>
        simp only [kind, elementSize?, length_flatMap_integers] at fits
        exact emitIntegers_of_fits instr.ops fits
    | alignment =>
        cases boundary : alignmentBoundary? instr with
        | none => rfl
        | some alignment =>
            simp only [kind, boundary, List.length_replicate] at fits
            exact emitZeros_of_fits fits
    | zeroSpace =>
        simp only [kind, List.length_replicate] at fits ⊢
        split
        · exact emitZeros_of_fits fits
        · rfl
    | _ => rfl
  exact Prod.ext (emitDataDirective_value emitted) emitted

end Nazm.Passes
