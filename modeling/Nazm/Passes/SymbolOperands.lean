import Nazm.Encoder.PlacedMeaning
import Nazm.Passes.References

/-!
Which operands of an encoded instruction are symbols.

Owns that an encoded instruction has a symbol only as the target of a branch,
as the number that MOV loads, or as a RIP-relative operand, and that it has one
symbol at most.

Does not own where the symbols are.
-/

namespace Nazm.Passes

open Nazm.Encoder Nazm.Parser

variable {opcode : OpcodeEnum} {ops : List Operand} {resolvedTarget : Int64} {bytes : List UInt8}

theorem symbolFree_of_notRip {op : Operand} (notRip : isRipRelativeSymbolOperand op = false)
    (notLabel : ∀ label, op.kind ≠ .label label) : op.kind.SymbolFree := by
  unfold isRipRelativeSymbolOperand at notRip
  cases kind : op.kind with
  | label label => exact absurd kind (notLabel label)
  | memRipLabel label => simp [kind] at notRip
  | _ => exact trivial

/-! ## Instructions without a branch target -/

/-- Only branches are encoded with their displacement. -/
theorem encoderEncode_target (plain : opcodeUsesRelativeLabel opcode = false)
    (other : Int64) : encoderEncode opcode ops resolvedTarget = encoderEncode opcode ops other := by
  cases opcode <;> first | rfl | contradiction

/-- Operands that mean the same for two targets of a branch have no such target. -/
theorem notLabel_of_targets {width : Nat} {operands : List X86.Operand} (notMov : opcode ≠ .mov)
    (first : ops.mapM (fun op => operandMeaning opcode width 0 0 op.kind) = some operands)
    (second : ops.mapM (fun op => operandMeaning opcode width 1 0 op.kind) = some operands) :
    ∀ op ∈ ops, ∀ label, op.kind ≠ .label label := by
  induction ops generalizing operands with
  | nil =>
      intro op member
      contradiction
  | cons head tail inductionHypothesis =>
      rw [List.mapM_cons] at first second
      obtain ⟨operand, isOperand, rest⟩ := Option.bind_eq_some_iff.mp first
      obtain ⟨others, areOthers, isAll⟩ := Option.bind_eq_some_iff.mp rest
      obtain ⟨operand', isOperand', rest'⟩ := Option.bind_eq_some_iff.mp second
      obtain ⟨others', areOthers', isAll'⟩ := Option.bind_eq_some_iff.mp rest'
      obtain ⟨sameHead, sameTail⟩ :=
        List.cons.inj (Option.some.inj (isAll.trans isAll'.symm))
      rw [← sameHead] at isOperand'
      rw [← sameTail] at areOthers'
      intro op member label isLabel
      rcases List.mem_cons.mp member with rfl | inTail
      · rw [isLabel] at isOperand isOperand'
        simp only [operandMeaning, if_neg notMov] at isOperand isOperand'
        have same := isOperand.trans isOperand'.symm
        simp at same
      · exact inductionHypothesis areOthers areOthers' op inTail label isLabel

theorem encShift_symbolFree {ext : Nat} (encoded : encShift ops ext = some bytes) :
    ∀ op ∈ ops, op.kind.SymbolFree := by
  unfold encShift at encoded
  grind [OperandKind.SymbolFree]

theorem symbolFree_of_shift (shift : isShift opcode = true)
    (encoded : encoderEncode opcode ops resolvedTarget = some bytes) :
    ∀ op ∈ ops, op.kind.SymbolFree := by
  cases opcode with
  | shl | shr | sar => exact encShift_symbolFree encoded
  | _ => contradiction

/-- Neither a branch nor MOV: a symbol is a RIP-relative operand. -/
theorem notLabel_of_plain (admitted : getArity opcode = (0, 0) → ops = [])
    (encoded : encoderEncode opcode ops resolvedTarget = some bytes) (notMov : opcode ≠ .mov)
    (plain : opcodeUsesRelativeLabel opcode = false) :
    ∀ op ∈ ops, ∀ label, op.kind ≠ .label label := by
  cases shift : isShift opcode with
  | true =>
      intro op member label isLabel
      have free := symbolFree_of_shift shift encoded op member
      rw [isLabel] at free
      exact free
  | false =>
      rw [encoderEncode_target plain 0] at encoded
      obtain ⟨instruction, isMeaning, reads⟩ := encoderEncode_readsAs admitted encoded
      rw [encoderEncode_target plain 1] at encoded
      obtain ⟨instruction', isMeaning', reads'⟩ := encoderEncode_readsAs admitted encoded
      -- the bytes do not tell the targets apart, so the operands do not either
      have same := Option.some.inj ((reads []).symm.trans (reads' []))
      obtain rfl := (Prod.mk.inj same).1
      obtain ⟨_, -, rest⟩ := Option.bind_eq_some_iff.mp isMeaning
      obtain ⟨operands, areOperands, isInstruction⟩ := Option.bind_eq_some_iff.mp rest
      obtain ⟨_, -, rest'⟩ := Option.bind_eq_some_iff.mp isMeaning'
      obtain ⟨operands', areOperands', isInstruction'⟩ := Option.bind_eq_some_iff.mp rest'
      have sameOperands := congrArg X86.Instruction.operands
        (Option.some.inj (isInstruction.trans isInstruction'.symm))
      obtain rfl : operands = operands' := sameOperands
      have noShift : isShift opcode = true → ∀ operand count : Operand, ops ≠ [operand, count] := by
        intro isShift
        rw [shift] at isShift
        contradiction
      rw [operandsMeaning_of_plain noShift] at areOperands areOperands'
      exact notLabel_of_targets notMov areOperands areOperands'

/-! ## MOV -/

theorem symbolFree_of_validMemoryBase {kind : OperandKind} {address : RegId × Int32}
    (valid : validMemoryBase kind = some address) : kind.SymbolFree := by
  cases kind with
  | label label | memRipLabel label => contradiction
  | _ => exact trivial

theorem sse2EncodeMove_symbolFree (encoded : sse2EncodeMove ops = some bytes) :
    ∀ op ∈ ops, op.kind.SymbolFree := by
  unfold sse2EncodeMove at encoded
  grind [OperandKind.SymbolFree, symbolFree_of_validMemoryBase]

/-- MOV of a symbol loads it into a register. -/
theorem encMov_label (encoded : encMov ops = some bytes) {op : Operand} (member : op ∈ ops)
    {label : List UInt8} (isLabel : op.kind = .label label) :
    ∃ first second r, ops = [first, second] ∧ first.kind = .reg r ∧
      second.kind = .label label := by
  unfold encMov at encoded
  grind [operandMem]

theorem mov_label (encoded : encoderEncode .mov ops resolvedTarget = some bytes) {op : Operand}
    (member : op ∈ ops) {label : List UInt8} (isLabel : op.kind = .label label) :
    ∃ first second r, ops = [first, second] ∧ first.kind = .reg r ∧
      second.kind = .label label := by
  simp only [encoderEncode] at encoded
  split at encoded
  · have free := sse2EncodeMove_symbolFree encoded op member
    rw [isLabel] at free
    exact free.elim
  · exact encMov_label encoded member isLabel

end Nazm.Passes
