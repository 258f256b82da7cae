import Nazm.Encoder.Meaning
import Nazm.X86.Placed

/-!
What an instruction statement asks for, once its symbols have addresses.

Owns the meaning of a statement that names addresses where the encoding has
displacements, and when a decoded instruction has that meaning.

Does not own which address a symbol has.
-/

namespace Nazm.Encoder

/-! ## Meaning with addresses -/

section Meaning

variable (opcode : OpcodeEnum) (addressOf : List UInt8 → Int)

/-- One operand. A symbol stands for its address: where a branch goes, the
number that MOV loads, or the memory that is accessed. -/
def placedOperandMeaning (width : Nat) : OperandKind → Option X86.PlacedOperand
  | .reg r => (registerMeaning r).map .register
  | .imm value => some (.immediate (value.toInt % 2 ^ width).toNat)
  | .memReg base => some (.memory (some (regIndex base).toNat) none 0)
  | .memDisp base disp => some (.memory (some (regIndex base).toNat) none disp.toInt)
  | .memRipLabel label => some (.memoryAt (addressOf label))
  | .label label =>
      if opcode = .mov then some (.immediate (addressOf label % 2 ^ 64).toNat)
      else some (.target (addressOf label))
  | .none | .string _ => none

/-- A shift count given as RCX stands for CL. -/
def placedCountMeaning (width : Nat) : OperandKind → Option X86.PlacedOperand
  | .reg r => if r = .cl ∨ r = .rcx then some (.register (.gpr 8 1)) else none
  | kind => placedOperandMeaning .shl addressOf width kind

def placedOperandsMeaning (ops : List Operand) : Option (List X86.PlacedOperand) :=
  let width := immediateWidth opcode ops
  match isShift opcode, ops with
  | true, [operand, count] => do
      let operand ← placedOperandMeaning opcode addressOf width operand.kind
      let count ← placedCountMeaning addressOf width count.kind
      return [operand, count]
  | _, ops => ops.mapM fun operand => placedOperandMeaning opcode addressOf width operand.kind

/-- The machine instruction a statement asks for, with addresses. -/
def placedMeaning (ops : List Operand) : Option X86.PlacedInstruction := do
  let operation ← operationMeaning opcode ops
  let operands ← placedOperandsMeaning opcode addressOf ops
  return ⟨operation, widthMeaning opcode ops, operands⟩

end Meaning

/-! ## Displacements that lead to addresses -/

/-- An operand without a symbol. -/
def OperandKind.SymbolFree : OperandKind → Prop
  | .label _ | .memRipLabel _ => False
  | _ => True

/-- From `next` on, the displacements of an operand lead to its symbol. -/
def OperandKind.Leads (opcode : OpcodeEnum) (addressOf : List UInt8 → Int)
    (next target symbol : Int) : OperandKind → Prop
  | .label name =>
      if opcode = .mov then symbol % 2 ^ 64 = addressOf name % 2 ^ 64
      else next + target = addressOf name
  | .memRipLabel name => next + symbol = addressOf name
  | _ => True

section Leads

variable {opcode : OpcodeEnum} {addressOf : List UInt8 → Int} {next target symbol : Int}
  {name : List UInt8}

theorem leads_of_branch (notMov : opcode ≠ .mov) (leads : next + target = addressOf name) :
    (OperandKind.label name).Leads opcode addressOf next target symbol := by
  simp only [OperandKind.Leads, if_neg notMov]
  exact leads

theorem leads_of_mov (mov : opcode = .mov)
    (loads : symbol % 2 ^ 64 = addressOf name % 2 ^ 64) :
    (OperandKind.label name).Leads opcode addressOf next target symbol := by
  simp only [OperandKind.Leads, if_pos mov]
  exact loads

theorem OperandKind.SymbolFree.leads {kind : OperandKind} (free : kind.SymbolFree) :
    kind.Leads opcode addressOf next target symbol := by
  cases kind with
  | label name | memRipLabel name => contradiction
  | _ => exact trivial

end Leads

section Placed

variable {opcode : OpcodeEnum} {addressOf : List UInt8 → Int} {next target symbol : Int}
  {width : Nat}

theorem placedOperandMeaning_eq {kind : OperandKind} {operand : X86.Operand}
    (leads : kind.Leads opcode addressOf next target symbol)
    (isMeaning : operandMeaning opcode width target symbol kind = some operand) :
    placedOperandMeaning opcode addressOf width kind = some (operand.place next) := by
  cases kind with
  | reg r =>
      obtain ⟨register, isRegister, rfl⟩ := Option.map_eq_some_iff.mp isMeaning
      rw [placedOperandMeaning, isRegister]
      rfl
  | imm value | memReg base | memDisp base disp =>
      obtain rfl := Option.some.inj isMeaning
      rfl
  | memRipLabel label =>
      obtain rfl := Option.some.inj isMeaning
      rw [placedOperandMeaning, X86.Operand.place, show next + symbol = addressOf label from leads]
  | label label =>
      rw [placedOperandMeaning]
      by_cases mov : opcode = .mov
      · simp only [operandMeaning, if_pos mov, Option.some.injEq] at isMeaning
        simp only [OperandKind.Leads, if_pos mov] at leads
        rw [if_pos mov, ← isMeaning, ← leads]
        rfl
      · simp only [operandMeaning, if_neg mov, Option.some.injEq] at isMeaning
        simp only [OperandKind.Leads, if_neg mov] at leads
        rw [if_neg mov, ← isMeaning, ← leads]
        rfl
  | none | string data => contradiction

theorem placedCountMeaning_eq {kind : OperandKind} {operand : X86.Operand}
    (free : kind.SymbolFree) (isMeaning : countMeaning width kind = some operand) :
    placedCountMeaning addressOf width kind = some (operand.place next) := by
  cases kind with
  | reg r =>
      simp only [countMeaning, Option.ite_none_right_eq_some, Option.some.injEq] at isMeaning
      obtain ⟨isCount, rfl⟩ := isMeaning
      rw [placedCountMeaning, if_pos isCount]
      rfl
  | _ => exact @placedOperandMeaning_eq .shl addressOf next 0 0 width _ _ free.leads isMeaning

/-- Operands whose displacements all lead to their symbols. -/
theorem placedOperands_eq {operands : List X86.Operand} :
    ∀ {ops : List Operand},
      (∀ op ∈ ops, op.kind.Leads opcode addressOf next target symbol) →
      ops.mapM (fun operand => operandMeaning opcode width target symbol operand.kind) =
        some operands →
      ops.mapM (fun operand => placedOperandMeaning opcode addressOf width operand.kind) =
        some (operands.map (X86.Operand.place next)) := by
  intro ops leads isMeaning
  induction ops generalizing operands with
  | nil =>
      obtain rfl := Option.some.inj isMeaning
      rfl
  | cons op ops inductionHypothesis =>
      rw [List.mapM_cons] at isMeaning
      obtain ⟨operand, isOperand, rest⟩ := Option.bind_eq_some_iff.mp isMeaning
      obtain ⟨others, areOthers, isAll⟩ := Option.bind_eq_some_iff.mp rest
      obtain rfl := Option.some.inj isAll
      have first := placedOperandMeaning_eq (leads op List.mem_cons_self) isOperand
      have later := inductionHypothesis
        (fun other member => leads other (List.mem_cons_of_mem _ member)) areOthers
      rw [List.mapM_cons, first, later]
      rfl

/-- Only a shift with two operands treats its second operand apart. -/
theorem operandsMeaning_of_plain {ops : List Operand}
    (plain : isShift opcode = true → ∀ operand count : Operand, ops ≠ [operand, count]) :
    operandsMeaning opcode ops target symbol = ops.mapM (fun operand =>
      operandMeaning opcode (immediateWidth opcode ops) target symbol operand.kind) := by
  unfold operandsMeaning
  dsimp only
  split
  · next operand count shift => exact absurd rfl (plain shift operand count)
  · rfl

theorem placedOperandsMeaning_of_plain {ops : List Operand}
    (plain : isShift opcode = true → ∀ operand count : Operand, ops ≠ [operand, count]) :
    placedOperandsMeaning opcode addressOf ops = ops.mapM (fun operand =>
      placedOperandMeaning opcode addressOf (immediateWidth opcode ops) operand.kind) := by
  unfold placedOperandsMeaning
  dsimp only
  split
  · next operand count shift => exact absurd rfl (plain shift operand count)
  · rfl

theorem placedOperandsMeaning_eq {ops : List Operand} {operands : List X86.Operand}
    (leads : ∀ op ∈ ops, op.kind.Leads opcode addressOf next target symbol)
    (counts : isShift opcode = true → ∀ op ∈ ops, op.kind.SymbolFree)
    (areOperands : operandsMeaning opcode ops target symbol = some operands) :
    placedOperandsMeaning opcode addressOf ops =
      some (operands.map (X86.Operand.place next)) := by
  by_cases pair : isShift opcode = true ∧ ∃ operand count, ops = [operand, count]
  · obtain ⟨shift, operand, count, rfl⟩ := pair
    have free := counts shift
    simp only [operandsMeaning, shift] at areOperands
    obtain ⟨first, isFirst, rest⟩ := Option.bind_eq_some_iff.mp areOperands
    obtain ⟨second, isSecond, isAll⟩ := Option.bind_eq_some_iff.mp rest
    obtain rfl := Option.some.inj isAll
    have placedFirst := placedOperandMeaning_eq (leads operand List.mem_cons_self) isFirst
    have placedSecond := @placedCountMeaning_eq addressOf next _ _ _
      (free count (List.mem_cons_of_mem _ List.mem_cons_self)) isSecond
    simp only [placedOperandsMeaning, shift, placedFirst, placedSecond]
    rfl
  · have plain : isShift opcode = true → ∀ operand count : Operand, ops ≠ [operand, count] := by
      intro shift operand count isPair
      exact pair ⟨shift, operand, count, isPair⟩
    rw [operandsMeaning_of_plain plain] at areOperands
    rw [placedOperandsMeaning_of_plain plain]
    exact placedOperands_eq leads areOperands

/-- A statement whose displacements lead to its symbols has the meaning with
addresses. -/
theorem placedMeaning_eq {ops : List Operand} {instruction : X86.Instruction}
    (leads : ∀ op ∈ ops, op.kind.Leads opcode addressOf next target symbol)
    (counts : isShift opcode = true → ∀ op ∈ ops, op.kind.SymbolFree)
    (isMeaning : meaning opcode ops target symbol = some instruction) :
    placedMeaning opcode addressOf ops = some (instruction.place next) := by
  obtain ⟨operation, isOperation, rest⟩ := Option.bind_eq_some_iff.mp isMeaning
  obtain ⟨operands, areOperands, isInstruction⟩ := Option.bind_eq_some_iff.mp rest
  obtain rfl := Option.some.inj isInstruction
  rw [placedMeaning, isOperation, placedOperandsMeaning_eq leads counts areOperands]
  rfl

end Placed

end Nazm.Encoder
