import Mathlib.Data.List.Forall2
import Nazm.Passes.Emitted

/-!
Symbolic references, and the relocations that stand for them.

Owns the references of a source that pass 2 leaves to the linker, the field of
each reference in its statement, and that pass 2 writes one relocation for each
reference of an instruction in `.text` or of a data directive, in their order.

Does not own what a linker writes into the fields.
-/

namespace Nazm.Passes

open LittleEndian
open Nazm.Encoder Nazm.Parser Nazm.Lexer Nazm.Symtable Nazm.Diagnostics

/-! ## References -/

/-- How a statement refers to a symbol whose address the linker knows. -/
inductive ReferenceForm where
  | branch | moveImmediate | ripRelative | dataWord
deriving DecidableEq, Repr

structure Reference where
  statement : Nat
  operand : Nat
  form : ReferenceForm
  symbol : List UInt8
deriving DecidableEq

/-- MOV of a symbol into a 64-bit register. -/
def movesSymbol (instr : Instruction) : Bool :=
  match instr.ops with
  | [⟨.reg r, _, _, _⟩, ⟨.label _, _, _, _⟩] =>
      decide (instr.opcode = .mov) && decide (regWidthBits r = 64)
  | _ => false

/-- How an operand refers to a symbol, where it does: branches only to external
symbols, and the other forms to any symbol. -/
def operandForm? (symtable : SymbolTable) (instr : Instruction) (op : Operand) :
    Option (ReferenceForm × List UInt8) :=
  match op.kind with
  | .memRipLabel symbol => if instr.opcode = .invalid then none else some (.ripRelative, symbol)
  | .label symbol =>
      if instr.directiveKind = .int64 then some (.dataWord, symbol)
      else if opcodeUsesRelativeLabel instr.opcode then
        if symtableIsExternal symtable symbol then some (.branch, symbol) else none
      else if movesSymbol instr then some (.moveImmediate, symbol)
      else none
  | _ => none

/-- The references of the statement at an index. -/
def statementReferences (symtable : SymbolTable) (statement : Nat) (instr : Instruction) :
    List Reference :=
  instr.ops.zipIdx.filterMap fun (op, operand) =>
    (operandForm? symtable instr op).map fun (form, symbol) => ⟨statement, operand, form, symbol⟩

/-- The references of a program, in its order. -/
def programReferences (symtable : SymbolTable) (statements : List Instruction) : List Reference :=
  statements.zipIdx.flatMap fun (instr, statement) => statementReferences symtable statement instr

def sourceReferences (src : SourceBuffer) : List Reference :=
  programReferences (sourcePass1 src).symtable (sourceInstructions src).data

theorem programReferences_snoc (symtable : SymbolTable) (before : List Instruction)
    (instr : Instruction) :
    programReferences symtable (before ++ [instr]) =
      programReferences symtable before ++ statementReferences symtable before.length instr := by
  simp [programReferences, List.zipIdx_append, List.flatMap_append]

theorem mem_statementReferences {symtable : SymbolTable} {statement : Nat} {instr : Instruction}
    {reference : Reference} :
    reference ∈ statementReferences symtable statement instr ↔
      reference.statement = statement ∧ ∃ op, instr.ops[reference.operand]? = some op ∧
        operandForm? symtable instr op = some (reference.form, reference.symbol) := by
  simp only [statementReferences, List.mem_filterMap, Prod.exists, List.mem_zipIdx_iff_getElem?,
    Option.map_eq_some_iff]
  constructor
  · rintro ⟨op, operand, isOp, form, symbol, isForm, rfl⟩
    exact ⟨rfl, op, isOp, isForm⟩
  · rintro ⟨rfl, op, isOp, isForm⟩
    exact ⟨op, reference.operand, isOp, reference.form, reference.symbol, isForm, rfl⟩

/-! ## Fields -/

/-- The bytes a relocation fills. -/
def RelocationKind.width : RelocationKind → Nat
  | .abs64 => 8
  | .pc32 => 4

/-- PC32 counts from the end of its field. -/
def RelocationKind.addend : RelocationKind → Int
  | .abs64 => 0
  | .pc32 => -4

def ReferenceForm.kind : ReferenceForm → RelocationKind
  | .branch | .ripRelative => .pc32
  | .moveImmediate | .dataWord => .abs64

/-- Where the field of a reference starts in its statement. -/
def Reference.fieldStart (reference : Reference) (instr : Instruction) : Nat :=
  match reference.form with
  | .branch => relativeLabelRelocationOffset instr.opcode
  | .moveImmediate => movRegLabelRelocationOffset
  | .ripRelative => instructionSize instr - 4
  | .dataWord => reference.operand * 8

def relocationSection : SymbolSection → RelocationSection
  | .text => .text
  | section_ => pass2RelocationSection section_

/-- The relocation of a reference of a statement at a layout. -/
def Reference.relocation (layout : Layout) (instr : Instruction) (reference : Reference) :
    Relocation :=
  ⟨relocationSection layout.section_, reference.form.kind,
    layout.offset + reference.fieldStart instr, reference.symbol, reference.form.kind.addend⟩

/-- What the CPU reads in a field that a number was written into. -/
def ReferenceForm.decoded (form : ReferenceForm) (number : Int) : Int :=
  match form.kind with
  | .pc32 => signed 32 (value (intBytes 4 number))
  | .abs64 => number

/-- Bytes of an instruction that end in the zero field of a reference, and read
with any number in that field as the statement with that number. -/
structure SymbolField (instr : Instruction) (form : ReferenceForm) (front bytes : List UInt8) :
    Prop where
  bytes : bytes = front ++ intBytes form.kind.width 0
  reads : ∀ number, ReadsAs (front ++ intBytes form.kind.width number) instr.opcode instr.ops
    (form.decoded number) (form.decoded number)

/-! ## Relocations as lists over the operands -/

theorem labelRelocations_eq (symtable : SymbolTable) (instr : Instruction)
    (textSize operandIndex : Nat) (ops : List Operand) :
    labelRelocations symtable instr textSize operandIndex ops =
      (ops.zipIdx operandIndex).filterMap fun (op, operand) =>
        labelRelocation? symtable instr textSize operand op := by
  induction ops generalizing operandIndex with
  | nil => rfl
  | cons op ops inductionHypothesis =>
      rw [labelRelocations, inductionHypothesis, List.zipIdx_cons, List.filterMap_cons]
      cases found : labelRelocation? symtable instr textSize operandIndex op <;> simp [found]

theorem dataRelocations_eq (section_ : SymbolSection) (offset operandIndex : Nat)
    (ops : List Operand) :
    dataRelocations section_ offset operandIndex ops =
      (ops.zipIdx operandIndex).filterMap fun (op, operand) =>
        match op.kind with
        | .label label =>
            some ⟨pass2RelocationSection section_, .abs64, offset + operand * 8, label, 0⟩
        | _ => none := by
  induction ops generalizing operandIndex with
  | nil => rfl
  | cons op ops inductionHypothesis =>
      rw [dataRelocations, List.zipIdx_cons]
      cases kind : op.kind <;> simp [kind, inductionHypothesis]

theorem ripRelocations_of_free {textSize len : Nat} {ops : List Operand} (free : RipFree ops) :
    ripRelocations textSize len ops = [] := by
  induction ops with
  | nil => rfl
  | cons op ops inductionHypothesis =>
      rw [RipFree, List.any_cons, Bool.or_eq_false_iff] at free
      rw [ripRelocations]
      split
      · next kind => simp [isRipRelativeSymbolOperand, kind] at free
      · exact inductionHypothesis free.2

/-- References whose relocations are found operand by operand. -/
theorem map_statementReferences {symtable : SymbolTable} {statement : Nat} {layout : Layout}
    {instr : Instruction} {relocation? : Operand × Nat → Option Relocation}
    (each : ∀ op operand, instr.ops[operand]? = some op →
      relocation? (op, operand) = (operandForm? symtable instr op).map fun (form, symbol) =>
        Reference.relocation layout instr ⟨statement, operand, form, symbol⟩) :
    instr.ops.zipIdx.filterMap relocation? =
      (statementReferences symtable statement instr).map (Reference.relocation layout instr) := by
  rw [statementReferences, List.map_filterMap]
  refine List.filterMap_congr fun (op, operand) member => ?_
  dsimp only
  rw [each op operand (List.mem_zipIdx_iff_getElem?.mp member), Option.map_map]
  rfl

/-! ## Instructions -/

section Instructions

variable {symtable : SymbolTable} {layout : Layout} {instr : Instruction} {statement : Nat}
  {bytes : List UInt8}

theorem symtableIsExternal_iff {label : List UInt8} (known : symbolKnown symtable label = true) :
    symtableIsExternal symtable label = !(symtableLookupEx symtable label).isSome := by
  cases found : symtableLookupEx symtable label with
  | none => simpa [symbolKnown, found] using known
  | some target =>
      unfold symtableLookupEx at found
      unfold symtableIsExternal
      cases entry : findEntry symtable label with
      | none => simp [entry] at found
      | some e =>
          simp only [entry, Option.ite_none_right_eq_some] at found
          simp [found.1]

theorem movesSymbol_of_other
    (other : ∀ reg line col endCol label line' col' endCol',
      instr.ops = [⟨.reg reg, line, col, endCol⟩, ⟨.label label, line', col', endCol'⟩] → False) :
    movesSymbol instr = false := by
  unfold movesSymbol
  split
  · next ops => exact (other _ _ _ _ _ _ _ _ ops).elim
  · rfl

/-- The label operands of an instruction without a RIP-relative operand. -/
theorem labelRelocation?_eq (emits : layout.Emits instr)
    (known : ∀ op ∈ instr.ops, ∀ label, symbolName? op = some label →
      symbolKnown symtable label = true)
    (wide : ∀ first second dst label, instr.opcode = .mov → instr.ops = [first, second] →
      first.kind = .reg dst → second.kind = .label label → regWidthBits dst = 64)
    (free : RipFree instr.ops) {op : Operand} {operand : Nat}
    (isOp : instr.ops[operand]? = some op) :
    labelRelocation? symtable instr layout.sizes.text operand op =
      (operandForm? symtable instr op).map fun (form, symbol) =>
        Reference.relocation layout instr ⟨statement, operand, form, symbol⟩ := by
  have member : op ∈ instr.ops := List.mem_of_getElem? isOp
  have offset : layout.offset = layout.sizes.text := by
    rw [Layout.offset, emits.2.2]
    rfl
  have noData : instr.directiveKind ≠ .int64 := by simp [emits.1]
  unfold labelRelocation? operandForm?
  cases kind : op.kind with
  | label label =>
      have isKnown := known op member label (by simp [symbolName?, kind])
      simp only [if_neg noData]
      by_cases relative : opcodeUsesRelativeLabel instr.opcode = true
      · rw [if_pos relative, if_pos relative, symtableIsExternal_iff isKnown]
        cases found : symtableLookupEx symtable label with
        | none =>
            simp [Reference.relocation, branchRelocation, Reference.fieldStart, ReferenceForm.kind,
              RelocationKind.addend, offset, emits.2.2, relocationSection]
        | some target => rfl
      · rw [if_neg relative, if_neg relative]
        have same : isMovRegLabel instr operand = movesSymbol instr := by
          unfold isMovRegLabel
          split
          · next dst _ _ _ label' _ _ _ ops =>
              rw [ops] at isOp
              have second : operand = 1 := by
                cases operand with
                | zero =>
                    obtain rfl := Option.some.inj isOp
                    contradiction
                | succ operand =>
                    cases operand with
                    | zero => rfl
                    | succ operand => simp at isOp
              by_cases mov : instr.opcode = .mov
              · simp [movesSymbol, second, mov, ops, wide _ _ dst label' mov ops rfl rfl]
              · simp [movesSymbol, mov, ops]
          · next other => exact (movesSymbol_of_other other).symm
        rw [same]
        cases movesSymbol instr with
        | false => rfl
        | true =>
            simp [Reference.relocation, movRelocation, Reference.fieldStart, ReferenceForm.kind,
              RelocationKind.addend, offset, emits.2.2, relocationSection]
  | memRipLabel label =>
      have rip : instr.ops.any isRipRelativeSymbolOperand = true :=
        List.any_eq_true.mpr ⟨op, member, by simp [isRipRelativeSymbolOperand, kind]⟩
      rw [RipFree, rip] at free
      contradiction
  | _ => rfl

theorem wide_of_encoded {resolvedTarget : Int64}
    (encoded : encoderEncode instr.opcode instr.ops resolvedTarget = some bytes)
    {first second : Operand} {dst : RegId} {label : List UInt8} (mov : instr.opcode = .mov)
    (ops : instr.ops = [first, second]) (firstKind : first.kind = .reg dst)
    (secondKind : second.kind = .label label) : regWidthBits dst = 64 := by
  rw [mov, ops] at encoded
  simp only [encoderEncode] at encoded
  split at encoded
  · simp [sse2EncodeMove, firstKind, secondKind, validMemoryBase, operandMemory] at encoded
  · simp only [encMov, firstKind, secondKind] at encoded
    exact (encMovRegLabel_bytes encoded).1

/-- An emitted instruction has the relocations of its references. -/
theorem instruction_relocations (emits : layout.Emits instr) (checked : ArityChecked instr)
    (encoded : instructionBytes symtable instr layout.sizes.text = some bytes)
    (resolved : ∀ op ∈ instr.ops, OperandResolved symtable instr layout.sizes.text op) :
    labelRelocations symtable instr layout.sizes.text 0 instr.ops ++
        ripRelocations layout.sizes.text (instructionSize instr) instr.ops =
      (statementReferences symtable statement instr).map (Reference.relocation layout instr) := by
  have offset : layout.offset = layout.sizes.text := by
    rw [Layout.offset, emits.2.2]
    rfl
  have nullary := nullary_of_arityChecked checked emits.2.1
  cases rip : instr.ops.any isRipRelativeSymbolOperand with
  | false =>
      rw [ripRelocations_of_free rip, List.append_nil, labelRelocations_eq]
      refine map_statementReferences fun op operand isOp => ?_
      exact labelRelocation?_eq emits (fun op member => (resolved op member).known)
        (fun _ _ _ _ => wide_of_encoded encoded) rip isOp
  | true =>
      obtain ⟨-, field, label, first, second, ops, pair⟩ :=
        encoderEncode_ripField nullary encoded rip
      have size := instructionSize_of_encoded encoded
      have room := field.four_le
      have place : layout.sizes.text + instructionSize instr - 4 =
          layout.sizes.text + (instructionSize instr - 4) := by omega
      rcases pair with ⟨r, firstKind, secondKind⟩ | ⟨r, firstKind, secondKind⟩ <;>
        simp [ops, labelRelocations, labelRelocation?, ripRelocations, statementReferences,
          operandForm?, firstKind, secondKind, Reference.relocation, Reference.fieldStart,
          ReferenceForm.kind, RelocationKind.addend, emits.2.1, emits.2.2, offset,
          relocationSection, place]

/-- The field of a reference of an emitted instruction. -/
theorem instruction_field (emits : layout.Emits instr) (checked : ArityChecked instr)
    (encoded : instructionBytes symtable instr layout.sizes.text = some bytes)
    {reference : Reference}
    (member : reference ∈ statementReferences symtable statement instr) :
    ∃ front, SymbolField instr reference.form front bytes ∧
      front.length = reference.fieldStart instr := by
  obtain ⟨-, op, isOp, isForm⟩ := mem_statementReferences.mp member
  have noData : instr.directiveKind ≠ .int64 := by simp [emits.1]
  have nullary := nullary_of_arityChecked checked emits.2.1
  have size := instructionSize_of_encoded encoded
  obtain ⟨statementIndex, operand, form, symbol⟩ := reference
  unfold operandForm? at isForm
  cases kind : op.kind with
  | memRipLabel label =>
      simp only [kind, if_neg emits.2.1, Option.some.injEq, Prod.mk.injEq] at isForm
      obtain ⟨rfl, -⟩ := isForm
      have rip : instr.ops.any isRipRelativeSymbolOperand = true :=
        List.any_eq_true.mpr ⟨op, List.mem_of_getElem? isOp, by
          simp [isRipRelativeSymbolOperand, kind]⟩
      obtain ⟨-, ⟨front, rfl, reads⟩, -⟩ := encoderEncode_ripField nullary encoded rip
      refine ⟨front, ⟨rfl, fun number => reads _ (length_intBytes _ _) _⟩, ?_⟩
      rw [List.length_append, length_intBytes] at size
      simp only [Reference.fieldStart]
      omega
  | label label =>
      simp only [kind, if_neg noData] at isForm
      by_cases relative : opcodeUsesRelativeLabel instr.opcode = true
      · rw [if_pos relative, Option.ite_none_right_eq_some, Option.some.injEq,
          Prod.mk.injEq] at isForm
        obtain ⟨external, rfl, -⟩ := isForm
        obtain ⟨only, ops⟩ := singleton_of_relative checked relative
        obtain rfl : only = op := by
          rw [ops] at isOp
          exact List.mem_singleton.mp (List.mem_of_getElem? isOp) |>.symm
        have displacement : branchDisplacement symtable instr layout.sizes.text = 0 := by
          have absent : symtableLookupEx symtable label = none := by
            have inverse := @symtableIsExternal_iff symtable label (by simp [symbolKnown, external])
            rw [external] at inverse
            simpa using inverse.symm
          obtain ⟨opKind, line, col, endCol⟩ := only
          obtain rfl : opKind = .label label := kind
          simp [branchDisplacement, ops, absent]
        rw [instructionBytes, displacement, ops] at encoded
        obtain ⟨front, rfl, length, -, -, reads⟩ :=
          encoderEncode_branchField relative kind encoded
        refine ⟨front, ⟨rfl, fun number => ?_⟩, length⟩
        rw [ops]
        exact reads _ (length_intBytes _ _) _
      · rw [if_neg relative, Option.ite_none_right_eq_some, Option.some.injEq,
          Prod.mk.injEq] at isForm
        obtain ⟨moves, rfl, -⟩ := isForm
        unfold movesSymbol at moves
        split at moves
        · next dst _ _ _ label' _ _ _ ops =>
            rw [Bool.and_eq_true, decide_eq_true_eq] at moves
            rw [instructionBytes, moves.1, ops] at encoded
            obtain ⟨front, rfl, length, reads⟩ := encoderEncode_movField rfl rfl encoded
            refine ⟨front, ⟨rfl, fun number => ?_⟩, length⟩
            rw [moves.1, ops]
            exact reads _ _
        · contradiction
  | _ => simp [kind] at isForm

end Instructions

end Nazm.Passes
