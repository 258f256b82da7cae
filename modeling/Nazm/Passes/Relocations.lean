import Nazm.Passes.References

/-!
The relocations of an accepted program.

Owns the field of each reference in the bytes of its statement, the
correspondence of references and relocations, and that no two relocated fields
overlap.

Does not own what a linker writes into the fields.
-/

namespace Nazm.Passes

open FieldEdits LittleEndian
open Nazm.Encoder Nazm.Parser Nazm.Lexer Nazm.Symtable Nazm.Diagnostics

/-! ## Statements of accepted programs -/

/-- What both passes have checked of a statement. -/
structure StatementStands (symtable : SymbolTable) (layout : Layout) (instr : Instruction) :
    Prop where
  accepted : StatementAccepted layout.section_ instr
  checked : StatementChecked symtable layout instr
  arity : ArityChecked instr
  exclusive : instr.opcode = .invalid ∨ instr.directiveKind = .none

theorem Accepted.stands {src : SourceBuffer} (accepted : Accepted src)
    {before after : List Instruction} {instr : Instruction}
    (split : (sourceInstructions src).data = before ++ instr :: after) :
    StatementStands (sourcePass1 src).symtable (Layout.after before) instr where
  accepted := statementAccepted accepted.sized split
  checked := accepted.checked split
  arity := parse_arity _ accepted.parsed instr (by
    have member : instr ∈ (sourceInstructions src).data := by rw [split]; simp
    exact member)
  exclusive := (parse_wellFormed src instr (by
    have member : instr ∈ (sourceInstructions src).data := by rw [split]; simp
    exact member)).exclusive

/-- A symbolic instruction stands in `.text`. -/
def SymbolicInText (symtable : SymbolTable) (layout : Layout) (instr : Instruction) : Prop :=
  instr.opcode ≠ .invalid → (∃ op ∈ instr.ops, (operandForm? symtable instr op).isSome = true) →
    layout.section_ = .text

/-- The field of a reference lies in its statement, and holds zero. -/
structure FieldPlaced (symtable : SymbolTable) (layout : Layout) (instr : Instruction)
    (reference : Reference) : Prop where
  span : statementSpan layout instr =
    ⟨layout.section_, layout.offset, layout.statementSize instr⟩
  hasBytes : layout.section_ ≠ .bss
  within : reference.fieldStart instr + reference.form.kind.width ≤ layout.statementSize instr
  zero : slice (statementBytes symtable layout instr) (reference.fieldStart instr)
    reference.form.kind.width = intBytes reference.form.kind.width 0
  known : symbolKnown symtable reference.symbol = true

section Statements

variable {symtable : SymbolTable} {layout : Layout} {instr : Instruction} {statement : Nat}
  {reference : Reference}

theorem isSome_of_reference (member : reference ∈ statementReferences symtable statement instr) :
    ∃ op ∈ instr.ops, (operandForm? symtable instr op).isSome = true := by
  obtain ⟨-, op, isOp, isForm⟩ := mem_statementReferences.mp member
  exact ⟨op, List.mem_of_getElem? isOp, by rw [isForm]; rfl⟩

/-- Without a named opcode only `.عدد٦٤` refers to symbols. -/
theorem operandForm?_of_invalid (invalid : instr.opcode = .invalid) {op : Operand}
    {form : ReferenceForm} {symbol : List UInt8}
    (isForm : operandForm? symtable instr op = some (form, symbol)) :
    instr.directiveKind = .int64 ∧ form = .dataWord ∧ op.kind = .label symbol := by
  unfold operandForm? at isForm
  cases kind : op.kind with
  | label label =>
      by_cases data : instr.directiveKind = .int64
      · simp only [kind, if_pos data, Option.some.injEq, Prod.mk.injEq] at isForm
        exact ⟨data, isForm.1.symm, by rw [isForm.2]⟩
      · have notMoves : movesSymbol instr = false := by
          unfold movesSymbol
          split <;> simp [invalid]
        simp [kind, data, invalid, opcodeUsesRelativeLabel, notMoves] at isForm
  | memRipLabel label => simp [kind, invalid] at isForm
  | _ => simp [kind] at isForm

theorem StatementStands.data (stands : StatementStands symtable layout instr)
    (data : instr.directiveKind = .int64) : layout.Stores instr ∧ instr.opcode = .invalid := by
  have isData : isDataDirective instr.directiveKind = true := by rw [data]; rfl
  have notText := stands.accepted.notText isData
  have notBss : layout.section_ ≠ .bss := by
    intro bss
    rcases stands.accepted.bssOnly isData bss with other | other <;>
      · rw [data] at other
        contradiction
  refine ⟨⟨isData, ?_⟩, stands.exclusive.resolve_right (by simp [data])⟩
  cases section_ : layout.section_ <;> simp [section_] at notText notBss ⊢

/-- A statement with a reference is an instruction in `.text` or `.عدد٦٤`. -/
theorem StatementStands.cases (stands : StatementStands symtable layout instr)
    (inText : SymbolicInText symtable layout instr)
    (symbolic : ∃ op ∈ instr.ops, (operandForm? symtable instr op).isSome = true) :
    layout.Emits instr ∨ (layout.Stores instr ∧ instr.directiveKind = .int64) := by
  by_cases named : instr.opcode = .invalid
  · obtain ⟨op, -, isSome⟩ := symbolic
    obtain ⟨⟨form, symbol⟩, isForm⟩ := Option.isSome_iff_exists.mp isSome
    have data := (operandForm?_of_invalid named isForm).1
    exact .inr ⟨(stands.data data).1, data⟩
  · exact .inl ⟨stands.exclusive.resolve_left named, named, inText named symbolic⟩

/-! ## Data words -/

theorem dataDirectiveBytes_of_int64 (data : instr.directiveKind = .int64) (offset : Nat) :
    dataDirectiveBytes instr offset =
      instr.ops.flatMap fun op => LittleEndian.bytes 8 (dataValue op).toNat := by
  rw [dataDirectiveBytes, data]
  rfl

theorem data_relocations (stores : layout.Stores instr) (data : instr.directiveKind = .int64)
    (invalid : instr.opcode = .invalid) :
    dataRelocations layout.section_ layout.offset 0 instr.ops =
      (statementReferences symtable statement instr).map (Reference.relocation layout instr) := by
  have section_ : relocationSection layout.section_ = pass2RelocationSection layout.section_ := by
    rcases stores.2 with isData | readOnly
    · rw [isData]
      rfl
    · rw [readOnly]
      rfl
  rw [dataRelocations_eq]
  refine map_statementReferences fun op operand _ => ?_
  cases kind : op.kind <;>
    simp [operandForm?, kind, data, invalid, Reference.relocation, Reference.fieldStart,
      ReferenceForm.kind, RelocationKind.addend, section_]

theorem data_field (stands : StatementStands symtable layout instr)
    (data : instr.directiveKind = .int64)
    (member : reference ∈ statementReferences symtable statement instr) :
    FieldPlaced symtable layout instr reference := by
  obtain ⟨stores, invalid⟩ := stands.data data
  obtain ⟨-, op, isOp, isForm⟩ := mem_statementReferences.mp member
  obtain ⟨-, isWord, kind⟩ := operandForm?_of_invalid invalid isForm
  obtain ⟨statementIndex, operand, form, symbol⟩ := reference
  obtain rfl : form = .dataWord := isWord
  have length := stands.checked.stored stores
  rw [dataDirectiveBytes_of_int64 data, length_flatMap_integers] at length
  have inside : operand < instr.ops.length := (List.getElem?_eq_some_iff.mp isOp).1
  have hasBytes : layout.section_ ≠ .bss := by
    rcases stores.2 with isData | readOnly
    · simp [isData]
    · simp [readOnly]
  refine ⟨stores.statementSpan_eq, hasBytes, ?_, ?_,
    stands.checked.known stores data op (List.mem_of_getElem? isOp) symbol kind⟩
  · simp only [Reference.fieldStart, ReferenceForm.kind, RelocationKind.width]
    omega
  · have field := @slice_flatMap _ _ (fun op => LittleEndian.bytes 8 (dataValue op).toNat) 8
      (fun _ => length_bytes _ _) instr.ops operand op isOp
    rw [stores.statementBytes_eq, dataDirectiveBytes_of_int64 data]
    simp only [Reference.fieldStart, ReferenceForm.kind, RelocationKind.width]
    rw [field]
    simp [dataValue, kind]
    decide

/-! ## One statement -/

/-- A statement has the relocations of its references. -/
theorem statement_relocations (stands : StatementStands symtable layout instr)
    (inText : SymbolicInText symtable layout instr) :
    statementRelocations symtable layout instr =
      (statementReferences symtable statement instr).map (Reference.relocation layout instr) := by
  by_cases symbolic : ∃ op ∈ instr.ops, (operandForm? symtable instr op).isSome = true
  · rcases stands.cases inText symbolic with emits | ⟨stores, data⟩
    · obtain ⟨bytes, encoded⟩ := stands.checked.encoded emits
      rw [statementRelocations, if_pos emits]
      exact instruction_relocations emits stands.arity encoded (stands.checked.resolved emits)
    · rw [statementRelocations, if_neg stores.not_emits, if_pos ⟨stores, data⟩]
      exact data_relocations stores data (stands.data data).2
  · have none : statementReferences symtable statement instr = [] := by
      refine List.eq_nil_iff_forall_not_mem.mpr fun reference member => ?_
      exact symbolic (isSome_of_reference member)
    by_cases emits : layout.Emits instr
    · obtain ⟨bytes, encoded⟩ := stands.checked.encoded emits
      rw [statementRelocations, if_pos emits]
      exact instruction_relocations emits stands.arity encoded (stands.checked.resolved emits)
    · rw [statementRelocations, if_neg emits]
      split
      · next data => exact data_relocations data.1 data.2 (stands.data data.2).2
      · rw [none]
        rfl

theorem statement_field (stands : StatementStands symtable layout instr)
    (inText : SymbolicInText symtable layout instr)
    (member : reference ∈ statementReferences symtable statement instr) :
    FieldPlaced symtable layout instr reference := by
  rcases stands.cases inText (isSome_of_reference member) with emits | ⟨-, data⟩
  · obtain ⟨bytes, encoded⟩ := stands.checked.encoded emits
    obtain ⟨front, field, length⟩ := instruction_field emits stands.arity encoded member
    have size := instructionSize_of_encoded encoded
    have offset : layout.offset = layout.sizes.text := by
      rw [Layout.offset, emits.2.2]
      rfl
    have statementSize : layout.statementSize instr = instructionSize instr := by
      simp [Layout.statementSize, emits.1, emits.2.1, emits.2.2]
    have shape := field.bytes
    rw [shape, List.length_append, length_intBytes] at size
    refine ⟨?_, by simp [emits.2.2], ?_, ?_, ?_⟩
    · rw [emits.statementSpan_eq, emits.2.2, offset, statementSize]
    · rw [← length, size, statementSize]
    · have last := @slice_append_right _ front (intBytes reference.form.kind.width 0) 0
        reference.form.kind.width
      rw [emits.statementBytes_eq, encoded, Option.getD_some, shape, ← length,
        ← Nat.add_zero front.length, last, slice, List.drop_zero,
        List.take_of_length_le (Nat.le_of_eq (length_intBytes _ _))]
    · obtain ⟨-, op, isOp, isForm⟩ := mem_statementReferences.mp member
      refine (stands.checked.resolved emits op (List.mem_of_getElem? isOp)).known _ ?_
      unfold operandForm? at isForm
      unfold symbolName?
      cases kind : op.kind with
      | label label =>
          simp only [kind] at isForm
          repeat' split at isForm
          all_goals simp_all
      | memRipLabel label =>
          simp only [kind] at isForm
          split at isForm
          all_goals simp_all
      | _ => simp [kind] at isForm
  · exact data_field stands data member

/-- An emitted instruction refers to at most one symbol. -/
theorem instruction_references_length (emits : layout.Emits instr) (checked : ArityChecked instr)
    {bytes : List UInt8}
    (encoded : instructionBytes symtable instr layout.sizes.text = some bytes) :
    (statementReferences symtable statement instr).length ≤ 1 := by
  have nullary := nullary_of_arityChecked checked emits.2.1
  cases rip : instr.ops.any isRipRelativeSymbolOperand with
  | true =>
      obtain ⟨-, -, label, first, second, ops, pair⟩ := encoderEncode_ripField nullary encoded rip
      rcases pair with ⟨r, firstKind, secondKind⟩ | ⟨r, firstKind, secondKind⟩ <;>
        simp [statementReferences, operandForm?, ops, firstKind, secondKind, emits.2.1]
  | false =>
      by_cases relative : opcodeUsesRelativeLabel instr.opcode = true
      · obtain ⟨op, ops⟩ := singleton_of_relative checked relative
        rw [statementReferences, ops]
        exact Nat.le_trans (List.length_filterMap_le _ _) (Nat.le_refl _)
      · cases moves : movesSymbol instr with
        | true =>
            unfold movesSymbol at moves
            split at moves
            · next ops =>
                simp only [statementReferences, operandForm?, ops, List.zipIdx_cons,
                  List.zipIdx_nil, List.filterMap_cons, List.filterMap_nil, Option.map_none]
                split <;> simp
            · contradiction
        | false =>
            have none : statementReferences symtable statement instr = [] := by
              refine List.eq_nil_iff_forall_not_mem.mpr fun reference member => ?_
              obtain ⟨-, op, isOp, isForm⟩ := mem_statementReferences.mp member
              unfold operandForm? at isForm
              cases kind : op.kind with
              | label label => simp [kind, emits.1, relative, moves] at isForm
              | memRipLabel label =>
                  have found : instr.ops.any isRipRelativeSymbolOperand = true :=
                    List.any_eq_true.mpr ⟨op, List.mem_of_getElem? isOp, by
                      simp [isRipRelativeSymbolOperand, kind]⟩
                  rw [rip] at found
                  contradiction
              | _ => simp [kind] at isForm
            simp [none]

/-- The fields of two references of one statement do not overlap. -/
theorem statement_fields_apart (stands : StatementStands symtable layout instr)
    (inText : SymbolicInText symtable layout instr) :
    (statementReferences symtable statement instr).Pairwise fun first second =>
      first.fieldStart instr + first.form.kind.width ≤ second.fieldStart instr := by
  by_cases symbolic : ∃ op ∈ instr.ops, (operandForm? symtable instr op).isSome = true
  · rcases stands.cases inText symbolic with emits | ⟨-, data⟩
    · obtain ⟨bytes, encoded⟩ := stands.checked.encoded emits
      have single := @instruction_references_length _ _ _ statement emits stands.arity _ encoded
      match statementReferences symtable statement instr, single with
      | [], _ => exact List.Pairwise.nil
      | [reference], _ => exact List.pairwise_singleton _ _
    · have sorted : (instr.ops.zipIdx.map Prod.snd).Pairwise (· < ·) := by
        rw [List.zipIdx_map_snd]
        exact List.pairwise_lt_range' 1
      rw [statementReferences, List.pairwise_filterMap]
      refine (List.pairwise_map.mp sorted).imp fun {first second} less => ?_
      intro firstReference isFirst secondReference isSecond
      obtain ⟨⟨firstForm, firstSymbol⟩, firstIs, rfl⟩ := Option.map_eq_some_iff.mp isFirst
      obtain ⟨⟨secondForm, secondSymbol⟩, secondIs, rfl⟩ := Option.map_eq_some_iff.mp isSecond
      have invalid := (stands.data data).2
      obtain ⟨-, rfl, -⟩ := operandForm?_of_invalid invalid firstIs
      obtain ⟨-, rfl, -⟩ := operandForm?_of_invalid invalid secondIs
      simp only [Reference.fieldStart, ReferenceForm.kind, RelocationKind.width]
      omega
  · have none : statementReferences symtable statement instr = [] := by
      refine List.eq_nil_iff_forall_not_mem.mpr fun reference member => ?_
      exact symbolic (isSome_of_reference member)
    rw [none]
    exact List.Pairwise.nil

end Statements

end Nazm.Passes
