import Nazm.Passes.Linking

/-!
When the relocations of a source are complete and correct.

Owns what every linked reference reads as, and that the relocations are correct
exactly when every symbolic instruction stands in `.text`.

Does not own object files.
-/

namespace Nazm.Passes

open FieldEdits LittleEndian
open Nazm.Encoder Nazm.Parser Nazm.Lexer Nazm.Symtable Nazm.Unicode Nazm.Diagnostics

section Links

variable {src : SourceBuffer} {before after : List Instruction} {instr : Instruction}
  {addresses : Addresses} {reference : Reference}

/-- Only `.عدد٦٤` has data words. -/
theorem int64_of_dataWord {symtable : SymbolTable} {statement : Nat}
    (member : reference ∈ statementReferences symtable statement instr)
    (word : reference.form = .dataWord) : instr.directiveKind = .int64 := by
  obtain ⟨-, op, -, isForm⟩ := mem_statementReferences.mp member
  rw [word] at isForm
  by_contra other
  unfold operandForm? at isForm
  cases kind : op.kind with
  | label label =>
      simp only [kind, if_neg other] at isForm
      repeat' split at isForm
      all_goals simp at isForm
  | memRipLabel label =>
      simp only [kind] at isForm
      split at isForm
      all_goals simp at isForm
  | _ => simp [kind] at isForm

/-- A PC32 field reads as the distance from its end to the symbol. -/
theorem displacement_spec (distance : Int) :
    signed 32 (value (intBytes 4 distance)) % 2 ^ 32 = distance % 2 ^ 32 ∧
      (-2 ^ 31 ≤ distance ∧ distance < 2 ^ 31 →
        signed 32 (value (intBytes 4 distance)) = distance) :=
  ⟨signed_intBytes_emod 4 distance,
    fun fits => @signed_intBytes 4 distance (by omega) (by omega)⟩

/-- What a linker writes into a PC32 field at the end of a statement: the distance
from there to the symbol. -/
theorem linked_distance {layout : Layout} (hasBytes : layout.section_ ≠ .bss)
    (relative : reference.form.kind = .pc32)
    (ends : reference.fieldStart instr + reference.form.kind.width = layout.statementSize instr) :
    (reference.relocation layout instr).linked (sourcePass1 src).symtable addresses =
      symbolAddress (sourcePass1 src).symtable addresses reference.symbol -
        (addresses.base layout.section_ + layout.offset + layout.statementSize instr) := by
  rw [relative] at ends
  simp only [Relocation.linked, Reference.relocation, relative, RelocationKind.addend,
    relocationSection_symbolSection hasBytes]
  simp only [RelocationKind.width] at ends
  omega

/-- A reference of an emitted instruction, after linking. -/
theorem instruction_linked (accepted : Accepted src)
    (split : (sourceInstructions src).data = before ++ instr :: after)
    (inText : SymbolicInText (sourcePass1 src).symtable (Layout.after before) instr)
    (member : reference ∈ statementReferences (sourcePass1 src).symtable before.length instr)
    (emits : (Layout.after before).Emits instr) :
    ReferenceLinked src addresses instr (statementSpan (Layout.after before) instr) reference := by
  have placed := statement_field (accepted.stands split) inText member
  obtain ⟨front, start, sized, reads, linked⟩ :=
    @linked_instruction src before after instr addresses accepted split inText reference member
      emits
  have notWord : reference.form ≠ .dataWord := by
    intro word
    have data := int64_of_dataWord member word
    rw [emits.1] at data
    contradiction
  rw [start] at sized
  unfold ReferenceLinked
  rw [placed.span]
  dsimp only
  rw [linked]
  generalize isLinked : (reference.relocation (Layout.after before) instr).linked
    (sourcePass1 src).symtable addresses = number at linked ⊢
  have reading := reads number
  cases form : reference.form with
  | dataWord => exact absurd form notWord
  | moveImmediate =>
      have same : number =
          symbolAddress (sourcePass1 src).symtable addresses reference.symbol := by
        simp [← isLinked, Relocation.linked, Reference.relocation, form, ReferenceForm.kind,
          RelocationKind.addend]
      simp only [form, ReferenceForm.decoded, ReferenceForm.kind] at reading
      rw [← same]
      exact reading
  | branch | ripRelative =>
      have distance : number =
          symbolAddress (sourcePass1 src).symtable addresses reference.symbol -
            (addresses.base (Layout.after before).section_ + (Layout.after before).offset +
              (Layout.after before).statementSize instr) := by
        rw [← isLinked]
        exact linked_distance placed.hasBytes (by rw [form]; rfl) sized
      obtain ⟨wraps, exact_⟩ := displacement_spec number
      simp only [form, ReferenceForm.decoded, ReferenceForm.kind] at reading
      refine ⟨_, reading, ?_, fun fits => ?_⟩
      · omega
      · rw [exact_ (by omega)]
        omega

/-- A data word, after linking. -/
theorem word_linked (accepted : Accepted src) (inText : SymbolicInstructionsInText src)
    (split : (sourceInstructions src).data = before ++ instr :: after)
    (member : reference ∈ statementReferences (sourcePass1 src).symtable before.length instr)
    (data : instr.directiveKind = .int64) :
    ReferenceLinked src addresses instr (statementSpan (Layout.after before) instr) reference := by
  have stands := accepted.stands split
  have placed := statement_field stands (inText.place split) member
  obtain ⟨-, op, -, isForm⟩ := mem_statementReferences.mp member
  have word := (operandForm?_of_invalid (stands.data data).2 isForm).2.1
  have linked := @linked_field src before after instr addresses accepted split (inText.place split)
    reference member
  have within := placed.within
  simp only [Reference.fieldStart, word, ReferenceForm.kind, RelocationKind.width] at linked within
  unfold ReferenceLinked
  rw [placed.span]
  simp only [word]
  rw [slice_slice _ within, linked, value_intBytes]
  simp [Relocation.linked, Reference.relocation, word, ReferenceForm.kind, RelocationKind.addend]

theorem reference_linked (accepted : Accepted src) (inText : SymbolicInstructionsInText src)
    (split : (sourceInstructions src).data = before ++ instr :: after)
    (member : reference ∈ statementReferences (sourcePass1 src).symtable before.length instr) :
    ReferenceLinked src addresses instr (statementSpan (Layout.after before) instr) reference := by
  rcases (accepted.stands split).cases (inText.place split) (isSome_of_reference member) with
    emits | ⟨-, data⟩
  · exact instruction_linked accepted split (inText.place split) member emits
  · exact word_linked accepted inText split member data

/-! ## References outside of .text -/

theorem exists_of_forall₂ {α β : Type} {relation : α → β → Prop} {first : List α}
    {second : List β} (related : List.Forall₂ relation first second) {element : α}
    (member : element ∈ first) : ∃ other ∈ second, relation element other := by
  induction related with
  | nil => contradiction
  | cons head _ inductionHypothesis =>
      rcases List.mem_cons.mp member with rfl | inTail
      · exact ⟨_, List.mem_cons_self, head⟩
      · obtain ⟨other, inSecond, holds⟩ := inductionHypothesis inTail
        exact ⟨other, List.mem_cons_of_mem _ inSecond, holds⟩

theorem statementReferences_subset
    (split : (sourceInstructions src).data = before ++ instr :: after)
    (member : reference ∈ statementReferences (sourcePass1 src).symtable before.length instr) :
    reference ∈ sourceReferences src := by
  rw [sourceReferences, programReferences, List.mem_flatMap]
  refine ⟨(instr, before.length), ?_, member⟩
  rw [List.mem_zipIdx_iff_getElem?, split, List.getElem?_append_right (Nat.le_refl _),
    Nat.sub_self, List.getElem?_cons_zero]

/-- A reference of a statement that is not emitted has no relocation. -/
theorem not_relocated (accepted : Accepted src)
    (split : (sourceInstructions src).data = before ++ instr :: after)
    (notEmits : ¬ (Layout.after before).Emits instr)
    (notStores : ¬ (Layout.after before).Stores instr)
    (symbolic : ∃ op ∈ instr.ops, (operandForm? (sourcePass1 src).symtable instr op).isSome = true) :
    ¬ List.Forall₂ (Relocated src) (sourceReferences src) (sourcePass2 src).relocations := by
  intro corresponds
  obtain ⟨op, inOps, isSome⟩ := symbolic
  obtain ⟨⟨form, symbol⟩, isForm⟩ := Option.isSome_iff_exists.mp isSome
  obtain ⟨operand, isOp⟩ := List.mem_iff_getElem?.mp inOps
  have member : ⟨before.length, operand, form, symbol⟩ ∈
      statementReferences (sourcePass1 src).symtable before.length instr :=
    mem_statementReferences.mpr ⟨rfl, op, isOp, isForm⟩
  obtain ⟨relocation, -, relocated⟩ :=
    exists_of_forall₂ corresponds (statementReferences_subset split member)
  obtain ⟨span, isSpan, -, least, greatest⟩ := relocated.inside
  have here := (accepted.emission split).symm.trans isSpan
  rw [Option.some.injEq] at here
  have empty := statementSpan_size_of_empty (accepted.stands split).accepted notEmits notStores
  rw [here] at empty
  have width : 0 < relocation.kind.width := by cases relocation.kind <;> decide
  omega

end Links

/-! ## The exact condition -/

/-- The relocations of an accepted source are complete and correct exactly when
every symbolic instruction stands in `.text`. -/
theorem relocations_correct_iff (src : SourceBuffer) (accepted : Accepted src) :
    RelocationsCorrect src ↔ SymbolicInstructionsInText src := by
  constructor
  · intro correct before instr after split named symbolic
    by_contra outside
    rw [← currentSection_eq] at outside
    have none := (accepted.stands split).exclusive.resolve_left named
    refine not_relocated accepted split (fun emits => outside emits.2.2) ?_ symbolic
      correct.corresponds
    rintro ⟨isData, -⟩
    rw [none] at isData
    contradiction
  · intro inText
    refine ⟨?_, sourceRelocations_apart accepted, ?_⟩
    · rw [accepted.image.relocations]
      exact relocations_correspond accepted inText (List.append_nil _).symm
    · intro addresses before instr after span split isSpan reference member
      rw [accepted.emission split, Option.some.injEq] at isSpan
      rw [← isSpan]
      exact reference_linked accepted inText split member

/-- A call of an external symbol. -/
def externalCall : SourceBuffer := ⟨utf8 ".خارجي خ\nناد خ\n", none⟩

theorem relocations_correct_iff_externalCall :
    (sourcePass2 externalCall).relocations = [⟨.text, .pc32, 1, utf8 "خ", -4⟩] ∧
      (RelocationsCorrect externalCall ↔ SymbolicInstructionsInText externalCall) :=
  ⟨by decide +kernel, relocations_correct_iff externalCall (by decide +kernel)⟩

/-- The same call in `.بيانات`. -/
def externalCallInData : SourceBuffer := ⟨utf8 ".خارجي خ\n.بيانات\nناد خ\n", none⟩

theorem relocation_missing_in_data :
    Accepted externalCallInData ∧ (sourcePass2 externalCallInData).relocations = [] ∧
      ¬ RelocationsCorrect externalCallInData := by
  have accepted : Accepted externalCallInData := by decide +kernel
  have none : (sourcePass2 externalCallInData).relocations = [] := by decide +kernel
  refine ⟨accepted, none, fun correct => ?_⟩
  have sameLength := correct.corresponds.length_eq
  rw [none] at sameLength
  have one : (sourceReferences externalCallInData).length = 1 := by decide +kernel
  rw [one] at sameLength
  contradiction

end Nazm.Passes
