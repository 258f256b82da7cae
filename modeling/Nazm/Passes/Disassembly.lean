import Nazm.Passes.Branches
import Nazm.Passes.Linked
import Nazm.Passes.SymbolOperands

/-!
The linked text of a source, read back.

Owns the listing of a source, which is what its statements ask for with
addresses in place of symbols, and that the linked bytes of `.text` are exactly
the encodings of that listing.

Does not own object files, nor what running the text does.
-/

namespace Nazm.Passes

open FetchDecode FieldEdits LittleEndian
open Nazm.Encoder Nazm.Parser Nazm.Lexer Nazm.Symtable Nazm.Unicode Nazm.Diagnostics

/-! ## Listings -/

section Listings

variable (src : SourceBuffer) (addresses : Addresses)

/-- Every displacement that the linker writes fits its field. -/
def WithinReach : Prop :=
  ∀ relocation ∈ (sourcePass2 src).relocations, relocation.kind = .pc32 →
    -2 ^ 31 ≤ relocation.linked (sourcePass1 src).symtable addresses ∧
      relocation.linked (sourcePass1 src).symtable addresses < 2 ^ 31

instance : Decidable (WithinReach src addresses) :=
  inferInstanceAs (Decidable (∀ relocation ∈ (sourcePass2 src).relocations, _ → _))

/-- What an instruction in `.text` asks for, at its address. -/
def statementListing? (layout : Layout) (instr : Instruction) :
    Option (Entry X86.PlacedInstruction) :=
  if layout.Emits instr then
    (placedMeaning instr.opcode (symbolAddress (sourcePass1 src).symtable addresses) instr.ops).map
      fun instruction =>
        ⟨addresses.base .text + layout.sizes.text, instructionSize instr, instruction⟩
  else none

/-- The instructions in `.text` of a run of statements. -/
def placesListing (layout : Layout) (statements : List Instruction) :
    List (Entry X86.PlacedInstruction) :=
  (layout.places statements).filterMap fun place => statementListing? src addresses place.1 place.2

/-- The instructions in `.text` of a source. -/
def sourceListing : List (Entry X86.PlacedInstruction) :=
  placesListing src addresses .start (sourceInstructions src).data

end Listings

section Statements

variable {src : SourceBuffer} {addresses : Addresses} {before after : List Instruction}
  {instr : Instruction}

theorem placesListing_append (layout : Layout) (first second : List Instruction) :
    placesListing src addresses layout (first ++ second) =
      placesListing src addresses layout first ++
        placesListing src addresses (first.foldl Layout.place layout) second := by
  unfold placesListing
  rw [Layout.places_append, List.filterMap_append]

theorem placesListing_snoc (layout : Layout) (front : List Instruction) (instr : Instruction) :
    placesListing src addresses layout (front ++ [instr]) =
      placesListing src addresses layout front ++
        (statementListing? src addresses (front.foldl Layout.place layout) instr).toList := by
  rw [placesListing_append]
  rfl

/-! ## Operands and symbols -/

theorem symbolic_of_emits (emits : (Layout.after before).Emits instr) :
    SymbolicInText (sourcePass1 src).symtable (Layout.after before) instr := by
  intro _ _
  exact emits.2.2

/-- The displacements of an instruction with a reference lead to its symbols once
the field of the reference does. -/
theorem leads_of_reference {reference : Reference} {layout : Layout} {bytes : List UInt8}
    (emits : layout.Emits instr) (checked : ArityChecked instr)
    (encoded : instructionBytes (sourcePass1 src).symtable instr layout.sizes.text = some bytes)
    (member : reference ∈ statementReferences (sourcePass1 src).symtable before.length instr)
    {addressOf : List UInt8 → Int} {next number : Int}
    (relative : reference.form.kind = .pc32 → next + number = addressOf reference.symbol)
    (absolute : reference.form.kind = .abs64 → number = addressOf reference.symbol) :
    ∀ op ∈ instr.ops, op.kind.Leads instr.opcode addressOf next number number := by
  obtain ⟨-, op, isOp, isForm⟩ := mem_statementReferences.mp member
  have noData : instr.directiveKind ≠ .int64 := by simp [emits.1]
  have inOps : op ∈ instr.ops := List.mem_of_getElem? isOp
  obtain ⟨statement, operand, form, symbol⟩ := reference
  dsimp only at isOp isForm relative absolute
  unfold operandForm? at isForm
  cases kind : op.kind with
  | memRipLabel label =>
      simp only [kind, if_neg emits.2.1, Option.some.injEq, Prod.mk.injEq] at isForm
      obtain ⟨rfl, rfl⟩ := isForm
      have rip : instr.ops.any isRipRelativeSymbolOperand = true :=
        List.any_eq_true.mpr ⟨op, inOps, by simp [isRipRelativeSymbolOperand, kind]⟩
      obtain ⟨-, -, other, first, second, ops, pair⟩ :=
        encoderEncode_ripField (nullary_of_arityChecked checked emits.2.1) encoded rip
      have leads := relative rfl
      rw [ops] at inOps ⊢
      intro op' member'
      rcases pair with ⟨r, firstKind, secondKind⟩ | ⟨r, firstKind, secondKind⟩
      · rcases List.mem_pair.mp member' with rfl | rfl
        · rw [firstKind]
          exact trivial
        · rcases List.mem_pair.mp inOps with rfl | rfl
          · rw [kind] at firstKind
            contradiction
          · rw [kind]
            exact leads
      · rcases List.mem_pair.mp member' with rfl | rfl
        · rcases List.mem_pair.mp inOps with rfl | rfl
          · rw [kind]
            exact leads
          · rw [kind] at secondKind
            contradiction
        · rw [secondKind]
          exact trivial
  | label label =>
      simp only [kind, if_neg noData] at isForm
      by_cases branch : opcodeUsesRelativeLabel instr.opcode = true
      · rw [if_pos branch, Option.ite_none_right_eq_some, Option.some.injEq,
          Prod.mk.injEq] at isForm
        obtain ⟨-, rfl, rfl⟩ := isForm
        obtain ⟨only, ops⟩ := singleton_of_relative checked branch
        have leads := relative rfl
        rw [ops] at inOps ⊢
        obtain rfl := List.mem_singleton.mp inOps
        intro op' member'
        obtain rfl := List.mem_singleton.mp member'
        have notMov : instr.opcode ≠ .mov := by
          intro mov
          rw [mov] at branch
          contradiction
        rw [kind]
        exact leads_of_branch notMov leads
      · rw [if_neg branch, Option.ite_none_right_eq_some, Option.some.injEq,
          Prod.mk.injEq] at isForm
        obtain ⟨moves, rfl, rfl⟩ := isForm
        have leads := absolute rfl
        unfold movesSymbol at moves
        split at moves
        · next dst _ _ _ label' _ _ _ ops =>
            rw [Bool.and_eq_true, decide_eq_true_eq] at moves
            rw [ops] at inOps ⊢
            intro op' member'
            rcases List.mem_pair.mp member' with rfl | rfl
            · exact trivial
            · rcases List.mem_pair.mp inOps with rfl | rfl
              · contradiction
              · obtain rfl : label' = label := OperandKind.label.inj kind
                exact leads_of_mov moves.1 (by rw [leads])
        · contradiction
  | _ => simp [kind] at isForm

/-- An instruction in `.text` has its symbols in its references, but for local
branches. -/
theorem symbolFree_of_noReference {layout : Layout} {bytes : List UInt8}
    (emits : layout.Emits instr) (checked : ArityChecked instr)
    (encoded : instructionBytes (sourcePass1 src).symtable instr layout.sizes.text = some bytes)
    (none : statementReferences (sourcePass1 src).symtable before.length instr = [])
    (notBranch : opcodeUsesRelativeLabel instr.opcode = true →
      ∀ op ∈ instr.ops, ∀ label, op.kind ≠ .label label) :
    ∀ op ∈ instr.ops, op.kind.SymbolFree := by
  have noData : instr.directiveKind ≠ .int64 := by simp [emits.1]
  have admitted := nullary_of_arityChecked checked emits.2.1
  have noForm : ∀ op ∈ instr.ops,
      operandForm? (sourcePass1 src).symtable instr op = Option.none := by
    intro op inOps
    by_contra some_
    obtain ⟨⟨form, symbol⟩, isForm⟩ := Option.ne_none_iff_exists'.mp some_
    obtain ⟨operand, isOp⟩ := List.mem_iff_getElem?.mp inOps
    have member : ⟨before.length, operand, form, symbol⟩ ∈
        statementReferences (sourcePass1 src).symtable before.length instr :=
      mem_statementReferences.mpr ⟨rfl, op, isOp, isForm⟩
    rw [none] at member
    contradiction
  intro op inOps
  have here := noForm op inOps
  unfold operandForm? at here
  refine symbolFree_of_notRip ?_ ?_
  · unfold isRipRelativeSymbolOperand
    split
    · next label kind => simp [kind, emits.2.1] at here
    · rfl
  · intro label isLabel
    cases relative : opcodeUsesRelativeLabel instr.opcode with
    | true => exact notBranch relative op inOps label isLabel
    | false =>
        by_cases mov : instr.opcode = .mov
        · have encoded' := encoded
          rw [instructionBytes, mov] at encoded'
          obtain ⟨first, second, r, ops, firstKind, secondKind⟩ :=
            mov_label encoded' inOps isLabel
          have wide := wide_of_encoded encoded mov ops firstKind secondKind
          obtain ⟨_, _, _, _⟩ := first
          obtain ⟨_, _, _, _⟩ := second
          dsimp only at firstKind secondKind
          have moves : movesSymbol instr = true := by
            simp [movesSymbol, ops, firstKind, secondKind, mov, wide]
          simp [isLabel, noData, relative, moves] at here
        · exact notLabel_of_plain admitted encoded mov relative op inOps label isLabel

/-! ## Linked statements -/

/-- Without a reference, no relocation reaches into the bytes of an instruction. -/
theorem linked_untouched (accepted : Accepted src)
    (split : (sourceInstructions src).data = before ++ instr :: after)
    (emits : (Layout.after before).Emits instr)
    (none : statementReferences (sourcePass1 src).symtable before.length instr = []) :
    slice (linkedBytes src addresses .text) (Layout.after before).sizes.text
        (instructionSize instr) =
      slice ((sourcePass2 src).bytesIn .text) (Layout.after before).sizes.text
        (instructionSize instr) := by
  have text : (Layout.after before).section_ = .text := emits.2.2
  have offset : (Layout.after before).offset = (Layout.after before).sizes.text := by
    rw [Layout.offset, text]
    rfl
  have size : (Layout.after before).statementSize instr = instructionSize instr := by
    simp [Layout.statementSize, emits.1, emits.2.1, text]
  apply slice_applyAll_of_apart (edits_inside addresses _ accepted)
  intro edit isEdit
  obtain ⟨relocation, inSection, rfl⟩ := List.mem_map.mp isEdit
  obtain ⟨inList, isSection⟩ := List.mem_filter.mp inSection
  rcases relocation_cases accepted split inList with here | elsewhere
  · rw [@statement_relocations _ _ _ before.length (accepted.stands split)
      (symbolic_of_emits emits), none] at here
    contradiction
  · rw [text, offset, size] at elsewhere
    exact (elsewhere (of_decide_eq_true isSection)).symm

/-- Where an instruction of `.text` ends. -/
def behind (addresses : Addresses) (layout : Layout) (instr : Instruction) : Int :=
  addresses.base .text + layout.sizes.text + instructionSize instr

/-- The linked bytes of an instruction read as what it asks for. -/
def StatementReads (src : SourceBuffer) (addresses : Addresses) (layout : Layout)
    (instr : Instruction) : Prop :=
  ∃ instruction, placedMeaning instr.opcode (symbolAddress (sourcePass1 src).symtable addresses)
      instr.ops = some (X86.Instruction.place (behind addresses layout instr) instruction) ∧
    Reads (slice (linkedBytes src addresses .text) layout.sizes.text (instructionSize instr))
      instruction

/-- Bytes that read as a statement whose displacements lead to its symbols. -/
theorem statementReads_of_leads {layout : Layout} {bytes : List UInt8} {target symbol : Int}
    (encoded : instructionBytes (sourcePass1 src).symtable instr layout.sizes.text = some bytes)
    (leads : ∀ op ∈ instr.ops, op.kind.Leads instr.opcode
      (symbolAddress (sourcePass1 src).symtable addresses) (behind addresses layout instr) target
      symbol)
    (reads : ReadsAs (slice (linkedBytes src addresses .text) layout.sizes.text
      (instructionSize instr)) instr.opcode instr.ops target symbol) :
    StatementReads src addresses layout instr := by
  obtain ⟨instruction, isMeaning, isRead⟩ := reads
  refine ⟨instruction, ?_, isRead⟩
  exact placedMeaning_eq leads (fun shift => symbolFree_of_shift shift encoded) isMeaning

/-- An instruction with a reference. -/
theorem reference_reads (accepted : Accepted src) (reach : WithinReach src addresses)
    (split : (sourceInstructions src).data = before ++ instr :: after)
    (emits : (Layout.after before).Emits instr) {reference : Reference}
    (member : reference ∈ statementReferences (sourcePass1 src).symtable before.length instr) :
    StatementReads src addresses (Layout.after before) instr := by
  have stands := accepted.stands split
  have inText := @symbolic_of_emits src _ _ emits
  have text : (Layout.after before).section_ = .text := emits.2.2
  have offset : (Layout.after before).offset = (Layout.after before).sizes.text := by
    rw [Layout.offset, text]
    rfl
  have size : (Layout.after before).statementSize instr = instructionSize instr := by
    simp [Layout.statementSize, emits.1, emits.2.1, text]
  obtain ⟨bytes, encoded⟩ := stands.checked.encoded emits
  have linked := @instruction_linked src before after instr addresses reference accepted split
    inText member emits
  unfold ReferenceLinked at linked
  rw [emits.statementSpan_eq] at linked
  dsimp only at linked
  cases form : reference.form with
  | dataWord =>
      have data := int64_of_dataWord member form
      rw [emits.1] at data
      contradiction
  | moveImmediate =>
      simp only [form] at linked
      refine statementReads_of_leads encoded (leads_of_reference emits stands.arity encoded member
        ?_ fun _ => rfl) linked
      intro relative
      rw [form] at relative
      contradiction
  | branch | ripRelative =>
      simp only [form] at linked
      obtain ⟨displacement, reads, -, exact_⟩ := linked
      have isPc32 : reference.form.kind = .pc32 := by rw [form]; rfl
      obtain ⟨front, start, sized, -, -⟩ := @linked_instruction src before after instr addresses
        accepted split inText reference member emits
      rw [start] at sized
      have isRelocation : reference.relocation (Layout.after before) instr ∈
          (sourcePass2 src).relocations := by
        rw [accepted.image.relocations, mem_programRelocations]
        refine ⟨before, instr, after, split, ?_⟩
        rw [@statement_relocations _ _ _ before.length stands inText]
        exact List.mem_map_of_mem member
      have fits := reach _ isRelocation isPc32
      rw [linked_distance (statement_field stands inText member).hasBytes isPc32 sized, text,
        offset, size] at fits
      refine statementReads_of_leads encoded (leads_of_reference emits stands.arity encoded member
        (fun _ => exact_ fits) ?_) reads
      intro absolute
      rw [isPc32] at absolute
      contradiction

/-- An instruction without a reference: its symbol is the target of a local branch. -/
theorem plain_reads (accepted : Accepted src)
    (split : (sourceInstructions src).data = before ++ instr :: after)
    (emits : (Layout.after before).Emits instr)
    (none : statementReferences (sourcePass1 src).symtable before.length instr = []) :
    StatementReads src addresses (Layout.after before) instr := by
  have stands := accepted.stands split
  have untouched := @linked_untouched src addresses _ _ _ accepted split emits none
  obtain ⟨bytes, encoded⟩ := stands.checked.encoded emits
  by_cases branch : opcodeUsesRelativeLabel instr.opcode = true ∧
      ∃ op ∈ instr.ops, ∃ label, op.kind = .label label
  · obtain ⟨relative, op, inOps, label, isLabel⟩ := branch
    obtain ⟨only, ops⟩ := singleton_of_relative stands.arity relative
    obtain rfl : op = only := List.mem_singleton.mp (ops ▸ inOps)
    have known := (stands.checked.resolved emits op inOps).known label (by
      simp [symbolName?, isLabel])
    have isSome : ∃ place, symtableLookupEx (sourcePass1 src).symtable label = some place := by
      by_contra absent
      have notFound : symtableLookupEx (sourcePass1 src).symtable label = Option.none :=
        Option.eq_none_iff_forall_not_mem.mpr fun place found => absent ⟨place, found⟩
      have external := symtableIsExternal_iff known
      rw [notFound] at external
      obtain ⟨operand, isOp⟩ := List.mem_iff_getElem?.mp inOps
      have member : ⟨before.length, operand, .branch, label⟩ ∈
          statementReferences (sourcePass1 src).symtable before.length instr := by
        refine mem_statementReferences.mpr ⟨rfl, op, isOp, ?_⟩
        simp [operandForm?, isLabel, emits.1, relative, external]
      rw [none] at member
      contradiction
    obtain ⟨⟨target, targetSection⟩, found⟩ := isSome
    have emitted : EmittedBranch src instr (Layout.after before).sizes.text (instructionSize instr)
        target targetSection :=
      ⟨relative, ⟨before, after, split, by rw [accepted.emission split, emits.statementSpan_eq]⟩,
        op, label, ops, isLabel, found⟩
    obtain ⟨rfl, -⟩ := emitted.stored accepted
    obtain ⟨lands, reads⟩ := emitted.lands accepted
    refine statementReads_of_leads encoded ?_ (untouched ▸ reads)
    have notMov : instr.opcode ≠ .mov := by
      intro mov
      rw [mov] at relative
      contradiction
    intro op' inOps'
    obtain rfl : op' = op := List.mem_singleton.mp (ops ▸ inOps')
    have address : symbolAddress (sourcePass1 src).symtable addresses label =
        addresses.base .text + target := by
      simp only [symbolAddress, found]
    rw [isLabel]
    apply leads_of_branch notMov
    rw [address, behind]
    omega
  · have free := symbolFree_of_noReference emits stands.arity encoded none fun relative op inOps
      label isLabel => branch ⟨relative, op, inOps, label, isLabel⟩
    have covered := accepted.spanBytes split
    rw [emits.statementBytes_eq, encoded, Option.getD_some, emits.statementSpan_eq] at covered
    have reads := encoderEncode_readsAs (nullary_of_arityChecked stands.arity emits.2.1) encoded
    have isBytes : slice (linkedBytes src addresses .text) (Layout.after before).sizes.text
        (instructionSize instr) = bytes := untouched.trans covered
    rw [← isBytes] at reads
    exact statementReads_of_leads encoded (fun op inOps => (free op inOps).leads) reads

theorem statement_reads (accepted : Accepted src) (reach : WithinReach src addresses)
    (split : (sourceInstructions src).data = before ++ instr :: after)
    (emits : (Layout.after before).Emits instr) :
    StatementReads src addresses (Layout.after before) instr := by
  cases references : statementReferences (sourcePass1 src).symtable before.length instr with
  | nil => exact plain_reads accepted split emits references
  | cons reference rest =>
      exact reference_reads accepted reach split emits
        (references ▸ List.mem_cons_self (a := reference))

/-! ## The linked text -/

theorem length_linkedText (accepted : Accepted src) :
    (linkedBytes src addresses .text).length =
      (Layout.after (sourceInstructions src).data).sizes.text := by
  rw [linkedBytes, length_applyAll (edits_inside addresses _ accepted),
    length_bytesIn _ (by decide), accepted.image.sizes]
  rfl

/-- Only the instructions in `.text` take bytes of it. -/
theorem text_place (accepted : StatementAccepted (Layout.after before).section_ instr) :
    (Layout.after (before ++ [instr])).sizes.text =
      (Layout.after before).sizes.text +
        (if (Layout.after before).Emits instr then instructionSize instr else 0) := by
  have grows := (Layout.after before).sizes.get_add (Layout.after before).section_ .text
    ((Layout.after before).statementSize instr)
  rw [Layout.after_snoc]
  refine Eq.trans (b := ((Layout.after before).sizes.add _ _).get .text) rfl (grows.trans ?_)
  by_cases emits : (Layout.after before).Emits instr
  · have text : (Layout.after before).section_ = .text := emits.2.2
    have size : (Layout.after before).statementSize instr = instructionSize instr := by
      simp [Layout.statementSize, emits.1, emits.2.1, text]
    rw [if_pos emits, size, text]
    rfl
  · rw [if_neg emits]
    by_cases text : (Layout.after before).section_ = .text
    · have notStores : ¬ (Layout.after before).Stores instr := by
        rintro ⟨-, data | readOnly⟩
        · rw [text] at data
          contradiction
        · rw [text] at readOnly
          contradiction
      have empty := statementSpan_size_of_empty accepted emits notStores
      have notBss : (Layout.after before).section_ ≠ .bss := by
        rw [text]
        decide
      have size : (Layout.after before).statementSize instr = 0 := by
        simpa only [statementSpan, if_neg notBss] using empty
      rw [size, if_pos text]
      rfl
    · rw [if_neg text]
      rfl

/-- The linked bytes of a run of statements are the encodings of its listing. -/
theorem linked_listed (accepted : Accepted src) (reach : WithinReach src addresses)
    {front middle back : List Instruction}
    (split : (sourceInstructions src).data = front ++ middle ++ back) :
    Listed X86.decodeAt (addresses.base .text + (Layout.after front).sizes.text)
      (slice (linkedBytes src addresses .text) (Layout.after front).sizes.text
        ((Layout.after (front ++ middle)).sizes.text - (Layout.after front).sizes.text))
      (placesListing src addresses (Layout.after front) middle) := by
  induction middle using List.reverseRecOn generalizing back with
  | nil =>
      rw [List.append_nil, Nat.sub_self, slice_zero]
      exact .nil
  | append_singleton middle instr inductionHypothesis =>
      have split' : (sourceInstructions src).data = front ++ middle ++ instr :: back := by
        simpa using split
      have listed := inductionHypothesis split'
      have stands := accepted.stands split'
      have grows := text_place stands.accepted
      have least : (Layout.after front).sizes.text ≤ (Layout.after (front ++ middle)).sizes.text :=
        Layout.get_after_le front middle .text
      have isLayout : middle.foldl Layout.place (Layout.after front) =
          Layout.after (front ++ middle) := by
        rw [Layout.after, Layout.after, List.foldl_append]
      rw [placesListing_snoc, isLayout, ← List.append_assoc]
      by_cases emits : (Layout.after (front ++ middle)).Emits instr
      · rw [if_pos emits] at grows
        obtain ⟨instruction, isPlaced, reads⟩ := statement_reads accepted reach split' emits
        have isEntry : statementListing? src addresses (Layout.after (front ++ middle)) instr =
            some ⟨addresses.base .text + (Layout.after (front ++ middle)).sizes.text,
              instructionSize instr, instruction.place
                (behind addresses (Layout.after (front ++ middle)) instr)⟩ := by
          rw [statementListing?, if_pos emits, isPlaced, Option.map_some]
        have most : (Layout.after (front ++ middle)).sizes.text + instructionSize instr ≤
            (linkedBytes src addresses .text).length := by
          have goesOn := Layout.get_after_le (front ++ middle ++ [instr]) back .text
          rw [← List.append_cons, ← split'] at goesOn
          rw [length_linkedText accepted, ← grows]
          exact goesOn
        obtain ⟨width, isWidth⟩ := Nat.exists_eq_add_of_le least
        have length : (slice (linkedBytes src addresses .text)
            (Layout.after (front ++ middle)).sizes.text (instructionSize instr)).length =
              instructionSize instr := length_slice most
        have frontLength : (slice (linkedBytes src addresses .text)
            (Layout.after front).sizes.text width).length = width := length_slice (by omega)
        have positive := (instructionSize_bounds instr).1
        have decodes := X86.decodeAt_of_decode reads
          (addresses.base .text + (Layout.after (front ++ middle)).sizes.text)
        rw [isWidth, Nat.add_sub_cancel_left] at listed
        rw [isEntry, grows, show (Layout.after (front ++ middle)).sizes.text +
          instructionSize instr - (Layout.after front).sizes.text = width + instructionSize instr by
            omega, slice_add, ← isWidth]
        have address : addresses.base .text + (Layout.after (front ++ middle)).sizes.text =
            addresses.base .text + (Layout.after front).sizes.text +
              (slice (linkedBytes src addresses .text) (Layout.after front).sizes.text
                width).length := by
          rw [frontLength, isWidth]
          omega
        rw [length] at decodes
        unfold behind
        rw [address] at decodes ⊢
        have one := listed.snoc decodes (by
          intro isNil
          rw [isNil] at length
          exact absurd length (by simp; omega))
        rw [length] at one
        exact one
      · rw [if_neg emits, Nat.add_zero] at grows
        rw [grows, statementListing?, if_neg emits, Option.toList_none, List.append_nil]
        exact listed

/-- The linked text is the encodings of the listing of the source. -/
theorem linkedText_listed (accepted : Accepted src) (reach : WithinReach src addresses) :
    Listed X86.decodeAt (addresses.base .text) (linkedBytes src addresses .text)
      (sourceListing src addresses) := by
  have listed := @linked_listed src addresses accepted reach [] (sourceInstructions src).data []
    (List.append_nil _).symm
  have start : (Layout.after []).sizes.text = 0 := rfl
  rw [start, Nat.sub_zero, List.nil_append, ← length_linkedText accepted, slice, List.drop_zero,
    List.take_length, Int.natCast_zero, Int.add_zero] at listed
  exact listed

/-- The address of a label in `.text` is the one of the next instruction. -/
theorem entryAt_label (accepted : Accepted src) (reach : WithinReach src addresses)
    (split : (sourceInstructions src).data = before ++ instr :: after) {name : List UInt8}
    (defined : definedLabel? instr = some name) (text : (Layout.after before).section_ = .text) :
    entryAt (sourceListing src addresses)
        (symbolAddress (sourcePass1 src).symtable addresses name) =
      (placesListing src addresses (Layout.after before) (instr :: after)).head? := by
  have found := (pass1Run_definesLabels accepted.sized).complete before instr after name split
    defined
  have address : symbolAddress (sourcePass1 src).symtable addresses name =
      addresses.base .text + (Layout.after before).sizes.text := by
    unfold symbolAddress
    rw [show symtableLookupEx (sourcePass1 src).symtable name = _ from found, text, Layout.offset,
      text]
    rfl
  have listedFront := @linked_listed src addresses accepted reach [] before (instr :: after) split
  have listedBack := @linked_listed src addresses accepted reach before (instr :: after) [] (by
    rw [List.append_nil]
    exact split)
  have start : (Layout.after []).sizes.text = 0 := rfl
  have least : (Layout.after before).sizes.text ≤ (linkedBytes src addresses .text).length := by
    rw [length_linkedText accepted, split]
    exact Layout.get_after_le before (instr :: after) .text
  have length : (slice (linkedBytes src addresses .text) 0
      (Layout.after before).sizes.text).length = (Layout.after before).sizes.text :=
    length_slice (by omega)
  rw [start, Nat.sub_zero, List.nil_append, Int.natCast_zero, Int.add_zero] at listedFront
  rw [sourceListing, split, placesListing_append, address]
  have here := listedFront.entryAt_append (length.symm ▸ listedBack)
  rw [length] at here
  exact here

end Statements

/-! ## Disassembly -/

/-- The linked text of an accepted source disassembles, from its first byte to its last,
to what the instructions in `.text` ask for, with the addresses of their symbols; and the
address of a label there is the one of the next instruction behind the label. -/
theorem linked_text_disassembles (src : SourceBuffer) (accepted : Accepted src)
    (addresses : Addresses) (reach : WithinReach src addresses) :
    sweep X86.decodeAt (linkedBytes src addresses .text).length (addresses.base .text)
        (linkedBytes src addresses .text) = some (sourceListing src addresses) ∧
      ∀ before labelled after name,
        (sourceInstructions src).data = before ++ labelled :: after →
        definedLabel? labelled = some name → currentSection before = .text →
        entryAt (sourceListing src addresses)
            (symbolAddress (sourcePass1 src).symtable addresses name) =
          (placesListing src addresses (Layout.after before) (labelled :: after)).head? := by
  refine ⟨(linkedText_listed accepted reach).sweep (Nat.le_refl _), ?_⟩
  intro before labelled after name split defined text
  exact entryAt_label accepted reach split defined ((currentSection_eq before).trans text)

/-- A loop that calls an external function. -/
def externalLoop : SourceBuffer := ⟨utf8 ".خارجي خ\nأ: ناد خ\nاقفز أ\n", none⟩

/-- Text at 4096, and every external symbol at 8192. -/
def loadedLow : Addresses := ⟨fun _ => 4096, fun _ => 8192⟩

theorem linked_text_disassembles_externalLoop :
    sweep X86.decodeAt (linkedBytes externalLoop loadedLow .text).length 4096
        (linkedBytes externalLoop loadedLow .text) =
      some [⟨4096, 5, ⟨.call, 64, [.target 8192]⟩⟩, ⟨4101, 5, ⟨.jmp, 64, [.target 4096]⟩⟩] := by
  have listing : sourceListing externalLoop loadedLow =
      [⟨4096, 5, ⟨.call, 64, [.target 8192]⟩⟩, ⟨4101, 5, ⟨.jmp, 64, [.target 4096]⟩⟩] := by
    decide +kernel
  rw [← listing]
  exact (linked_text_disassembles externalLoop (by decide +kernel) loadedLow (by decide +kernel)).1

end Nazm.Passes
