import Nazm.Passes.Disassembly
import Nazm.Passes.Units

/-!
Assembling separately.

Owns that units which are assembled separately and then linked have the bytes of one source
with the statements of all of them.

Does not own the objects that carry the units to a linker.
-/

namespace Nazm.Passes

open FieldEdits LittleEndian
open Nazm.Encoder Nazm.Parser Nazm.Lexer Nazm.Symtable Nazm.Unicode Nazm.Diagnostics

/-! ## Branches with any displacement -/

/-- Whatever its displacement, an encoded branch to a label has one front. -/
theorem encoderEncode_branch {opcode : OpcodeEnum} {operand : Operand} {label : List UInt8}
    (relative : opcodeUsesRelativeLabel opcode = true) (kind : operand.kind = .label label) :
    ∃ front : List UInt8, front.length = relativeLabelRelocationOffset opcode ∧
      ∀ disp bytes, encoderEncode opcode [operand] disp = some bytes →
        bytes = front ++ intBytes 4 disp.toInt := by
  have near : ∀ ext code, ∃ front : List UInt8, front.length = 1 ∧ ∀ disp bytes,
      encNear [operand] disp ext code = some bytes → bytes = front ++ intBytes 4 disp.toInt := by
    intro ext code
    refine ⟨[code], rfl, ?_⟩
    intro disp bytes encoded
    rcases encNear_cases encoded with ⟨other, r, isOther, register, -, -⟩ | ⟨_, _, _, _, _, rfl⟩
    · obtain rfl := List.singleton_inj.mp isOther
      rw [kind] at register
      contradiction
    · rfl
  have conditional : ∀ code, ∃ front : List UInt8, front.length = 2 ∧ ∀ disp bytes,
      encJcc [operand] disp code = some bytes → bytes = front ++ intBytes 4 disp.toInt := by
    intro code
    refine ⟨[0x0F, code], rfl, ?_⟩
    intro disp bytes encoded
    obtain ⟨_, _, _, _, _, rfl⟩ := encJcc_cases encoded
    rfl
  cases opcode with
  | jmp => exact near _ _
  | call => exact near _ _
  | je | jne | jg | jge | jl | jle | jz | jnz | js | jns => exact conditional _
  | _ => contradiction

/-! ## Relocations behind sizes -/

/-- A relocation of a program behind `front` bytes. -/
def Relocation.shift (front : Nat) (relocation : Relocation) : Relocation :=
  { relocation with offset := front + relocation.offset }

section Shifts

variable {whole own : SymbolTable} {instr : Instruction} {front textSize : Nat}

/-- Both tables define the target of a branch, or neither does. -/
def TargetsAgree (whole own : SymbolTable) (instr : Instruction) : Prop :=
  ∀ op ∈ instr.ops, ∀ label, op.kind = .label label →
    opcodeUsesRelativeLabel instr.opcode = true →
      (symtableLookupEx whole label).isSome = (symtableLookupEx own label).isSome

theorem labelRelocations_shift (ops : List Operand) (operandIndex : Nat)
    (agree : ∀ op ∈ ops, ∀ label, op.kind = .label label →
      opcodeUsesRelativeLabel instr.opcode = true →
        (symtableLookupEx whole label).isSome = (symtableLookupEx own label).isSome) :
    labelRelocations whole instr (front + textSize) operandIndex ops =
      (labelRelocations own instr textSize operandIndex ops).map (Relocation.shift front) := by
  induction ops generalizing operandIndex with
  | nil => rfl
  | cons op ops inductionHypothesis =>
      obtain ⟨here, later⟩ := List.forall_mem_cons.mp agree
      have one : labelRelocation? whole instr (front + textSize) operandIndex op =
          (labelRelocation? own instr textSize operandIndex op).map (Relocation.shift front) := by
        unfold labelRelocation?
        split
        · next label kind =>
            split
            · next relative =>
                rw [here label kind relative]
                split
                · rfl
                · rw [branchRelocation, Nat.add_assoc]
                  rfl
            · split
              · rw [movRelocation, Nat.add_assoc]
                rfl
              · rfl
        · rfl
      rw [labelRelocations, labelRelocations, List.map_append, inductionHypothesis _ later, one]
      cases labelRelocation? own instr textSize operandIndex op <;> rfl

theorem ripRelocations_shift {len : Nat} (ops : List Operand)
    (room : ∀ relocation ∈ ripRelocations textSize len ops,
      textSize ≤ relocation.offset ∧ relocation.offset + relocation.kind.width ≤ textSize + len) :
    ripRelocations (front + textSize) len ops =
      (ripRelocations textSize len ops).map (Relocation.shift front) := by
  induction ops with
  | nil => rfl
  | cons op ops inductionHypothesis =>
      unfold ripRelocations at room ⊢
      split
      · next label kind =>
          simp only [kind] at room
          obtain ⟨⟨least, greatest⟩, later⟩ := List.forall_mem_cons.mp room
          have offset : front + textSize + len - 4 = front + (textSize + len - 4) := by
            simp only [RelocationKind.width] at greatest
            omega
          rw [List.map_cons, inductionHypothesis later, offset]
          rfl
      · next other =>
          split at room
          · next label kind => exact absurd kind (other label)
          · exact inductionHypothesis room

theorem dataRelocations_shift (section_ : SymbolSection) (offset operandIndex : Nat)
    (ops : List Operand) :
    dataRelocations section_ (front + offset) operandIndex ops =
      (dataRelocations section_ offset operandIndex ops).map (Relocation.shift front) := by
  induction ops generalizing operandIndex with
  | nil => rfl
  | cons op ops inductionHypothesis =>
      unfold dataRelocations
      split
      · rw [List.map_cons, inductionHypothesis, Nat.add_assoc]
        rfl
      · exact inductionHypothesis _

end Shifts

/-! ## A statement of a unit, and of the whole -/

/-- What the whole knows of the symbols of a unit behind `start`. -/
structure SymbolsAgree (start : SectionSizes) (whole own : SymbolTable)
    (addresses ownAddresses : Addresses) : Prop where
  base : ∀ section_, ownAddresses.base section_ = addresses.base section_ + start.get section_
  defined : ∀ name section_ offset, symtableLookupEx own name = some (offset, some section_) →
    symtableLookupEx whole name = some (start.get section_ + offset, some section_)
  address : ∀ name, symbolKnown own name = true →
    symbolAddress whole addresses name = symbolAddress own ownAddresses name

section Statements

variable {start : SectionSizes} {whole own : SymbolTable} {addresses ownAddresses : Addresses}
  {layout : Layout} {instr : Instruction}

/-- A relocation links to the same number in the unit and in the whole. -/
theorem editFrom_placed (agree : SymbolsAgree start whole own addresses ownAddresses)
    {relocation : Relocation} (known : symbolKnown own relocation.symbol = true)
    (section_ : relocation.section_.symbolSection = layout.section_) :
    (relocation.shift (start.get layout.section_)).editFrom (layout.shift start).offset whole
        addresses =
      relocation.editFrom layout.offset own ownAddresses := by
  have number : (relocation.shift (start.get layout.section_)).linked whole addresses =
      relocation.linked own ownAddresses := by
    have target := agree.address relocation.symbol known
    unfold Relocation.linked Relocation.shift
    dsimp only
    rw [target]
    cases relocation.kind with
    | abs64 => rfl
    | pc32 =>
        dsimp only
        rw [agree.base, section_]
        omega
  have offset : (relocation.shift (start.get layout.section_)).offset -
      (layout.shift start).offset = relocation.offset - layout.offset := by
    rw [Layout.offset_shift]
    exact Nat.add_sub_add_left _ _ _
  rw [Relocation.editFrom, Relocation.editFrom, number, offset]
  rfl

/-- The fields and symbols of the relocations of a statement. -/
structure RelocationsStand (own : SymbolTable) (layout : Layout) (instr : Instruction) : Prop where
  place : ∀ relocation ∈ statementRelocations own layout instr, InPlace layout instr relocation
  known : ∀ relocation ∈ statementRelocations own layout instr,
    symbolKnown own relocation.symbol = true

theorem statementLinked_of_shift (agree : SymbolsAgree start whole own addresses ownAddresses)
    (stand : RelocationsStand own layout instr)
    (bytes : statementBytes whole (layout.shift start) instr = statementBytes own layout instr)
    (relocations : statementRelocations whole (layout.shift start) instr =
      (statementRelocations own layout instr).map
        (Relocation.shift (start.get layout.section_))) :
    statementLinked whole addresses (layout.shift start) instr =
      statementLinked own ownAddresses layout instr := by
  rw [statementLinked, statementLinked, bytes, relocations, List.map_map]
  congr 1
  apply List.map_congr_left
  intro relocation member
  exact editFrom_placed agree (stand.known relocation member)
    (stand.place relocation member).section_

/-- A data directive. -/
theorem statementLinked_stores (agree : SymbolsAgree start whole own addresses ownAddresses)
    (stand : RelocationsStand own layout instr) (stores : layout.Stores instr)
    (fits : ∀ boundary ∈ alignmentBoundary? instr, boundary ∣ start.get layout.section_) :
    statementLinked whole addresses (layout.shift start) instr =
      statementLinked own ownAddresses layout instr := by
  have shifted : (layout.shift start).Stores instr := stores
  apply statementLinked_of_shift agree stand
  · rw [shifted.statementBytes_eq, stores.statementBytes_eq, Layout.offset_shift]
    unfold dataDirectiveBytes
    split
    · rfl
    · split
      · next boundary isBoundary => rw [alignmentPadding_shift (fits boundary isBoundary)]
      · rfl
    · rfl
    · rfl
  · rw [statementRelocations, statementRelocations, if_neg shifted.not_emits,
      if_neg stores.not_emits]
    by_cases words : instr.directiveKind = .int64
    · rw [if_pos ⟨shifted, words⟩, if_pos ⟨stores, words⟩, Layout.offset_shift,
        ← dataRelocations_shift]
      rfl
    · rw [if_neg fun both => words both.2, if_neg fun both => words both.2]
      rfl

/-- An instruction stands at the end of the text. -/
theorem Layout.Emits.offset_eq (emits : layout.Emits instr) :
    layout.offset = layout.sizes.text := by
  rw [Layout.offset, emits.2.2]
  rfl

theorem Layout.Emits.statementSize_eq (emits : layout.Emits instr) :
    layout.statementSize instr = instructionSize instr := by
  rw [Layout.statementSize, if_pos emits.1, if_neg]
  rw [not_or, not_not]
  exact emits.2

/-- The RIP fields of an instruction lie in its bytes. -/
theorem RelocationsStand.room (stand : RelocationsStand own layout instr)
    (emits : layout.Emits instr) :
    ∀ relocation ∈ ripRelocations layout.sizes.text (instructionSize instr) instr.ops,
      layout.sizes.text ≤ relocation.offset ∧
        relocation.offset + relocation.kind.width ≤
          layout.sizes.text + instructionSize instr := by
  intro relocation member
  have inStatement : relocation ∈ statementRelocations own layout instr := by
    rw [statementRelocations, if_pos emits]
    exact List.mem_append_right _ member
  have place := stand.place relocation inStatement
  have least := place.least
  have greatest := place.greatest
  rw [emits.offset_eq] at least greatest
  rw [emits.statementSize_eq] at greatest
  exact ⟨least, greatest⟩

/-- A branch and its target move together. -/
theorem branchDisplacement_shift (agree : SymbolsAgree start whole own addresses ownAddresses)
    (checked : StatementChecked own layout instr) (emits : layout.Emits instr)
    (targets : TargetsAgree whole own instr) :
    branchDisplacement whole instr (start.text + layout.sizes.text) =
      branchDisplacement own instr layout.sizes.text := by
  have resolved := checked.resolved emits
  unfold branchDisplacement
  split
  · next label line col endCol ops =>
      split
      · next relative =>
          have here : (⟨.label label, line, col, endCol⟩ : Operand) ∈ instr.ops := by
            rw [ops]
            exact List.mem_singleton_self _
          have both := targets _ here label rfl relative
          cases found : symtableLookupEx own label with
          | none =>
              rw [found, Option.isSome_none, Option.isSome_eq_false_iff,
                Option.isNone_iff_eq_none] at both
              rw [both]
          | some target =>
              obtain ⟨offset, section_⟩ := target
              obtain ⟨rfl, -⟩ := (resolved _ here).lands label _ _ rfl relative found
              rw [agree.defined label _ _ found]
              simp only [SectionSizes.get]
              omega
      · rfl
  · rfl

/-- An instruction whose target both tables define, or neither. -/
theorem statementLinked_emits (agree : SymbolsAgree start whole own addresses ownAddresses)
    (stand : RelocationsStand own layout instr) (checked : StatementChecked own layout instr)
    (emits : layout.Emits instr) (targets : TargetsAgree whole own instr) :
    statementLinked whole addresses (layout.shift start) instr =
      statementLinked own ownAddresses layout instr := by
  have shifted : (layout.shift start).Emits instr := emits
  have front : start.get layout.section_ = start.text := by
    rw [emits.2.2]
    rfl
  have textSize : (layout.shift start).sizes.text = start.text + layout.sizes.text := rfl
  apply statementLinked_of_shift agree stand
  · rw [shifted.statementBytes_eq, emits.statementBytes_eq, textSize, instructionBytes,
      instructionBytes, branchDisplacement_shift agree checked emits targets]
  · rw [statementRelocations, statementRelocations, if_pos shifted, if_pos emits, textSize, front,
      List.map_append, labelRelocations_shift _ _ targets,
      ripRelocations_shift _ (stand.room emits)]

section Branches

variable {operand : Operand} {label : List UInt8}

/-- The displacement of a branch to a label: to its offset, or none yet. -/
theorem branchDisplacement_eq (symtable : SymbolTable) (ops : instr.ops = [operand])
    (kind : operand.kind = .label label)
    (relative : opcodeUsesRelativeLabel instr.opcode = true) (textSize : Nat) :
    branchDisplacement symtable instr textSize =
      ((symtableLookupEx symtable label).map fun target =>
        target.1 - ((textSize + instructionSize instr : Nat) : Int)).getD 0 := by
  obtain ⟨opKind, line, col, endCol⟩ := operand
  obtain rfl : opKind = .label label := kind
  unfold branchDisplacement
  rw [ops]
  dsimp only
  rw [if_pos relative]
  cases symtableLookupEx symtable label <;> rfl

/-- The relocations of a branch to a label. -/
theorem statementRelocations_branch (symtable : SymbolTable) (emits : layout.Emits instr)
    (ops : instr.ops = [operand]) (kind : operand.kind = .label label)
    (relative : opcodeUsesRelativeLabel instr.opcode = true) :
    statementRelocations symtable layout instr =
      if (symtableLookupEx symtable label).isSome then []
      else [branchRelocation instr layout.sizes.text label] := by
  have noRip : ripRelocations layout.sizes.text (instructionSize instr) [operand] = [] := by
    rw [ripRelocations]
    simp only [kind]
    rfl
  rw [statementRelocations, if_pos emits, ops, noRip, List.append_nil, labelRelocations,
    labelRelocations, List.append_nil]
  unfold labelRelocation?
  rw [kind]
  dsimp only
  rw [if_pos relative]
  split <;> rfl

/-- A branch that leaves the unit: the whole encodes the displacement that a linker writes
into the field of the unit. -/
theorem statementLinked_crosses (agree : SymbolsAgree start whole own addresses ownAddresses)
    (emits : layout.Emits instr) (checked : StatementChecked own layout instr)
    (wholeChecked : StatementChecked whole (layout.shift start) instr)
    (ops : instr.ops = [operand]) (kind : operand.kind = .label label)
    (relative : opcodeUsesRelativeLabel instr.opcode = true)
    (leaves : symtableLookupEx own label = none) {offset : Int}
    {section_ : Option SymbolSection}
    (lands : symtableLookupEx whole label = some (offset, section_)) :
    statementLinked whole addresses (layout.shift start) instr =
      statementLinked own ownAddresses layout instr := by
  have shifted : (layout.shift start).Emits instr := emits
  have here : operand ∈ instr.ops := by
    rw [ops]
    exact List.mem_singleton_self _
  obtain ⟨front, length, encodes⟩ := encoderEncode_branch relative kind
  rw [← ops] at encodes
  obtain ⟨bytes, encoded⟩ := checked.encoded emits
  obtain ⟨wholeBytes, wholeEncoded⟩ := wholeChecked.encoded shifted
  have ownIs := encodes _ _ encoded
  have wholeIs := encodes _ _ wholeEncoded
  have size := instructionSize_of_encoded encoded
  rw [ownIs, List.length_append, length_intBytes] at size
  -- the field that a linker fills in the unit
  have ownLinked : statementLinked own ownAddresses layout instr = front ++ intBytes 4
      ((branchRelocation instr layout.sizes.text label).linked own ownAddresses) := by
    have offsetInFront : layout.sizes.text + relativeLabelRelocationOffset instr.opcode -
        layout.offset = front.length := by
      rw [emits.offset_eq, length]
      exact Nat.add_sub_cancel_left _ _
    rw [statementLinked, statementRelocations_branch own emits ops kind relative, leaves,
      emits.statementBytes_eq, encoded, Option.getD_some, ownIs]
    rw [Option.isSome_none, if_neg Bool.false_ne_true, List.map_singleton, Relocation.editFrom,
      branchRelocation, offsetInFront]
    exact applyAll_numberEdit (length_intBytes _ _) _
  -- the displacement that the whole encodes
  obtain ⟨rfl, least, greatest⟩ :=
    (wholeChecked.resolved shifted operand here).lands label _ _ kind relative lands
  have displacement : branchDisplacement whole instr (layout.shift start).sizes.text =
      offset - (((layout.shift start).sizes.text + instructionSize instr : Nat) : Int) := by
    rw [branchDisplacement_eq whole ops kind relative, lands]
    rfl
  have wholeLinked : statementLinked whole addresses (layout.shift start) instr =
      front ++ intBytes 4
        (offset - (((layout.shift start).sizes.text + instructionSize instr : Nat) : Int)) := by
    rw [statementLinked, statementRelocations_branch whole shifted ops kind relative, lands,
      shifted.statementBytes_eq, wholeEncoded, Option.getD_some, wholeIs, displacement,
      Int64.toInt_ofInt_of_le (by omega) (by omega)]
    rfl
  have known := (checked.resolved emits operand here).known label (by
    unfold symbolName?
    rw [kind])
  have target := agree.address label known
  have whereWhole : symbolAddress whole addresses label = addresses.base .text + offset := by
    unfold symbolAddress
    rw [lands]
  rw [ownLinked, wholeLinked]
  apply congrArg (fun number => front ++ intBytes 4 number)
  unfold Relocation.linked branchRelocation
  dsimp only
  rw [← target, whereWhole, show ownAddresses.base _ = _ from agree.base _, ← size, ← length]
  show _ = _ - (addresses.base .text + start.text + _)
  have text : (layout.shift start).sizes.text = start.text + layout.sizes.text := rfl
  rw [text]
  push_cast
  omega

end Branches

/-- Every statement of a unit. -/
theorem statementLinked_placed (agree : SymbolsAgree start whole own addresses ownAddresses)
    (stands : StatementStands own layout instr) (stand : RelocationsStand own layout instr)
    (wholeChecked : layout.Emits instr → StatementChecked whole (layout.shift start) instr)
    (fits : ∀ boundary ∈ alignmentBoundary? instr, boundary ∣ start.get layout.section_) :
    statementLinked whole addresses (layout.shift start) instr =
      statementLinked own ownAddresses layout instr := by
  by_cases emits : layout.Emits instr
  · by_cases targets : TargetsAgree whole own instr
    · exact statementLinked_emits agree stand stands.checked emits targets
    · -- only a branch to a symbol of another unit is not the same in both
      simp only [TargetsAgree, not_forall] at targets
      obtain ⟨operand, member, label, kind, relative, differ⟩ := targets
      obtain ⟨only, ops⟩ := singleton_of_relative stands.arity relative
      rw [ops, List.mem_singleton] at member
      subst member
      cases leaves : symtableLookupEx own label with
      | some target =>
          obtain ⟨offset, section_⟩ := target
          obtain ⟨rfl, -⟩ := (stands.checked.resolved emits operand (by rw [ops]; simp)).lands
            label _ _ kind relative leaves
          rw [leaves, agree.defined label _ _ leaves] at differ
          exact absurd rfl differ
      | none =>
          cases lands : symtableLookupEx whole label with
          | none =>
              rw [leaves, lands] at differ
              exact absurd rfl differ
          | some target =>
              exact statementLinked_crosses agree emits stands.checked (wholeChecked emits) ops
                kind relative leaves lands
  · by_cases stores : layout.Stores instr
    · exact statementLinked_stores agree stand stores fits
    · rw [statementLinked_of_empty emits stores]
      exact @statementLinked_of_empty _ _ (layout.shift start) _ emits stores

end Statements

/-! ## Units and the whole -/

/-- What is read off the elements that are kept, where the others give nothing. -/
theorem flatMap_filter_of_nil {α β : Type} {keep : α → Bool} {view other : α → List β}
    {list : List α} (kept : ∀ element ∈ list, keep element = true → view element = other element)
    (dropped : ∀ element ∈ list, keep element = false → other element = []) :
    (list.filter keep).flatMap view = list.flatMap other := by
  induction list with
  | nil => rfl
  | cons head tail inductionHypothesis =>
      obtain ⟨keptHead, keptTail⟩ := List.forall_mem_cons.mp kept
      obtain ⟨droppedHead, droppedTail⟩ := List.forall_mem_cons.mp dropped
      have rest := inductionHypothesis keptTail droppedTail
      cases isKept : keep head with
      | true =>
          rw [List.filter_cons_of_pos isKept, List.flatMap_cons, List.flatMap_cons,
            keptHead isKept, rest]
      | false =>
          have notKept : ¬ keep head = true := by
            rw [isKept]
            exact Bool.false_ne_true
          rw [List.filter_cons_of_neg notKept, List.flatMap_cons, droppedHead isKept, rest,
            List.nil_append]

section Joined

variable {units : List SourceBuffer} {whole : SourceBuffer}
  {placed : SectionSizes × SourceBuffer} {layout : Layout} {instr : Instruction}

theorem Joins.agree (joins : Joins units whole) (member : placed ∈ placeUnits .zero units)
    (addresses : Addresses) :
    SymbolsAgree placed.1 (sourcePass1 whole).symtable (sourcePass1 placed.2).symtable addresses
      (unitAddresses addresses units placed.1) where
  base _ := rfl
  defined _ _ _ found := joins.defined member found
  address _ known := joins.address member addresses known

/-- A statement of a unit stands in the whole, behind the units in front. -/
theorem Joins.place (joins : Joins units whole) (member : placed ∈ placeUnits .zero units)
    (isPlace : (layout, instr) ∈ Layout.start.places (sourceInstructions placed.2).data)
    (kept : (!importsFrom units instr) = true) (notText : instr.directiveKind ≠ .text) :
    (layout.shift placed.1, instr) ∈ Layout.start.places (joinedStatements units) := by
  have joined := @flatMap_joined _
    (fun place : Layout × Instruction => if place.2.directiveKind = .text then [] else [place])
    (fun _ => rfl) units units joins.separately .start joins.boundaries
  have here : (layout.shift placed.1, instr) ∈
      (Layout.start.places (joinedStatements units)).flatMap fun place =>
        if place.2.directiveKind = .text then [] else [place] := by
    rw [show (Layout.start.places (joinedStatements units)).flatMap _ = _ from joined]
    refine List.mem_flatMap.mpr ⟨placed, member, List.mem_flatMap.mpr
      ⟨(layout.shift placed.1, instr), ?_, ?_⟩⟩
    · exact List.mem_map.mpr ⟨(layout, instr), List.mem_filter.mpr ⟨isPlace, kept⟩, rfl⟩
    · rw [if_neg notText]
      exact List.mem_singleton_self _
  obtain ⟨place, inPlaces, same⟩ := List.mem_flatMap.mp here
  split at same
  · contradiction
  · rw [List.mem_singleton.mp same]
    exact inPlaces

/-- What pass 2 checks of a statement of a unit, in the whole. -/
theorem Joins.checked (joins : Joins units whole) (member : placed ∈ placeUnits .zero units)
    (isPlace : (layout, instr) ∈ Layout.start.places (sourceInstructions placed.2).data)
    (kept : (!importsFrom units instr) = true) (emits : layout.Emits instr) :
    StatementChecked (sourcePass1 whole).symtable (layout.shift placed.1) instr := by
  have notText : instr.directiveKind ≠ .text := by
    rw [emits.1]
    decide
  obtain ⟨before, after, split, same⟩ := mem_places.mp (joins.place member isPlace kept notText)
  rw [same, joins.symtable]
  exact @statementChecked (joinedList units) joins.program before after instr split

/-- The symbols of the relocations of an accepted source are known. -/
theorem relocationsStand_of_accepted {src : SourceBuffer} (accepted : Accepted src)
    {before after : List Instruction}
    (split : (sourceInstructions src).data = before ++ instr :: after) :
    RelocationsStand (sourcePass1 src).symtable (Layout.after before) instr where
  place _ member := statement_inPlace accepted split member
  known relocation member := by
    have stands := accepted.stands split
    have inText := symbolicInText_of_relocation stands.exclusive member
    rw [@statement_relocations _ _ _ before.length stands inText] at member
    obtain ⟨reference, isReference, rfl⟩ := List.mem_map.mp member
    exact (statement_field stands inText isReference).known

/-- The linked bytes of a unit are what its statements put into the whole. -/
theorem Joins.unit_linked (joins : Joins units whole) (member : placed ∈ placeUnits .zero units)
    (addresses : Addresses) (section_ : SymbolSection) :
    placesLinked (sourcePass1 whole).symtable addresses section_ (unitPlaces units placed) =
      linkedBytes placed.2 (unitAddresses addresses units placed.1) section_ := by
  have accepted := joins.separately _ (mem_of_placeUnits member)
  rw [linkedBytes_eq accepted, placesLinked, unitPlaces, List.flatMap_map]
  apply flatMap_filter_of_nil
  · rintro ⟨layout, instr⟩ isPlace kept
    obtain ⟨before, after, split, rfl⟩ := mem_places.mp isPlace
    have linked := statementLinked_placed (joins.agree member addresses) (accepted.stands split)
      (relocationsStand_of_accepted accepted split)
      (fun emits => joins.checked member isPlace kept emits)
      (joins.boundaries placed member _ isPlace)
    dsimp only
    rw [linked]
    rfl
  · rintro ⟨layout, instr⟩ _ dropped
    rw [Bool.not_eq_false'] at dropped
    have external := external_of_imports dropped
    dsimp only
    rw [statementLinked_of_empty, ite_self]
    · intro emits
      rw [emits.1] at external
      contradiction
    · intro stores
      have isData := stores.1
      rw [external] at isData
      contradiction

/-- Units that are assembled separately, with what the others export declared `.خارجي`, link
to the bytes of one source with all their statements, and each symbol that a unit knows has
the address there that it has in the whole. -/
theorem separate_assembly_links (joins : Joins units whole) (addresses : Addresses) :
    (∀ section_, linkedBytes whole addresses section_ = linkUnits units addresses section_) ∧
      ∀ placed ∈ placeUnits .zero units, ∀ name,
        symbolKnown (sourcePass1 placed.2).symtable name = true →
          symbolAddress (sourcePass1 whole).symtable addresses name =
            symbolAddress (sourcePass1 placed.2).symtable
              (unitAddresses addresses units placed.1) name := by
  refine ⟨?_, fun placed member name known => joins.address member addresses known⟩
  intro section_
  have textLine_empty : ∀ layout : Layout,
      (if layout.section_ = section_ then
        statementLinked (sourcePass1 whole).symtable addresses layout textLine else []) = [] := by
    intro layout
    rw [statementLinked_of_empty, ite_self]
    · exact fun emits => absurd emits.1 (by decide)
    · exact fun stores => absurd stores.1 (by decide)
  have joined := @flatMap_joined _ (fun place : Layout × Instruction =>
      if place.1.section_ = section_ then
        statementLinked (sourcePass1 whole).symtable addresses place.1 place.2 else [])
    textLine_empty units units joins.separately .start joins.boundaries
  rw [linkedBytes_eq joins.together, placesLinked_of_spans joins.statements, linkUnits]
  refine Eq.trans joined ?_
  apply List.flatMap_congr
  intro placed member
  exact joins.unit_linked member addresses section_

end Joined

/-! ## Two units that refer to each other -/

/-- A unit that jumps into the next one, which calls back. -/
def jumpsOut : SourceBuffer := ⟨utf8 ".عام أ\n.خارجي ب\nأ: اقفز ب\n", none⟩

def callsBack : SourceBuffer := ⟨utf8 ".عام ب\n.خارجي أ\nب: ناد أ\n", none⟩

def jumpsAndCalls : SourceBuffer :=
  ⟨utf8 ".نص\n.عام أ\nأ: اقفز ب\n.نص\n.عام ب\nب: ناد أ\n", none⟩

theorem jumpsOut_statements : (sourceInstructions jumpsOut).data =
    [⟨.invalid, [⟨.label (utf8 "أ"), 1, 6, 7⟩], none, some (utf8 ".عام"), .global,
        1, 1, 5, 0, 0, 0⟩,
      ⟨.invalid, [⟨.label (utf8 "ب"), 2, 8, 9⟩], none, some (utf8 ".خارجي"), .external,
        2, 1, 7, 0, 0, 0⟩,
      ⟨.jmp, [⟨.label (utf8 "ب"), 3, 9, 10⟩], some (utf8 "أ"), none, .none,
        3, 4, 8, 3, 1, 2⟩] := by
  decide +kernel

theorem callsBack_statements : (sourceInstructions callsBack).data =
    [⟨.invalid, [⟨.label (utf8 "ب"), 1, 6, 7⟩], none, some (utf8 ".عام"), .global,
        1, 1, 5, 0, 0, 0⟩,
      ⟨.invalid, [⟨.label (utf8 "أ"), 2, 8, 9⟩], none, some (utf8 ".خارجي"), .external,
        2, 1, 7, 0, 0, 0⟩,
      ⟨.call, [⟨.label (utf8 "أ"), 3, 8, 9⟩], some (utf8 "ب"), none, .none,
        3, 4, 7, 3, 1, 2⟩] := by
  decide +kernel

theorem jumpsAndCalls_statements : (sourceInstructions jumpsAndCalls).data =
    [⟨.invalid, [], none, some (utf8 ".نص"), .text, 1, 1, 4, 0, 0, 0⟩,
      ⟨.invalid, [⟨.label (utf8 "أ"), 2, 6, 7⟩], none, some (utf8 ".عام"), .global,
        2, 1, 5, 0, 0, 0⟩,
      ⟨.jmp, [⟨.label (utf8 "ب"), 3, 9, 10⟩], some (utf8 "أ"), none, .none, 3, 4, 8, 3, 1, 2⟩,
      ⟨.invalid, [], none, some (utf8 ".نص"), .text, 4, 1, 4, 0, 0, 0⟩,
      ⟨.invalid, [⟨.label (utf8 "ب"), 5, 6, 7⟩], none, some (utf8 ".عام"), .global,
        5, 1, 5, 0, 0, 0⟩,
      ⟨.call, [⟨.label (utf8 "أ"), 6, 8, 9⟩], some (utf8 "ب"), none, .none,
        6, 4, 7, 6, 1, 2⟩] := by
  decide +kernel

theorem joins_jumpsAndCalls : Joins [jumpsOut, callsBack] jumpsAndCalls where
  separately := by decide +kernel
  together := by decide +kernel
  statements := by
    apply renamed_of_map
    rw [joinedStatements, List.flatMap_cons, List.flatMap_cons, List.flatMap_nil, unitStatements,
      unitStatements, jumpsOut_statements, callsBack_statements, jumpsAndCalls_statements]
    decide +kernel
  boundaries := by
    intro placed member
    apply keepsBoundaries_of_none
    have isUnit := mem_of_placeUnits member
    rcases List.mem_pair.mp isUnit with isFirst | isSecond
    · rw [isFirst, jumpsOut_statements]
      decide +kernel
    · rw [isSecond, callsBack_statements]
      decide +kernel

theorem separate_assembly_links_jumpsAndCalls :
    linkUnits [jumpsOut, callsBack] loadedLow .text =
      [0xE9, 0x00, 0x00, 0x00, 0x00, 0xE8, 0xF6, 0xFF, 0xFF, 0xFF] := by
  have together : linkedBytes jumpsAndCalls loadedLow .text =
      [0xE9, 0x00, 0x00, 0x00, 0x00, 0xE8, 0xF6, 0xFF, 0xFF, 0xFF] := by
    decide +kernel
  rw [← together]
  exact ((separate_assembly_links joins_jumpsAndCalls loadedLow).1 .text).symm

end Nazm.Passes
