import Nazm.Passes.Emitted

/-!
Where local branches go.

Owns that labels have the section and offset of the span of their statement,
that the displacement of a branch to a label in `.text` leads to that label,
and that every other target of a branch is reported.

Does not own branches to external symbols.
-/

namespace Nazm.Passes

open FieldEdits LittleEndian
open Nazm.Encoder Nazm.Parser Nazm.Lexer Nazm.Symtable Nazm.Unicode Nazm.Diagnostics

/-! ## Labels -/

/-- Every defined symbol has the section and offset of the span of a statement
that carries it, and so has the label of every statement that pass 1 enters. -/
structure LabelsPlaced (src : SourceBuffer) : Prop where
  carried : ∀ name offset section_,
    symtableLookupEx (sourcePass1 src).symtable name = some (offset, section_) →
    ∃ before instr after span, (sourceInstructions src).data = before ++ instr :: after ∧
      instr.label = some name ∧ (sourcePass2 src).emissions[before.length]? = some span ∧
      offset = span.offset ∧ section_ = some span.section_
  entered : ∀ before instr after name, (sourceInstructions src).data = before ++ instr :: after →
    definedLabel? instr = some name →
    ∃ span, (sourcePass2 src).emissions[before.length]? = some span ∧
      symtableLookupEx (sourcePass1 src).symtable name =
        some ((span.offset : Int), some span.section_)

theorem definedLabel?_eq_some {instr : Instruction} {name : List UInt8}
    (defined : definedLabel? instr = some name) :
    instr.label = some name ∧ EntersLabel instr := by
  rw [definedLabel?, Option.ite_none_right_eq_some] at defined
  exact ⟨defined.2, defined.1⟩

/-- A statement that enters its label stays in its section. -/
theorem EntersLabel.statementSpan_at {instr : Instruction} (enters : EntersLabel instr)
    (layout : Layout) :
    (statementSpan layout instr).section_ = layout.section_ ∧
      (statementSpan layout instr).offset = layout.offset := by
  have noSwitch : sectionSwitch? instr.directiveKind = none := by
    rcases enters with none | isData
    · rw [none]
      rfl
    · exact noSwitch_of_data isData
  have stays : layout.sectionAfter instr = layout.section_ := by
    rw [Layout.sectionAfter, noSwitch, Option.getD_none]
  exact ⟨stays, by rw [statementSpan, stays]; rfl⟩

theorem labelsPlaced {src : SourceBuffer} (accepted : Accepted src) : LabelsPlaced src where
  carried name offset section_ found := by
    obtain ⟨before, instr, after, split, defined, isOffset, isSection⟩ :=
      (pass1Run_definesLabels accepted.sized).sound name offset section_ found
    obtain ⟨isLabel, enters⟩ := definedLabel?_eq_some defined
    obtain ⟨sectionSame, offsetSame⟩ := enters.statementSpan_at (Layout.after before)
    refine ⟨before, instr, after, _, split, isLabel, accepted.emission split, ?_,
      ?_⟩
    · rw [offsetSame, isOffset]
    · rw [sectionSame, isSection]
  entered before instr after name split defined := by
    obtain ⟨sectionSame, offsetSame⟩ :=
      (definedLabel?_eq_some defined).2.statementSpan_at (Layout.after before)
    refine ⟨_, accepted.emission split, ?_⟩
    rw [sectionSame, offsetSame]
    exact (pass1Run_definesLabels accepted.sized).complete before instr after name split defined

/-! ## Branches -/

/-- A jump or call that pass 2 emits at an offset of `.text`, and the place of
the label it names. -/
structure EmittedBranch (src : SourceBuffer) (instr : Instruction) (offset size : Nat)
    (target : Int) (targetSection : Option SymbolSection) : Prop where
  relative : opcodeUsesRelativeLabel instr.opcode = true
  emitted : ∃ before after, (sourceInstructions src).data = before ++ instr :: after ∧
    (sourcePass2 src).emissions[before.length]? = some ⟨.text, offset, size⟩
  names : ∃ op label, instr.ops = [op] ∧ op.kind = .label label ∧
    symtableLookupEx (sourcePass1 src).symtable label = some (target, targetSection)

/-- The displacement of a branch: the last four bytes of its span. -/
def storedDisplacement (src : SourceBuffer) (offset size : Nat) : Int :=
  signed 32 (value (slice (sourcePass2 src).textBytes (offset + size - 4) 4))

/-- Every branch to a label in `.text` leads to it. -/
def BranchesLand (src : SourceBuffer) : Prop :=
  ∀ instr offset size target, EmittedBranch src instr offset size target (some .text) →
    (offset : Int) + size + storedDisplacement src offset size = target ∧
      ReadsAs (slice (sourcePass2 src).textBytes offset size) instr.opcode instr.ops
        (storedDisplacement src offset size) 0

/-- A target that a branch cannot reach is reported. -/
def FarTargetsReported (src : SourceBuffer) : Prop :=
  ∀ instr offset size target targetSection,
    EmittedBranch src instr offset size target targetSection →
    targetSection ≠ some .text ∨ target - (offset + size) < -2147483648 ∨
      2147483647 < target - (offset + size) →
    errorHasAny (sourcePass2 src).errors = true

section Branches

variable {src : SourceBuffer} {instr : Instruction} {offset size : Nat} {target : Int}
  {targetSection : Option SymbolSection}

/-- What pass 2 has stored for a branch, and what it has checked of its target. -/
theorem EmittedBranch.stored (accepted : Accepted src)
    (branch : EmittedBranch src instr offset size target targetSection) :
    targetSection = some .text ∧ -2147483648 ≤ target - (offset + size) ∧
      target - (offset + size) ≤ 2147483647 ∧
      BranchField instr.opcode instr.ops (target - (offset + size))
        (slice (sourcePass2 src).textBytes offset size) ∧
      (slice (sourcePass2 src).textBytes offset size).length = size := by
  obtain ⟨before, after, split, isSpan⟩ := branch.emitted
  obtain ⟨op, label, only, kind, found⟩ := branch.names
  have named : instr.opcode ≠ .invalid := by
    intro invalid
    have relative := branch.relative
    rw [invalid] at relative
    contradiction
  have member : instr ∈ (sourceInstructions src).data := by
    rw [split]
    simp
  have none := directiveKind_of_named member named
  have here := (accepted.emission split).symm.trans isSpan
  rw [Option.some.injEq] at here
  have text : (Layout.after before).section_ = .text := by
    have enters : EntersLabel instr := .inl none
    rw [← (enters.statementSpan_at _).1, here]
  have emits : (Layout.after before).Emits instr := ⟨none, named, text⟩
  have checked := accepted.checked split
  obtain ⟨bytes, encoded⟩ := checked.encoded emits
  have resolved := checked.resolved emits op (by rw [only]; exact List.mem_singleton_self op)
  have covered := accepted.spanBytes split
  rw [emits.statementBytes_eq, encoded] at covered
  rw [emits.statementSpan_eq] at here covered
  obtain ⟨-, rfl, rfl⟩ := EmissionSpan.mk.inj here
  obtain ⟨isText, lower, upper⟩ := resolved.lands label target targetSection kind branch.relative
    found
  have cast : (((Layout.after before).sizes.text + instructionSize instr : Nat) : Int) =
      ((Layout.after before).sizes.text : Int) + (instructionSize instr : Int) := by omega
  rw [cast] at lower upper
  have displacement : branchDisplacement (sourcePass1 src).symtable instr
      (Layout.after before).sizes.text =
        target - ((Layout.after before).sizes.text + instructionSize instr) := by
    obtain ⟨opKind, line, col, endCol⟩ := op
    obtain rfl : opKind = .label label := kind
    simp only [branchDisplacement, only, branch.relative, if_true, found]
    omega
  have sized := instructionSize_of_encoded encoded
  rw [instructionBytes, displacement, only] at encoded
  have field := encoderEncode_branchField branch.relative kind encoded
  have exact_ : (Int64.ofInt (target -
      ((Layout.after before).sizes.text + instructionSize instr))).toInt =
        target - ((Layout.after before).sizes.text + instructionSize instr) :=
    Int64.toInt_ofInt_of_le (by omega) (by omega)
  rw [exact_] at field
  have stored : slice (sourcePass2 src).textBytes (Layout.after before).sizes.text
      (instructionSize instr) = bytes := covered
  rw [stored, only]
  exact ⟨isText, lower, upper, field, sized⟩

theorem EmittedBranch.lands (accepted : Accepted src)
    (branch : EmittedBranch src instr offset size target targetSection) :
    (offset : Int) + size + storedDisplacement src offset size = target ∧
      ReadsAs (slice (sourcePass2 src).textBytes offset size) instr.opcode instr.ops
        (storedDisplacement src offset size) 0 := by
  obtain ⟨-, lower, upper, field, length⟩ := branch.stored accepted
  obtain ⟨front, bytes, -, -, -, reads⟩ := field
  rw [bytes, List.length_append, length_intBytes] at length
  have last : slice (sourcePass2 src).textBytes (offset + size - 4) 4 =
      intBytes 4 (target - (offset + size)) := by
    have inner := @slice_slice _ (sourcePass2 src).textBytes offset size (size - 4) 4 (by omega)
    rw [bytes] at inner
    rw [show offset + size - 4 = offset + (size - 4) by omega, ← inner,
      show size - 4 = front.length + 0 by omega, slice_append_right]
    rfl
  have displacement : storedDisplacement src offset size = target - (offset + size) := by
    rw [storedDisplacement, last]
    exact @signed_intBytes 4 _ (by omega) (by omega)
  refine ⟨by rw [displacement]; omega, ?_⟩
  have reading := reads (intBytes 4 (target - (offset + size))) (length_intBytes _ _) 0
  rw [← last] at reading
  rw [bytes, ← last]
  exact reading

end Branches

/-- Labels stand where pass 2 emits their statements, local branches lead to
their labels, and targets out of reach are reported. -/
theorem local_branches_land (src : SourceBuffer) (lexed : errorHasAny (lexerLex src).errors = false)
    (parsed : errorHasAny (sourceParse src).errors = false)
    (sized : errorHasAny (sourcePass1 src).errors = false) :
    FarTargetsReported src ∧
      (errorHasAny (sourcePass2 src).errors = false → LabelsPlaced src ∧ BranchesLand src) := by
  refine ⟨fun instr offset size target targetSection branch unreachable => ?_, fun encoded => ?_⟩
  · by_contra clean
    have accepted : Accepted src := ⟨lexed, parsed, sized, by simpa using clean⟩
    obtain ⟨text, lower, upper, -⟩ := branch.stored accepted
    rcases unreachable with outside | below | above
    · exact outside text
    · omega
    · omega
  · have accepted : Accepted src := ⟨lexed, parsed, sized, encoded⟩
    exact ⟨labelsPlaced accepted, fun instr offset size target branch => branch.lands accepted⟩

def backwardJump : SourceBuffer := ⟨utf8 "أ: ارجع\nاقفز أ\n", none⟩

theorem local_branches_land_backwardJump :
    FarTargetsReported backwardJump ∧ LabelsPlaced backwardJump ∧ BranchesLand backwardJump ∧
      storedDisplacement backwardJump 1 5 = -6 := by
  obtain ⟨reported, placed, lands⟩ := local_branches_land backwardJump (by decide +kernel)
    (by decide +kernel) (by decide +kernel) |>.imp_right (· (by decide +kernel))
  exact ⟨reported, placed, lands, by decide +kernel⟩

end Nazm.Passes
