import Nazm.Output.CoffRecovered
import Nazm.Output.LinkedObjects

/-!
Alignment in memory.

Owns what `.محاذاة` promises: the offsets after it, the padding it puts before
them, the alignments that both writers record for the section, and the addresses
that follow from these, and that an object keeps the promise exactly where it
has the section.

Does not own how the alignment of a section is collected.
-/

namespace Nazm.Output

open FieldEdits
open Nazm.Encoder Nazm.Parser Nazm.Lexer Nazm.Symtable Nazm.Unicode Nazm.Passes

variable {src : SourceBuffer}

/-! ## Padding -/

/-- The padding leads to the next multiple of the boundary. -/
theorem alignmentPadding_spec {boundary : Nat} (positive : 0 < boundary) (offset : Nat) :
    boundary ∣ offset + alignmentPadding boundary offset ∧
      alignmentPadding boundary offset < boundary ∧
      ∀ padding, boundary ∣ offset + padding → alignmentPadding boundary offset ≤ padding := by
  have small := Nat.mod_lt offset positive
  have split := Nat.div_add_mod offset boundary
  have padded : alignmentPadding boundary offset =
      if offset % boundary = 0 then 0 else boundary - offset % boundary := by
    rw [alignmentPadding]
    split
    · next zero => rw [zero, Nat.sub_zero, Nat.mod_self]
    · next some_ => exact Nat.mod_eq_of_lt (by omega)
  rw [padded]
  refine ⟨?_, by split <;> omega, fun padding multiple => ?_⟩
  · split
    · next zero => exact Nat.dvd_of_mod_eq_zero (by rw [Nat.add_zero]; exact zero)
    · refine ⟨offset / boundary + 1, ?_⟩
      rw [Nat.mul_add, Nat.mul_one]
      omega
  · split
    · exact Nat.zero_le _
    · next some_ =>
        by_contra less
        have between : (offset + padding) % boundary = offset % boundary + padding := by
          have form : offset + padding =
              boundary * (offset / boundary) + (offset % boundary + padding) := by omega
          rw [form, Nat.mul_add_mod, Nat.mod_eq_of_lt (by omega)]
        have zero := Nat.mod_eq_zero_of_dvd multiple
        omega

section Elf

variable {contents : ElfContents}

end Elf

section Coff

variable {contents : CoffContents}

end Coff

/-- Statements that take no bytes of a section. -/
def TakesNothing (section_ : SymbolSection) (layout : Layout) (statements : List Instruction) :
    Prop :=
  ∀ front instr back, statements = front ++ instr :: back →
    (front.foldl Layout.place layout).section_ = section_ →
    (front.foldl Layout.place layout).statementSize instr = 0

theorem get_of_takesNothing {section_ : SymbolSection} {layout : Layout}
    {statements : List Instruction} (nothing : TakesNothing section_ layout statements) :
    (statements.foldl Layout.place layout).sizes.get section_ = layout.sizes.get section_ := by
  induction statements using List.reverseRecOn with
  | nil => rfl
  | append_singleton front instr inductionHypothesis =>
      have earlier := inductionHypothesis fun first other back split =>
        nothing first other (back ++ [instr]) (by rw [split]; simp)
      have last := nothing front instr [] rfl
      rw [List.foldl_append, List.foldl_cons, List.foldl_nil, Layout.place, SectionSizes.get_add]
      split
      · next here => rw [last here, Nat.add_zero, earlier]
      · exact earlier

theorem size_of_alignment (layout : Layout) {instr : Instruction} {boundary : Nat}
    (kind : instr.directiveKind = .alignment)
    (isBoundary : alignmentBoundary? instr = some boundary) (positive : 0 < boundary)
    (small : boundary ≤ 4096) :
    layout.statementSize instr = alignmentPadding boundary layout.offset := by
  have spec := (alignmentPadding_spec positive layout.offset).2.1
  have size : dataDirectiveSizeAt instr layout.offset =
      alignmentPadding boundary layout.offset := by
    rw [dataDirectiveSizeAt, isBoundary]
    exact asInt_of_small (by omega) (by omega)
  rw [Layout.statementSize, if_neg (by rw [kind]; decide), if_pos (by rw [kind]; rfl), size]
  omega

/-- A `.محاذاة` of an accepted source. -/
structure AlignmentDirective (src : SourceBuffer) (before : List Instruction)
    (instr : Instruction) (after : List Instruction) (boundary : Nat) : Prop where
  accepted : Accepted src
  split : (sourceInstructions src).data = before ++ instr :: after
  kind : instr.directiveKind = .alignment
  isBoundary : alignmentBoundary? instr = some boundary
  positive : 0 < boundary
  isAlignment : IsAlignment boundary
  notText : (Layout.after before).section_ ≠ .text

namespace AlignmentDirective

variable {object : ObjectView} {before after : List Instruction} {instr : Instruction}
  {boundary : Nat}

theorem size (directive : AlignmentDirective src before instr after boundary) :
    (Layout.after before).statementSize instr =
      alignmentPadding boundary (Layout.after before).offset :=
  size_of_alignment _ directive.kind directive.isBoundary directive.positive
    directive.isAlignment.le

/-- Nothing moves the section until its next bytes. -/
theorem there (directive : AlignmentDirective src before instr after boundary)
    {between : List Instruction} (nothing : TakesNothing (Layout.after before).section_
      (Layout.after (before ++ [instr])) between) :
    boundary ∣ (Layout.after (before ++ instr :: between)).sizes.get
      (Layout.after before).section_ := by
  have same := get_of_takesNothing nothing
  have walked : Layout.after (before ++ instr :: between) =
      between.foldl Layout.place (Layout.after (before ++ [instr])) := by
    rw [Layout.after, Layout.after, ← List.foldl_append, List.append_assoc,
      List.singleton_append]
  rw [walked, same, Layout.after_snoc, Layout.place, SectionSizes.get_add, if_pos rfl,
    directive.size]
  exact (alignmentPadding_spec directive.positive _).1

theorem zero (directive : AlignmentDirective src before instr after boundary)
    (notBss : (Layout.after before).section_ ≠ .bss) :
    slice ((sourcePass2 src).bytesIn (Layout.after before).section_) (Layout.after before).offset
      ((Layout.after before).statementSize instr) =
        List.replicate ((Layout.after before).statementSize instr) 0 := by
  have notText := directive.notText
  have stores : (Layout.after before).Stores instr := by
    refine ⟨by rw [directive.kind]; rfl, ?_⟩
    cases section_ : (Layout.after before).section_ <;> simp [section_] at notBss notText ⊢
  have bytes := directive.accepted.spanBytes directive.split
  rw [stores.statementSpan_eq, stores.statementBytes_eq, Pass2Result.spanBytes] at bytes
  refine bytes.trans ?_
  rw [dataDirectiveBytes, directive.kind]
  dsimp only
  rw [directive.isBoundary, directive.size]

end AlignmentDirective

end Nazm.Output
