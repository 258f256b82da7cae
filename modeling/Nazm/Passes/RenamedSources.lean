import Nazm.Lexer.RenamedSource
import Nazm.Passes.RenamedResults

/-!
Renamed sources through all stages.

Owns that a source stays accepted when its symbols are renamed, and that the
passes return the same for it but for the names.

Does not own which words of a source are symbols.
-/

namespace Nazm.Passes

open Nazm.Encoder Nazm.Parser Nazm.Lexer Nazm.Unicode Nazm.Diagnostics

section Sources

variable {src src' : SourceBuffer} {rename : List UInt8 → List UInt8}

/-- Names mean nothing: a renamed source is accepted, and the passes return the
same bytes, sizes, alignments and rows, and the same symbols and relocations
under the new names. -/
theorem renaming_keeps_results (accepted : Accepted src)
    (renamed : SourceRenamed rename .line src.data src'.data)
    (injective : Distinguishes rename (sourceInstructions src).data) :
    Accepted src' ∧ ResultsRenamed rename (sourceInstructions src) (sourceInstructions src') := by
  obtain ⟨pieces, pieces', spelled, spelled', lexemes⟩ := renamed.spelled false (by simp)
  have lexed' : errorHasAny (lexerLex src').errors = false := lexerLex_iff.mpr ⟨pieces', spelled'⟩
  have tokens : TokensRenamed rename .line (lexerLex src).tokens.data
      (lexerLex src').tokens.data := by
    rw [TokensRenamed, (lexerLex_spelled spelled).2, (lexerLex_spelled spelled').2]
    exact lexemes
  obtain ⟨parsed', statements⟩ := parserParse_renamed (.refl .nazm) tokens accepted.parsed
  obtain ⟨sized, encoded, results⟩ :=
    @passes_renamed _ (sourceInstructions src) (sourceInstructions src') statements injective
  exact ⟨⟨lexed', parsed', sized.mpr accepted.sized, (encoded accepted.sized).mpr accepted.encoded⟩,
    results accepted.program⟩

/-- A jump to itself, and the same with the name of an instruction for its label. -/
def selfJump : SourceBuffer := ⟨utf8 "أ: اقفز أ", none⟩

def selfJumpRenamed : SourceBuffer := ⟨utf8 "زد: اقفز زد", none⟩

/-- The renaming of the one label. -/
def toIncrement (name : List UInt8) : List UInt8 := if name = utf8 "أ" then utf8 "زد" else name

theorem selfJump_renamed : SourceRenamed toIncrement .line selfJump.data selfJumpRenamed.data := by
  have isNew : NewName (toIncrement (utf8 "أ")) :=
    ⟨by decide +kernel, by decide +kernel, by decide +kernel⟩
  have operand : SourceRenamed toIncrement .operands (utf8 "أ" ++ [])
      (toIncrement (utf8 "أ") ++ []) :=
    @SourceRenamed.reference _ _ _ _ .labelRef rfl
      (.word (by decide +kernel) (by decide) (by decide) (by decide +kernel)) isNew .nil
  have mnemonic : Spells .nazm (utf8 "اقفز") (.token (.mnemonic, utf8 "اقفز"))
      (firstCodepoint ([0x20] ++ (utf8 "أ" ++ []))) :=
    .word (by decide +kernel) (by decide +kernel) (by decide +kernel) (by decide +kernel)
  have blank : ∀ rest, Spells .nazm [0x20] .blank (firstCodepoint rest) :=
    fun rest => .blank (.inl rfl)
  have head : SourceRenamed toIncrement .statement (utf8 "اقفز" ++ ([0x20] ++ (utf8 "أ" ++ [])))
      (utf8 "اقفز" ++ ([0x20] ++ (toIncrement (utf8 "أ") ++ []))) :=
    .kept mnemonic rfl (.kept (blank _) rfl operand)
  have line := @SourceRenamed.definition toIncrement .line (utf8 "أ") _ _
    (.labelDef (by decide +kernel) (by decide +kernel)) isNew (.kept (blank _) rfl head)
  have same : utf8 "أ" ++ [0x3A] ++ ([0x20] ++ (utf8 "اقفز" ++ ([0x20] ++ (utf8 "أ" ++ [])))) =
      selfJump.data := by decide +kernel
  have same' : toIncrement (utf8 "أ") ++ [0x3A] ++
      ([0x20] ++ (utf8 "اقفز" ++ ([0x20] ++ (toIncrement (utf8 "أ") ++ [])))) =
      selfJumpRenamed.data := by decide +kernel
  rwa [same, same'] at line

theorem renaming_keeps_results_selfJump :
    Accepted selfJumpRenamed ∧
      ResultsRenamed toIncrement (sourceInstructions selfJump)
        (sourceInstructions selfJumpRenamed) := by
  have names : ∀ name ∈ programNames (sourceInstructions selfJump).data, name = utf8 "أ" := by
    decide +kernel
  exact renaming_keeps_results (by decide +kernel) selfJump_renamed
    fun first isFirst second isSecond _ => (names first isFirst).trans (names second isSecond).symm

end Sources

end Nazm.Passes
