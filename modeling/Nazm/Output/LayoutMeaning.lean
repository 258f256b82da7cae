import Nazm.Output.Coff
import Nazm.Output.Elf64
import Nazm.Output.UpToSpans
import Nazm.Parser.SourceLines

/-!
What the layout of a source means.

Owns that edits of the layout change neither the statements that the parser
returns, up to spans, nor the objects that the writers return.

Does not own the edits.
-/

namespace Nazm.Output

open Nazm.Encoder Nazm.Parser Nazm.Lexer Nazm.Passes Nazm.Unicode Nazm.Diagnostics

section Layout

variable {src src' : SourceBuffer}

/-- The parser accepts the source and gives these statements, without spans. -/
def SourceGives (src : SourceBuffer) (spanless : List Instruction) : Prop :=
  errorHasAny (sourceParse src).errors = false ∧
    (sourceInstructions src).data.map (Instruction.renamed id) = spanless

theorem sourceGives_iff {pieces : List Piece} (spelled : Spelled .nazm src.data pieces)
    {spanless : List Instruction} :
    SourceGives src spanless ↔
      Gives .nazm (canonical pieces ++ [(.eof, [])]) spanless := by
  rw [← gives_lexemes, ← parserParse_gives (lexerLex_spelled spelled).2]
  rfl

/-- What edits of the layout leave as it is. -/
structure SameMeaning (src src' : SourceBuffer) : Prop where
  lexed : errorHasAny (lexerLex src').errors = false
  parsed : errorHasAny (sourceParse src').errors = errorHasAny (sourceParse src).errors
  statements : errorHasAny (sourceParse src).errors = false →
    SameStatements (sourceInstructions src) (sourceInstructions src')
  accepted : Accepted src' ↔ Accepted src
  elf : Accepted src → outputWriteElf64 (sourceOutput src') = outputWriteElf64 (sourceOutput src)
  coff : Accepted src → outputWriteCoff (sourceOutput src') = outputWriteCoff (sourceOutput src)

/-- Edits of the layout change no statement and no object. -/
theorem layout_has_no_meaning (lexed : errorHasAny (lexerLex src).errors = false)
    (edits : Relation.ReflTransGen LayoutEdit src.data src'.data) (sameName : src'.name = src.name) :
    SameMeaning src src' := by
  obtain ⟨pieces, spelled⟩ := lexerLex_iff.mp lexed
  obtain ⟨pieces', spelled', same⟩ := sameLayout_of_edits edits pieces spelled
  have lexed' : errorHasAny (lexerLex src').errors = false := lexerLex_iff.mpr ⟨pieces', spelled'⟩
  have gives : ∀ spanless, SourceGives src' spanless ↔ SourceGives src spanless := by
    intro spanless
    rw [sourceGives_iff spelled', sourceGives_iff spelled, same]
  have statements : errorHasAny (sourceParse src).errors = false →
      SameStatements (sourceInstructions src) (sourceInstructions src') := fun parsed =>
    renamed_of_map ((gives _).mpr ⟨parsed, rfl⟩).2
  have parsed : errorHasAny (sourceParse src').errors = false ↔
      errorHasAny (sourceParse src).errors = false :=
    ⟨fun parsed => ((gives _).mp ⟨parsed, rfl⟩).1, fun parsed => ((gives _).mpr ⟨parsed, rfl⟩).1⟩
  have accepted : Accepted src' ↔ Accepted src := by
    constructor
    · rintro ⟨-, clean, sized, encoded⟩
      have program := (programAccepted_of_spans (statements (parsed.mp clean))).mp ⟨sized, encoded⟩
      exact ⟨lexed, parsed.mp clean, program.sized, program.encoded⟩
    · intro accepted
      have program := (programAccepted_of_spans (statements accepted.parsed)).mpr accepted.program
      exact ⟨lexed', parsed.mpr accepted.parsed, program.sized, program.encoded⟩
  have output : Accepted src → sourceOutput src' = sourceOutput src := by
    intro accepted
    calc sourceOutput src' = listOutput (sourceInstructions src') src.name := by
          rw [← sameName]
          rfl
      _ = sourceOutput src :=
          listOutput_of_spans (statements accepted.parsed) accepted.program src.name
  exact ⟨lexed', Bool.eq_iff_iff.mpr (by simpa using not_congr parsed), statements, accepted,
    fun accepted => by rw [output accepted], fun accepted => by rw [output accepted]⟩

/-- The two lines of a loop, and the same with CRLF and a comment. -/
def plainLoop : SourceBuffer := ⟨utf8 "أ:زد سجل_المركم\nاقفز أ", none⟩

def laidOutLoop : SourceBuffer := ⟨utf8 "أ:زد سجل_المركم\r\nاقفز أ ; back", none⟩

theorem layout_has_no_meaning_laidOutLoop : SameMeaning plainLoop laidOutLoop := by
  refine layout_has_no_meaning (by decide +kernel) ?_ rfl
  have carriage : LayoutEdit plainLoop.data (utf8 "أ:زد سجل_المركم\r\nاقفز أ") :=
    @LayoutEdit.carriage (utf8 "أ:زد سجل_المركم") (utf8 "اقفز أ")
  have blank : LayoutEdit (utf8 "أ:زد سجل_المركم\r\nاقفز أ") (utf8 "أ:زد سجل_المركم\r\nاقفز أ ") :=
    @LayoutEdit.blanks (utf8 "أ:زد سجل_المركم\r\nاقفز أ") [] [0x20]
      (List.forall_mem_singleton.mpr rfl) (.inr .file)
  have comment : LayoutEdit (utf8 "أ:زد سجل_المركم\r\nاقفز أ ") laidOutLoop.data :=
    @LayoutEdit.comment (utf8 "أ:زد سجل_المركم\r\nاقفز أ ") [] (utf8 " back")
      ⟨.of_ascii (by decide +kernel), by decide +kernel⟩ .file
  exact .tail (.tail (.single carriage) blank) comment

end Layout

end Nazm.Output
