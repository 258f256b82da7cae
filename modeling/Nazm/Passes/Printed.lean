import Nazm.Diagnostics.Print
import Nazm.Passes.Places

/-!
What is printed about a source.

Owns the diagnostics that `nazm_main_utf8` of `src/main.c` prints about a source that a
stage rejects, and that each of them shows its line of the source.

Does not own the stream.
-/

namespace Nazm.Passes

open TextLines
open Nazm.Lexer Nazm.Parser Nazm.Symtable Nazm.Unicode Nazm.Diagnostics

/-- The errors of the first stage that has any. -/
def sourceErrors (src : SourceBuffer) : ErrorList :=
  if errorHasAny (lexerLex src).errors then (lexerLex src).errors
  else if errorHasAny (sourceParse src).errors then (sourceParse src).errors
  else if errorHasAny (sourcePass1 src).errors then (sourcePass1 src).errors
  else (sourcePass2 src).errors

/-- The printed form of an error about a line. -/
def errorReport (error : NazmError) (line : List UInt8) : List UInt8 :=
  printErrorLine error ++ (utf8 "  السطر │ " ++ cString line ++ [0x0A] ++ utf8 "        │ " ++
    List.replicate (error.col - 1) 0x20 ++ List.replicate (error.endCol - error.col) 0x5E ++
    utf8 " هنا\n")

/-- The printed form of errors, each with the line that it names. -/
inductive Reports (lines : List (List UInt8)) : List NazmError → List UInt8 → Prop where
  | nil : Reports lines [] []
  | cons {error : NazmError} {errors : List NazmError} {line printed : List UInt8} :
      0 < error.line → lines[error.line - 1]? = some line → Reports lines errors printed →
      Reports lines (error :: errors) (errorReport error line ++ printed)

section Sources

variable {src : SourceBuffer} {name : List UInt8} {Place : Nat → Nat → Prop}

theorem sourceErrors_stand (stand : DiagnosticsAt Place name src) :
    AllStand Place name (sourceErrors src) := by
  unfold sourceErrors
  split
  · exact stand.lexer
  · split
    · exact stand.parser
    · split
      · exact stand.pass1
      · exact stand.pass2

theorem accepted_iff_sourceErrors : Accepted src ↔ errorHasAny (sourceErrors src) = false := by
  constructor
  · intro accepted
    unfold sourceErrors
    rw [accepted.lexed, accepted.parsed, accepted.sized]
    exact accepted.encoded
  · intro clean
    unfold sourceErrors at clean
    split at clean
    · next errors => exact absurd (clean.symm.trans errors) Bool.false_ne_true
    · next lexed =>
        split at clean
        · next errors => exact absurd (clean.symm.trans errors) Bool.false_ne_true
        · next parsed =>
            split at clean
            · next errors => exact absurd (clean.symm.trans errors) Bool.false_ne_true
            · next sized =>
                exact ⟨Bool.eq_false_of_not_eq_true lexed, Bool.eq_false_of_not_eq_true parsed,
                  Bool.eq_false_of_not_eq_true sized, clean⟩

/-- There is nothing wrong with an empty source. -/
theorem accepted_empty (name : Option (List UInt8)) : Accepted ⟨[], name⟩ := by
  have noEntries : (ChainedTable.empty : SymbolTable).entries = [] := by
    apply List.eq_nil_iff_forall_not_mem.mpr
    intro entry member
    have found := ChainedTable.mem_entries_iff.mp member
    rw [ChainedTable.find_empty] at found
    exact Option.some_ne_none entry found.symm
  have noStatements : sourceInstructions ⟨[], name⟩ = ⟨[], name⟩ := rfl
  have sized : (sourcePass1 ⟨[], name⟩).errors = .empty := by
    unfold sourcePass1 pass1Run reportUndefinedVisibilitySymbols validateDebugLocationFiles
    dsimp only
    rw [noStatements, pass1Walk, List.foldl_nil, List.foldl_nil, Pass1State.init]
    dsimp only
    rw [noEntries, List.foldl_nil]
  have finished : pass2Finish (sourcePass1 ⟨[], name⟩) (.ok .init) =
      (Pass2State.init.result, none) := by
    have sizes : (sourcePass1 ⟨[], name⟩).sizes = .zero := rfl
    rw [pass2Finish, sizes]
    rfl
  refine ⟨rfl, rfl, ?_, ?_⟩
  · rw [sized]
    rfl
  · have walked : pass2Walk ⟨[], name⟩ (sourcePass1 ⟨[], name⟩) [] = .ok .init := rfl
    rw [sourcePass2, noStatements, pass2Run, walked, finished]
    rfl

theorem reports_of_stand {errors : List NazmError} (some_ : src.data ≠ [])
    (stand : ∀ e ∈ errors, Stands (OnLine (lineCount src)) name e) :
    Reports (src.data.splitOn 0x0A) errors
      (errors.flatMap fun error => printErrorLine error ++ printSourceContext src.data error) := by
  induction errors with
  | nil => exact .nil
  | cons error errors inductionHypothesis =>
      obtain ⟨one, others⟩ := List.forall_mem_cons.mp stand
      obtain ⟨positive, le, -⟩ := one.place
      have inside : error.line - 1 < (src.data.splitOn 0x0A).length := by
        rw [length_splitOn]
        unfold lineCount at le
        omega
      have isLine := List.getElem?_eq_getElem inside
      rw [List.flatMap_cons, printSourceContext_of_line some_ positive one.span isLine]
      exact .cons positive isLine (inductionHypothesis others)

end Sources

/-- Of a source that is not accepted, the errors of the first stage that has any are
printed, one to sixty-four, each with the line of the source that it names and with its
columns marked below; whether some were dropped is said at the end. -/
theorem printed_errors_show_source (src : SourceBuffer) (name : List UInt8)
    (named : src.name = some name) (rejected : ¬ Accepted src) :
    ∃ printed, Reports (src.data.splitOn 0x0A) (sourceErrors src).errors printed ∧
      (sourceErrors src).errors ≠ [] ∧ (∀ e ∈ (sourceErrors src).errors, e.file = name) ∧
      errorPrintAllTo (sourceErrors src) src.data =
        printed ++ if (sourceErrors src).fatal then printFatalLine else [] := by
  have some_ : src.data ≠ [] := by
    intro empty
    apply rejected
    have whole : src = ⟨[], src.name⟩ := by
      rw [← empty]
    rw [whole]
    exact accepted_empty src.name
  have reported : (sourceErrors src).errors ≠ [] := by
    intro none
    apply rejected
    rw [accepted_iff_sourceErrors, errorHasAny, none]
    rfl
  obtain ⟨tokens, lexer⟩ := lexerLex_onLines src
  rw [named] at lexer
  have stand := sourceErrors_stand
    (diagnosticsAt_of_tokens (onLine_countsFromOne src) named tokens lexer)
  exact ⟨_, reports_of_stand some_ stand, reported, fun e member => (stand e member).file, rfl⟩

/-- What is printed about a label that is defined twice. -/
theorem printed_errors_show_source_twoLabels :
    ∃ printed, Reports (twoLabels.data.splitOn 0x0A) (sourceErrors twoLabels).errors printed ∧
      errorPrintAllTo (sourceErrors twoLabels) twoLabels.data = printed ∧
      printed = utf8 "خطأ في ب.نظم:2:1: وسم مكرر: 'أ'\n  السطر │ أ: ارجع\n        │ ^ هنا\n" := by
  obtain ⟨printed, reports, -, -, whole⟩ :=
    printed_errors_show_source twoLabels _ rfl (by decide +kernel)
  have all : (sourceErrors twoLabels).fatal = false := by decide +kernel
  rw [all, if_neg Bool.false_ne_true, List.append_nil] at whole
  refine ⟨printed, reports, whole, ?_⟩
  rw [← whole]
  decide +kernel

end Nazm.Passes
