import Nazm.Diagnostics.Error
import Nazm.Library.TextLines

/-!
The printed form of diagnostics.

Owns `find_line_range`, `print_source_context` and `error_print_all_to` of
`src/error/error.c` on a stream that takes every byte, and that the line found is the
one that splitting the source at its newlines gives.

Does not own the diagnostics, nor a source of 2 GiB, whose lines can be too long for a
precision of `printf`.
-/

namespace Nazm.Diagnostics

open TextLines
open Nazm.Unicode

/-! ## Lines -/

/-- The loop of `find_line_range`, on the bytes from `start` on. -/
def findLineFrom (wantedLine : Nat) : Nat → List UInt8 → Nat → Nat → Option (Nat × Nat)
  | 0, _, _, _ => none
  | fuel + 1, rest, start, line =>
      let length := (rest.takeWhile fun byte => byte != 0x0A).length
      if line = wantedLine then some (start, length)
      else
        match rest.drop length with
        | [] => none
        | _ :: next => findLineFrom wantedLine fuel next (start + length + 1) (line + 1)

/-- `find_line_range`: the start and the length of a line. -/
def findLineRange (source : List UInt8) (wantedLine : Nat) : Option (Nat × Nat) :=
  findLineFrom wantedLine (source.length + 1) source 0 1

/-! ## Printing -/

/-- `%.*s` of `length` bytes. -/
def precisionText (length : Nat) (text : List UInt8) : List UInt8 := cString (text.take length)

/-- `print_marker_spaces`. -/
def printMarkerSpaces (count : Nat) : List UInt8 := List.replicate count 0x20

/-- `print_source_context`; a null source is an empty one. -/
def printSourceContext (source : List UInt8) (error : NazmError) : List UInt8 :=
  if source = [] ∨ error.line = 0 then []
  else
    match findLineRange source error.line with
    | none => []
    | some (lineStart, lineLen) =>
        let markerLen := if error.endCol - error.col < 1 then 1 else error.endCol - error.col
        utf8 "  السطر │ " ++ precisionText lineLen (source.drop lineStart) ++ [0x0A] ++
          utf8 "        │ " ++ printMarkerSpaces (if 1 < error.col then error.col - 1 else 0) ++
          List.replicate markerLen 0x5E ++ utf8 " هنا\n"

/-- The first line that is printed about an error. -/
def printErrorLine (error : NazmError) : List UInt8 :=
  utf8 "خطأ في " ++ cString error.file ++ utf8 ":" ++ decimal error.line ++ utf8 ":" ++
    decimal error.col ++ utf8 ": " ++ cString error.message ++ [0x0A]

/-- The line that is printed when errors were dropped. -/
def printFatalLine : List UInt8 :=
  utf8 "خطأ: تجاوز الحد الأقصى للأخطاء (" ++ decimal nazmMaxErrors ++ utf8 ")، توقف المجمع.\n"

/-- `error_print_all_to`: the bytes that the stream takes. -/
def errorPrintAllTo (list : ErrorList) (source : List UInt8) : List UInt8 :=
  (list.errors.flatMap fun error => printErrorLine error ++ printSourceContext source error) ++
    if list.fatal then printFatalLine else []

/-! ## The line that is found -/

/-- The loop finds the line that the rest has at its place. -/
theorem findLineFrom_spec {source before rest : List UInt8} {wantedLine fuel line : Nat}
    (enough : rest.length < fuel) (le : line ≤ wantedLine) (whole : source = before ++ rest) :
    (findLineFrom wantedLine fuel rest before.length line).map
        (fun range => (source.drop range.1).take range.2) =
      (rest.splitOn 0x0A)[wantedLine - line]? := by
  induction fuel generalizing before rest line with
  | zero => exact absurd enough (Nat.not_lt_zero _)
  | succ fuel inductionHypothesis =>
      rw [findLineFrom, splitOn_eq]
      by_cases here : line = wantedLine
      · rw [if_pos here, here, Nat.sub_self, List.getElem?_cons_zero, Option.map_some, whole,
          List.drop_left]
        exact congrArg some (List.prefix_iff_eq_take.mp (List.takeWhile_prefix _)).symm
      · have further : wantedLine - line = wantedLine - (line + 1) + 1 := by omega
        have split := List.takeWhile_append_dropWhile (p := fun byte => byte != 0x0A) (l := rest)
        have dropped : rest.drop (rest.takeWhile fun byte => byte != 0x0A).length =
            rest.dropWhile fun byte => byte != 0x0A := by
          have cut := congrArg (List.drop (rest.takeWhile fun byte => byte != 0x0A).length) split
          rw [List.drop_left] at cut
          exact cut.symm
        rw [if_neg here, further, List.getElem?_cons_succ, dropped]
        by_cases present : 0x0A ∈ rest
        · rw [if_pos present, afterLine]
          cases left : rest.dropWhile fun byte => byte != 0x0A with
          | nil =>
              have absent := List.dropWhile_eq_nil_iff.mp left 0x0A present
              contradiction
          | cons newline next =>
              rw [left] at split
              have length := congrArg List.length split
              rw [List.length_append, List.length_cons] at length
              have further : source =
                  before ++ (rest.takeWhile fun byte => byte != 0x0A) ++ [newline] ++ next := by
                rw [whole, List.append_assoc, List.append_assoc, List.singleton_append]
                exact congrArg (before ++ ·) split.symm
              have later := @inductionHypothesis _ next (line + 1) (by omega) (by omega) further
              rw [List.length_append, List.length_append, List.length_singleton] at later
              exact later
        · have none : rest.dropWhile (fun byte => byte != 0x0A) = [] := by
            apply List.dropWhile_eq_nil_iff.mpr
            intro byte member
            simp only [bne_iff_ne]
            exact fun newline => present (newline ▸ member)
          rw [if_neg present, none]
          rfl

/-- The line that is found is the one of the split source, where there is one. -/
theorem findLineRange_spec {source : List UInt8} {wantedLine : Nat} (positive : 0 < wantedLine) :
    (findLineRange source wantedLine).map (fun range => (source.drop range.1).take range.2) =
      (source.splitOn 0x0A)[wantedLine - 1]? :=
  @findLineFrom_spec source [] source wantedLine (source.length + 1) 1 (Nat.lt_succ_self _)
    positive rfl

/-- The context that is printed about an error on a line of the source. -/
theorem printSourceContext_of_line {source text : List UInt8} {error : NazmError}
    (some_ : source ≠ []) (positive : 0 < error.line) (span : error.col < error.endCol)
    (isLine : (source.splitOn 0x0A)[error.line - 1]? = some text) :
    printSourceContext source error =
      utf8 "  السطر │ " ++ cString text ++ [0x0A] ++ utf8 "        │ " ++
        List.replicate (error.col - 1) 0x20 ++ List.replicate (error.endCol - error.col) 0x5E ++
        utf8 " هنا\n" := by
  have found := @findLineRange_spec source error.line positive
  rw [isLine] at found
  obtain ⟨range, isRange, isText⟩ := Option.map_eq_some_iff.mp found
  have noContext : ¬ (source = [] ∨ error.line = 0) := by
    rintro (empty | zero)
    · exact some_ empty
    · omega
  have spaces : (if 1 < error.col then error.col - 1 else 0) = error.col - 1 := by
    split <;> omega
  have markers : ¬ error.endCol - error.col < 1 := by omega
  unfold printSourceContext
  rw [if_neg noContext, isRange]
  dsimp only
  rw [if_neg markers, spaces, precisionText, isText, printMarkerSpaces]

end Nazm.Diagnostics
