import Nazm.Lexer.ExactPositions
import Nazm.Parser.GrammarAccepts

/-!
The lines that tokens and statements stand on.

Owns that every token of a text stands on a line of it, whether or not its
column is exact, and that a statement stands on the line of one of its tokens.

Does not own columns.
-/

namespace Nazm.Lexer

open Nazm.Unicode Nazm.Diagnostics Nazm.Parser

/-! ## Tokens -/

theorem advancePosition_line_count (position : Nat × Nat) (cps : List Nat) :
    (advancePosition position cps).1 = position.1 + cps.count 0x0A := by
  induction cps generalizing position with
  | nil => rfl
  | cons cp cps inductionHypothesis =>
      rw [advancePosition_cons, inductionHypothesis, stepPosition, List.count_cons]
      by_cases newline : cp = 0x0A
      · rw [if_pos newline, if_pos (by simpa using newline)]
        omega
      · rw [if_neg newline, if_neg (by simpa using newline)]
        rfl

theorem lineOf_pos (before : List Nat) : 0 < lineOf before := by
  unfold lineOf
  omega

theorem lineOf_le_append (before used : List Nat) : lineOf before ≤ lineOf (before ++ used) := by
  rw [lineOf_append]
  exact Nat.le_add_right _ _

section Runs

variable {lx middle after : Lexer} {cps before used left : List Nat}

/-- The line counter is right, and every token stands on a line up to there. -/
structure LinesUpTo (before : List Nat) (lx : Lexer) : Prop where
  line : lx.line = lineOf before
  tokens : ∀ token ∈ lx.out, 0 < token.line ∧ token.line ≤ lineOf before

theorem LinesUpTo.moved (lines : LinesUpTo before lx) (moves : Moves lx middle used) :
    LinesUpTo (before ++ used) middle where
  line := by
    have counted : middle.line = (advancePosition (cursorPosition lx) used).1 :=
      congrArg Prod.fst moves.position
    rw [counted, advancePosition_line_count, lineOf_append, ← lines.line]
    rfl
  tokens token member := by
    rw [moves.out] at member
    obtain ⟨positive, le⟩ := lines.tokens token member
    exact ⟨positive, Nat.le_trans le (lineOf_le_append before used)⟩

/-- A token pushed on a line that was passed. -/
theorem LinesUpTo.push (lines : LinesUpTo before lx) (type : TokenType) (value : List UInt8)
    {line : Nat} (positive : 0 < line) (le : line ≤ lineOf before) (col endCol : Nat) :
    LinesUpTo before (pushTokenValue lx type value line col endCol) where
  line := lines.line
  tokens token member := by
    rcases List.mem_append.mp member with earlier | last
    · exact lines.tokens token earlier
    · rw [List.mem_singleton.mp last]
      exact ⟨positive, le⟩

theorem Turn.lines (turn : Turn lx after used left) (lines : LinesUpTo before lx) :
    LinesUpTo (before ++ used) after := by
  obtain ⟨middle, moves, -, outcome⟩ := turn.moved
  have next := lines.moved moves
  rcases outcome with rfl | ⟨lexeme, _, _, _, _, _, _, rfl⟩
  · exact next
  · refine next.push _ _ ?_ ?_ _ _
    · rw [lines.line]
      exact lineOf_pos before
    · rw [lines.line]
      exact lineOf_le_append before used

/-- A lone minus only counts its column twice. -/
theorem LinesUpTo.lone (lines : LinesUpTo before lx) (view : View lx (0x2D :: left)) :
    LinesUpTo (before ++ [0x2D])
      (pushTokenValue { skipCp lx with col := lx.col + 2 } .minus [0x2D] lx.line lx.col
        (lx.col + 1)) := by
  obtain ⟨passes, -⟩ := skipCp_passes view
  obtain ⟨line, tokens⟩ := lines.moved passes.moves
  have skipped : LinesUpTo (before ++ [0x2D]) { skipCp lx with col := lx.col + 2 } := ⟨line, tokens⟩
  refine skipped.push _ _ ?_ ?_ _ _
  · rw [lines.line]
    exact lineOf_pos before
  · rw [lines.line]
    exact lineOf_le_append before _

theorem lexLoop_lines (fuel : Nat) (view : View lx left) (enough : left.length ≤ fuel)
    (whole : cps = before ++ left) (lines : LinesUpTo before lx) :
    LinesUpTo cps (lexLoop fuel lx) := by
  induction fuel generalizing lx left before with
  | zero =>
      obtain rfl := List.length_eq_zero_iff.mp (Nat.le_zero.mp enough)
      rw [List.append_nil] at whole
      exact whole ▸ lines
  | succ fuel inductionHypothesis =>
      rw [lexLoop, atEnd_of_view view]
      cases left with
      | nil =>
          rw [List.append_nil] at whole
          exact whole ▸ lines
      | cons cp left =>
          rw [List.isEmpty_cons, if_neg (by decide)]
          rcases lexStep_turn view with ⟨rfl, -, result⟩ | ⟨used, rest, split, turn⟩
          · have next := (lone_extends view lx.line lx.col (lx.col + 1)).1
            have further := lines.lone view
            rw [← result] at next further
            exact inductionHypothesis next (Nat.le_of_succ_le_succ enough) (by rw [whole]; simp)
              further
          · rw [split] at whole enough
            rw [List.length_append] at enough
            have some_ := List.length_pos_iff.mpr turn.nonempty
            exact inductionHypothesis turn.view (by omega) (by rw [whole, List.append_assoc])
              (turn.lines lines)

end Runs

/-! ## The lines of a source -/

/-- The newlines of a text are its LF bytes. -/
theorem count_newline {text : List UInt8} {cps : List Nat} (isText : Codepoints text cps) :
    text.count 0x0A = cps.count 0x0A := by
  induction isText with
  | nil => rfl
  | @cons bytes text cp cps encodes _ inductionHypothesis =>
      rw [List.count_append, inductionHypothesis, List.count_cons, Nat.add_comm]
      congr 1
      by_cases newline : cp = 0x0A
      · subst newline
        rw [encodes.eq_ascii (by decide)]
        rfl
      · have absent : (0x0A : UInt8) ∉ bytes := fun member =>
          newline (encodes.eq_of_mem member (by decide)).2
        rw [List.count_eq_zero_of_not_mem absent, if_neg (by simpa using newline)]

/-- Every token stands on a line of the source. -/
theorem lexerLex_lines {src : SourceBuffer} {cps : List Nat} (isText : Codepoints src.data cps) :
    ∀ token ∈ (lexerLex src).tokens.data, 0 < token.line ∧ token.line ≤ lineOf cps := by
  have view : View ⟨src.data, 1, 1, [], .empty, src.name⟩ cps := isText
  have whole : cps = [] ++ cps := rfl
  have start : LinesUpTo [] ⟨src.data, 1, 1, [], .empty, src.name⟩ :=
    ⟨rfl, fun _ member => absurd member List.not_mem_nil⟩
  have run := lexLoop_lines src.data.length view (Codepoints.length_le isText) whole start
  refine (run.push .eof [] ?_ ?_ _ _).tokens
  · rw [run.line]
    exact lineOf_pos cps
  · exact Nat.le_of_eq run.line

end Nazm.Lexer

namespace Nazm.Parser

open Nazm.Lexer Nazm.Unicode Nazm.Diagnostics

/-! ## Statements -/

section Grammar

variable {vocabulary : Vocabulary} {text tokens : List Token} {start instr : Instruction}

theorem StatementText.instructionLine (isText : StatementText vocabulary start text instr) :
    instr.line = start.line := by
  cases isText <;> rfl

theorem LineText.instructionLine (isText : LineText vocabulary text instr) :
    ∃ token ∈ text, instr.line = token.line := by
  cases isText with
  | @statement t _ _ isStatement => exact ⟨t, List.mem_cons_self, isStatement.instructionLine⟩
  | @label t _ => exact ⟨t, List.mem_cons_self, rfl⟩
  | @labelled _ t _ _ _ isStatement =>
      exact ⟨t, List.mem_cons_of_mem _ List.mem_cons_self, isStatement.instructionLine⟩

theorem ProgramText.instructionLine {statements : List Instruction}
    (isText : ProgramText vocabulary tokens statements) :
    ∀ instr ∈ statements, ∃ token ∈ tokens, instr.line = token.line := by
  induction isText with
  | done => exact fun _ member => absurd member List.not_mem_nil
  | newline _ _ inductionHypothesis =>
      intro instr member
      obtain ⟨token, inTokens, same⟩ := inductionHypothesis instr member
      exact ⟨token, List.mem_cons_of_mem _ inTokens, same⟩
  | line isLine _ _ inductionHypothesis =>
      intro instr member
      rcases List.mem_cons.mp member with rfl | later
      · obtain ⟨token, inText, same⟩ := isLine.instructionLine
        exact ⟨token, List.mem_append_left _ inText, same⟩
      · obtain ⟨token, inTokens, same⟩ := inductionHypothesis instr later
        exact ⟨token, List.mem_append_right _ inTokens, same⟩

end Grammar

/-- A statement stands on the line of one of the tokens. -/
theorem parserParse_lines {tokens : TokenArray}
    (clean : errorHasAny (parserParse tokens).errors = false) :
    ∀ instr ∈ (parserParse tokens).instructions.data,
      ∃ token ∈ tokens.data, instr.line = token.line := by
  have isProgram := parserParse_iff.mp ⟨clean, rfl⟩
  exact isProgram.instructionLine

end Nazm.Parser
