import Mathlib.Data.List.Induction
import Nazm.Lexer.Gaps

/-!
Positions of tokens and diagnostics.

Owns the line and the column of a place in a source, lone minuses, and what each
turn of the main loop does with the counters: what it passes over, where its
diagnostics stand, and which token it pushes with which position.

Does not own the positions of a whole run.
-/

namespace Nazm.Lexer

open Nazm.Encoder Nazm.Unicode Nazm.Diagnostics

/-! ## Places -/

/-- One more than the newlines before a place. -/
def lineOf (before : List Nat) : Nat := 1 + before.count 0x0A

/-- One more than the codepoints between the start of its line and a place. -/
def colOf (before : List Nat) : Nat := 1 + (before.reverse.takeWhile fun cp => cp ≠ 0x0A).length

section Places

variable {before line front back : List Nat}

theorem lineOf_append (before line : List Nat) :
    lineOf (before ++ line) = lineOf before + line.count 0x0A := by
  rw [lineOf, lineOf, List.count_append, Nat.add_assoc]

theorem colOf_snoc (before : List Nat) (cp : Nat) :
    colOf (before ++ [cp]) = if cp = 0x0A then 1 else colOf before + 1 := by
  rw [colOf, List.reverse_append, List.reverse_singleton, List.singleton_append]
  split
  · next newline => rw [List.takeWhile_cons_of_neg (by simpa using newline), List.length_nil]
  · next notNewline =>
      rw [List.takeWhile_cons_of_pos (by simpa using notNewline), List.length_cons, colOf]
      omega

/-- The counters of the lexer count places. -/
theorem advancePosition_start (before : List Nat) :
    advancePosition (1, 1) before = (lineOf before, colOf before) := by
  induction before using List.reverseRecOn with
  | nil => rfl
  | append_singleton before cp inductionHypothesis =>
      rw [advancePosition_append, inductionHypothesis, advancePosition_cons, advancePosition_nil,
        stepPosition, colOf_snoc, lineOf_append]
      by_cases newline : cp = 0x0A
      · rw [if_pos newline, if_pos newline, newline]
        rfl
      · rw [if_neg newline, if_neg newline, List.count_singleton, if_neg (by simpa using newline)]
        rfl

end Places

/-! ## Lone minuses -/

/-- What the lexer is within, as far as minuses go. -/
inductive Region where
  | code
  | comment
  | string
  | escape
deriving DecidableEq

/-- The region behind a codepoint. -/
def Region.after : Region → Nat → Region
  | .code, cp => if cp = 0x22 then .string else if cp = 0x3B then .comment else .code
  | .comment, cp => if cp = 0x0A then .code else .comment
  | .string, cp =>
      if cp = 0x22 ∨ cp = 0x0A ∨ cp = 0x0D then .code
      else if cp = 0x5C then .escape
      else .string
  | .escape, _ => .string

/-- Outside of strings and comments, some minus has no digit behind it. -/
def hasLoneMinus : Region → List Nat → Bool
  | _, [] => false
  | region, cp :: cps =>
      (decide (region = .code ∧ cp = 0x2D) && !isNumberStart (nextCp cps)) ||
        hasLoneMinus (region.after cp) cps

section Regions

variable {cps used left : List Nat} {cp : Nat}

/-- A codepoint that starts no region. -/
def isOrdinary (cp : Nat) : Bool := decide (cp ∉ [0x2D, 0x22, 0x3B])

theorem hasLoneMinus_cons {region : Region} (notMinus : region ≠ .code ∨ cp ≠ 0x2D) :
    hasLoneMinus region (cp :: cps) = hasLoneMinus (region.after cp) cps := by
  rw [hasLoneMinus, decide_eq_false, Bool.false_and, Bool.false_or]
  rintro ⟨isCode, isMinus⟩
  rcases notMinus with other | other <;> contradiction

theorem hasLoneMinus_ordinary (ordinary : ∀ cp ∈ used, isOrdinary cp = true) :
    hasLoneMinus .code (used ++ left) = hasLoneMinus .code left := by
  induction used with
  | nil => rfl
  | cons cp used inductionHypothesis =>
      obtain ⟨here, rest⟩ := List.forall_mem_cons.mp ordinary
      simp only [isOrdinary, List.mem_cons, List.not_mem_nil, or_false, not_or,
        decide_eq_true_eq] at here
      rw [List.cons_append, hasLoneMinus_cons (.inr here.1), Region.after, if_neg here.2.1,
        if_neg here.2.2, inductionHypothesis rest]

/-- Up to its end a comment has no lone minus. -/
theorem hasLoneMinus_comment (cps : List Nat) :
    hasLoneMinus .comment cps = hasLoneMinus .code (cps.dropWhile fun cp => !endsComment cp) := by
  induction cps with
  | nil => rfl
  | cons cp cps inductionHypothesis =>
      rw [hasLoneMinus_cons (.inl (by decide)), Region.after]
      by_cases ends : cp = 0x0A
      · rw [if_pos ends, List.dropWhile_cons_of_neg (by simp [endsComment, ends]), ends,
          hasLoneMinus_cons (.inr (by decide))]
        rfl
      · rw [if_neg ends, List.dropWhile_cons_of_pos (by simp [endsComment, ends]),
          inductionHypothesis]

theorem ordinary_inNumber (isPart : inNumber cp = true) : isOrdinary cp = true := by
  by_contra special
  simp only [isOrdinary, decide_eq_true_eq, not_not] at special
  revert isPart
  have table : ∀ cp ∈ [0x2D, 0x22, 0x3B], inNumber cp = false := by decide
  rw [table cp special]
  exact Bool.noConfusion

theorem ordinary_continues (continues : continuesDirective cp = true) : isOrdinary cp = true := by
  by_contra special
  simp only [isOrdinary, decide_eq_true_eq, not_not] at special
  revert continues
  have table : ∀ cp ∈ [0x2D, 0x22, 0x3B], continuesDirective cp = false := by decide
  rw [table cp special]
  exact Bool.noConfusion

end Regions

/-! ## Moves -/

/-- The diagnostics added on the way over some codepoints stand at places on it. -/
def ReportsAlong (before after : Lexer) (used : List Nat) : Prop :=
  (before.errors.fatal = true → after.errors.fatal = true) ∧
  ∃ more, after.errors.errors = before.errors.errors ++ more ∧
    ∀ e ∈ more, ∃ front back, used = front ++ back ∧
      (e.line, e.col) = advancePosition (cursorPosition before) front

/-- The cursor passed over some codepoints, counting them, and pushed nothing. -/
structure Moves (before after : Lexer) (used : List Nat) : Prop where
  text : ∃ bytes, before.rest = bytes ++ after.rest ∧ Codepoints bytes used
  position : cursorPosition after = advancePosition (cursorPosition before) used
  out : after.out = before.out
  reports : ReportsAlong before after used

section Moves

variable {lx before middle after : Lexer} {used first second front back : List Nat}

theorem Passes.moves (passes : Passes before after used) : Moves before after used where
  text := passes.text
  position := passes.position
  out := passes.out
  reports := by
    refine ⟨fun fatal => by rw [passes.errors]; exact fatal, [], ?_, fun _ member => ?_⟩
    · rw [passes.errors, List.append_nil]
    · exact absurd member List.not_mem_nil

theorem Moves.trans (one : Moves before middle first) (two : Moves middle after second) :
    Moves before after (first ++ second) where
  text := by
    obtain ⟨front, frontSplit, isFront⟩ := one.text
    obtain ⟨back, backSplit, isBack⟩ := two.text
    exact ⟨front ++ back, by rw [frontSplit, backSplit, List.append_assoc], isFront.append isBack⟩
  position := by rw [two.position, one.position, advancePosition_append]
  out := two.out.trans one.out
  reports := by
    obtain ⟨fatal, more, errors, along⟩ := one.reports
    obtain ⟨fatal', more', errors', along'⟩ := two.reports
    refine ⟨fatal' ∘ fatal, more ++ more', by rw [errors', errors, List.append_assoc], ?_⟩
    intro e member
    rcases List.mem_append.mp member with early | late
    · obtain ⟨front, back, rfl, isPosition⟩ := along e early
      exact ⟨front, back ++ second, by rw [List.append_assoc], isPosition⟩
    · obtain ⟨front, back, rfl, isPosition⟩ := along' e late
      refine ⟨first ++ front, back, by rw [List.append_assoc], ?_⟩
      rw [isPosition, one.position, advancePosition_append]

/-- What a report leaves behind. -/
theorem errorAddSpan_cases (list : ErrorList) (file : Option (List UInt8)) (line col endCol : Nat)
    (msg : List UInt8) :
    (list.fatal = true → (errorAddSpan list file line col endCol msg).fatal = true) ∧
    ∃ more, (errorAddSpan list file line col endCol msg).errors = list.errors ++ more ∧
      (∀ e ∈ more, e.line = line ∧ e.col = col) ∧
      ((errorAddSpan list file line col endCol msg).fatal = true ∨ more ≠ []) := by
  unfold errorAddSpan
  split
  · exact ⟨fun _ => rfl, [], (List.append_nil _).symm, fun _ member => absurd member (by simp),
      .inl rfl⟩
  · refine ⟨id, _, rfl, ?_, .inr (List.cons_ne_nil _ _)⟩
    simp

/-- A report at a place on the way. -/
theorem Moves.report (moves : Moves lx after (front ++ back)) {line col : Nat}
    (here : (line, col) = advancePosition (cursorPosition lx) front) (endCol : Nat)
    (msg : List UInt8) : Moves lx (lexErrorAt after line col endCol msg) (front ++ back) where
  text := moves.text
  position := moves.position
  out := moves.out
  reports := by
    obtain ⟨fatal, more, errors, along⟩ := moves.reports
    obtain ⟨fatal', more', errors', isHere, -⟩ :=
      errorAddSpan_cases after.errors after.name line col endCol msg
    refine ⟨fatal' ∘ fatal, more ++ more', ?_, ?_⟩
    · rw [← List.append_assoc, ← errors]
      exact errors'
    · intro e member
      rcases List.mem_append.mp member with early | late
      · exact along e early
      · obtain ⟨isLine, isCol⟩ := isHere e late
        exact ⟨front, back, rfl, by rw [isLine, isCol, here]⟩

/-- A report at the start. -/
theorem Moves.report_start (moves : Moves lx after used) (endCol : Nat) (msg : List UInt8) :
    Moves lx (lexErrorAt after lx.line lx.col endCol msg) used :=
  @Moves.report lx after [] used moves _ _ rfl endCol msg

/-- A report where the cursor stands. -/
theorem Moves.report_end (moves : Moves lx after used) (endCol : Nat) (msg : List UInt8) :
    Moves lx (lexErrorAt after after.line after.col endCol msg) used := by
  have whole := moves
  rw [← List.append_nil used] at whole ⊢
  exact whole.report moves.position endCol msg

/-- On one line the column counts what was passed over. -/
theorem Moves.col (moves : Moves lx after used) (oneLine : 0x0A ∉ used) :
    after.col = lx.col + used.length := by
  have position := moves.position
  rw [advancePosition_line oneLine] at position
  exact (Prod.mk.inj position).2

end Moves

end Nazm.Lexer
