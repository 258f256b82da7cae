import Mathlib.Logic.Basic
import Nazm.Diagnostics.Joined
import Nazm.Parser.GrammarReads

/-!
Lines of tokens.

Owns that a line is parsed alike whatever stands before and behind it, the cut of
a token stream into lines, and that the parser works line by line.

Does not own what a line means.
-/

namespace Nazm.Parser

open Nazm.Encoder Nazm.Unicode Nazm.Diagnostics Nazm.Lexer

/-! ## A line in two places -/

/-- A line end, what follows it in two streams, and what the second stream
reported and gave before the line. -/
structure TwoPlaces where
  stop : Token
  ends : isLineEnd stop = true
  after : List Token
  after' : List Token
  errors : ErrorList
  out : List Instruction
  name : List UInt8

/-- Two parsers at one place of the line, at most `count` tokens before its end. -/
structure Alongside (places : TwoPlaces) (count : Nat) (p q : Parser) : Prop where
  line : ∃ text, p.tokens = text ++ places.stop :: places.after ∧
    q.tokens = text ++ places.stop :: places.after' ∧
    (∀ t ∈ text, isLineEnd t = false) ∧ text.length ≤ count
  errors : q.errors = places.errors.join p.errors
  out : q.out = places.out ++ p.out
  name : p.srcName = places.name
  name' : q.srcName = places.name

/-- Two results of an operand. -/
structure AlongsideOperand (places : TwoPlaces) (count : Nat) (one two : Parser × Option Operand) :
    Prop where
  parser : Alongside places count one.1 two.1
  operand : two.2 = one.2

namespace Alongside

variable {places : TwoPlaces} {count : Nat} {p q : Parser}

theorem srcName (along : Alongside places count p q) : q.srcName = p.srcName :=
  along.name'.trans along.name.symm

theorem mono (along : Alongside places count p q) {more : Nat} (le : count ≤ more) :
    Alongside places more p q := by
  obtain ⟨text, one, two, inLine, bound⟩ := along.line
  exact ⟨⟨text, one, two, inLine, Nat.le_trans bound le⟩, along.errors, along.out, along.name, along.name'⟩

theorem cur (along : Alongside places count p q) : cur q = cur p := by
  obtain ⟨text, one, two, -, -⟩ := along.line
  rw [Parser.cur, Parser.cur, one, two]
  cases text <;> rfl

theorem curType (along : Alongside places count p q) : curType q = curType p :=
  congrArg Token.type along.cur

/-- A token of the line is passed in both. -/
theorem advance (along : Alongside places count p q) (inLine : isLineEnd (Parser.cur p) = false) :
    Alongside places (count - 1) (advance p) (advance q) := by
  obtain ⟨text, one, two, all, bound⟩ := along.line
  have notEof : (Parser.cur p).type ≠ .eof := by
    rw [isLineEnd, Bool.or_eq_false_iff, decide_eq_false_iff_not, decide_eq_false_iff_not] at inLine
    exact inLine.2
  cases text with
  | nil =>
      have atStop : Parser.cur p = places.stop := by
        rw [Parser.cur, one]
        rfl
      rw [atStop, places.ends] at inLine
      contradiction
  | cons t text =>
      rw [Parser.advance, Parser.advance, along.cur, if_neg notEof, if_neg notEof, one, two]
      rw [List.length_cons] at bound
      exact ⟨⟨text, rfl, rfl, fun other member => all other (List.mem_cons_of_mem _ member),
        by omega⟩, along.errors, along.out, along.name, along.name'⟩

theorem syncToNewline (along : Alongside places count p q) :
    Alongside places 0 (syncToNewline p) (syncToNewline q) := by
  obtain ⟨text, one, two, all, -⟩ := along.line
  have dropped : ∀ after : List Token, (text ++ places.stop :: after).dropWhile
      (fun token => !isLineEnd token) = places.stop :: after := by
    intro after
    rw [List.dropWhile_append_of_pos fun t member => by rw [all t member]; rfl,
      List.dropWhile_cons_of_neg (by simp [places.ends])]
  refine ⟨⟨[], ?_, ?_, fun _ member => absurd member List.not_mem_nil, Nat.le_refl _⟩,
    along.errors, along.out, along.name, along.name'⟩
  · rw [Parser.syncToNewline, one]
    exact dropped _
  · rw [Parser.syncToNewline, two]
    exact dropped _

theorem report (along : Alongside places count p q) (line col endCol : Nat) (msg : List UInt8) :
    Alongside places count
      { p with errors := errorAddSpan p.errors (some p.srcName) line col endCol msg }
      { q with errors := errorAddSpan q.errors (some q.srcName) line col endCol msg } := by
  refine ⟨along.line, ?_, along.out, along.name, along.name'⟩
  dsimp only
  rw [along.srcName, along.errors]
  exact errorAddSpan_join _ _ _ _ _ _ _

theorem tokenError (along : Alongside places count p q) (t : Token) (msg : List UInt8) :
    Alongside places count (tokenError p t msg) (tokenError q t msg) :=
  along.report _ _ _ _

theorem failOperand (along : Alongside places count p q) (t : Token) (msg : List UInt8) :
    AlongsideOperand places count (failOperand p t msg) (failOperand q t msg) :=
  ⟨(along.tokenError t msg).syncToNewline.mono (Nat.zero_le _), rfl⟩

/-- A token of a type that ends no line. -/
theorem inLine_of_type {t : Token} {type : TokenType} (isType : t.type = type)
    (other : (decide (type = .newline) || decide (type = .eof)) = false) : isLineEnd t = false := by
  rw [isLineEnd, isType]
  exact other

theorem passed (along : Alongside places count p q) (inLine : isLineEnd (Parser.cur p) = false)
    (op : Operand) :
    AlongsideOperand places (count - 1) (Parser.advance p, some op) (Parser.advance q, some op) :=
  ⟨along.advance inLine, rfl⟩

theorem closeMemory (along : Alongside places count p q) (kind : OperandKind) (openTok : Token)
    (unclosed : List UInt8) :
    AlongsideOperand places count (closeMemory p kind openTok unclosed)
      (closeMemory q kind openTok unclosed) := by
  unfold Parser.closeMemory
  rw [along.curType, along.cur]
  split
  · exact along.failOperand _ _
  · next close =>
      have isClose := not_not.mp close
      have passed := along.advance (inLine_of_type isClose rfl)
      exact ⟨passed.mono (Nat.sub_le _ _), rfl⟩

theorem parseRipOperand (along : Alongside places count p q) (openTok : Token) :
    AlongsideOperand places count (parseRipOperand p openTok) (parseRipOperand q openTok) := by
  unfold Parser.parseRipOperand
  rw [along.curType, along.cur]
  split
  · exact along.failOperand _ _
  · next isPlus =>
      have next := (along.advance (inLine_of_type (not_not.mp isPlus) rfl)).mono (Nat.sub_le _ _)
      dsimp only
      rw [next.curType, next.cur]
      split
      · exact next.failOperand _ _
      · next isName =>
          have inLine : isLineEnd (Parser.cur (Parser.advance p)) = false := by
            rw [not_and_or, not_not, not_not] at isName
            rcases isName with isRef | isMnemonic
            · exact inLine_of_type isRef rfl
            · exact inLine_of_type isMnemonic rfl
          exact ((next.advance inLine).mono (Nat.sub_le _ _)).closeMemory _ _ _

theorem closeDisplacement (along : Alongside places count p q) (base : RegId) (displacement : Int)
    (token openTok : Token) :
    AlongsideOperand places count (closeDisplacement p base displacement token openTok)
      (closeDisplacement q base displacement token openTok) := by
  unfold Parser.closeDisplacement
  split
  · exact along.failOperand _ _
  · exact along.closeMemory _ _ _

theorem parseBaseOperand (along : Alongside places count p q) (openTok : Token) (base : RegId) :
    AlongsideOperand places count (parseBaseOperand p openTok base)
      (parseBaseOperand q openTok base) := by
  unfold Parser.parseBaseOperand
  rw [along.curType, along.cur]
  split
  · next isSign =>
      have inLine : isLineEnd (Parser.cur p) = false := by
        rcases isSign with isPlus | isMinus
        · exact inLine_of_type isPlus rfl
        · exact inLine_of_type isMinus rfl
      have next := (along.advance inLine).mono (Nat.sub_le _ _)
      dsimp only
      rw [next.curType, next.cur]
      split
      · exact next.failOperand _ _
      · next isNumber =>
          have passed := next.advance (inLine_of_type (not_not.mp isNumber) rfl)
          exact (passed.mono (Nat.sub_le _ _)).closeDisplacement _ _ _ _
  · split
    · next isNumber =>
        have passed := along.advance (inLine_of_type isNumber rfl)
        exact (passed.mono (Nat.sub_le _ _)).closeDisplacement _ _ _ _
    · exact along.closeMemory _ _ _

theorem parseMemOperand (along : Alongside places count p q) (openTok : Token) :
    AlongsideOperand places count (parseMemOperand p openTok) (parseMemOperand q openTok) := by
  unfold Parser.parseMemOperand
  dsimp only
  rw [along.cur]
  split
  · next isPointer =>
      have passed := along.advance (inLine_of_type isPointer.1 rfl)
      exact (passed.mono (Nat.sub_le _ _)).parseRipOperand _
  · split
    · split
      · exact ⟨(along.tokenError _ _).syncToNewline.mono (Nat.zero_le _), rfl⟩
      · exact along.failOperand _ _
    · next isRegister =>
        have passed := (along.advance (inLine_of_type (not_not.mp isRegister) rfl)).mono
          (Nat.sub_le _ _)
        split
        · exact passed.failOperand _ _
        · split
          · exact passed.failOperand _ _
          · exact passed.parseBaseOperand _ _

/-- An operand is read alike; one that is read uses up a token. -/
theorem parseOperand (along : Alongside places count p q) :
    AlongsideOperand places count (parseOperand p) (parseOperand q) ∧
      ((Parser.parseOperand p).2 ≠ none →
        Alongside places (count - 1) (Parser.parseOperand p).1 (Parser.parseOperand q).1) := by
  have weaken : ∀ {one two : Parser × Option Operand}, AlongsideOperand places (count - 1) one two →
      AlongsideOperand places count one two ∧ (one.2 ≠ none →
        Alongside places (count - 1) one.1 two.1) :=
    fun alike => ⟨⟨alike.parser.mono (Nat.sub_le _ _), alike.operand⟩, fun _ => alike.parser⟩
  have failed : ∀ {one two : Parser}, Alongside places count one two →
      AlongsideOperand places count (one, none) (two, none) ∧ (none ≠ (none : Option Operand) →
        Alongside places (count - 1) one two) :=
    fun alike => ⟨⟨alike, rfl⟩, fun other => absurd rfl other⟩
  unfold Parser.parseOperand
  dsimp only
  rw [along.cur]
  cases isType : (Parser.cur p).type with
  | register =>
      dsimp only
      have inLine := inLine_of_type isType rfl
      split
      · exact weaken (along.passed inLine _)
      · exact failed (((along.advance inLine).mono (Nat.sub_le _ _)).tokenError _ _)
  | immediate => exact weaken (along.passed (inLine_of_type isType rfl) _)
  | lbracket => exact weaken ((along.advance (inLine_of_type isType rfl)).parseMemOperand _)
  | labelRef =>
      dsimp only
      have inLine := inLine_of_type isType rfl
      split
      · refine failed (mono (advance (along.tokenError _ _) ?_) (Nat.sub_le _ _))
        exact inLine
      · exact weaken (along.passed inLine _)
  | mnemonic => exact weaken (along.passed (inLine_of_type isType rfl) _)
  | string => exact weaken (along.passed (inLine_of_type isType rfl) _)
  | _ => exact failed (along.tokenError _ _)

/-! ## Operand lists -/

/-- At the line end nothing of the line is left. -/
theorem atEnd (along : Alongside places count p q) (lineEnd : isLineEnd (Parser.cur p) = true) :
    Alongside places 0 p q := by
  obtain ⟨text, one, two, all, -⟩ := along.line
  cases text with
  | nil => exact ⟨⟨[], one, two, all, Nat.le_refl _⟩, along.errors, along.out, along.name, along.name'⟩
  | cons t text =>
      have first : Parser.cur p = t := by
        rw [Parser.cur, one]
        rfl
      rw [first, all t List.mem_cons_self] at lineEnd
      contradiction

/-- In the line there is a token left. -/
theorem positive (along : Alongside places count p q) (inLine : isLineEnd (Parser.cur p) = false) :
    1 ≤ count := by
  obtain ⟨text, one, -, -, bound⟩ := along.line
  cases text with
  | nil =>
      have atStop : Parser.cur p = places.stop := by
        rw [Parser.cur, one]
        rfl
      rw [atStop, places.ends] at inLine
      contradiction
  | cons t text => exact Nat.le_trans (Nat.le_add_left 1 text.length) bound

theorem tooMany (along : Alongside places count p q) :
    Alongside places 0 (Parser.syncToNewline (parseError p tooManyOperands))
      (Parser.syncToNewline (parseError q tooManyOperands)) := by
  rw [parseError, parseError, along.cur]
  exact (along.tokenError _ _).syncToNewline

theorem directiveOperands_atEnd (fuel : Nat) (ops : List Operand)
    (lineEnd : isLineEnd (Parser.cur p) = true) : directiveOperands fuel p ops = (p, ops) := by
  cases fuel with
  | zero => rfl
  | succ fuel => rw [directiveOperands, if_pos lineEnd]

theorem instructionOperands_atEnd (fuel : Nat) (ops : List Operand)
    (lineEnd : isLineEnd (Parser.cur p) = true) :
    instructionOperands fuel p ops = (p, ops, true) := by
  cases fuel with
  | zero => rfl
  | succ fuel => rw [instructionOperands, if_pos lineEnd]

/-- The operands of a directive line, whatever the fuel of each place. -/
theorem directiveOperands (along : Alongside places count p q) {fuel fuel' : Nat}
    (one : count ≤ fuel) (two : count ≤ fuel') (ops : List Operand) :
    Alongside places 0 (directiveOperands fuel p ops).1 (directiveOperands fuel' q ops).1 ∧
      (Parser.directiveOperands fuel' q ops).2 = (Parser.directiveOperands fuel p ops).2 := by
  induction count generalizing p q fuel fuel' ops with
  | zero =>
      cases lineEnd : isLineEnd (Parser.cur p) with
      | false => exact absurd (along.positive lineEnd) (by decide)
      | true =>
          rw [directiveOperands_atEnd fuel ops lineEnd,
            directiveOperands_atEnd fuel' ops (along.cur.symm ▸ lineEnd)]
          exact ⟨along, rfl⟩
  | succ count inductionHypothesis =>
      cases lineEnd : isLineEnd (Parser.cur p) with
      | true =>
          rw [directiveOperands_atEnd fuel ops lineEnd,
            directiveOperands_atEnd fuel' ops (along.cur.symm ▸ lineEnd)]
          exact ⟨along.atEnd lineEnd, rfl⟩
      | false =>
          obtain ⟨fuel, rfl⟩ := Nat.exists_eq_add_of_le' (Nat.le_trans (Nat.le_add_left 1 _) one)
          obtain ⟨fuel', rfl⟩ := Nat.exists_eq_add_of_le' (Nat.le_trans (Nat.le_add_left 1 _) two)
          have one := Nat.le_of_succ_le_succ one
          have two := Nat.le_of_succ_le_succ two
          rw [Parser.directiveOperands, Parser.directiveOperands, along.curType, along.cur, lineEnd,
            if_neg Bool.false_ne_true, if_neg Bool.false_ne_true]
          split
          · exact inductionHypothesis (along.advance lineEnd) one two ops
          · split
            · exact ⟨along.tooMany, rfl⟩
            · obtain ⟨alike, shorter⟩ := along.parseOperand
              revert alike shorter
              generalize Parser.parseOperand p = read
              generalize Parser.parseOperand q = read'
              obtain ⟨next, operand⟩ := read
              obtain ⟨next', operand'⟩ := read'
              rintro ⟨parser, operands⟩ shorter
              dsimp only at parser operands shorter
              subst operands
              cases operand' with
              | none => exact ⟨parser.syncToNewline, rfl⟩
              | some op =>
                  exact inductionHypothesis (shorter (Option.some_ne_none op)) one two (ops ++ [op])

theorem expectComma (along : Alongside places count p q) :
    Alongside places count (expectComma p).1 (expectComma q).1 ∧
      (Parser.expectComma q).2 = (Parser.expectComma p).2 := by
  unfold Parser.expectComma
  dsimp only
  rw [along.curType, along.cur]
  split
  · next isComma => exact ⟨(along.advance (inLine_of_type isComma rfl)).mono (Nat.sub_le _ _), rfl⟩
  · exact ⟨along.tokenError _ _, rfl⟩

/-- The operands of an instruction line, whatever the fuel of each place. -/
theorem instructionOperands (along : Alongside places count p q) {fuel fuel' : Nat}
    (one : count ≤ fuel) (two : count ≤ fuel') (ops : List Operand) :
    Alongside places 0 (instructionOperands fuel p ops).1 (instructionOperands fuel' q ops).1 ∧
      (Parser.instructionOperands fuel' q ops).2 = (Parser.instructionOperands fuel p ops).2 := by
  induction count generalizing p q fuel fuel' ops with
  | zero =>
      cases lineEnd : isLineEnd (Parser.cur p) with
      | false => exact absurd (along.positive lineEnd) (by decide)
      | true =>
          rw [instructionOperands_atEnd fuel ops lineEnd,
            instructionOperands_atEnd fuel' ops (along.cur.symm ▸ lineEnd)]
          exact ⟨along, rfl⟩
  | succ count inductionHypothesis =>
      cases lineEnd : isLineEnd (Parser.cur p) with
      | true =>
          rw [instructionOperands_atEnd fuel ops lineEnd,
            instructionOperands_atEnd fuel' ops (along.cur.symm ▸ lineEnd)]
          exact ⟨along.atEnd lineEnd, rfl⟩
      | false =>
          obtain ⟨fuel, rfl⟩ := Nat.exists_eq_add_of_le' (Nat.le_trans (Nat.le_add_left 1 _) one)
          obtain ⟨fuel', rfl⟩ := Nat.exists_eq_add_of_le' (Nat.le_trans (Nat.le_add_left 1 _) two)
          have one := Nat.le_of_succ_le_succ one
          have two := Nat.le_of_succ_le_succ two
          have comma : Alongside places (count + 1)
              (if 0 < ops.length then Parser.expectComma p else (p, true)).1
              (if 0 < ops.length then Parser.expectComma q else (q, true)).1 ∧
              (if 0 < ops.length then Parser.expectComma q else (q, true)).2 =
                (if 0 < ops.length then Parser.expectComma p else (p, true)).2 := by
            split
            · exact along.expectComma
            · exact ⟨along, rfl⟩
          rw [Parser.instructionOperands, Parser.instructionOperands, along.cur, lineEnd,
            if_neg Bool.false_ne_true, if_neg Bool.false_ne_true]
          generalize (if 0 < ops.length then Parser.expectComma p else (p, true)) = comma_ at comma
          generalize (if 0 < ops.length then Parser.expectComma q else (q, true)) = comma' at comma
          obtain ⟨next, isComma⟩ := comma_
          obtain ⟨next', isComma'⟩ := comma'
          obtain ⟨along, same⟩ := comma
          dsimp only at along same ⊢
          subst same
          split
          · exact ⟨along.syncToNewline, rfl⟩
          · split
            · exact ⟨along.tooMany, rfl⟩
            · obtain ⟨alike, shorter⟩ := along.parseOperand
              revert alike shorter
              generalize Parser.parseOperand next = read
              generalize Parser.parseOperand next' = read'
              obtain ⟨next, operand⟩ := read
              obtain ⟨next', operand'⟩ := read'
              rintro ⟨parser, operands⟩ shorter
              dsimp only at parser operands shorter
              subst operands
              cases operand' with
              | none => exact ⟨parser.syncToNewline, rfl⟩
              | some op =>
                  exact inductionHypothesis (shorter (Option.some_ne_none op)) one two (ops ++ [op])

end Alongside

/-! ## Lines -/

/-- What is left of a stream when its line is read: a newline goes with the line. -/
def landing (stop : Token) (after : List Token) : List Token :=
  if stop.type = .newline then after else stop :: after

/-- Two parsers behind the line. -/
structure Landed (places : TwoPlaces) (p q : Parser) : Prop where
  one : p.tokens = landing places.stop places.after
  two : q.tokens = landing places.stop places.after'
  errors : q.errors = places.errors.join p.errors
  out : q.out = places.out ++ p.out
  name' : q.srcName = places.name

section Lines

variable {places : TwoPlaces} {count : Nat} {p q : Parser}

theorem Alongside.skipNewline (along : Alongside places 0 p q) :
    Landed places (skipNewline p) (skipNewline q) := by
  obtain ⟨text, one, two, -, bound⟩ := along.line
  obtain rfl := List.length_eq_zero_iff.mp (Nat.le_zero.mp bound)
  rw [List.nil_append] at one two
  have atStop : Parser.cur p = places.stop := by
    rw [Parser.cur, one]
    rfl
  unfold Parser.skipNewline
  rw [along.curType, Parser.curType, atStop]
  split
  · next isNewline =>
      have notEof : places.stop.type ≠ .eof := by
        rw [isNewline]
        decide
      rw [Parser.advance, Parser.advance, along.cur, atStop, if_neg notEof, if_neg notEof, one, two]
      exact ⟨(if_pos isNewline).symm, (if_pos isNewline).symm, along.errors, along.out, along.name'⟩
  · next other =>
      exact ⟨one.trans (if_neg other).symm, two.trans (if_neg other).symm, along.errors, along.out,
        along.name'⟩

theorem Alongside.dropLine (along : Alongside places count p q) :
    Landed places (dropLine p) (dropLine q) :=
  along.syncToNewline.skipNewline

theorem Landed.pushInstr (landed : Landed places p q) (instr : Instruction) :
    Landed places (pushInstr p instr) (pushInstr q instr) := by
  refine ⟨landed.one, landed.two, landed.errors, ?_, landed.name'⟩
  rw [Parser.pushInstr, Parser.pushInstr, landed.out, List.append_assoc]

/-- The fuel of each place is enough for the line. -/
theorem Alongside.fuel (along : Alongside places count p q) :
    ∃ length, Alongside places length p q ∧ length ≤ p.tokens.length ∧
      length ≤ q.tokens.length := by
  obtain ⟨text, one, two, all, -⟩ := along.line
  refine ⟨text.length, ⟨⟨text, one, two, all, Nat.le_refl _⟩, along.errors, along.out,
    along.name, along.name'⟩, ?_, ?_⟩
  · rw [one, List.length_append]
    exact Nat.le_add_right _ _
  · rw [two, List.length_append]
    exact Nat.le_add_right _ _

theorem Alongside.parseDirectiveLine (along : Alongside places count p q)
    (inLine : isLineEnd (Parser.cur p) = false) (instr : Instruction) :
    Landed places (parseDirectiveLine p instr) (parseDirectiveLine q instr) := by
  obtain ⟨length, along, one, two⟩ := along.fuel
  unfold Parser.parseDirectiveLine
  dsimp only
  rw [along.cur]
  split
  · exact (along.tokenError _ _).dropLine
  · obtain ⟨read, same⟩ := (along.advance inLine).directiveOperands
      (Nat.le_trans (Nat.sub_le _ _) one) (Nat.le_trans (Nat.sub_le _ _) two) []
    rw [same]
    exact read.skipNewline.pushInstr _

theorem Alongside.checkArity (along : Alongside places count p q) (instr : Instruction)
    (minOps maxOps : Nat) :
    Alongside places count (checkArity p instr minOps maxOps) (checkArity q instr minOps maxOps) := by
  unfold Parser.checkArity
  split
  · exact along.report _ _ _ _
  · split
    · exact along.report _ _ _ _
    · exact along

theorem Alongside.parseInstructionLine (along : Alongside places count p q)
    (inLine : isLineEnd (Parser.cur p) = false) (instr : Instruction) :
    Landed places (parseInstructionLine p instr) (parseInstructionLine q instr) := by
  obtain ⟨length, along, one, two⟩ := along.fuel
  unfold Parser.parseInstructionLine
  dsimp only
  rw [along.cur]
  split
  · exact (along.tokenError _ _).dropLine
  · obtain ⟨read, same⟩ := (along.advance inLine).instructionOperands
      (Nat.le_trans (Nat.sub_le _ _) one) (Nat.le_trans (Nat.sub_le _ _) two) []
    revert read same
    generalize Parser.instructionOperands p.tokens.length (Parser.advance p) [] = result
    generalize Parser.instructionOperands q.tokens.length (Parser.advance q) [] = result'
    obtain ⟨next, ops, syntaxOk⟩ := result
    obtain ⟨next', operands⟩ := result'
    intro read same
    dsimp only at read same
    subst same
    dsimp only
    split
    · exact (read.checkArity _ _ _).skipNewline.pushInstr _
    · exact read.skipNewline.pushInstr _

theorem Alongside.parseOtherLine (along : Alongside places count p q) :
    Landed places (parseOtherLine p) (parseOtherLine q) := by
  unfold Parser.parseOtherLine
  dsimp only
  rw [along.cur]
  split
  · exact (along.tokenError _ _).dropLine
  · exact (along.tokenError _ _).dropLine

theorem Alongside.parseStatement (along : Alongside places count p q)
    (inLine : isLineEnd (Parser.cur p) = false) (instr : Instruction) :
    Landed places (parseStatement p instr) (parseStatement q instr) := by
  unfold Parser.parseStatement
  rw [along.curType]
  split
  · exact along.parseDirectiveLine inLine instr
  · exact along.parseInstructionLine inLine instr
  · exact along.parseOtherLine

/-- A line is parsed alike in both places. -/
theorem Alongside.parseLine (along : Alongside places count p q)
    (inLine : isLineEnd (Parser.cur p) = false) : Landed places (parseLine p) (parseLine q) := by
  have types := inLine
  rw [isLineEnd, Bool.or_eq_false_iff, decide_eq_false_iff_not, decide_eq_false_iff_not] at types
  unfold Parser.parseLine
  dsimp only
  rw [along.cur, if_neg types.2, if_neg types.2, if_neg types.1, if_neg types.1]
  split
  · have next := along.advance inLine
    rw [next.cur]
    cases lineEnd : isLineEnd (Parser.cur (Parser.advance p)) with
    | true => exact (next.atEnd lineEnd).skipNewline.pushInstr _
    | false => exact next.parseStatement lineEnd _
  · exact along.parseStatement inLine _

end Lines

/-! ## Streams -/

/-- A token stream, cut after its newlines. -/
def cutLines : List Token → List (List Token)
  | [] => []
  | t :: tokens =>
      if isNewline t then [t] :: cutLines tokens
      else
        match cutLines tokens with
        | [] => [[t]]
        | line :: lines => (t :: line) :: lines

/-- A line by itself, before an end of file. -/
def parseAlone (name : Option (List UInt8)) (eof : Token) (line : List Token) : ParseResult :=
  parserParse ⟨line ++ [eof], name⟩

section Streams

variable {text tokens after : List Token} {t eof : Token}

theorem cutLines_newline (newline : isNewline t = true) (notNewline : ∀ u ∈ text, isNewline u = false) :
    cutLines (text ++ t :: tokens) = (text ++ [t]) :: cutLines tokens := by
  induction text with
  | nil => rw [List.nil_append, cutLines, if_pos newline, List.nil_append]
  | cons u text inductionHypothesis =>
      rw [List.forall_mem_cons] at notNewline
      rw [List.cons_append, cutLines, notNewline.1, if_neg Bool.false_ne_true,
        inductionHypothesis notNewline.2]
      rfl

theorem cutLines_last (some_ : text ≠ []) (notNewline : ∀ u ∈ text, isNewline u = false) :
    cutLines text = [text] := by
  induction text with
  | nil => contradiction
  | cons u text inductionHypothesis =>
      rw [List.forall_mem_cons] at notNewline
      rw [cutLines, notNewline.1, if_neg Bool.false_ne_true]
      cases text with
      | nil => rfl
      | cons v text => rw [inductionHypothesis (List.cons_ne_nil v text) notNewline.2]

/-- A stream is nothing, one line that no newline ends, or a line and the rest. -/
theorem cut_cases (tokens : List Token) :
    (∀ u ∈ tokens, isNewline u = false) ∨
      ∃ text t rest, tokens = text ++ t :: rest ∧ isNewline t = true ∧
        ∀ u ∈ text, isNewline u = false := by
  induction tokens with
  | nil => exact .inl fun _ member => absurd member List.not_mem_nil
  | cons u tokens inductionHypothesis =>
      cases newline : isNewline u with
      | true => exact .inr ⟨[], u, tokens, rfl, newline, fun _ member => absurd member List.not_mem_nil⟩
      | false =>
          rcases inductionHypothesis with none | ⟨text, t, rest, rfl, isEnd, notNewline⟩
          · exact .inl (List.forall_mem_cons.mpr ⟨newline, none⟩)
          · exact .inr ⟨u :: text, t, rest, rfl, isEnd, List.forall_mem_cons.mpr ⟨newline, notNewline⟩⟩

theorem isLineEnd_of_notNewline (notNewline : isNewline t = false) (notEof : t.type ≠ .eof) :
    isLineEnd t = false :=
  isLineEnd_eq_false (of_decide_eq_false notNewline) notEof

theorem skipNewlines_of_head {p : Parser} (head : p.tokens = t :: after)
    (notNewline : isNewline t = false) : skipNewlines p = p := by
  rw [skipNewlines, head, List.dropWhile_cons_of_neg (by rw [notNewline]; decide), ← head]

/-- At the end of the file the loop stops. -/
theorem parseLoop_atEof (fuel : Nat) {p : Parser} (head : p.tokens = eof :: after)
    (isEof : eof.type = .eof) : parseLoop fuel (skipNewlines p) = p := by
  have notNewline : isNewline eof = false := decide_eq_false (by rw [isEof]; decide)
  rw [skipNewlines_of_head head notNewline]
  cases fuel with
  | zero => rfl
  | succ fuel =>
      have type : curType p = .eof := by
        rw [curType, cur, head]
        exact isEof
      rw [parseLoop, if_pos type]

/-- At a token of a line the loop reads the line. -/
theorem parseLoop_atLine (fuel : Nat) {p : Parser} (head : p.tokens = t :: after)
    (inLine : isLineEnd t = false) :
    parseLoop (fuel + 1) (skipNewlines p) = parseLoop fuel (skipNewlines (parseLine p)) := by
  rw [isLineEnd, Bool.or_eq_false_iff] at inLine
  have type : curType p = t.type := by
    rw [curType, cur, head]
    rfl
  rw [skipNewlines_of_head head inLine.1, parseLoop, type, if_neg (of_decide_eq_false inLine.2)]

/-- A blank line by itself gives nothing. -/
theorem parseAlone_blank (name : Option (List UInt8)) (newline : isNewline t = true)
    (isEof : eof.type = .eof) : parseAlone name eof [t] = ⟨⟨[], name⟩, .empty⟩ := by
  have skipped : skipNewlines ⟨[t] ++ [eof], .empty, [], name.getD (utf8 "unknown")⟩ =
      skipNewlines ⟨[eof], .empty, [], name.getD (utf8 "unknown")⟩ := by
    rw [skipNewlines, skipNewlines, List.singleton_append, List.dropWhile_cons_of_pos newline]
  rw [parseAlone, parserParse]
  dsimp only
  rw [skipped, parseLoop_atEof _ rfl isEof]

/-- A line by itself is what `parse_line` makes of it. -/
theorem parseAlone_line (name : Option (List UInt8)) {stop : Token} {line : List Token}
    (some_ : text ≠ []) (inLine : ∀ u ∈ text, isLineEnd u = false) (stops : isLineEnd stop = true)
    (whole : line ++ [eof] = text ++ stop :: after) (last : landing stop after = [eof])
    (isEof : eof.type = .eof) :
    parseAlone name eof line =
      ⟨⟨(parseLine ⟨line ++ [eof], .empty, [], name.getD (utf8 "unknown")⟩).out, name⟩,
        (parseLine ⟨line ++ [eof], .empty, [], name.getD (utf8 "unknown")⟩).errors⟩ := by
  obtain ⟨t, text, rfl⟩ := List.exists_cons_of_ne_nil some_
  have length : (line ++ [eof]).length = line.length + 1 := by
    rw [List.length_append, List.length_singleton]
  have along : Alongside ⟨stop, stops, after, after, .empty, [], name.getD (utf8 "unknown")⟩
      (t :: text).length ⟨line ++ [eof], .empty, [], name.getD (utf8 "unknown")⟩
      ⟨line ++ [eof], .empty, [], name.getD (utf8 "unknown")⟩ :=
    ⟨⟨t :: text, whole, whole, inLine, Nat.le_refl _⟩, ErrorList.capped_empty.join_empty.symm, rfl,
      rfl, rfl⟩
  have first : cur ⟨line ++ [eof], .empty, [], name.getD (utf8 "unknown")⟩ = t := by
    rw [cur, whole]
    rfl
  have lands := (along.parseLine (first ▸ inLine t List.mem_cons_self)).one
  rw [parseAlone, parserParse]
  dsimp only
  rw [length, parseLoop_atLine _ whole
    (inLine t List.mem_cons_self), parseLoop_atEof _ (lands.trans last) isEof]

/-- A line that is read without an error gives one statement. -/
theorem parseAlone_one (name : Option (List UInt8)) {stop : Token} {line : List Token}
    (some_ : text ≠ []) (inLine : ∀ u ∈ text, isLineEnd u = false) (stops : isLineEnd stop = true)
    (whole : line ++ [eof] = text ++ stop :: after) (last : landing stop after = [eof])
    (isEof : eof.type = .eof) (clean : (parseAlone name eof line).errors.errors = []) :
    ∃ stmt, (parseAlone name eof line).instructions.data = [stmt] := by
  rw [parseAlone_line name some_ inLine stops whole last isEof] at clean ⊢
  obtain ⟨t, text, rfl⟩ := List.exists_cons_of_ne_nil some_
  have here := inLine t List.mem_cons_self
  rw [isLineEnd, Bool.or_eq_false_iff, decide_eq_false_iff_not, decide_eq_false_iff_not] at here
  have type : curType ⟨line ++ [eof], .empty, [], name.getD (utf8 "unknown")⟩ = t.type := by
    rw [curType, cur, whole]
    rfl
  rw [← type] at here
  rcases @parseLine_outcome .nazm _ here.2 here.1 with
    ⟨text, stmt, -, q, consumes, -, pushed⟩ | dirty
  · refine ⟨stmt, ?_⟩
    have kept : (skipNewline q).out = q.out := (skipNewline_scans q).out
    rw [pushed, pushInstr, kept, consumes.out]
    rfl
  · rw [errorHasAny, decide_eq_true_eq, clean] at dirty
    contradiction

/-- The shape of a line of a stream. -/
theorem mem_cutLines {line : List Token} (member : line ∈ cutLines tokens) :
    (∀ u ∈ line, u ∈ tokens) ∧
      ((line ≠ [] ∧ ∀ u ∈ line, isNewline u = false) ∨
        ∃ text t, line = text ++ [t] ∧ isNewline t = true ∧ ∀ u ∈ text, isNewline u = false) := by
  induction length : tokens.length using Nat.strongRecOn generalizing tokens with
  | ind length_ inductionHypothesis =>
      subst length
      rcases cut_cases tokens with noNewline | ⟨text, t, rest, rfl, newline, notNewline⟩
      · by_cases some_ : tokens = []
        · subst some_
          exact absurd member List.not_mem_nil
        · rw [cutLines_last some_ noNewline, List.mem_singleton] at member
          subst member
          exact ⟨fun _ => id, .inl ⟨some_, noNewline⟩⟩
      · rw [cutLines_newline newline notNewline, List.mem_cons] at member
        rcases member with rfl | inRest
        · refine ⟨fun u inLine => ?_, .inr ⟨text, t, rfl, newline, notNewline⟩⟩
          rw [List.mem_append, List.mem_singleton] at inLine
          rw [List.mem_append, List.mem_cons]
          rcases inLine with inText | isLast
          · exact .inl inText
          · exact .inr (.inl isLast)
        · have shorter : rest.length < (text ++ t :: rest).length := by
            rw [List.length_append, List.length_cons]
            omega
          obtain ⟨within, shape⟩ := inductionHypothesis _ shorter inRest rfl
          exact ⟨fun u inLine => List.mem_append_right _ (List.mem_cons_of_mem _ (within u inLine)),
            shape⟩

/-- The loop over a stream joins what its lines give by themselves. -/
theorem parseLoop_lines {unread : List Token} {name : Option (List UInt8)}
    (isEof : eof.type = .eof) (lineEof : List Token → Token)
    (areEof : ∀ line, (lineEof line).type = .eof)
    (ownEof : ∀ line, (∀ u ∈ line, isNewline u = false) → lineEof line = eof)
    (noEof : ∀ u ∈ tokens, u.type ≠ .eof) {fuel : Nat} (enough : tokens.length ≤ fuel) {p : Parser}
    (stream : p.tokens = tokens ++ eof :: unread) (capped : p.errors.Capped)
    (isName : p.srcName = name.getD (utf8 "unknown")) :
    (parseLoop fuel (skipNewlines p)).out = p.out ++ (cutLines tokens).flatMap
        (fun line => (parseAlone name (lineEof line) line).instructions.data) ∧
      (parseLoop fuel (skipNewlines p)).errors = ((cutLines tokens).map
        fun line => (parseAlone name (lineEof line) line).errors).foldl ErrorList.join p.errors := by
  induction length : tokens.length using Nat.strongRecOn generalizing tokens fuel p with
  | ind length_ inductionHypothesis =>
      subst length
      rcases cut_cases tokens with noNewline | ⟨text, t, rest, rfl, newline, notNewline⟩
      · -- what is left is no line, or one that the end of the file ends
        cases tokens with
        | nil =>
            rw [parseLoop_atEof fuel stream isEof]
            simp [cutLines]
        | cons u text =>
            have some_ := List.cons_ne_nil u text
            have inLine : ∀ other ∈ u :: text, isLineEnd other = false := fun other member =>
              isLineEnd_of_notNewline (noNewline other member) (noEof other member)
            obtain ⟨fuel, rfl⟩ := Nat.exists_eq_add_of_le' (Nat.le_trans (Nat.le_add_left 1 _) enough)
            have stops : isLineEnd eof = true := by
              rw [isLineEnd, decide_eq_true isEof, Bool.or_true]
            have along : Alongside ⟨eof, stops, [], unread, p.errors, p.out, p.srcName⟩
                (u :: text).length ⟨(u :: text) ++ [eof], .empty, [], name.getD (utf8 "unknown")⟩ p :=
              ⟨⟨u :: text, rfl, stream, inLine, Nat.le_refl _⟩, capped.join_empty.symm,
                (List.append_nil _).symm, isName.symm, rfl⟩
            have landed := along.parseLine (inLine u List.mem_cons_self)
            have notNewline : eof.type ≠ .newline := by
              rw [isEof]
              decide
            have two := landed.two
            rw [landing, if_neg notNewline] at two
            have alone := parseAlone_line name some_ inLine stops rfl (if_neg notNewline) isEof
            rw [parseLoop_atLine fuel stream (inLine u List.mem_cons_self),
              parseLoop_atEof fuel two isEof, cutLines_last some_ noNewline]
            simp only [List.flatMap_singleton, List.map_singleton, List.foldl_cons, List.foldl_nil,
              ownEof _ noNewline, alone]
            exact ⟨landed.out, landed.errors⟩
      · have shorter : rest.length < (text ++ t :: rest).length := by
          rw [List.length_append, List.length_cons]
          omega
        have noEofRest : ∀ u ∈ rest, u.type ≠ .eof := fun u member => noEof u (by simp [member])
        rw [cutLines_newline newline notNewline]
        cases text with
        | nil =>
            have skipped : skipNewlines p =
                skipNewlines { p with tokens := rest ++ eof :: unread } := by
              rw [skipNewlines, skipNewlines, stream, List.nil_append, List.cons_append,
                List.dropWhile_cons_of_pos newline]
            have rest_ := @inductionHypothesis _ shorter rest noEofRest fuel (by omega)
              { p with tokens := rest ++ eof :: unread } rfl capped isName rfl
            have blank := parseAlone_blank name newline (areEof [t])
            rw [skipped, rest_.1, rest_.2, List.flatMap_cons, List.map_cons, List.foldl_cons,
              List.nil_append, blank]
            dsimp only
            rw [List.nil_append, capped.join_empty]
            exact ⟨rfl, rfl⟩
        | cons u text =>
            have some_ := List.cons_ne_nil u text
            have inLine : ∀ other ∈ u :: text, isLineEnd other = false := fun other member =>
              isLineEnd_of_notNewline (notNewline other member)
                (noEof other (List.mem_append_left _ member))
            obtain ⟨fuel, rfl⟩ := Nat.exists_eq_add_of_le' (Nat.le_trans (Nat.le_add_left 1 _)
              (Nat.le_trans (Nat.succ_le_of_lt (Nat.lt_of_le_of_lt (Nat.zero_le _) shorter)) enough))
            have isNewline_ : t.type = .newline := of_decide_eq_true newline
            have stops : isLineEnd t = true := by
              rw [isLineEnd, decide_eq_true isNewline_, Bool.true_or]
            have split : u :: text ++ [t] ++ [lineEof (u :: text ++ [t])] =
                u :: text ++ t :: [lineEof (u :: text ++ [t])] := List.append_assoc ..
            have along : Alongside ⟨t, stops, [lineEof (u :: text ++ [t])], rest ++ eof :: unread,
                p.errors, p.out, p.srcName⟩ (u :: text).length
                ⟨u :: text ++ [t] ++ [lineEof (u :: text ++ [t])], .empty, [],
                  name.getD (utf8 "unknown")⟩ p :=
              ⟨⟨u :: text, split, by rw [stream, List.append_assoc]; rfl, inLine, Nat.le_refl _⟩,
                capped.join_empty.symm, (List.append_nil _).symm, isName.symm, rfl⟩
            have landed := along.parseLine (inLine u List.mem_cons_self)
            have two := landed.two
            rw [landing, if_pos isNewline_] at two
            have alone := parseAlone_line name some_ inLine stops split (if_pos isNewline_) (areEof _)
            have capped' : (parseLine p).errors.Capped := by
              rw [landed.errors]
              exact ErrorList.capped_join _ _
            have rest_ := @inductionHypothesis _ shorter rest noEofRest fuel (by omega)
              (parseLine p) two capped' (landed.name'.trans isName) rfl
            rw [parseLoop_atLine fuel (stream.trans (List.append_assoc ..))
              (inLine u List.mem_cons_self), rest_.1, rest_.2, List.flatMap_cons, List.map_cons,
              List.foldl_cons, alone, landed.out, landed.errors]
            dsimp only
            rw [List.append_assoc]
            exact ⟨rfl, rfl⟩

/-- Parsing is line-local: the statements of a stream are those of its lines, each
by itself, one after another, and so are its errors, up to the cap; and a line
that is not blank gives one statement where it gives no error. A line that ends
in a newline may be followed by any end of file, the last one by that of the
stream. -/
theorem parsing_is_line_local (name : Option (List UInt8)) (unread : List Token)
    (isEof : eof.type = .eof) (noEof : ∀ u ∈ tokens, u.type ≠ .eof)
    (lineEof : List Token → Token) (areEof : ∀ line, (lineEof line).type = .eof)
    (ownEof : ∀ line, (∀ u ∈ line, isNewline u = false) → lineEof line = eof) :
    let stream := parserParse ⟨tokens ++ eof :: unread, name⟩
    let alone := fun line => parseAlone name (lineEof line) line
    stream.instructions.data = (cutLines tokens).flatMap (fun line => (alone line).instructions.data) ∧
    stream.errors.errors =
      ((cutLines tokens).flatMap fun line => (alone line).errors.errors).take nazmMaxErrors ∧
    stream.errors.fatal = (((cutLines tokens).any fun line => (alone line).errors.fatal) ||
      decide (nazmMaxErrors <
        ((cutLines tokens).flatMap fun line => (alone line).errors.errors).length)) ∧
    ∀ line ∈ cutLines tokens, (∃ u ∈ line, isNewline u = false) →
      (alone line).errors.errors = [] → ∃ stmt, (alone line).instructions.data = [stmt] := by
  intro stream alone
  have enough : tokens.length ≤ (tokens ++ eof :: unread).length := by
    rw [List.length_append]
    exact Nat.le_add_right _ _
  obtain ⟨out, errors⟩ := @parseLoop_lines tokens eof unread name isEof lineEof areEof ownEof noEof _
    enough ⟨tokens ++ eof :: unread, .empty, [], name.getD (utf8 "unknown")⟩ rfl
    ErrorList.capped_empty rfl
  have joined : stream.errors =
      ErrorList.joinAll ((cutLines tokens).map fun line => (alone line).errors) := errors
  refine ⟨out, ?_, ?_, fun line member ⟨u, inLine, notNewline⟩ clean => ?_⟩
  · rw [joined, ErrorList.joinAll_errors, List.flatMap_map]
  · rw [joined, ErrorList.joinAll_fatal, List.flatMap_map, List.any_map]
    rfl
  · obtain ⟨within, shape⟩ := mem_cutLines member
    rcases shape with ⟨some_, noNewline⟩ | ⟨text, t, rfl, newline, notNewlines⟩
    · have stops : isLineEnd (lineEof line) = true := by
        rw [isLineEnd, decide_eq_true (areEof line), Bool.or_true]
      have noLanding : (lineEof line).type ≠ .newline := by
        rw [areEof line]
        decide
      exact parseAlone_one name some_ (fun u inLine => isLineEnd_of_notNewline (noNewline u inLine)
        (noEof u (within u inLine))) stops rfl (if_neg noLanding) (areEof line) clean
    · have isNewline_ : t.type = .newline := of_decide_eq_true newline
      have stops : isLineEnd t = true := by
        rw [isLineEnd, decide_eq_true isNewline_, Bool.true_or]
      have some_ : text ≠ [] := by
        rintro rfl
        rw [List.nil_append, List.mem_singleton] at inLine
        rw [inLine, newline] at notNewline
        contradiction
      exact parseAlone_one name some_ (fun u inLine => isLineEnd_of_notNewline (notNewlines u inLine)
        (noEof u (within u (List.mem_append_left _ inLine)))) stops (List.append_assoc ..)
        (if_pos isNewline_) (areEof _) clean

/-- A line without an instruction, and a return behind it. -/
def brokenLine : List Token :=
  [⟨.comma, utf8 "،", 1, 1, 2⟩, ⟨.newline, [0x0A], 1, 2, 3⟩, ⟨.mnemonic, utf8 "ارجع", 2, 1, 5⟩]

def endOfFile : Token := ⟨.eof, [], 2, 5, 5⟩

theorem parsing_is_line_local_brokenLine :
    (parserParse ⟨brokenLine ++ [endOfFile], none⟩).instructions.data =
        (cutLines brokenLine).flatMap
          (fun line => (parseAlone none endOfFile line).instructions.data) ∧
      ∃ stmt, (parseAlone none endOfFile [⟨.mnemonic, utf8 "ارجع", 2, 1, 5⟩]).instructions.data =
        [stmt] := by
  have local_ := @parsing_is_line_local brokenLine endOfFile none [] rfl
    (by decide) (fun _ => endOfFile) (fun _ => rfl) (fun _ _ => rfl)
  exact ⟨local_.1, local_.2.2.2 _ (by decide) ⟨_, List.mem_singleton_self _, by decide⟩
    (by decide +kernel)⟩

end Streams

end Nazm.Parser
