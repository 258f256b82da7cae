import Nazm.Lexer.Positions

/-!
Turns and positions.

Owns how each token is spelled where it stands, and that a turn of the main loop
moves the counters over what it reads, reports at places on the way, and pushes
a token with the position of its spelling; all but the turn of a lone minus.

Does not own the positions of a whole run.
-/

namespace Nazm.Lexer

open Nazm.Encoder Nazm.Unicode Nazm.Diagnostics

/-! ## Spellings -/

/-- How a token is spelled, and what may stand behind its spelling. The spelling
of a label ends before its colon. -/
inductive SpelledAt : Lexeme → List Nat → List Nat → Prop where
  | newline {rest : List Nat} : SpelledAt (.newline, [0x0A]) [0x0A] rest
  | eof : SpelledAt (.eof, []) [] []
  | single {value : List UInt8} {cp : Nat} {type : TokenType} {rest : List Nat} :
      singleCharToken cp = some (type, value) → SpelledAt (type, value) [cp] rest
  | minus {rest : List Nat} : SpelledAt (.minus, [0x2D]) [0x2D] rest
  | number {spelling rest : List Nat} {value : Nat} :
      NumberText spelling value (nextCp rest) →
      SpelledAt (.immediate, decimalInt (asSignedBits value)) spelling rest
  | negative {spelling rest : List Nat} {value : Nat} :
      NumberText spelling value (nextCp rest) →
      SpelledAt (.immediate, decimalInt (asSignedBits ((2 ^ 64 - value) % 2 ^ 64)))
        (0x2D :: spelling) rest
  | directive {text : List UInt8} {spelling rest : List Nat} :
      Codepoints text spelling → (∀ cp ∈ spelling, continuesDirective cp = true) →
      continuesDirective (nextCp rest) = false →
      SpelledAt (.directive, 0x2E :: text) (0x2E :: spelling) rest
  | string {text value : List UInt8} {spelling rest : List Nat} :
      Codepoints text spelling → StringText text value →
      SpelledAt (.string, value) (0x22 :: spelling) rest
  | label {name : List UInt8} {spelling rest : List Nat} :
      IdentText name → Codepoints name spelling →
      SpelledAt (.labelDef, name) spelling (0x3A :: rest)
  | word {name : List UInt8} {spelling rest : List Nat} {type : TokenType} :
      type ∈ [.mnemonic, .register, .labelRef] → IdentText name → Codepoints name spelling →
      isIdentContinue (nextCp rest) = false → SpelledAt (type, name) spelling rest

/-- A line that a backslash continues, with a report at its end or no room for it. -/
def ContinuedReported (before after : Lexer) (used : List Nat) : Prop :=
  ∃ front back, used = front ++ 0x5C :: 0x0A :: back ∧ 0x0A ∉ front ∧
    (after.errors.fatal = true ∨ ∃ e ∈ after.errors.errors,
      (e.line, e.col) = advancePosition (cursorPosition before) (front ++ [0x5C]))

/-- A turn over some codepoints that counts them. -/
structure Turn (before after : Lexer) (used left : List Nat) : Prop where
  moved : ∃ middle, Moves before middle used ∧ View middle left ∧
    (after = middle ∨ ∃ lexeme spelling rest, used ++ left = spelling ++ rest ∧
      spelling.length ≤ used.length ∧ SpelledAt lexeme spelling rest ∧
      (lexeme.1 = .newline → used = [0x0A]) ∧
      after = pushTokenValue middle lexeme.1 lexeme.2 before.line before.col
        (before.col + spelling.length))
  region : hasLoneMinus .code (used ++ left) = hasLoneMinus .code left
  newline : 0x0A ∈ used →
    (used = [0x0A] ∧ (lastTokenIsNewline before = false → after.out = before.out ++
      [⟨.newline, [0x0A], before.line, before.col, before.col + 1⟩])) ∨
    ContinuedReported before after used
  nonempty : used ≠ []

section Turns

variable {lx start before middle after : Lexer} {cps used left done more : List Nat} {cp : Nat}
  {lexeme : Lexeme} {spelling rest : List Nat}

/-! ## Turns without a newline -/

/-- A turn that pushes nothing. -/
theorem Turn.silent (moves : Moves lx after used) (view : View after left) (oneLine : 0x0A ∉ used)
    (ordinary : ∀ cp ∈ used, isOrdinary cp = true) (nonempty : used ≠ []) :
    Turn lx after used left where
  moved := ⟨after, moves, view, .inl rfl⟩
  region := hasLoneMinus_ordinary ordinary
  newline member := absurd member oneLine
  nonempty := nonempty

/-- A turn that pushes the token it reads. -/
theorem Turn.push (moves : Moves lx middle used) (view : View middle left)
    (oneLine : 0x0A ∉ used)
    (region : hasLoneMinus .code (used ++ left) = hasLoneMinus .code left) (nonempty : used ≠ [])
    (spelled : SpelledAt lexeme spelling rest) (split : used ++ left = spelling ++ rest)
    (within : spelling.length ≤ used.length) (notNewline : lexeme.1 ≠ .newline) {endCol : Nat}
    (isEnd : endCol = lx.col + spelling.length) :
    Turn lx (pushTokenValue middle lexeme.1 lexeme.2 lx.line lx.col endCol) used left where
  moved := ⟨middle, moves, view, .inr ⟨lexeme, spelling, rest, split, within, spelled,
    fun isNewline => absurd isNewline notNewline, by rw [isEnd]⟩⟩
  region := region
  newline member := absurd member oneLine
  nonempty := nonempty

theorem turn_blank (view : View lx (cp :: cps)) (blank : cp = 0x20 ∨ cp = 0x09 ∨ cp = 0x0D) :
    Turn lx (skipCp lx) [cp] cps := by
  obtain ⟨passes, next⟩ := skipCp_passes view
  have facts : 0x0A ∉ [cp] ∧ ∀ other ∈ [cp], isOrdinary other = true := by
    rcases blank with rfl | rfl | rfl <;> decide
  exact .silent passes.moves next facts.1 facts.2 (List.cons_ne_nil _ _)

theorem turn_newline (view : View lx (0x0A :: cps)) :
    Turn lx (lexNewline lx lx.line lx.col) [0x0A] cps := by
  obtain ⟨passes, next⟩ := skipCp_passes view
  have sameLast : lastTokenIsNewline (skipCp lx) = lastTokenIsNewline lx := by
    rw [lastTokenIsNewline, passes.out]
    rfl
  have result : lexNewline lx lx.line lx.col = if lastTokenIsNewline lx then skipCp lx
      else pushTokenValue (skipCp lx) .newline [0x0A] lx.line lx.col (lx.col + 1) := by
    rw [← sameLast]
    rfl
  refine ⟨⟨skipCp lx, passes.moves, next, ?_⟩, hasLoneMinus_ordinary (by decide),
    fun _ => .inl ⟨rfl, fun notLast => ?_⟩, List.cons_ne_nil _ _⟩
  · rw [result]
    split
    · exact .inl rfl
    · exact .inr ⟨(.newline, [0x0A]), [0x0A], cps, rfl, Nat.le_refl _, .newline, fun _ => rfl, rfl⟩
  · rw [result, notLast, pushTokenValue, ← passes.out]
    rfl

theorem turn_comment (view : View lx (0x3B :: cps)) :
    ∃ used left, 0x3B :: cps = used ++ left ∧ Turn lx (lexComment lx) used left := by
  obtain ⟨passes, last⟩ := lexCommentLoop_passes lx.rest.length view (fuel_of_view view)
  rw [List.takeWhile_cons, if_pos (by decide)] at passes
  rw [List.dropWhile_cons, if_pos (by decide)] at last
  have oneLine : 0x0A ∉ 0x3B :: cps.takeWhile fun cp => !endsComment cp := by
    rw [List.mem_cons, not_or]
    refine ⟨by decide, fun member => ?_⟩
    have continues := all_takeWhile cps _ member
    contradiction
  refine ⟨_, _, ?_, ⟨_, passes.moves, last, .inl rfl⟩, ?_, fun member => absurd member oneLine,
    List.cons_ne_nil _ _⟩
  · rw [List.cons_append, List.takeWhile_append_dropWhile]
  · rw [List.cons_append, List.takeWhile_append_dropWhile, hasLoneMinus_cons (.inr (by decide))]
    exact hasLoneMinus_comment cps

theorem turn_single {type : TokenType} {value : List UInt8} (view : View lx (cp :: cps))
    (single : singleCharToken cp = some (type, value)) :
    Turn lx (pushTokenValue (skipCp lx) type value lx.line lx.col (lx.col + 1)) [cp] cps := by
  obtain ⟨passes, next⟩ := skipCp_passes view
  have facts : 0x0A ∉ [cp] ∧ (∀ other ∈ [cp], isOrdinary other = true) ∧ type ≠ .newline := by
    unfold singleCharToken at single
    repeat' split at single
    all_goals first
      | contradiction
      | next isCp =>
          obtain ⟨rfl, -⟩ := Prod.mk.inj (Option.some.inj single)
          rw [isCp]
          decide
  exact .push passes.moves next facts.1 (hasLoneMinus_ordinary facts.2.1) (List.cons_ne_nil _ _)
    (.single single) rfl (Nat.le_refl _) facts.2.2 rfl

/-- A turn that reports a codepoint with no meaning. -/
theorem turn_unknown (view : View lx (cp :: cps)) (ordinary : isOrdinary cp = true)
    (notNewline : cp ≠ 0x0A) (msg : List UInt8) : Turn lx (skipCp (lexError lx msg)) [cp] cps := by
  obtain ⟨passes, next⟩ := skipCp_passes view
  have same : skipCp (lexError lx msg) =
      lexErrorAt (skipCp lx) lx.line lx.col (lx.col + 1) msg := by
    unfold skipCp lexError lexErrorAt
    dsimp only
    split
    · rfl
    · rfl
  have sameErrors : (skipCp lx).errors = lx.errors := passes.errors
  have sameName : (skipCp lx).name = lx.name := by
    unfold skipCp
    dsimp only
    split <;> rfl
  rw [same]
  exact .silent (passes.moves.report_start _ _) next (by simpa using Ne.symm notNewline)
    (by simpa using ordinary) (List.cons_ne_nil _ _)

/-! ## Numbers -/

theorem oneLine_inNumber (parts : ∀ cp ∈ used, inNumber cp = true) : 0x0A ∉ used :=
  fun member => absurd (parts _ member) (by decide)

/-- A number's turn passes over it, and reports where it stands or where it ends. -/
theorem ReadsNumber.moves {value : Nat} {result : Lexer × Number}
    (reads : ReadsNumber lx used left value result) : Moves lx result.1 used := by
  rcases reads.moved with ⟨-, passes⟩ | ⟨-, middle, msg, passes, same⟩
  · exact passes.moves
  · rw [same]
    exact passes.moves.report_end _ _

theorem turn_number (view : View lx cps) (starts : isNumberStart (nextCp cps) = true) :
    ∃ used left, cps = used ++ left ∧ Turn lx (lexNumber lx lx.line lx.col) used left := by
  obtain ⟨used, left, value, rfl, reads, nonempty, parts, isNumber⟩ :=
    parseNumber_reads view starts
  have moves := reads.moves
  have oneLine := oneLine_inNumber parts
  have ordinary : ∀ cp ∈ used, isOrdinary cp = true :=
    fun cp member => ordinary_inNumber (parts cp member)
  refine ⟨used, left, rfl, ?_⟩
  unfold lexNumber
  dsimp only
  split
  · exact .silent (moves.report_start _ _) reads.view oneLine ordinary nonempty
  · next fits =>
      have fits : (parseNumber lx).2.fits = true := by simpa using fits
      split
      · next ok =>
          rw [reads.val fits]
          exact .push moves reads.view oneLine (hasLoneMinus_ordinary ordinary) nonempty
            (.number (isNumber ok)) rfl (Nat.le_refl _) TokenType.noConfusion (moves.col oneLine)
      · exact .silent moves reads.view oneLine ordinary nonempty

/-- A minus with a digit behind it. -/
theorem turn_negative (view : View lx (0x2D :: cps)) (starts : isNumberStart (nextCp cps) = true) :
    ∃ used left, 0x2D :: cps = used ++ left ∧
      Turn lx (lexMinusOrNegativeNumber lx lx.line lx.col) used left := by
  obtain ⟨passes, next⟩ := skipCp_passes view
  obtain ⟨used, left, value, rfl, reads, -, parts, isNumber⟩ := parseNumber_reads next starts
  have moves : Moves lx (parseNumber (skipCp lx)).1 (0x2D :: used) := passes.moves.trans reads.moves
  have oneLine : 0x0A ∉ 0x2D :: used := by
    rw [List.mem_cons, not_or]
    exact ⟨by decide, oneLine_inNumber parts⟩
  have region : hasLoneMinus .code (0x2D :: used ++ left) = hasLoneMinus .code left := by
    rw [List.cons_append, hasLoneMinus, starts, Bool.not_true, Bool.and_false, Bool.false_or]
    exact hasLoneMinus_ordinary fun cp member => ordinary_inNumber (parts cp member)
  have silent : ∀ {after : Lexer}, Moves lx after (0x2D :: used) → View after left →
      Turn lx after (0x2D :: used) left := fun moves view =>
    ⟨⟨_, moves, view, .inl rfl⟩, region, fun member => absurd member oneLine,
      List.cons_ne_nil _ _⟩
  refine ⟨0x2D :: used, left, rfl, ?_⟩
  unfold lexMinusOrNegativeNumber
  dsimp only
  rw [peekCp_of_view next, if_pos starts]
  split
  · exact silent (moves.report_start _ _) reads.view
  · next inRange =>
      simp only [Bool.or_eq_true, Bool.not_eq_true', decide_eq_true_eq, not_or,
        Bool.not_eq_false] at inRange
      split
      · next ok =>
          rw [reads.val inRange.1]
          exact .push moves reads.view oneLine region (List.cons_ne_nil _ _)
            (.negative (isNumber ok)) rfl (Nat.le_refl _) TokenType.noConfusion (moves.col oneLine)
      · exact silent moves reads.view

/-- A minus without a digit behind it moves the column twice. -/
theorem lexMinus_lone (view : View lx (0x2D :: cps))
    (alone : isNumberStart (nextCp cps) = false) :
    lexMinusOrNegativeNumber lx lx.line lx.col =
      pushTokenValue { skipCp lx with col := lx.col + 2 } .minus [0x2D] lx.line lx.col
        (lx.col + 1) := by
  obtain ⟨-, next⟩ := skipCp_passes view
  obtain ⟨-, -, -, isMinus, -⟩ := Codepoints.decodes view
  rw [lexMinus_notNumber (by rw [peekCp_of_view next]; exact alone)]
  have skipped : ∀ lx' : Lexer, lx'.rest = lx.rest →
      skipCp lx' = { lx' with rest := (utf8NextCodepoint lx.rest).2, col := lx'.col + 1 } := by
    intro lx' sameRest
    unfold skipCp
    rw [sameRest]
    dsimp only
    rw [isMinus, if_neg (by decide)]
  rw [skipped lx rfl]
  exact congrArg (pushTokenValue · .minus [0x2D] lx.line lx.col (lx.col + 1)) (skipped _ rfl)

/-! ## Names -/

theorem oneLine_continues (all : ∀ cp ∈ used, continuesDirective cp = true) : 0x0A ∉ used :=
  fun member => absurd (all _ member) (by decide)

theorem turn_directive (view : View lx (0x2E :: cps)) :
    ∃ used left, 0x2E :: cps = used ++ left ∧
      Turn lx (lexDirective lx lx.line lx.col) used left := by
  obtain ⟨passes, next⟩ := skipCp_passes view
  obtain ⟨further, last⟩ := skipWhile_passes continuesDirective (skipCp lx).rest.length next
    (fuel_of_view next)
  obtain ⟨-, isName⟩ := consumed_of_passes further
  have moves := (passes.trans further).moves
  have all := @all_takeWhile continuesDirective cps
  have oneLine : 0x0A ∉ [0x2E] ++ cps.takeWhile continuesDirective := by
    rw [List.singleton_append, List.mem_cons, not_or]
    exact ⟨by decide, oneLine_continues all⟩
  have ordinary : ∀ cp ∈ [0x2E] ++ cps.takeWhile continuesDirective, isOrdinary cp = true := by
    rw [List.singleton_append]
    exact List.forall_mem_cons.mpr ⟨by decide, fun cp member => ordinary_continues (all cp member)⟩
  refine ⟨[0x2E] ++ cps.takeWhile continuesDirective, cps.dropWhile continuesDirective, ?_, ?_⟩
  · rw [List.append_assoc, List.takeWhile_append_dropWhile]
    rfl
  · exact .push moves last oneLine (hasLoneMinus_ordinary ordinary) (List.cons_ne_nil _ _)
      (.directive isName all (nextCp_dropWhile (by decide) _)) rfl (Nat.le_refl _)
      TokenType.noConfusion (moves.col oneLine)

theorem continuesDirective_of_ident (continues : isIdentContinue cp = true) :
    continuesDirective cp = true := by
  rw [continuesDirective, continues, Bool.true_or]

theorem wordType_word {vocabulary : Vocabulary} {text : List UInt8} {type : TokenType}
    (isType : wordType vocabulary text = some type) : type ∈ [.mnemonic, .register, .labelRef] := by
  unfold wordType at isType
  repeat' split at isType
  all_goals first
    | contradiction
    | (rw [← Option.some.inj isType]; decide)

theorem turn_ident (view : View lx (cp :: cps)) (starts : isIdentStart cp = true) :
    ∃ used left, cp :: cps = used ++ left ∧
      Turn lx (lexIdentifier lx lx.line lx.col) used left := by
  obtain ⟨passes, next⟩ := scanIdent_passes view
  obtain ⟨-, isText⟩ := consumed_of_passes passes
  have isHead := isIdentContinue_of_start starts
  have isName : IdentText (consumed lx (scanIdent lx)) := by
    rw [List.takeWhile_cons_of_pos isHead] at isText
    exact ⟨cp, _, isText, starts, all_takeWhile _⟩
  have all : ∀ other ∈ (cp :: cps).takeWhile isIdentContinue, continuesDirective other = true :=
    fun other member => continuesDirective_of_ident (all_takeWhile _ other member)
  have nonempty : (cp :: cps).takeWhile isIdentContinue ≠ [] := by
    rw [List.takeWhile_cons_of_pos isHead]
    exact List.cons_ne_nil _ _
  have stops : isIdentContinue (nextCp ((cp :: cps).dropWhile isIdentContinue)) = false :=
    nextCp_dropWhile (by decide) _
  have whole := (List.takeWhile_append_dropWhile (p := isIdentContinue) (l := cp :: cps)).symm
  rw [lexIdentifier_eq rfl rfl next]
  generalize (cp :: cps).takeWhile isIdentContinue = used at passes isText all nonempty whole
  generalize (cp :: cps).dropWhile isIdentContinue = back at next stops whole ⊢
  rw [whole]
  generalize consumed lx (scanIdent lx) = name at isText isName
  generalize scanIdent lx = after at passes next
  have oneLine := oneLine_continues all
  have ordinary : ∀ cp ∈ used, isOrdinary cp = true :=
    fun cp member => ordinary_continues (all cp member)
  -- reported or not, the name has been passed over
  have reported : Moves lx (lexReservedPrefixError after lx.line lx.col after.col) used :=
    passes.moves.report_start _ _
  have endCol := passes.moves.col oneLine
  split
  · next colon =>
      obtain ⟨left, rfl⟩ : ∃ left, back = 0x3A :: left := by
        cases back with
        | nil => contradiction
        | cons cp left => exact ⟨left, by rw [Option.some.inj colon]⟩
      have named : ∀ middle, Moves lx middle used → View middle (0x3A :: left) →
          Turn lx (pushTokenValue (skipCp middle) .labelDef name lx.line lx.col
            ((skipCp middle).col - 1)) (used ++ [0x3A]) left := by
        intro middle moves view
        obtain ⟨colonPasses, last⟩ := skipCp_passes view
        have allMoves := moves.trans colonPasses.moves
        have oneLine' : 0x0A ∉ used ++ [0x3A] := by simp [oneLine]
        have isEnd := allMoves.col oneLine'
        have ordinary' : ∀ cp ∈ used ++ [0x3A], isOrdinary cp = true := by
          rw [List.forall_mem_append]
          exact ⟨ordinary, by decide⟩
        exact .push allMoves last oneLine' (hasLoneMinus_ordinary ordinary') (by simp)
          (.label isName isText) (by rw [List.append_assoc]; rfl) (by simp) TokenType.noConfusion
          (by rw [isEnd, List.length_append]; rfl)
      refine ⟨used ++ [0x3A], left, by rw [List.append_assoc]; rfl, ?_⟩
      dsimp only
      split
      · exact named _ reported next
      · exact named _ passes.moves next
  · refine ⟨used, back, rfl, ?_⟩
    split
    · next type isType =>
        have isWord := wordType_word isType
        refine .push passes.moves next oneLine (hasLoneMinus_ordinary ordinary) nonempty
          (.word isWord isName isText stops) rfl (Nat.le_refl _) ?_ endCol
        rintro (rfl : type = .newline)
        contradiction
    · exact .push reported next oneLine (hasLoneMinus_ordinary ordinary) nonempty
        (.word (by decide) isName isText stops) rfl (Nat.le_refl _) TokenType.noConfusion endCol

/-! ## Strings -/

/-- What is reported stays. -/
def Grows (before after : Lexer) : Prop :=
  (before.errors.fatal = true → after.errors.fatal = true) ∧
    ∀ e ∈ before.errors.errors, e ∈ after.errors.errors

theorem Moves.grows (moves : Moves before after used) : Grows before after := by
  obtain ⟨fatal, more, errors, -⟩ := moves.reports
  exact ⟨fatal, fun e member => by rw [errors]; exact List.mem_append_left _ member⟩

theorem ContinuedReported.grows (continued : ContinuedReported start lx done)
    (grows : Grows lx after) (used : List Nat) : ContinuedReported start after (done ++ used) := by
  obtain ⟨front, back, rfl, oneLine, reported⟩ := continued
  refine ⟨front, back ++ used, by simp, oneLine, ?_⟩
  rcases reported with isFatal | ⟨e, member, position⟩
  · exact .inl (grows.1 isFatal)
  · exact .inr ⟨e, grows.2 e member, position⟩

/-- What the loop of a string comes to, when `done` has been passed over and `buf`
read. -/
def StringTurn (start result : Lexer) (done cps : List Nat) (buf : List UInt8) (ok : Bool) : Prop :=
  ∃ used left middle, cps = used ++ left ∧ Moves start middle (done ++ used) ∧ View middle left ∧
    hasLoneMinus .string cps = hasLoneMinus .code left ∧
    (0x0A ∈ done ++ used → ContinuedReported start middle (done ++ used)) ∧
    (result = middle ∨ ok = true ∧ ∃ text value, Codepoints text used ∧ StringText text value ∧
      result = pushTokenValue middle .string (buf ++ value) start.line start.col middle.col)

/-- A part of a string that is passed over before the rest of it. -/
theorem StringTurn.passed {result : Lexer} {buf buf' : List UInt8} {ok ok' : Bool}
    (region : hasLoneMinus .string (used ++ cps) = hasLoneMinus .string cps)
    (values : ok' = true → ok = true ∧ ∃ bytes piece, Codepoints bytes used ∧
      buf' = buf ++ piece ∧ ∀ text value, StringText text value →
        StringText (bytes ++ text) (piece ++ value))
    (turn : StringTurn start result (done ++ used) cps buf' ok') :
    StringTurn start result done (used ++ cps) buf ok := by
  obtain ⟨further, left, middle, rfl, moves, view, same, continued, outcome⟩ := turn
  rw [List.append_assoc] at moves continued
  refine ⟨used ++ further, left, middle, (List.append_assoc ..).symm, moves, view,
    region.trans same, continued, ?_⟩
  rcases outcome with silent | ⟨isOk, text, value, isText, isString, pushed⟩
  · exact .inl silent
  · obtain ⟨ok, bytes, piece, isBytes, rfl, reads⟩ := values isOk
    refine .inr ⟨ok, bytes ++ text, piece ++ value, isBytes.append isText, reads _ _ isString, ?_⟩
    rw [pushed, List.append_assoc]

/-- A string that does not end is reported where it starts. -/
theorem StringTurn.unclosed {buf : List UInt8} {ok : Bool} (split : cps = used ++ left)
    (moves : Moves start middle (done ++ used)) (view : View middle left)
    (region : hasLoneMinus .string cps = hasLoneMinus .code left)
    (continued : 0x0A ∈ done ++ used → ContinuedReported start middle (done ++ used)) :
    StringTurn start (lexErrorAt middle start.line start.col middle.col unclosedString) done cps
      buf ok := by
  have grows : Grows middle (lexErrorAt middle start.line start.col middle.col unclosedString) := by
    obtain ⟨fatal, more, errors, -⟩ :=
      errorAddSpan_cases middle.errors middle.name start.line start.col middle.col unclosedString
    refine ⟨fatal, fun e member => ?_⟩
    have same : (lexErrorAt middle start.line start.col middle.col unclosedString).errors.errors =
        middle.errors.errors ++ more := errors
    rw [same]
    exact List.mem_append_left _ member
  refine ⟨used, left, _, split, moves.report_start _ _, view, region, fun member => ?_, .inl rfl⟩
  have stays := (continued member).grows grows []
  rwa [List.append_nil] at stays

/-- After an escape that is reported. -/
def afterEscapeError (lx : Lexer) (msg : List UInt8) : Lexer :=
  skipCp (lexErrorAt (skipCp lx) (skipCp lx).line (skipCp lx).col ((skipCp lx).col + 1) msg)

theorem escape_moves {esc : Nat} (moves : Moves start lx done)
    (view : View lx (0x5C :: esc :: cps)) (msg : List UInt8) :
    Moves start (afterEscapeError lx msg) (done ++ [0x5C, esc]) := by
  obtain ⟨passes, next⟩ := skipCp_passes view
  have reported := (moves.trans passes.moves).report_end ((skipCp lx).col + 1) msg
  have next' : View (lexErrorAt (skipCp lx) (skipCp lx).line (skipCp lx).col
    ((skipCp lx).col + 1) msg) (esc :: cps) := next
  have whole := reported.trans (skipCp_passes next').1.moves
  rwa [List.append_assoc] at whole

/-- A line that an unknown escape continues is reported at its end. -/
theorem escape_continued {esc : Nat} (moves : Moves start lx done)
    (view : View lx (0x5C :: esc :: cps))
    (continued : 0x0A ∈ done → ContinuedReported start lx done) (msg : List UInt8)
    (member : 0x0A ∈ done ++ [0x5C, esc]) :
    ContinuedReported start (afterEscapeError lx msg) (done ++ [0x5C, esc]) := by
  obtain ⟨passes, next⟩ := skipCp_passes view
  have both := @escape_moves lx lx cps [] esc (Passes.refl lx).moves view msg
  by_cases early : 0x0A ∈ done
  · exact (continued early).grows both.grows _
  · have isNewline : esc = 0x0A := by
      rcases List.mem_append.mp member with other | late
      · exact absurd other early
      · rcases List.mem_pair.mp late with other | same
        · exact absurd other (by decide)
        · exact same.symm
    refine ⟨done, [], by rw [isNewline], early, ?_⟩
    obtain ⟨-, more, errors, isHere, reported⟩ := errorAddSpan_cases (skipCp lx).errors
      (skipCp lx).name (skipCp lx).line (skipCp lx).col ((skipCp lx).col + 1) msg
    have sameErrors : (afterEscapeError lx msg).errors = errorAddSpan (skipCp lx).errors
        (skipCp lx).name (skipCp lx).line (skipCp lx).col ((skipCp lx).col + 1) msg :=
      skipCp_errors _
    rw [sameErrors]
    rcases reported with isFatal | some_
    · exact .inl isFatal
    · obtain ⟨e, rest, rfl⟩ := List.exists_cons_of_ne_nil some_
      obtain ⟨isLine, isCol⟩ := isHere e List.mem_cons_self
      refine .inr ⟨e, by rw [errors]; simp, ?_⟩
      rw [isLine, isCol, ← (moves.trans passes.moves).position]
      rfl

/-- The loop of a string passes over it, and reports where it starts or at an
escape. -/
theorem lexStringLoop_turn (fuel : Nat) (moves : Moves start lx done) (view : View lx cps)
    (enough : cps.length < fuel) (continued : 0x0A ∈ done → ContinuedReported start lx done)
    (buf : List UInt8) (ok : Bool) :
    StringTurn start (lexStringLoop start.line start.col fuel lx buf ok) done cps buf ok := by
  induction fuel generalizing lx done cps buf ok with
  | zero => exact absurd enough (Nat.not_lt_zero _)
  | succ fuel inductionHypothesis =>
      -- codepoints that are no newline leave what is known of the newlines
      have onLine : ∀ {after : Lexer} {used : List Nat}, Moves lx after used → 0x0A ∉ used →
          0x0A ∈ done ++ used → ContinuedReported start after (done ++ used) := by
        intro after used moves oneLine member
        rcases List.mem_append.mp member with early | late
        · exact (continued early).grows moves.grows used
        · exact absurd late oneLine
      have nothing : lx = lx ∧ Moves start lx (done ++ []) ∧
          (0x0A ∈ done ++ [] → ContinuedReported start lx (done ++ [])) := by
        rw [List.append_nil]
        exact ⟨rfl, moves, continued⟩
      rw [lexStringLoop, atEnd_of_view view, atIllFormedUtf8_of_view view]
      cases cps with
      | nil => exact .unclosed (List.append_nil _).symm nothing.2.1 view rfl nothing.2.2
      | cons cp cps =>
          rw [List.isEmpty_cons, if_neg (by decide), if_neg (by decide)]
          dsimp only
          have isNext : peekCp lx = cp := peekCp_of_view view
          rw [isNext]
          obtain ⟨passes, next⟩ := skipCp_passes view
          have shorter := Nat.lt_of_succ_lt_succ enough
          split
          · next quote =>
              subst quote
              refine ⟨[0x22], cps, skipCp lx, rfl, moves.trans passes.moves, next,
                hasLoneMinus_cons (.inl (by decide)), onLine passes.moves (by decide), ?_⟩
              cases ok with
              | true => exact .inr ⟨rfl, [0x22], [], codepoints_ascii 0x22 (by decide), .close,
                  by simp⟩
              | false => exact .inl rfl
          · next notQuote =>
              split
              · next ends =>
                  have region : hasLoneMinus .string (cp :: cps) = hasLoneMinus .code (cp :: cps) := by
                    rw [hasLoneMinus_cons (.inl (by decide)), Region.after, if_pos (.inr ends)]
                    have ordinary : ∀ other ∈ [cp], isOrdinary other = true := by
                      rcases ends with rfl | rfl <;> decide
                    exact (@hasLoneMinus_ordinary [cp] cps ordinary).symm
                  exact .unclosed (List.nil_append _).symm nothing.2.1 view region nothing.2.2
              · next notEnd =>
                  have notNewline : 0x0A ∉ [cp] := by simp; omega
                  split
                  · next backslash =>
                      subst backslash
                      rw [atEnd_of_view next]
                      cases cps with
                      | nil =>
                          rw [List.isEmpty_nil, if_pos rfl]
                          exact .unclosed rfl (moves.trans passes.moves) next rfl
                            (onLine passes.moves notNewline)
                      | cons esc cps =>
                          rw [List.isEmpty_cons, if_neg (by decide), peekCp_of_view next]
                          have isEsc : nextCp (esc :: cps) = esc := rfl
                          rw [isEsc]
                          obtain ⟨passesEsc, afterEsc⟩ := skipCp_passes next
                          have region : hasLoneMinus .string ([0x5C, esc] ++ cps) =
                              hasLoneMinus .string cps := by
                            rw [List.cons_append, hasLoneMinus_cons (.inl (by decide))]
                            exact hasLoneMinus_cons (.inl (by decide))
                          have far := Nat.lt_of_succ_lt shorter
                          split
                          · next out isEscape =>
                              have small := escapeByte_small isEscape
                              have both := passes.moves.trans passesEsc.moves
                              have notLine : 0x0A ∉ [0x5C] ++ [esc] := by
                                rintro member
                                rcases List.mem_pair.mp member with other | rfl
                                · exact absurd other (by decide)
                                · have none : escapeByte 0x0A = none := by decide
                                  rw [none] at isEscape
                                  contradiction
                              have isByte : (UInt8.ofNat esc).toNat = esc := by
                                rw [UInt8.toNat_ofNat']
                                omega
                              have isText : Codepoints [0x5C, UInt8.ofNat esc] [0x5C, esc] := by
                                have escText := codepoints_ascii (UInt8.ofNat esc) (by omega)
                                rw [isByte] at escText
                                exact .cons (.byte 0x5C (by decide)) escText
                              refine .passed region (fun isOk => ⟨isOk, _, _, isText, rfl,
                                fun text value isString => ?_⟩) (inductionHypothesis
                                (moves.trans both) afterEsc far (onLine both notLine) _ ok)
                              exact .escape (by rw [isByte]; exact small)
                                (by rw [isByte]; exact isEscape) isString
                          · next noEscape =>
                              refine .passed region (fun isOk => absurd isOk (by decide))
                                (inductionHypothesis ?_ ?_ far ?_ buf false)
                              · exact escape_moves moves view _
                              · exact (skipCp_passes (show View (lexErrorAt (skipCp lx) _ _ _ _)
                                  (esc :: cps) from next)).2
                              · exact escape_continued moves view continued _
                  · next notEscape =>
                      obtain ⟨bytes, split, isText⟩ := passes.text
                      obtain ⟨text, rest, rfl, encodes, isRest⟩ := Codepoints.split isText
                      rw [Codepoints.eq_nil isRest, List.append_nil] at split
                      rw [(passes.rest_eq (.single encodes) split).2]
                      have notQuote' : ¬(cp = 0x22 ∨ cp = 0x0A ∨ cp = 0x0D) := by omega
                      have region : hasLoneMinus .string ([cp] ++ cps) =
                          hasLoneMinus .string cps := by
                        rw [List.singleton_append, hasLoneMinus_cons (.inl (by decide)),
                          Region.after, if_neg notQuote', if_neg notEscape]
                      refine .passed region (fun isOk => ⟨isOk, _, _, .single encodes, rfl,
                        fun text value isString => ?_⟩) (inductionHypothesis
                        (moves.trans passes.moves) next shorter (onLine passes.moves notNewline) _
                        ok)
                      exact .plain encodes notQuote (by omega) (by omega) notEscape isString

theorem turn_string (view : View lx (0x22 :: cps)) :
    ∃ used left, 0x22 :: cps = used ++ left ∧
      Turn lx (lexString lx lx.line lx.col) used left := by
  obtain ⟨passes, next⟩ := skipCp_passes view
  obtain ⟨used, left, middle, rfl, moves, last, region, continued, outcome⟩ :=
    lexStringLoop_turn ((skipCp lx).rest.length + 1) passes.moves next
      (Nat.lt_succ_of_le (fuel_of_view next)) (fun member => absurd member (by decide)) [] true
  have result : lexString lx lx.line lx.col =
    lexStringLoop lx.line lx.col ((skipCp lx).rest.length + 1) (skipCp lx) [] true := rfl
  rw [← result] at outcome
  have region' : hasLoneMinus .code ([0x22] ++ used ++ left) = hasLoneMinus .code left := by
    rw [List.append_assoc, List.singleton_append, hasLoneMinus_cons (.inr (by decide))]
    exact region
  refine ⟨[0x22] ++ used, left, rfl, ?_⟩
  rcases outcome with silent | ⟨-, text, value, isText, isString, pushed⟩
  · rw [silent]
    exact ⟨⟨middle, moves, last, .inl rfl⟩, region', fun member => .inr (continued member),
      List.cons_ne_nil _ _⟩
  · obtain ⟨cps', isText', clean⟩ := isString.noLineEnd
    obtain rfl : used = cps' := isText.functional isText'
    have oneLine : 0x0A ∉ [0x22] ++ used := by
      rw [List.singleton_append, List.mem_cons, not_or]
      exact ⟨by decide, fun member => (clean _ member).1 rfl⟩
    rw [pushed, List.nil_append]
    exact .push moves last oneLine region' (List.cons_ne_nil _ _) (.string isText isString) rfl
      (Nat.le_refl _) TokenType.noConfusion (moves.col oneLine)

/-! ## All turns -/

/-- A turn counts what it reads, unless it reads a lone minus. -/
theorem lexStep_turn (view : View lx (cp :: cps)) :
    (cp = 0x2D ∧ isNumberStart (nextCp cps) = false ∧ lexStep lx =
      pushTokenValue { skipCp lx with col := lx.col + 2 } .minus [0x2D] lx.line lx.col
        (lx.col + 1)) ∨
    ∃ used left, cp :: cps = used ++ left ∧ Turn lx (lexStep lx) used left := by
  have isNext : peekCp lx = cp := peekCp_of_view view
  unfold lexStep
  dsimp only
  rw [isNext]
  split
  · next blank => exact .inr ⟨[cp], cps, rfl, turn_blank view blank⟩
  · split
    · next newline =>
        subst newline
        exact .inr ⟨[0x0A], cps, rfl, turn_newline view⟩
    · next notNewline =>
        split
        · next semicolon =>
            subst semicolon
            exact .inr (turn_comment view)
        · next notSemicolon =>
            split
            · next single => exact .inr ⟨[cp], cps, rfl, turn_single view single⟩
            · split
              · next minus =>
                  subst minus
                  cases starts : isNumberStart (nextCp cps) with
                  | true => exact .inr (turn_negative view starts)
                  | false => exact .inl ⟨rfl, rfl, lexMinus_lone view starts⟩
              · next notMinus =>
                  split
                  · next dot =>
                      subst dot
                      exact .inr (turn_directive view)
                  · split
                    · next quote =>
                        subst quote
                        exact .inr (turn_string view)
                    · next notQuote =>
                        split
                        · next starts => exact .inr (turn_number view starts)
                        · split
                          · next starts => exact .inr (turn_ident view starts)
                          · rw [atIllFormedUtf8_of_view view, if_neg (by decide)]
                            have ordinary : isOrdinary cp = true := by
                              simp [isOrdinary, notMinus, notQuote, notSemicolon]
                            exact .inr ⟨[cp], cps, rfl, turn_unknown view ordinary notNewline _⟩

end Turns

end Nazm.Lexer
