import Nazm.Lexer.StringLiterals
import Nazm.Parser.SourceLines
import Nazm.Passes.DirectiveRules

/-!
The strings of `.سلسلة_منتهية_بصفر`.

Owns the lines that hold quoted strings, the statement that such a line denotes,
and that pass 2 writes the strings of such a statement, each with a zero byte
after it.

Does not own the reading of a single literal.
-/

namespace Nazm.Passes

open FieldEdits
open Nazm.Encoder Nazm.Parser Nazm.Lexer Nazm.Symtable Nazm.Unicode Nazm.Diagnostics Utf8

/-! ## Lines -/

def nulStringName : List UInt8 := utf8 ".سلسلة_منتهية_بصفر"

/-- The commas between operands. -/
def IsComma (text : List UInt8) : Prop := text = [0x2C] ∨ text = utf8 "،"

/-- Quoted strings with a comma between each two and blanks around them. -/
inductive StringsText : List UInt8 → List (List UInt8) → Prop where
  | last {left body right string : List UInt8} :
      Blanks left → Quoted string body → Blanks right →
      StringsText (left ++ 0x22 :: (body ++ 0x22 :: right)) [string]
  | cons {left body right comma rest string : List UInt8} {strings : List (List UInt8)} :
      Blanks left → Quoted string body → Blanks right → IsComma comma → StringsText rest strings →
      StringsText (left ++ 0x22 :: (body ++ 0x22 :: (right ++ (comma ++ rest)))) (string :: strings)

/-- A statement without its spans has the same operands. -/
theorem kinds_renamed_id (instr : Instruction) :
    (instr.renamed id).ops.map Operand.kind = instr.ops.map Operand.kind := by
  rw [Instruction.renamed, List.map_map]
  exact List.map_congr_left fun op _ => kind_renamed_id op.kind

section Lines

variable {text : List UInt8} {strings : List (List UInt8)}

theorem IsComma.spells {comma : List UInt8} (isComma : IsComma comma) (next : Option Nat) :
    Spells .nazm comma (.token (.comma, comma)) next := by
  rcases isComma with rfl | rfl
  · exact .single (.byte 0x2C (by decide)) (by decide)
  · exact .single encodes_arabicComma (by decide)

/-- The lexemes of quoted strings are operands that hold them. -/
theorem StringsText.spelled (isStrings : StringsText text strings) :
    ∃ given ops, SpelledAs text given ∧ LooseText .nazm (plainTokens given) ops ∧
      ops.map Operand.kind = strings.map .string := by
  induction isStrings with
  | @last left body right string leftBlank quoted rightBlank =>
      have ended := spelledAs_nil.blanks rightBlank
      have literal := SpelledAs.token (quoted.spells _) (by simp) ended
      have isList : LooseText .nazm [⟨.string, string, 0, 0, 0⟩]
          [spanned [⟨.string, string, 0, 0, 0⟩] (.string string)] := .cons (.word rfl) .nil
      refine ⟨[(.string, string)], _, ?_, isList, rfl⟩
      have whole := literal.blanks leftBlank
      simpa using whole
  | @cons left body right comma rest string strings leftBlank quoted rightBlank isComma _
      inductionHypothesis =>
      obtain ⟨given, ops, spelled, isList, kinds⟩ := inductionHypothesis
      have separated := SpelledAs.token (isComma.spells _) (by simp) spelled
      have literal := SpelledAs.token (quoted.spells _) (by simp) (separated.blanks rightBlank)
      have isWhole : LooseText .nazm
          (⟨.string, string, 0, 0, 0⟩ :: ⟨.comma, comma, 0, 0, 0⟩ :: plainTokens given)
          (spanned [⟨.string, string, 0, 0, 0⟩] (.string string) :: ops) :=
        .cons (.word rfl) (.comma rfl isList)
      refine ⟨(.string, string) :: (.comma, comma) :: given, _, ?_, isWhole, ?_⟩
      · have whole := literal.blanks leftBlank
        simpa using whole
      · rw [List.map_cons, List.map_cons, kinds]
        rfl

theorem StringsText.first (isStrings : StringsText text strings) :
    continuesDirective ((firstCodepoint text).getD 0) = false := by
  have blank : ∀ {left rest : List UInt8}, Blanks left →
      firstCodepoint (left ++ 0x22 :: rest) ∈ [some 0x20, some 0x09, some 0x0D, some 0x22] := by
    intro left rest areBlank
    cases left with
    | nil =>
        rw [List.nil_append, firstCodepoint_ascii (by decide)]
        decide
    | cons byte left =>
        rw [List.cons_append, firstCodepoint_ascii (blank_small (areBlank byte (by simp))).1]
        rcases isBlankByte_iff.mp (areBlank byte (by simp)) with rfl | rfl | rfl <;> decide
  have stops : ∀ follow ∈ [some 0x20, some 0x09, some 0x0D, some 0x22],
      continuesDirective (follow.getD 0) = false := by decide
  cases isStrings with
  | last leftBlank => exact stops _ (blank leftBlank)
  | cons leftBlank => exact stops _ (blank leftBlank)

/-- The statement that a line of quoted strings denotes. -/
theorem StringsText.denotes (isStrings : StringsText text strings) (count : strings.length ≤ 3) :
    ∃ instr, Denotes (nulStringName ++ text) [instr] ∧ instr.directiveKind = .nulString ∧
      instr.label = none ∧ instr.ops.map Operand.kind = strings.map .string := by
  obtain ⟨given, ops, spelled, isList, kinds⟩ := isStrings.spelled
  have isName : ∃ cps, Codepoints nulStringName.tail cps ∧
      ∀ cp ∈ cps, continuesDirective cp = true := by
    have decoded : codepoints? nulStringName.tail.length nulStringName.tail =
        some ((codepoints? nulStringName.tail.length nulStringName.tail).getD []) := by
      decide +kernel
    exact ⟨_, codepoints?_sound decoded, by decide +kernel⟩
  obtain ⟨cps, isCps, continues⟩ := isName
  have line := SpelledAs.token (.directive isCps continues isStrings.first) (by simp) spelled
  have number : ops.length ≤ maxOperands := by
    have lengths := congrArg List.length kinds
    rw [List.length_map, List.length_map] at lengths
    rw [lengths]
    exact count
  have isLine : LineText .nazm (plainTokens ((.directive, nulStringName) :: given)) _ :=
    .statement (.directive rfl (by decide +kernel) isList number)
  refine ⟨_, line.denotes isLine, ?_, rfl, ?_⟩
  · exact (by decide +kernel : directiveLookup nulStringName = .nulString)
  · rw [kinds_renamed_id]
    exact kinds

end Lines

/-! ## Statements -/

/-- The bytes of some strings, each with a zero byte after it. -/
def stringsBytes (strings : List (List UInt8)) : List UInt8 := strings.flatMap (· ++ [0])

section Statements

variable {instructions : InstructionList} {before after : List Instruction} {instr : Instruction}
  {strings : List (List UInt8)}

theorem flatMap_stringBytes {ops : List Operand}
    (kinds : ops.map Operand.kind = strings.map .string) :
    ops.flatMap stringBytes = stringsBytes strings := by
  induction ops generalizing strings with
  | nil =>
      obtain rfl := List.map_eq_nil_iff.mp kinds.symm
      rfl
  | cons op ops inductionHypothesis =>
      obtain ⟨string, strings, rfl, kind, rest⟩ := List.map_eq_cons_iff.mp kinds.symm
      rw [List.flatMap_cons, inductionHypothesis rest.symm, stringBytes, ← kind]
      rfl

theorem stringOperands_of_kinds (kinds : instr.ops.map Operand.kind = strings.map .string)
    (some_ : strings ≠ []) : StringOperands (instr.ops.map Operand.kind) := by
  rw [kinds]
  refine ⟨fun none => some_ (List.map_eq_nil_iff.mp none), fun kind member => ?_⟩
  obtain ⟨string, -, rfl⟩ := List.mem_map.mp member
  exact ⟨string, rfl⟩

/-- What becomes of a statement of strings. -/
structure StringsWritten (instructions : InstructionList) (before : List Instruction)
    (instr : Instruction) (bytes : List UInt8) : Prop where
  unreported : currentSection before = .data ∨ currentSection before = .readOnlyData →
    ¬Reported instructions before instr
  written : errorHasAny (pass1Run instructions).errors = false → ∀ state,
    pass2Walk instructions (pass1Run instructions) before = .ok state →
    DirectiveWritten instructions before instr state bytes
  emitted : ProgramAccepted instructions →
    (currentSection before = .data ∨ currentSection before = .readOnlyData) ∧
    slice ((pass2Run instructions (pass1Run instructions)).bytesIn (currentSection before))
      (Layout.after before).offset bytes.length = bytes

/-- A statement of strings is accepted in a section with bytes, and is written as
its strings. -/
theorem stringsWritten (split : instructions.data = before ++ instr :: after)
    (kind : instr.directiveKind = .nulString) (label : instr.label = none)
    (kinds : instr.ops.map Operand.kind = strings.map .string) (some_ : strings ≠ [])
    (count : instr.ops.length ≤ maxOperands) (small : operandsWeight instr.ops < 2 ^ 31) :
    StringsWritten instructions before instr (stringsBytes strings) := by
  have isData : isDataDirective instr.directiveKind = true := by rw [kind]; rfl
  have operands := stringOperands_of_kinds kinds some_
  have faultless := (dataDirectiveFault_nulString kind).mpr operands
  have isBytes : ∀ offset, dataDirectiveBytes instr offset = stringsBytes strings := by
    intro offset
    rw [dataDirectiveBytes, kind]
    exact flatMap_stringBytes kinds
  have written : errorHasAny (pass1Run instructions).errors = false → ∀ state,
      pass2Walk instructions (pass1Run instructions) before = .ok state →
      DirectiveWritten instructions before instr state (stringsBytes strings) := by
    intro sized state reached
    have notBss : state.currentSection ≠ .bss := by
      intro bss
      have accepted := statementAccepted sized split
      rw [← pass2Walk_layout sized split reached] at accepted
      rcases accepted.bssOnly isData bss with other | other <;> rw [kind] at other <;> contradiction
    have holds := directiveWritten sized split reached isData notBss
      (dataDirectiveSizeAt_eq isData faultless small _)
    rwa [isBytes] at holds
  refine ⟨fun inData reported => ?_, written, fun accepted => ?_⟩
  · have follows : FollowsRules instructions.data before instr := by
      rw [FollowsRules, kind]
      refine ⟨⟨?_, ?_⟩, operands⟩ <;> rcases inData with same | same <;> simp [same]
    have noConflict : ¬SymbolConflict instructions before instr := by
      rintro ⟨event, isEvent, -⟩
      rw [statementEvent?, kind, definition?, definedLabel?, label, ite_self] at isEvent
      contradiction
    rcases (reported_iff (by simp [kind]) (by simp [kind, sectionSwitch?]) count).mp reported with
      breaks | conflict
    · exact breaks follows
    · exact noConflict conflict
  · obtain ⟨last, walked, result, -⟩ := pass2Run_clean accepted.encoded
    have whole := walked
    rw [split] at whole
    obtain ⟨state, reached, -⟩ := Walk.run_append_eq_ok.mp whole
    have holds := written accepted.sized state reached
    have layout := pass2Walk_layout accepted.sized split reached
    have here : state.currentSection = currentSection before := by
      rw [← currentSection_eq, ← layout]
      rfl
    have offset : state.result.sizes.get state.currentSection = (Layout.after before).offset := by
      rw [← layout]
      rfl
    have later := holds.later after last whole
    rw [offset, here] at later
    rw [result]
    exact ⟨here ▸ holds.section_, later⟩

end Statements

/-! ## Sources -/

/-- The lexer and the parser report nothing. -/
def SourceClean (src : SourceBuffer) : Prop :=
  errorHasAny (lexerLex src).errors = false ∧ errorHasAny (sourceParse src).errors = false

theorem sourceClean_iff {src : SourceBuffer} :
    SourceClean src ↔ ∃ spanless, Denotes src.data spanless := by
  constructor
  · rintro ⟨lexed, parsed⟩
    exact ⟨_, denotes_iff.mpr ⟨lexed, parsed, rfl⟩⟩
  · rintro ⟨spanless, denotes⟩
    obtain ⟨lexed, parsed, -⟩ := denotes_iff.mp denotes
    exact ⟨lexed, parsed⟩

/-- A line of quoted strings among other lines. -/
structure StringLine (src : SourceBuffer) (front back : List UInt8) (strings : List (List UInt8)) :
    Prop where
  text : ∃ text, src.data = front ++ (nulStringName ++ text ++ back) ∧ StringsText text strings
  fresh : front = [] ∨ ∃ start, front = start ++ [0x0A]
  ended : back = [] ∨ ∃ rest, back = 0x0A :: rest
  count : strings.length ≤ 3
  limit : src.data.length ≤ nazmApiMaxSourceSize

theorem StringsText.nonempty {text : List UInt8} {strings : List (List UInt8)}
    (isStrings : StringsText text strings) : strings ≠ [] := by
  cases isStrings <;> exact List.cons_ne_nil _ _

/-- The line denotes its statement between those of the other lines. -/
theorem StringLine.denotes {src : SourceBuffer} {front back : List UInt8}
    {strings : List (List UInt8)} (line : StringLine src front back strings) :
    ∃ stmt, stmt.directiveKind = .nulString ∧ stmt.label = none ∧
      stmt.ops.map Operand.kind = strings.map .string ∧ ∀ spanless,
        Denotes src.data spanless ↔ ∃ one two, spanless = one ++ stmt :: two ∧
          Denotes front one ∧ Denotes back two := by
  obtain ⟨⟨text, whole, isStrings⟩, fresh, ended, count, -⟩ := line
  obtain ⟨stmt, denotes, kind, label, kinds⟩ := isStrings.denotes count
  refine ⟨stmt, kind, label, kinds, fun spanless => ?_⟩
  have lineAndBack : ∀ {rest}, Denotes (nulStringName ++ text ++ back) rest ↔
      ∃ two, rest = stmt :: two ∧ Denotes back two := by
    intro rest
    rcases ended with rfl | ⟨last, rfl⟩
    · simp only [List.append_nil, denotes_nil, exists_eq_right]
      exact ⟨fun other => other.unique denotes, fun same => same ▸ denotes⟩
    · have append : nulStringName ++ text ++ 0x0A :: last =
          (nulStringName ++ text ++ [0x0A]) ++ last := by simp
      rw [append, denotes_append (.inr ⟨_, rfl⟩)]
      simp only [denotes_newline, denotes_finalNewline]
      constructor
      · rintro ⟨one, two, rfl, other, isBack⟩
        rw [other.unique denotes]
        exact ⟨two, rfl, isBack⟩
      · rintro ⟨two, rfl, isBack⟩
        exact ⟨[stmt], two, rfl, denotes, isBack⟩
  rw [whole, denotes_append fresh]
  simp only [lineAndBack]
  constructor
  · rintro ⟨one, _, rfl, isFront, two, rfl, isBack⟩
    exact ⟨one, two, rfl, isFront, isBack⟩
  · rintro ⟨one, two, rfl, isFront, isBack⟩
    exact ⟨one, stmt :: two, rfl, isFront, two, rfl, isBack⟩

/-- The statements of a source without spans. -/
def spanlessStatements (src : SourceBuffer) : List Instruction :=
  (sourceInstructions src).data.map (Instruction.renamed id)

theorem spanless_of_denotes {text : List UInt8} {spanless : List Instruction}
    (denotes : Denotes text spanless) : spanlessStatements ⟨text, none⟩ = spanless :=
  (@denotes_iff ⟨text, none⟩ spanless).mp denotes |>.2.2

/-- Strings come through unchanged. Every string can be quoted. A line of quoted
strings is read wherever it stands; in a section with bytes it is not reported,
and the strings are written at its offset, each with a zero byte after it. And
each literal that the lexer accepts stands for one string, the one in its
token, whatever the growth of the buffer. -/
theorem string_data_exact :
    (∀ string, WellFormed string → ∃ body, Quoted string body) ∧
    (∀ src front back strings, StringLine src front back strings →
      (SourceClean src ↔ SourceClean ⟨front, none⟩ ∧ SourceClean ⟨back, none⟩) ∧
      (SourceClean src → ∃ before instr after,
        (sourceInstructions src).data = before ++ instr :: after ∧
        before.map (Instruction.renamed id) = spanlessStatements ⟨front, none⟩ ∧
        after.map (Instruction.renamed id) = spanlessStatements ⟨back, none⟩ ∧
        instr.directiveKind = .nulString ∧ instr.ops.map Operand.kind = strings.map .string ∧
        StringsWritten (sourceInstructions src) before instr (stringsBytes strings))) ∧
    ∀ lx cps line col, View lx (0x22 :: cps) →
      (lexString lx line col = lexStringLoopBuffered line col ((skipCp lx).rest.length + 1)
        (skipCp lx) .init true) ∧
      (errorHasAny (lexString lx line col).errors = false →
        ∃ body string rest, lx.rest = 0x22 :: (body ++ 0x22 :: rest) ∧
          (lexString lx line col).rest = rest ∧
          (lexString lx line col).out.map Token.lexeme =
            lx.out.map Token.lexeme ++ [(.string, string)] ∧
          ∀ other, Literal body other ↔ other = string) := by
  refine ⟨fun _ wellFormed => exists_quoted wellFormed, fun src front back strings line => ?_,
    fun lx cps lineNumber col view => ⟨by rw [lexStringLoopBuffered_eq]; rfl,
      lexString_literal view lineNumber col⟩⟩
  obtain ⟨stmt, kind, label, kinds, denotes⟩ := line.denotes
  have someStrings : strings ≠ [] := line.text.choose_spec.2.nonempty
  constructor
  · have isFront := @sourceClean_iff ⟨front, none⟩
    have isBack := @sourceClean_iff ⟨back, none⟩
    rw [sourceClean_iff, isFront, isBack]
    simp only [denotes]
    constructor
    · rintro ⟨_, one, two, rfl, denotesFront, denotesBack⟩
      exact ⟨⟨one, denotesFront⟩, two, denotesBack⟩
    · rintro ⟨⟨one, denotesFront⟩, two, denotesBack⟩
      exact ⟨_, one, two, rfl, denotesFront, denotesBack⟩
  · rintro ⟨lexed, parsed⟩
    obtain ⟨one, two, whole, denotesFront, denotesBack⟩ :=
      (denotes _).mp (denotes_iff.mpr ⟨lexed, parsed, rfl⟩)
    obtain ⟨before, rest, isData, rfl, isRest⟩ := List.map_eq_append_iff.mp whole
    obtain ⟨instr, after, rfl, isStmt, rfl⟩ := List.map_eq_cons_iff.mp isRest
    have member : instr ∈ (parserParse (lexerLex src).tokens).instructions.data := by
      rw [isData]
      simp
    have sameKinds : instr.ops.map Operand.kind = strings.map .string := by
      rw [← kinds_renamed_id, isStmt, kinds]
    have isKind : instr.directiveKind = .nulString := by rw [← kind, ← isStmt]; rfl
    have noLabel : instr.label = none := by
      rw [← isStmt] at label
      exact Option.map_eq_none_iff.mp label
    have weight := parse_weight src
    have within := operandsWeight_le_of_mem member
    have limit := line.limit
    rw [nazmApiMaxSourceSize] at limit
    exact ⟨before, instr, after, isData, (spanless_of_denotes denotesFront).symm,
      (spanless_of_denotes denotesBack).symm, isKind, sameKinds,
      stringsWritten isData isKind noLabel sameKinds someStrings
        (operandCount parsed instr member) (by omega)⟩

/-- A letter and a quote in a data section. -/
theorem string_data_exact_letter :
    ∃ before instr after,
      (sourceInstructions ⟨utf8 ".بيانات\n.سلسلة_منتهية_بصفر \"أ\\\"\"", none⟩).data =
        before ++ instr :: after ∧
      StringsWritten (sourceInstructions
        ⟨utf8 ".بيانات\n.سلسلة_منتهية_بصفر \"أ\\\"\"", none⟩) before instr
        [0xD8, 0xA3, 0x22, 0x00] := by
  have letter : Encodes [0xD8, 0xA3] 0x623 :=
    encodes_of_character (.two (by decide) (by decide) (by decide))
  have quoted : Quoted [0xD8, 0xA3, 0x22] [0xD8, 0xA3, 0x5C, 0x22] :=
    .verbatim letter (by decide) (.escape (by decide) .nil)
  have space : Blanks [0x20] := fun byte isByte => by
    rw [List.mem_singleton.mp isByte]
    rfl
  have text : StringsText [0x20, 0x22, 0xD8, 0xA3, 0x5C, 0x22, 0x22] [[0xD8, 0xA3, 0x22]] :=
    .last space quoted fun _ isByte => absurd isByte List.not_mem_nil
  have line : StringLine ⟨utf8 ".بيانات\n.سلسلة_منتهية_بصفر \"أ\\\"\"", none⟩
      (utf8 ".بيانات\n") [] [[0xD8, 0xA3, 0x22]] :=
    ⟨⟨_, by decide +kernel, text⟩, .inr ⟨utf8 ".بيانات", by decide +kernel⟩, .inl rfl, by decide,
      by decide +kernel⟩
  obtain ⟨before, instr, after, split, -, -, -, -, written⟩ :=
    (string_data_exact.2.1 _ _ _ _ line).2 ⟨by decide +kernel, by decide +kernel⟩
  exact ⟨before, instr, after, split, written⟩

end Nazm.Passes
