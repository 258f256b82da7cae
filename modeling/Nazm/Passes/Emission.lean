import Nazm.Passes.Agreement

/-!
What an accepted program stands for, and that pass 2 writes exactly that.

Owns the abstract image of a statement (its bytes, relocations and emission
span at a layout), the image of a program, and the refinement: without errors,
every turn of pass 2 adds the image of its statement and nothing else.

Does not own how the image relates to machine instructions.
-/

namespace Nazm.Passes

open Nazm.Encoder Nazm.Parser Nazm.Lexer Nazm.Symtable Nazm.Unicode Nazm.Diagnostics

/-! ## The image of a statement -/

/-- The displacement a branch at `textSize` asks for: from its end to its label. -/
def branchDisplacement (symtable : SymbolTable) (instr : Instruction) (textSize : Nat) : Int :=
  match instr.ops with
  | [⟨.label label, _, _, _⟩] =>
      if opcodeUsesRelativeLabel instr.opcode then
        match symtableLookupEx symtable label with
        | some (targetOffset, _) => targetOffset - ((textSize + instructionSize instr : Nat) : Int)
        | none => 0
      else 0
  | _ => 0

/-- What the encoder returns for an instruction at `textSize`. -/
def instructionBytes (symtable : SymbolTable) (instr : Instruction) (textSize : Nat) :
    EncodedInstruction :=
  encoderEncode instr.opcode instr.ops (Int64.ofInt (branchDisplacement symtable instr textSize))

/-- An instruction that stands in `.text`. -/
def Layout.Emits (layout : Layout) (instr : Instruction) : Prop :=
  instr.directiveKind = .none ∧ instr.opcode ≠ .invalid ∧ layout.section_ = .text

instance (layout : Layout) (instr : Instruction) : Decidable (layout.Emits instr) :=
  inferInstanceAs (Decidable (_ ∧ _ ∧ _))

/-- A data directive that stands in a section with bytes. -/
def Layout.Stores (layout : Layout) (instr : Instruction) : Prop :=
  isDataDirective instr.directiveKind = true ∧
    (layout.section_ = .data ∨ layout.section_ = .readOnlyData)

instance (layout : Layout) (instr : Instruction) : Decidable (layout.Stores instr) :=
  inferInstanceAs (Decidable (_ ∧ _))

def statementBytes (symtable : SymbolTable) (layout : Layout) (instr : Instruction) :
    List UInt8 :=
  if layout.Emits instr then (instructionBytes symtable instr layout.sizes.text).getD []
  else if layout.Stores instr then dataDirectiveBytes instr layout.offset
  else []

/-- The relocation for a label operand of an instruction, where there is one. -/
def labelRelocation? (symtable : SymbolTable) (instr : Instruction) (textSize operandIndex : Nat)
    (op : Operand) : Option Relocation :=
  match op.kind with
  | .label label =>
      if opcodeUsesRelativeLabel instr.opcode then
        if (symtableLookupEx symtable label).isSome then none
        else some (branchRelocation instr textSize label)
      else if isMovRegLabel instr operandIndex then some (movRelocation textSize label)
      else none
  | _ => none

def labelRelocations (symtable : SymbolTable) (instr : Instruction) (textSize : Nat) :
    Nat → List Operand → List Relocation
  | _, [] => []
  | operandIndex, op :: ops =>
      (labelRelocation? symtable instr textSize operandIndex op).toList ++
        labelRelocations symtable instr textSize (operandIndex + 1) ops

/-- The relocations of the symbols of `.عدد٦٤` at an offset. -/
def dataRelocations (section_ : SymbolSection) (offset : Nat) : Nat → List Operand → List Relocation
  | _, [] => []
  | operandIndex, op :: ops =>
      match op.kind with
      | .label label =>
          ⟨pass2RelocationSection section_, .abs64, offset + operandIndex * 8, label, 0⟩ ::
            dataRelocations section_ offset (operandIndex + 1) ops
      | _ => dataRelocations section_ offset (operandIndex + 1) ops

theorem dataRelocations_of_other {section_ : SymbolSection} {offset operandIndex : Nat}
    {op : Operand} {ops : List Operand} (other : ∀ label, op.kind ≠ .label label) :
    dataRelocations section_ offset operandIndex (op :: ops) =
      dataRelocations section_ offset (operandIndex + 1) ops := by
  rw [dataRelocations]
  split
  · next kind => exact absurd kind (other _)
  · rfl

def statementRelocations (symtable : SymbolTable) (layout : Layout) (instr : Instruction) :
    List Relocation :=
  if layout.Emits instr then
    labelRelocations symtable instr layout.sizes.text 0 instr.ops ++
      ripRelocations layout.sizes.text (instructionSize instr) instr.ops
  else if layout.Stores instr ∧ instr.directiveKind = .int64 then
    dataRelocations layout.section_ layout.offset 0 instr.ops
  else []

/-- The emission span of a statement: nothing is emitted in `.bss`. -/
def statementSpan (layout : Layout) (instr : Instruction) : EmissionSpan :=
  ⟨layout.sectionAfter instr, layout.sizes.get (layout.sectionAfter instr),
    if layout.section_ = .bss then 0 else layout.statementSize instr⟩

/-! ## The image of a program -/

/-- The statements of a program, each with the layout it stands at. -/
def Layout.places : Layout → List Instruction → List (Layout × Instruction)
  | _, [] => []
  | layout, instr :: statements => (layout, instr) :: (layout.place instr).places statements

theorem Layout.places_append (layout : Layout) (before after_ : List Instruction) :
    layout.places (before ++ after_) =
      layout.places before ++ (before.foldl Layout.place layout).places after_ := by
  induction before generalizing layout with
  | nil => rfl
  | cons instr before inductionHypothesis =>
      simp [Layout.places, inductionHypothesis]

/-- What a program puts into a section. -/
def sectionImage (symtable : SymbolTable) (section_ : SymbolSection)
    (statements : List Instruction) : List UInt8 :=
  (Layout.start.places statements).flatMap fun (layout, instr) =>
    if layout.section_ = section_ then statementBytes symtable layout instr else []

def programRelocations (symtable : SymbolTable) (statements : List Instruction) :
    List Relocation :=
  (Layout.start.places statements).flatMap fun (layout, instr) =>
    statementRelocations symtable layout instr

def programSpans (statements : List Instruction) : List EmissionSpan :=
  (Layout.start.places statements).map fun (layout, instr) => statementSpan layout instr

theorem places_snoc (before : List Instruction) (instr : Instruction) :
    Layout.start.places (before ++ [instr]) =
      Layout.start.places before ++ [(Layout.after before, instr)] := by
  rw [Layout.places_append]
  rfl

theorem sectionImage_snoc (symtable : SymbolTable) (section_ : SymbolSection)
    (before : List Instruction) (instr : Instruction) :
    sectionImage symtable section_ (before ++ [instr]) =
      sectionImage symtable section_ before ++
        (if (Layout.after before).section_ = section_ then
          statementBytes symtable (Layout.after before) instr
        else []) := by
  rw [sectionImage, places_snoc, List.flatMap_append]
  simp [sectionImage]

theorem programRelocations_snoc (symtable : SymbolTable) (before : List Instruction)
    (instr : Instruction) :
    programRelocations symtable (before ++ [instr]) =
      programRelocations symtable before ++
        statementRelocations symtable (Layout.after before) instr := by
  rw [programRelocations, places_snoc, List.flatMap_append]
  simp [programRelocations]

theorem programSpans_snoc (before : List Instruction) (instr : Instruction) :
    programSpans (before ++ [instr]) =
      programSpans before ++ [statementSpan (Layout.after before) instr] := by
  rw [programSpans, places_snoc, List.map_append]
  rfl

/-- The places of a program are its statements, each after those before it. -/
theorem mem_places {statements : List Instruction} {layout : Layout} {instr : Instruction} :
    (layout, instr) ∈ Layout.start.places statements ↔
      ∃ before after, statements = before ++ instr :: after ∧ layout = Layout.after before := by
  constructor
  · intro member
    induction statements using List.reverseRecOn with
    | nil => contradiction
    | append_singleton front last inductionHypothesis =>
        rw [places_snoc, List.mem_append, List.mem_singleton] at member
        rcases member with inFront | here
        · obtain ⟨before, after, rfl, isLayout⟩ := inductionHypothesis inFront
          exact ⟨before, after ++ [last], by simp, isLayout⟩
        · obtain ⟨rfl, rfl⟩ := Prod.mk.inj here
          exact ⟨front, [], rfl, rfl⟩
  · rintro ⟨before, after, rfl, rfl⟩
    rw [Layout.places_append]
    exact List.mem_append_right _ List.mem_cons_self

theorem length_programSpans (statements : List Instruction) :
    (programSpans statements).length = statements.length := by
  induction statements using List.reverseRecOn with
  | nil => rfl
  | append_singleton before instr inductionHypothesis =>
      rw [programSpans_snoc, List.length_append, List.length_append, inductionHypothesis]
      rfl

/-! ## Operands that resolve -/

/-- What pass 2 has checked of an operand it resolved. -/
structure OperandResolved (symtable : SymbolTable) (instr : Instruction) (textSize : Nat)
    (op : Operand) : Prop where
  known : ∀ label, symbolName? op = some label → symbolKnown symtable label = true
  lands : ∀ label targetOffset targetSection, op.kind = .label label →
    opcodeUsesRelativeLabel instr.opcode = true →
    symtableLookupEx symtable label = some (targetOffset, targetSection) →
    targetSection = some .text ∧
      -2147483648 ≤ targetOffset - ((textSize + instructionSize instr : Nat) : Int) ∧
      targetOffset - ((textSize + instructionSize instr : Nat) : Int) ≤ 2147483647

@[simp] theorem Resolution.fail_dirty (resolution : Resolution) (instructions : InstructionList)
    (instr : Instruction) (operand : Operand) (message : List UInt8) :
    errorHasAny (resolution.fail instructions instr operand message).errors = true :=
  errorHasAny_errorAddSpan _ _ _ _ _ _

/-- The outcome of a resolution step that reports nothing. -/
structure Resolved (symtable : SymbolTable) (instr : Instruction) (textSize : Nat)
    (resolution result : Resolution) (relocations : List Relocation) : Prop where
  errors : result.errors = resolution.errors
  resolutionError : result.resolutionError = resolution.resolutionError
  relocations : result.relocations = resolution.relocations ++ relocations

section Resolve

variable {instructions : InstructionList} {symtable : SymbolTable} {instr : Instruction}
  {textSize : Nat}

theorem resolveOperand_clean {operandIndex : Nat} {operand : Operand} {resolution : Resolution}
    (clean : errorHasAny (resolveOperand instructions symtable instr textSize
      (instructionSize instr) operandIndex operand resolution).errors = false) :
    Resolved symtable instr textSize resolution
        (resolveOperand instructions symtable instr textSize (instructionSize instr) operandIndex
          operand resolution)
        (labelRelocation? symtable instr textSize operandIndex operand).toList ∧
      OperandResolved symtable instr textSize operand := by
  -- an operand that resolves to no relocation
  have plain : ∀ result : Resolution, result.errors = resolution.errors →
      result.resolutionError = resolution.resolutionError →
      result.relocations = resolution.relocations →
      labelRelocation? symtable instr textSize operandIndex operand = none →
      Resolved symtable instr textSize resolution result
        (labelRelocation? symtable instr textSize operandIndex operand).toList := by
    intro result errors resolutionError relocations absent
    rw [absent]
    exact ⟨errors, resolutionError, by simp [relocations]⟩
  unfold resolveOperand at clean ⊢
  split at clean
  · next label kind =>
      split at clean
      · next known =>
          rw [if_pos known]
          refine ⟨plain _ rfl rfl rfl (by simp [labelRelocation?, kind]),
            fun other named => ?_, fun _ _ _ other => ?_⟩
          · simp only [symbolName?, kind, Option.some.injEq] at named
            exact named ▸ known
          · rw [kind] at other
            contradiction
      · simp at clean
  · next label kind =>
      have name : ∀ other, symbolName? operand = some other → other = label := by
        intro other named
        simp only [symbolName?, kind, Option.some.injEq] at named
        exact named.symm
      cases found : symtableLookupEx symtable label with
      | some target =>
          obtain ⟨targetOffset, targetSection⟩ := target
          have known : symbolKnown symtable label = true := by simp [symbolKnown, found]
          simp only [found] at clean ⊢
          unfold resolveDefined at clean ⊢
          by_cases relative : opcodeUsesRelativeLabel instr.opcode = true
          · rw [if_pos relative] at clean ⊢
            by_cases elsewhere : targetSection ≠ some .text
            · rw [if_pos elsewhere] at clean
              simp at clean
            · rw [if_neg elsewhere] at clean ⊢
              dsimp only at clean ⊢
              split at clean
              · simp at clean
              · next inRange =>
                  rw [if_neg inRange]
                  simp only [ne_eq, not_not] at elsewhere
                  simp only [not_or, not_lt] at inRange
                  refine ⟨plain _ rfl rfl rfl (by simp [labelRelocation?, kind, relative, found]),
                    fun other named => name other named ▸ known, ?_⟩
                  intro other otherOffset otherSection otherKind _ otherFound
                  rw [kind, OperandKind.label.injEq] at otherKind
                  rw [← otherKind, found, Option.some.injEq, Prod.mk.injEq] at otherFound
                  rw [← otherFound.1, ← otherFound.2]
                  exact ⟨elsewhere, inRange.1, inRange.2⟩
          · rw [if_neg relative] at clean ⊢
            refine ⟨?_, fun other named => name other named ▸ known,
              fun _ _ _ _ used => absurd used relative⟩
            by_cases mov : isMovRegLabel instr operandIndex = true
            · rw [if_pos mov]
              exact ⟨rfl, rfl, by simp [labelRelocation?, kind, relative, mov, Resolution.push]⟩
            · rw [if_neg mov]
              exact plain _ rfl rfl rfl (by simp [labelRelocation?, kind, relative, mov])
      | none =>
          simp only [found] at clean ⊢
          unfold resolveUndefined at clean ⊢
          have undefined : ∀ other targetOffset targetSection, operand.kind = .label other →
              symtableLookupEx symtable other ≠ some (targetOffset, targetSection) := by
            intro other targetOffset targetSection otherKind otherFound
            rw [kind, OperandKind.label.injEq] at otherKind
            rw [← otherKind, found] at otherFound
            contradiction
          by_cases branch : (symtableIsExternal symtable label &&
              opcodeUsesRelativeLabel instr.opcode) = true
          · rw [if_pos branch]
            rw [Bool.and_eq_true] at branch
            refine ⟨⟨rfl, rfl, by
              simp [labelRelocation?, kind, branch.2, found, Resolution.push]⟩,
              fun other named => name other named ▸ (by simp [symbolKnown, branch.1]),
              fun other _ _ otherKind _ otherFound =>
                absurd otherFound (undefined other _ _ otherKind)⟩
          · rw [if_neg branch] at clean ⊢
            split at clean
            · next mov =>
                rw [if_pos mov]
                rw [Bool.and_eq_true] at mov branch
                have notRelative : opcodeUsesRelativeLabel instr.opcode = false := by
                  cases relative : opcodeUsesRelativeLabel instr.opcode with
                  | false => rfl
                  | true => exact absurd ⟨mov.1, relative⟩ branch
                refine ⟨⟨rfl, rfl, by
                  simp [labelRelocation?, kind, notRelative, mov.2, Resolution.push]⟩,
                  fun other named => name other named ▸ (by simp [symbolKnown, mov.1]),
                  fun other _ _ otherKind _ otherFound =>
                    absurd otherFound (undefined other _ _ otherKind)⟩
            · simp at clean
  · next notRip notLabel =>
      have nameless : symbolName? operand = none := by
        unfold symbolName?
        split
        · next kind => exact absurd kind (notRip _)
        · next kind => exact absurd kind (notLabel _)
        · rfl
      refine ⟨plain _ rfl rfl rfl ?_, fun other named => ?_, fun other _ _ otherKind => ?_⟩
      · unfold labelRelocation?
        split
        · next kind => exact absurd kind (notLabel _)
        · rfl
      · rw [nameless] at named
        contradiction
      · exact absurd otherKind (notLabel _)

theorem resolveOperand_keeps_dirty {sz operandIndex : Nat} {operand : Operand}
    {resolution : Resolution} (dirty : errorHasAny resolution.errors = true) :
    errorHasAny (resolveOperand instructions symtable instr textSize sz operandIndex operand
      resolution).errors = true := by
  unfold resolveOperand resolveDefined resolveUndefined
  dsimp only
  repeat' split
  all_goals first
    | exact dirty
    | exact Resolution.fail_dirty _ _ _ _ _

theorem resolveOperands_keeps_dirty {sz operandIndex : Nat} (operands : List Operand)
    {resolution : Resolution} (dirty : errorHasAny resolution.errors = true) :
    errorHasAny (resolveOperands instructions symtable instr textSize sz operandIndex operands
      resolution).errors = true := by
  induction operands generalizing operandIndex resolution with
  | nil => exact dirty
  | cons operand operands inductionHypothesis =>
      exact inductionHypothesis (resolveOperand_keeps_dirty dirty)

theorem resolveOperands_clean {operandIndex : Nat} (operands : List Operand)
    {resolution : Resolution}
    (clean : errorHasAny (resolveOperands instructions symtable instr textSize
      (instructionSize instr) operandIndex operands resolution).errors = false) :
    Resolved symtable instr textSize resolution
        (resolveOperands instructions symtable instr textSize (instructionSize instr) operandIndex
          operands resolution)
        (labelRelocations symtable instr textSize operandIndex operands) ∧
      ∀ operand ∈ operands, OperandResolved symtable instr textSize operand := by
  induction operands generalizing operandIndex resolution with
  | nil => exact ⟨⟨rfl, rfl, by simp [resolveOperands, labelRelocations]⟩,
      fun _ member => absurd member List.not_mem_nil⟩
  | cons operand operands inductionHypothesis =>
      rw [resolveOperands] at clean ⊢
      have first : errorHasAny (resolveOperand instructions symtable instr textSize
          (instructionSize instr) operandIndex operand resolution).errors = false := by
        by_contra dirty
        rw [resolveOperands_keeps_dirty operands (by simpa using dirty)] at clean
        contradiction
      obtain ⟨head, headResolved⟩ := resolveOperand_clean first
      obtain ⟨tail, tailResolved⟩ := inductionHypothesis clean
      refine ⟨⟨tail.errors.trans head.errors, tail.resolutionError.trans head.resolutionError, ?_⟩,
        fun other member => ?_⟩
      · rw [tail.relocations, head.relocations, labelRelocations, List.append_assoc]
      · rcases List.mem_cons.mp member with rfl | inTail
        · exact headResolved
        · exact tailResolved other inTail

/-- An opcode without a relative label leaves the target alone. -/
theorem resolveOperands_target_of_other {sz operandIndex : Nat} (operands : List Operand)
    {resolution : Resolution} (other : opcodeUsesRelativeLabel instr.opcode = false) :
    (resolveOperands instructions symtable instr textSize sz operandIndex operands
      resolution).resolvedTarget = resolution.resolvedTarget := by
  induction operands generalizing operandIndex resolution with
  | nil => rfl
  | cons operand operands inductionHypothesis =>
      rw [resolveOperands, inductionHypothesis]
      unfold resolveOperand resolveDefined resolveUndefined
      simp only [other]
      repeat' split
      all_goals first
        | rfl
        | contradiction

theorem arity_of_relative {opcode : OpcodeEnum}
    (relative : opcodeUsesRelativeLabel opcode = true) : getArity opcode = (1, 1) := by
  cases opcode <;> first | rfl | contradiction

/-- A branch has one operand. -/
theorem singleton_of_relative (checked : ArityChecked instr)
    (relative : opcodeUsesRelativeLabel instr.opcode = true) : ∃ op, instr.ops = [op] := by
  have named : instr.opcode ≠ .invalid := by
    intro invalid
    rw [invalid] at relative
    contradiction
  obtain ⟨least, greatest⟩ := checked named
  rw [arity_of_relative relative] at least greatest
  exact List.length_eq_one_iff.mp (by omega)

/-- A branch that is encoded has one operand. -/
theorem singleton_of_encoded {resolvedTarget : Int64} {bytes : List UInt8}
    (encoded : encoderEncode instr.opcode instr.ops resolvedTarget = some bytes)
    (relative : opcodeUsesRelativeLabel instr.opcode = true) : ∃ op, instr.ops = [op] := by
  have near : ∀ ext opcode, encNear instr.ops resolvedTarget ext opcode = some bytes →
      ∃ op, instr.ops = [op] := by
    intro ext opcode result
    unfold encNear at result
    split at result
    · next op ops => exact ⟨op, ops⟩
    · contradiction
  have conditional : ∀ opcode2, encJcc instr.ops resolvedTarget opcode2 = some bytes →
      ∃ op, instr.ops = [op] := by
    intro opcode2 result
    unfold encJcc at result
    split at result
    · next op ops => exact ⟨op, ops⟩
    · contradiction
  cases opcode : instr.opcode <;> rw [opcode] at relative encoded <;> try contradiction
  all_goals first
    | exact near _ _ encoded
    | exact conditional _ encoded

/-- What pass 2 hands to the encoder is the displacement the branch asks for. -/
theorem resolveOperands_target
    (single : opcodeUsesRelativeLabel instr.opcode = true → ∃ op, instr.ops = [op])
    {relocations : List Relocation} {errors : ErrorList}
    (clean : errorHasAny (resolveOperands instructions symtable instr textSize
      (instructionSize instr) 0 instr.ops ⟨relocations, errors, 0, false⟩).errors = false) :
    (resolveOperands instructions symtable instr textSize (instructionSize instr) 0 instr.ops
      ⟨relocations, errors, 0, false⟩).resolvedTarget =
      branchDisplacement symtable instr textSize := by
  cases relative : opcodeUsesRelativeLabel instr.opcode with
  | false =>
      rw [resolveOperands_target_of_other _ relative]
      unfold branchDisplacement
      split
      · rw [if_neg (by simp [relative])]
      · rfl
  | true =>
      obtain ⟨op, only⟩ := single relative
      obtain ⟨kind, line, col, endCol⟩ := op
      have resolved := (resolveOperands_clean _ clean).2 _ (by rw [only]; exact List.mem_singleton_self _)
      rw [only] at clean ⊢
      simp only [resolveOperands, branchDisplacement, only, resolveOperand] at clean ⊢
      cases kind with
      | label label =>
          simp only [relative, if_true] at clean ⊢
          cases found : symtableLookupEx symtable label with
          | none =>
              simp only [resolveUndefined]
              repeat' split
              all_goals rfl
          | some target =>
              obtain ⟨targetOffset, targetSection⟩ := target
              obtain ⟨text, lower, upper⟩ := resolved.lands label _ _ rfl relative found
              simp only [resolveDefined, relative, if_true, text, ne_eq, not_true, if_false]
              rw [if_neg (by omega)]
      | memRipLabel label =>
          dsimp only
          split <;> rfl
      | _ => rfl

theorem resolveDataOperands_keeps_dirty {section_ : SymbolSection} {before operandIndex : Nat}
    (operands : List Operand) {resolved : List Relocation × ErrorList}
    (dirty : errorHasAny resolved.2 = true) :
    errorHasAny (resolveDataOperands instructions symtable instr section_ before operandIndex
      operands resolved).2 = true := by
  induction operands generalizing operandIndex resolved with
  | nil => exact dirty
  | cons operand operands inductionHypothesis =>
      rw [resolveDataOperands]
      refine inductionHypothesis ?_
      split
      · split
        · exact dirty
        · exact errorHasAny_errorAddSpan _ _ _ _ _ _
      · exact dirty

/-- The symbol operands of a data directive, where nothing is reported. -/
theorem resolveDataOperands_clean {section_ : SymbolSection} {before operandIndex : Nat}
    (operands : List Operand) {resolved : List Relocation × ErrorList}
    (clean : errorHasAny (resolveDataOperands instructions symtable instr section_ before
      operandIndex operands resolved).2 = false) :
    resolveDataOperands instructions symtable instr section_ before operandIndex operands resolved =
        (resolved.1 ++ dataRelocations section_ before operandIndex operands, resolved.2) ∧
      ∀ op ∈ operands, ∀ label, op.kind = .label label → symbolKnown symtable label = true := by
  induction operands generalizing operandIndex resolved with
  | nil => exact ⟨by simp [resolveDataOperands, dataRelocations],
      fun _ member => absurd member List.not_mem_nil⟩
  | cons operand operands inductionHypothesis =>
      rw [resolveDataOperands] at clean ⊢
      obtain ⟨rest, known⟩ := inductionHypothesis clean
      rw [rest]
      rw [rest] at clean
      split at clean
      · next label kind =>
          split at clean
          · next here =>
              refine ⟨by simp [here, kind, dataRelocations], fun other member name named => ?_⟩
              rcases List.mem_cons.mp member with rfl | inTail
              · rw [kind, OperandKind.label.injEq] at named
                exact named ▸ here
              · exact known other inTail name named
          · simp [addOperandError] at clean
      · next notLabel =>
          refine ⟨by rw [dataRelocations_of_other notLabel], fun other member name named => ?_⟩
          rcases List.mem_cons.mp member with rfl | inTail
          · exact absurd named (notLabel name)
          · exact known other inTail name named

end Resolve

end Nazm.Passes
