import Nazm.Parser.GrammarAccepts
import Nazm.Passes.Acceptance
import Nazm.Passes.DebugPath
import Nazm.Passes.IntegerData
import Nazm.Passes.Reports

/-!
The documented rules of directives.

Owns what each directive asks of its operands and of where it stands, and when
pass 1 reports a directive.

Does not own what a directive does once it is accepted.
-/

namespace Nazm.Passes

open Nazm.Encoder Nazm.Parser Nazm.Lexer Nazm.Symtable Nazm.Unicode Nazm.Diagnostics Utf8

/-! ## Rules -/

/-- Data stands in a section for data, where `.غير_مهيأة` holds space only. -/
def StandsInData (section_ : SymbolSection) (kind : DirectiveKind) : Prop :=
  section_ ≠ .text ∧ (section_ = .bss → kind = .zeroSpace ∨ kind = .alignment)

/-- One to three values of a width; symbols where they are addresses. -/
def IntegerOperands (bits : Nat) (kinds : List OperandKind) : Prop :=
  1 ≤ kinds.length ∧ kinds.length ≤ 3 ∧ ∀ kind ∈ kinds,
    (∃ value, kind = .imm value ∧ FitsWidth bits value.toInt) ∨
      (bits = 64 ∧ ∃ name, kind = .label name)

/-- One power of two between 1 and 4096. -/
def AlignmentOperands (kinds : List OperandKind) : Prop :=
  ∃ value, kinds = [.imm value] ∧ ∃ exponent, exponent ≤ 12 ∧ value.toInt = 2 ^ exponent

/-- One number between 0 and `INT_MAX`. -/
def SpaceOperands (kinds : List OperandKind) : Prop :=
  ∃ value, kinds = [.imm value] ∧ 0 ≤ value.toInt ∧ value.toInt ≤ 2 ^ 31 - 1

/-- One or more strings. -/
def StringOperands (kinds : List OperandKind) : Prop :=
  kinds ≠ [] ∧ ∀ kind ∈ kinds, ∃ text, kind = .string text

/-- Exactly one symbol. -/
def SymbolOperands (kinds : List OperandKind) : Prop := ∃ name, kinds = [.label name]

/-- A positive identifier of 32 bits and a path, or the list of its bytes. -/
def DeclaresFile (instr : Instruction) (id : Nat) : Prop :=
  ∃ value text, instr.ops.map Operand.kind = [.imm value, .string text] ∧ value.toInt = id ∧
    1 ≤ id ∧ id ≤ 2 ^ 32 - 1 ∧ text ≠ [] ∧ 0 ∉ text ∧
    (instr.directiveKind = .debugFile ∨
      (instr.directiveKind = .debugFileBytes ∧ ∃ path, PathList text path ∧ WellFormed path))

/-- Three zeros, or a declared file with a line and a column. -/
def LocationOperands (declared : Nat → Prop) (kinds : List OperandKind) : Prop :=
  ∃ file line column, kinds = [.imm file, .imm line, .imm column] ∧
    ((file.toInt = 0 ∧ line.toInt = 0 ∧ column.toInt = 0) ∨
      ((∃ id : Nat, file.toInt = id ∧ declared id) ∧
        (1 ≤ line.toInt ∧ line.toInt ≤ 2 ^ 24 - 1) ∧
        (1 ≤ column.toInt ∧ column.toInt ≤ 65535)))

/-- The rules of a directive among the statements of a program. -/
def FollowsRules (statements before : List Instruction) (instr : Instruction) : Prop :=
  let kinds := instr.ops.map Operand.kind
  let inData := StandsInData (currentSection before) instr.directiveKind
  match instr.directiveKind with
  | .none => True
  | .text | .data | .readOnlyData | .bss => kinds = []
  | .int8 => inData ∧ IntegerOperands 8 kinds
  | .int16 => inData ∧ IntegerOperands 16 kinds
  | .int32 => inData ∧ IntegerOperands 32 kinds
  | .int64 => inData ∧ IntegerOperands 64 kinds
  | .alignment => inData ∧ AlignmentOperands kinds
  | .zeroSpace => inData ∧ SpaceOperands kinds
  | .nulString => inData ∧ StringOperands kinds
  | .global | .local | .external => SymbolOperands kinds
  | .debugFile | .debugFileBytes =>
      ∃ id, DeclaresFile instr id ∧ ∀ earlier ∈ before, ¬DeclaresFile earlier id
  | .debugLocation =>
      LocationOperands (fun id => ∃ statement ∈ statements, DeclaresFile statement id) kinds
  | .invalid => False

/-- The symbol table refuses what a statement declares or defines. -/
def SymbolConflict (instructions : InstructionList) (before : List Instruction)
    (instr : Instruction) : Prop :=
  ∃ event, statementEvent? (pass1Walk instructions before).layout instr = some event ∧
    (event.apply (pass1Walk instructions before).symtable).2 = false

/-- Pass 1 reports a statement, in its turn or in the check of locations. -/
def Reported (instructions : InstructionList) (before : List Instruction) (instr : Instruction) :
    Prop :=
  errorHasAny (turnReport instructions before instr) = true ∨
    errorHasAny (locationReport instructions instr) = true

/-! ## Operands -/

theorem integerOperandsFault_none_iff {bits index : Nat} {ops : List Operand} :
    integerOperandsFault bits index ops = none ↔ ∀ kind ∈ ops.map Operand.kind,
      (∃ value, kind = .imm value ∧ FitsWidth bits value.toInt) ∨
        (bits = 64 ∧ ∃ name, kind = .label name) := by
  induction ops generalizing index with
  | nil => exact iff_of_true rfl fun _ member => absurd member List.not_mem_nil
  | cons op ops inductionHypothesis =>
      rw [List.map_cons, List.forall_mem_cons, integerOperandsFault]
      cases kind : op.kind with
      | label name =>
          dsimp only
          split
          · next wide =>
              rw [inductionHypothesis]
              exact (and_iff_right (.inr ⟨wide, name, rfl⟩)).symm
          · next narrow => simp [narrow]
      | imm value =>
          dsimp only
          split
          · next fits =>
              rw [inductionHypothesis]
              exact (and_iff_right (.inl ⟨value, rfl, dataValueFitsWidth_iff.mp fits⟩)).symm
          · next refused =>
              rw [dataValueFitsWidth_iff] at refused
              simp [refused]
      | _ => simp

theorem stringOperandsFault_none_iff {index : Nat} {ops : List Operand} :
    stringOperandsFault index ops = none ↔
      ∀ kind ∈ ops.map Operand.kind, ∃ text, kind = .string text := by
  induction ops generalizing index with
  | nil => exact iff_of_true rfl fun _ member => absurd member List.not_mem_nil
  | cons op ops inductionHypothesis =>
      rw [List.map_cons, List.forall_mem_cons, stringOperandsFault]
      cases kind : op.kind with
      | string text =>
          dsimp only
          rw [inductionHypothesis]
          exact (and_iff_right ⟨text, rfl⟩).symm
      | _ => simp

/-- A single immediate operand. -/
theorem single_imm_iff {ops : List Operand} {value : Int64} :
    ops.map Operand.kind = [.imm value] ↔
      ∃ line col endCol, ops = [⟨.imm value, line, col, endCol⟩] := by
  constructor
  · intro kinds
    obtain ⟨⟨kind, line, col, endCol⟩, rfl, isKind⟩ := List.map_eq_singleton_iff.mp kinds
    obtain rfl : kind = .imm value := isKind
    exact ⟨line, col, endCol, rfl⟩
  · rintro ⟨line, col, endCol, rfl⟩
    rfl

/-- The powers of two between 1 and 4096. -/
theorem boundary_iff {value : Int} :
    (¬(value < 1 ∨ 4096 < value ∨ value.toNat &&& (value.toNat - 1) ≠ 0)) ↔
      ∃ exponent, exponent ≤ 12 ∧ value = 2 ^ exponent := by
  constructor
  · intro boundary
    rw [not_or, not_or, not_not, Int.not_lt, Int.not_lt] at boundary
    obtain ⟨positive, small, bits⟩ := boundary
    obtain ⟨exponent, power⟩ := (Nat.and_sub_one_eq_zero_iff_isPowerOfTwo (by omega)).mp bits
    refine ⟨exponent, ?_, ?_⟩
    · by_contra large
      have grows := Nat.pow_le_pow_right (n := 2) Nat.two_pos (Nat.not_le.mp large)
      omega
    · rw [← Int.toNat_of_nonneg (a := value) (by omega), power]
      push_cast
      rfl
  · rintro ⟨exponent, small, rfl⟩
    have table : ∀ exponent : Fin 13, ¬((2 : Int) ^ exponent.val < 1 ∨ 4096 < (2 : Int) ^ exponent.val ∨
        ((2 : Int) ^ exponent.val).toNat &&& (((2 : Int) ^ exponent.val).toNat - 1) ≠ 0) := by decide
    exact table ⟨exponent, Nat.lt_succ_of_le small⟩

/-! ## Data directives -/

section Data

variable {instr : Instruction}

/-- Operands that are no single immediate. -/
theorem no_imm {ops : List Operand}
    (other : ∀ value line col endCol, ops ≠ [⟨.imm value, line, col, endCol⟩]) (value : Int64) :
    ops.map Operand.kind ≠ [.imm value] := fun kinds =>
  have ⟨line, col, endCol, isOps⟩ := single_imm_iff.mp kinds
  other value line col endCol isOps

theorem dataDirectiveFault_alignment (kind : instr.directiveKind = .alignment) :
    dataDirectiveFault instr = none ↔ AlignmentOperands (instr.ops.map Operand.kind) := by
  unfold dataDirectiveFault AlignmentOperands
  rw [kind]
  dsimp only
  split
  · next value line col endCol isOps =>
      simp only [isOps, List.map_cons, List.map_nil, List.cons.injEq, OperandKind.imm.injEq,
        and_true, exists_eq_left', ← boundary_iff]
      split <;> simp_all
  · next other =>
      refine iff_of_false (Option.some_ne_none _) ?_
      rintro ⟨value, kinds, -⟩
      exact no_imm other value kinds

theorem dataDirectiveFault_zeroSpace (kind : instr.directiveKind = .zeroSpace) :
    dataDirectiveFault instr = none ↔ SpaceOperands (instr.ops.map Operand.kind) := by
  unfold dataDirectiveFault SpaceOperands
  rw [kind]
  dsimp only
  split
  · next value line col endCol isOps =>
      simp only [isOps, List.map_cons, List.map_nil, List.cons.injEq, OperandKind.imm.injEq,
        and_true, exists_eq_left']
      split
      · exact iff_of_false (Option.some_ne_none _) (by omega)
      · exact iff_of_true rfl (by omega)
  · next other =>
      refine iff_of_false (Option.some_ne_none _) ?_
      rintro ⟨value, kinds, -⟩
      exact no_imm other value kinds

theorem dataDirectiveFault_nulString (kind : instr.directiveKind = .nulString) :
    dataDirectiveFault instr = none ↔ StringOperands (instr.ops.map Operand.kind) := by
  unfold dataDirectiveFault StringOperands
  rw [kind, ne_eq, List.map_eq_nil_iff]
  dsimp only
  split
  · next empty => exact iff_of_false (Option.some_ne_none _) fun both => both.1 empty
  · next some_ => rw [stringOperandsFault_none_iff, and_iff_right some_]

theorem dataDirectiveFault_integers {size : Nat} (count : instr.ops.length ≤ maxOperands)
    (isInteger : elementSize? instr.directiveKind = some size) :
    dataDirectiveFault instr = none ↔
      IntegerOperands (8 * size) (instr.ops.map Operand.kind) := by
  have positive : 1 ≤ instr.ops.length ↔ instr.ops ≠ [] := List.length_pos_iff
  rw [dataDirectiveFault_integer isInteger, integerOperandsFault_none_iff, IntegerOperands,
    List.length_map, positive]
  exact and_congr_right fun _ => (and_iff_right count).symm

end Data

/-! ## Debug files -/

theorem length_cString_iff {text : List UInt8} :
    (cString text).length = text.length ↔ 0 ∉ text := by
  constructor
  · intro same member
    have whole : cString text = text :=
      (List.takeWhile_prefix fun byte => decide (byte ≠ 0)).eq_of_length same
    rw [← whole] at member
    exact zero_notMem_cString _ member
  · intro clean
    rw [cString_of_clean clean]

/-- What a file line declares by itself. -/
theorem debugFileDirective_ok_iff {instr : Instruction} {file : DebugFile} :
    debugFileDirective [] instr = .ok file ↔
      ∃ value text, instr.ops.map Operand.kind = [.imm value, .string text] ∧
        value.toInt = file.id ∧ 1 ≤ file.id ∧ file.id ≤ 2 ^ 32 - 1 ∧ text ≠ [] ∧ 0 ∉ text ∧
        (if instr.directiveKind = .debugFileBytes then decodeDebugPathBytes text else .ok text) =
          .ok file.path := by
  have nothing : ∀ id, (debugFileFind [] id).isSome = false := fun _ => rfl
  obtain ⟨id, path⟩ := file
  unfold debugFileDirective
  split
  · next value line col endCol text _ _ _ isOps =>
      rw [isOps]
      simp only [List.map_cons, List.map_nil, List.cons.injEq, OperandKind.imm.injEq,
        OperandKind.string.injEq, and_true, and_assoc, exists_eq_left', exists_and_left, nothing]
      split
      · next range => exact iff_of_false (by simp) (by omega)
      · next range =>
          split
          · next bad =>
              refine iff_of_false (by simp) ?_
              rintro ⟨-, -, -, some_, clean, -⟩
              rcases bad with empty | cut
              · exact some_ (List.length_eq_zero_iff.mp empty)
              · exact cut (length_cString_iff.mpr clean)
          · next good =>
              rw [not_or, not_not, length_cString_iff, List.length_eq_zero_iff] at good
              split
              · next failed => rw [failed]; simp
              · next decoded =>
                  rw [decoded]
                  simp only [Bool.false_eq_true, if_false, Except.ok.injEq, DebugFile.mk.injEq]
                  constructor
                  · rintro ⟨rfl, rfl⟩
                    exact ⟨by omega, by omega, by omega, good.1, good.2, rfl⟩
                  · rintro ⟨isId, -, -, -, -, rfl⟩
                    exact ⟨by omega, rfl⟩
  · next other =>
      refine iff_of_false (by simp) ?_
      rintro ⟨value, text, kinds, -⟩
      obtain ⟨⟨_, _, _, _⟩, rest, isOps, rfl, restKinds⟩ := List.map_eq_cons_iff.mp kinds
      obtain ⟨⟨_, _, _, _⟩, isRest, rfl⟩ := List.map_eq_singleton_iff.mp restKinds
      rw [isRest] at isOps
      exact other _ _ _ _ _ _ _ _ isOps

/-- A line of `.ملف` or `.ملف_بايتات` that is in order by itself. -/
theorem declaresFile_iff {instr : Instruction} {id : Nat} :
    (∃ file, declaredFile? instr = some file ∧ file.id = id) ↔ DeclaresFile instr id := by
  have toOption : ∀ (result : Except DirectiveFault DebugFile) (file : DebugFile),
      result.toOption = some file ↔ result = .ok file := by
    intro result file
    cases result <;> simp [Except.toOption]
  unfold declaredFile?
  constructor
  · rintro ⟨file, declared, rfl⟩
    rw [Option.ite_none_right_eq_some, toOption, debugFileDirective_ok_iff] at declared
    obtain ⟨isFile, value, text, kinds, isId, low, high, some_, clean, isPath⟩ := declared
    refine ⟨value, text, kinds, isId, low, high, some_, clean, ?_⟩
    by_cases isBytes : instr.directiveKind = .debugFileBytes
    · rw [if_pos isBytes, decodeDebugPathBytes_ok_iff] at isPath
      exact .inr ⟨isBytes, _, isPath⟩
    · simp only [isDebugFile, Bool.or_eq_true, decide_eq_true_eq] at isFile
      exact .inl (isFile.resolve_right isBytes)
  · rintro ⟨value, text, kinds, isId, low, high, some_, clean, isText | ⟨isBytes, path, isList⟩⟩
    · refine ⟨⟨id, text⟩, ?_, rfl⟩
      rw [Option.ite_none_right_eq_some, toOption, debugFileDirective_ok_iff]
      exact ⟨by simp [isDebugFile, isText], value, text, kinds, isId, low, high, some_, clean,
        if_neg (by simp [isText])⟩
    · refine ⟨⟨id, path⟩, ?_, rfl⟩
      rw [Option.ite_none_right_eq_some, toOption, debugFileDirective_ok_iff]
      exact ⟨by simp [isDebugFile, isBytes], value, text, kinds, isId, low, high, some_, clean,
        (if_pos isBytes).trans ((decodeDebugPathBytes_ok_iff _ _).mpr isList)⟩

/-! ## The walk -/

section Walk

variable {instructions : InstructionList} (state : Pass1State) (instr : Instruction)

theorem pass1Label_frame :
    (pass1Label instructions state instr).currentSection = state.currentSection ∧
      (pass1Label instructions state instr).debugFiles = state.debugFiles := by
  unfold pass1Label
  split
  · exact ⟨rfl, rfl⟩
  · split <;> exact ⟨rfl, rfl⟩

theorem pass1External_frame :
    (pass1External instructions state instr).currentSection = state.currentSection ∧
      (pass1External instructions state instr).debugFiles = state.debugFiles := by
  unfold pass1External
  split
  · split <;> exact ⟨rfl, rfl⟩
  · exact ⟨rfl, rfl⟩

theorem pass1Visibility_frame (binding : SymbolBinding) :
    (pass1Visibility instructions state instr binding).currentSection = state.currentSection ∧
      (pass1Visibility instructions state instr binding).debugFiles = state.debugFiles := by
  unfold pass1Visibility
  split
  · split <;> exact ⟨rfl, rfl⟩
  · exact ⟨rfl, rfl⟩

theorem pass1DebugLocation_frame :
    (pass1DebugLocation instructions state instr).currentSection = state.currentSection ∧
      (pass1DebugLocation instructions state instr).debugFiles = state.debugFiles := by
  unfold pass1DebugLocation
  split <;> exact ⟨rfl, rfl⟩

theorem pass1DataDirective_frame :
    (pass1DataDirective instructions state instr).currentSection = state.currentSection ∧
      (pass1DataDirective instructions state instr).debugFiles = state.debugFiles := by
  have labelled := @pass1Label_frame instructions
    { state with alignments := pass1NoteAlignment state.alignments state.currentSection instr } instr
  unfold pass1DataDirective
  split
  · exact ⟨rfl, rfl⟩
  · split
    · exact ⟨rfl, rfl⟩
    · split
      · exact ⟨rfl, rfl⟩
      · dsimp only
        split <;> exact labelled

theorem pass1Statement_frame :
    (pass1Statement instructions state instr).currentSection = state.currentSection ∧
      (pass1Statement instructions state instr).debugFiles = state.debugFiles := by
  have labelled := @pass1Label_frame instructions state instr
  unfold pass1Statement
  dsimp only
  split
  · exact labelled
  · split <;> exact labelled

/-- The file that a turn adds to the declared ones. -/
def newFile? (files : List DebugFile) (instr : Instruction) : Option DebugFile :=
  if isDebugFile instr then (debugFileDirective files instr).toOption else none

theorem pass1DebugFile_frame :
    (pass1DebugFile instructions state instr).currentSection = state.currentSection ∧
      (pass1DebugFile instructions state instr).debugFiles =
        state.debugFiles ++ (debugFileDirective state.debugFiles instr).toOption.toList := by
  unfold pass1DebugFile
  split
  · next declared =>
      rw [declared]
      exact ⟨rfl, rfl⟩
  · next refused =>
      rw [refused]
      exact ⟨rfl, (List.append_nil _).symm⟩

/-- Only switches change the section, and only file lines the files, reported or
not. -/
theorem pass1Step_frame :
    (pass1Step instructions state instr).currentSection =
        (sectionSwitch? instr.directiveKind).getD state.currentSection ∧
      (pass1Step instructions state instr).debugFiles =
        state.debugFiles ++ (newFile? state.debugFiles instr).toList := by
  have aside : ∀ next : Pass1State, pass1Step instructions state instr = next →
      next.currentSection = state.currentSection ∧ next.debugFiles = state.debugFiles →
      sectionSwitch? instr.directiveKind = none → isDebugFile instr = false →
      (pass1Step instructions state instr).currentSection =
          (sectionSwitch? instr.directiveKind).getD state.currentSection ∧
        (pass1Step instructions state instr).debugFiles =
          state.debugFiles ++ (newFile? state.debugFiles instr).toList := by
    intro next step frame noSwitch noFile
    rw [step, noSwitch, newFile?, noFile, frame.1, frame.2]
    exact ⟨rfl, (List.append_nil _).symm⟩
  obtain ⟨kind, isKind⟩ : ∃ kind, instr.directiveKind = kind := ⟨_, rfl⟩
  cases kind with
  | none =>
      exact aside _ (by rw [pass1Step, isKind]) (pass1Statement_frame state instr)
        (by rw [isKind]; rfl) (by simp [isDebugFile, isKind])
  | text | data | readOnlyData | bss =>
      rw [pass1Step, isKind, newFile?, if_neg (by simp [isDebugFile, isKind])]
      exact ⟨rfl, (List.append_nil _).symm⟩
  | int8 | int16 | int32 | int64 | alignment | zeroSpace | nulString =>
      exact aside _ (by rw [pass1Step, isKind]) (pass1DataDirective_frame state instr)
        (by rw [isKind]; rfl) (by simp [isDebugFile, isKind])
  | invalid =>
      exact aside (pass1Fault instructions state instr _) (by rw [pass1Step, isKind]) ⟨rfl, rfl⟩
        (by rw [isKind]; rfl) (by simp [isDebugFile, isKind])
  | external =>
      exact aside _ (by rw [pass1Step, isKind]) (pass1External_frame state instr)
        (by rw [isKind]; rfl) (by simp [isDebugFile, isKind])
  | global | «local» =>
      exact aside _ (by rw [pass1Step, isKind]) (pass1Visibility_frame state instr _)
        (by rw [isKind]; rfl) (by simp [isDebugFile, isKind])
  | debugFile | debugFileBytes =>
      rw [pass1Step, isKind, newFile?, if_pos (by simp [isDebugFile, isKind])]
      exact pass1DebugFile_frame state instr
  | debugLocation =>
      exact aside _ (by rw [pass1Step, isKind]) (pass1DebugLocation_frame state instr)
        (by rw [isKind]; rfl) (by simp [isDebugFile, isKind])

end Walk

section Run

variable {instructions : InstructionList}

/-- The section a walk is in, reported or not. -/
theorem pass1Walk_section (before : List Instruction) :
    (pass1Walk instructions before).currentSection = currentSection before := by
  induction before using List.reverseRecOn with
  | nil => rfl
  | append_singleton before instr inductionHypothesis =>
      rw [pass1Walk_snoc, (pass1Step_frame _ instr).1, inductionHypothesis, currentSection,
        currentSection, List.filterMap_append]
      cases switch : sectionSwitch? instr.directiveKind <;> simp [switch]

/-- What a turn declares is in order by itself and new. -/
theorem newFile?_eq_some {files : List DebugFile} {instr : Instruction} {file : DebugFile} :
    newFile? files instr = some file ↔
      declaredFile? instr = some file ∧ debugFileFind files file.id = none := by
  unfold newFile? declaredFile?
  split
  · have alone := @debugFileDirective_eq_ok files instr file
    have toOption : ∀ result : Except DirectiveFault DebugFile,
        result.toOption = some file ↔ result = .ok file := by
      intro result
      cases result <;> simp [Except.toOption]
    rw [toOption, toOption, alone]
  · simp

theorem debugFileFind_isSome {files : List DebugFile} {id : Nat} :
    (debugFileFind files id).isSome = true ↔ ∃ file ∈ files, file.id = id := by
  simp [debugFileFind]

/-- The identifiers that a walk knows, reported or not. -/
theorem pass1Walk_declared (before : List Instruction) (id : Nat) :
    (debugFileFind (pass1Walk instructions before).debugFiles id).isSome = true ↔
      ∃ earlier ∈ before, DeclaresFile earlier id := by
  induction before using List.reverseRecOn with
  | nil => exact iff_of_false Bool.false_ne_true (by simp)
  | append_singleton before instr inductionHypothesis =>
      have added : (∃ file, newFile? (pass1Walk instructions before).debugFiles instr = some file ∧
          file.id = id) → DeclaresFile instr id := by
        rintro ⟨file, new, isId⟩
        exact declaresFile_iff.mp ⟨file, (newFile?_eq_some.mp new).1, isId⟩
      have known : DeclaresFile instr id →
          (debugFileFind (pass1Walk instructions before).debugFiles id).isSome = true ∨
          ∃ file, newFile? (pass1Walk instructions before).debugFiles instr = some file ∧
            file.id = id := by
        intro declares
        obtain ⟨file, declared, rfl⟩ := declaresFile_iff.mpr declares
        rw [or_iff_not_imp_left, Option.not_isSome_iff_eq_none]
        exact fun fresh => ⟨file, newFile?_eq_some.mpr ⟨declared, fresh⟩, rfl⟩
      have members : (debugFileFind (pass1Walk instructions (before ++ [instr])).debugFiles
          id).isSome = true ↔
          (debugFileFind (pass1Walk instructions before).debugFiles id).isSome = true ∨
          ∃ file, newFile? (pass1Walk instructions before).debugFiles instr = some file ∧
            file.id = id := by
        rw [pass1Walk_snoc, (pass1Step_frame _ instr).2, debugFileFind_isSome, debugFileFind_isSome]
        simp only [List.mem_append, Option.mem_toList, or_and_right, exists_or]
      rw [members]
      constructor
      · rintro (earlier | new)
        · obtain ⟨statement, member, declares⟩ := inductionHypothesis.mp earlier
          exact ⟨statement, List.mem_append_left _ member, declares⟩
        · exact ⟨instr, by simp, added new⟩
      · rintro ⟨statement, member, declares⟩
        rcases List.mem_append.mp member with inBefore | isLast
        · exact .inl (inductionHypothesis.mpr ⟨statement, inBefore, declares⟩)
        · obtain rfl := List.mem_singleton.mp isLast
          exact known declares

/-! ## Turns -/

/-- The table lets a statement in. -/
theorem run_event_iff {symtable : SymbolTable} {event? : Option SymbolEvent} :
    (∃ next, Walk.run SymbolEvent.step event?.toList symtable = .ok next) ↔
      ¬∃ event, event? = some event ∧ (event.apply symtable).2 = false := by
  cases event? with
  | none => exact iff_of_true ⟨_, rfl⟩ (by simp)
  | some event =>
      have applies : ∀ next, Walk.run SymbolEvent.step (some event).toList symtable = .ok next ↔
          event.apply symtable = (next, true) := fun next => run_event_some rfl
      simp only [applies, Option.some.injEq, exists_eq_left', Bool.not_eq_false]
      constructor
      · rintro ⟨next, applied⟩
        rw [applied]
      · exact fun accepted => ⟨_, Prod.ext rfl accepted⟩

/-- When a turn reports nothing. -/
theorem turnReport_clean_iff {before : List Instruction} {instr : Instruction} :
    errorHasAny (turnReport instructions before instr) = false ↔
      StatementPasses (currentSection before) instr ∧
        ¬SymbolConflict instructions before instr ∧
        ∀ id, DeclaresFile instr id → ∀ earlier ∈ before, ¬DeclaresFile earlier id := by
  have fresh : (∀ file, declaredFile? instr = some file →
      debugFileFind (pass1Walk instructions before).debugFiles file.id = none) ↔
      ∀ id, DeclaresFile instr id → ∀ earlier ∈ before, ¬DeclaresFile earlier id := by
    have known := @pass1Walk_declared instructions before
    simp only [← @declaresFile_iff instr, ← Option.not_isSome_iff_eq_none, known]
    constructor
    · rintro new id ⟨file, declared, rfl⟩ earlier member declares
      exact new file declared ⟨earlier, member, declares⟩
    · rintro new file declared ⟨earlier, member, declares⟩
      exact new file.id ⟨file, declared, rfl⟩ earlier member declares
  rw [← fresh, ← @pass1Walk_section instructions, SymbolConflict, ← run_event_iff]
  constructor
  · intro clean
    obtain ⟨symtable, passes, event, new⟩ := pass1Step_passes clean
    exact ⟨passes, ⟨symtable, event⟩, new⟩
  · rintro ⟨passes, ⟨symtable, event⟩, new⟩
    have turn : TurnPasses (pass1Walk instructions before).silent instr symtable :=
      ⟨passes, event, new⟩
    rw [turnReport, pass1Step_passed turn]
    rfl

/-- When the check of locations reports nothing. -/
theorem locationReport_clean_iff {instr : Instruction} :
    errorHasAny (locationReport instructions instr) = false ↔
      ∀ id, debugLocationFile? instr = some id →
        ∃ statement ∈ instructions.data, DeclaresFile statement id := by
  have known := @pass1Walk_declared instructions instructions.data
  unfold locationReport validateDebugLocationFiles
  rw [List.foldl_cons, List.foldl_nil]
  cases file : debugLocationFile? instr with
  | none => exact iff_of_true rfl fun _ absurd => by contradiction
  | some id =>
      simp only [Option.some.injEq, forall_eq', ← known]
      split
      · next declared => exact iff_of_true rfl declared
      · next undeclared => exact iff_of_false (by simp) undeclared

end Run

/-! ## Rules and turns -/

section Rules

variable {section_ : SymbolSection} {instr : Instruction}

theorem statementPasses_data (isData : isDataDirective instr.directiveKind = true) :
    StatementPasses section_ instr ↔
      StandsInData section_ instr.directiveKind ∧ dataDirectiveFault instr = none := by
  constructor
  · rintro ⟨accepted, -, -, -⟩
    exact ⟨⟨accepted.notText isData, accepted.bssOnly isData⟩, accepted.faultless isData⟩
  · rintro ⟨⟨notText, bssOnly⟩, faultless⟩
    have others : instr.directiveKind ≠ .invalid ∧ isVisibility instr.directiveKind = false ∧
        isDebugFile instr = false ∧ instr.directiveKind ≠ .debugLocation := by
      unfold isDebugFile
      revert isData
      cases instr.directiveKind <;> decide
    obtain ⟨known, notVisibility, noFile, noLocation⟩ := others
    refine ⟨⟨known, fun _ => notText, fun _ => faultless, fun _ => bssOnly⟩, ?_, ?_,
      fun location => absurd location noLocation⟩
    · rw [notVisibility]
      exact fun visible => by contradiction
    · rw [noFile]
      exact fun isFile => by contradiction

/-- A statement that holds no data passes with what its own kind asks for. -/
theorem statementPasses_other (noData : isDataDirective instr.directiveKind = false) :
    StatementPasses section_ instr ↔ instr.directiveKind ≠ .invalid ∧
      (isVisibility instr.directiveKind = true → SymbolOperands (instr.ops.map Operand.kind)) ∧
      (isDebugFile instr = true → ∃ id, DeclaresFile instr id) ∧
      (instr.directiveKind = .debugLocation → debugLocationFault instr = none) := by
  have noAsk : ∀ {P : Prop}, isDataDirective instr.directiveKind = true → P := by
    rw [noData]
    exact fun absurd => by contradiction
  have declares : (declaredFile? instr).isSome = true ↔ ∃ id, DeclaresFile instr id := by
    simp only [← declaresFile_iff, Option.isSome_iff_exists]
    constructor
    · rintro ⟨file, declared⟩
      exact ⟨file.id, file, declared, rfl⟩
    · rintro ⟨_, file, declared, -⟩
      exact ⟨file, declared⟩
  have symbol : isVisibility instr.directiveKind = true →
      ((declaration? instr).isSome = true ↔ SymbolOperands (instr.ops.map Operand.kind)) := by
    intro visible
    constructor
    · intro declared
      obtain ⟨event, isEvent⟩ := Option.isSome_iff_exists.mp declared
      obtain ⟨label, line, col, endCol, ops, -⟩ := declaration?_eq_some isEvent
      exact ⟨label, by rw [ops]; rfl⟩
    · rintro ⟨name, kinds⟩
      obtain ⟨⟨_, line, col, endCol⟩, ops, rfl⟩ := List.map_eq_singleton_iff.mp kinds
      unfold declaration?
      rw [ops]
      revert visible
      cases instr.directiveKind <;> simp [isVisibility]
  constructor
  · rintro ⟨accepted, visibility, file, location⟩
    exact ⟨accepted.known, fun visible => (symbol visible).mp (visibility visible),
      fun isFile => declares.mp (file isFile), location⟩
  · rintro ⟨known, visibility, file, location⟩
    exact ⟨⟨known, noAsk, noAsk, noAsk⟩, fun visible => (symbol visible).mpr (visibility visible),
      fun isFile => declares.mpr (file isFile), location⟩

/-- The location line. -/
theorem locationOperands_iff (kind : instr.directiveKind = .debugLocation)
    {declared : Nat → Prop} (range : ∀ id, declared id → 1 ≤ id ∧ id ≤ 2 ^ 32 - 1) :
    (debugLocationFault instr = none ∧ ∀ id, debugLocationFile? instr = some id → declared id) ↔
      LocationOperands declared (instr.ops.map Operand.kind) := by
  unfold debugLocationFault LocationOperands
  split
  · next file _ _ _ line _ _ _ column _ _ _ isOps =>
      have isFile : debugLocationFile? instr =
          if file.toInt ≤ 0 ∨ 4294967295 < file.toInt then none else some file.toInt.toNat := by
        simp only [debugLocationFile?, kind, isOps]
      rw [isOps, isFile]
      simp only [List.map_cons, List.map_nil, List.cons.injEq, OperandKind.imm.injEq, and_true,
        and_assoc, exists_eq_left', exists_and_left]
      split
      · next zeros =>
          refine iff_of_true ⟨rfl, fun id => ?_⟩ (.inl zeros)
          rw [if_pos (.inl (by omega))]
          exact fun absurd => by contradiction
      · next notZeros =>
          split
          · next outside =>
              refine iff_of_false (fun both => Option.some_ne_none _ both.1) ?_
              rintro (zeros | ⟨⟨id, isId, isDeclared⟩, lines, columns⟩)
              · exact notZeros zeros
              · have inRange := range id isDeclared
                omega
          · next inside =>
              rw [if_neg (by omega), or_iff_right notZeros]
              simp only [Option.some.injEq, forall_eq']
              constructor
              · rintro ⟨-, isDeclared⟩
                exact ⟨⟨_, by omega, isDeclared⟩, by omega⟩
              · rintro ⟨⟨id, isId, isDeclared⟩, -⟩
                rw [isId, Int.toNat_natCast]
                exact ⟨trivial, isDeclared⟩
  · next other =>
      refine iff_of_false (fun both => Option.some_ne_none _ both.1) ?_
      rintro ⟨file, line, column, kinds, -⟩
      obtain ⟨⟨_, _, _, _⟩, rest, isOps, rfl, restKinds⟩ := List.map_eq_cons_iff.mp kinds
      obtain ⟨⟨_, _, _, _⟩, last, isRest, rfl, lastKinds⟩ := List.map_eq_cons_iff.mp restKinds
      obtain ⟨⟨_, _, _, _⟩, isLast, rfl⟩ := List.map_eq_singleton_iff.mp lastKinds
      rw [isRest, isLast] at isOps
      exact other _ _ _ _ _ _ _ _ _ _ _ _ isOps

theorem DeclaresFile.isDebugFile {id : Nat} (declares : DeclaresFile instr id) :
    isDebugFile instr = true := by
  obtain ⟨-, -, -, -, -, -, -, -, isFile | ⟨isBytes, -⟩⟩ := declares
  · simp [Passes.isDebugFile, isFile]
  · simp [Passes.isDebugFile, isBytes]

theorem DeclaresFile.id_eq {first second : Nat} (one : DeclaresFile instr first)
    (two : DeclaresFile instr second) : first = second := by
  obtain ⟨value, _, kinds, isFirst, -⟩ := one
  obtain ⟨_, _, sameKinds, isSecond, -⟩ := two
  rw [kinds] at sameKinds
  obtain ⟨rfl, -⟩ := by simpa using sameKinds
  omega

theorem debugLocationFile?_of_other (other : instr.directiveKind ≠ .debugLocation) :
    debugLocationFile? instr = none := by
  unfold debugLocationFile?
  split
  · next kind _ => exact absurd kind other
  · rfl

/-- The rules of a directive that is no switch are what pass 1 checks. -/
theorem followsRules_iff {statements before : List Instruction}
    (directive : instr.directiveKind ≠ .none) (noSwitch : sectionSwitch? instr.directiveKind = none)
    (count : instr.ops.length ≤ maxOperands) :
    FollowsRules statements before instr ↔
      StatementPasses (currentSection before) instr ∧
        (∀ id, DeclaresFile instr id → ∀ earlier ∈ before, ¬DeclaresFile earlier id) ∧
        ∀ id, debugLocationFile? instr = some id →
          ∃ statement ∈ statements, DeclaresFile statement id := by
  have noFile : isDebugFile instr = false →
      ∀ id, DeclaresFile instr id → ∀ earlier ∈ before, ¬DeclaresFile earlier id := by
    intro other id declares
    rw [declares.isDebugFile] at other
    contradiction
  have noLocation : instr.directiveKind ≠ .debugLocation → ∀ id,
      debugLocationFile? instr = some id → ∃ statement ∈ statements, DeclaresFile statement id := by
    intro other id file
    rw [debugLocationFile?_of_other other] at file
    contradiction
  have data : ∀ {operands : Prop}, isDataDirective instr.directiveKind = true →
      isDebugFile instr = false → instr.directiveKind ≠ .debugLocation →
      (dataDirectiveFault instr = none ↔ operands) →
      (StandsInData (currentSection before) instr.directiveKind ∧ operands ↔
        StatementPasses (currentSection before) instr ∧
          (∀ id, DeclaresFile instr id → ∀ earlier ∈ before, ¬DeclaresFile earlier id) ∧
          ∀ id, debugLocationFile? instr = some id →
            ∃ statement ∈ statements, DeclaresFile statement id) := by
    intro operands isData otherFile otherLocation checked
    rw [statementPasses_data isData, checked]
    exact (and_iff_left ⟨noFile otherFile, noLocation otherLocation⟩).symm
  obtain ⟨kind, isKind⟩ : ∃ kind, instr.directiveKind = kind := ⟨_, rfl⟩
  unfold FollowsRules
  cases kind with
  | none => exact absurd isKind directive
  | text | data | readOnlyData | bss => rw [isKind] at noSwitch; contradiction
  | int8 | int16 | int32 | int64 =>
      have exact_ := data (by rw [isKind]; rfl) (by simp [isDebugFile, isKind]) (by simp [isKind])
        (dataDirectiveFault_integers count (by rw [isKind]; rfl))
      simpa only [isKind] using exact_
  | alignment =>
      have exact_ := data (by rw [isKind]; rfl) (by simp [isDebugFile, isKind]) (by simp [isKind])
        (dataDirectiveFault_alignment isKind)
      simpa only [isKind] using exact_
  | zeroSpace =>
      have exact_ := data (by rw [isKind]; rfl) (by simp [isDebugFile, isKind]) (by simp [isKind])
        (dataDirectiveFault_zeroSpace isKind)
      simpa only [isKind] using exact_
  | nulString =>
      have exact_ := data (by rw [isKind]; rfl) (by simp [isDebugFile, isKind]) (by simp [isKind])
        (dataDirectiveFault_nulString isKind)
      simpa only [isKind] using exact_
  | invalid =>
      rw [statementPasses_other (by rw [isKind]; rfl)]
      simp [isKind]
  | external | global | «local» =>
      have otherFile : isDebugFile instr = false := by simp [isDebugFile, isKind]
      have otherLocation : instr.directiveKind ≠ .debugLocation := by simp [isKind]
      rw [statementPasses_other (by rw [isKind]; rfl),
        and_iff_left ⟨noFile otherFile, noLocation otherLocation⟩]
      simp [isKind, isDebugFile, isVisibility]
  | debugFile | debugFileBytes =>
      rw [statementPasses_other (by rw [isKind]; rfl)]
      have isFile : isDebugFile instr = true := by simp [isDebugFile, isKind]
      have notVisible : isVisibility instr.directiveKind = false := by rw [isKind]; rfl
      rw [and_iff_left (noLocation (by simp [isKind])), notVisible]
      simp only [isKind, ne_eq, reduceCtorEq, not_false_eq_true, Bool.false_eq_true,
        false_implies, true_and, isFile, forall_const, and_true]
      constructor
      · rintro ⟨id, declares, new⟩
        exact ⟨⟨id, declares⟩, fun other alike => alike.id_eq declares ▸ new⟩
      · rintro ⟨⟨id, declares⟩, new⟩
        exact ⟨id, declares, new id declares⟩
  | debugLocation =>
      have otherFile : isDebugFile instr = false := by simp [isDebugFile, isKind]
      have range : ∀ id, (∃ statement ∈ statements, DeclaresFile statement id) →
          1 ≤ id ∧ id ≤ 2 ^ 32 - 1 := by
        rintro id ⟨statement, -, value, text, -, -, low, high, -⟩
        exact ⟨low, high⟩
      have located := locationOperands_iff isKind range
      rw [statementPasses_other (by rw [isKind]; rfl),
        and_iff_right (a := ∀ id, DeclaresFile instr id → _) (noFile otherFile)]
      simp only [isKind, ne_eq, reduceCtorEq, not_false_eq_true, isVisibility, Bool.false_eq_true,
        false_implies, true_and, otherFile, forall_const]
      exact located.symm

end Rules

/-! ## Reports -/

/-- A statement of the grammar has at most three operands. -/
theorem operandCount {tokens : TokenArray} (clean : errorHasAny (parserParse tokens).errors = false) :
    ∀ instr ∈ (parserParse tokens).instructions.data, instr.ops.length ≤ maxOperands := by
  have isProgram := parserParse_iff.mp ⟨clean, rfl⟩
  generalize (parserParse tokens).instructions.data = statements at isProgram
  generalize tokens.data = given at isProgram
  have statement : ∀ {start instr : Instruction} {text : List Token},
      StatementText .nazm start text instr → instr.ops.length ≤ maxOperands := by
    intro start instr text isText
    cases isText with
    | directive _ _ _ count => exact count
    | instruction _ _ _ count _ => exact count
  induction isProgram with
  | done => exact fun _ member => absurd member List.not_mem_nil
  | newline _ _ inductionHypothesis => exact inductionHypothesis
  | line isLine _ _ inductionHypothesis =>
      refine List.forall_mem_cons.mpr ⟨?_, inductionHypothesis⟩
      cases isLine with
      | statement isStatement => exact statement isStatement
      | label _ => exact Nat.zero_le _
      | labelled _ isStatement => exact statement isStatement

section Reports

variable {instructions : InstructionList} {before : List Instruction} {instr : Instruction}

theorem not_reported_iff : ¬Reported instructions before instr ↔
    errorHasAny (turnReport instructions before instr) = false ∧
      errorHasAny (locationReport instructions instr) = false := by
  rw [Reported, not_or, Bool.not_eq_true, Bool.not_eq_true]

/-- Directives other than switches are reported for what they break. -/
theorem reported_iff (directive : instr.directiveKind ≠ .none)
    (noSwitch : sectionSwitch? instr.directiveKind = none)
    (count : instr.ops.length ≤ maxOperands) :
    Reported instructions before instr ↔
      ¬FollowsRules instructions.data before instr ∨ SymbolConflict instructions before instr := by
  rw [← not_iff_not, not_or, not_not, not_reported_iff, turnReport_clean_iff,
    locationReport_clean_iff, followsRules_iff directive noSwitch count]
  constructor
  · rintro ⟨⟨passes, noConflict, new⟩, declared⟩
    exact ⟨⟨passes, new, declared⟩, noConflict⟩
  · rintro ⟨⟨passes, new, declared⟩, noConflict⟩
    exact ⟨⟨passes, noConflict, new⟩, declared⟩

/-- A switch is never reported. -/
theorem not_reported_switch (switch : sectionSwitch? instr.directiveKind ≠ none) :
    ¬Reported instructions before instr ∧ ¬SymbolConflict instructions before instr := by
  have others : isVisibility instr.directiveKind = false ∧ ¬EntersLabel instr ∧
      instr.directiveKind ≠ .debugLocation := by
    unfold EntersLabel
    revert switch
    cases instr.directiveKind <;> decide
  obtain ⟨notVisibility, skips, noLocation⟩ := others
  constructor
  · rw [not_reported_iff, locationReport_clean_iff, debugLocationFile?_of_other noLocation, turnReport,
      pass1Step]
    refine ⟨?_, fun _ absurd => by contradiction⟩
    cases kind : instr.directiveKind <;> rw [kind] at switch <;> first
      | exact absurd rfl switch
      | rfl
  · rintro ⟨event, isEvent, -⟩
    rw [event_of_other notVisibility skips] at isEvent
    contradiction

/-- A switch follows its rule when nothing stands after it. -/
theorem followsRules_switch {statements : List Instruction}
    (switch : sectionSwitch? instr.directiveKind ≠ none) :
    FollowsRules statements before instr ↔ instr.ops = [] := by
  unfold FollowsRules
  cases kind : instr.directiveKind <;> rw [kind] at switch <;> first
    | exact absurd rfl switch
    | exact List.map_eq_nil_iff

end Reports

/-- Pass 1 reports a directive exactly when it breaks the documented rules or the
symbol table refuses it, but for the switches of sections: these are never
reported, so that operands after them pass. -/
theorem directives_validated_iff {tokens : TokenArray}
    (clean : errorHasAny (parserParse tokens).errors = false) :
    let instructions := (parserParse tokens).instructions
    (∀ before instr after, instructions.data = before ++ instr :: after →
      instr.directiveKind ≠ .none →
      ((Reported instructions before instr ↔
          ¬FollowsRules instructions.data before instr ∨ SymbolConflict instructions before instr) ↔
        (sectionSwitch? instr.directiveKind ≠ none → instr.ops = []))) ∧
    (∀ before instr, (pass1Walk instructions (before ++ [instr])).errors =
      (pass1Walk instructions before).errors.join (turnReport instructions before instr)) ∧
    (pass1Run instructions).errors =
      (instructions.data.map (locationReport instructions)).foldl ErrorList.join
        ((pass1Walk instructions instructions.data).errors.join
          (undefinedReport instructions)) := by
  intro instructions
  refine ⟨fun before instr after split directive => ?_, pass1Walk_errors_snoc, pass1Run_errors⟩
  by_cases switch : sectionSwitch? instr.directiveKind = none
  · have count := operandCount clean instr (by rw [split]; simp)
    exact iff_of_true (reported_iff directive switch count) fun absurd => (absurd switch).elim
  · obtain ⟨unreported, noConflict⟩ := @not_reported_switch instructions before instr switch
    rw [followsRules_switch switch, iff_false_intro unreported, iff_false_intro noConflict, or_false,
      false_iff, not_not, imp_iff_right switch]

/-- `.بيانات` and a value that is too wide for its directive. -/
def byteData : SourceBuffer := ⟨utf8 ".بيانات\n.عدد٨ 256\n", none⟩

def wideByte : Instruction :=
  ⟨.invalid, [⟨.imm 256, 2, 7, 10⟩], none, some (utf8 ".عدد٨"), .int8, 2, 1, 6, 0, 0, 0⟩

theorem directives_validated_iff_byteData :
    Reported (parserParse (lexerLex byteData).tokens).instructions [dataSwitch] wideByte ↔
      ¬FollowsRules (parserParse (lexerLex byteData).tokens).instructions.data [dataSwitch] wideByte ∨
        SymbolConflict (parserParse (lexerLex byteData).tokens).instructions [dataSwitch] wideByte :=
  ((@directives_validated_iff (lexerLex byteData).tokens (by decide +kernel)).1
    [dataSwitch] wideByte [] (by decide +kernel) (by decide)).mpr (by decide)

/-- A switch with an operand after it. -/
def switchWithOperand : SourceBuffer := ⟨utf8 ".نص 5\n", none⟩

def textSwitch : Instruction :=
  ⟨.invalid, [⟨.imm 5, 1, 5, 6⟩], none, some (utf8 ".نص"), .text, 1, 1, 4, 0, 0, 0⟩

/-- The operand of `.نص 5` breaks the rule of `.نص`, and nothing is reported. -/
theorem switch_operand_unreported :
    errorHasAny (parserParse (lexerLex switchWithOperand).tokens).errors = false ∧
      (parserParse (lexerLex switchWithOperand).tokens).instructions.data = [textSwitch] ∧
      errorHasAny (pass1Run (parserParse (lexerLex switchWithOperand).tokens).instructions).errors =
        false ∧
      ¬FollowsRules [textSwitch] [] textSwitch ∧
      ¬(Reported (parserParse (lexerLex switchWithOperand).tokens).instructions [] textSwitch ↔
        ¬FollowsRules [textSwitch] [] textSwitch ∨
          SymbolConflict (parserParse (lexerLex switchWithOperand).tokens).instructions []
            textSwitch) := by
  have breaks : ¬FollowsRules [textSwitch] [] textSwitch := by
    rw [followsRules_switch (by decide)]
    decide
  refine ⟨by decide +kernel, by decide +kernel, by decide +kernel, breaks, fun same => ?_⟩
  exact (not_reported_switch (by decide)).1 (same.mpr (.inl breaks))

end Nazm.Passes
