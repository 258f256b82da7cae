import Nazm.Encoder.Encode
import Nazm.Passes.Directives
import Nazm.Symtable.Symtable

/-!
Pass 1: sizes and labels.

Owns `src/passes/pass1.c`: the walk over the statements, its section offsets,
the symbol table it builds and the reports after the walk. Offsets are
`size_t`, here natural numbers.

Does not own the checks of single directives.
-/

namespace Nazm.Passes

open Nazm.Encoder Nazm.Parser Nazm.Symtable Nazm.Unicode Nazm.Diagnostics

/-! ## Sections -/

/-- One `size_t` for each section. -/
structure SectionSizes where
  text : Nat
  data : Nat
  readOnlyData : Nat
  bss : Nat
deriving DecidableEq, Repr

def SectionSizes.zero : SectionSizes := ⟨0, 0, 0, 0⟩

/-- The offset that `pass1_section_offset` points to. -/
def SectionSizes.get (sizes : SectionSizes) : SymbolSection → Nat
  | .text => sizes.text
  | .data => sizes.data
  | .readOnlyData => sizes.readOnlyData
  | .bss => sizes.bss

/-- `*section_offset += amount`. -/
def SectionSizes.add (sizes : SectionSizes) (section_ : SymbolSection) (amount : Nat) :
    SectionSizes :=
  match section_ with
  | .text => { sizes with text := sizes.text + amount }
  | .data => { sizes with data := sizes.data + amount }
  | .readOnlyData => { sizes with readOnlyData := sizes.readOnlyData + amount }
  | .bss => { sizes with bss := sizes.bss + amount }

/-- The largest `.محاذاة` boundary used in each section; 0 if none. -/
structure SectionAlignments where
  data : Nat
  readOnlyData : Nat
  bss : Nat
deriving DecidableEq, Repr

/-- The section a directive switches to. -/
def sectionSwitch? : DirectiveKind → Option SymbolSection
  | .text => some .text
  | .data => some .data
  | .readOnlyData => some .readOnlyData
  | .bss => some .bss
  | _ => none

/-! ## The walk -/

/-- `Pass1Result`, while it is built, with the local `current_section`. -/
structure Pass1State where
  symtable : SymbolTable
  offsets : SectionSizes
  currentSection : SymbolSection
  alignments : SectionAlignments
  debugFiles : List DebugFile
  errors : ErrorList

def Pass1State.init : Pass1State :=
  ⟨.empty, .zero, .text, ⟨0, 0, 0⟩, [], .empty⟩

/-- The loop runs over one list with one source name. -/
def pass1Fault (instructions : InstructionList) (state : Pass1State) (instr : Instruction)
    (fault : DirectiveFault) : Pass1State :=
  { state with errors := addDirectiveError state.errors instructions instr fault.1 fault.2 }

def pass1VisibilityError (instructions : InstructionList) (state : Pass1State)
    (instr : Instruction) (message : List UInt8) : Pass1State :=
  { state with errors := addVisibilityError state.errors instructions instr message }

/-- `x ? x : fallback` of a span member. -/
def orElseSpan (member fallback : Nat) : Nat := if member = 0 then fallback else member

/-- Enter the label of a statement at the current offset. -/
def pass1Label (instructions : InstructionList) (state : Pass1State) (instr : Instruction) :
    Pass1State :=
  match instr.label with
  | none => state
  | some label =>
      match symtableInsertSection state.symtable label state.currentSection
        (state.offsets.get state.currentSection) with
      | (symtable, true) => { state with symtable := symtable }
      | (_, false) =>
          { state with
            errors := errorAddSpan state.errors
              (some (instructions.sourceName.getD (utf8 "unknown")))
              (orElseSpan instr.labelLine instr.line) (orElseSpan instr.labelCol instr.col)
              (orElseSpan instr.labelEndCol instr.endCol)
              (snprintf 256 (utf8 "وسم مكرر: '" ++ label ++ utf8 "'")) }

def pass1External (instructions : InstructionList) (state : Pass1State) (instr : Instruction) :
    Pass1State :=
  match instr.ops with
  | [⟨.label label, _, _, _⟩] =>
      match symtableDeclareExternal state.symtable label with
      | (symtable, true) => { state with symtable := symtable }
      | (_, false) =>
          pass1VisibilityError instructions state instr
            (snprintf 256 (utf8 "تعارض في إعلان الرمز الخارجي '" ++ label ++ utf8 "'"))
  | _ =>
      pass1VisibilityError instructions state instr
        (utf8 "التوجيه '.خارجي' يتطلب اسم رمز عربي واحداً")

def pass1DebugFile (instructions : InstructionList) (state : Pass1State) (instr : Instruction) :
    Pass1State :=
  match debugFileDirective state.debugFiles instr with
  | .ok file => { state with debugFiles := state.debugFiles ++ [file] }
  | .error fault => pass1Fault instructions state instr fault

def pass1DebugLocation (instructions : InstructionList) (state : Pass1State)
    (instr : Instruction) : Pass1State :=
  match debugLocationFault instr with
  | none => state
  | some fault => pass1Fault instructions state instr fault

def pass1Visibility (instructions : InstructionList) (state : Pass1State) (instr : Instruction)
    (binding : SymbolBinding) : Pass1State :=
  match instr.ops with
  | [⟨.label label, _, _, _⟩] =>
      match symtableDeclareBinding state.symtable label binding with
      | (symtable, true) => { state with symtable := symtable }
      | (_, false) =>
          pass1VisibilityError instructions state instr
            (snprintf 256 (utf8 "تعارض في رؤية الوسم '" ++ label ++
              utf8 "': لا يمكن جمع '.عام' و'.محلي'"))
  | _ =>
      pass1VisibilityError instructions state instr
        (snprintf 192 (utf8 "التوجيه '" ++ instr.directive.getD [] ++
          utf8 "' يتطلب اسم وسم واحداً"))

/-- `pass1_note_alignment`. -/
def pass1NoteAlignment (alignments : SectionAlignments) (section_ : SymbolSection)
    (instr : Instruction) : SectionAlignments :=
  match alignmentBoundary? instr with
  | none => alignments
  | some alignment =>
      match section_ with
      | .data => { alignments with data := max alignments.data alignment }
      | .readOnlyData => { alignments with readOnlyData := max alignments.readOnlyData alignment }
      | .bss => { alignments with bss := max alignments.bss alignment }
      | .text => alignments

def pass1DataDirective (instructions : InstructionList) (state : Pass1State)
    (instr : Instruction) : Pass1State :=
  if state.currentSection = .text then
    pass1Fault instructions state instr (none, utf8 "توجيهات البيانات مسموحة داخل قسم بيانات فقط")
  else
    match dataDirectiveFault instr with
    | some fault => pass1Fault instructions state instr fault
    | none =>
        if state.currentSection = .bss ∧ instr.directiveKind ≠ .zeroSpace ∧
            instr.directiveKind ≠ .alignment then
          pass1Fault instructions state instr
            (none, utf8 "قسم '.غير_مهيأة' يقبل '.مساحة_صفرية' و'.محاذاة' فقط")
        else
          let dsz := dataDirectiveSizeAt instr (state.offsets.get state.currentSection)
          let state :=
            { state with
              alignments := pass1NoteAlignment state.alignments state.currentSection instr }
          let state := pass1Label instructions state instr
          if 0 < dsz then
            { state with offsets := state.offsets.add state.currentSection dsz.toNat }
          else state

/-- `sz`: the predicted size of an instruction. -/
def instructionSize (instr : Instruction) : Nat :=
  let sz := encoderInstructionSize instr.opcode instr.ops
  if sz = 0 then maxInstructionBytes else sz

/-- A statement that is no directive. -/
def pass1Statement (instructions : InstructionList) (state : Pass1State) (instr : Instruction) :
    Pass1State :=
  let state := pass1Label instructions state instr
  if instr.opcode = .invalid then state
  else if state.currentSection ≠ .text then state
  else { state with offsets := state.offsets.add .text (instructionSize instr) }

/-- One turn of the loop of `pass1_run`. -/
def pass1Step (instructions : InstructionList) (state : Pass1State) (instr : Instruction) :
    Pass1State :=
  match instr.directiveKind with
  | .none => pass1Statement instructions state instr
  | .text => { state with currentSection := .text }
  | .data => { state with currentSection := .data }
  | .readOnlyData => { state with currentSection := .readOnlyData }
  | .bss => { state with currentSection := .bss }
  | .external => pass1External instructions state instr
  | .debugFile | .debugFileBytes => pass1DebugFile instructions state instr
  | .debugLocation => pass1DebugLocation instructions state instr
  | .global => pass1Visibility instructions state instr .global
  | .local => pass1Visibility instructions state instr .local
  | .invalid =>
      pass1Fault instructions state instr
        (none, snprintf 192 (utf8 "توجيه غير معروف: '" ++ instr.directive.getD [] ++ utf8 "'"))
  | .int8 | .int16 | .int32 | .int64 | .alignment | .zeroSpace | .nulString =>
      pass1DataDirective instructions state instr

/-- The loop of `pass1_run` over the first statements. -/
def pass1Walk (instructions : InstructionList) (statements : List Instruction) : Pass1State :=
  statements.foldl (pass1Step instructions) .init

/-! ## After the walk -/

/-- A visibility directive for a symbol. -/
def declaresVisibility (name : List UInt8) (instr : Instruction) : Bool :=
  match instr.directiveKind, instr.ops with
  | .global, [⟨.label label, _, _, _⟩] | .local, [⟨.label label, _, _, _⟩] => decide (label = name)
  | _, _ => false

/-- `report_undefined_visibility_symbols`. -/
def reportUndefinedVisibilitySymbols (instructions : InstructionList) (symtable : SymbolTable)
    (errors : ErrorList) : ErrorList :=
  symtable.entries.foldl
    (fun errors entry =>
      if entry.defined || entry.externalDeclared || !entry.bindingDeclared then errors
      else
        match instructions.data.find? (declaresVisibility entry.name) with
        | none => errors
        | some instr =>
            addVisibilityError errors instructions instr
              (snprintf 256 (utf8 "توجيه الرؤية يشير إلى وسم غير معرّف: '" ++ entry.name ++
                utf8 "'")))
    errors

/-- `Pass1Result`. -/
structure Pass1Result where
  symtable : SymbolTable
  sizes : SectionSizes
  alignments : SectionAlignments
  debugFiles : List DebugFile
  errors : ErrorList

/-- `pass1_run`. -/
def pass1Run (instructions : InstructionList) : Pass1Result :=
  let state := pass1Walk instructions instructions.data
  let errors := reportUndefinedVisibilitySymbols instructions state.symtable state.errors
  let errors := validateDebugLocationFiles instructions state.debugFiles errors
  ⟨state.symtable, state.offsets, state.alignments, state.debugFiles, errors⟩

end Nazm.Passes
