import Nazm.Library.LittleEndian
import Nazm.Library.Walk
import Nazm.Passes.Pass1

/-!
Pass 2: bytes, relocations and emission spans.

Owns `src/passes/pass2.c`. A section buffer is the list of the bytes written so
far; its capacity is the size pass 1 computed. An internal error ends the walk
at once.

Does not own the growth of the arrays.
-/

namespace Nazm.Passes

open Nazm.Encoder Nazm.Parser Nazm.Symtable Nazm.Unicode Nazm.Diagnostics

/-! ## Results -/

/-- `RelocationSection`. -/
inductive RelocationSection where
  | text | data | readOnlyData
deriving DecidableEq, Repr

/-- `RelocationKind`. -/
inductive RelocationKind where
  | abs64 | pc32
deriving DecidableEq, Repr

structure Relocation where
  section_ : RelocationSection
  kind : RelocationKind
  offset : Nat
  symbol : List UInt8
  addend : Int
deriving DecidableEq, Repr

structure EmissionSpan where
  section_ : SymbolSection
  offset : Nat
  size : Nat
deriving DecidableEq, Repr

structure DebugLine where
  offset : Nat
  fileId : UInt32
  line : UInt32
  column : UInt32
deriving DecidableEq, Repr

/-- `Pass2Result`. The sizes of the three buffers are their lengths, and
`emissions` holds the spans of the statements reached. -/
structure Pass2Result where
  textBytes : List UInt8
  dataBytes : List UInt8
  readOnlyDataBytes : List UInt8
  bssSize : Nat
  emissions : List EmissionSpan
  debugLines : List DebugLine
  relocations : List Relocation
  errors : ErrorList
deriving DecidableEq

/-- `pass2_section_size`, for the four sections at once. -/
def Pass2Result.sizes (result : Pass2Result) : SectionSizes :=
  ⟨result.textBytes.length, result.dataBytes.length, result.readOnlyDataBytes.length,
    result.bssSize⟩

/-! ## Internal errors -/

/-- The reports of `add_internal_error`. -/
inductive InternalError where
  | dataSizeNegative
  | dataOverflow
  | dataSize (expected : Int) (actual : Nat)
  | textOverflow
  | instructionSize (expected actual : Nat)
  | missingDisplacement
  | totals (pass2 pass1 : SectionSizes)
deriving DecidableEq

def InternalError.message : InternalError → List UInt8
  | .dataSizeNegative => utf8 "خطأ داخلي: حجم توجيه البيانات سالب أو فائض"
  | .dataOverflow => utf8 "خطأ داخلي: تجاوز خرج البيانات الحجم المحسوب في المرور الأول"
  | .dataSize expected actual =>
      snprintf 256 (utf8 "خطأ داخلي: حجم توجيه البيانات المتوقع " ++ decimalInt expected ++
        utf8 " بايت، لكن المرور الثاني أصدر " ++ decimal actual ++ utf8 " بايت")
  | .textOverflow => utf8 "خطأ داخلي: تجاوز خرج النص الحجم المحسوب في المرور الأول"
  | .instructionSize expected actual =>
      snprintf 256 (utf8 "خطأ داخلي: حجم التعليمة المتوقع " ++ decimal expected ++
        utf8 " بايت، لكن المرمّز أصدر " ++ decimal actual ++ utf8 " بايت")
  | .missingDisplacement => utf8 "خطأ داخلي: تعليمة الذاكرة النسبية لا تحتوي إزاحة 32 بت"
  | .totals pass2 pass1 =>
      snprintf 256 (utf8 "خطأ داخلي: أحجام المرور الثاني لا تطابق المرور الأول (نص " ++
        decimal pass2.text ++ utf8 "/" ++ decimal pass1.text ++ utf8 "، بيانات " ++
        decimal pass2.data ++ utf8 "/" ++ decimal pass1.data ++ utf8 "، قراءة " ++
        decimal pass2.readOnlyData ++ utf8 "/" ++ decimal pass1.readOnlyData ++
        utf8 "، غير مهيأة " ++ decimal pass2.bss ++ utf8 "/" ++ decimal pass1.bss ++ utf8 ")")

/-- `add_internal_error`; the totals have no statement. -/
def addInternalError (errors : ErrorList) (instructions : InstructionList)
    (instr : Option Instruction) (message : List UInt8) : ErrorList :=
  errorAddSpan errors (some (instructions.sourceName.getD (utf8 "unknown")))
    (orElseSpan ((instr.map (·.line)).getD 0) 1) (orElseSpan ((instr.map (·.col)).getD 0) 1)
    (orElseSpan ((instr.map (·.endCol)).getD 0) 2) message

/-! ## Symbolic operands -/

/-- `opcode_uses_relative_label`. -/
def opcodeUsesRelativeLabel : OpcodeEnum → Bool
  | .jmp | .call | .je | .jne | .jg | .jge | .jl | .jle | .jz | .jnz | .js | .jns => true
  | _ => false

/-- `branch_target_error`. -/
def branchTargetError (instr : Instruction) : Option (List UInt8) :=
  match instr.ops with
  | [⟨.label _, _, _, _⟩] => none
  | [_] =>
      if !opcodeUsesRelativeLabel instr.opcode then none
      else if instr.opcode = .jmp ∨ instr.opcode = .call then
        some (utf8 "هدف 'اقفز' و'ناد' يجب أن يكون وسما أو سجلا من 64 بت")
      else some (utf8 "هدف القفز الشرطي يجب أن يكون وسما")
  | _ => none

/-- `is_mov_reg_label`. -/
def isMovRegLabel (instr : Instruction) (operandIndex : Nat) : Bool :=
  match instr.ops with
  | [⟨.reg _, _, _, _⟩, ⟨.label _, _, _, _⟩] =>
      decide (instr.opcode = .mov) && decide (operandIndex = 1)
  | _ => false

/-- `mov_reg_label_relocation_offset`: after REX.W and `B8+rd`. -/
def movRegLabelRelocationOffset : Nat := 2

/-- `relative_label_relocation_offset`: after `E9`, `E8` or `0F xx`. -/
def relativeLabelRelocationOffset : OpcodeEnum → Nat
  | .jmp | .call => 1
  | .je | .jne | .jg | .jge | .jl | .jle | .jz | .jnz | .js | .jns => 2
  | _ => 0

/-- `is_rip_relative_symbol_operand`. -/
def isRipRelativeSymbolOperand (operand : Operand) : Bool :=
  match operand.kind with
  | .memRipLabel _ => true
  | _ => false

/-- `symtable_lookup_ex` or `symtable_is_external`. -/
def symbolKnown (symtable : SymbolTable) (name : List UInt8) : Bool :=
  (symtableLookupEx symtable name).isSome || symtableIsExternal symtable name

/-- An error at an operand, with the statement's span where the operand has none. -/
def addOperandError (errors : ErrorList) (instructions : InstructionList) (instr : Instruction)
    (operand : Operand) (message : List UInt8) : ErrorList :=
  errorAddSpan errors (some (instructions.sourceName.getD (utf8 "unknown")))
    (orElseSpan operand.line instr.line) (orElseSpan operand.col instr.col)
    (orElseSpan operand.endCol instr.endCol) message

/-! ## Data directives -/

/-- `buffer_has_capacity`. -/
def bufferHasCapacity (written amount capacity : Nat) : Bool :=
  decide (written ≤ capacity) && decide (amount ≤ capacity - written)

/-- `buffer_append`; `none` for `false`. `buffer_fill` appends a repeated byte. -/
def bufferAppend (buffer : List UInt8) (capacity : Nat) (data : List UInt8) :
    Option (List UInt8) :=
  if bufferHasCapacity buffer.length data.length capacity then some (buffer ++ data) else none

def bufferFill (buffer : List UInt8) (capacity : Nat) (value : UInt8) (amount : Nat) :
    Option (List UInt8) :=
  bufferAppend buffer capacity (List.replicate amount value)

/-- The string loop of `emit_data_directive`: the buffer, and `false` where it
is too small. -/
def emitStrings (capacity : Nat) : List Operand → List UInt8 → List UInt8 × Bool
  | [], buffer => (buffer, true)
  | op :: ops, buffer =>
      match op.kind with
      | .string data =>
          if bufferHasCapacity buffer.length data.length capacity &&
              bufferHasCapacity (buffer.length + data.length) 1 capacity then
            emitStrings capacity ops (buffer ++ data ++ [0])
          else (buffer, false)
      | _ => emitStrings capacity ops buffer

/-- The value an integer directive stores for an operand. -/
def dataValue (op : Operand) : UInt64 :=
  match op.kind with
  | .imm value => value.toUInt64
  | _ => 0

/-- The integer loop of `emit_data_directive`. -/
def emitIntegers (elemSize capacity : Nat) : List Operand → List UInt8 → List UInt8 × Bool
  | [], buffer => (buffer, true)
  | op :: ops, buffer =>
      match bufferAppend buffer capacity (LittleEndian.bytes elemSize (dataValue op).toNat) with
      | some appended => emitIntegers elemSize capacity ops appended
      | none => (buffer, false)

/-- `buffer_fill` with zeros, as the result of `emit_data_directive`. -/
def emitZeros (amount capacity : Nat) (buffer : List UInt8) : List UInt8 × Bool :=
  match bufferFill buffer capacity 0 amount with
  | some filled => (filled, true)
  | none => (buffer, false)

/-- `emit_data_directive`. -/
def emitDataDirective (instr : Instruction) (capacity : Nat) (buffer : List UInt8) :
    List UInt8 × Bool :=
  match instr.directiveKind with
  | .nulString => emitStrings capacity instr.ops buffer
  | .int8 => emitIntegers 1 capacity instr.ops buffer
  | .int16 => emitIntegers 2 capacity instr.ops buffer
  | .int32 => emitIntegers 4 capacity instr.ops buffer
  | .int64 => emitIntegers 8 capacity instr.ops buffer
  | .alignment =>
      match alignmentBoundary? instr with
      | none => (buffer, true)
      | some alignment => emitZeros (alignmentPadding alignment buffer.length) capacity buffer
  | .zeroSpace =>
      let n := dataDirectiveSize instr
      if 0 < n then emitZeros n.toNat capacity buffer else (buffer, true)
  | _ => (buffer, true)

/-! ## The walk -/

/-- The locals of the loop of `pass2_run`. -/
structure Pass2State where
  currentSection : SymbolSection
  debugFile : UInt32
  debugLine : UInt32
  debugColumn : UInt32
  result : Pass2Result

def Pass2State.init : Pass2State :=
  ⟨.text, 0, 0, 0, ⟨[], [], [], 0, [], [], [], .empty⟩⟩

/-- The state in which `pass2_run` returns early, and the error it reports. -/
structure Pass2Stop where
  state : Pass2State
  error : InternalError
  instr : Instruction

/-- How a turn of the loop ends: with the next state, or with an internal error. -/
abbrev Pass2Flow := Except Pass2Stop Pass2State

/-- Record the emission span of a statement. -/
def Pass2State.emit (state : Pass2State) (section_ : SymbolSection) (offset size : Nat) :
    Pass2State :=
  { state with
    result :=
      { state.result with emissions := state.result.emissions ++ [⟨section_, offset, size⟩] } }

/-- The span of a statement that emits nothing. -/
def Pass2State.emitNothing (state : Pass2State) : Pass2State :=
  state.emit state.currentSection (state.result.sizes.get state.currentSection) 0

/-- What the resolution of the operands of a statement adds. -/
structure Resolution where
  relocations : List Relocation
  errors : ErrorList
  resolvedTarget : Int
  resolutionError : Bool

/-- A failed operand. -/
def Resolution.fail (resolution : Resolution) (instructions : InstructionList)
    (instr : Instruction) (operand : Operand) (message : List UInt8) : Resolution :=
  { resolution with
    errors := addOperandError resolution.errors instructions instr operand (snprintf 256 message)
    resolutionError := true }

def Resolution.push (resolution : Resolution) (relocation : Relocation) : Resolution :=
  { resolution with relocations := resolution.relocations ++ [relocation] }

/-- `RELOC_PC32` into the displacement of a branch at `textSize`. -/
def branchRelocation (instr : Instruction) (textSize : Nat) (label : List UInt8) : Relocation :=
  ⟨.text, .pc32, textSize + relativeLabelRelocationOffset instr.opcode, label, -4⟩

/-- `RELOC_ABS64` into the immediate of MOV at `textSize`. -/
def movRelocation (textSize : Nat) (label : List UInt8) : Relocation :=
  ⟨.text, .abs64, textSize + movRegLabelRelocationOffset, label, 0⟩

/-- A label operand that the symbol table defines. -/
def resolveDefined (instructions : InstructionList) (instr : Instruction) (textSize sz : Nat)
    (operandIndex : Nat) (operand : Operand) (label : List UInt8) (targetOffset : Int)
    (targetSection : Option SymbolSection) (resolution : Resolution) : Resolution :=
  if opcodeUsesRelativeLabel instr.opcode then
    if targetSection ≠ some .text then
      resolution.fail instructions instr operand
        (utf8 "لا يمكن القفز إلى وسم خارج قسم النص: '" ++ label ++ utf8 "'")
    else
      let resolvedTarget := targetOffset - ((textSize + sz : Nat) : Int)
      let resolution := { resolution with resolvedTarget := resolvedTarget }
      if resolvedTarget < -2147483648 ∨ 2147483647 < resolvedTarget then
        resolution.fail instructions instr operand
          (utf8 "إزاحة القفز إلى الوسم '" ++ label ++ utf8 "' خارج مجال rel32 الموقع")
      else resolution
  else if isMovRegLabel instr operandIndex then resolution.push (movRelocation textSize label)
  else resolution

/-- A label operand that the symbol table does not define. -/
def resolveUndefined (instructions : InstructionList) (symtable : SymbolTable)
    (instr : Instruction) (textSize operandIndex : Nat) (operand : Operand) (label : List UInt8)
    (resolution : Resolution) : Resolution :=
  if symtableIsExternal symtable label && opcodeUsesRelativeLabel instr.opcode then
    resolution.push (branchRelocation instr textSize label)
  else if symtableIsExternal symtable label && isMovRegLabel instr operandIndex then
    resolution.push (movRelocation textSize label)
  else
    resolution.fail instructions instr operand (utf8 "وسم غير محلول: '" ++ label ++ utf8 "'")

/-- One turn of the operand loop of an instruction at `textSize` of size `sz`. -/
def resolveOperand (instructions : InstructionList) (symtable : SymbolTable) (instr : Instruction)
    (textSize sz operandIndex : Nat) (operand : Operand) (resolution : Resolution) : Resolution :=
  match operand.kind with
  | .memRipLabel label =>
      if symbolKnown symtable label then resolution
      else
        resolution.fail instructions instr operand
          (utf8 "رمز ذاكرة نسبي غير محلول: '" ++ label ++ utf8 "'")
  | .label label =>
      match symtableLookupEx symtable label with
      | some (targetOffset, targetSection) =>
          resolveDefined instructions instr textSize sz operandIndex operand label targetOffset
            targetSection resolution
      | none =>
          resolveUndefined instructions symtable instr textSize operandIndex operand label
            resolution
  | _ => resolution

/-- The operand loop of an instruction. -/
def resolveOperands (instructions : InstructionList) (symtable : SymbolTable)
    (instr : Instruction) (textSize sz : Nat) : Nat → List Operand → Resolution → Resolution
  | _, [], resolution => resolution
  | operandIndex, operand :: operands, resolution =>
      resolveOperands instructions symtable instr textSize sz (operandIndex + 1) operands
        (resolveOperand instructions symtable instr textSize sz operandIndex operand resolution)

/-- The relocations of the RIP-relative operands of an encoded instruction. -/
def ripRelocations (textSize len : Nat) : List Operand → List Relocation
  | [] => []
  | operand :: operands =>
      match operand.kind with
      | .memRipLabel label =>
          ⟨.text, .pc32, textSize + len - 4, label, -4⟩ :: ripRelocations textSize len operands
      | _ => ripRelocations textSize len operands

/-- A failed instruction: NOPs in its place. -/
def fillNops (textCap : Nat) (state : Pass2State) (instr : Instruction) (sz : Nat) : Pass2Flow :=
  match bufferFill state.result.textBytes textCap 0x90 sz with
  | none => .error ⟨state.emitNothing, .textOverflow, instr⟩
  | some textBytes =>
      let emitted := state.emit .text state.result.textBytes.length sz
      .ok { emitted with result := { emitted.result with textBytes := textBytes } }

/-- The error for an instruction that `encoder_encode` refuses. -/
def encodeError (instructions : InstructionList) (errors : ErrorList) (instr : Instruction) :
    ErrorList :=
  errorAddSpan errors (some (instructions.sourceName.getD (utf8 "unknown"))) instr.line instr.col
    instr.endCol
    (snprintf 256
      ((branchTargetError instr).getD
        (utf8 "تعذر ترميز التعليمة (شفرة العملية=" ++ decimal instr.opcode.toNat ++ utf8 ")")))

/-- Relocations and bytes of an encoded instruction. -/
def appendInstruction (textCap : Nat) (state : Pass2State) (instr : Instruction) (sz : Nat)
    (bytes : List UInt8) : Pass2Flow :=
  let textSize := state.result.textBytes.length
  if bytes.length ≠ sz then .error ⟨state.emitNothing, .instructionSize sz bytes.length, instr⟩
  else if instr.ops.any isRipRelativeSymbolOperand && decide (bytes.length < 4) then
    .error ⟨state.emitNothing, .missingDisplacement, instr⟩
  else
    let result :=
      { state.result with
        relocations :=
          state.result.relocations ++ ripRelocations textSize bytes.length instr.ops }
    let state := { state with result := result }
    match bufferAppend state.result.textBytes textCap bytes with
    | none => .error ⟨state.emitNothing, .textOverflow, instr⟩
    | some textBytes =>
        let emitted := state.emit .text textSize bytes.length
        .ok { emitted with result := { emitted.result with textBytes := textBytes } }

/-- An instruction in `.text`. -/
def pass2Instruction (instructions : InstructionList) (pass1 : Pass1Result) (state : Pass2State)
    (instr : Instruction) : Pass2Flow :=
  let sz := instructionSize instr
  let textSize := state.result.textBytes.length
  let debugLines :=
    if state.debugFile ≠ 0 ∧ state.debugLine ≠ 0 then
      state.result.debugLines ++ [⟨textSize, state.debugFile, state.debugLine, state.debugColumn⟩]
    else state.result.debugLines
  let resolution :=
    resolveOperands instructions pass1.symtable instr textSize sz 0 instr.ops
      ⟨state.result.relocations, state.result.errors, 0, false⟩
  let result :=
    { state.result with
      debugLines := debugLines
      relocations := resolution.relocations
      errors := resolution.errors }
  if resolution.resolutionError then
    fillNops pass1.sizes.text { state with result := result } instr sz
  else
    match encoderEncode instr.opcode instr.ops (Int64.ofInt resolution.resolvedTarget) with
    | none =>
        let result := { result with errors := encodeError instructions result.errors instr }
        fillNops pass1.sizes.text { state with result := result } instr sz
    | some bytes => appendInstruction pass1.sizes.text { state with result := result } instr sz bytes

/-- `pass2_relocation_section`. -/
def pass2RelocationSection : SymbolSection → RelocationSection
  | .readOnlyData => .readOnlyData
  | _ => .data

/-- The symbol operands of `.عدد٦٤` at offset `before`: their relocations and errors. -/
def resolveDataOperands (instructions : InstructionList) (symtable : SymbolTable)
    (instr : Instruction) (section_ : SymbolSection) (before : Nat) :
    Nat → List Operand → List Relocation × ErrorList → List Relocation × ErrorList
  | _, [], resolved => resolved
  | operandIndex, operand :: operands, (relocations, errors) =>
      resolveDataOperands instructions symtable instr section_ before (operandIndex + 1) operands
        (match operand.kind with
        | .label label =>
            if symbolKnown symtable label then
              (relocations ++
                [⟨pass2RelocationSection section_, .abs64, before + operandIndex * 8, label, 0⟩],
                errors)
            else
              (relocations,
                addOperandError errors instructions instr operand
                  (snprintf 256 (utf8 "رمز بيانات غير محلول: '" ++ label ++ utf8 "'")))
        | _ => (relocations, errors))

/-- `pass2_section_bytes`: the buffer of `.data` or `.rodata`. -/
def Pass2Result.sectionBytes (result : Pass2Result) : SymbolSection → List UInt8
  | .data => result.dataBytes
  | .readOnlyData => result.readOnlyDataBytes
  | .text | .bss => []

def Pass2Result.setSectionBytes (result : Pass2Result) (section_ : SymbolSection)
    (bytes : List UInt8) : Pass2Result :=
  match section_ with
  | .data => { result with dataBytes := bytes }
  | .readOnlyData => { result with readOnlyDataBytes := bytes }
  | .text | .bss => result

/-- `pass2_section_capacity`. -/
def pass2SectionCapacity (pass1 : Pass1Result) : SymbolSection → Nat
  | .data => pass1.sizes.data
  | .readOnlyData => pass1.sizes.readOnlyData
  | .text | .bss => 0

/-- A data directive in `.data` or `.rodata`, of the expected size. -/
def pass2DataBytes (instructions : InstructionList) (pass1 : Pass1Result) (state : Pass2State)
    (instr : Instruction) (expected : Int) : Pass2Flow :=
  let section_ := state.currentSection
  let buffer := state.result.sectionBytes section_
  let (relocations, errors) :=
    if instr.directiveKind = .int64 then
      resolveDataOperands instructions pass1.symtable instr section_ buffer.length 0 instr.ops
        (state.result.relocations, state.result.errors)
    else (state.result.relocations, state.result.errors)
  let result := { state.result with relocations := relocations, errors := errors }
  let (bytes, fits) := emitDataDirective instr (pass2SectionCapacity pass1 section_) buffer
  let result := result.setSectionBytes section_ bytes
  let state := { state with result := result }
  let actual := bytes.length - buffer.length
  if !fits then .error ⟨state.emit section_ buffer.length 0, .dataOverflow, instr⟩
  else if (actual : Int) ≠ expected then
    .error ⟨state.emit section_ buffer.length actual, .dataSize expected actual, instr⟩
  else .ok (state.emit section_ buffer.length actual)

/-- A directive that emits data, in any section but `.text`. -/
def pass2DataDirective (instructions : InstructionList) (pass1 : Pass1Result) (state : Pass2State)
    (instr : Instruction) : Pass2Flow :=
  let expected := dataDirectiveSizeAt instr (state.result.sizes.get state.currentSection)
  if state.currentSection = .text then .ok state.emitNothing
  else if expected < 0 then .error ⟨state.emitNothing, .dataSizeNegative, instr⟩
  else if state.currentSection = .bss then
    let emitted := state.emitNothing
    .ok
      { emitted with
        result := { emitted.result with bssSize := emitted.result.bssSize + expected.toNat } }
  else pass2DataBytes instructions pass1 state instr expected

/-- A section switch: the span lies in the new section. -/
def pass2Switch (state : Pass2State) (section_ : SymbolSection) : Pass2Flow :=
  .ok { state with currentSection := section_ }.emitNothing

/-- `.موضع`: the row of the instructions that follow. -/
def pass2DebugLocation (state : Pass2State) (instr : Instruction) : Pass2Flow :=
  match instr.ops with
  | [⟨.imm file, _, _, _⟩, ⟨.imm line, _, _, _⟩, ⟨.imm column, _, _, _⟩] =>
      .ok
        { state.emitNothing with
          debugFile := file.toUInt64.toUInt32
          debugLine := line.toUInt64.toUInt32
          debugColumn := column.toUInt64.toUInt32 }
  | _ => .ok state.emitNothing

/-- One turn of the loop of `pass2_run`. -/
def pass2Step (instructions : InstructionList) (pass1 : Pass1Result) (state : Pass2State)
    (instr : Instruction) : Pass2Flow :=
  match instr.directiveKind with
  | .none =>
      if instr.opcode = .invalid ∨ state.currentSection ≠ .text then .ok state.emitNothing
      else pass2Instruction instructions pass1 state instr
  | .text => pass2Switch state .text
  | .data => pass2Switch state .data
  | .readOnlyData => pass2Switch state .readOnlyData
  | .bss => pass2Switch state .bss
  | .global | .local | .external => .ok state.emitNothing
  | .debugFile | .debugFileBytes => .ok state.emitNothing
  | .debugLocation => pass2DebugLocation state instr
  | .int8 | .int16 | .int32 | .int64 | .alignment | .zeroSpace | .nulString | .invalid =>
      pass2DataDirective instructions pass1 state instr

/-- The loop of `pass2_run` over the first statements. -/
def pass2Walk (instructions : InstructionList) (pass1 : Pass1Result)
    (statements : List Instruction) : Pass2Flow :=
  Walk.run (pass2Step instructions pass1) statements .init

/-- The result after the walk, and the internal error that `pass2_run` reports
with it, if any. -/
def pass2Finish (pass1 : Pass1Result) (flow : Pass2Flow) :
    Pass2Result × Option (InternalError × Option Instruction) :=
  match flow with
  | .error stop => (stop.state.result, some (stop.error, some stop.instr))
  | .ok state =>
      if state.result.sizes ≠ pass1.sizes then
        (state.result, some (.totals state.result.sizes pass1.sizes, none))
      else (state.result, none)

/-- `pass2_run`. -/
def pass2Run (instructions : InstructionList) (pass1 : Pass1Result) : Pass2Result :=
  match pass2Finish pass1 (pass2Walk instructions pass1 instructions.data) with
  | (result, none) => result
  | (result, some (error, instr)) =>
      { result with errors := addInternalError result.errors instructions instr error.message }

end Nazm.Passes
