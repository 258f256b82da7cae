import Nazm.Diagnostics.Error
import Nazm.Parser.Instruction

/-!
What pass 1 says about a single directive.

Owns the sizes of data directives, the checks of data directives and of
`.ملف`, `.ملف_بايتات` and `.موضع`, and the errors of `src/passes/pass1.c` that
point at an operand.

Does not own the walk over the statements.
-/

namespace Nazm.Passes

open Nazm.Encoder Nazm.Parser Nazm.Unicode Nazm.Diagnostics

/-! ## Errors at an operand -/

/-- The span of an operand, or of the statement where there is no such operand. -/
def operandSpan (instr : Instruction) (operandIndex : Option Nat) : Nat × Nat × Nat :=
  match operandIndex.bind fun index => instr.ops[index]? with
  | some op => (op.line, op.col, op.endCol)
  | none => (instr.line, instr.col, instr.endCol)

/-- `add_directive_error`; `none` for the index `-1`. -/
def addDirectiveError (errors : ErrorList) (instructions : InstructionList) (instr : Instruction)
    (operandIndex : Option Nat) (message : List UInt8) : ErrorList :=
  let (line, col, endCol) := operandSpan instr operandIndex
  errorAddSpan errors (some (instructions.sourceName.getD (utf8 "unknown"))) line col endCol message

/-- `add_visibility_error`: the first operand, where there is one. -/
def addVisibilityError (errors : ErrorList) (instructions : InstructionList) (instr : Instruction)
    (message : List UInt8) : ErrorList :=
  addDirectiveError errors instructions instr (some 0) message

/-! ## Sizes -/

/-- The value of an integer cast to `int`. -/
def asInt (value : Int) : Int := value.bmod (2 ^ 32)

/-- One turn of the sum over the strings of `.سلسلة_منتهية_بصفر`. -/
def addStringSize (total : Int) (op : Operand) : Int :=
  match op.kind with
  | .string data => asInt (total + (asInt data.length + 1))
  | _ => total

/-- `data_directive_size`. -/
def dataDirectiveSize (instr : Instruction) : Int :=
  match instr.directiveKind with
  | .nulString => instr.ops.foldl addStringSize 0
  | .int8 => instr.ops.length * 1
  | .int16 => instr.ops.length * 2
  | .int32 => instr.ops.length * 4
  | .int64 => instr.ops.length * 8
  | .zeroSpace =>
      match instr.ops with
      | ⟨.imm value, _, _, _⟩ :: _ => asInt value.toInt
      | _ => 0
  | _ => 0

/-- The boundary of a well-formed `.محاذاة`. -/
def alignmentBoundary? (instr : Instruction) : Option Nat :=
  match instr.directiveKind, instr.ops with
  | .alignment, [⟨.imm value, _, _, _⟩] => if 0 < value.toInt then some value.toInt.toNat else none
  | _, _ => none

/-- The bytes up to the next multiple of the boundary. -/
def alignmentPadding (alignment sectionOffset : Nat) : Nat :=
  (alignment - sectionOffset % alignment) % alignment

/-- `data_directive_size_at`. -/
def dataDirectiveSizeAt (instr : Instruction) (sectionOffset : Nat) : Int :=
  match alignmentBoundary? instr with
  | some alignment => asInt (alignmentPadding alignment sectionOffset)
  | none => dataDirectiveSize instr

/-! ## Data directives -/

/-- `is_data_directive`. -/
def isDataDirective : DirectiveKind → Bool
  | .int8 | .int16 | .int32 | .int64 | .alignment | .zeroSpace | .nulString => true
  | _ => false

/-- `data_value_fits_width`. -/
def dataValueFitsWidth (value : Int64) (bits : Nat) : Bool :=
  if bits = 64 then true
  else if value.toInt < 0 then decide (-2 ^ (bits - 1) ≤ value.toInt)
  else decide (value.toInt ≤ 2 ^ bits - 1)

/-- A fault of a directive: the operand it points at and the message. -/
abbrev DirectiveFault := Option Nat × List UInt8

/-- The operand loop of `.سلسلة_منتهية_بصفر`. -/
def stringOperandsFault : Nat → List Operand → Option DirectiveFault
  | _, [] => none
  | index, op :: ops =>
      match op.kind with
      | .string _ => stringOperandsFault (index + 1) ops
      | _ => some (some index, utf8 "معامل '.سلسلة_منتهية_بصفر' يجب أن يكون سلسلة نصية")

/-- The operand loop of the integer directives. -/
def integerOperandsFault (bits : Nat) : Nat → List Operand → Option DirectiveFault
  | _, [] => none
  | index, op :: ops =>
      let kindFault :=
        if bits = 64 then utf8 "معامل '.عدد٦٤' يجب أن يكون قيمة فورية أو اسم رمز عربي"
        else utf8 "معامل توجيه العدد يجب أن يكون قيمة فورية"
      match op.kind with
      | .label _ =>
          if bits = 64 then integerOperandsFault bits (index + 1) ops
          else some (some index, kindFault)
      | .imm value =>
          if dataValueFitsWidth value bits then integerOperandsFault bits (index + 1) ops
          else
            some (some index,
              snprintf 192 (utf8 "القيمة لا يمكن تمثيلها في توجيه بيانات بعرض " ++ decimal bits ++
                utf8 " بت"))
      | _ => some (some index, kindFault)

def directiveBits : DirectiveKind → Nat
  | .int8 => 8
  | .int16 => 16
  | .int32 => 32
  | .int64 => 64
  | _ => 0

/-- What `validate_data_directive` reports. -/
def dataDirectiveFault (instr : Instruction) : Option DirectiveFault :=
  match instr.directiveKind with
  | .nulString =>
      if instr.ops = [] then
        some (none, utf8 "التوجيه '.سلسلة_منتهية_بصفر' يتطلب سلسلة نصية واحدة على الأقل")
      else stringOperandsFault 0 instr.ops
  | .zeroSpace =>
      match instr.ops with
      | [⟨.imm value, _, _, _⟩] =>
          if value.toInt < 0 ∨ 2147483647 < value.toInt then
            some (some 0, utf8 "حجم '.مساحة_صفرية' يجب أن يكون بين 0 وINT_MAX")
          else none
      | _ => some (none, utf8 "التوجيه '.مساحة_صفرية' يتطلب عددا واحدا")
  | .alignment =>
      match instr.ops with
      | [⟨.imm value, _, _, _⟩] =>
          if value.toInt < 1 ∨ 4096 < value.toInt ∨
              value.toInt.toNat &&& (value.toInt.toNat - 1) ≠ 0 then
            some (some 0, utf8 "قيمة '.محاذاة' يجب أن تكون قوة للعدد 2 بين 1 و4096")
          else none
      | _ => some (none, utf8 "التوجيه '.محاذاة' يتطلب عددا واحدا")
  | directive =>
      if instr.ops = [] then some (none, utf8 "توجيه العدد يتطلب قيمة واحدة على الأقل")
      else integerOperandsFault (directiveBits directive) 0 instr.ops

/-! ## Debug directives -/

structure DebugFile where
  id : Nat
  path : List UInt8
deriving DecidableEq

/-- `debug_file_find`. -/
def debugFileFind (files : List DebugFile) (id : Nat) : Option DebugFile :=
  files.find? fun file => file.id = id

/-- The inner loop of `decode_debug_path_bytes`: the digits of one item, with
the bytes after it, its value, its digit count and whether it ended in a comma
at the end of the text. -/
def debugPathItem : Nat → List UInt8 → Nat → Nat → Bool → Option (List UInt8 × Nat × Nat × Bool)
  | 0, encoded, value, digits, ended => some (encoded, value, digits, ended)
  | fuel + 1, encoded, value, digits, ended =>
      if encoded.isEmpty then some (encoded, value, digits, ended)
      else
        let (cp, next) := utf8NextCodepoint encoded
        if cp = 0x060C then some (next, value, digits, next.isEmpty)
        else if !nazmIsArabicDigit cp || decide (3 ≤ digits) then none
        else
          debugPathItem fuel next (value * 10 + (arabicDigitValue cp).getD 0) (digits + 1) false

/-- The outer loop of `decode_debug_path_bytes`. -/
def debugPathItems : Nat → List UInt8 → List UInt8 → Bool → Except (List UInt8) (List UInt8 × Bool)
  | 0, _, decoded, ended => .ok (decoded, ended)
  | fuel + 1, encoded, decoded, ended =>
      if encoded.isEmpty then .ok (decoded, ended)
      else
        match debugPathItem encoded.length encoded 0 0 ended with
        | none => .error (utf8 "'.ملف_بايتات' يقبل أرقاما عربية مفصولة بفاصلة عربية")
        | some (next, value, digits, ended) =>
            if digits = 0 ∨ 255 < value ∨ value = 0 then
              .error (utf8 "كل عنصر في '.ملف_بايتات' يجب أن يمثل بايت UTF-8 بين 1 و255")
            else debugPathItems fuel next (decoded ++ [UInt8.ofNat value]) ended

/-- The check of the decoded path: U+FFFD only where it is written out. -/
def debugPathWellFormed : Nat → List UInt8 → Bool
  | 0, _ => true
  | fuel + 1, decoded =>
      if decoded.isEmpty then true
      else
        let (cp, next) := utf8NextCodepoint decoded
        let written :=
          decide (decoded.length - next.length = 3) && decide (decoded.take 3 = [0xEF, 0xBF, 0xBD])
        if cp = 0xFFFD ∧ !written then false else debugPathWellFormed fuel next

/-- `decode_debug_path_bytes`. -/
def decodeDebugPathBytes (encoded : List UInt8) : Except (List UInt8) (List UInt8) :=
  match debugPathItems encoded.length encoded [] false with
  | .error message => .error message
  | .ok (decoded, ended) =>
      if decoded.length = 0 ∨ ended then
        .error (utf8 "مسار '.ملف_بايتات' لا يجوز أن يكون فارغا")
      else if debugPathWellFormed decoded.length decoded then .ok decoded
      else .error (utf8 "بايتات '.ملف_بايتات' لا تكون مسار UTF-8 صالحا")

/-- `validate_debug_file_directive`: the file it declares, or its fault. -/
def debugFileDirective (files : List DebugFile) (instr : Instruction) :
    Except DirectiveFault DebugFile :=
  match instr.ops with
  | [⟨.imm id, _, _, _⟩, ⟨.string encoded, _, _, _⟩] =>
      if id.toInt ≤ 0 ∨ 4294967295 < id.toInt then
        .error (some 0, utf8 "معرف '.ملف' يجب أن يكون بين 1 و4294967295")
      else if encoded.length = 0 ∨ (cString encoded).length ≠ encoded.length then
        .error (some 1, utf8 "مسار '.ملف' لا يجوز أن يكون فارغا أو يحتوي صفرا داخليا")
      else
        match if instr.directiveKind = .debugFileBytes then decodeDebugPathBytes encoded
          else .ok encoded with
        | .error message => .error (some 1, message)
        | .ok path =>
            if (debugFileFind files id.toInt.toNat).isSome then
              .error (some 0, utf8 "معرف '.ملف' مكرر")
            else .ok ⟨id.toInt.toNat, path⟩
  | _ => .error (none, utf8 "التوجيه '.ملف' يتطلب معرفا موجبا ومسار UTF-8 نصيا")

/-- What `validate_debug_location_directive` reports. -/
def debugLocationFault (instr : Instruction) : Option DirectiveFault :=
  match instr.ops with
  | [⟨.imm file, _, _, _⟩, ⟨.imm line, _, _, _⟩, ⟨.imm column, _, _, _⟩] =>
      if file.toInt = 0 ∧ line.toInt = 0 ∧ column.toInt = 0 then none
      else if file.toInt ≤ 0 ∨ 4294967295 < file.toInt ∨ line.toInt ≤ 0 ∨
          0x00ffffff < line.toInt ∨ column.toInt ≤ 0 ∨ 65535 < column.toInt then
        some (none, utf8 "قيم '.موضع' يجب أن تكون موجبة وقابلة للتمثيل في دورف وكودفيو")
      else none
  | _ => some (none, utf8 "التوجيه '.موضع' يتطلب معرف ملف ورقم سطر ورقم عمود")

/-- The file id that a `.موضع` names, where `validate_debug_location_files`
looks it up. -/
def debugLocationFile? (instr : Instruction) : Option Nat :=
  match instr.directiveKind, instr.ops with
  | .debugLocation, [⟨.imm file, _, _, _⟩, _, _] =>
      if file.toInt ≤ 0 ∨ 4294967295 < file.toInt then none else some file.toInt.toNat
  | _, _ => none

/-- `validate_debug_location_files`. -/
def validateDebugLocationFiles (instructions : InstructionList) (files : List DebugFile)
    (errors : ErrorList) : ErrorList :=
  instructions.data.foldl
    (fun errors instr =>
      match debugLocationFile? instr with
      | none => errors
      | some id =>
          if (debugFileFind files id).isSome then errors
          else
            addDirectiveError errors instructions instr (some 0)
              (utf8 "معرف الملف في '.موضع' غير معلن بتوجيه '.ملف'"))
    errors

end Nazm.Passes
