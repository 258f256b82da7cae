import Nazm.Lexer.Lexer
import Nazm.Parser.Instruction

/-!
The parser.

Owns `src/parser/parser.c`: operands, directive and instruction lines, and
recovery at the end of a line. The cursor is the list of the tokens from `pos`
on; `advance` never drops the final end-of-file token.

Does not own the growth of the instruction list.
-/

namespace Nazm.Parser

open Nazm.Encoder Nazm.Unicode Nazm.Diagnostics Nazm.Lexer

set_option linter.dupNamespace false in
/-- `Parser`: `tokens` is `tokens->data` from `pos` on. -/
structure Parser where
  tokens : List Token
  errors : ErrorList
  out : List Instruction
  srcName : List UInt8
deriving DecidableEq

def pushInstr (p : Parser) (instr : Instruction) : Parser := { p with out := p.out ++ [instr] }

/-! ## Token cursor -/

/-- `cur`. The list ends in an end-of-file token, so the default is never read. -/
def cur (p : Parser) : Token := p.tokens.headD ⟨.eof, [], 0, 0, 0⟩

def curType (p : Parser) : TokenType := (cur p).type

/-- `advance`, for its effect; the token it returns is `cur`. -/
def advance (p : Parser) : Parser :=
  if (cur p).type = .eof then p else { p with tokens := p.tokens.tail }

def isNewline (token : Token) : Bool := decide (token.type = .newline)

def isLineEnd (token : Token) : Bool := decide (token.type = .newline) || decide (token.type = .eof)

/-- `skip_newlines`. -/
def skipNewlines (p : Parser) : Parser := { p with tokens := p.tokens.dropWhile isNewline }

/-- `sync_to_newline`. -/
def syncToNewline (p : Parser) : Parser :=
  { p with tokens := p.tokens.dropWhile fun token => !isLineEnd token }

/-- `if (cur_type(p) == TOKEN_NEWLINE) advance(p)`. -/
def skipNewline (p : Parser) : Parser := if curType p = .newline then advance p else p

/-! ## Errors -/

def tokenError (p : Parser) (t : Token) (msg : List UInt8) : Parser :=
  { p with errors := errorAddSpan p.errors (some p.srcName) t.line t.col t.endCol msg }

def parseError (p : Parser) (msg : List UInt8) : Parser := tokenError p (cur p) msg

def replacementError (p : Parser) (token : Token) (category replacement : List UInt8) : Parser :=
  tokenError p token (snprintf 256
    (category ++ utf8 " '" ++ cString token.value ++ utf8 "' أزيل في نَظْم 0.4؛ استخدم '" ++
      replacement ++ utf8 "'"))

/-! ## Directive names -/

/-- `DIRECTIVE_TABLE`. -/
def directiveTable : List (String × DirectiveKind) :=
  [ (".نص", .text), (".بيانات", .data), (".بيانات_للقراءة", .readOnlyData), (".غير_مهيأة", .bss),
    (".عدد٨", .int8), (".عدد١٦", .int16), (".عدد٣٢", .int32), (".عدد٦٤", .int64),
    (".محاذاة", .alignment), (".مساحة_صفرية", .zeroSpace), (".سلسلة_منتهية_بصفر", .nulString),
    (".عام", .global), (".محلي", .local), (".خارجي", .external), (".ملف", .debugFile),
    (".ملف_بايتات", .debugFileBytes), (".موضع", .debugLocation) ]

/-- `LEGACY_DIRECTIVES`. -/
def legacyDirectives : List (String × String) :=
  [ (".بايت", ".عدد٨"), (".مساحة", ".مساحة_صفرية"), (".سلسلة", ".سلسلة_منتهية_بصفر") ]

def directiveLookup (text : List UInt8) : DirectiveKind :=
  (tableLookup directiveTable text).getD .invalid

def directiveLegacyReplacement (text : List UInt8) : Option (List UInt8) :=
  (tableLookup legacyDirectives text).map utf8

/-! ## Operands -/

/-- `expect_comma`. -/
def expectComma (p : Parser) : Parser × Bool :=
  if curType p = .comma then (advance p, true)
  else
    let t := cur p
    (tokenError p t (snprintf 160
      (utf8 "توقعت فاصلة عربية '،' بين المعاملات، لكنني وجدت: " ++ tokenTypeName t.type)), false)

/-- The value of the digits at the front of a text. -/
def digitsValue (text : List UInt8) : Nat :=
  (text.takeWhile fun byte => isAsciiDigit byte.toNat).foldl
    (fun value byte => 10 * value + (byte.toNat - 0x30)) 0

/-- `strtoll(text, NULL, 10)` of an immediate's text: a minus or nothing, then
digits; out of range it yields the nearest bound. -/
def strtoll (text : List UInt8) : Int64 :=
  let value : Int :=
    match text with
    | 0x2D :: digits => -(digitsValue digits : Int)
    | digits => digitsValue digits
  Int64.ofInt (max (-2 ^ 63) (min (2 ^ 63 - 1) value))

/-- An error at a token, then recovery: the failing return of an operand. -/
def failOperand (p : Parser) (t : Token) (msg : List UInt8) : Parser × Option Operand :=
  (syncToNewline (tokenError p t msg), none)

/-- `]` and the end of a memory operand. -/
def closeMemory (p : Parser) (kind : OperandKind) (openTok : Token) (unclosed : List UInt8) :
    Parser × Option Operand :=
  if curType p ≠ .rbracket then failOperand p (cur p) unclosed
  else (advance p, some ⟨kind, openTok.line, openTok.col, (cur p).endCol⟩)

/-- The symbol of `[مؤشر_التعليمة+رمز]`, after the instruction pointer. -/
def parseRipOperand (p : Parser) (openTok : Token) : Parser × Option Operand :=
  if curType p ≠ .plus then
    failOperand p (cur p) (utf8 "توقعت '+' بعد 'مؤشر_التعليمة' داخل عنوان الذاكرة النسبي")
  else
    let p := advance p
    if curType p ≠ .labelRef ∧ curType p ≠ .mnemonic then
      failOperand p (cur p)
        (utf8 "توقعت اسم رمز عربي بعد 'مؤشر_التعليمة+' داخل عنوان الذاكرة النسبي")
    else
      let label := (cur p).value
      closeMemory (advance p) (.memRipLabel label) openTok
        (utf8 "توقعت ']' لإغلاق عنوان الذاكرة النسبي")

def unclosedMemory : List UInt8 := utf8 "توقعت ']' لإغلاق عنوان الذاكرة"

/-- `set_memory_displacement` and the closing bracket. -/
def closeDisplacement (p : Parser) (base : RegId) (displacement : Int) (token openTok : Token) :
    Parser × Option Operand :=
  if displacement < -2147483648 ∨ 2147483647 < displacement then
    failOperand p token (utf8 "إزاحة الذاكرة خارج مجال 32 بت الموقع")
  else closeMemory p (.memDisp base (Int32.ofInt displacement)) openTok unclosedMemory

/-- The rest of `parse_mem_operand`, after the base register. -/
def parseBaseOperand (p : Parser) (openTok : Token) (base : RegId) : Parser × Option Operand :=
  if curType p = .plus ∨ curType p = .minus then
    let negative := decide (curType p = .minus)
    let p := advance p
    if curType p ≠ .immediate then
      failOperand p (cur p) (utf8 "توقعت رقماً بعد علامة الإزاحة داخل عنوان الذاكرة")
    else
      let immTok := cur p
      let disp := (strtoll immTok.value).toInt
      let disp := if negative then (if disp = -2 ^ 63 then 2 ^ 63 - 1 else -disp) else disp
      closeDisplacement (advance p) base disp immTok openTok
  else if curType p = .immediate then
    let immTok := cur p
    closeDisplacement (advance p) base (strtoll immTok.value).toInt immTok openTok
  else closeMemory p (.memReg base) openTok unclosedMemory

def unknownRegister (token : Token) : List UInt8 :=
  snprintf 160 (utf8 "سجل غير معروف: " ++ cString token.value)

/-- `parse_mem_operand`, after the opening bracket. -/
def parseMemOperand [Vocabulary] (p : Parser) (openTok : Token) : Parser × Option Operand :=
  let token := cur p
  if token.type = .labelRef ∧ token.value = utf8 "مؤشر_التعليمة" then
    parseRipOperand (advance p) openTok
  else if token.type ≠ .register then
    match if token.type = .labelRef then lexerRegisterLegacyReplacement token.value else none with
    | some replacement =>
        (syncToNewline (replacementError p token (utf8 "اسم السجل") replacement), none)
    | none =>
        failOperand p token
          (utf8 "توقعت اسم سجل أو 'مؤشر_التعليمة+رمز' داخل عنوان الذاكرة '[...]'")
  else
    let p := advance p
    match lexerRegisterId token.value with
    | none => failOperand p token (unknownRegister token)
    | some base =>
        if regWidthBits base ≠ 64 then
          failOperand p token (utf8 "قاعدة عنوان الذاكرة يجب أن تكون سجلا بعرض ٦٤ بت")
        else parseBaseOperand p openTok base

/-- `parse_operand`; `none` for `false`. -/
def parseOperand [Vocabulary] (p : Parser) : Parser × Option Operand :=
  let t := cur p
  let operand := fun kind : OperandKind => some (Operand.mk kind t.line t.col t.endCol)
  match t.type with
  | .register =>
      match lexerRegisterId t.value with
      | some reg => (advance p, operand (.reg reg))
      | none => (tokenError (advance p) t (unknownRegister t), none)
  | .immediate => (advance p, operand (.imm (strtoll t.value)))
  | .lbracket => parseMemOperand (advance p) t
  | .labelRef =>
      match lexerRegisterLegacyReplacement t.value with
      | some replacement =>
          (advance (replacementError p t (utf8 "اسم السجل") replacement), none)
      | none => (advance p, operand (.label t.value))
  | .mnemonic => (advance p, operand (.label t.value))
  | .string => (advance p, operand (.string t.value))
  | _ =>
      (tokenError p t (snprintf 160
        (utf8 "توقعت معاملاً: سجل، رقم، ذاكرة، سلسلة، أو وسم؛ لكنني وجدت: " ++
          tokenTypeName t.type)), none)

def tooManyOperands : List UInt8 := utf8 "عدد معاملات أكثر من المسموح؛ الحد الأقصى 3"

/-- The operand loop of a directive line: commas are optional. -/
def directiveOperands [Vocabulary] : Nat → Parser → List Operand → Parser × List Operand
  | 0, p, ops => (p, ops)
  | fuel + 1, p, ops =>
      if isLineEnd (cur p) then (p, ops)
      else if curType p = .comma then directiveOperands fuel (advance p) ops
      else if maxOperands ≤ ops.length then (syncToNewline (parseError p tooManyOperands), ops)
      else
        match parseOperand p with
        | (p, none) => (syncToNewline p, ops)
        | (p, some op) => directiveOperands fuel p (ops ++ [op])

/-- The operand loop of an instruction line, with its `syntax_ok`. -/
def instructionOperands [Vocabulary] : Nat → Parser → List Operand → Parser × List Operand × Bool
  | 0, p, ops => (p, ops, true)
  | fuel + 1, p, ops =>
      if isLineEnd (cur p) then (p, ops, true)
      else
        let (p, comma) := if 0 < ops.length then expectComma p else (p, true)
        if !comma then (syncToNewline p, ops, false)
        else if maxOperands ≤ ops.length then
          (syncToNewline (parseError p tooManyOperands), ops, false)
        else
          match parseOperand p with
          | (p, none) => (syncToNewline p, ops, false)
          | (p, some op) => instructionOperands fuel p (ops ++ [op])

/-! ## Lines -/

def emptyInstruction (t : Token) : Instruction where
  opcode := .invalid
  ops := []
  label := none
  directive := none
  directiveKind := .none
  line := t.line
  col := t.col
  endCol := t.endCol
  labelLine := 0
  labelCol := 0
  labelEndCol := 0

def setInstructionSpan (instr : Instruction) (t : Token) : Instruction :=
  { instr with line := t.line, col := t.col, endCol := t.endCol }

def spanError (p : Parser) (instr : Instruction) (msg : List UInt8) : Parser :=
  { p with
    errors := errorAddSpan p.errors (some p.srcName) instr.line instr.col instr.endCol msg }

/-- `check_arity`. -/
def checkArity (p : Parser) (instr : Instruction) (minOps maxOps : Nat) : Parser :=
  if instr.ops.length < minOps then
    spanError p instr (snprintf 160
      (utf8 "التعليمة تحتاج " ++ decimal minOps ++ utf8 " معاملات على الأقل، لكن الموجود " ++
        decimal instr.ops.length))
  else if maxOps < instr.ops.length then
    spanError p instr (snprintf 160
      (utf8 "التعليمة تقبل " ++ decimal maxOps ++ utf8 " معاملات كحد أقصى، لكن الموجود " ++
        decimal instr.ops.length))
  else p

/-- Recovery at the end of the line, without a statement. -/
def dropLine (p : Parser) : Parser := skipNewline (syncToNewline p)

/-- A directive line, after its label. -/
def parseDirectiveLine [Vocabulary] (p : Parser) (instr : Instruction) : Parser :=
  let t := cur p
  let instr := { instr with directive := some t.value, directiveKind := directiveLookup t.value }
  match directiveLegacyReplacement t.value with
  | some replacement => dropLine (replacementError p t (utf8 "التوجيه") replacement)
  | none =>
      let (p, ops) := directiveOperands p.tokens.length (advance p) []
      pushInstr (skipNewline p) { instr with ops := ops }

/-- An instruction line, after its label. -/
def parseInstructionLine [Vocabulary] (p : Parser) (instr : Instruction) : Parser :=
  let t := cur p
  let opcode := keywordsLookup t.value
  if opcode = .invalid then
    dropLine (tokenError p t
      (snprintf 160 (utf8 "تعليمة غير معروفة: '" ++ cString t.value ++ utf8 "'")))
  else
    let (minOps, maxOps) := getArity opcode
    let (p, ops, syntaxOk) := instructionOperands p.tokens.length (advance p) []
    let instr := { instr with opcode := opcode, ops := ops }
    let p := if syntaxOk then checkArity p instr minOps maxOps else p
    pushInstr (skipNewline p) instr

/-- A line that starts, after its label, with neither directive nor mnemonic. -/
def parseOtherLine (p : Parser) : Parser :=
  let t := cur p
  match keywordsLegacyReplacement t.value with
  | some replacement => dropLine (replacementError p t (utf8 "اسم التعليمة") replacement)
  | none =>
      dropLine (tokenError p t (snprintf 180
        (utf8 "توقعت تعليمة أو توجيهاً، لكنني وجدت '" ++ cString t.value ++ utf8 "' (" ++
          tokenTypeName t.type ++ utf8 ")")))

/-- The statement of a line, after its label. -/
def parseStatement [Vocabulary] (p : Parser) (instr : Instruction) : Parser :=
  match curType p with
  | .directive => parseDirectiveLine p instr
  | .mnemonic => parseInstructionLine p instr
  | _ => parseOtherLine p

/-- `parse_line`. -/
def parseLine [Vocabulary] (p : Parser) : Parser :=
  let t := cur p
  if t.type = .eof then p
  else if t.type = .newline then advance p
  else
    let instr := emptyInstruction t
    if t.type = .labelDef then
      let instr :=
        { instr with
          label := some t.value, labelLine := t.line, labelCol := t.col, labelEndCol := t.endCol }
      let p := advance p
      if isLineEnd (cur p) then pushInstr (skipNewline p) instr
      else parseStatement p (setInstructionSpan instr (cur p))
    else parseStatement p instr

/-- `while (cur_type(&p) != TOKEN_EOF) { parse_line; skip_newlines }`; the fuel
is the number of tokens. -/
def parseLoop [Vocabulary] : Nat → Parser → Parser
  | 0, p => p
  | fuel + 1, p =>
      if curType p = .eof then p else parseLoop fuel (skipNewlines (parseLine p))

/-- `ParseResult`. -/
structure ParseResult where
  instructions : InstructionList
  errors : ErrorList
deriving DecidableEq

/-- `parser_parse`. -/
def parserParse [Vocabulary] (tokens : TokenArray) : ParseResult :=
  let p := skipNewlines ⟨tokens.data, .empty, [], tokens.sourceName.getD (utf8 "unknown")⟩
  let p := parseLoop tokens.data.length p
  ⟨⟨p.out, tokens.sourceName⟩, p.errors⟩

end Nazm.Parser
