import Nazm.Diagnostics.Error
import Nazm.Lexer.Keywords

/-!
The tokenizer.

Owns `src/lexer/lexer.c`: tokens, number, string, directive and identifier
scanning, and the main loop with its diagnostics. The cursor is the list of the
bytes not yet read, with its line and column. Each loop of the source has the
number of unread bytes as fuel and reads at least one byte in every turn.

Does not own the growth of the token array.
-/

namespace Nazm.Lexer

open Nazm.Encoder Nazm.Unicode Nazm.Diagnostics

/-! ## Tokens -/

/-- `TokenType`, less `TOKEN_ERROR`, which nothing produces. -/
inductive TokenType where
  | mnemonic | register | immediate | labelDef | labelRef | string | directive
  | lbracket | rbracket | plus | minus | comma | colon | newline | eof
deriving DecidableEq, Repr

/-- `Token`; `len` is the length of `value`. -/
structure Token where
  type : TokenType
  value : List UInt8
  line : Nat
  col : Nat
  endCol : Nat
deriving DecidableEq

/-- `TokenArray`, less the borrowed source text. -/
structure TokenArray where
  data : List Token
  sourceName : Option (List UInt8)
deriving DecidableEq

/-- `SourceBuffer`. -/
structure SourceBuffer where
  data : List UInt8
  name : Option (List UInt8)
deriving DecidableEq

/-- `token_type_name`. -/
def tokenTypeName : TokenType → List UInt8
  | .mnemonic => utf8 "اسم تعليمة"
  | .register => utf8 "سجل"
  | .immediate => utf8 "قيمة فورية"
  | .labelDef => utf8 "تعريف وسم"
  | .labelRef => utf8 "مرجع وسم"
  | .string => utf8 "قيمة حرفية نصية"
  | .directive => utf8 "توجيه"
  | .lbracket => utf8 "قوس فتح"
  | .rbracket => utf8 "قوس إغلاق"
  | .plus => utf8 "علامة جمع"
  | .minus => utf8 "علامة طرح"
  | .comma => utf8 "فاصلة"
  | .colon => utf8 "نقطتان"
  | .newline => utf8 "نهاية سطر"
  | .eof => utf8 "نهاية ملف"

/-! ## Lexer state -/

set_option linter.dupNamespace false in
/-- `Lexer`: `rest` is `src->data` from `pos` on. -/
structure Lexer where
  rest : List UInt8
  line : Nat
  col : Nat
  out : List Token
  errors : ErrorList
  name : Option (List UInt8)
deriving DecidableEq

def pushTokenValue (lx : Lexer) (type : TokenType) (value : List UInt8) (line col endCol : Nat) :
    Lexer :=
  { lx with out := lx.out ++ [⟨type, value, line, col, endCol⟩] }

/-- `push_immediate_token`: the value is kept as its decimal text. -/
def pushImmediateToken (lx : Lexer) (value : Int) (line col endCol : Nat) : Lexer :=
  pushTokenValue lx .immediate (decimalInt value) line col endCol

def atEnd (lx : Lexer) : Bool := lx.rest.isEmpty

def peekCp (lx : Lexer) : Nat := utf8PeekCodepoint lx.rest

/-- `advance_cp`, for its effect. -/
def skipCp (lx : Lexer) : Lexer :=
  let (cp, rest) := utf8NextCodepoint lx.rest
  if cp = 0x0A then { lx with rest := rest, line := lx.line + 1, col := 1 }
  else { lx with rest := rest, col := lx.col + 1 }

def lexErrorAt (lx : Lexer) (line col endCol : Nat) (msg : List UInt8) : Lexer :=
  { lx with errors := errorAddSpan lx.errors lx.name line col endCol msg }

def lexError (lx : Lexer) (msg : List UInt8) : Lexer :=
  lexErrorAt lx lx.line lx.col (lx.col + 1) msg

def isNumberStart (cp : Nat) : Bool := isAsciiDigit cp || nazmIsArabicDigit cp

def lastTokenIsNewline (lx : Lexer) : Bool :=
  match lx.out.getLast? with
  | some token => decide (token.type = .newline)
  | none => false

/-- `while (!at_end && continues(peek)) skip`. -/
def skipWhile (continues : Nat → Bool) : Nat → Lexer → Lexer
  | 0, lx => lx
  | fuel + 1, lx =>
      if atEnd lx then lx
      else if continues (peekCp lx) then skipWhile continues fuel (skipCp lx)
      else lx

/-- The bytes between two cursors of one source. -/
def consumed (before after : Lexer) : List UInt8 :=
  before.rest.take (before.rest.length - after.rest.length)

/-! ## Numbers -/

/-- `hex_digit_value`; `none` for `-1`. -/
def hexDigitValue (cp : Nat) : Option Nat :=
  if isAsciiDigit cp then some (cp - 0x30)
  else if 0x61 ≤ cp ∧ cp ≤ 0x66 then some (cp - 0x61 + 10)
  else if 0x41 ≤ cp ∧ cp ≤ 0x46 then some (cp - 0x41 + 10)
  else none

def binaryDigitValue (cp : Nat) : Option Nat :=
  if cp = 0x30 ∨ cp = 0x31 then some (cp - 0x30) else none

def decimalDigitValue (cp : Nat) : Option Nat :=
  if isAsciiDigit cp then some (cp - 0x30)
  else if nazmIsArabicDigit cp then arabicDigitValue cp
  else none

/-- `append_digit`; `none` when the value no longer fits in 64 bits. -/
def appendDigit (val base digit : Nat) : Option Nat :=
  if (2 ^ 64 - 1 - digit) / base < val then none else some (val * base + digit)

/-- A magnitude with the outcome flags of `parse_number`. -/
structure Number where
  val : Nat
  ok : Bool
  fits : Bool
deriving DecidableEq

/-- The digit loop shared by the three bases. -/
def digitLoop (digitValue : Nat → Option Nat) (base : Nat) :
    Nat → Lexer → Nat → Bool → Bool → Lexer × Nat × Bool × Bool
  | 0, lx, val, fits, got => (lx, val, fits, got)
  | fuel + 1, lx, val, fits, got =>
      if atEnd lx then (lx, val, fits, got)
      else
        match digitValue (peekCp lx) with
        | none => (lx, val, fits, got)
        | some digit =>
            match appendDigit val base digit with
            | some val => digitLoop digitValue base fuel (skipCp lx) val fits true
            | none => digitLoop digitValue base fuel (skipCp lx) val false true

/-- The shared body of `parse_hex_number`, `parse_binary_number` and
`parse_decimal_number`. -/
def parseDigits (digitValue : Nat → Option Nat) (base : Nat) (malformed : List UInt8) (lx : Lexer)
    (alreadyGotDigit : Bool) : Lexer × Number :=
  let (lx, val, fits, got) := digitLoop digitValue base lx.rest.length lx 0 true alreadyGotDigit
  if got then (lx, ⟨val, true, fits⟩) else (lexError lx malformed, ⟨val, false, fits⟩)

def parseHexNumber (lx : Lexer) : Lexer × Number :=
  parseDigits hexDigitValue 16 (utf8 "رقم ست عشري غير صحيح") lx false

def parseBinaryNumber (lx : Lexer) : Lexer × Number :=
  parseDigits binaryDigitValue 2 (utf8 "رقم ثنائي غير صحيح") lx false

def parseDecimalNumber (lx : Lexer) (alreadyGotDigit : Bool) : Lexer × Number :=
  parseDigits decimalDigitValue 10 (utf8 "رقم غير صحيح") lx alreadyGotDigit

/-- `parse_number`: decimal, `0x` hexadecimal or `0b` binary. -/
def parseNumber (lx : Lexer) : Lexer × Number :=
  if peekCp lx ≠ 0x30 then parseDecimalNumber lx false
  else
    let lx := skipCp lx
    let next := peekCp lx
    if next = 0x78 ∨ next = 0x58 then parseHexNumber (skipCp lx)
    else if next = 0x62 ∨ next = 0x42 then parseBinaryNumber (skipCp lx)
    else parseDecimalNumber lx true

/-- `as_signed_bits`: the 64-bit pattern as a signed value. -/
def asSignedBits (bits : Nat) : Int :=
  if bits ≤ 2 ^ 63 - 1 then bits else -((2 ^ 64 - 1 - bits : Nat) : Int) - 1

def lexNumberTooLarge (lx : Lexer) (line col : Nat) : Lexer :=
  lexErrorAt lx line col lx.col (utf8 "الرقم لا يمثل في ٦٤ بت")

def lexNumber (lx : Lexer) (line col : Nat) : Lexer :=
  let (lx, number) := parseNumber lx
  if !number.fits then lexNumberTooLarge lx line col
  else if number.ok then pushImmediateToken lx (asSignedBits number.val) line col lx.col
  else lx

/-- `lex_minus_or_negative_number`. A lone minus is skipped twice, the second
time from the saved position, so its column counts twice. -/
def lexMinusOrNegativeNumber (lx : Lexer) (line col : Nat) : Lexer :=
  let after := skipCp lx
  if isNumberStart (peekCp after) then
    let (after, number) := parseNumber after
    if !number.fits || decide (2 ^ 63 < number.val) then lexNumberTooLarge after line col
    else if number.ok then
      -- the bits of `0 - val` in 64 bits
      pushImmediateToken after (asSignedBits ((2 ^ 64 - number.val) % 2 ^ 64)) line col after.col
    else after
  else
    pushTokenValue (skipCp { after with rest := lx.rest }) .minus [0x2D] line col (col + 1)

/-! ## Ill-formed bytes, comments and newlines -/

def atIllFormedUtf8 (lx : Lexer) : Bool := !utf8IsWellFormedAt lx.rest

def skipIllFormed : Nat → Lexer → Lexer
  | 0, lx => lx
  | fuel + 1, lx => if atIllFormedUtf8 lx then skipIllFormed fuel (skipCp lx) else lx

/-- `lex_ill_formed_utf8`: one error for a run of ill-formed bytes. -/
def lexIllFormedUtf8 (lx : Lexer) : Lexer :=
  let after := skipIllFormed lx.rest.length lx
  lexErrorAt after lx.line lx.col after.col (utf8 "ترميز UTF-8 غير صالح")

def lexCommentLoop : Nat → Lexer → Lexer
  | 0, lx => lx
  | fuel + 1, lx =>
      if atEnd lx || decide (peekCp lx = 0x0A) then lx
      else if atIllFormedUtf8 lx then lexCommentLoop fuel (lexIllFormedUtf8 lx)
      else lexCommentLoop fuel (skipCp lx)

def lexComment (lx : Lexer) : Lexer := lexCommentLoop lx.rest.length lx

/-- `lex_newline`: a run of newlines is one token. -/
def lexNewline (lx : Lexer) (line col : Nat) : Lexer :=
  let lx := skipCp lx
  if lastTokenIsNewline lx then lx else pushTokenValue lx .newline [0x0A] line col (col + 1)

/-! ## Strings -/

/-- The byte an escape stands for. -/
def escapeByte (esc : Nat) : Option UInt8 :=
  if esc = 0x6E then some 0x0A
  else if esc = 0x74 then some 0x09
  else if esc = 0x72 then some 0x0D
  else if esc = 0x30 then some 0x00
  else if esc = 0x22 then some 0x22
  else if esc = 0x5C then some 0x5C
  else none

def unclosedString : List UInt8 := utf8 "سلسلة نصية غير مغلقة"

/-- The loop of `lex_string`, after the opening quote. -/
def lexStringLoop (line col : Nat) : Nat → Lexer → List UInt8 → Bool → Lexer
  | 0, lx, _, _ => lx
  | fuel + 1, lx, buf, ok =>
      if atEnd lx then lexErrorAt lx line col lx.col unclosedString
      else if atIllFormedUtf8 lx then lexStringLoop line col fuel (lexIllFormedUtf8 lx) buf false
      else
        let cp := peekCp lx
        if cp = 0x22 then
          let lx := skipCp lx
          if ok then pushTokenValue lx .string buf line col lx.col else lx
        else if cp = 0x0A ∨ cp = 0x0D then lexErrorAt lx line col lx.col unclosedString
        else if cp = 0x5C then
          let lx := skipCp lx
          if atEnd lx then lexErrorAt lx line col lx.col unclosedString
          else
            match escapeByte (peekCp lx) with
            | some out => lexStringLoop line col fuel (skipCp lx) (buf ++ [out]) ok
            | none =>
                let lx := lexErrorAt lx lx.line lx.col (lx.col + 1)
                  (utf8 "تسلسل هروب غير معروف داخل السلسلة النصية")
                lexStringLoop line col fuel (skipCp lx) buf false
        else
          let after := skipCp lx
          lexStringLoop line col fuel after (buf ++ consumed lx after) ok

def lexString (lx : Lexer) (line col : Nat) : Lexer :=
  let lx := skipCp lx
  -- one turn more than bytes: the last one finds the end
  lexStringLoop line col (lx.rest.length + 1) lx [] true

/-! ## Directives and identifiers -/

/-- `lex_directive`, with `scan_directive`: the name keeps its dot. -/
def lexDirective (lx : Lexer) (line col : Nat) : Lexer :=
  let start := skipCp lx
  let after := skipWhile (fun cp => isIdentContinue cp || isArabicLetter cp) start.rest.length start
  pushTokenValue after .directive (0x2E :: consumed start after) line col after.col

def lexReservedPrefixError (lx : Lexer) (line col endCol : Nat) : Lexer :=
  lexErrorAt lx line col endCol
    (utf8 "اسم الوسم يبدأ ببادئة محجوزة لأسماء السجلات منذ نَظْم 0.5 " ++
      utf8 "('سجل_' أو 'مؤشر_' أو 'فهرس_')؛ اختر اسما لا يبدأ بها")

/-- `scan_ident`. -/
def scanIdent (lx : Lexer) : Lexer := skipWhile isIdentContinue lx.rest.length lx

def lexIdentifier [Vocabulary] (lx : Lexer) (line col : Nat) : Lexer :=
  let after := scanIdent lx
  let id := consumed lx after
  if !atEnd after && decide (peekCp after = 0x3A) then
    let after :=
      if hasReservedRegisterPrefix id then lexReservedPrefixError after line col after.col
      else after
    let after := skipCp after
    pushTokenValue after .labelDef id line col (after.col - 1)
  else if keywordsLookup id ≠ .invalid then pushTokenValue after .mnemonic id line col after.col
  else if (lexerRegisterId id).isSome then pushTokenValue after .register id line col after.col
  else
    let after :=
      if hasReservedRegisterPrefix id && !decide (id = instructionPointerName) &&
          (lexerRegisterLegacyReplacement id).isNone then
        lexReservedPrefixError after line col after.col
      else after
    pushTokenValue after .labelRef id line col after.col

/-! ## Main loop -/

/-- `lex_single_char_token`: the type and text of a one-character token. -/
def singleCharToken (cp : Nat) : Option (TokenType × List UInt8) :=
  if cp = 0x5B then some (.lbracket, [0x5B])
  else if cp = 0x5D then some (.rbracket, [0x5D])
  else if cp = 0x2B then some (.plus, [0x2B])
  else if cp = 0x2C then some (.comma, [0x2C])
  else if cp = 0x3A then some (.colon, [0x3A])
  else if cp = 0x060C then some (.comma, utf8 "،")
  else none

/-- One turn of the loop of `lex_all`. -/
def lexStep [Vocabulary] (lx : Lexer) : Lexer :=
  let line := lx.line
  let col := lx.col
  let cp := peekCp lx
  if cp = 0x20 ∨ cp = 0x09 ∨ cp = 0x0D then skipCp lx
  else if cp = 0x0A then lexNewline lx line col
  else if cp = 0x3B then lexComment lx
  else
    match singleCharToken cp with
    | some (type, value) => pushTokenValue (skipCp lx) type value line col (col + 1)
    | none =>
        if cp = 0x2D then lexMinusOrNegativeNumber lx line col
        else if cp = 0x2E then lexDirective lx line col
        else if cp = 0x22 then lexString lx line col
        else if isNumberStart cp then lexNumber lx line col
        else if isIdentStart cp then lexIdentifier lx line col
        else if atIllFormedUtf8 lx then lexIllFormedUtf8 lx
        else
          skipCp (lexError lx
            (snprintf 64 (utf8 "محرف غير معروف (U+" ++ hexadecimal4 cp ++ utf8 ")")))

/-- `while (!at_end) …` of `lex_all`. -/
def lexLoop [Vocabulary] : Nat → Lexer → Lexer
  | 0, lx => lx
  | fuel + 1, lx => if atEnd lx then lx else lexLoop fuel (lexStep lx)

def lexAll [Vocabulary] (lx : Lexer) : Lexer :=
  let lx := lexLoop lx.rest.length lx
  pushTokenValue lx .eof [] lx.line lx.col lx.col

/-- `LexResult`. -/
structure LexResult where
  tokens : TokenArray
  errors : ErrorList
deriving DecidableEq

/-- `lexer_lex`. -/
def lexerLex [Vocabulary] (src : SourceBuffer) : LexResult :=
  let lx := lexAll ⟨src.data, 1, 1, [], .empty, src.name⟩
  ⟨⟨lx.out, src.name⟩, lx.errors⟩

end Nazm.Lexer
