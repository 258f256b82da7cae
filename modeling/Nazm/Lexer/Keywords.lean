import Nazm.Encoder.Operand
import Nazm.Unicode.Arabic

/-!
Word tables of the lexer.

Owns the mnemonics of `src/lexer/keywords.c` and the register names of
`src/lexer/lexer.c`, with the removed spellings and their replacements, and the
two tables as one value that the lexer and the parser are functions of.
-/

namespace Nazm.Lexer

open Nazm.Encoder Nazm.Unicode

/-- The entry of a table under a spelling, compared byte by byte. -/
def tableLookup {α : Type} (table : List (String × α)) (text : List UInt8) : Option α :=
  (table.find? fun entry => utf8 entry.1 = text).map Prod.snd

/-! ## Mnemonics -/

/-- `KEYWORD_TABLE`. -/
def keywordTable : List (String × OpcodeEnum) :=
  [ ("انقل", .mov), ("ادفع", .push), ("اسحب", .pop), ("احسب_عنوان", .lea), ("وسع_بصفر", .movzx),
    ("وسع_بإشارة", .movsx), ("أضف", .add), ("اطرح", .sub), ("اضرب_موقع", .imul),
    ("اقسم_موقع", .idiv), ("اقسم_غير_موقع", .div), ("وسع_إشارة_القسمة", .cqo), ("زد", .inc),
    ("انقص", .dec), ("اعكس_الإشارة", .neg), ("جمع_عشري", .addsd), ("طرح_عشري", .subsd),
    ("ضرب_عشري", .mulsd), ("قسمة_عشرية", .divsd), ("مقارنة_عشرية", .ucomisd),
    ("خلاف_عشري", .xorpd), ("تحويل_صحيح_إلى_عشري", .cvtsi2sd),
    ("تحويل_عشري_إلى_صحيح", .cvttsd2si), ("و_بتيا", .and), ("أو_بتيا", .or), ("خالف_بتيا", .xor),
    ("اعكس_البتات", .not), ("ازح_يسارا", .shl), ("ازح_منطقيا_يمينا", .shr),
    ("ازح_حسابيا_يمينا", .sar), ("قارن", .cmp), ("اختبر_البتات", .test), ("عين_مساو", .sete),
    ("عين_غير_مساو", .setne), ("عين_أكبر", .setg), ("عين_أصغر", .setl),
    ("عين_أكبر_أو_مساو", .setge), ("عين_أصغر_أو_مساو", .setle), ("عين_فوق", .seta),
    ("عين_تحت", .setb), ("عين_فوق_أو_مساو", .setae), ("عين_تحت_أو_مساو", .setbe),
    ("عين_تكافؤ", .setp), ("عين_عدم_تكافؤ", .setnp), ("اقفز", .jmp), ("ناد", .call),
    ("ارجع", .ret), ("اقفز_مساو", .je), ("اقفز_غير_مساو", .jne), ("اقفز_أكبر", .jg),
    ("اقفز_أكبر_أو_مساو", .jge), ("اقفز_أصغر", .jl), ("اقفز_أصغر_أو_مساو", .jle),
    ("اقفز_صفر", .jz), ("اقفز_غير_صفر", .jnz), ("اقفز_سالب", .js), ("اقفز_غير_سالب", .jns),
    ("ناد_النظام", .syscall), ("لا_تفعل", .nop), ("اقرأ_عداد_الزمن", .rdtsc), ("أوقف", .hlt),
    ("اطلب_مقاطعة", .int) ]

/-- `LEGACY_KEYWORDS`. -/
def legacyKeywords : List (String × String) :=
  [ ("احمل", "انقل"), ("عنون", "احسب_عنوان"), ("اضرب", "اضرب_موقع"), ("اقسم", "اقسم_موقع"),
    ("اسلب", "اعكس_الإشارة"), ("و", "و_بتيا"), ("أو", "أو_بتيا"), ("خالف", "خالف_بتيا"),
    ("انفِ", "اعكس_البتات"), ("ازحل", "ازح_يسارا"), ("ازحي", "ازح_منطقيا_يمينا"),
    ("ازحر", "ازح_حسابيا_يمينا"), ("اختبر", "اختبر_البتات"), ("نادِ", "ناد"),
    ("اقفز_مساوٍ", "اقفز_مساو"), ("اقفز_مختلف", "اقفز_غير_مساو"),
    ("اقفز_أكبر_أو", "اقفز_أكبر_أو_مساو"), ("اقفز_أصغر_أو", "اقفز_أصغر_أو_مساو"),
    ("اقفز_لاصفر", "اقفز_غير_صفر"), ("اقفز_موجب", "اقفز_غير_سالب"),
    ("نداء_نظام", "ناد_النظام"), ("لاشيء", "لا_تفعل"), ("قاطع", "اطلب_مقاطعة") ]

/-- `keywords_legacy_replacement`. -/
def keywordsLegacyReplacement (text : List UInt8) : Option (List UInt8) :=
  (tableLookup legacyKeywords text).map utf8

/-! ## Registers -/

/-- `REG_TABLE`. -/
def regTable : List (String × RegId) :=
  [ ("سجل_المركم", .gpr64 0), ("سجل_العداد", .gpr64 1), ("سجل_البيانات", .gpr64 2),
    ("سجل_القاعدة", .gpr64 3), ("مؤشر_المكدس", .gpr64 4), ("مؤشر_القاعدة", .gpr64 5),
    ("فهرس_المصدر", .gpr64 6), ("فهرس_الوجهة", .gpr64 7), ("سجل_عام_٨", .gpr64 8),
    ("سجل_عام_٩", .gpr64 9), ("سجل_عام_١٠", .gpr64 10), ("سجل_عام_١١", .gpr64 11),
    ("سجل_عام_١٢", .gpr64 12), ("سجل_عام_١٣", .gpr64 13), ("سجل_عام_١٤", .gpr64 14),
    ("سجل_عام_١٥", .gpr64 15),
    ("سجل_المركم_٣٢", .gpr32 0), ("سجل_العداد_٣٢", .gpr32 1), ("سجل_البيانات_٣٢", .gpr32 2),
    ("سجل_القاعدة_٣٢", .gpr32 3), ("مؤشر_المكدس_٣٢", .gpr32 4), ("مؤشر_القاعدة_٣٢", .gpr32 5),
    ("فهرس_المصدر_٣٢", .gpr32 6), ("فهرس_الوجهة_٣٢", .gpr32 7), ("سجل_عام_٨_٣٢", .gpr32 8),
    ("سجل_عام_٩_٣٢", .gpr32 9), ("سجل_عام_١٠_٣٢", .gpr32 10), ("سجل_عام_١١_٣٢", .gpr32 11),
    ("سجل_عام_١٢_٣٢", .gpr32 12), ("سجل_عام_١٣_٣٢", .gpr32 13), ("سجل_عام_١٤_٣٢", .gpr32 14),
    ("سجل_عام_١٥_٣٢", .gpr32 15),
    ("سجل_المركم_١٦", .gpr16 0), ("سجل_العداد_١٦", .gpr16 1), ("سجل_البيانات_١٦", .gpr16 2),
    ("سجل_القاعدة_١٦", .gpr16 3), ("مؤشر_المكدس_١٦", .gpr16 4), ("مؤشر_القاعدة_١٦", .gpr16 5),
    ("فهرس_المصدر_١٦", .gpr16 6), ("فهرس_الوجهة_١٦", .gpr16 7), ("سجل_عام_٨_١٦", .gpr16 8),
    ("سجل_عام_٩_١٦", .gpr16 9), ("سجل_عام_١٠_١٦", .gpr16 10), ("سجل_عام_١١_١٦", .gpr16 11),
    ("سجل_عام_١٢_١٦", .gpr16 12), ("سجل_عام_١٣_١٦", .gpr16 13), ("سجل_عام_١٤_١٦", .gpr16 14),
    ("سجل_عام_١٥_١٦", .gpr16 15),
    ("سجل_المركم_٨", .gpr8 0), ("سجل_العداد_٨", .gpr8 1), ("سجل_البيانات_٨", .gpr8 2),
    ("سجل_القاعدة_٨", .gpr8 3), ("مؤشر_المكدس_٨", .gpr8 4), ("مؤشر_القاعدة_٨", .gpr8 5),
    ("فهرس_المصدر_٨", .gpr8 6), ("فهرس_الوجهة_٨", .gpr8 7), ("سجل_عام_٨_٨", .gpr8 8),
    ("سجل_عام_٩_٨", .gpr8 9), ("سجل_عام_١٠_٨", .gpr8 10), ("سجل_عام_١١_٨", .gpr8 11),
    ("سجل_عام_١٢_٨", .gpr8 12), ("سجل_عام_١٣_٨", .gpr8 13), ("سجل_عام_١٤_٨", .gpr8 14),
    ("سجل_عام_١٥_٨", .gpr8 15),
    ("سجل_عشري_٠", .xmm 0), ("سجل_عشري_١", .xmm 1), ("سجل_عشري_٢", .xmm 2),
    ("سجل_عشري_٣", .xmm 3), ("سجل_عشري_٤", .xmm 4), ("سجل_عشري_٥", .xmm 5),
    ("سجل_عشري_٦", .xmm 6), ("سجل_عشري_٧", .xmm 7), ("سجل_عشري_٨", .xmm 8),
    ("سجل_عشري_٩", .xmm 9), ("سجل_عشري_١٠", .xmm 10), ("سجل_عشري_١١", .xmm 11),
    ("سجل_عشري_١٢", .xmm 12), ("سجل_عشري_١٣", .xmm 13), ("سجل_عشري_١٤", .xmm 14),
    ("سجل_عشري_١٥", .xmm 15) ]

/-- `LEGACY_REGISTERS`. -/
def legacyRegisters : List (String × String) :=
  [ ("مجمع", "سجل_المركم"), ("عداد", "سجل_العداد"), ("بيانات", "سجل_البيانات"),
    ("قاعدة_ب", "سجل_القاعدة"), ("مكدس", "مؤشر_المكدس"), ("قاعدة", "مؤشر_القاعدة"),
    ("مصدر", "فهرس_المصدر"), ("وجهة", "فهرس_الوجهة"), ("ر0", "سجل_المركم"),
    ("ر1", "سجل_العداد"), ("ر2", "سجل_البيانات"), ("ر3", "سجل_القاعدة"), ("ر4", "مؤشر_المكدس"),
    ("ر5", "مؤشر_القاعدة"), ("ر6", "فهرس_المصدر"), ("ر7", "فهرس_الوجهة"), ("ر8", "سجل_عام_٨"),
    ("ر9", "سجل_عام_٩"), ("ر10", "سجل_عام_١٠"), ("ر11", "سجل_عام_١١"), ("ر12", "سجل_عام_١٢"),
    ("ر13", "سجل_عام_١٣"), ("ر14", "سجل_عام_١٤"), ("ر15", "سجل_عام_١٥"),
    ("سجل_عام_8", "سجل_عام_٨"), ("سجل_عام_9", "سجل_عام_٩"), ("سجل_عام_10", "سجل_عام_١٠"),
    ("سجل_عام_11", "سجل_عام_١١"), ("سجل_عام_12", "سجل_عام_١٢"), ("سجل_عام_13", "سجل_عام_١٣"),
    ("سجل_عام_14", "سجل_عام_١٤"), ("سجل_عام_15", "سجل_عام_١٥") ]

/-- `RESERVED_REGISTER_PREFIXES`. -/
def reservedRegisterPrefixes : List String := ["سجل_", "مؤشر_", "فهرس_"]

/-- `INSTRUCTION_POINTER_NAME`. -/
def instructionPointerName : List UInt8 := utf8 "مؤشر_التعليمة"

/-- `lexer_register_legacy_replacement`. -/
def lexerRegisterLegacyReplacement (name : List UInt8) : Option (List UInt8) :=
  (tableLookup legacyRegisters name).map utf8

def hasReservedRegisterPrefix (text : List UInt8) : Bool :=
  reservedRegisterPrefixes.any fun reserved => (utf8 reserved).isPrefixOf text

/-! ## The tables -/

/-- The two tables that the lexer and the parser consult for the words of the language. What
consults them takes them as an instance, and these of the source where nothing else is said. -/
class Vocabulary where
  keywordTable : List (String × OpcodeEnum)
  regTable : List (String × RegId)

/-- The tables of the source. -/
instance Vocabulary.nazm : Vocabulary := ⟨Lexer.keywordTable, Lexer.regTable⟩

section Lookup

variable [Vocabulary]

/-- `keywords_lookup`. -/
def keywordsLookup (text : List UInt8) : OpcodeEnum :=
  (tableLookup Vocabulary.keywordTable text).getD .invalid

/-- `classify_register` and `lexer_register_id`; `none` for `-1`. -/
def lexerRegisterId (name : List UInt8) : Option RegId := tableLookup Vocabulary.regTable name

end Lookup

end Nazm.Lexer
