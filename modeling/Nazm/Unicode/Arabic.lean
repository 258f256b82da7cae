import Mathlib.Algebra.Group.Int.Defs
import Mathlib.Algebra.GroupWithZero.Nat

/-!
UTF-8 decoding and Arabic character classification.

Owns `src/unicode/arabic.c`. A source position is the list of the bytes from
it on, so an offset that has reached the end is the empty list.
-/

namespace Nazm.Unicode

/-- The bytes of a string literal of the source. -/
def utf8 (text : String) : List UInt8 := text.toByteArray.data.toList

/-! ## Decoding -/

/-- Sequence length and leading bits that a non-ASCII lead byte announces. -/
def leadByte (b0 : Nat) : Option (Nat × Nat) :=
  if 0xC2 ≤ b0 ∧ b0 ≤ 0xDF then some (2, b0 &&& 0x1F)
  else if 0xE0 ≤ b0 ∧ b0 ≤ 0xEF then some (3, b0 &&& 0x0F)
  else if 0xF0 ≤ b0 ∧ b0 ≤ 0xF4 then some (4, b0 &&& 0x07)
  else none

/-- `count` continuation bytes after the lead; `none` when the source ends or a
byte is no continuation. -/
def continuation : Nat → Nat → List UInt8 → Option (Nat × List UInt8)
  | 0, cp, src => some (cp, src)
  | _ + 1, _, [] => none
  | count + 1, cp, b :: src =>
      if b.toNat &&& 0xC0 ≠ 0x80 then none
      else continuation count ((cp <<< 6) ||| (b.toNat &&& 0x3F)) src

/-- `utf8_next_codepoint`: the codepoint and the source after it. U+FFFD, and
one byte consumed, on an invalid sequence; 0 at the end. -/
def utf8NextCodepoint : List UInt8 → Nat × List UInt8
  | [] => (0, [])
  | b0 :: src =>
      if b0.toNat < 0x80 then (b0.toNat, src)
      else
        match leadByte b0.toNat with
        | none => (0xFFFD, src)
        | some (bytes, bits) =>
            match continuation (bytes - 1) bits src with
            | none => (0xFFFD, src)
            | some (cp, next) =>
                let minimum := if bytes = 2 then 0x80 else if bytes = 3 then 0x800 else 0x10000
                if cp < minimum ∨ (0xD800 ≤ cp ∧ cp ≤ 0xDFFF) ∨ 0x10FFFF < cp then (0xFFFD, src)
                else (cp, next)

def utf8PeekCodepoint (src : List UInt8) : Nat := (utf8NextCodepoint src).1

/-- `utf8_is_well_formed_at`: the real U+FFFD is three bytes long. -/
def utf8IsWellFormedAt (src : List UInt8) : Bool :=
  let (cp, next) := utf8NextCodepoint src
  decide (cp ≠ 0xFFFD) || decide (src.length - next.length = 3)

/-- `utf8_complete_prefix`: the length of the longest start of `src` that does
not end inside a character. -/
def utf8CompletePrefix (src : List UInt8) : Nat :=
  let trailing := ((src.reverse.take 3).takeWhile fun b => b.toNat &&& 0xC0 = 0x80).length
  match src.length - trailing with
  | 0 => src.length
  | lead + 1 =>
      let b0 := (src.getD lead 0).toNat
      let needed := if 0xF0 ≤ b0 then 4 else if 0xE0 ≤ b0 then 3 else if 0xC0 ≤ b0 then 2 else 1
      if src.length - lead < needed then lead else src.length

/-! ## Classification -/

def isArabicLetter (cp : Nat) : Bool :=
  if cp = 0x060C ∨ cp = 0x061B ∨ cp = 0x061F ∨ cp = 0x0640 then false
  else if 0x0660 ≤ cp ∧ cp ≤ 0x066F then false
  else
    (decide (0x0600 ≤ cp) && decide (cp ≤ 0x06FF)) ||
      (decide (0x0750 ≤ cp) && decide (cp ≤ 0x077F)) ||
      (decide (0xFB50 ≤ cp) && decide (cp ≤ 0xFDFF)) ||
      (decide (0xFE70 ≤ cp) && decide (cp ≤ 0xFEFF))

def nazmIsArabicDigit (cp : Nat) : Bool := decide (0x0660 ≤ cp) && decide (cp ≤ 0x0669)

/-- `'0' ≤ cp ≤ '9'`. -/
def isAsciiDigit (cp : Nat) : Bool := decide (0x30 ≤ cp) && decide (cp ≤ 0x39)

/-- `arabic_digit_value`; `none` for `-1`. -/
def arabicDigitValue (cp : Nat) : Option Nat :=
  if nazmIsArabicDigit cp then some (cp - 0x0660)
  else if isAsciiDigit cp then some (cp - 0x30)
  else none

def isIdentStart (cp : Nat) : Bool := isArabicLetter cp || decide (cp = 0x5F)

def isIdentContinue (cp : Nat) : Bool :=
  isArabicLetter cp || nazmIsArabicDigit cp || isAsciiDigit cp || decide (cp = 0x5F)

end Nazm.Unicode
