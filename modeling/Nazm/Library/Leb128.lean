import Mathlib.Data.Option.Basic

/-!
Numbers in LEB128.

Owns the reading of unsigned and signed numbers from the front of a list of
bytes: seven bits in each byte, the lowest first, and the high bit set in every
byte but the last.

Does not own any writer of such numbers.
-/

namespace Leb128

/-- The unsigned number at the front of the bytes, and the bytes after it. -/
def readUnsigned : List UInt8 → Option (Nat × List UInt8)
  | [] => none
  | byte :: bytes =>
      if byte.toNat < 128 then some (byte.toNat, bytes)
      else (readUnsigned bytes).map fun (rest, after) => (byte.toNat - 128 + 128 * rest, after)

/-- The signed number at the front of the bytes: bit six of the last byte is the sign. -/
def readSigned : List UInt8 → Option (Int × List UInt8)
  | [] => none
  | byte :: bytes =>
      if byte.toNat < 64 then some (byte.toNat, bytes)
      else if byte.toNat < 128 then some ((byte.toNat : Int) - 128, bytes)
      else
        (readSigned bytes).map fun (rest, after) => ((byte.toNat : Int) - 128 + 128 * rest, after)

/-- A byte of seven bits. -/
theorem toNat_ofNat_septet {number : Nat} (small : number < 128) :
    (UInt8.ofNat number).toNat = number := by
  rw [UInt8.toNat_ofNat']
  omega

/-- The same byte with the bit that announces another. -/
theorem toNat_continued {number : Nat} (small : number < 128) :
    (UInt8.ofNat number ||| 0x80).toNat = number + 128 := by
  have bits : ∀ number < 128, (UInt8.ofNat number ||| 0x80).toNat = number + 128 := by
    decide +kernel
  exact bits number small

theorem readUnsigned_last {number : Nat} (small : number < 128) (bytes : List UInt8) :
    readUnsigned (UInt8.ofNat number :: bytes) = some (number, bytes) := by
  rw [readUnsigned, toNat_ofNat_septet small, if_pos small]

theorem readUnsigned_continued {number rest : Nat} {bytes after : List UInt8}
    (small : number < 128) (reads : readUnsigned bytes = some (rest, after)) :
    readUnsigned ((UInt8.ofNat number ||| 0x80) :: bytes) = some (number + 128 * rest, after) := by
  rw [readUnsigned, toNat_continued small, if_neg (by omega), reads]
  simp

theorem readSigned_positive {number : Nat} (small : number < 64) (bytes : List UInt8) :
    readSigned (UInt8.ofNat number :: bytes) = some ((number : Int), bytes) := by
  rw [readSigned, toNat_ofNat_septet (by omega), if_pos small]

theorem readSigned_negative {number : Nat} (large : 64 ≤ number) (small : number < 128)
    (bytes : List UInt8) :
    readSigned (UInt8.ofNat number :: bytes) = some ((number : Int) - 128, bytes) := by
  rw [readSigned, toNat_ofNat_septet small, if_neg (by omega), if_pos small]

theorem readSigned_continued {number : Nat} {rest : Int} {bytes after : List UInt8}
    (small : number < 128) (reads : readSigned bytes = some (rest, after)) :
    readSigned ((UInt8.ofNat number ||| 0x80) :: bytes) = some (number + 128 * rest, after) := by
  have same : ((number + 128 : Nat) : Int) - 128 + 128 * rest = number + 128 * rest := by omega
  rw [readSigned, toNat_continued small, if_neg (by omega), if_neg (by omega), reads,
    Option.map_some]
  dsimp only
  rw [same]

end Leb128
