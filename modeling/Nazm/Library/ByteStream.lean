import Nazm.Library.LittleEndian

/-!
Reading from the front of a list of bytes.

Owns the reading of numbers of a fixed width and of strings that end in a NUL,
each with the bytes left over, and that what is in front is what is read.

Does not own numbers of a variable width.
-/

namespace ByteStream

open LittleEndian

/-- The number of a width at the front, and the bytes after it. -/
def readWord (width : Nat) (bytes : List UInt8) : Option (Nat × List UInt8) :=
  if width ≤ bytes.length then some (value (bytes.take width), bytes.drop width) else none

/-- The string at the front, and the bytes after its NUL. -/
def readString : List UInt8 → Option (List UInt8 × List UInt8)
  | [] => none
  | byte :: bytes =>
      if byte = 0 then some ([], bytes)
      else (readString bytes).map fun (rest, after) => (byte :: rest, after)

theorem readWord_append {front : List UInt8} {width : Nat} (length : front.length = width)
    (rest : List UInt8) : readWord width (front ++ rest) = some (value front, rest) := by
  subst length
  rw [readWord, if_pos (by rw [List.length_append]; exact Nat.le_add_right _ _), List.take_left,
    List.drop_left]

theorem readWord_cons (byte : UInt8) (rest : List UInt8) :
    readWord 1 (byte :: rest) = some (byte.toNat, rest) := by
  have read := @readWord_append [byte] 1 rfl rest
  rwa [List.singleton_append, show value [byte] = byte.toNat by simp [value]] at read

theorem readWord_bytes {width number : Nat} (small : number < 256 ^ width) (rest : List UInt8) :
    readWord width (bytes width number ++ rest) = some (number, rest) := by
  rw [readWord_append (length_bytes width number), value_bytes_of_lt small]

theorem readString_append {string : List UInt8} (clean : 0 ∉ string) (rest : List UInt8) :
    readString (string ++ 0 :: rest) = some (string, rest) := by
  induction string with
  | nil => rfl
  | cons byte string inductionHypothesis =>
      rw [List.mem_cons, not_or] at clean
      rw [List.cons_append, readString, if_neg (Ne.symm clean.1), inductionHypothesis clean.2]
      rfl

end ByteStream
