import Nazm.Library.Leb128
import Nazm.Output.DebugLine

/-!
The numbers of the DWARF line program.

Owns that what `debug_buffer_uleb` and `debug_buffer_sleb` append reads back as
the number, and how many bytes it takes.

Does not own the line program.
-/

namespace Nazm.Output

open Leb128

/-! ## Unsigned numbers -/

theorem debugBufferUleb_length {fuel count value : Nat} (small : value < 128 ^ (count + 1)) :
    (debugBufferUleb fuel value).length ≤ count + 1 := by
  induction fuel generalizing count value with
  | zero => exact Nat.zero_le _
  | succ fuel inductionHypothesis =>
      rw [debugBufferUleb]
      split
      · next more =>
          cases count with
          | zero => omega
          | succ count =>
              have rest : value / 128 < 128 ^ (count + 1) := by
                rw [Nat.div_lt_iff_lt_mul (by decide), ← Nat.pow_succ]
                exact small
              exact Nat.succ_le_succ (inductionHypothesis rest)
      · exact Nat.succ_le_succ (Nat.zero_le _)

theorem readUnsigned_debugBufferUleb {fuel value : Nat} (small : value < 128 ^ fuel)
    (positive : 0 < fuel) (bytes : List UInt8) :
    readUnsigned (debugBufferUleb fuel value ++ bytes) = some (value, bytes) := by
  induction fuel generalizing value with
  | zero => contradiction
  | succ fuel inductionHypothesis =>
      have septet : value % 128 < 128 := Nat.mod_lt _ (by decide)
      rw [debugBufferUleb]
      split
      · next more =>
          have rest : value / 128 < 128 ^ fuel := by
            rw [Nat.div_lt_iff_lt_mul (by decide), ← Nat.pow_succ]
            exact small
          have room : 0 < fuel := by
            rcases Nat.eq_zero_or_pos fuel with rfl | positive
            · omega
            · exact positive
          rw [List.cons_append, readUnsigned_continued septet (inductionHypothesis rest room),
            Nat.mod_add_div]
      · next last =>
          have whole : value % 128 = value := by omega
          rw [List.singleton_append, readUnsigned_last septet, whole]

theorem uleb_length {count value : Nat} (small : value < 128 ^ (count + 1)) :
    (uleb value).length ≤ count + 1 :=
  debugBufferUleb_length small

/-- A number of 64 bits reads back. -/
theorem readUnsigned_uleb {value : Nat} (small : value < 2 ^ 64) (bytes : List UInt8) :
    readUnsigned (uleb value ++ bytes) = some (value, bytes) :=
  readUnsigned_debugBufferUleb (by omega) (by decide) bytes

/-! ## Signed numbers -/

/-- Bit six of a septet. -/
theorem signBit_septet {number : Nat} (small : number < 128) :
    UInt8.ofNat number &&& 0x40 ≠ 0 ↔ 64 ≤ number := by
  have bits : ∀ number < 128, (UInt8.ofNat number &&& 0x40 ≠ 0 ↔ 64 ≤ number) := by
    decide +kernel
  exact bits number small

theorem debugBufferSleb_length {fuel count : Nat} {value : Int}
    (lower : -(64 * 128 ^ count) ≤ value) (upper : value < 64 * 128 ^ count) :
    (debugBufferSleb fuel value).length ≤ count + 1 := by
  induction fuel generalizing count value with
  | zero => exact Nat.zero_le _
  | succ fuel inductionHypothesis =>
      have septet : (value % 128).toNat < 128 := by omega
      rw [debugBufferSleb]
      split
      · exact Nat.succ_le_succ (Nat.zero_le _)
      · next more =>
          cases count with
          | zero =>
              -- a number of seven bits is written in one byte
              refine absurd ?_ more
              rw [Int.pow_zero, Int.mul_one] at lower upper
              by_cases negative : value < 0
              · have sign : 64 ≤ (value % 128).toNat := by omega
                exact .inr ⟨by omega, decide_eq_true ((signBit_septet septet).mpr sign)⟩
              · have sign : ¬ 64 ≤ (value % 128).toNat := by omega
                refine .inl ⟨by omega, ?_⟩
                rw [Bool.not_eq_true', decide_eq_false_iff_not]
                exact fun bit => sign ((signBit_septet septet).mp bit)
          | succ count =>
              rw [Int.pow_succ] at lower upper
              have rest := @inductionHypothesis count (value / 128)
              generalize (128 : Int) ^ count = power at lower upper rest
              exact Nat.succ_le_succ (rest (by omega) (by omega))

theorem readSigned_debugBufferSleb {fuel : Nat} {value : Int}
    (lower : -(64 * 128 ^ fuel) ≤ value) (upper : value < 64 * 128 ^ fuel) (bytes : List UInt8) :
    readSigned (debugBufferSleb (fuel + 1) value ++ bytes) = some (value, bytes) := by
  induction fuel generalizing value with
  | zero =>
      have septet : (value % 128).toNat < 128 := by omega
      rw [Int.pow_zero, Int.mul_one] at lower upper
      rw [debugBufferSleb]
      by_cases negative : value < 0
      · have sign : 64 ≤ (value % 128).toNat := by omega
        rw [if_pos (.inr ⟨by omega, decide_eq_true ((signBit_septet septet).mpr sign)⟩),
          List.singleton_append, readSigned_negative sign septet,
          show ((value % 128).toNat : Int) - 128 = value by omega]
      · have sign : ¬ 64 ≤ (value % 128).toNat := by omega
        rw [if_pos (.inl ⟨by omega, by
          rw [Bool.not_eq_true', decide_eq_false_iff_not]
          exact fun bit => sign ((signBit_septet septet).mp bit)⟩),
          List.singleton_append, readSigned_positive (by omega),
          show ((value % 128).toNat : Int) = value by omega]
  | succ fuel inductionHypothesis =>
      have septet : (value % 128).toNat < 128 := by omega
      have sign := signBit_septet septet
      rw [debugBufferSleb]
      split
      · next last =>
          rw [List.singleton_append]
          rcases last with ⟨zero, positive⟩ | ⟨minus, negative⟩
          · rw [Bool.not_eq_true', decide_eq_false_iff_not] at positive
            have small : ¬ 64 ≤ (value % 128).toNat := fun large => positive (sign.mpr large)
            rw [readSigned_positive (by omega), show ((value % 128).toNat : Int) = value by omega]
          · have large := sign.mp (of_decide_eq_true negative)
            rw [readSigned_negative large septet,
              show ((value % 128).toNat : Int) - 128 = value by omega]
      · rw [Int.pow_succ] at lower upper
        generalize (128 : Int) ^ fuel = power at lower upper inductionHypothesis
        rw [List.cons_append, readSigned_continued septet
          (inductionHypothesis (by omega) (by omega)),
          show ((value % 128).toNat : Int) + 128 * (value / 128) = value by omega]

theorem sleb_length {count : Nat} {value : Int} (lower : -(64 * 128 ^ count) ≤ value)
    (upper : value < 64 * 128 ^ count) : (sleb value).length ≤ count + 1 :=
  debugBufferSleb_length lower upper

theorem readSigned_sleb {value : Int} (lower : -2 ^ 63 ≤ value) (upper : value < 2 ^ 63)
    (bytes : List UInt8) : readSigned (sleb value ++ bytes) = some (value, bytes) :=
  @readSigned_debugBufferSleb 9 value (by omega) (by omega) bytes

end Nazm.Output
