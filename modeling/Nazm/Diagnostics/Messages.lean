import Nazm.Diagnostics.Error
import Nazm.Unicode.CompletePrefix

/-!
Messages as UTF-8.

Owns that string literals and formatted numbers are UTF-8, how a message may be
cut before it is stored, and that a stored message is UTF-8 however it was cut.

Does not own who reports what.
-/

namespace Nazm.Diagnostics

open Utf8
open Nazm.Unicode

/-! ## Texts of the program -/

/-- The bytes of a string literal are UTF-8. -/
theorem wellFormed_utf8 (text : String) : WellFormed (utf8 text) := by
  obtain ⟨characters, same⟩ := text.isValidUTF8
  have bytes : utf8 text = characters.flatMap String.utf8EncodeChar := by
    rw [utf8, same, List.utf8Encode]
    exact List.data_toByteArray ▸ rfl
  rw [bytes]
  clear same bytes
  induction characters with
  | nil => exact .nil
  | cons c characters inductionHypothesis =>
      rw [List.flatMap_cons]
      exact .cons (character_utf8EncodeChar c) inductionHypothesis

/-! ## Formatted numbers -/

theorem toDigits_digitChar {base : Nat} (twoOrMore : 1 < base) (number : Nat) :
    ∀ digit ∈ Nat.toDigits base number, ∃ value, digit = Nat.digitChar value := by
  induction number using Nat.strongRecOn with
  | ind number inductionHypothesis =>
      intro digit member
      by_cases small : number < base
      · rw [Nat.toDigits_of_lt_base small, List.mem_singleton] at member
        exact ⟨number, member⟩
      · rw [Nat.toDigits_of_base_le twoOrMore (by omega), List.mem_append,
          List.mem_singleton] at member
        rcases member with front | last
        · exact inductionHypothesis _ (Nat.div_lt_self (by omega) twoOrMore) digit front
        · exact ⟨_, last⟩

/-- Digits are ASCII in either case. -/
theorem digitChar_ascii (value : Nat) :
    (Nat.digitChar value).toNat ≤ 0x7F ∧ (Nat.digitChar value).toUpper.toNat ≤ 0x7F := by
  have table : ∀ value : Fin 16, (Nat.digitChar value).toNat ≤ 0x7F ∧
      (Nat.digitChar value).toUpper.toNat ≤ 0x7F := by
    decide
  by_cases small : value < 16
  · exact table ⟨value, small⟩
  · rw [Nat.digitChar_eq_star.mpr (by omega)]
    decide

theorem decimal_wellFormed (number : Nat) : WellFormed (decimal number) := by
  refine .of_ascii fun byte member => ?_
  obtain ⟨digit, isDigit, rfl⟩ := List.mem_map.mp member
  obtain ⟨value, rfl⟩ := toDigits_digitChar (by decide) number digit isDigit
  have ascii := (digitChar_ascii value).1
  rw [UInt8.le_iff_toNat_le, toNat_ofNat_small (by omega)]
  exact ascii

theorem decimalInt_wellFormed (value : Int) : WellFormed (decimalInt value) := by
  cases value with
  | ofNat number => exact decimal_wellFormed number
  | negSucc number =>
      exact (@WellFormed.of_ascii [0x2D] (by simp)).append (decimal_wellFormed _)

/-- The text before the first NUL of a string is a string. -/
theorem cString_wellFormed {text : List UInt8} (wellFormed : WellFormed text) :
    WellFormed (cString text) := by
  induction wellFormed with
  | nil => exact .nil
  | @cons character rest isCharacter _ inductionHypothesis =>
      by_cases clean : 0 ∈ character
      · obtain ⟨lead, tails, rfl, -, areTails, -⟩ := isCharacter.shape
        have isLead : lead = 0 := by
          rcases List.mem_cons.mp clean with same | inTails
          · exact same.symm
          · exact absurd (areTails 0 inTails).1 (by decide)
        rw [isLead]
        exact .nil
      · have kept : cString (character ++ rest) = character ++ cString rest := by
          rw [cString, List.takeWhile_append_of_pos]
          · rfl
          · intro byte member
            refine decide_eq_true fun zero => clean ?_
            rwa [← zero]
        rw [kept]
        exact .cons isCharacter inductionHypothesis

/-- The start of a string, as a fixed buffer keeps it. -/
def CutText (text : List UInt8) : Prop := ∃ whole, WellFormed whole ∧ text <+: whole

namespace CutText

variable {text : List UInt8}

theorem whole (wellFormed : WellFormed text) : CutText text := ⟨text, wellFormed, List.prefix_rfl⟩

theorem literal (text : String) : CutText (utf8 text) := whole (wellFormed_utf8 text)

/-- `snprintf` cuts where its buffer ends. -/
theorem snprintf (size : Nat) (wellFormed : WellFormed text) :
    CutText (Diagnostics.snprintf size text) :=
  ⟨text, wellFormed, List.take_prefix _ _⟩

/-- What is stored of a cut message is UTF-8. -/
theorem repaired (cut : CutText text) :
    WellFormed ((cString text).take (utf8CompletePrefix (cString text))) := by
  obtain ⟨whole, wellFormed, isStart⟩ := cut
  have starts : cString text <+: whole := (List.takeWhile_prefix _).trans isStart
  have longest := longestWellFormed_take wellFormed (cString text).length
  rw [← List.prefix_iff_eq_take.mp starts] at longest
  exact longest.wellFormed

end CutText

/-- Every message of the list is UTF-8. -/
def Utf8Messages (list : ErrorList) : Prop := ∀ error ∈ list.errors, WellFormed error.message

theorem Utf8Messages.empty : Utf8Messages .empty := fun _ member => absurd member List.not_mem_nil

/-- A message may be cut anywhere before it is reported. -/
theorem Utf8Messages.add {list : ErrorList} (messages : Utf8Messages list) {message : List UInt8}
    (cut : CutText message) (file : Option (List UInt8)) (line col endCol : Nat) :
    Utf8Messages (errorAddSpan list file line col endCol message) := by
  unfold errorAddSpan
  split
  · exact messages
  · intro error member
    rcases List.mem_append.mp member with earlier | added
    · exact messages error earlier
    · rw [List.mem_singleton.mp added]
      exact cut.repaired

end Nazm.Diagnostics
