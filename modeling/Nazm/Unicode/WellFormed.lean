import Nazm.Library.Utf8
import Nazm.Unicode.Arabic

/-!
The decoder accepts exactly what Unicode calls well formed.

Owns that the bytes of a codepoint which `utf8_next_codepoint` decodes form a
character of Table 3-7, so that a position without U+FFFD is a well-formed one.

Does not own what the lexer does with codepoints.
-/

namespace Nazm.Unicode

open Utf8

/-! ## Bits of a sequence -/

theorem tail_of_continues {b : UInt8} (continues : b.toNat &&& 0xC0 = 0x80) : Tail b := by
  have table : ∀ b : Fin 256, b.val &&& 0xC0 = 0x80 → 0x80 ≤ b.val ∧ b.val ≤ 0xBF := by
    decide +kernel
  have bounds := table ⟨b.toNat, b.toNat_lt⟩ continues
  exact ⟨UInt8.le_iff_toNat_le.mpr bounds.1, UInt8.le_iff_toNat_le.mpr bounds.2⟩

/-- A continuation byte adds six bits. -/
theorem continued_bits (cp b : Nat) : (cp <<< 6) ||| (b &&& 0x3F) = 64 * cp + b % 64 := by
  have low : b &&& 0x3F = b % 2 ^ 6 := Nat.and_two_pow_sub_one_eq_mod b 6
  rw [low, ← Nat.shiftLeft_add_eq_or_of_lt (Nat.mod_lt _ (by decide)), Nat.shiftLeft_eq]
  omega

/-- What a continuation of one, two or three bytes reads. -/
theorem continuation_succ {count cp last : Nat} {src next : List UInt8}
    (reads : continuation (count + 1) cp src = some (last, next)) :
    ∃ b rest, src = b :: rest ∧ Tail b ∧
      continuation count (64 * cp + b.toNat % 64) rest = some (last, next) := by
  cases src with
  | nil => contradiction
  | cons b rest =>
      rw [continuation] at reads
      split at reads
      · contradiction
      · next continues =>
          rw [continued_bits] at reads
          exact ⟨b, rest, rfl, tail_of_continues (not_not.mp continues), reads⟩

theorem continuation_zero {cp last : Nat} {src next : List UInt8}
    (reads : continuation 0 cp src = some (last, next)) : last = cp ∧ next = src := by
  obtain ⟨rfl, rfl⟩ := Prod.mk.inj (Option.some.inj reads)
  exact ⟨rfl, rfl⟩

/-! ## Decoding -/

/-- Bits of a lead byte after its length. -/
theorem lead_bits {b0 mask : Nat} (width : Nat) (isMask : mask = 2 ^ width - 1) :
    b0 &&& mask = b0 % 2 ^ width := by
  rw [isMask, Nat.and_two_pow_sub_one_eq_mod]

/-- A sequence that the decoder accepts is a character. -/
theorem character_of_continuation {b0 : UInt8} {length bits cp : Nat} {src next : List UInt8}
    (announced : leadByte b0.toNat = some (length, bits))
    (reads : continuation (length - 1) bits src = some (cp, next))
    (valid : ¬(cp < (if length = 2 then 0x80 else if length = 3 then 0x800 else 0x10000) ∨
      (0xD800 ≤ cp ∧ cp ≤ 0xDFFF) ∨ 0x10FFFF < cp)) :
    ∃ character, b0 :: src = character ++ next ∧ Character character := by
  unfold leadByte at announced
  split at announced
  · next lead =>
      obtain ⟨rfl, rfl⟩ := Prod.mk.inj (Option.some.inj announced)
      obtain ⟨b, rest, rfl, tail, reads⟩ := continuation_succ reads
      obtain ⟨-, rfl⟩ := continuation_zero reads
      exact ⟨[b0, b], rfl, .two (UInt8.le_iff_toNat_le.mpr lead.1)
        (UInt8.le_iff_toNat_le.mpr lead.2) tail⟩
  · split at announced
    · next lead =>
        obtain ⟨rfl, rfl⟩ := Prod.mk.inj (Option.some.inj announced)
        obtain ⟨b, rest, rfl, tail, reads⟩ := continuation_succ reads
        obtain ⟨c, rest, rfl, last, reads⟩ := continuation_succ reads
        obtain ⟨isCp, rfl⟩ := continuation_zero reads
        rw [lead_bits 4 (show 0x0F = 2 ^ 4 - 1 from rfl)] at isCp
        refine ⟨[b0, b, c], rfl, ?_⟩
        obtain ⟨least, greatest⟩ := tail
        obtain ⟨lastLeast, lastGreatest⟩ := last
        simp only [UInt8.le_iff_toNat_le, UInt8.reduceToNat] at least greatest lastLeast lastGreatest
        rw [if_neg (by decide), if_pos rfl] at valid
        rcases Nat.lt_or_ge b0.toNat 0xE1 with isE0 | afterE0
        · have same : b0 = 0xE0 := UInt8.toNat_inj.mp (by simp only [UInt8.reduceToNat]; omega)
          rw [same] at isCp ⊢
          refine .afterE0 ?_ ?_ ⟨?_, ?_⟩ <;>
            simp only [UInt8.le_iff_toNat_le, UInt8.reduceToNat] at isCp ⊢ <;> omega
        · rcases Nat.lt_or_ge b0.toNat 0xED with low | high
          · refine .three ?_ ?_ ⟨?_, ?_⟩ ⟨?_, ?_⟩ <;>
              simp only [UInt8.le_iff_toNat_le, UInt8.reduceToNat] <;> omega
          · rcases Nat.lt_or_ge b0.toNat 0xEE with isED | afterED
            · have same : b0 = 0xED := UInt8.toNat_inj.mp (by simp only [UInt8.reduceToNat]; omega)
              rw [same] at isCp ⊢
              refine .afterED ?_ ?_ ⟨?_, ?_⟩ <;>
                simp only [UInt8.le_iff_toNat_le, UInt8.reduceToNat] at isCp ⊢ <;> omega
            · refine .threeHigh ?_ ?_ ⟨?_, ?_⟩ ⟨?_, ?_⟩ <;>
                simp only [UInt8.le_iff_toNat_le, UInt8.reduceToNat] <;> omega
    · split at announced
      · next lead =>
          obtain ⟨rfl, rfl⟩ := Prod.mk.inj (Option.some.inj announced)
          obtain ⟨b, rest, rfl, tail, reads⟩ := continuation_succ reads
          obtain ⟨c, rest, rfl, third, reads⟩ := continuation_succ reads
          obtain ⟨d, rest, rfl, last, reads⟩ := continuation_succ reads
          obtain ⟨isCp, rfl⟩ := continuation_zero reads
          rw [lead_bits 3 (show 0x07 = 2 ^ 3 - 1 from rfl)] at isCp
          refine ⟨[b0, b, c, d], rfl, ?_⟩
          obtain ⟨least, greatest⟩ := tail
          simp only [UInt8.le_iff_toNat_le, UInt8.reduceToNat] at least greatest
          rw [if_neg (by decide), if_neg (by decide)] at valid
          rcases Nat.lt_or_ge b0.toNat 0xF1 with isF0 | afterF0
          · have same : b0 = 0xF0 := UInt8.toNat_inj.mp (by simp only [UInt8.reduceToNat]; omega)
            rw [same] at isCp ⊢
            refine .afterF0 ?_ ?_ third last <;>
              simp only [UInt8.le_iff_toNat_le, UInt8.reduceToNat] at isCp ⊢ <;> omega
          · rcases Nat.lt_or_ge b0.toNat 0xF4 with low | high
            · refine .four ?_ ?_ ⟨?_, ?_⟩ third last <;>
                simp only [UInt8.le_iff_toNat_le, UInt8.reduceToNat] <;> omega
            · have same : b0 = 0xF4 := UInt8.toNat_inj.mp (by simp only [UInt8.reduceToNat]; omega)
              rw [same] at isCp ⊢
              refine .afterF4 ?_ ?_ third last <;>
                simp only [UInt8.le_iff_toNat_le, UInt8.reduceToNat] at isCp ⊢ <;> omega
      · contradiction

/-- The decoder reads a character, or U+FFFD for one byte. -/
theorem utf8NextCodepoint_character (b0 : UInt8) (src : List UInt8) :
    utf8NextCodepoint (b0 :: src) = (0xFFFD, src) ∨
      ∃ character, b0 :: src = character ++ (utf8NextCodepoint (b0 :: src)).2 ∧
        Character character := by
  rw [utf8NextCodepoint]
  split
  · next small =>
      refine .inr ⟨[b0], rfl, .ascii (UInt8.le_iff_toNat_le.mpr ?_)⟩
      simp only [UInt8.reduceToNat]
      omega
  · split
    · exact .inl rfl
    · next length bits announced =>
        split
        · exact .inl rfl
        · next cp next reads =>
            dsimp only
            by_cases invalid : cp < (if length = 2 then 0x80 else if length = 3 then 0x800
                else 0x10000) ∨ (0xD800 ≤ cp ∧ cp ≤ 0xDFFF) ∨ 0x10FFFF < cp
            · exact .inl (if_pos invalid)
            · rw [if_neg invalid]
              exact .inr (character_of_continuation announced reads invalid)

/-- Where `utf8_is_well_formed_at` holds, the next character is well formed. -/
theorem wellFormed_of_wellFormedAt {src : List UInt8} (well : utf8IsWellFormedAt src = true) :
    ∃ text, src = text ++ (utf8NextCodepoint src).2 ∧ WellFormed text := by
  cases src with
  | nil => exact ⟨[], rfl, .nil⟩
  | cons b0 src =>
      rcases utf8NextCodepoint_character b0 src with replaced | ⟨character, split, isCharacter⟩
      · rw [utf8IsWellFormedAt, replaced] at well
        simp at well
      · exact ⟨character, split, .single isCharacter⟩

/-- A codepoint other than U+FFFD stands at a well-formed position. -/
theorem wellFormedAt_of_ne {src : List UInt8} (known : utf8PeekCodepoint src ≠ 0xFFFD) :
    utf8IsWellFormedAt src = true := by
  rw [utf8PeekCodepoint] at known
  simp [utf8IsWellFormedAt, known]

end Nazm.Unicode
