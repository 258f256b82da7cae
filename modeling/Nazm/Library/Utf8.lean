import Mathlib.Data.List.Basic

/-!
Well-formed UTF-8.

Owns the byte sequences of Table 3-7 of the Unicode standard, strings of them,
their scalar values, how such strings compose and come apart, and what remains
of one that is cut.

Does not own any decoder.
-/

namespace Utf8

/-- A continuation byte. -/
def Tail (byte : UInt8) : Prop := 0x80 ≤ byte ∧ byte ≤ 0xBF

instance (byte : UInt8) : Decidable (Tail byte) := inferInstanceAs (Decidable (_ ∧ _))

/-- The bytes of one character: the rows of Table 3-7. -/
inductive Character : List UInt8 → Prop where
  | ascii {a : UInt8} : a ≤ 0x7F → Character [a]
  | two {a b : UInt8} : 0xC2 ≤ a → a ≤ 0xDF → Tail b → Character [a, b]
  | afterE0 {b c : UInt8} : 0xA0 ≤ b → b ≤ 0xBF → Tail c → Character [0xE0, b, c]
  | three {a b c : UInt8} : 0xE1 ≤ a → a ≤ 0xEC → Tail b → Tail c → Character [a, b, c]
  | afterED {b c : UInt8} : 0x80 ≤ b → b ≤ 0x9F → Tail c → Character [0xED, b, c]
  | threeHigh {a b c : UInt8} : 0xEE ≤ a → a ≤ 0xEF → Tail b → Tail c → Character [a, b, c]
  | afterF0 {b c d : UInt8} : 0x90 ≤ b → b ≤ 0xBF → Tail c → Tail d → Character [0xF0, b, c, d]
  | four {a b c d : UInt8} :
      0xF1 ≤ a → a ≤ 0xF3 → Tail b → Tail c → Tail d → Character [a, b, c, d]
  | afterF4 {b c d : UInt8} : 0x80 ≤ b → b ≤ 0x8F → Tail c → Tail d → Character [0xF4, b, c, d]

/-- The scalar value of a character: its bits after the length marks. -/
def value : List UInt8 → Nat
  | [a] => a.toNat
  | [a, b] => 64 * (a.toNat % 32) + b.toNat % 64
  | [a, b, c] => 64 * (64 * (a.toNat % 16) + b.toNat % 64) + c.toNat % 64
  | [a, b, c, d] =>
      64 * (64 * (64 * (a.toNat % 8) + b.toNat % 64) + c.toNat % 64) + d.toNat % 64
  | _ => 0

/-- No character has the value of a surrogate or one above U+10FFFF. -/
theorem Character.isScalar {character : List UInt8} (isCharacter : Character character) :
    (value character).isValidChar := by
  cases isCharacter with
  | ascii greatest =>
      simp only [value, Nat.isValidChar, UInt8.le_iff_toNat_le, UInt8.reduceToNat] at greatest ⊢
      omega
  | two _ greatest tail =>
      simp only [value, Nat.isValidChar]
      omega
  | afterE0 least greatest tail =>
      simp only [value, Nat.isValidChar, UInt8.reduceToNat]
      omega
  | three least greatest tail last =>
      simp only [value, Nat.isValidChar, UInt8.le_iff_toNat_le, UInt8.reduceToNat] at least greatest ⊢
      omega
  | afterED least greatest last =>
      simp only [value, Nat.isValidChar, UInt8.le_iff_toNat_le, UInt8.reduceToNat] at least greatest ⊢
      omega
  | threeHigh least greatest tail last =>
      simp only [value, Nat.isValidChar, UInt8.le_iff_toNat_le, UInt8.reduceToNat] at least greatest ⊢
      omega
  | afterF0 least greatest third last =>
      simp only [value, Nat.isValidChar, UInt8.le_iff_toNat_le, UInt8.reduceToNat] at least greatest ⊢
      omega
  | four least greatest tail third last =>
      simp only [value, Nat.isValidChar, UInt8.le_iff_toNat_le, UInt8.reduceToNat, Tail]
        at least greatest tail ⊢
      omega
  | afterF4 least greatest third last =>
      simp only [value, Nat.isValidChar, UInt8.le_iff_toNat_le, UInt8.reduceToNat] at least greatest ⊢
      omega

/-- The length that the first byte of a character announces. -/
def announcedLength (lead : UInt8) : Nat :=
  if 0xF0 ≤ lead.toNat then 4
  else if 0xE0 ≤ lead.toNat then 3
  else if 0xC0 ≤ lead.toNat then 2
  else 1

/-- A character is a lead byte and as many continuation bytes as it announces. -/
theorem Character.shape {character : List UInt8} (isCharacter : Character character) :
    ∃ lead tails, character = lead :: tails ∧ ¬ Tail lead ∧ (∀ byte ∈ tails, Tail byte) ∧
      tails.length + 1 = announcedLength lead := by
  have wide : ∀ {least greatest byte : UInt8}, 0x80 ≤ least.toNat → greatest.toNat ≤ 0xBF →
      least ≤ byte → byte ≤ greatest → Tail byte := by
    intro least greatest byte low high fromLeast toGreatest
    simp only [Tail, UInt8.le_iff_toNat_le, UInt8.reduceToNat] at *
    omega
  cases isCharacter with
  | ascii greatest =>
      refine ⟨_, [], rfl, ?_, fun _ member => absurd member List.not_mem_nil, ?_⟩ <;>
        simp only [Tail, announcedLength, UInt8.le_iff_toNat_le, UInt8.reduceToNat,
          List.length_nil] at * <;> grind
  | two least greatest tail =>
      refine ⟨_, _, rfl, ?_, by simp only [List.forall_mem_singleton]; exact tail, ?_⟩ <;>
        simp only [Tail, announcedLength, UInt8.le_iff_toNat_le, UInt8.reduceToNat,
          List.length_singleton] at * <;> grind
  | afterE0 least greatest last =>
      exact ⟨_, _, rfl, by decide,
        by simpa using ⟨wide (by decide) (by decide) least greatest, last⟩, rfl⟩
  | three least greatest tail last =>
      refine ⟨_, _, rfl, ?_, by simpa using ⟨tail, last⟩, ?_⟩ <;>
        simp only [Tail, announcedLength, UInt8.le_iff_toNat_le, UInt8.reduceToNat,
          List.length_cons, List.length_nil] at * <;> grind
  | afterED least greatest last =>
      exact ⟨_, _, rfl, by decide,
        by simpa using ⟨wide (by decide) (by decide) least greatest, last⟩, rfl⟩
  | threeHigh least greatest tail last =>
      refine ⟨_, _, rfl, ?_, by simpa using ⟨tail, last⟩, ?_⟩ <;>
        simp only [Tail, announcedLength, UInt8.le_iff_toNat_le, UInt8.reduceToNat,
          List.length_cons, List.length_nil] at * <;> grind
  | afterF0 least greatest third last =>
      exact ⟨_, _, rfl, by decide,
        by simpa using ⟨wide (by decide) (by decide) least greatest, third, last⟩, rfl⟩
  | four least greatest tail third last =>
      refine ⟨_, _, rfl, ?_, by simpa using ⟨tail, third, last⟩, ?_⟩ <;>
        simp only [Tail, announcedLength, UInt8.le_iff_toNat_le, UInt8.reduceToNat,
          List.length_cons, List.length_nil] at * <;> grind
  | afterF4 least greatest third last =>
      exact ⟨_, _, rfl, by decide,
        by simpa using ⟨wide (by decide) (by decide) least greatest, third, last⟩, rfl⟩

theorem Character.ne_nil {character : List UInt8} (isCharacter : Character character) :
    character ≠ [] := by
  obtain ⟨lead, tails, rfl, -⟩ := isCharacter.shape
  exact List.cons_ne_nil _ _

/-- A text starts with at most one character. -/
theorem Character.append_inj {first second rest rest' : List UInt8} (one : Character first)
    (two : Character second) (same : first ++ rest = second ++ rest') :
    first = second ∧ rest = rest' := by
  refine List.append_inj same ?_
  obtain ⟨lead, tails, rfl, -, -, length⟩ := one.shape
  obtain ⟨lead', tails', rfl, -, -, length'⟩ := two.shape
  have sameLead : lead = lead' := (List.cons.inj same).1
  rw [List.length_cons, List.length_cons, length, length', sameLead]

/-- A string of characters. -/
inductive WellFormed : List UInt8 → Prop where
  | nil : WellFormed []
  | cons {character rest : List UInt8} :
      Character character → WellFormed rest → WellFormed (character ++ rest)

namespace WellFormed

theorem single {character : List UInt8} (isCharacter : Character character) :
    WellFormed character := by
  have one := cons isCharacter nil
  rwa [List.append_nil] at one

theorem append {first second : List UInt8} (one : WellFormed first) (two : WellFormed second) :
    WellFormed (first ++ second) := by
  induction one with
  | nil => exact two
  | cons isCharacter _ inductionHypothesis =>
      rw [List.append_assoc]
      exact cons isCharacter inductionHypothesis

theorem of_ascii {text : List UInt8} (ascii : ∀ byte ∈ text, byte ≤ 0x7F) : WellFormed text := by
  induction text with
  | nil => exact nil
  | cons byte text inductionHypothesis =>
      have rest := inductionHypothesis fun other member => ascii other (List.mem_cons_of_mem _ member)
      exact (single (.ascii (ascii byte List.mem_cons_self))).append rest

/-- A character in front of a string leaves a string. -/
theorem of_character_append {character rest : List UInt8} (isCharacter : Character character)
    (wellFormed : WellFormed (character ++ rest)) : WellFormed rest := by
  generalize isText : character ++ rest = text at wellFormed
  cases wellFormed with
  | nil => exact absurd (List.append_eq_nil_iff.mp isText).1 isCharacter.ne_nil
  | cons isOther isRest =>
      obtain ⟨-, rfl⟩ := isCharacter.append_inj isOther isText
      exact isRest

/-- A string in front of a string leaves a string. -/
theorem of_append {first second : List UInt8} (front : WellFormed first)
    (whole : WellFormed (first ++ second)) : WellFormed second := by
  induction front with
  | nil => exact whole
  | cons isCharacter _ inductionHypothesis =>
      rw [List.append_assoc] at whole
      exact inductionHypothesis (of_character_append isCharacter whole)

/-- The last character of a string. -/
theorem last {text : List UInt8} (wellFormed : WellFormed text) (some_ : text ≠ []) :
    ∃ front character, text = front ++ character ∧ Character character := by
  induction wellFormed with
  | nil => exact absurd rfl some_
  | @cons character rest isCharacter _ inductionHypothesis =>
      by_cases empty : rest = []
      · exact ⟨[], character, by rw [empty, List.append_nil]; rfl, isCharacter⟩
      · obtain ⟨front, final, rfl, isFinal⟩ := inductionHypothesis empty
        exact ⟨character ++ front, final, (List.append_assoc ..).symm, isFinal⟩

end WellFormed

/-! ## Encoding -/

theorem toNat_ofNat_small {n : Nat} (small : n < 256) : (UInt8.ofNat n).toNat = n := by
  rw [UInt8.toNat_ofNat']
  omega

/-- Six bits with the mark of a continuation byte. -/
theorem tail_ofNat (n : Nat) : Tail (UInt8.ofNat (n % 64 + 128)) := by
  simp only [Tail, UInt8.le_iff_toNat_le, UInt8.reduceToNat,
    toNat_ofNat_small (show n % 64 + 128 < 256 by omega)]
  omega

theorem between_ofNat {n : Nat} {least greatest : UInt8} (low : least.toNat ≤ n)
    (high : n ≤ greatest.toNat) : least ≤ UInt8.ofNat n ∧ UInt8.ofNat n ≤ greatest := by
  have bound := greatest.toNat_lt
  simp only [UInt8.le_iff_toNat_le, toNat_ofNat_small (show n < 256 by omega)]
  exact ⟨low, high⟩

/-- The encoding of a Unicode character is a character of Table 3-7. -/
theorem character_utf8EncodeChar (c : Char) : Character (String.utf8EncodeChar c) := by
  have valid : c.toNat.isValidChar := c.valid
  rw [Nat.isValidChar] at valid
  have same : c.val.toNat = c.toNat := rfl
  rw [String.utf8EncodeChar, same]
  generalize c.toNat = v at valid
  split
  · next one =>
      refine .ascii (@between_ofNat _ 0 _ (Nat.zero_le _) ?_).2
      exact one
  · split
    · have lead := @between_ofNat (v / 64 % 32 + 192) 0xC2 0xDF
        (by simp only [UInt8.reduceToNat]; omega) (by simp only [UInt8.reduceToNat]; omega)
      exact .two lead.1 lead.2 (tail_ofNat v)
    · split
      · by_cases isE0 : v / 4096 = 0
        · have second := @between_ofNat (v / 64 % 64 + 128) 0xA0 0xBF
            (by simp only [UInt8.reduceToNat]; omega) (by simp only [UInt8.reduceToNat]; omega)
          rw [isE0]
          exact .afterE0 second.1 second.2 (tail_ofNat v)
        · by_cases isED : v / 4096 = 13
          · have second := @between_ofNat (v / 64 % 64 + 128) 0x80 0x9F
              (by simp only [UInt8.reduceToNat]; omega) (by simp only [UInt8.reduceToNat]; omega)
            rw [isED]
            exact .afterED second.1 second.2 (tail_ofNat v)
          · by_cases low : v / 4096 < 13
            · have lead := @between_ofNat (v / 4096 % 16 + 224) 0xE1 0xEC
                (by simp only [UInt8.reduceToNat]; omega) (by simp only [UInt8.reduceToNat]; omega)
              exact .three lead.1 lead.2 (tail_ofNat _) (tail_ofNat v)
            · have lead := @between_ofNat (v / 4096 % 16 + 224) 0xEE 0xEF
                (by simp only [UInt8.reduceToNat]; omega) (by simp only [UInt8.reduceToNat]; omega)
              exact .threeHigh lead.1 lead.2 (tail_ofNat _) (tail_ofNat v)
      · by_cases isF0 : v / 262144 = 0
        · have second := @between_ofNat (v / 4096 % 64 + 128) 0x90 0xBF
            (by simp only [UInt8.reduceToNat]; omega) (by simp only [UInt8.reduceToNat]; omega)
          rw [isF0]
          exact .afterF0 second.1 second.2 (tail_ofNat _) (tail_ofNat v)
        · by_cases isF4 : v / 262144 = 4
          · have second := @between_ofNat (v / 4096 % 64 + 128) 0x80 0x8F
              (by simp only [UInt8.reduceToNat]; omega) (by simp only [UInt8.reduceToNat]; omega)
            rw [isF4]
            exact .afterF4 second.1 second.2 (tail_ofNat _) (tail_ofNat v)
          · have lead := @between_ofNat (v / 262144 % 8 + 240) 0xF1 0xF3
              (by simp only [UInt8.reduceToNat]; omega) (by simp only [UInt8.reduceToNat]; omega)
            exact .four lead.1 lead.2 (tail_ofNat _) (tail_ofNat _) (tail_ofNat v)

/-- A character is the encoding of its scalar value. -/
theorem Character.eq_utf8EncodeChar {character : List UInt8} (isCharacter : Character character) :
    character = String.utf8EncodeChar (Char.ofNat (value character)) := by
  have decoded : (Char.ofNat (value character)).val.toNat = value character := by
    rw [Char.ofNat, dif_pos isCharacter.isScalar]
    rfl
  have byte : ∀ {b : UInt8} {n : Nat}, b.toNat = n → b = UInt8.ofNat n := by
    rintro b n rfl
    exact UInt8.ofNat_toNat.symm
  have two : ∀ {a b : UInt8} {n : Nat}, 0x7F < n → n ≤ 0x7FF → a.toNat = n / 64 % 32 + 192 →
      b.toNat = n % 64 + 128 → n = (Char.ofNat (value character)).val.toNat →
      [a, b] = String.utf8EncodeChar (Char.ofNat (value character)) := by
    rintro a b n least greatest isA isB rfl
    rw [String.utf8EncodeChar, if_neg (by omega), if_pos (by omega), ← byte isA, ← byte isB]
  have three : ∀ {a b c : UInt8} {n : Nat}, 0x7FF < n → n ≤ 0xFFFF →
      a.toNat = n / 4096 % 16 + 224 → b.toNat = n / 64 % 64 + 128 → c.toNat = n % 64 + 128 →
      n = (Char.ofNat (value character)).val.toNat →
      [a, b, c] = String.utf8EncodeChar (Char.ofNat (value character)) := by
    rintro a b c n least greatest isA isB isC rfl
    rw [String.utf8EncodeChar, if_neg (by omega), if_neg (by omega), if_pos (by omega), ← byte isA,
      ← byte isB, ← byte isC]
  have four : ∀ {a b c d : UInt8} {n : Nat}, 0xFFFF < n →
      a.toNat = n / 262144 % 8 + 240 → b.toNat = n / 4096 % 64 + 128 →
      c.toNat = n / 64 % 64 + 128 → d.toNat = n % 64 + 128 →
      n = (Char.ofNat (value character)).val.toNat →
      [a, b, c, d] = String.utf8EncodeChar (Char.ofNat (value character)) := by
    rintro a b c d n least isA isB isC isD rfl
    rw [String.utf8EncodeChar, if_neg (by omega), if_neg (by omega), if_neg (by omega), ← byte isA,
      ← byte isB, ← byte isC, ← byte isD]
  cases isCharacter with
  | @ascii a greatest =>
      simp only [UInt8.le_iff_toNat_le, UInt8.reduceToNat] at greatest
      rw [value] at decoded
      rw [value, String.utf8EncodeChar, if_pos (by omega), decoded, UInt8.ofNat_toNat]
  | two least greatest tail =>
      simp only [UInt8.le_iff_toNat_le, UInt8.reduceToNat, Tail] at least greatest tail
      refine two ?_ ?_ ?_ ?_ decoded.symm <;> simp only [value] <;> omega
  | afterE0 least greatest last =>
      simp only [UInt8.le_iff_toNat_le, UInt8.reduceToNat, Tail] at least greatest last
      refine three ?_ ?_ ?_ ?_ ?_ decoded.symm <;> simp only [value, UInt8.reduceToNat] <;> omega
  | three least greatest tail last =>
      simp only [UInt8.le_iff_toNat_le, UInt8.reduceToNat, Tail] at least greatest tail last
      refine three ?_ ?_ ?_ ?_ ?_ decoded.symm <;> simp only [value] <;> omega
  | afterED least greatest last =>
      simp only [UInt8.le_iff_toNat_le, UInt8.reduceToNat, Tail] at least greatest last
      refine three ?_ ?_ ?_ ?_ ?_ decoded.symm <;> simp only [value, UInt8.reduceToNat] <;> omega
  | threeHigh least greatest tail last =>
      simp only [UInt8.le_iff_toNat_le, UInt8.reduceToNat, Tail] at least greatest tail last
      refine three ?_ ?_ ?_ ?_ ?_ decoded.symm <;> simp only [value] <;> omega
  | afterF0 least greatest third last =>
      simp only [UInt8.le_iff_toNat_le, UInt8.reduceToNat, Tail] at least greatest third last
      refine four ?_ ?_ ?_ ?_ ?_ decoded.symm <;> simp only [value, UInt8.reduceToNat] <;> omega
  | four least greatest tail third last =>
      simp only [UInt8.le_iff_toNat_le, UInt8.reduceToNat, Tail] at least greatest tail third last
      refine four ?_ ?_ ?_ ?_ ?_ decoded.symm <;> simp only [value] <;> omega
  | afterF4 least greatest third last =>
      simp only [UInt8.le_iff_toNat_le, UInt8.reduceToNat, Tail] at least greatest third last
      refine four ?_ ?_ ?_ ?_ ?_ decoded.symm <;> simp only [value, UInt8.reduceToNat] <;> omega

/-- Characters with one scalar value are one. -/
theorem Character.value_inj {first second : List UInt8} (one : Character first)
    (two : Character second) (same : value first = value second) : first = second := by
  rw [one.eq_utf8EncodeChar, two.eq_utf8EncodeChar, same]

/-! ## Cut strings -/

/-- A string, and the first bytes of one more character or nothing. -/
structure Cut (text whole broken : List UInt8) : Prop where
  split : text = whole ++ broken
  wellFormed : WellFormed whole
  front : broken = [] ∨ ∃ missing, broken ≠ [] ∧ missing ≠ [] ∧ Character (broken ++ missing)

/-- A string can be cut anywhere. -/
theorem WellFormed.cut {text : List UInt8} (wellFormed : WellFormed text) (length : Nat) :
    ∃ whole broken, Cut (text.take length) whole broken := by
  induction wellFormed generalizing length with
  | nil => exact ⟨[], [], by rw [List.take_nil]; rfl, .nil, .inl rfl⟩
  | @cons character rest isCharacter _ inductionHypothesis =>
      by_cases inside : length < character.length
      · refine ⟨[], character.take length, ?_, .nil, ?_⟩
        · rw [List.take_append_of_le_length (by omega)]
          rfl
        · by_cases none : length = 0
          · exact .inl (by rw [none, List.take_zero])
          · refine .inr ⟨character.drop length, fun empty => ?_, fun empty => ?_, ?_⟩
            · rcases List.take_eq_nil_iff.mp empty with zero | nil
              · exact none zero
              · exact isCharacter.ne_nil nil
            · have pastEnd := List.drop_eq_nil_iff.mp empty
              omega
            · rwa [List.take_append_drop]
      · obtain ⟨whole, broken, split, isWhole, front⟩ := inductionHypothesis (length - character.length)
        refine ⟨character ++ whole, broken, ?_, .cons isCharacter isWhole, front⟩
        rw [List.take_append, List.take_of_length_le (by omega), split, List.append_assoc]

/-- The string in front of a cut is the longest. -/
theorem Cut.longest {text whole broken : List UInt8} (cut : Cut text whole broken) {length : Nat}
    (inside : length ≤ text.length) (wellFormed : WellFormed (text.take length)) :
    length ≤ whole.length := by
  by_contra longer
  obtain ⟨rfl, isWhole, front⟩ := cut
  rw [List.length_append] at inside
  rw [List.take_append, List.take_of_length_le (by omega)] at wellFormed
  have isBroken := isWhole.of_append wellFormed
  rcases front with rfl | ⟨missing, -, some_, isCharacter⟩
  · rw [List.length_nil] at inside
    omega
  · generalize isText : broken.take (length - whole.length) = shorter at isBroken
    have size := congrArg List.length isText
    rw [List.length_take] at size
    cases isBroken with
    | nil =>
        rw [List.length_nil] at size
        omega
    | @cons character rest isOther _ =>
        have same : broken ++ missing ++ [] =
            character ++ (rest ++ broken.drop (length - whole.length) ++ missing) := by
          rw [List.append_nil, ← List.append_assoc, ← List.append_assoc, ← isText,
            List.take_append_drop]
        have equal := congrArg List.length (isCharacter.append_inj isOther same).1
        have more := List.length_pos_iff.mpr some_
        rw [List.length_append] at equal size
        omega

end Utf8
