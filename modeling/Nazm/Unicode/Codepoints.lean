import Nazm.Unicode.WellFormed

/-!
Texts as codepoints.

Owns the bytes of one codepoint, whatever follows them, texts as lists of
codepoints, and that well-formed UTF-8 is such a text.

Does not own what a codepoint means.
-/

namespace Nazm.Unicode

open Utf8

/-! ## One codepoint -/

/-- Bytes that decode to a codepoint, whatever follows, and are no replacement
for an ill-formed byte. -/
structure Encodes (bytes : List UInt8) (cp : Nat) : Prop where
  nonempty : bytes ≠ []
  decodes : ∀ rest, utf8NextCodepoint (bytes ++ rest) = (cp, rest)
  known : cp ≠ 0xFFFD ∨ bytes.length = 3

theorem Encodes.peek {bytes : List UInt8} {cp : Nat} (encodes : Encodes bytes cp)
    (rest : List UInt8) : utf8PeekCodepoint (bytes ++ rest) = cp := by
  rw [utf8PeekCodepoint, encodes.decodes]

theorem Encodes.wellFormedAt {bytes : List UInt8} {cp : Nat} (encodes : Encodes bytes cp)
    (rest : List UInt8) : utf8IsWellFormedAt (bytes ++ rest) = true := by
  rw [utf8IsWellFormedAt, encodes.decodes]
  dsimp only
  rcases encodes.known with known | three
  · simp [known]
  · simp [three]

theorem Encodes.ascii {byte : UInt8} (small : byte.toNat < 0x80) : Encodes [byte] byte.toNat where
  nonempty := List.cons_ne_nil _ _
  decodes rest := if_pos small
  known := .inl (by omega)

theorem Encodes.byte (byte : UInt8) (small : byte.toNat < 0x80) : Encodes [byte] byte.toNat :=
  .ascii small

/-- A codepoint below 0x80 is one byte. -/
theorem Encodes.eq_ascii {bytes : List UInt8} {cp : Nat} (encodes : Encodes bytes cp)
    (small : cp < 0x80) : bytes = [UInt8.ofNat cp] := by
  obtain ⟨b0, src, rfl⟩ := List.exists_cons_of_ne_nil encodes.nonempty
  have decoded := encodes.decodes []
  rw [List.append_nil, utf8NextCodepoint] at decoded
  split at decoded
  · obtain ⟨rfl, rfl⟩ := Prod.mk.inj decoded
    rw [UInt8.ofNat_toNat]
  · exfalso
    grind

theorem length_of_continuation {count cp last : Nat} {src next : List UInt8}
    (reads : continuation count cp src = some (last, next)) :
    src.length = count + next.length := by
  induction count generalizing cp src with
  | zero =>
      obtain ⟨-, rfl⟩ := continuation_zero reads
      omega
  | succ count inductionHypothesis =>
      obtain ⟨b, rest, rfl, -, reads⟩ := continuation_succ reads
      rw [List.length_cons, inductionHypothesis reads]
      omega

/-- A continuation reads no further than its bytes. -/
theorem continuation_local {count cp last : Nat} {bytes next : List UInt8}
    (reads : continuation count cp (bytes ++ next) = some (last, next)) (rest : List UInt8) :
    continuation count cp (bytes ++ rest) = some (last, rest) := by
  induction count generalizing cp bytes with
  | zero =>
      obtain ⟨rfl, same⟩ := continuation_zero reads
      have empty : bytes = [] := by
        have length := congrArg List.length same
        rw [List.length_append] at length
        exact List.length_eq_zero_iff.mp (by omega)
      rw [empty]
      rfl
  | succ count inductionHypothesis =>
      cases bytes with
      | nil =>
          have length := length_of_continuation reads
          rw [List.nil_append] at length
          omega
      | cons b bytes =>
          rw [List.cons_append, continuation] at reads ⊢
          split at reads
          · contradiction
          · next continues =>
              rw [if_neg continues]
              exact inductionHypothesis reads

/-- At a well-formed position stands a codepoint. -/
theorem encodes_of_wellFormedAt {src : List UInt8} (unread : src ≠ [])
    (well : utf8IsWellFormedAt src = true) :
    ∃ bytes, src = bytes ++ (utf8NextCodepoint src).2 ∧ Encodes bytes (utf8NextCodepoint src).1 := by
  obtain ⟨b0, src, rfl⟩ := List.exists_cons_of_ne_nil unread
  unfold utf8IsWellFormedAt at well
  rw [utf8NextCodepoint] at well ⊢
  split
  · next small => exact ⟨[b0], rfl, .ascii small⟩
  · next large =>
      rw [if_neg large] at well
      split
      · next announced => simp [announced] at well
      · next length bits announced =>
          simp only [announced] at well
          split
          · next reads => simp [reads] at well
          · next cp next reads =>
              simp only [reads] at well
              dsimp only
              by_cases invalid : cp < (if length = 2 then 0x80 else if length = 3 then 0x800
                  else 0x10000) ∨ (0xD800 ≤ cp ∧ cp ≤ 0xDFFF) ∨ 0x10FFFF < cp
              · rw [if_pos invalid] at well
                simp at well
              · rw [if_neg invalid] at well ⊢
                obtain ⟨character, split, -⟩ := character_of_continuation announced reads invalid
                have longer := length_of_continuation reads
                obtain ⟨bytes, rfl⟩ : ∃ bytes, character = b0 :: bytes := by
                  cases character with
                  | nil =>
                      rw [List.nil_append] at split
                      rw [← split, List.length_cons] at longer
                      omega
                  | cons b bytes => exact ⟨bytes, by rw [(List.cons.inj split).1]⟩
                have tail : src = bytes ++ next := (List.cons.inj split).2
                refine ⟨b0 :: bytes, split, List.cons_ne_nil _ _, fun rest => ?_, ?_⟩
                · rw [tail] at reads
                  rw [List.cons_append, utf8NextCodepoint, if_neg large, announced]
                  dsimp only
                  rw [continuation_local reads rest]
                  exact if_neg invalid
                · dsimp only at well
                  rw [tail, Bool.or_eq_true, decide_eq_true_eq, decide_eq_true_eq,
                    List.length_cons, List.length_append] at well
                  rw [List.length_cons]
                  omega

/-! ## Characters -/

theorem continuation_tail {count cp : Nat} {b : UInt8} (tail : Tail b) (rest : List UInt8) :
    continuation (count + 1) cp (b :: rest) =
      continuation count (64 * cp + b.toNat % 64) rest := by
  have table : ∀ b : Fin 256, 0x80 ≤ b.val → b.val ≤ 0xBF → b.val &&& 0xC0 = 0x80 := by
    decide +kernel
  have continues := table ⟨b.toNat, b.toNat_lt⟩ (UInt8.le_iff_toNat_le.mp tail.1)
    (UInt8.le_iff_toNat_le.mp tail.2)
  rw [continuation, if_neg (not_not.mpr continues), continued_bits]

/-- A lead byte and what it announces. -/
theorem encodes_of_sequence {b0 : UInt8} {tail : List UInt8} {length bits cp : Nat}
    (large : 0x80 ≤ b0.toNat) (announced : leadByte b0.toNat = some (length, bits))
    (reads : ∀ rest, continuation (length - 1) bits (tail ++ rest) = some (cp, rest))
    (valid : ¬(cp < (if length = 2 then 0x80 else if length = 3 then 0x800 else 0x10000) ∨
      (0xD800 ≤ cp ∧ cp ≤ 0xDFFF) ∨ 0x10FFFF < cp))
    (known : cp ≠ 0xFFFD ∨ tail.length = 2) : Encodes (b0 :: tail) cp where
  nonempty := List.cons_ne_nil _ _
  decodes rest := by
    rw [List.cons_append, utf8NextCodepoint, if_neg (by omega), announced]
    dsimp only
    rw [reads rest]
    exact if_neg valid
  known := by rwa [List.length_cons, Nat.add_right_cancel_iff]

theorem leadByte_two {b0 : Nat} (least : 0xC2 ≤ b0) (greatest : b0 ≤ 0xDF) :
    leadByte b0 = some (2, b0 % 32) := by
  rw [leadByte, if_pos ⟨least, greatest⟩, lead_bits 5 (show 0x1F = 2 ^ 5 - 1 from rfl)]
  rfl

theorem leadByte_three {b0 : Nat} (least : 0xE0 ≤ b0) (greatest : b0 ≤ 0xEF) :
    leadByte b0 = some (3, b0 % 16) := by
  rw [leadByte, if_neg (by omega), if_pos ⟨least, greatest⟩,
    lead_bits 4 (show 0x0F = 2 ^ 4 - 1 from rfl)]
  rfl

theorem leadByte_four {b0 : Nat} (least : 0xF0 ≤ b0) (greatest : b0 ≤ 0xF4) :
    leadByte b0 = some (4, b0 % 8) := by
  rw [leadByte, if_neg (by omega), if_neg (by omega), if_pos ⟨least, greatest⟩,
    lead_bits 3 (show 0x07 = 2 ^ 3 - 1 from rfl)]
  rfl

/-- Three bytes of a character, by the value they have. -/
theorem encodes_three {a b c : UInt8} (least : 0xE0 ≤ a.toNat) (greatest : a.toNat ≤ 0xEF)
    (second : Tail b) (third : Tail c)
    (valid : 0x800 ≤ 64 * (64 * (a.toNat % 16) + b.toNat % 64) + c.toNat % 64 ∧
      ¬(0xD800 ≤ 64 * (64 * (a.toNat % 16) + b.toNat % 64) + c.toNat % 64 ∧
        64 * (64 * (a.toNat % 16) + b.toNat % 64) + c.toNat % 64 ≤ 0xDFFF)) :
    Encodes [a, b, c] (value [a, b, c]) := by
  refine encodes_of_sequence (by omega) (leadByte_three least greatest) (fun rest => ?_) ?_
    (.inr rfl)
  · rw [List.cons_append, continuation_tail second, List.cons_append, continuation_tail third]
    rfl
  · rw [if_neg (by decide), if_pos rfl]
    simp only [value]
    omega

/-- Four bytes of a character, by the value they have. -/
theorem encodes_four {a b c d : UInt8} (least : 0xF0 ≤ a.toNat) (greatest : a.toNat ≤ 0xF4)
    (second : Tail b) (third : Tail c) (fourth : Tail d)
    (valid : 0x10 ≤ 64 * (a.toNat % 8) + b.toNat % 64 ∧
      64 * (a.toNat % 8) + b.toNat % 64 < 0x110) :
    Encodes [a, b, c, d] (value [a, b, c, d]) := by
  refine encodes_of_sequence (by omega) (leadByte_four least greatest) (fun rest => ?_) ?_ (.inl ?_)
  · rw [List.cons_append, continuation_tail second, List.cons_append, continuation_tail third,
      List.cons_append, continuation_tail fourth]
    rfl
  · rw [if_neg (by decide), if_neg (by decide)]
    simp only [value]
    omega
  · simp only [value]
    omega

/-- Every character of Table 3-7 encodes its scalar value. -/
theorem encodes_of_character {bytes : List UInt8} (isCharacter : Character bytes) :
    Encodes bytes (value bytes) := by
  have bounds : ∀ {b : UInt8}, Tail b → 0x80 ≤ b.toNat ∧ b.toNat ≤ 0xBF :=
    fun ⟨least, greatest⟩ =>
      ⟨UInt8.le_iff_toNat_le.mp least, UInt8.le_iff_toNat_le.mp greatest⟩
  cases isCharacter with
  | ascii small =>
      exact .ascii (Nat.lt_succ_of_le (UInt8.le_iff_toNat_le.mp small))
  | @two a b least greatest second =>
      have least := UInt8.le_iff_toNat_le.mp least
      have greatest := UInt8.le_iff_toNat_le.mp greatest
      simp only [UInt8.reduceToNat] at least greatest
      refine encodes_of_sequence (by omega) (leadByte_two least greatest)
        (fun rest => continuation_tail second rest) ?_ (.inl ?_)
      · rw [if_pos rfl]
        simp only [value]
        omega
      · simp only [value]
        omega
  | @afterE0 b c least greatest third =>
      have least := UInt8.le_iff_toNat_le.mp least
      have greatest := UInt8.le_iff_toNat_le.mp greatest
      simp only [UInt8.reduceToNat] at least greatest
      have second : Tail b := ⟨UInt8.le_iff_toNat_le.mpr (by simp; omega),
        UInt8.le_iff_toNat_le.mpr (by simpa using greatest)⟩
      exact encodes_three (by decide) (by decide) second third
        (by simp only [UInt8.reduceToNat]; omega)
  | @three a b c least greatest second third =>
      have least := UInt8.le_iff_toNat_le.mp least
      have greatest := UInt8.le_iff_toNat_le.mp greatest
      simp only [UInt8.reduceToNat] at least greatest
      have range := bounds second
      exact encodes_three (by omega) (by omega) second third (by omega)
  | @afterED b c least greatest third =>
      have least := UInt8.le_iff_toNat_le.mp least
      have greatest := UInt8.le_iff_toNat_le.mp greatest
      simp only [UInt8.reduceToNat] at least greatest
      have second : Tail b := ⟨UInt8.le_iff_toNat_le.mpr (by simpa using least),
        UInt8.le_iff_toNat_le.mpr (by simp; omega)⟩
      exact encodes_three (by decide) (by decide) second third
        (by simp only [UInt8.reduceToNat]; omega)
  | @threeHigh a b c least greatest second third =>
      have least := UInt8.le_iff_toNat_le.mp least
      have greatest := UInt8.le_iff_toNat_le.mp greatest
      simp only [UInt8.reduceToNat] at least greatest
      have range := bounds second
      exact encodes_three (by omega) (by omega) second third (by omega)
  | @afterF0 b c d least greatest third fourth =>
      have least := UInt8.le_iff_toNat_le.mp least
      have greatest := UInt8.le_iff_toNat_le.mp greatest
      simp only [UInt8.reduceToNat] at least greatest
      have second : Tail b := ⟨UInt8.le_iff_toNat_le.mpr (by simp; omega),
        UInt8.le_iff_toNat_le.mpr (by simpa using greatest)⟩
      exact encodes_four (by decide) (by decide) second third fourth
        (by simp only [UInt8.reduceToNat]; omega)
  | @four a b c d least greatest second third fourth =>
      have least := UInt8.le_iff_toNat_le.mp least
      have greatest := UInt8.le_iff_toNat_le.mp greatest
      simp only [UInt8.reduceToNat] at least greatest
      have range := bounds second
      exact encodes_four (by omega) (by omega) second third fourth (by omega)
  | @afterF4 b c d least greatest third fourth =>
      have least := UInt8.le_iff_toNat_le.mp least
      have greatest := UInt8.le_iff_toNat_le.mp greatest
      simp only [UInt8.reduceToNat] at least greatest
      have second : Tail b := ⟨UInt8.le_iff_toNat_le.mpr (by simpa using least),
        UInt8.le_iff_toNat_le.mpr (by simp; omega)⟩
      exact encodes_four (by decide) (by decide) second third fourth
        (by simp only [UInt8.reduceToNat]; omega)

/-- Bytes that encode a codepoint are the character of its value. -/
theorem Encodes.character {bytes : List UInt8} {cp : Nat} (encodes : Encodes bytes cp) :
    Character bytes ∧ value bytes = cp := by
  obtain ⟨b0, src, rfl⟩ := List.exists_cons_of_ne_nil encodes.nonempty
  have decoded := encodes.decodes []
  rw [List.append_nil] at decoded
  rcases utf8NextCodepoint_character b0 src with replaced | ⟨character, split, isCharacter⟩
  · rw [decoded] at replaced
    obtain ⟨isReplaced, empty⟩ := Prod.mk.inj replaced
    rcases encodes.known with known | three
    · exact absurd isReplaced known
    · rw [← empty, List.length_singleton] at three
      omega
  · rw [decoded, List.append_nil] at split
    rw [split] at decoded ⊢
    have reads := (encodes_of_character isCharacter).decodes []
    rw [List.append_nil, decoded] at reads
    exact ⟨isCharacter, (Prod.mk.inj reads).1.symm⟩

/-- A codepoint has one encoding. -/
theorem Encodes.inj {first second : List UInt8} {cp : Nat} (one : Encodes first cp)
    (two : Encodes second cp) : first = second :=
  one.character.1.value_inj two.character.1 (one.character.2.trans two.character.2.symm)

/-! ## Texts -/

/-- The bytes of a list of codepoints. -/
inductive Codepoints : List UInt8 → List Nat → Prop where
  | nil : Codepoints [] []
  | cons {bytes text : List UInt8} {cp : Nat} {cps : List Nat} :
      Encodes bytes cp → Codepoints text cps → Codepoints (bytes ++ text) (cp :: cps)

namespace Codepoints

theorem single {bytes : List UInt8} {cp : Nat} (encodes : Encodes bytes cp) :
    Codepoints bytes [cp] := by
  have one := cons encodes nil
  rwa [List.append_nil] at one

theorem append {first second : List UInt8} {one two : List Nat} (front : Codepoints first one)
    (back : Codepoints second two) : Codepoints (first ++ second) (one ++ two) := by
  induction front with
  | nil => exact back
  | cons encodes _ inductionHypothesis =>
      rw [List.append_assoc]
      exact cons encodes inductionHypothesis

variable {text : List UInt8} {cp : Nat} {cps : List Nat}

theorem eq_nil (isText : Codepoints text []) : text = [] := by
  cases isText
  rfl

theorem split (isText : Codepoints text (cp :: cps)) :
    ∃ bytes rest, text = bytes ++ rest ∧ Encodes bytes cp ∧ Codepoints rest cps := by
  cases isText with
  | cons encodes rest => exact ⟨_, _, rfl, encodes, rest⟩

/-- The decoder reads the first codepoint. -/
theorem decodes (isText : Codepoints text (cp :: cps)) :
    ∃ bytes, text = bytes ++ (utf8NextCodepoint text).2 ∧ Encodes bytes cp ∧
      (utf8NextCodepoint text).1 = cp ∧ Codepoints (utf8NextCodepoint text).2 cps := by
  obtain ⟨bytes, rest, rfl, encodes, isRest⟩ := isText.split
  rw [encodes.decodes]
  exact ⟨bytes, rfl, encodes, rfl, isRest⟩

theorem length_le (isText : Codepoints text cps) : cps.length ≤ text.length := by
  induction isText with
  | nil => exact Nat.le_refl _
  | cons encodes _ inductionHypothesis =>
      have some_ := List.length_pos_iff.mpr encodes.nonempty
      rw [List.length_cons, List.length_append]
      omega

end Codepoints

/-- Well-formed UTF-8 is a text of codepoints. -/
theorem codepoints_of_wellFormed {text : List UInt8} (well : WellFormed text) :
    ∃ cps, Codepoints text cps := by
  induction well with
  | nil => exact ⟨[], .nil⟩
  | cons isCharacter _ inductionHypothesis =>
      obtain ⟨cps, isText⟩ := inductionHypothesis
      exact ⟨_, .cons (encodes_of_character isCharacter) isText⟩

/-! ## Bytes below 0x80 -/

theorem tails_of_continuation {count cp last : Nat} {bytes : List UInt8}
    (reads : continuation count cp bytes = some (last, [])) : ∀ b ∈ bytes, Tail b := by
  induction count generalizing cp bytes with
  | zero =>
      obtain ⟨-, empty⟩ := continuation_zero reads
      rw [← empty]
      exact fun _ member => absurd member List.not_mem_nil
  | succ count inductionHypothesis =>
      obtain ⟨b, rest, rfl, tail, reads⟩ := continuation_succ reads
      exact List.forall_mem_cons.mpr ⟨tail, inductionHypothesis reads⟩

/-- Only codepoints below 0x80 have bytes below 0x80. -/
theorem Encodes.eq_of_mem {bytes : List UInt8} {cp : Nat} {byte : UInt8}
    (encodes : Encodes bytes cp) (member : byte ∈ bytes) (small : byte.toNat < 0x80) :
    bytes = [byte] ∧ cp = byte.toNat := by
  obtain ⟨b0, tail, rfl⟩ := List.exists_cons_of_ne_nil encodes.nonempty
  have decoded := encodes.decodes []
  rw [List.append_nil, utf8NextCodepoint] at decoded
  -- without a tail the lead byte is all there is
  have alone : tail = [] → [b0] = [byte] ∧ b0.toNat = byte.toNat := by
    rintro rfl
    rw [List.mem_singleton.mp member]
    exact ⟨rfl, rfl⟩
  split at decoded
  · obtain ⟨rfl, rfl⟩ := Prod.mk.inj decoded
    exact ⟨(alone rfl).1, (alone rfl).2⟩
  · next large =>
      have notTail : ¬ ∀ b ∈ tail, Tail b := fun tails => by
        rcases List.mem_cons.mp member with rfl | inTail
        · exact large small
        · have least := UInt8.le_iff_toNat_le.mp (tails byte inTail).1
          simp only [UInt8.reduceToNat] at least
          omega
      have notEmpty : tail ≠ [] := fun empty =>
        notTail (by rw [empty]; exact fun _ inNil => absurd inNil List.not_mem_nil)
      split at decoded
      · exact absurd (Prod.mk.inj decoded).2 notEmpty
      · split at decoded
        · exact absurd (Prod.mk.inj decoded).2 notEmpty
        · next reads =>
            rcases ite_eq_iff.mp decoded with ⟨-, replaced⟩ | ⟨-, read⟩
            · exact absurd (Prod.mk.inj replaced).2 notEmpty
            · rw [(Prod.mk.inj read).2] at reads
              exact absurd (tails_of_continuation reads) notTail

namespace Codepoints

variable {text front back : List UInt8} {cps used : List Nat} {byte : UInt8}

theorem mem_of_byte (isText : Codepoints text cps) (member : byte ∈ text)
    (small : byte.toNat < 0x80) : byte.toNat ∈ cps := by
  induction isText with
  | nil => exact absurd member List.not_mem_nil
  | cons encodes _ inductionHypothesis =>
      rcases List.mem_append.mp member with here | later
      · rw [(encodes.eq_of_mem here small).2]
        exact List.mem_cons_self
      · exact List.mem_cons_of_mem _ (inductionHypothesis later)

theorem byte_of_mem (isText : Codepoints text cps) (member : byte.toNat ∈ cps)
    (small : byte.toNat < 0x80) : byte ∈ text := by
  induction isText with
  | nil => exact absurd member List.not_mem_nil
  | cons encodes _ inductionHypothesis =>
      rcases List.mem_cons.mp member with here | later
      · rw [← here] at encodes
        rw [encodes.eq_ascii small, UInt8.ofNat_toNat]
        exact List.mem_append_left _ (List.mem_singleton_self _)
      · exact List.mem_append_right _ (inductionHypothesis later)

theorem no_newline (isText : Codepoints text cps) (oneLine : 0x0A ∉ text) : 0x0A ∉ cps :=
  fun member => oneLine (isText.byte_of_mem (show (0x0A : UInt8).toNat ∈ cps from member) (by decide))

/-- A text splits before a byte below 0x80. -/
theorem split_byte (isText : Codepoints (front ++ byte :: back) cps)
    (small : byte.toNat < 0x80) :
    ∃ before after, cps = before ++ after ∧ Codepoints front before ∧
      Codepoints (byte :: back) after := by
  generalize whole : front ++ byte :: back = text at isText
  induction isText generalizing front with
  | nil => exact absurd whole (by simp)
  | @cons bytes text cp cps encodes isText inductionHypothesis =>
      rcases List.append_eq_append_iff.mp whole with ⟨more, rfl, same⟩ | ⟨more, rfl, same⟩
      · by_cases empty : more = []
        · rw [empty, List.nil_append] at same
          rw [empty, List.append_nil] at encodes
          exact ⟨[cp], cps, rfl, .single encodes, same ▸ isText⟩
        · obtain ⟨first, more, rfl⟩ := List.exists_cons_of_ne_nil empty
          obtain ⟨rfl, rfl⟩ := List.cons.inj same
          obtain ⟨alone, -⟩ := encodes.eq_of_mem (show byte ∈ front ++ byte :: more by simp) small
          have front_nil : front = [] := by
            have length := congrArg List.length alone
            rw [List.length_append, List.length_cons, List.length_singleton] at length
            exact List.length_eq_zero_iff.mp (by omega)
          rw [front_nil, List.nil_append] at encodes
          exact ⟨[], cp :: cps, rfl, front_nil ▸ .nil, .cons encodes isText⟩
      · obtain ⟨before, after, rfl, isFront, isBack⟩ := inductionHypothesis same.symm
        exact ⟨cp :: before, after, rfl, .cons encodes isFront, isBack⟩

/-- What follows a text in a text is a text. -/
theorem cancel (isFront : Codepoints front used) (isText : Codepoints (front ++ back) cps) :
    ∃ left, cps = used ++ left ∧ Codepoints back left := by
  induction isFront generalizing cps with
  | nil => exact ⟨cps, rfl, isText⟩
  | @cons bytes text cp used encodes _ inductionHypothesis =>
      have whole : bytes ++ text ++ back = bytes ++ (text ++ back) := List.append_assoc ..
      rw [whole] at isText
      cases cps with
      | nil =>
          have empty := isText.eq_nil
          exact absurd (List.append_eq_nil_iff.mp empty).1 encodes.nonempty
      | cons first cps =>
          obtain ⟨-, -, -, isFirst, isRest⟩ := isText.decodes
          rw [encodes.decodes] at isFirst isRest
          obtain ⟨left, rfl, isBack⟩ := inductionHypothesis isRest
          exact ⟨left, by rw [← isFirst]; rfl, isBack⟩

end Codepoints

/-! ## Decoding -/

/-- The codepoints of a text, if it has any. -/
def codepoints? : Nat → List UInt8 → Option (List Nat)
  | 0, text => if text.isEmpty then some [] else none
  | fuel + 1, text =>
      if text.isEmpty then some []
      else if utf8IsWellFormedAt text then
        (codepoints? fuel (utf8NextCodepoint text).2).map ((utf8NextCodepoint text).1 :: ·)
      else none

theorem codepoints?_sound {fuel : Nat} {text : List UInt8} {cps : List Nat}
    (decoded : codepoints? fuel text = some cps) : Codepoints text cps := by
  induction fuel generalizing text cps with
  | zero =>
      rw [codepoints?, Option.ite_some_none_eq_some, List.isEmpty_iff] at decoded
      obtain ⟨rfl, rfl⟩ := decoded
      exact .nil
  | succ fuel inductionHypothesis =>
      rw [codepoints?] at decoded
      split at decoded
      · next empty =>
          rw [List.isEmpty_iff.mp empty, ← Option.some.inj decoded]
          exact .nil
      · next unread =>
          split at decoded
          · next well =>
              obtain ⟨rest, isRest, rfl⟩ := Option.map_eq_some_iff.mp decoded
              obtain ⟨bytes, split, encodes⟩ :=
                encodes_of_wellFormedAt (fun empty => unread (List.isEmpty_iff.mpr empty)) well
              have isText := Codepoints.cons encodes (inductionHypothesis isRest)
              rwa [← split] at isText
          · contradiction

theorem codepoints?_complete {fuel : Nat} {text : List UInt8} {cps : List Nat}
    (isText : Codepoints text cps) (enough : text.length ≤ fuel) :
    codepoints? fuel text = some cps := by
  induction isText generalizing fuel with
  | nil => cases fuel <;> rfl
  | @cons bytes text cp cps encodes _ inductionHypothesis =>
      have some_ := List.length_pos_iff.mpr encodes.nonempty
      rw [List.length_append] at enough
      obtain ⟨fuel, rfl⟩ := Nat.exists_eq_add_one.mpr (show 0 < fuel by omega)
      have unread : ¬ (bytes ++ text).isEmpty = true := by
        rw [List.isEmpty_iff, List.append_eq_nil_iff]
        exact fun empty => encodes.nonempty empty.1
      rw [codepoints?, if_neg unread, if_pos (encodes.wellFormedAt text), encodes.decodes,
        inductionHypothesis (by omega)]
      rfl

/-- A text has one list of codepoints. -/
theorem Codepoints.functional {text : List UInt8} {one two : List Nat}
    (isOne : Codepoints text one) (isTwo : Codepoints text two) : one = two := by
  have decoded := codepoints?_complete isOne (Nat.le_refl _)
  rw [codepoints?_complete isTwo (Nat.le_refl _)] at decoded
  exact (Option.some.inj decoded).symm

end Nazm.Unicode
