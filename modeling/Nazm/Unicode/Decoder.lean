import Nazm.Unicode.Codepoints

/-!
The decoder at an offset of a buffer.

Owns `utf8_next_codepoint`, `utf8_peek_codepoint` and `utf8_is_well_formed_at`
as they read bytes of a buffer, where a read outside of it fails, and what they
return at every offset.

Does not own decoding from the rest of a text, which the other stages use.
-/

namespace Nazm.Unicode

open Utf8

/-! ## Reads of a buffer -/

/-- The loop over the continuation bytes: `none` for a read outside the buffer,
`some none` for a byte that is no continuation. -/
def continuationAt (src : List UInt8) (offset : Nat) : Nat → Nat → Nat → Option (Option Nat)
  | 0, _, cp => some (some cp)
  | count + 1, i, cp => do
      let b ← src[offset + i]?
      if b.toNat &&& 0xC0 ≠ 0x80 then some none
      else continuationAt src offset count (i + 1) ((cp <<< 6) ||| (b.toNat &&& 0x3F))

/-- `utf8_next_codepoint`: the codepoint and the offset after it; `none` for a
read outside the buffer. -/
def utf8NextCodepointAt (src : List UInt8) (offset : Nat) : Option (Nat × Nat) :=
  if src.length ≤ offset then some (0, offset)
  else do
    let b0 ← src[offset]?
    if b0.toNat < 0x80 then some (b0.toNat, offset + 1)
    else
      match leadByte b0.toNat with
      | none => some (0xFFFD, offset + 1)
      | some (bytes, bits) =>
          if src.length - offset < bytes then some (0xFFFD, offset + 1)
          else
            match ← continuationAt src offset (bytes - 1) 1 bits with
            | none => some (0xFFFD, offset + 1)
            | some cp =>
                let minimum := if bytes = 2 then 0x80 else if bytes = 3 then 0x800 else 0x10000
                if cp < minimum ∨ (0xD800 ≤ cp ∧ cp ≤ 0xDFFF) ∨ 0x10FFFF < cp then
                  some (0xFFFD, offset + 1)
                else some (cp, offset + bytes)

/-- `utf8_peek_codepoint`. -/
def utf8PeekCodepointAt (src : List UInt8) (offset : Nat) : Option Nat :=
  (utf8NextCodepointAt src offset).map Prod.fst

/-- `utf8_is_well_formed_at`. -/
def utf8IsWellFormedAtOffset (src : List UInt8) (offset : Nat) : Option Bool := do
  let (cp, next) ← utf8NextCodepointAt src offset
  some (decide (cp ≠ 0xFFFD) || decide (next - offset = 3))

/-- The codepoints of a buffer from an offset on. -/
def codepointsAt (src : List UInt8) : Nat → Nat → Option (List Nat)
  | 0, offset => if src.length ≤ offset then some [] else none
  | fuel + 1, offset =>
      if src.length ≤ offset then some []
      else do
        let (cp, next) ← utf8NextCodepointAt src offset
        (codepointsAt src fuel next).map (cp :: ·)

/-! ## The rest of the buffer -/

/-- Reads stay inside the buffer where the sequence fits in it. -/
theorem continuationAt_eq {src : List UInt8} {offset count : Nat} (i cp : Nat)
    (fits : offset + i + count ≤ src.length) :
    continuationAt src offset count i cp =
      some ((continuation count cp (src.drop (offset + i))).map Prod.fst) := by
  induction count generalizing i cp with
  | zero => rfl
  | succ count inductionHypothesis =>
      have inside : offset + i < src.length := by omega
      rw [continuationAt, List.drop_eq_getElem_cons inside, continuation,
        List.getElem?_eq_getElem inside, Option.bind_eq_bind, Option.bind_some]
      split
      · rfl
      · exact inductionHypothesis (i + 1) _ (by omega)

/-- At an offset inside the buffer, the decoder reads the bytes from there on. -/
theorem utf8NextCodepointAt_eq {src : List UInt8} {offset : Nat} (inside : offset < src.length) :
    utf8NextCodepointAt src offset =
      some ((utf8NextCodepoint (src.drop offset)).1,
        src.length - (utf8NextCodepoint (src.drop offset)).2.length) := by
  have one : src.length - (src.drop (offset + 1)).length = offset + 1 := by
    rw [List.length_drop]
    omega
  rw [utf8NextCodepointAt, if_neg (by omega), List.getElem?_eq_getElem inside,
    Option.bind_eq_bind, Option.bind_some, List.drop_eq_getElem_cons inside, utf8NextCodepoint]
  split
  · rw [one]
  · cases announced : leadByte src[offset].toNat with
    | none => simp only [one]
    | some lead =>
        obtain ⟨bytes, bits⟩ := lead
        have longer : 2 ≤ bytes := by
          unfold leadByte at announced
          grind
        dsimp only
        by_cases short : src.length - offset < bytes
        · have none : continuation (bytes - 1) bits (src.drop (offset + 1)) = none := by
            refine Option.eq_none_iff_forall_not_mem.mpr fun last reads => ?_
            have length := length_of_continuation reads
            rw [List.length_drop] at length
            omega
          rw [if_pos short, none]
          simp only [one]
        · rw [if_neg short, continuationAt_eq 1 bits (by omega), Option.bind_eq_bind,
            Option.bind_some]
          cases reads : continuation (bytes - 1) bits (src.drop (offset + 1)) with
          | none =>
              rw [Option.map_none]
              simp only [one]
          | some read =>
              obtain ⟨cp, next⟩ := read
              have length := length_of_continuation reads
              rw [List.length_drop] at length
              rw [Option.map_some]
              dsimp only
              by_cases invalid : cp < (if bytes = 2 then 0x80 else if bytes = 3 then 0x800
                  else 0x10000) ∨ (0xD800 ≤ cp ∧ cp ≤ 0xDFFF) ∨ 0x10FFFF < cp
              · rw [if_pos invalid, if_pos invalid, one]
              · rw [if_neg invalid, if_neg invalid]
                simp only [Option.some.injEq, Prod.mk.injEq, true_and]
                omega

/-! ## What stands at an offset -/

/-- What the decoder returns at an offset where these bytes are a character. -/
structure ReadsCharacter (src : List UInt8) (offset : Nat) (character : List UInt8) : Prop where
  scalar : (value character).isValidChar
  next : utf8NextCodepointAt src offset = some (value character, offset + character.length)
  peek : utf8PeekCodepointAt src offset = some (value character)
  wellFormed : utf8IsWellFormedAtOffset src offset = some true

/-- What the decoder returns at an offset where no character stands. -/
structure ReadsReplacement (src : List UInt8) (offset : Nat) : Prop where
  next : utf8NextCodepointAt src offset = some (0xFFFD, offset + 1)
  peek : utf8PeekCodepointAt src offset = some 0xFFFD
  illFormed : utf8IsWellFormedAtOffset src offset = some false

/-- The decoder on a buffer. A read outside of it would be no result. -/
structure DecoderExact (src : List UInt8) : Prop where
  character : ∀ offset < src.length, ∀ character rest, src.drop offset = character ++ rest →
    Character character → ReadsCharacter src offset character
  replacement : ∀ offset < src.length,
    (∀ character rest, src.drop offset = character ++ rest → ¬ Character character) →
    ReadsReplacement src offset
  progress : ∀ offset < src.length, ∃ cp next, utf8NextCodepointAt src offset = some (cp, next) ∧
    offset < next ∧ next ≤ src.length
  end_ : ∀ offset ≥ src.length, utf8NextCodepointAt src offset = some (0, offset)
  segments : ∀ characters : List (List UInt8), (∀ character ∈ characters, Character character) →
    src = characters.flatten → codepointsAt src src.length 0 = some (characters.map value)

section Offsets

variable {src : List UInt8} {offset : Nat}

theorem readsCharacter {character rest : List UInt8} (inside : offset < src.length)
    (split : src.drop offset = character ++ rest) (isCharacter : Character character) :
    ReadsCharacter src offset character := by
  have encodes := encodes_of_character isCharacter
  have length := congrArg List.length split
  rw [List.length_drop, List.length_append] at length
  have next : utf8NextCodepointAt src offset =
      some (value character, offset + character.length) := by
    rw [utf8NextCodepointAt_eq inside, split, encodes.decodes]
    simp only [Option.some.injEq, Prod.mk.injEq, true_and]
    omega
  refine ⟨isCharacter.isScalar, next, by rw [utf8PeekCodepointAt, next]; rfl, ?_⟩
  rw [utf8IsWellFormedAtOffset, next]
  rcases encodes.known with known | three
  · simp [known]
  · simp [three]

theorem readsReplacement (inside : offset < src.length)
    (none : ∀ character rest, src.drop offset = character ++ rest → ¬ Character character) :
    ReadsReplacement src offset := by
  have next : utf8NextCodepointAt src offset = some (0xFFFD, offset + 1) := by
    rw [utf8NextCodepointAt_eq inside]
    have head := List.drop_eq_getElem_cons inside
    rcases utf8NextCodepoint_character src[offset] (src.drop (offset + 1)) with
      replaced | ⟨character, split, isCharacter⟩
    · rw [head, replaced, List.length_drop]
      simp only [Option.some.injEq, Prod.mk.injEq, true_and]
      omega
    · exact absurd isCharacter (none character _ (head.trans split))
  refine ⟨next, by rw [utf8PeekCodepointAt, next]; rfl, ?_⟩
  rw [utf8IsWellFormedAtOffset, next]
  simp

/-- The decoder leaves each offset of the buffer behind. -/
theorem utf8NextCodepointAt_progress (inside : offset < src.length) :
    ∃ cp next, utf8NextCodepointAt src offset = some (cp, next) ∧
      offset < next ∧ next ≤ src.length := by
  by_cases starts : ∃ character rest, src.drop offset = character ++ rest ∧ Character character
  · obtain ⟨character, rest, split, isCharacter⟩ := starts
    have some_ := List.length_pos_iff.mpr (encodes_of_character isCharacter).nonempty
    have length := congrArg List.length split
    rw [List.length_drop, List.length_append] at length
    exact ⟨_, _, (readsCharacter inside split isCharacter).next, by omega, by omega⟩
  · have none : ∀ character rest, src.drop offset = character ++ rest → ¬ Character character :=
      fun character rest split isCharacter => starts ⟨character, rest, split, isCharacter⟩
    exact ⟨_, _, (readsReplacement inside none).next, by omega, by omega⟩

/-- From the start of a character on, the codepoints are those of the characters. -/
theorem codepointsAt_characters {characters : List (List UInt8)}
    (areCharacters : ∀ character ∈ characters, Character character) {fuel : Nat}
    (rest : src.drop offset = characters.flatten) (enough : src.length ≤ offset + fuel) :
    codepointsAt src fuel offset = some (characters.map value) := by
  induction characters generalizing offset fuel with
  | nil =>
      have pastEnd : src.length ≤ offset := List.drop_eq_nil_iff.mp rest
      cases fuel <;> exact if_pos pastEnd
  | cons character characters inductionHypothesis =>
      obtain ⟨isCharacter, others⟩ := List.forall_mem_cons.mp areCharacters
      have some_ := List.length_pos_iff.mpr (encodes_of_character isCharacter).nonempty
      rw [List.flatten_cons] at rest
      have length := congrArg List.length rest
      rw [List.length_drop, List.length_append] at length
      obtain ⟨fuel, rfl⟩ := Nat.exists_eq_add_one.mpr (show 0 < fuel by omega)
      have later : src.drop (offset + character.length) = characters.flatten := by
        rw [← List.drop_drop, rest, List.drop_left]
      rw [codepointsAt, if_neg (by omega), (readsCharacter (by omega) rest isCharacter).next,
        Option.bind_eq_bind, Option.bind_some]
      exact congrArg (Option.map (value character :: ·))
        (inductionHypothesis others later (by omega))

end Offsets

/-- The decoder reads the characters of Table 3-7, one byte elsewhere, and
nothing outside the buffer. -/
theorem utf8_decoder_exact (src : List UInt8) : DecoderExact src where
  character _ inside _ _ split isCharacter := readsCharacter inside split isCharacter
  replacement _ inside none := readsReplacement inside none
  progress _ inside := utf8NextCodepointAt_progress inside
  end_ _ outside := if_pos outside
  segments _ areCharacters split :=
    codepointsAt_characters areCharacters (by rw [List.drop_zero]; exact split) (by omega)

end Nazm.Unicode
