import Nazm.Unicode.WellFormed

/-!
Texts that were cut.

Owns that `utf8_complete_prefix` finds the longest well-formed start of a text
that was cut anywhere.

Does not own who cuts texts.
-/

namespace Nazm.Unicode

open Utf8

/-! ## The walk back -/

theorem continues_iff {b : UInt8} : b.toNat &&& 0xC0 = 0x80 ↔ Tail b := by
  refine ⟨tail_of_continues, fun tail => ?_⟩
  have table : ∀ b : Fin 256, 0x80 ≤ b.val → b.val ≤ 0xBF → b.val &&& 0xC0 = 0x80 := by
    decide +kernel
  exact table ⟨b.toNat, b.toNat_lt⟩ (UInt8.le_iff_toNat_le.mp tail.1)
    (UInt8.le_iff_toNat_le.mp tail.2)

/-- The walk back stops at the lead byte of the last character. -/
theorem trailing_eq {front tails : List UInt8} {lead : UInt8} (isLead : ¬ Tail lead)
    (areTails : ∀ byte ∈ tails, Tail byte) (few : tails.length ≤ 3) :
    (((front ++ lead :: tails).reverse.take 3).takeWhile
      fun b => b.toNat &&& 0xC0 = 0x80).length = tails.length := by
  have continue_ : ∀ byte ∈ tails.reverse, decide (byte.toNat &&& 0xC0 = 0x80) = true :=
    fun byte member => decide_eq_true (continues_iff.mpr (areTails byte (List.mem_reverse.mp member)))
  have stop : decide (lead.toNat &&& 0xC0 = 0x80) = false :=
    decide_eq_false fun continues => isLead (continues_iff.mp continues)
  have reversed : (front ++ lead :: tails).reverse.take 3 =
      tails.reverse ++ (lead :: front.reverse).take (3 - tails.length) := by
    rw [List.reverse_append, List.reverse_cons, List.append_assoc,
      List.singleton_append, List.take_append, List.length_reverse,
      List.take_of_length_le (by rw [List.length_reverse]; exact few)]
  rw [reversed, List.takeWhile_append_of_pos continue_]
  cases 3 - tails.length with
  | zero => rw [List.take_zero, List.takeWhile_nil, List.append_nil, List.length_reverse]
  | succ count =>
      rw [List.take_succ_cons, List.takeWhile_cons, stop, if_neg (by decide), List.append_nil,
        List.length_reverse]

/-- What is kept of a text is decided by its last lead byte. -/
theorem utf8CompletePrefix_lead {front tails : List UInt8} {lead : UInt8} (isLead : ¬ Tail lead)
    (areTails : ∀ byte ∈ tails, Tail byte) (few : tails.length ≤ 3) :
    utf8CompletePrefix (front ++ lead :: tails) =
      if tails.length + 1 < announcedLength lead then front.length
      else front.length + (tails.length + 1) := by
  have length : (front ++ lead :: tails).length = front.length + (tails.length + 1) := by
    rw [List.length_append, List.length_cons]
  have rest : front.length + (tails.length + 1) - tails.length = front.length + 1 := by omega
  have size : front.length + (tails.length + 1) - front.length = tails.length + 1 := by omega
  have isLast : (front ++ lead :: tails).getD front.length 0 = lead := by
    rw [List.getD_eq_getElem?_getD, List.getElem?_append_right (Nat.le_refl _), Nat.sub_self]
    rfl
  rw [utf8CompletePrefix, trailing_eq isLead areTails few, length, rest]
  dsimp only
  rw [isLast, size]
  rfl

/-! ## Cut texts -/

theorem announcedLength_le (lead : UInt8) : announcedLength lead ≤ 4 := by
  unfold announcedLength
  grind

/-- A cut text keeps its whole characters. -/
theorem utf8CompletePrefix_cut {text whole broken : List UInt8} (cut : Cut text whole broken) :
    utf8CompletePrefix text = whole.length := by
  obtain ⟨rfl, isWhole, rfl | ⟨missing, some_, more, isCharacter⟩⟩ := cut
  · rw [List.append_nil]
    by_cases empty : whole = []
    · rw [empty]
      rfl
    · obtain ⟨front, character, rfl, isCharacter⟩ := isWhole.last empty
      obtain ⟨lead, tails, rfl, isLead, areTails, length⟩ := isCharacter.shape
      have few := announcedLength_le lead
      rw [utf8CompletePrefix_lead isLead areTails (by omega), if_neg (by omega),
        List.length_append, List.length_cons]
  · obtain ⟨lead, tails, isText, isLead, areTails, length⟩ := isCharacter.shape
    have few := announcedLength_le lead
    obtain ⟨first, rest, rfl⟩ := List.exists_cons_of_ne_nil some_
    obtain ⟨rfl, rfl⟩ := List.cons.inj isText
    have moreLength := List.length_pos_iff.mpr more
    have total : (rest ++ missing).length + 1 = announcedLength first := length
    rw [List.length_append] at total
    rw [utf8CompletePrefix_lead isLead
      (fun byte member => areTails byte (List.mem_append_left _ member)) (by omega),
      if_pos (by omega)]

/-- The longest well-formed start of a text has this length. -/
structure LongestWellFormed (text : List UInt8) (length : Nat) : Prop where
  inside : length ≤ text.length
  wellFormed : WellFormed (text.take length)
  longest : ∀ other ≤ text.length, WellFormed (text.take other) → other ≤ length

/-- `utf8_complete_prefix` of a text that was cut anywhere. -/
theorem longestWellFormed_take {text : List UInt8} (wellFormed : WellFormed text) (length : Nat) :
    LongestWellFormed (text.take length) (utf8CompletePrefix (text.take length)) := by
  obtain ⟨whole, broken, cut⟩ := wellFormed.cut length
  rw [utf8CompletePrefix_cut cut]
  refine ⟨?_, ?_, fun other inside isText => cut.longest inside isText⟩
  · rw [cut.split, List.length_append]
    omega
  · rw [cut.split, List.take_left]
    exact cut.wellFormed

end Nazm.Unicode
