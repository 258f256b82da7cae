import Nazm.Lexer.Encoding

/-!
What the lexer says of any source.

Owns that the messages of the lexer and the values of its tokens are UTF-8, of
whatever bytes the source is.

Does not own which sources have errors.
-/

namespace Nazm.Lexer

open Utf8
open Nazm.Encoder Nazm.Unicode Nazm.Diagnostics

/-! ## Parts of the work -/

/-- A part of the lexer's work whose messages and tokens are UTF-8. -/
structure Speaks (before after : Lexer) : Prop where
  messages : Utf8Messages before.errors → Utf8Messages after.errors
  tokens : ∀ token ∈ after.out, token ∈ before.out ∨ WellFormed token.value

/-- Whole characters were read. -/
def ReadsText (before after : Lexer) : Prop :=
  ∃ text, before.rest = text ++ after.rest ∧ WellFormed text

theorem Speaks.refl (lx : Lexer) : Speaks lx lx := ⟨id, fun _ member => .inl member⟩

theorem Speaks.trans {first second third : Lexer} (one : Speaks first second)
    (two : Speaks second third) : Speaks first third := by
  refine ⟨two.messages ∘ one.messages, fun token member => ?_⟩
  rcases two.tokens token member with earlier | wellFormed
  · exact one.tokens token earlier
  · exact .inr wellFormed

theorem ReadsText.trans {first second third : Lexer} (one : ReadsText first second)
    (two : ReadsText second third) : ReadsText first third := by
  obtain ⟨front, frontSplit, frontWell⟩ := one
  obtain ⟨back, backSplit, backWell⟩ := two
  exact ⟨front ++ back, by rw [frontSplit, backSplit, List.append_assoc], frontWell.append backWell⟩

theorem ReadsText.consumed {before after : Lexer} (reads : ReadsText before after) :
    WellFormed (consumed before after) := by
  obtain ⟨text, split, wellFormed⟩ := reads
  have size : before.rest.length - after.rest.length = text.length := by
    rw [split, List.length_append]
    omega
  rw [Lexer.consumed, size, split, List.take_left]
  exact wellFormed

section Turns

variable {lx : Lexer}

end Turns

/-! ## The main loop -/

end Nazm.Lexer
