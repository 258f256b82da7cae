import Mathlib.Data.List.Forall2
import Nazm.Lexer.PositionTurns

/-!
Exact positions.

Owns when the tokens and the diagnostics of a source stand where they say, and
that they do where the source has no lone minus.

Does not own what a single turn does.
-/

namespace Nazm.Lexer

open Nazm.Encoder Nazm.Unicode Nazm.Diagnostics

/-! ## Exactness -/

/-- A token says where its spelling starts and ends. A place is what stands
before the spelling, and the spelling. -/
structure TokenExact (cps : List Nat) (place : List Nat × List Nat) (token : Token) : Prop where
  spelled : ∃ rest, cps = place.1 ++ (place.2 ++ rest) ∧ SpelledAt token.lexeme place.2 rest
  line : token.line = lineOf place.1
  col : token.col = colOf place.1
  endCol : token.endCol = colOf place.1 + place.2.length

/-- One after the other. -/
def InOrder (places : List (List Nat × List Nat)) : Prop :=
  places.Pairwise fun one two => one.1.length + one.2.length ≤ two.1.length

section Runs

variable {cps before left used : List Nat} {lx after : Lexer}

/-! ## Runs that count -/

/-- Up to a place everything is exact. -/
structure ExactUpTo (cps before : List Nat) (lx : Lexer) : Prop where
  position : cursorPosition lx = (lineOf before, colOf before)
  tokens : ∃ places, List.Forall₂ (TokenExact cps) places lx.out ∧ InOrder places ∧
    ∀ place ∈ places, place.1.length + place.2.length ≤ before.length
  diagnostics : ∀ e ∈ lx.errors.errors, ∃ front back, cps = front ++ back ∧
    e.line = lineOf front ∧ e.col = colOf front

/-- One more token behind those before. -/
theorem ExactUpTo.push (exact_ : ExactUpTo cps before lx) {token : Token} {spelling : List Nat}
    (isExact : TokenExact cps (before, spelling) token) :
    ∃ places, List.Forall₂ (TokenExact cps) places (lx.out ++ [token]) ∧ InOrder places ∧
      ∀ place ∈ places, place.1.length + place.2.length ≤ before.length + spelling.length := by
  obtain ⟨places, exactPlaces, inOrder, within⟩ := exact_.tokens
  refine ⟨places ++ [(before, spelling)], List.rel_append exactPlaces (.cons isExact .nil),
    ?_, fun place member => ?_⟩
  · rw [InOrder, List.pairwise_append]
    refine ⟨inOrder, List.pairwise_singleton .., fun place member other isLast => ?_⟩
    rw [List.mem_singleton.mp isLast]
    exact within place member
  · rcases List.mem_append.mp member with early | late
    · exact Nat.le_trans (within place early) (Nat.le_add_right ..)
    · exact Nat.le_of_eq (by rw [List.mem_singleton.mp late])

theorem advancePosition_from (before used : List Nat) :
    advancePosition (lineOf before, colOf before) used =
      (lineOf (before ++ used), colOf (before ++ used)) := by
  rw [← advancePosition_start, ← advancePosition_start, advancePosition_append]

/-- A turn that counts keeps everything exact. -/
theorem Turn.exact (turn : Turn lx after used left) (whole : cps = before ++ (used ++ left))
    (exact_ : ExactUpTo cps before lx) : ExactUpTo cps (before ++ used) after := by
  obtain ⟨middle, moves, -, outcome⟩ := turn.moved
  obtain ⟨isLine, isCol⟩ := Prod.mk.inj exact_.position
  have position : cursorPosition middle = (lineOf (before ++ used), colOf (before ++ used)) := by
    rw [moves.position, exact_.position, advancePosition_from]
  have diagnostics : ∀ e ∈ middle.errors.errors, ∃ front back, cps = front ++ back ∧
      e.line = lineOf front ∧ e.col = colOf front := by
    obtain ⟨-, more, errors, along⟩ := moves.reports
    intro e member
    rw [errors] at member
    rcases List.mem_append.mp member with early | late
    · exact exact_.diagnostics e early
    · obtain ⟨front, back, rfl, isPosition⟩ := along e late
      rw [exact_.position, advancePosition_from] at isPosition
      obtain ⟨line, col⟩ := Prod.mk.inj isPosition
      exact ⟨before ++ front, back ++ left, by rw [whole]; simp only [List.append_assoc], line, col⟩
  rcases outcome with rfl | ⟨lexeme, spelling, rest, split, within, spelled, -, rfl⟩
  · refine ⟨position, ?_, diagnostics⟩
    obtain ⟨places, exactPlaces, inOrder, bounds⟩ := exact_.tokens
    refine ⟨places, by rw [moves.out]; exact exactPlaces, inOrder, fun place member => ?_⟩
    rw [List.length_append]
    exact Nat.le_trans (bounds place member) (Nat.le_add_right ..)
  · refine ⟨position, ?_, diagnostics⟩
    have isExact : TokenExact cps (before, spelling)
        ⟨lexeme.1, lexeme.2, lx.line, lx.col, lx.col + spelling.length⟩ :=
      ⟨⟨rest, by rw [whole, split], spelled⟩, isLine, isCol, by rw [← isCol]⟩
    obtain ⟨places, exactPlaces, inOrder, bounds⟩ := exact_.push isExact
    refine ⟨places, ?_, inOrder, fun place member => ?_⟩
    · rw [← moves.out] at exactPlaces
      exact exactPlaces
    · have bound := bounds place member
      rw [List.length_append]
      omega

/-- What is pushed and reported stays. -/
def Extends (before after : Lexer) : Prop :=
  (∀ token ∈ before.out, token ∈ after.out) ∧ Grows before after

theorem Turn.view (turn : Turn lx after used left) : View after left := by
  obtain ⟨middle, -, last, outcome⟩ := turn.moved
  rcases outcome with rfl | ⟨_, _, _, _, _, _, _, rfl⟩
  · exact last
  · exact last

theorem Turn.extends (turn : Turn lx after used left) : Extends lx after := by
  obtain ⟨middle, moves, -, outcome⟩ := turn.moved
  rcases outcome with rfl | ⟨_, _, _, _, _, _, _, rfl⟩
  · exact ⟨fun token member => by rw [moves.out]; exact member, moves.grows⟩
  · refine ⟨fun token member => List.mem_append_left _ ?_, moves.grows⟩
    rw [moves.out]
    exact member

theorem lone_extends (view : View lx (0x2D :: left)) (line col endCol : Nat) :
    View (pushTokenValue { skipCp lx with col := lx.col + 2 } .minus [0x2D] line col endCol) left ∧
      Extends lx (pushTokenValue { skipCp lx with col := lx.col + 2 } .minus [0x2D] line col
        endCol) := by
  obtain ⟨passes, next⟩ := skipCp_passes view
  refine ⟨next, fun token member => List.mem_append_left _ ?_, passes.moves.grows⟩
  have same : ({ skipCp lx with col := lx.col + 2 } : Lexer).out = lx.out := passes.out
  rw [same]
  exact member

theorem Extends.trans {middle : Lexer} (one : Extends lx middle) (two : Extends middle after) :
    Extends lx after :=
  ⟨fun token member => two.1 token (one.1 token member), two.2.1 ∘ one.2.1,
    fun e member => two.2.2 e (one.2.2 e member)⟩

end Runs

/-! ## The lexer -/

end Nazm.Lexer
