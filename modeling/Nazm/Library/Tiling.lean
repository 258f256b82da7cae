import Mathlib.Data.List.Basic

/-!
Pieces that lie one after the other.

Owns what it means that the pieces of a list cover an interval without a gap,
and what follows: no two pieces overlap, and every place of the interval is in
exactly one of them.

Does not own what the pieces are.
-/

namespace Tiling

variable {α : Type}

/-- Each piece starts where the one before it ends. -/
def Contiguous (offset size : α → Nat) : Nat → List α → Nat → Prop
  | start, [], stop => start = stop
  | start, piece :: pieces, stop =>
      offset piece = start ∧ Contiguous offset size (start + size piece) pieces stop

/-- A place that a piece takes up. -/
def covers (offset size : α → Nat) (place : Nat) (piece : α) : Bool :=
  decide (offset piece ≤ place) && decide (place < offset piece + size piece)

variable {offset size : α → Nat} {start stop : Nat} {pieces : List α}

theorem Contiguous.snoc (contiguous : Contiguous offset size start pieces stop) {piece : α}
    (next : offset piece = stop) :
    Contiguous offset size start (pieces ++ [piece]) (stop + size piece) := by
  induction pieces generalizing start with
  | nil => exact ⟨next.trans contiguous.symm, congrArg (· + size piece) contiguous⟩
  | cons head tail inductionHypothesis =>
      exact ⟨contiguous.1, inductionHypothesis contiguous.2⟩

theorem Contiguous.le (contiguous : Contiguous offset size start pieces stop) : start ≤ stop := by
  induction pieces generalizing start with
  | nil => exact Nat.le_of_eq contiguous
  | cons head tail inductionHypothesis =>
      have rest := inductionHypothesis contiguous.2
      omega

theorem Contiguous.append {middle : Nat} {more : List α}
    (contiguous : Contiguous offset size start pieces middle)
    (next : Contiguous offset size middle more stop) :
    Contiguous offset size start (pieces ++ more) stop := by
  induction pieces generalizing start with
  | nil =>
      have same : start = middle := contiguous
      rw [same]
      exact next
  | cons head tail inductionHypothesis =>
      exact ⟨contiguous.1, inductionHypothesis contiguous.2⟩

/-- Every piece is inside the interval. -/
theorem Contiguous.inside (contiguous : Contiguous offset size start pieces stop) {piece : α}
    (member : piece ∈ pieces) : start ≤ offset piece ∧ offset piece + size piece ≤ stop := by
  induction pieces generalizing start with
  | nil => contradiction
  | cons head tail inductionHypothesis =>
      obtain ⟨first, rest⟩ := contiguous
      rcases List.mem_cons.mp member with rfl | inTail
      · have ordered := Contiguous.le rest
        omega
      · have within := inductionHypothesis rest inTail
        omega

/-- Of two pieces, the first ends before the second starts. -/
theorem Contiguous.apart (contiguous : Contiguous offset size start pieces stop) :
    pieces.Pairwise fun first second => offset first + size first ≤ offset second := by
  induction pieces generalizing start with
  | nil => exact .nil
  | cons head tail inductionHypothesis =>
      obtain ⟨first, rest⟩ := contiguous
      refine .cons (fun piece member => ?_) (inductionHypothesis rest)
      have within := Contiguous.inside rest member
      omega

/-- No piece takes up a place before the interval. -/
theorem Contiguous.uncovered (contiguous : Contiguous offset size start pieces stop) {place : Nat}
    (before : place < start) : pieces.countP (covers offset size place) = 0 := by
  rw [List.countP_eq_zero]
  intro piece member
  have within := contiguous.inside member
  simp only [covers, Bool.and_eq_true, decide_eq_true_eq, not_and]
  omega

/-- Exactly one piece takes up each place of the interval. -/
theorem Contiguous.covered (contiguous : Contiguous offset size start pieces stop) {place : Nat}
    (least : start ≤ place) (less : place < stop) :
    pieces.countP (covers offset size place) = 1 := by
  induction pieces generalizing start with
  | nil =>
      have empty : start = stop := contiguous
      omega
  | cons head tail inductionHypothesis =>
      obtain ⟨first, rest⟩ := contiguous
      by_cases here : place < start + size head
      · have covered : covers offset size place head = true := by simp [covers, first, least, here]
        rw [List.countP_cons_of_pos covered, Contiguous.uncovered rest here]
      · have uncovered : ¬ covers offset size place head = true := by
          simp only [covers, first, Bool.and_eq_true, decide_eq_true_eq, not_and]
          omega
        rw [List.countP_cons_of_neg uncovered]
        exact inductionHypothesis rest (by omega)

/-! ## Finer pieces -/

theorem contiguous_map {β : Type} (view : β → α) {views : List β} :
    Contiguous offset size start (views.map view) stop ↔
      Contiguous (offset ∘ view) (size ∘ view) start views stop := by
  induction views generalizing start with
  | nil => exact Iff.rfl
  | cons head tail inductionHypothesis => exact and_congr_right fun _ => inductionHypothesis

/-- Pieces that are cut into pieces. -/
theorem Contiguous.cut {β : Type} {offset' size' : β → Nat} {parts : α → List β}
    (contiguous : Contiguous offset size start pieces stop)
    (isCut : ∀ piece ∈ pieces, Contiguous offset' size' (offset piece) (parts piece)
      (offset piece + size piece)) :
    Contiguous offset' size' start (pieces.flatMap parts) stop := by
  induction pieces generalizing start with
  | nil => exact contiguous
  | cons head tail inductionHypothesis =>
      obtain ⟨first, rest⟩ := contiguous
      have here := isCut head List.mem_cons_self
      rw [first] at here
      rw [List.flatMap_cons]
      exact here.append (inductionHypothesis rest fun piece member =>
        isCut piece (List.mem_cons_of_mem _ member))

/-- The items that the pieces cover are the items of the interval. -/
theorem Contiguous.items {β : Type} (contiguous : Contiguous offset size start pieces stop)
    (items : List β) :
    pieces.flatMap (fun piece => (items.drop (offset piece)).take (size piece)) =
      (items.drop start).take (stop - start) := by
  induction pieces generalizing start with
  | nil =>
      have same : start = stop := contiguous
      simp [same]
  | cons head tail inductionHypothesis =>
      obtain ⟨first, rest⟩ := contiguous
      have split : stop - start = size head + (stop - (start + size head)) := by
        have ordered := Contiguous.le rest
        omega
      rw [List.flatMap_cons, inductionHypothesis rest, first, split, List.take_add, List.drop_drop]

end Tiling
