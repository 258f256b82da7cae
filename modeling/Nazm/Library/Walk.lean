import Mathlib.Data.List.Induction

/-!
Walks over a list.

Owns walks whose step can end them early, what a walk over a list says about
the walks over its beginnings, and the invariant rules: an invariant that names
the part of the list already walked holds at every point of the walk.

Does not own any particular step.
-/

namespace Walk

variable {α σ ε τ : Type}

/-- Apply a step to the elements in order, until it fails. -/
def run (step : σ → α → Except ε σ) : List α → σ → Except ε σ
  | [], state => .ok state
  | element :: rest, state =>
      match step state element with
      | .ok next => run step rest next
      | .error failure => .error failure

variable {step : σ → α → Except ε σ}

@[simp] theorem run_nil (state : σ) : run step [] state = .ok state := rfl

theorem run_cons_of_ok {state next : σ} {element : α} (turn : step state element = .ok next)
    (rest : List α) : run step (element :: rest) state = run step rest next := by
  rw [run, turn]

/-- A walk over a concatenation that does not fail passes through the end of the first part. -/
theorem run_append_eq_ok {state last : σ} {before after : List α} :
    run step (before ++ after) state = .ok last ↔
      ∃ middle, run step before state = .ok middle ∧ run step after middle = .ok last := by
  induction before generalizing state with
  | nil => simp
  | cons element before inductionHypothesis =>
      rw [List.cons_append, run, run]
      cases step state element with
      | error failure => simp
      | ok next => exact inductionHypothesis

theorem run_snoc_of_ok {state middle next : σ} {before : List α} {element : α}
    (reached : run step before state = .ok middle) (turn : step middle element = .ok next) :
    run step (before ++ [element]) state = .ok next :=
  run_append_eq_ok.mpr ⟨middle, reached, by rw [run_cons_of_ok turn, run_nil]⟩

/-- The last step of a walk. -/
theorem run_snoc_eq_ok {state last : σ} {before : List α} {element : α} :
    run step (before ++ [element]) state = .ok last ↔
      ∃ middle, run step before state = .ok middle ∧ step middle element = .ok last := by
  rw [run_append_eq_ok]
  constructor
  · rintro ⟨middle, reached, turn⟩
    refine ⟨middle, reached, ?_⟩
    rw [run] at turn
    cases result : step middle element with
    | error failure => simp [result] at turn
    | ok next => simpa [result] using turn
  · rintro ⟨middle, reached, turn⟩
    exact ⟨middle, reached, by rw [run_cons_of_ok turn, run_nil]⟩

/-- Total rule: where each step goes on and keeps the invariant, so does the
walk over every beginning of the list. -/
theorem run_total (all : List α) {start : σ} (invariant : List α → σ → Prop)
    (initially : invariant [] start)
    (keeps : ∀ before element after state, all = before ++ element :: after →
      run step before start = .ok state → invariant before state →
      ∃ next, step state element = .ok next ∧ invariant (before ++ [element]) next)
    (before after : List α) (split : all = before ++ after) :
    ∃ state, run step before start = .ok state ∧ invariant before state := by
  induction before using List.reverseRecOn generalizing after with
  | nil => exact ⟨start, rfl, initially⟩
  | append_singleton before element inductionHypothesis =>
      have split' : all = before ++ element :: after := by rw [split, List.append_assoc]; rfl
      obtain ⟨state, reached, holds⟩ := inductionHypothesis (element :: after) split'
      obtain ⟨next, turn, holdsNext⟩ := keeps before element after state split' reached holds
      exact ⟨next, run_snoc_of_ok reached turn, holdsNext⟩

/-- Conditional rule: an invariant that every step that goes on keeps holds
wherever the walk arrives. -/
theorem run_invariant (all : List α) {start : σ} (invariant : List α → σ → Prop)
    (initially : invariant [] start)
    (keeps : ∀ before element after state next, all = before ++ element :: after →
      run step before start = .ok state → invariant before state →
      step state element = .ok next → invariant (before ++ [element]) next)
    {before after : List α} (split : all = before ++ after) {state : σ}
    (reached : run step before start = .ok state) : invariant before state := by
  induction before using List.reverseRecOn generalizing after state with
  | nil =>
      rw [run_nil, Except.ok.injEq] at reached
      exact reached ▸ initially
  | append_singleton before element inductionHypothesis =>
      have split' : all = before ++ element :: after := by rw [split, List.append_assoc]; rfl
      obtain ⟨middle, reachedMiddle, turn⟩ := run_snoc_eq_ok.mp reached
      exact keeps before element after middle state split' reachedMiddle
        (inductionHypothesis split' reachedMiddle) turn

/-- The rule for a step that always goes on. -/
theorem foldl_invariant (all : List α) {turn : σ → α → σ} {start : σ}
    (invariant : List α → σ → Prop) (initially : invariant [] start)
    (keeps : ∀ before element after, all = before ++ element :: after →
      invariant before (before.foldl turn start) →
      invariant (before ++ [element]) (turn (before.foldl turn start) element))
    {before after : List α} (split : all = before ++ after) :
    invariant before (before.foldl turn start) := by
  induction before using List.reverseRecOn generalizing after with
  | nil => exact initially
  | append_singleton before element inductionHypothesis =>
      have split' : all = before ++ element :: after := by rw [split, List.append_assoc]; rfl
      rw [List.foldl_append]
      exact keeps before element after split' (inductionHypothesis split')

end Walk
