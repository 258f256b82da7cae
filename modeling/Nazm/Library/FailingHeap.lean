import Mathlib.Data.List.Perm.Basic
import Mathlib.Data.List.Nodup

/-!
A heap whose requests may fail.

Owns a heap that answers each request as a pattern says and keeps count of what
was obtained and released, what it means that a program owns the blocks it has
not released, and how steps that hand blocks over compose.

Does not own what a block holds.
-/

namespace FailingHeap

/-! ## The heap -/

/-- A heap since a call began. A block is named by the number of the request that
it answers. -/
structure Heap where
  requests : Nat
  obtained : List Nat
  released : List Nat
  failed : Bool
deriving DecidableEq, Repr

namespace Heap

def empty : Heap := ⟨0, [], [], false⟩

/-- A request, answered as the pattern says. -/
def request (grants : Nat → Bool) (heap : Heap) : Option Nat × Heap :=
  if grants heap.requests then
    (some heap.requests,
      { heap with requests := heap.requests + 1, obtained := heap.obtained ++ [heap.requests] })
  else (none, { heap with requests := heap.requests + 1, failed := true })

/-- A request that is not even made, since no heap could grant it. -/
def refuse (heap : Heap) : Heap := { heap with failed := true }

/-- A release; releasing the null pointer does nothing. -/
def release (heap : Heap) : Option Nat → Heap
  | some block => { heap with released := heap.released ++ [block] }
  | none => heap

/-- Releases one after the other. -/
def releaseAll (heap : Heap) (blocks : List Nat) : Heap :=
  blocks.foldl (fun heap block => heap.release (some block)) heap

/-- Every block was obtained once, and it was released or is owned. -/
structure Owns (heap : Heap) (owned : List Nat) : Prop where
  numbered : ∀ block ∈ heap.obtained, block < heap.requests
  distinct : heap.obtained.Nodup
  accounted : heap.obtained.Perm (heap.released ++ owned)

theorem owns_empty : empty.Owns [] := ⟨by simp [empty], .nil, .nil⟩

theorem Owns.perm {heap : Heap} {owned owned' : List Nat} (owns : heap.Owns owned)
    (same : owned.Perm owned') : heap.Owns owned' :=
  ⟨owns.numbered, owns.distinct, owns.accounted.trans (same.append_left _)⟩

theorem releaseAll_append (heap : Heap) (first second : List Nat) :
    heap.releaseAll (first ++ second) = (heap.releaseAll first).releaseAll second :=
  List.foldl_append

theorem release_eq (heap : Heap) (block : Option Nat) :
    heap.release block = heap.releaseAll block.toList := by
  cases block <;> rfl

end Heap

/-! ## Steps -/

/-- A step that is given some blocks and keeps others, whatever else is owned. -/
structure Step (before after : Heap) (given kept : List Nat) (ok : Bool) : Prop where
  owns : ∀ {owned}, before.Owns (given ++ owned) → after.Owns (kept ++ owned)
  failed : after.failed = (before.failed || !ok)

namespace Step

variable {first second third : Heap} {given middle kept : List Nat} {ok ok' : Bool}

theorem refl (heap : Heap) (blocks : List Nat) : Step heap heap blocks blocks true :=
  ⟨id, (Bool.or_false _).symm⟩

theorem trans (one : Step first second given middle ok) (two : Step second third middle kept ok') :
    Step first third given kept (ok && ok') where
  owns := two.owns ∘ one.owns
  failed := by rw [two.failed, one.failed, Bool.not_and, Bool.or_assoc]

theorem perm (step : Step first second given kept ok) {given' kept' : List Nat}
    (sameGiven : given'.Perm given) (sameKept : kept.Perm kept') :
    Step first second given' kept' ok where
  owns owned := (step.owns (owned.perm (sameGiven.append_right _))).perm (sameKept.append_right _)
  failed := step.failed

/-- What a step is not given stays. -/
theorem frame (step : Step first second given kept ok) (other : List Nat) :
    Step first second (given ++ other) (kept ++ other) ok where
  owns owned := by
    rw [List.append_assoc] at owned ⊢
    exact step.owns owned
  failed := step.failed

end Step

variable {grants : Nat → Bool}

/-- A request that is granted gives a block, and only one that is not fails. -/
theorem step_request (heap : Heap) :
    Step heap (heap.request grants).2 [] (heap.request grants).1.toList
      (heap.request grants).1.isSome := by
  unfold Heap.request
  split
  · refine ⟨fun owns => ⟨fun block member => ?_, ?_, ?_⟩, (Bool.or_false _).symm⟩
    · rcases List.mem_append.mp member with earlier | last
      · exact Nat.lt_succ_of_lt (owns.numbered block earlier)
      · rw [List.mem_singleton.mp last]
        exact Nat.lt_succ_self _
    · have fresh : heap.requests ∉ heap.obtained := fun member =>
        Nat.lt_irrefl _ (owns.numbered _ member)
      exact (List.perm_append_singleton _ _).nodup_iff.mpr (List.nodup_cons.mpr ⟨fresh, owns.distinct⟩)
    · exact (List.perm_append_singleton _ _).trans
        ((owns.accounted.cons _).trans List.perm_middle.symm)
  · exact ⟨fun owns => ⟨fun block member => Nat.lt_succ_of_lt (owns.numbered block member),
      owns.distinct, owns.accounted⟩, (Bool.or_true _).symm⟩

theorem step_refuse (heap : Heap) : Step heap heap.refuse [] [] false :=
  ⟨fun owns => ⟨owns.numbered, owns.distinct, owns.accounted⟩, (Bool.or_true _).symm⟩

/-- What is released is no longer owned. -/
theorem step_releaseAll (heap : Heap) (blocks : List Nat) :
    Step heap (heap.releaseAll blocks) blocks [] true := by
  induction blocks generalizing heap with
  | nil => exact .refl heap []
  | cons block blocks inductionHypothesis =>
      have one : Step heap (heap.release (some block)) (block :: blocks) blocks true := by
        refine ⟨fun owns => ⟨owns.numbered, owns.distinct, ?_⟩, (Bool.or_false _).symm⟩
        have accounted := owns.accounted
        rw [List.cons_append, List.append_cons] at accounted
        exact accounted
      exact one.trans (inductionHypothesis _)

/-! ## Single requests and releases -/

section Single

variable {heap after : Heap} {block old : Nat}

theorem step_granted (granted : heap.request grants = (some block, after)) :
    Step heap after [] [block] true := by
  have step := @step_request grants heap
  rw [granted] at step
  exact step

theorem step_notGranted (refused : heap.request grants = (none, after)) :
    Step heap after [] [] false := by
  have step := @step_request grants heap
  rw [refused] at step
  exact step

theorem step_release (heap : Heap) (old : Nat) :
    Step heap (heap.release (some old)) [old] [] true :=
  step_releaseAll heap [old]

theorem step_releaseBoth (heap : Heap) (first second : Option Nat) :
    Step heap ((heap.release first).release second) (first.toList ++ second.toList) [] true := by
  rw [Heap.release_eq heap first, Heap.release_eq _ second, ← Heap.releaseAll_append]
  exact step_releaseAll heap _

/-- A block in place of another. -/
theorem step_replace (granted : heap.request grants = (some block, after)) :
    Step heap (after.release (some old)) [old] [block] true := by
  have both := ((step_granted granted).frame [old]).perm (List.Perm.refl [old])
    (List.Perm.swap old block [])
  exact both.trans ((step_release after old).frame [block])

theorem step_replaceRefused (refused : heap.request grants = (none, after)) :
    Step heap (after.release (some old)) [old] [] false :=
  ((step_notGranted refused).frame [old]).trans (step_release after old)

end Single

/-! ## The end of a call -/

/-- A program that owns nothing has released every block exactly once. -/
theorem Heap.Owns.released_once {heap : Heap} (owns : heap.Owns []) :
    (∀ block ∈ heap.obtained, heap.released.count block = 1) ∧
      ∀ block ∈ heap.released, block ∈ heap.obtained := by
  have accounted := owns.accounted
  rw [List.append_nil] at accounted
  refine ⟨fun block member => ?_, fun block member => accounted.mem_iff.mpr member⟩
  rw [← accounted.count_eq]
  exact List.count_eq_one_of_mem owns.distinct member

end FailingHeap
