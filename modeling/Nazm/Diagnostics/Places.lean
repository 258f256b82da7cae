import Nazm.Diagnostics.Error

/-!
Where diagnostics stand.

Owns that the diagnostics about a file stand at places of it, each over one
column at least, whatever a place is.

Does not own what the places of a source are.
-/

namespace Nazm.Diagnostics

/-- A diagnostic about a file, at a place of it. -/
structure Stands (Place : Nat → Nat → Prop) (name : List UInt8) (e : NazmError) : Prop where
  place : Place e.line e.col
  span : e.col < e.endCol
  file : e.file = name

def AllStand (Place : Nat → Nat → Prop) (name : List UInt8) (errors : ErrorList) : Prop :=
  ∀ e ∈ errors.errors, Stands Place name e

theorem lt_normalizedEndCol (col endCol : Nat) : col < normalizedEndCol col endCol := by
  unfold normalizedEndCol
  split <;> omega

namespace AllStand

variable {Place : Nat → Nat → Prop} {name : List UInt8} {errors : ErrorList}

theorem empty : AllStand Place name .empty := fun _ member => absurd member List.not_mem_nil

/-- A report at one more place. -/
theorem add (stand : AllStand Place name errors) {file : Option (List UInt8)}
    (isName : file.getD [] = name) {line col : Nat} (place : Place line col) (endCol : Nat)
    (message : List UInt8) :
    AllStand Place name (errorAddSpan errors file line col endCol message) := by
  unfold errorAddSpan
  split
  · exact stand
  · intro e member
    rcases List.mem_append.mp member with earlier | added
    · exact stand e earlier
    · rw [List.mem_singleton.mp added]
      exact ⟨place, lt_normalizedEndCol col endCol, isName⟩

end AllStand

end Nazm.Diagnostics
