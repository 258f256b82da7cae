import Mathlib.Data.Nat.Bitwise
import Mathlib.Data.List.Basic

/-!
Memories of cells.

Owns reading, filling and writing ranges of a memory, what these leave of other
ranges, and rounding an address up to a power of two by a mask.

Does not own any allocator.
-/

namespace CellMemory

/-! ## Ranges of cells -/

section Cells

variable {Cell : Type} {memory : Nat → Cell} {start size address : Nat} {value : Cell}

/-- The cells from `start` on, `size` of them. -/
def readRange (memory : Nat → Cell) (start size : Nat) : List Cell :=
  (List.range size).map fun index => memory (start + index)

/-- Every cell of a range holds `value`. -/
def fillRange (memory : Nat → Cell) (start size : Nat) (value : Cell) : Nat → Cell :=
  fun cell => if start ≤ cell ∧ cell < start + size then value else memory cell

/-- One cell holds `value`. -/
def writeCell (memory : Nat → Cell) (address : Nat) (value : Cell) : Nat → Cell :=
  fun cell => if cell = address then value else memory cell

@[simp] theorem length_readRange (memory : Nat → Cell) (start size : Nat) :
    (readRange memory start size).length = size := by
  rw [readRange, List.length_map, List.length_range]

/-- A range reads the same in memories that agree on it. -/
theorem readRange_congr {other : Nat → Cell}
    (same : ∀ cell, start ≤ cell → cell < start + size → memory cell = other cell) :
    readRange memory start size = readRange other start size := by
  refine List.map_congr_left fun index member => ?_
  have inside := List.mem_range.mp member
  exact same (start + index) (Nat.le_add_right _ _) (by omega)

theorem readRange_fillRange_self (memory : Nat → Cell) (start size : Nat) (value : Cell) :
    readRange (fillRange memory start size value) start size = List.replicate size value := by
  refine List.eq_replicate_iff.mpr ⟨length_readRange _ _ _, fun cell member => ?_⟩
  obtain ⟨index, isIndex, rfl⟩ := List.mem_map.mp member
  have inside := List.mem_range.mp isIndex
  exact if_pos ⟨Nat.le_add_right _ _, by omega⟩

theorem readRange_fillRange_of_apart {other otherSize : Nat}
    (apart : other + otherSize ≤ start ∨ start + size ≤ other) :
    readRange (fillRange memory start size value) other otherSize =
      readRange memory other otherSize := by
  refine readRange_congr fun cell after_ before => if_neg ?_
  rintro ⟨inside, _⟩
  omega

theorem readRange_writeCell_of_outside (outside : address < start ∨ start + size ≤ address) :
    readRange (writeCell memory address value) start size = readRange memory start size := by
  refine readRange_congr fun cell after_ before => if_neg ?_
  rintro rfl
  omega

theorem readRange_writeCell_of_inside {index : Nat} :
    readRange (writeCell memory (start + index) value) start size =
      (readRange memory start size).set index value := by
  refine List.ext_getElem (by simp) fun place isPlace _ => ?_
  simp only [readRange, writeCell, List.getElem_map, List.getElem_range, List.getElem_set,
    Nat.add_left_cancel_iff]
  by_cases same : index = place
  · rw [if_pos same, if_pos same.symm]
  · rw [if_neg same, if_neg (Ne.symm same)]

end Cells

/-! ## Rounding -/

/-- Clearing the low bits of a word with a mask. -/
theorem and_mask_eq {word width bits : Nat} (fits : word < 2 ^ width) (few : bits ≤ width) :
    word &&& (2 ^ width - 1 - (2 ^ bits - 1)) = word / 2 ^ bits * 2 ^ bits := by
  have mask : 2 ^ width - 1 - (2 ^ bits - 1) = (2 ^ (width - bits) - 1) <<< bits := by
    have split : 2 ^ width = 2 ^ (width - bits) * 2 ^ bits := by
      rw [← Nat.pow_add, Nat.sub_add_cancel few]
    have positive : 0 < 2 ^ bits := Nat.two_pow_pos bits
    rw [Nat.shiftLeft_eq, Nat.sub_mul, ← split]
    omega
  rw [mask, ← Nat.shiftLeft_eq, ← Nat.shiftRight_eq_div_pow]
  refine Nat.eq_of_testBit_eq fun bit => ?_
  simp only [Nat.testBit_and, Nat.testBit_shiftLeft, Nat.testBit_shiftRight,
    Nat.testBit_two_pow_sub_one]
  by_cases high : bits ≤ bit
  · by_cases inWord : bit < width
    · simp [high, Nat.add_sub_cancel' high, show bit - bits < width - bits by omega]
    · have clear : word.testBit bit = false :=
        Nat.testBit_lt_two_pow (Nat.lt_of_lt_of_le fits
          (Nat.pow_le_pow_right (by decide) (Nat.le_of_not_lt inWord)))
      simp [high, Nat.add_sub_cancel' high, clear]
  · simp [high]

/-- The least multiple of `unit` that is not below `value`. -/
def roundUp (value unit : Nat) : Nat := (value + unit - 1) / unit * unit

theorem le_roundUp {value unit : Nat} (positive : 0 < unit) : value ≤ roundUp value unit := by
  have division := Nat.div_add_mod (value + unit - 1) unit
  have remainder := Nat.mod_lt (value + unit - 1) positive
  rw [Nat.mul_comm] at division
  unfold roundUp
  omega

@[simp] theorem roundUp_mod (value unit : Nat) : roundUp value unit % unit = 0 :=
  Nat.mul_mod_left _ _

end CellMemory
