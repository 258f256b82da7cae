import Mathlib.Data.Nat.Digits.Defs
import Mathlib.Algebra.Order.Group.Unbundled.Int
import Mathlib.Tactic.Ring

/-!
Fixed-width little-endian byte strings.

Owns the byte string of a natural number and of an integer, the number a byte
string stands for, the round trips between them, and the two's-complement
reading of a byte string.

Does not own any format: no field layout and no machine word type.
-/

namespace LittleEndian

/-- The `count` lowest base-256 digits of `value`, lowest first. -/
def bytes : Nat → Nat → List UInt8
  | 0, _ => []
  | count + 1, value => UInt8.ofNat value :: bytes count (value / 256)

/-- The number a byte string stands for, lowest byte first. -/
def value : List UInt8 → Nat
  | [] => 0
  | byte :: rest => byte.toNat + 256 * value rest

@[simp] theorem length_bytes (count number : Nat) : (bytes count number).length = count := by
  induction count generalizing number with
  | zero => rfl
  | succ count inductionHypothesis => simp [bytes, inductionHypothesis]

theorem value_lt (string : List UInt8) : value string < 256 ^ string.length := by
  induction string with
  | nil => simp [value]
  | cons byte rest inductionHypothesis =>
      have byteBound : byte.toNat < 256 := byte.toNat_lt
      simp only [value, List.length_cons, Nat.pow_succ]
      omega

/-- Reading back what was written keeps the low `count` digits. -/
theorem value_bytes (count number : Nat) : value (bytes count number) = number % 256 ^ count := by
  induction count generalizing number with
  | zero => simp [bytes, value, Nat.mod_one]
  | succ count inductionHypothesis =>
      simp only [bytes, value, inductionHypothesis]
      rw [Nat.pow_succ, Nat.mul_comm (256 ^ count) 256, Nat.mod_mul]
      rfl

theorem value_bytes_of_lt {count number : Nat} (small : number < 256 ^ count) :
    value (bytes count number) = number := by
  rw [value_bytes, Nat.mod_eq_of_lt small]

/-- Writing back what was read gives the same byte string. -/
theorem bytes_value (string : List UInt8) : bytes string.length (value string) = string := by
  induction string with
  | nil => rfl
  | cons byte rest inductionHypothesis =>
      have byteBound : byte.toNat < 256 := byte.toNat_lt
      have low : UInt8.ofNat (byte.toNat + 256 * value rest) = byte := by
        apply UInt8.toNat_inj.mp
        rw [UInt8.toNat_ofNat']
        omega
      have high : (byte.toNat + 256 * value rest) / 256 = value rest := by omega
      simp only [List.length_cons, value, bytes, low, high, inductionHypothesis]

/-- Only the number modulo `256 ^ count` is written. -/
theorem bytes_mod (count number : Nat) : bytes count (number % 256 ^ count) = bytes count number := by
  have back := bytes_value (bytes count number)
  rwa [length_bytes, value_bytes] at back

@[simp] theorem bytes_zero (count : Nat) : bytes count 0 = List.replicate count 0 := by
  induction count with
  | zero => rfl
  | succ count inductionHypothesis =>
      rw [bytes, Nat.zero_div, inductionHypothesis]
      rfl

/-- The two's-complement reading of a number of `width` bits. -/
def signed (width number : Nat) : Int :=
  if 2 * number < 2 ^ width then number else (number : Int) - 2 ^ width

/-- A two's-complement word is read back exactly when it is in range. -/
theorem signed_emod {width : Nat} {number : Int}
    (lower : -(2 ^ width) ≤ 2 * number) (upper : 2 * number < 2 ^ width) :
    signed width (number % 2 ^ width).toNat = number := by
  have positive : (0 : Int) < 2 ^ width := by positivity
  unfold signed
  rcases lt_or_ge number 0 with negative | nonnegative
  · have wrapped : number % 2 ^ width = number + 2 ^ width := by
      rw [← Int.add_emod_right, Int.emod_eq_of_lt (by omega) (by omega)]
    rw [wrapped, if_neg]
    · rw [Int.toNat_of_nonneg (by omega)]
      omega
    · intro small
      have : (2 * (number + 2 ^ width).toNat : Int) < 2 ^ width := by exact_mod_cast small
      rw [Int.toNat_of_nonneg (by omega)] at this
      omega
  · rw [Int.emod_eq_of_lt nonnegative (by omega), if_pos]
    · exact Int.toNat_of_nonneg nonnegative
    · have : (2 * number.toNat : Int) < 2 ^ width := by
        rw [Int.toNat_of_nonneg nonnegative]
        exact upper
      exact_mod_cast this

/-- The two's-complement reading keeps the number modulo the word size. -/
theorem signed_emod_self (width number : Nat) :
    signed width number % 2 ^ width = (number : Int) % 2 ^ width := by
  unfold signed
  split
  · rfl
  · exact Int.sub_emod_right (number : Int) (2 ^ width)

/-! ## Integers -/

/-- The `count` lowest bytes of an integer in two's complement, lowest first. -/
def intBytes : Nat → Int → List UInt8
  | 0, _ => []
  | count + 1, number => UInt8.ofInt number :: intBytes count (number / 256)

@[simp] theorem length_intBytes (count : Nat) (number : Int) :
    (intBytes count number).length = count := by
  induction count generalizing number with
  | zero => rfl
  | succ count inductionHypothesis => simp [intBytes, inductionHypothesis]

theorem toNat_ofInt (number : Int) : ((UInt8.ofInt number).toNat : Int) = number % 256 := by
  have inRange : 0 ≤ number % 256 ∧ number % 256 < 256 := by omega
  have asNat : (UInt8.ofInt number).toNat = (number % 256).toNat := by
    rw [UInt8.ofInt, UInt8.toNat_ofNat']
    omega
  rw [asNat, Int.toNat_of_nonneg inRange.1]

/-- The lowest base-256 digit of an integer, split off its other digits. -/
theorem emod_mul_digit (number : Int) {weight : Int} (positive : 0 < weight) :
    number % (256 * weight) = number % 256 + 256 * (number / 256 % weight) := by
  have digits : number =
      number % 256 + 256 * (number / 256 % weight) + 256 * weight * (number / 256 / weight) := by
    have low := Int.emod_add_mul_ediv number 256
    have high := Int.emod_add_mul_ediv (number / 256) weight
    calc number = number % 256 + 256 * (number / 256) := low.symm
      _ = number % 256 + 256 * (number / 256 % weight + weight * (number / 256 / weight)) := by
          rw [high]
      _ = _ := by ring
  have lowRange : 0 ≤ number % 256 ∧ number % 256 < 256 := by omega
  have highLower : 0 ≤ number / 256 % weight := Int.emod_nonneg _ (by omega)
  have highUpper : number / 256 % weight < weight := Int.emod_lt_of_pos _ positive
  conv_lhs => rw [digits]
  rw [Int.add_mul_emod_self_left, Int.emod_eq_of_lt (by omega) (by omega)]

theorem value_intBytes (count : Nat) (number : Int) :
    (value (intBytes count number) : Int) = number % 256 ^ count := by
  induction count generalizing number with
  | zero => simp [intBytes, value]
  | succ count inductionHypothesis =>
      have low := toNat_ofInt number
      have split : number % 256 ^ (count + 1) = number % 256 + 256 * (number / 256 % 256 ^ count) := by
        rw [Int.pow_succ, Int.mul_comm, emod_mul_digit number (by positivity)]
      simp only [intBytes, value, Nat.cast_add, Nat.cast_mul, inductionHypothesis, split]
      omega

/-- Numbers have the same bytes exactly when these cannot tell them apart. -/
theorem intBytes_eq_iff {count : Nat} {first second : Int} :
    intBytes count first = intBytes count second ↔ first % 256 ^ count = second % 256 ^ count := by
  have one := value_intBytes count first
  have two := value_intBytes count second
  constructor
  · intro same
    rw [← one, ← two, same]
  · intro same
    have sameValue : value (intBytes count first) = value (intBytes count second) := by omega
    have firstBytes := bytes_value (intBytes count first)
    have secondBytes := bytes_value (intBytes count second)
    rw [length_intBytes] at firstBytes secondBytes
    rw [← firstBytes, sameValue, secondBytes]

/-- The bytes of the number that a string stands for are the string. -/
theorem intBytes_value (string : List UInt8) :
    intBytes string.length (value string) = string := by
  have same := value_intBytes string.length (value string)
  have small := value_lt string
  rw [Int.emod_eq_of_lt (by omega) (by exact_mod_cast small)] at same
  have back := bytes_value (intBytes string.length (value string))
  rw [length_intBytes] at back
  rw [← back, show value (intBytes string.length (value string)) = value string by omega,
    bytes_value]

/-- A byte string that stands for an integer in signed range is read back as
that integer. -/
theorem signed_intBytes {count : Nat} {number : Int}
    (lower : -(2 ^ (8 * count)) ≤ 2 * number) (upper : 2 * number < 2 ^ (8 * count)) :
    signed (8 * count) (value (intBytes count number)) = number := by
  have power : (256 : Int) ^ count = 2 ^ (8 * count) := by rw [pow_mul]; norm_num
  have read : value (intBytes count number) = (number % 2 ^ (8 * count)).toNat := by
    have cast := value_intBytes count number
    rw [power] at cast
    omega
  rw [read, signed_emod lower upper]

/-- The signed reading of an integer's bytes agrees with it modulo the word size. -/
theorem signed_intBytes_emod (count : Nat) (number : Int) :
    signed (8 * count) (value (intBytes count number)) % 2 ^ (8 * count) =
      number % 2 ^ (8 * count) := by
  have power : (256 : Int) ^ count = 2 ^ (8 * count) := by rw [pow_mul]; norm_num
  rw [signed_emod_self, value_intBytes, power, Int.emod_emod_of_dvd _ (dvd_refl _)]

end LittleEndian
