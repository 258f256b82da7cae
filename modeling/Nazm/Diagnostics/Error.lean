import Nazm.Unicode.Arabic

/-!
Diagnostics with source spans.

Owns `NazmError`, `ErrorList` and `error_add_span` of `src/error/`, and the
`printf` conversions that build message texts.

Does not own the printing of diagnostics, nor the source text kept for it.
-/

namespace Nazm.Diagnostics

open Nazm.Unicode

/-- `NAZM_MAX_ERRORS`. -/
def nazmMaxErrors : Nat := 64

structure NazmError where
  file : List UInt8
  line : Nat
  col : Nat
  endCol : Nat
  message : List UInt8
deriving DecidableEq

structure ErrorList where
  errors : List NazmError
  fatal : Bool
deriving DecidableEq

/-- `error_list_init`. -/
def ErrorList.empty : ErrorList := ⟨[], false⟩

def normalizedEndCol (col endCol : Nat) : Nat := if endCol ≤ col then col + 1 else endCol

/-- The text of a C string: everything before its first NUL. -/
def cString (text : List UInt8) : List UInt8 := text.takeWhile fun byte => byte ≠ 0

theorem zero_notMem_cString (text : List UInt8) : 0 ∉ cString text := by
  intro member
  have kept := List.all_eq_true.mp (List.all_takeWhile (l := text)) 0 member
  contradiction

theorem cString_of_clean {text : List UInt8} (clean : 0 ∉ text) : cString text = text := by
  induction text with
  | nil => rfl
  | cons byte text inductionHypothesis =>
      rw [List.mem_cons, not_or] at clean
      have kept := List.takeWhile_cons_of_pos (p := fun byte => decide (byte ≠ 0))
        (a := byte) (l := text) (decide_eq_true (Ne.symm clean.1))
      rw [cString, kept]
      exact congrArg (byte :: ·) (inductionHypothesis clean.2)

/-- `error_add_span`. -/
def errorAddSpan (list : ErrorList) (file : Option (List UInt8)) (line col endCol : Nat)
    (message : List UInt8) : ErrorList :=
  if nazmMaxErrors ≤ list.errors.length then { list with fatal := true }
  else
    let text := cString message
    { list with
      errors := list.errors ++
        [⟨file.getD [], line, col, normalizedEndCol col endCol,
          text.take (utf8CompletePrefix text)⟩] }

/-- `error_has_any`. -/
def errorHasAny (list : ErrorList) : Bool := decide (0 < list.errors.length)

/-! ## Message texts -/

/-- `snprintf` into a buffer of `size` bytes, the last of them for the NUL. -/
def snprintf (size : Nat) (text : List UInt8) : List UInt8 := text.take (size - 1)

/-- `%d` and `%zu` of a number that is not negative. -/
def decimal (number : Nat) : List UInt8 :=
  (Nat.toDigits 10 number).map fun digit => UInt8.ofNat digit.toNat

/-- `%d` and `%lld`. -/
def decimalInt : Int → List UInt8
  | .ofNat number => decimal number
  | .negSucc number => 0x2D :: decimal (number + 1)

/-- `%04X`. -/
def hexadecimal4 (number : Nat) : List UInt8 :=
  let digits := (Nat.toDigits 16 number).map fun digit => UInt8.ofNat digit.toUpper.toNat
  List.replicate (4 - digits.length) 0x30 ++ digits

/-! ## Facts -/

/-- Once an error is recorded, every later report keeps it. -/
theorem errorAddSpan_ne_nil (list : ErrorList) (file : Option (List UInt8)) (line col endCol : Nat)
    (message : List UInt8) : (errorAddSpan list file line col endCol message).errors ≠ [] := by
  unfold errorAddSpan
  split
  · next full =>
      intro empty
      have none : list.errors = [] := empty
      rw [none] at full
      simp [nazmMaxErrors] at full
  · simp

@[simp] theorem errorHasAny_errorAddSpan (list : ErrorList) (file : Option (List UInt8))
    (line col endCol : Nat) (message : List UInt8) :
    errorHasAny (errorAddSpan list file line col endCol message) = true := by
  simpa [errorHasAny, List.length_pos_iff] using
    errorAddSpan_ne_nil list file line col endCol message

end Nazm.Diagnostics
