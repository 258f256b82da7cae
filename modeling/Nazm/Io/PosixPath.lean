import Nazm.Diagnostics.Error
import Nazm.Library.SegmentStack

/-!
Path normalisation.

Owns `absolute_posix_path` and `normalized_posix_path` of `src/io/file.c` on a POSIX
host, with the buffer that the normal form is built in, and that the buffer holds the
stack of the path's segments.

Does not own what the host knows of its files, nor the paths of other hosts.
-/

namespace Nazm.Io

open Nazm.Diagnostics SegmentStack

/-! ## The buffer -/

def slash : UInt8 := 0x2F

def dot : UInt8 := 0x2E

/-- A store into a buffer; `none` is a store outside it. -/
def writeByte (buffer : List UInt8) (index : Nat) (byte : UInt8) : Option (List UInt8) :=
  if index < buffer.length then some (buffer.set index byte) else none

/-- `memcpy` into a buffer. -/
def copyBytes (buffer : List UInt8) (index : Nat) (bytes : List UInt8) : Option (List UInt8) :=
  if index + bytes.length ≤ buffer.length then
    some (buffer.take index ++ bytes ++ buffer.drop (index + bytes.length))
  else none

/-- The loop back to a separator; `none` is a read outside the buffer. -/
def backToSlash (buffer : List UInt8) : Nat → Option Nat
  | 0 => some 0
  | output + 1 =>
      if output = 0 then some 1
      else
        match buffer[output]? with
        | none => none
        | some byte => if byte = slash then some (output + 1) else backToSlash buffer output

/-- The branch of `..`. -/
def popSegment (buffer : List UInt8) (output : Nat) : Option Nat :=
  (backToSlash buffer output).map fun output => if 1 < output then output - 1 else output

/-- The branch of a segment that is kept. -/
def pushSegment (buffer : List UInt8) (output : Nat) (segment : List UInt8) :
    Option (List UInt8 × Nat) :=
  if 1 < output then
    (writeByte buffer output slash).bind fun buffer =>
      (copyBytes buffer (output + 1) segment).map fun buffer =>
        (buffer, output + 1 + segment.length)
  else
    (copyBytes buffer output segment).map fun buffer => (buffer, output + segment.length)

/-- The segment that a text starts with. -/
def segmentOf (input : List UInt8) : List UInt8 := input.takeWhile fun byte => byte ≠ slash

/-- What is behind that segment. -/
def afterSegment (input : List UInt8) : List UInt8 := input.dropWhile fun byte => byte ≠ slash

theorem length_afterSegment {input rest : List UInt8} {first : UInt8}
    (started : (input.dropWhile fun byte => byte = slash) = first :: rest) :
    (afterSegment (first :: rest)).length < input.length := by
  have isSegment : first ≠ slash := by
    have head := List.head?_dropWhile_not (fun byte => decide (byte = slash)) input
    rw [started] at head
    simpa using head
  have kept := (List.dropWhile_suffix (l := input) fun byte => byte = slash).length_le
  have left := (List.dropWhile_suffix (l := rest) fun byte => byte ≠ slash).length_le
  rw [started, List.length_cons] at kept
  rw [afterSegment, List.dropWhile_cons_of_pos (by simpa using isSegment)]
  omega

/-- The loop of `normalized_posix_path`, on what is left of the absolute path. -/
def normalizeLoop (input : List UInt8) (buffer : List UInt8) (output : Nat) :
    Option (List UInt8 × Nat) :=
  match _started : input.dropWhile fun byte => byte = slash with
  | [] => some (buffer, output)
  | first :: rest =>
      if segmentOf (first :: rest) = [dot] then
        normalizeLoop (afterSegment (first :: rest)) buffer output
      else if segmentOf (first :: rest) = [dot, dot] then
        (popSegment buffer output).bind fun output =>
          normalizeLoop (afterSegment (first :: rest)) buffer output
      else
        (pushSegment buffer output (segmentOf (first :: rest))).bind fun written =>
          normalizeLoop (afterSegment (first :: rest)) written.1 written.2
termination_by input.length
decreasing_by all_goals exact length_afterSegment _started

/-- What the host answers to `normalized_posix_path`: its working directory, whether it
grants the request for the absolute path, and the bytes of the result's buffer. -/
structure PosixHost where
  workingDirectory : Option (List UInt8)
  grantsPath : Bool
  fresh : Option (Nat → UInt8)

/-- `absolute_posix_path`. -/
def absolutePosixPath (host : PosixHost) (path : List UInt8) : Option (List UInt8) :=
  if path.head? = some slash then if host.grantsPath then some path else none
  else
    match host.workingDirectory with
    | none => none
    | some cwd =>
        if 2 ^ 64 - 1 - path.length - 2 < cwd.length then none
        else if host.grantsPath then some (cwd ++ slash :: path)
        else none

/-- The buffer work of `normalized_posix_path`, as a C string; `none` is an access
outside the buffer. -/
def normalizeInto (buffer absolute : List UInt8) : Option (List UInt8) :=
  (writeByte buffer 0 slash).bind fun buffer =>
    (normalizeLoop absolute buffer 1).bind fun written =>
      (writeByte written.1 written.2 0).map cString

/-- `normalized_posix_path`; the inner `none` is the null pointer. -/
def normalizedPosixPath (host : PosixHost) (path : List UInt8) : Option (Option (List UInt8)) :=
  match absolutePosixPath host path with
  | none => some none
  | some absolute =>
      match host.fresh with
      | none => some none
      | some bytes =>
          (normalizeInto ((List.range (absolute.length + 2)).map bytes) absolute).map some

/-! ## The stack in the buffer -/

/-- The segments of a path. -/
def pathMarks : Marks UInt8 := ⟨slash, [dot], [dot, dot]⟩

/-- The stack that the segments of a path leave. -/
abbrev pathStack (path : List UInt8) : List (List UInt8) := resolve pathMarks [] path

/-- The normal form of a path. -/
def normalForm (path : List UInt8) : List UInt8 := rooted pathMarks (pathStack path)

/-- The buffer holds a stack of plain segments. -/
structure HoldsStack (buffer : List UInt8) (output : Nat) (stack : List (List UInt8)) : Prop where
  plain : ∀ segment ∈ stack, Plain pathMarks segment
  text : buffer.take output = rooted pathMarks stack
  length : output = (rooted pathMarks stack).length

section Buffers

variable {buffer written bytes : List UInt8} {index output : Nat} {byte : UInt8}
  {stack : List (List UInt8)} {segment : List UInt8}

theorem writeByte_of_lt (inside : index < buffer.length) :
    ∃ written, writeByte buffer index byte = some written ∧ written.length = buffer.length ∧
      written.take (index + 1) = buffer.take index ++ [byte] := by
  refine ⟨_, if_pos inside, List.length_set, ?_⟩
  rw [List.take_add_one, List.take_set_of_le (Nat.le_refl index), List.getElem?_set_self inside]
  rfl

theorem copyBytes_of_le (inside : index + bytes.length ≤ buffer.length) :
    ∃ written, copyBytes buffer index bytes = some written ∧ written.length = buffer.length ∧
      written.take (index + bytes.length) = buffer.take index ++ bytes := by
  refine ⟨_, if_pos inside, ?_, ?_⟩
  · simp only [List.length_append, List.length_take, List.length_drop]
    omega
  · refine List.take_left' ?_
    rw [List.length_append, List.length_take]
    omega

/-- The scan from behind a segment stops where the segment starts. -/
theorem backToSlash_of_segment {before : List UInt8} (opens : before.getLast? = some slash)
    (noSlash : slash ∉ segment) (holds : buffer.take output = before ++ segment)
    (isOutput : output = (before ++ segment).length) :
    backToSlash buffer output = some before.length := by
  have some_ : before ≠ [] := fun empty => by simp [empty] at opens
  induction output generalizing segment with
  | zero =>
      have positive := List.length_pos_iff.mpr some_
      rw [List.length_append] at isOutput
      omega
  | succ output inductionHypothesis =>
      have positive := List.length_pos_iff.mpr some_
      have last : buffer[output]? = (before ++ segment).getLast? := by
        rw [List.getLast?_eq_getElem?, ← isOutput, ← holds, Nat.add_sub_cancel,
          List.getElem?_take_of_lt (Nat.lt_succ_self output)]
      rcases List.eq_nil_or_concat segment with rfl | ⟨head, byte, rfl⟩
      · rw [List.append_nil] at last isOutput
        unfold backToSlash
        rw [last, opens]
        dsimp only
        rw [if_pos rfl, isOutput]
        split
        · next first => rw [← isOutput, first]
        · rfl
      · rw [List.concat_eq_append] at *
        rw [List.length_append, List.length_append, List.length_singleton] at isOutput
        rw [← List.append_assoc, List.getLast?_concat] at last
        have notSlash : byte ≠ slash := fun isSlash =>
          noSlash (isSlash ▸ List.mem_append_right head (List.mem_singleton_self byte))
        unfold backToSlash
        rw [if_neg (by omega), last]
        dsimp only
        rw [if_neg notSlash]
        refine inductionHypothesis (fun member => noSlash (List.mem_append_left _ member)) ?_ ?_
        · have shorter := congrArg (List.take output) holds
          rw [List.take_take, Nat.min_eq_left (Nat.le_succ output), ← List.append_assoc] at shorter
          rw [shorter, List.take_left' (by rw [List.length_append]; omega)]
        · rw [List.length_append]
          omega

/-- `..` takes the top segment off. -/
theorem HoldsStack.pop (holds : HoldsStack buffer output stack) :
    ∃ popped, popSegment buffer output = some popped ∧ popped ≤ output ∧
      HoldsStack buffer popped stack.dropLast := by
  rcases List.eq_nil_or_concat stack with rfl | ⟨below, top, isStack⟩
  · obtain ⟨plain, text, isOutput⟩ := holds
    obtain rfl : output = 1 := isOutput
    exact ⟨1, rfl, Nat.le_refl 1, ⟨plain, text, rfl⟩⟩
  · rw [List.concat_eq_append] at isStack
    subst isStack
    obtain ⟨plain, text, isOutput⟩ := holds
    rw [rooted_append_singleton] at text isOutput
    have isTop := plain top (List.mem_append_right below (List.mem_singleton_self top))
    have plainBelow : ∀ segment ∈ below, Plain pathMarks segment := fun segment member =>
      plain segment (List.mem_append_left _ member)
    have opens : (opened pathMarks below).getLast? = some slash := by
      cases below with
      | nil => rfl
      | cons head tail => exact List.getLast?_concat
    have scanned := backToSlash_of_segment opens isTop.noSeparator text isOutput
    have popped : (if 1 < (opened pathMarks below).length then (opened pathMarks below).length - 1
        else (opened pathMarks below).length) = (rooted pathMarks below).length ∧
        ∃ tail, opened pathMarks below = rooted pathMarks below ++ tail := by
      by_cases empty : below = []
      · rw [empty]
        exact ⟨rfl, [], rfl⟩
      · have several := mt (length_rooted_eq_one plainBelow).mp empty
        have positive : 0 < (rooted pathMarks below).length := Nat.succ_pos _
        rw [opened_of_ne_nil empty, List.length_append, List.length_singleton, if_pos (by omega)]
        exact ⟨rfl, _, rfl⟩
    obtain ⟨isPopped, tail, isOpened⟩ := popped
    rw [popSegment, scanned, Option.map_some, List.dropLast_concat, isPopped]
    rw [isOpened, List.append_assoc] at text isOutput
    have shorter : (rooted pathMarks below).length ≤ output := by
      rw [isOutput, List.length_append]
      exact Nat.le_add_right _ _
    refine ⟨_, rfl, shorter, ⟨plainBelow, ?_, rfl⟩⟩
    have taken := congrArg (List.take (rooted pathMarks below).length) text
    rwa [List.take_take, Nat.min_eq_left shorter, List.take_left] at taken

/-- A kept segment is put on the stack. -/
theorem HoldsStack.push (holds : HoldsStack buffer output stack)
    (plain : Plain pathMarks segment) (room : output + 1 + segment.length ≤ buffer.length) :
    ∃ written after_, pushSegment buffer output segment = some (written, after_) ∧
      written.length = buffer.length ∧ after_ ≤ output + 1 + segment.length ∧
      HoldsStack written after_ (stack ++ [segment]) := by
  obtain ⟨plains, text, isOutput⟩ := holds
  have plainAll : ∀ kept ∈ stack ++ [segment], Plain pathMarks kept := by
    intro kept member
    rcases List.mem_append.mp member with earlier | isNew
    · exact plains kept earlier
    · exact List.mem_singleton.mp isNew ▸ plain
  have positive : 0 < (rooted pathMarks stack).length := Nat.succ_pos _
  by_cases empty : stack = []
  · have isOne : output = 1 := isOutput.trans ((length_rooted_eq_one plains).mpr empty)
    obtain ⟨written, copied, sameLength, taken⟩ :=
      @copyBytes_of_le buffer segment output (by omega)
    refine ⟨written, _, by rw [pushSegment, if_neg (by omega), copied]; rfl, sameLength, by omega,
      ⟨plainAll, ?_, ?_⟩⟩
    · rw [taken, text, rooted_append_singleton, empty]
      rfl
    · rw [rooted_append_singleton, empty, isOne, List.length_append]
      rfl
  · have several := mt (length_rooted_eq_one plains).mp empty
    obtain ⟨separated, wrote, firstLength, firstTaken⟩ :=
      @writeByte_of_lt buffer output slash (by omega)
    obtain ⟨written, copied, sameLength, taken⟩ :=
      @copyBytes_of_le separated segment (output + 1) (by omega)
    have isPushed : pushSegment buffer output segment =
        some (written, output + 1 + segment.length) := by
      rw [pushSegment, if_pos (by omega), wrote, Option.bind_some, copied]
      rfl
    refine ⟨written, _, isPushed, sameLength.trans firstLength, Nat.le_refl _, ⟨plainAll, ?_, ?_⟩⟩
    · rw [taken, firstTaken, text, rooted_append_singleton, opened_of_ne_nil empty]
      rfl
    · rw [rooted_append_singleton, opened_of_ne_nil empty, List.length_append, List.length_append,
        List.length_singleton, isOutput]

end Buffers

/-! ## The loop -/

/-- What one turn reads: a segment behind at least one separator. -/
structure TurnRead (input segment left : List UInt8) : Prop where
  some_ : segment ≠ []
  noSlash : slash ∉ segment
  ends : left = [] ∨ left.head? = some slash
  shorter : 1 + segment.length + left.length ≤ input.length
  resolved : ∀ stack, resolve pathMarks stack input =
    resolve pathMarks (step pathMarks stack segment) left

theorem turnRead {input rest : List UInt8} {first : UInt8}
    (started : (input.dropWhile fun byte => byte = slash) = first :: rest)
    (opens : input = [] ∨ input.head? = some slash) :
    TurnRead input (segmentOf (first :: rest)) (afterSegment (first :: rest)) := by
  have isSegment : first ≠ slash := by
    have head := List.head?_dropWhile_not (fun byte => decide (byte = slash)) input
    rw [started] at head
    simpa using head
  have noSlash : slash ∉ segmentOf (first :: rest) := by
    intro member
    have kept := List.all_eq_true.mp (List.all_takeWhile (l := first :: rest)) slash member
    simp at kept
  have ends : afterSegment (first :: rest) = [] ∨
      (afterSegment (first :: rest)).head? = some slash := by
    have head := List.head?_dropWhile_not (fun byte => decide (byte ≠ slash)) (first :: rest)
    cases left : afterSegment (first :: rest) with
    | nil => exact .inl rfl
    | cons next tail =>
        rw [afterSegment] at left
        rw [left] at head
        exact .inr (congrArg some (by simpa using head))
  have whole : segmentOf (first :: rest) ++ afterSegment (first :: rest) = first :: rest :=
    List.takeWhile_append_dropWhile
  refine ⟨?_, noSlash, ends, ?_, fun stack => ?_⟩
  · rw [segmentOf, List.takeWhile_cons_of_pos (by simpa using isSegment)]
    exact List.cons_ne_nil _ _
  · have dropped : (first :: rest).length < input.length := by
      rcases opens with rfl | isSlash
      · contradiction
      · obtain ⟨tail, rfl⟩ := List.head?_eq_some_iff.mp isSlash
        rw [List.dropWhile_cons_of_pos (by simp)] at started
        have kept := (List.dropWhile_suffix (l := tail) fun byte => byte = slash).length_le
        rw [started] at kept
        exact Nat.lt_succ_of_le kept
    have total := congrArg List.length whole
    rw [List.length_append] at total
    omega
  · have skipped := @resolve_dropWhile_separator _ _ pathMarks stack input
    change resolve pathMarks stack (input.dropWhile fun byte => byte = slash) = _ at skipped
    rw [← skipped, started]
    conv => lhs; rw [← whole]
    exact resolve_segment noSlash ends

/-- The loop leaves the stack of the segments of what it reads. -/
theorem normalizeLoop_holds {input buffer : List UInt8} {output : Nat}
    {stack : List (List UInt8)} (holds : HoldsStack buffer output stack)
    (opens : input = [] ∨ input.head? = some slash)
    (room : output + input.length < buffer.length) :
    ∃ written after_, normalizeLoop input buffer output = some (written, after_) ∧
      after_ < written.length ∧ HoldsStack written after_ (resolve pathMarks stack input) := by
  fun_induction normalizeLoop input buffer output generalizing stack with
  | case1 input buffer output ended =>
      have same := @resolve_dropWhile_separator _ _ pathMarks stack input
      change resolve pathMarks stack (input.dropWhile fun byte => byte = slash) = _ at same
      rw [ended, resolve_nil] at same
      exact ⟨buffer, output, rfl, by omega, same ▸ holds⟩
  | case2 input buffer output first rest started isHere inductionHypothesis =>
      obtain ⟨-, -, ends, shorter, resolved⟩ := turnRead started opens
      rw [resolved, step, if_pos (.inr isHere)]
      exact inductionHypothesis holds ends (by omega)
  | case3 input buffer output first rest started notHere isUp inductionHypothesis =>
      obtain ⟨some_, -, ends, shorter, resolved⟩ := turnRead started opens
      obtain ⟨popped, isPopped, below, holdsPopped⟩ := holds.pop
      have isStep : step pathMarks stack (segmentOf (first :: rest)) = stack.dropLast :=
        (if_neg (not_or.mpr ⟨some_, notHere⟩)).trans (if_pos isUp)
      rw [resolved, isStep, isPopped]
      exact inductionHypothesis popped holdsPopped ends (by omega)
  | case4 input buffer output first rest started notHere notUp inductionHypothesis =>
      obtain ⟨some_, noSlash, ends, shorter, resolved⟩ := turnRead started opens
      have plain : Plain pathMarks (segmentOf (first :: rest)) :=
        ⟨some_, notHere, notUp, noSlash⟩
      obtain ⟨written, after_, isPushed, sameLength, reached, holdsPushed⟩ :=
        holds.push plain (by omega)
      rw [resolved, step_of_plain plain, isPushed]
      exact inductionHypothesis (written, after_) holdsPushed ends (by dsimp only; omega)

/-! ## Normal forms -/

theorem cString_append_zero {text : List UInt8} (clean : 0 ∉ text) (rest : List UInt8) :
    cString (text ++ 0 :: rest) = text := by
  rw [cString, List.takeWhile_append_of_pos, List.takeWhile_cons_of_neg (by simp), List.append_nil]
  intro byte member
  exact decide_eq_true fun isZero => clean (isZero ▸ member)

theorem zero_notMem_normalForm {path : List UInt8} (clean : 0 ∉ path) : 0 ∉ normalForm path := by
  intro member
  rcases of_mem_rooted_resolve member with isSlash | inPath
  · exact absurd isSlash (by decide)
  · exact clean inPath

/-- The buffer work writes the normal form, and stays inside the buffer. -/
theorem normalizeInto_eq {buffer absolute : List UInt8}
    (isAbsolute : absolute.head? = some slash) (clean : 0 ∉ absolute)
    (room : buffer.length = absolute.length + 2) :
    normalizeInto buffer absolute = some (normalForm absolute) := by
  obtain ⟨started, wrote, startLength, startText⟩ := @writeByte_of_lt buffer 0 slash (by omega)
  have holds : HoldsStack started 1 [] :=
    ⟨fun segment member => absurd member List.not_mem_nil, startText, rfl⟩
  obtain ⟨written, output, ran, inside, held⟩ :=
    normalizeLoop_holds holds (.inr isAbsolute) (by omega)
  obtain ⟨final, ended, -, endText⟩ := @writeByte_of_lt written output 0 inside
  have noZero := zero_notMem_normalForm clean
  have split : final = normalForm absolute ++ 0 :: final.drop (output + 1) := by
    conv => lhs; rw [← List.take_append_drop (output + 1) final, endText, held.text]
    rw [List.append_assoc]
    rfl
  rw [normalizeInto, wrote, Option.bind_some, ran, Option.bind_some, ended, Option.map_some,
    split, cString_append_zero noZero]

/-- The normal form of a normal form. -/
theorem normalForm_normalForm (path : List UInt8) :
    normalForm (normalForm path) = normalForm path := by
  have plain : ∀ segment ∈ pathStack path, Plain pathMarks segment :=
    plain_resolve fun segment member => absurd member List.not_mem_nil
  exact congrArg (rooted pathMarks) (resolve_rooted plain)

/-- The host grants what `normalized_posix_path` asks for. -/
def PosixHost.grants (host : PosixHost) : Bool := host.grantsPath && host.fresh.isSome

theorem normalizedPosixPath_of_absolute (host : PosixHost) {path : List UInt8}
    (isAbsolute : path.head? = some slash) (clean : 0 ∉ path) :
    normalizedPosixPath host path =
      some (if host.grants then some (normalForm path) else none) := by
  rw [normalizedPosixPath, absolutePosixPath, if_pos isAbsolute, PosixHost.grants]
  cases host.grantsPath with
  | false => rfl
  | true =>
      cases fresh : host.fresh with
      | none => rfl
      | some bytes =>
          have room : ((List.range (path.length + 2)).map bytes).length = path.length + 2 := by
            rw [List.length_map, List.length_range]
          simp only [if_true, Option.isSome_some, Bool.and_true]
          rw [normalizeInto_eq isAbsolute clean room]
          rfl

/-- An absolute path is normalised to the stack of its segments, with every access
inside the buffer, and the result is left as it is by any later call. -/
theorem posix_path_normal_form (host : PosixHost) (path : List UInt8)
    (isAbsolute : path.head? = some slash) (clean : 0 ∉ path) :
    normalizedPosixPath host path =
        some (if host.grants then some (normalForm path) else none) ∧
      ∀ later result, later.grants = true → normalizedPosixPath host path = some (some result) →
        normalizedPosixPath later result = some (some result) := by
  have first := normalizedPosixPath_of_absolute host isAbsolute clean
  refine ⟨first, fun later result granted isResult => ?_⟩
  rw [first] at isResult
  split at isResult
  · obtain rfl := Option.some.inj (Option.some.inj isResult)
    rw [normalizedPosixPath_of_absolute later rfl (zero_notMem_normalForm clean), granted, if_pos rfl,
      normalForm_normalForm]
  · exact absurd (Option.some.inj isResult) (by simp)

/-- `/a//b/../.c/./..`. -/
def dottedPath : List UInt8 :=
  [0x2F, 0x61, 0x2F, 0x2F, 0x62, 0x2F, 0x2E, 0x2E, 0x2F, 0x2E, 0x63, 0x2F, 0x2E, 0x2F, 0x2E, 0x2E]

/-- A host that grants everything, with a buffer of bytes that are not zero. -/
def grantingHost : PosixHost := ⟨none, true, some fun _ => 0xAA⟩

theorem posix_path_normal_form_dotted :
    normalizedPosixPath grantingHost dottedPath = some (some [0x2F, 0x61]) ∧
      normalizedPosixPath grantingHost [0x2F, 0x61] = some (some [0x2F, 0x61]) := by
  obtain ⟨normal, fixed⟩ := posix_path_normal_form grantingHost dottedPath rfl (by decide)
  have isShort : normalForm dottedPath = [0x2F, 0x61] := by decide +kernel
  rw [isShort] at normal
  exact ⟨normal, fixed grantingHost _ rfl normal⟩

end Nazm.Io
