import Nazm.Cli.Outputs
import Nazm.Io.PosixPath
import Nazm.Library.FailingHeap

/-!
Whether two paths name one file.

Owns `io_path_identity` of `src/io/file.c` on a POSIX host with what it calls, over a
heap whose requests may fail; exactly which answer it gives, whatever fails, and that it
releases what it obtains.

Does not own the host: which file it finds under a path and what it says of its working
directory are parameters. The paths of a Windows host are left out.
-/

namespace Nazm.Io

open FailingHeap
open Nazm.Cli Nazm.Diagnostics

/-! ## The host -/

/-- The error numbers that the helpers tell apart. -/
inductive Errno where
  | enomem | erange | enametoolong
  | other (number : Nat)
deriving DecidableEq, Repr

/-- How the host answers: which requests the heap grants, what lies in the block of a
request, what `getcwd` says for a buffer of some size, and the device and the number of the
file that `stat` finds. A working directory is an absolute path. -/
structure IoHost (File : Type) where
  grants : Nat → Bool
  garbage : Nat → Nat → UInt8
  getcwd : Nat → Except Errno (List UInt8)
  stat : List UInt8 → Option File
  absolute : ∀ capacity cwd, getcwd capacity = .ok cwd → cwd.head? = some slash ∧ 0 ∉ cwd

/-- A text in a block of its own. -/
structure HeapPath where
  block : Nat
  text : List UInt8
deriving DecidableEq

/-- A text, or the error number that is left behind. -/
abbrev PathResult := Except Errno HeapPath × Heap

section Calls

variable {File : Type}

/-- `duplicate_string`. -/
def duplicateString (host : IoHost File) (text : List UInt8) (heap : Heap) : PathResult :=
  match heap.request host.grants with
  | (none, heap) => (.error .enomem, heap)
  | (some block, heap) => (.ok ⟨block, text⟩, heap)

/-- The loop of `current_working_directory`. -/
def cwdLoop (host : IoHost File) : Nat → Nat → Heap → PathResult
  | 0, _, heap => (.error .erange, heap)
  | turns + 1, capacity, heap =>
      match heap.request host.grants with
      | (none, heap) => (.error .enomem, heap)
      | (some buffer, heap) =>
          match host.getcwd capacity with
          | .ok cwd => (.ok ⟨buffer, cwd⟩, heap)
          | .error error =>
              let heap := heap.release (some buffer)
              if error ≠ .erange ∨ (2 ^ 64 - 1) / 2 < capacity then (.error error, heap)
              else cwdLoop host turns (capacity * 2) heap

/-- `current_working_directory`: the sizes from 2^8 to 2^63. -/
def currentWorkingDirectory (host : IoHost File) (heap : Heap) : PathResult :=
  cwdLoop host 56 256 heap

/-- `absolute_posix_path`. -/
def absolutePath (host : IoHost File) (path : List UInt8) (heap : Heap) : PathResult :=
  if path.head? = some slash then duplicateString host path heap
  else
    match currentWorkingDirectory host heap with
    | (.error error, heap) => (.error error, heap)
    | (.ok cwd, heap) =>
        if 2 ^ 64 - 1 - path.length - 2 < cwd.text.length then
          (.error .enametoolong, heap.release (some cwd.block))
        else
          match heap.request host.grants with
          | (none, heap) => (.error .enomem, heap.release (some cwd.block))
          | (some block, heap) =>
              (.ok ⟨block, cwd.text ++ slash :: path⟩, heap.release (some cwd.block))

/-- `normalized_posix_path`; the buffer holds every access of `normalize_into`. -/
def normalizedPath (host : IoHost File) (path : List UInt8) (heap : Heap) : PathResult :=
  match absolutePath host path heap with
  | (.error error, heap) => (.error error, heap)
  | (.ok absolute, heap) =>
      match heap.request host.grants with
      | (none, heap) => (.error .enomem, heap.release (some absolute.block))
      | (some block, heap) =>
          let buffer := (List.range (absolute.text.length + 2)).map (host.garbage block)
          (.ok ⟨block, (normalizeInto buffer absolute.text).getD []⟩,
            heap.release (some absolute.block))

/-- `noting_exhaustion`: whether a result records that the memory ran out. -/
def notingExhaustion (result : Except Errno HeapPath) (exhausted : Bool) : Bool :=
  match result with
  | .error error => exhausted || decide (error = .enomem)
  | .ok _ => exhausted

/-- The block of a result, for `nazm_sys_free`. -/
def pathBlock : Except Errno HeapPath → Option Nat
  | .ok path => some path.block
  | .error _ => none

/-- `io_path_identity`. -/
def ioPathIdentity [DecidableEq File] (host : IoHost File) (left right : List UInt8)
    (heap : Heap) : IoPathIdentity × Heap :=
  if left = [] ∨ right = [] then (.different, heap)
  else if left = right then (.same, heap)
  else if (host.stat left).isSome ∧ host.stat left = host.stat right then (.same, heap)
  else
    let (fullLeft, heap) := normalizedPath host left heap
    let exhausted := notingExhaustion fullLeft false
    let (fullRight, heap) := normalizedPath host right heap
    let exhausted := notingExhaustion fullRight exhausted
    let same :=
      match fullLeft, fullRight with
      | .ok left, .ok right => decide (left.text = right.text)
      | _, _ => false
    let heap := (heap.release (pathBlock fullLeft)).release (pathBlock fullRight)
    if same then (.same, heap)
    else if exhausted then (.unknown, heap)
    else (.different, heap)

end Calls

/-! ## Answers without a heap -/

section Answers

variable {File : Type}

/-- What the loop of `current_working_directory` finds out. -/
def cwdAnswer (host : IoHost File) : Nat → Nat → Except Errno (List UInt8)
  | 0, _ => .error .erange
  | turns + 1, capacity =>
      match host.getcwd capacity with
      | .ok cwd => .ok cwd
      | .error error =>
          if error ≠ .erange ∨ (2 ^ 64 - 1) / 2 < capacity then .error error
          else cwdAnswer host turns (capacity * 2)

/-- The absolute form of a path. -/
def absoluteAnswer (host : IoHost File) (path : List UInt8) : Except Errno (List UInt8) :=
  if path.head? = some slash then .ok path
  else
    match cwdAnswer host 56 256 with
    | .error error => .error error
    | .ok cwd =>
        if 2 ^ 64 - 1 - path.length - 2 < cwd.length then .error .enametoolong
        else .ok (cwd ++ slash :: path)

/-- The normal form of a path of the host. -/
def normalAnswer (host : IoHost File) (path : List UInt8) : Except Errno (List UInt8) :=
  (absoluteAnswer host path).map normalForm

theorem cwdAnswer_absolute {host : IoHost File} {turns capacity : Nat} {cwd : List UInt8}
    (answer : cwdAnswer host turns capacity = .ok cwd) : cwd.head? = some slash ∧ 0 ∉ cwd := by
  induction turns generalizing capacity with
  | zero => contradiction
  | succ turns inductionHypothesis =>
      rw [cwdAnswer] at answer
      split at answer
      · next found =>
          obtain rfl := Except.ok.inj answer
          exact host.absolute _ _ found
      · split at answer
        · contradiction
        · exact inductionHypothesis answer

/-- A host that names its working directory to every buffer that holds it. -/
def NamesDirectory (host : IoHost File) (cwd : List UInt8) : Prop :=
  ∀ capacity, host.getcwd capacity = if cwd.length < capacity then .ok cwd else .error .erange

theorem cwdAnswer_named {host : IoHost File} {cwd : List UInt8} (names : NamesDirectory host cwd)
    (short : cwd.length < 2 ^ 63) {turns capacity : Nat}
    (reaches : cwd.length < capacity * 2 ^ turns) :
    cwdAnswer host (turns + 1) capacity = .ok cwd := by
  induction turns generalizing capacity with
  | zero =>
      rw [Nat.pow_zero, Nat.mul_one] at reaches
      rw [cwdAnswer, names, if_pos reaches]
  | succ turns inductionHypothesis =>
      rw [cwdAnswer, names]
      by_cases fits : cwd.length < capacity
      · rw [if_pos fits]
      · have goesOn : ¬ (Errno.erange ≠ .erange ∨ (2 ^ 64 - 1) / 2 < capacity) := by
          rintro (differs | large)
          · exact differs rfl
          · omega
        rw [if_neg fits]
        dsimp only
        rw [if_neg goesOn]
        apply inductionHypothesis
        rw [Nat.pow_succ] at reaches
        rw [Nat.mul_assoc, Nat.mul_comm 2]
        exact reaches

/-- The absolute form of a path, below a directory. -/
def absoluteForm (cwd path : List UInt8) : List UInt8 :=
  if path.head? = some slash then path else cwd ++ slash :: path

theorem absoluteAnswer_named {host : IoHost File} {cwd path : List UInt8}
    (names : NamesDirectory host cwd) (short : cwd.length + path.length < 2 ^ 63) :
    absoluteAnswer host path = .ok (absoluteForm cwd path) := by
  have named := @cwdAnswer_named File host cwd names (by omega) 55 256 (by omega)
  unfold absoluteAnswer absoluteForm
  split
  · rfl
  · rw [named]
    exact if_neg (by omega)

/-- The absolute form of a C string is an absolute path and a C string. -/
theorem absoluteAnswer_absolute {host : IoHost File} {path absolute : List UInt8}
    (clean : 0 ∉ path) (answer : absoluteAnswer host path = .ok absolute) :
    absolute.head? = some slash ∧ 0 ∉ absolute := by
  unfold absoluteAnswer at answer
  split at answer
  · next isAbsolute =>
      obtain rfl := Except.ok.inj answer
      exact ⟨isAbsolute, clean⟩
  · split at answer
    · contradiction
    · next cwd found =>
        obtain ⟨isAbsolute, noZero⟩ := cwdAnswer_absolute found
        split at answer
        · contradiction
        · obtain rfl := Except.ok.inj answer
          obtain ⟨tail, rfl⟩ := List.head?_eq_some_iff.mp isAbsolute
          refine ⟨rfl, ?_⟩
          intro member
          rcases List.mem_append.mp member with inCwd | behind
          · exact noZero inCwd
          · rcases List.mem_cons.mp behind with isSlash | inPath
            · exact absurd isSlash (by decide)
            · exact clean inPath

end Answers

/-! ## Calls that may run out of memory -/

/-- A helper gives its answer in a block, or it was refused one and says so; it owns
nothing else. -/
structure Yields (before : Heap) (result : PathResult) (answer : Except Errno (List UInt8))
    (ok : Bool) : Prop where
  step : Step before result.2 [] (pathBlock result.1).toList ok
  whole : ok = true → result.1.map HeapPath.text = answer
  refused : ok = false → result.1 = .error .enomem

section Helpers

variable {File : Type} {host : IoHost File} {path : List UInt8} {before after : Heap}

theorem yields_refused (step : Step before after [] [] false)
    (answer : Except Errno (List UInt8)) : Yields before (.error .enomem, after) answer false :=
  ⟨step, fun impossible => absurd impossible Bool.false_ne_true, fun _ => rfl⟩

theorem yields_error (step : Step before after [] [] true) (error : Errno) :
    Yields before (.error error, after) (.error error) true :=
  ⟨step, fun _ => rfl, fun impossible => absurd impossible.symm Bool.false_ne_true⟩

theorem yields_ok {block : Nat} {text : List UInt8} (step : Step before after [] [block] true) :
    Yields before (.ok ⟨block, text⟩, after) (.ok text) true :=
  ⟨step, fun _ => rfl, fun impossible => absurd impossible.symm Bool.false_ne_true⟩

theorem duplicateString_yields (text : List UInt8) (heap : Heap) :
    ∃ ok, Yields heap (duplicateString host text heap) (.ok text) ok := by
  unfold duplicateString
  split
  · next refused => exact ⟨false, yields_refused (step_notGranted refused) _⟩
  · next granted => exact ⟨true, yields_ok (step_granted granted)⟩

theorem cwdLoop_yields (turns capacity : Nat) (heap : Heap) :
    ∃ ok, Yields heap (cwdLoop host turns capacity heap) (cwdAnswer host turns capacity) ok := by
  induction turns generalizing capacity heap with
  | zero => exact ⟨true, yields_error (.refl heap []) _⟩
  | succ turns inductionHypothesis =>
      rw [cwdLoop, cwdAnswer]
      split
      · next refused => exact ⟨false, yields_refused (step_notGranted refused) _⟩
      · next buffer after granted =>
          have obtained := step_granted granted
          split
          · exact ⟨true, yields_ok obtained⟩
          · have released := obtained.trans (step_release after buffer)
            dsimp only
            split
            · exact ⟨true, yields_error released _⟩
            · obtain ⟨ok, step, whole, refused⟩ :=
                inductionHypothesis (capacity * 2) (after.release (some buffer))
              have both := released.trans step
              rw [Bool.true_and, Bool.true_and] at both
              exact ⟨ok, both, whole, refused⟩

/-- What follows a helper: its error is passed on, and its text is used and released. -/
theorem yields_of_helper {call : PathResult} {answer : Except Errno (List UInt8)}
    (helper : ∃ ok, Yields before call answer ok)
    {next : HeapPath → Heap → PathResult} {answerNext : List UInt8 → Except Errno (List UInt8)}
    (follows : ∀ text heap, answer = .ok text.text → ∃ ok,
      Step heap (next text heap).2 [text.block] (pathBlock (next text heap).1).toList ok ∧
        (ok = true → (next text heap).1.map HeapPath.text = answerNext text.text) ∧
        (ok = false → (next text heap).1 = .error .enomem)) :
    ∃ ok, Yields before
      (match call with
        | (.error error, heap) => (.error error, heap)
        | (.ok text, heap) => next text heap)
      (match answer with
        | .error error => .error error
        | .ok text => answerNext text) ok := by
  obtain ⟨ok, step, whole, refused⟩ := helper
  obtain ⟨result, after⟩ := call
  cases ok with
  | false =>
      obtain rfl : result = .error .enomem := refused rfl
      exact ⟨false, yields_refused step _⟩
  | true =>
      have isAnswer := whole rfl
      cases result with
      | error error =>
          obtain rfl : .error error = answer := isAnswer
          exact ⟨true, yields_error step error⟩
      | ok text =>
          obtain rfl : .ok text.text = answer := isAnswer
          obtain ⟨ok, stepNext, wholeNext, refusedNext⟩ := follows text after rfl
          have both := step.trans stepNext
          rw [Bool.true_and] at both
          exact ⟨ok, both, wholeNext, refusedNext⟩

theorem absolutePath_yields (path : List UInt8) (heap : Heap) :
    ∃ ok, Yields heap (absolutePath host path heap) (absoluteAnswer host path) ok := by
  unfold absolutePath absoluteAnswer
  split
  · exact duplicateString_yields path heap
  · apply yields_of_helper (cwdLoop_yields 56 256 heap)
    intro cwd heap _
    split
    · exact ⟨true, step_release heap cwd.block, fun _ => rfl,
        fun impossible => absurd impossible.symm Bool.false_ne_true⟩
    · split
      · next refused =>
          exact ⟨false, step_replaceRefused refused,
            fun impossible => absurd impossible Bool.false_ne_true, fun _ => rfl⟩
      · next granted =>
          exact ⟨true, step_replace granted, fun _ => rfl,
            fun impossible => absurd impossible.symm Bool.false_ne_true⟩

theorem normalizedPath_yields (clean : 0 ∉ path) (heap : Heap) :
    ∃ ok, Yields heap (normalizedPath host path heap) (normalAnswer host path) ok := by
  have isNormal : normalAnswer host path =
      match absoluteAnswer host path with
      | .error error => .error error
      | .ok absolute => .ok (normalForm absolute) := by
    unfold normalAnswer
    cases absoluteAnswer host path <;> rfl
  rw [isNormal]
  unfold normalizedPath
  apply yields_of_helper (absolutePath_yields path heap)
  intro absolute heap isAbsolute
  obtain ⟨rooted, noZero⟩ := absoluteAnswer_absolute clean isAbsolute
  split
  · next refused =>
      exact ⟨false, step_replaceRefused refused,
        fun impossible => absurd impossible Bool.false_ne_true, fun _ => rfl⟩
  · next block after granted =>
      have room : ((List.range (absolute.text.length + 2)).map (host.garbage block)).length =
          absolute.text.length + 2 := by
        rw [List.length_map, List.length_range]
      have written := normalizeInto_eq rooted noZero room
      dsimp only
      rw [written]
      exact ⟨true, step_replace granted, fun _ => rfl,
        fun impossible => absurd impossible.symm Bool.false_ne_true⟩

end Helpers

/-! ## The answer -/

section Identity

variable {File : Type} [DecidableEq File] {host : IoHost File} {left right : List UInt8}

/-- The answer for two normal forms, where the host has them. -/
def answeredIdentity (left right : Except Errno (List UInt8)) : IoPathIdentity :=
  match left, right with
  | .ok left, .ok right => if left = right then .same else .different
  | .error .enomem, _ => .unknown
  | _, .error .enomem => .unknown
  | _, _ => .different

/-- The answer for two paths, where the memory did or did not run out. -/
def expectedIdentity (host : IoHost File) (left right : List UInt8) (refused : Bool) :
    IoPathIdentity :=
  if left = [] ∨ right = [] then .different
  else if left = right then .same
  else if (host.stat left).isSome ∧ host.stat left = host.stat right then .same
  else if refused then .unknown
  else answeredIdentity (normalAnswer host left) (normalAnswer host right)

/-- The answer from two normal forms. -/
def comparedResults (fullLeft fullRight : Except Errno HeapPath) : IoPathIdentity :=
  let same :=
    match fullLeft, fullRight with
    | .ok left, .ok right => decide (left.text = right.text)
    | _, _ => false
  if same then .same
  else if notingExhaustion fullRight (notingExhaustion fullLeft false) then .unknown
  else .different

/-- Two normal forms that were compared and released. -/
def comparedPaths (host : IoHost File) (left right : List UInt8) (heap : Heap) :
    IoPathIdentity × Heap :=
  let fullLeft := normalizedPath host left heap
  let fullRight := normalizedPath host right fullLeft.2
  (comparedResults fullLeft.1 fullRight.1,
    (fullRight.2.release (pathBlock fullLeft.1)).release (pathBlock fullRight.1))

theorem ioPathIdentity_eq (host : IoHost File) (left right : List UInt8) (heap : Heap) :
    ioPathIdentity host left right heap =
      if left = [] ∨ right = [] then (.different, heap)
      else if left = right then (.same, heap)
      else if (host.stat left).isSome ∧ host.stat left = host.stat right then (.same, heap)
      else comparedPaths host left right heap := by
  unfold ioPathIdentity comparedPaths comparedResults
  dsimp only
  rw [← apply_ite fun answer => (answer, _), ← apply_ite fun answer => (answer, _)]

/-- The answer where the memory did or did not run out. -/
theorem comparedResults_eq {answerLeft answerRight : Except Errno (List UInt8)}
    {okLeft okRight : Bool} {before middle after : Heap}
    {fullLeft fullRight : Except Errno HeapPath}
    (yieldsLeft : Yields before (fullLeft, middle) answerLeft okLeft)
    (yieldsRight : Yields middle (fullRight, after) answerRight okRight) :
    comparedResults fullLeft fullRight =
      if okLeft && okRight then
        answeredIdentity answerLeft answerRight
      else .unknown := by
  cases okLeft with
  | false =>
      obtain rfl : fullLeft = .error .enomem := yieldsLeft.refused rfl
      cases fullRight <;> rfl
  | true =>
      cases okRight with
      | false =>
          obtain rfl : fullRight = .error .enomem := yieldsRight.refused rfl
          cases fullLeft with
          | ok full => rfl
          | error error => cases error <;> rfl
      | true =>
          obtain rfl : fullLeft.map HeapPath.text = answerLeft := yieldsLeft.whole rfl
          obtain rfl : fullRight.map HeapPath.text = answerRight := yieldsRight.whole rfl
          cases fullLeft with
          | ok full =>
              cases fullRight with
              | ok other =>
                  by_cases same : full.text = other.text
                  · simp [Except.map, comparedResults, answeredIdentity, same]
                  · simp [Except.map, comparedResults, answeredIdentity, notingExhaustion, same]
              | error error => cases error <;> rfl
          | error error =>
              cases fullRight with
              | ok other => cases error <;> rfl
              | error other => cases error <;> cases other <;> rfl

omit [DecidableEq File] in
/-- What was compared is released, and the answer says whether the memory ran out. -/
theorem comparedPaths_steps (cleanLeft : 0 ∉ left) (cleanRight : 0 ∉ right) (heap : Heap) :
    ∃ ok, Step heap (comparedPaths host left right heap).2 [] [] ok ∧
      (comparedPaths host left right heap).1 =
        if ok then answeredIdentity (normalAnswer host left) (normalAnswer host right)
        else .unknown := by
  obtain ⟨okLeft, yieldsLeft⟩ := @normalizedPath_yields File host left cleanLeft heap
  obtain ⟨okRight, yieldsRight⟩ :=
    @normalizedPath_yields File host right cleanRight (normalizedPath host left heap).2
  have both := (yieldsLeft.step.trans (yieldsRight.step.frame _)).perm .nil List.perm_append_comm
  have released := both.trans (step_releaseBoth _ _ _)
  rw [Bool.and_true] at released
  exact ⟨okLeft && okRight, released, comparedResults_eq yieldsLeft yieldsRight⟩

/-- Whatever the heap does, two paths get the expected answer. -/
theorem ioPathIdentity_steps (cleanLeft : 0 ∉ left) (cleanRight : 0 ∉ right) (heap : Heap) :
    ∃ ok, Step heap (ioPathIdentity host left right heap).2 [] [] ok ∧
      (ioPathIdentity host left right heap).1 = expectedIdentity host left right !ok ∧
      (ok = false → (ioPathIdentity host left right heap).1 = .unknown) := by
  have granted : ∀ {answer : IoPathIdentity}, true = false → answer = .unknown :=
    fun impossible => absurd impossible.symm Bool.false_ne_true
  rw [ioPathIdentity_eq]
  unfold expectedIdentity
  split
  · exact ⟨true, .refl heap [], rfl, granted⟩
  · split
    · exact ⟨true, .refl heap [], rfl, granted⟩
    · split
      · exact ⟨true, .refl heap [], rfl, granted⟩
      · obtain ⟨ok, step, answer⟩ :=
          @comparedPaths_steps File host left right cleanLeft cleanRight heap
        refine ⟨ok, step, ?_, ?_⟩
        · rw [answer]
          cases ok <;> rfl
        · rintro rfl
          exact answer

/-- Two names of one existing file. -/
abbrev SameFile (host : IoHost File) (left right : List UInt8) : Prop :=
  (host.stat left).isSome ∧ host.stat left = host.stat right

/-- What `io_path_identity` promises about two paths. -/
structure IdentityExact (host : IoHost File) (left right : List UInt8) : Prop where
  answer : (ioPathIdentity host left right .empty).1 =
    expectedIdentity host left right (ioPathIdentity host left right .empty).2.failed
  released : (ioPathIdentity host left right .empty).2.Owns []
  cautious : (ioPathIdentity host left right .empty).2.failed = true →
    (ioPathIdentity host left right .empty).1 = .unknown
  decides : ∀ cwd, NamesDirectory host cwd →
    cwd.length + left.length < 2 ^ 63 → cwd.length + right.length < 2 ^ 63 →
    (ioPathIdentity host left right .empty).2.failed = false →
    (ioPathIdentity host left right .empty).1 =
      if left ≠ [] ∧ right ≠ [] ∧ (left = right ∨ SameFile host left right ∨
          normalForm (absoluteForm cwd left) = normalForm (absoluteForm cwd right))
        then .same else .different

/-- A host that names its working directory decides. -/
theorem expectedIdentity_named {cwd : List UInt8} (names : NamesDirectory host cwd)
    (shortLeft : cwd.length + left.length < 2 ^ 63)
    (shortRight : cwd.length + right.length < 2 ^ 63) :
    expectedIdentity host left right false =
      if left ≠ [] ∧ right ≠ [] ∧ (left = right ∨ SameFile host left right ∨
          normalForm (absoluteForm cwd left) = normalForm (absoluteForm cwd right))
        then .same else .different := by
  unfold expectedIdentity normalAnswer
  rw [absoluteAnswer_named names shortLeft, absoluteAnswer_named names shortRight]
  by_cases empty : left = [] ∨ right = []
  · have none : ¬ (left ≠ [] ∧ right ≠ [] ∧ (left = right ∨ SameFile host left right ∨
        normalForm (absoluteForm cwd left) = normalForm (absoluteForm cwd right))) := by
      rintro ⟨someLeft, someRight, -⟩
      rcases empty with noLeft | noRight
      · exact someLeft noLeft
      · exact someRight noRight
    rw [if_pos empty, if_neg none]
  · obtain ⟨someLeft, someRight⟩ := not_or.mp empty
    rw [if_neg empty]
    by_cases equal : left = right
    · rw [if_pos equal, if_pos ⟨someLeft, someRight, .inl equal⟩]
    · rw [if_neg equal]
      by_cases file : SameFile host left right
      · rw [if_pos file, if_pos ⟨someLeft, someRight, .inr (.inl file)⟩]
      · have compared : (if (host.stat left).isSome ∧ host.stat left = host.stat right then
              IoPathIdentity.same
            else if false then .unknown
            else answeredIdentity ((Except.ok (absoluteForm cwd left)).map normalForm)
              ((Except.ok (absoluteForm cwd right)).map normalForm)) =
            if normalForm (absoluteForm cwd left) = normalForm (absoluteForm cwd right) then .same
            else .different := by
          rw [if_neg file]
          rfl
        rw [compared]
        by_cases normal :
            normalForm (absoluteForm cwd left) = normalForm (absoluteForm cwd right)
        · rw [if_pos normal, if_pos ⟨someLeft, someRight, .inr (.inr normal)⟩]
        · have none : ¬ (left ≠ [] ∧ right ≠ [] ∧ (left = right ∨ SameFile host left right ∨
              normalForm (absoluteForm cwd left) = normalForm (absoluteForm cwd right))) := by
            rintro ⟨-, -, isEqual | isFile | isNormal⟩
            · exact equal isEqual
            · exact file isFile
            · exact normal isNormal
          rw [if_neg normal, if_neg none]

/-- Whatever requests are refused, two paths get the expected answer, which is never that
they differ when the memory ran out, and every block that was obtained is released once.
A host that names its working directory and does not run out of memory finds two paths the
same exactly when they are equal, name one existing file or have one normal form. -/
theorem io_path_identity_exact (host : IoHost File) (left right : List UInt8)
    (cleanLeft : 0 ∉ left) (cleanRight : 0 ∉ right) : IdentityExact host left right := by
  obtain ⟨ok, step, answer, cautious⟩ :=
    @ioPathIdentity_steps File _ host left right cleanLeft cleanRight .empty
  have failed : (ioPathIdentity host left right .empty).2.failed = !ok := step.failed
  refine ⟨failed ▸ answer, step.owns Heap.owns_empty, ?_, ?_⟩
  · intro lost
    apply cautious
    rw [failed, Bool.not_eq_true'] at lost
    exact lost
  · intro cwd names shortLeft shortRight granted
    rw [answer, ← failed, granted]
    exact expectedIdentity_named names shortLeft shortRight

end Identity

/-! ## Two names below a directory -/

/-- A host in the directory `/a`, where no file exists and the memory does not run out. -/
def directoryHost : IoHost Nat where
  grants _ := true
  garbage _ _ := 0xAA
  getcwd capacity := if [0x2F, 0x61].length < capacity then .ok [0x2F, 0x61] else .error .erange
  stat _ := none
  absolute capacity cwd answer := by
    split at answer
    · obtain rfl := Except.ok.inj answer
      decide
    · contradiction

/-- `b` and `./c/../b`. -/
theorem io_path_identity_exact_directoryHost :
    (ioPathIdentity directoryHost [0x62]
      [0x2E, 0x2F, 0x63, 0x2F, 0x2E, 0x2E, 0x2F, 0x62] .empty).1 = .same := by
  have promised := io_path_identity_exact directoryHost [0x62]
    [0x2E, 0x2F, 0x63, 0x2F, 0x2E, 0x2E, 0x2F, 0x62] (by decide) (by decide)
  rw [promised.decides [0x2F, 0x61] (fun _ => rfl) (by decide) (by decide) (by decide +kernel)]
  have sameForm : normalForm (absoluteForm [0x2F, 0x61] [0x62]) =
      normalForm (absoluteForm [0x2F, 0x61] [0x2E, 0x2F, 0x63, 0x2F, 0x2E, 0x2E, 0x2F, 0x62]) := by
    decide +kernel
  exact if_pos ⟨by decide, by decide, .inr (.inr sameForm)⟩

end Nazm.Io
