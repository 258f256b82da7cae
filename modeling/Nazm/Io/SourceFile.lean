import Nazm.Io.PathIdentity
import Nazm.Passes.Source

/-!
Reading a source file.

Owns `read_file` of `src/main.c`, and the same calls as `nazm_assemble_file` of
`src/api/api.c` makes them, over a file whose operations may fail and a heap whose
requests may fail: what is read, and that the stream is closed on every path.

Does not own what is done with the bytes.
-/

namespace Nazm.Io

open FailingHeap
open Nazm.Passes

/-! ## The file -/

/-- What the calls on a file that is opened for reading give: `none` is a negative
position, and a read gives the bytes that `fread` stores. -/
structure ReadAnswers where
  opens : Except Errno Unit
  seeksEnd : Bool
  tells : Option Nat
  seeksStart : Bool
  reads : Nat → List UInt8
  short : ∀ size, (reads size).length ≤ size

/-- What a program holds: its heap, and the streams that it opened and closed. -/
structure Resources where
  heap : Heap
  opened : Nat
  closed : Nat

namespace Resources

def start : Resources := ⟨.empty, 0, 0⟩

/-- `fopen` that succeeds. -/
def openStream (resources : Resources) : Resources :=
  { resources with opened := resources.opened + 1 }

/-- `fclose`. -/
def closeStream (resources : Resources) : Resources :=
  { resources with closed := resources.closed + 1 }

/-- A block is released, and then the stream is closed. -/
def dropBlock (resources : Resources) (heap : Heap) (block : Nat) : Resources :=
  ({ resources with heap := heap.release (some block) }).closeStream

end Resources

/-- The calls that can fail. -/
inductive ReadFailure where
  | noMemoryToOpen | open_ | seekEnd | tell | tooLarge | seekStart | noMemory | read
deriving DecidableEq, Repr

/-- The bytes of a source in a block of their own. -/
structure SourceBlock where
  block : Nat
  data : List UInt8
deriving DecidableEq

/-- The calls on a source file that `read_file` and `nazm_assemble_file` make; reading no
bytes gives none, so that it does not matter that only one of them asks for it. -/
def readStream (grants : Nat → Bool) (answers : ReadAnswers) (resources : Resources) :
    Except ReadFailure SourceBlock × Resources :=
  match answers.opens with
  | .error error => (.error (if error = .enomem then .noMemoryToOpen else .open_), resources)
  | .ok () =>
      let resources := resources.openStream
      if answers.seeksEnd = false then (.error .seekEnd, resources.closeStream)
      else
        match answers.tells with
        | none => (.error .tell, resources.closeStream)
        | some size =>
            if nazmApiMaxSourceSize < size then (.error .tooLarge, resources.closeStream)
            else if answers.seeksStart = false then (.error .seekStart, resources.closeStream)
            else
              match resources.heap.request grants with
              | (none, heap) => (.error .noMemory, { resources with heap := heap }.closeStream)
              | (some block, heap) =>
                  if (answers.reads size).length ≠ size then
                    (.error .read, resources.dropBlock heap block)
                  else
                    (.ok ⟨block, answers.reads size⟩, { resources with heap := heap }.closeStream)

/-- `ReadFileStatus`, without the one of a file that was read. -/
inductive ReadFileStatus where
  | openFailed | statFailed | tooLarge | allocFailed | readFailed
deriving DecidableEq, Repr

/-- The status of `read_file` for a call that failed. -/
def ReadFailure.status : ReadFailure → ReadFileStatus
  | .noMemoryToOpen | .noMemory => .allocFailed
  | .open_ => .openFailed
  | .seekEnd | .tell | .seekStart => .statFailed
  | .tooLarge => .tooLarge
  | .read => .readFailed

/-- `read_file`. -/
def readFile (grants : Nat → Bool) (answers : ReadAnswers) (resources : Resources) :
    Except ReadFileStatus SourceBlock × Resources :=
  let result := readStream grants answers resources
  (result.1.mapError ReadFailure.status, result.2)

/-! ## What is read -/

/-- What reading gives where the heap grants the block. -/
def readAnswer (answers : ReadAnswers) : Except ReadFailure (List UInt8) :=
  match answers.opens with
  | .error error => .error (if error = .enomem then .noMemoryToOpen else .open_)
  | .ok () =>
      if answers.seeksEnd = false then .error .seekEnd
      else
        match answers.tells with
        | none => .error .tell
        | some size =>
            if nazmApiMaxSourceSize < size then .error .tooLarge
            else if answers.seeksStart = false then .error .seekStart
            else if (answers.reads size).length ≠ size then .error .read
            else .ok (answers.reads size)

/-- What was read is within the limit. -/
theorem readAnswer_limit {answers : ReadAnswers} {data : List UInt8}
    (read : readAnswer answers = .ok data) : data.length ≤ nazmApiMaxSourceSize := by
  unfold readAnswer at read
  repeat' split at read
  all_goals first | contradiction | skip
  next size small started whole =>
    obtain rfl := Except.ok.inj read
    omega

/-- A file that holds these bytes while it is read, and whose calls succeed. -/
structure Holds (answers : ReadAnswers) (content : List UInt8) : Prop where
  opens : answers.opens = .ok ()
  seeksEnd : answers.seeksEnd = true
  tells : answers.tells = some content.length
  seeksStart : answers.seeksStart = true
  reads : ∀ size, answers.reads size = content.take size

theorem readAnswer_holds {answers : ReadAnswers} {content : List UInt8}
    (holds : Holds answers content) :
    readAnswer answers =
      if nazmApiMaxSourceSize < content.length then .error .tooLarge else .ok content := by
  have whole : content.take content.length = content := List.take_length
  unfold readAnswer
  rw [holds.opens, holds.seeksEnd, holds.tells, holds.seeksStart]
  dsimp only
  rw [if_neg (Bool.noConfusion ·), if_neg (Bool.noConfusion ·), holds.reads, whole,
    if_neg (not_not.mpr rfl)]

/-! ## Failures -/

/-- The block of a result. -/
def sourceBlocks : Except ReadFailure SourceBlock → List Nat
  | .ok source => [source.block]
  | .error _ => []

/-- Reading gives its answer in a block, or it was refused one and says so; it owns
nothing else, and it closes what it opens. -/
structure Reads (before : Resources) (result : Except ReadFailure SourceBlock × Resources)
    (answers : ReadAnswers) (ok : Bool) : Prop where
  step : Step before.heap result.2.heap [] (sourceBlocks result.1) ok
  streams : result.2.opened + before.closed = result.2.closed + before.opened
  whole : ok = true → result.1.map SourceBlock.data = readAnswer answers
  refused : ok = false → result.1 = .error .noMemory

section Reading

variable {answers : ReadAnswers} {grants : Nat → Bool} {failure : ReadFailure}

/-- A call on the stream that fails before a block is asked for. -/
theorem reads_closed (before : Resources) (answer : readAnswer answers = .error failure) :
    Reads before (.error failure, before.openStream.closeStream) answers true where
  step := .refl before.heap []
  streams := by
    change before.opened + 1 + before.closed = before.closed + 1 + before.opened
    omega
  whole _ := answer.symm
  refused impossible := absurd impossible.symm Bool.false_ne_true

/-- The calls up to the request of a block: the size that they find. -/
structure Sized (answers : ReadAnswers) (size : Nat) : Prop where
  opens : answers.opens = .ok ()
  seeksEnd : answers.seeksEnd ≠ false
  tells : answers.tells = some size
  small : ¬ nazmApiMaxSourceSize < size
  seeksStart : answers.seeksStart ≠ false

theorem readStream_sized {size : Nat} (sized : Sized answers size) (before : Resources) :
    ∃ ok, Reads before (readStream grants answers before) answers ok := by
  have answer : readAnswer answers =
      if (answers.reads size).length ≠ size then .error .read else .ok (answers.reads size) := by
    unfold readAnswer
    rw [sized.opens, sized.tells]
    dsimp only
    rw [if_neg sized.seeksEnd, if_neg sized.small, if_neg sized.seeksStart]
  unfold readStream
  rw [sized.opens, sized.tells]
  dsimp only
  rw [if_neg sized.seeksEnd, if_neg sized.small, if_neg sized.seeksStart]
  have streams : before.opened + 1 + before.closed = before.closed + 1 + before.opened := by omega
  split
  · next heap refused =>
      exact ⟨false, step_notGranted refused, streams,
        fun impossible => absurd impossible Bool.false_ne_true, fun _ => rfl⟩
  · next block heap granted =>
      have obtained := step_granted granted
      split
      · next cut =>
          rw [if_pos cut] at answer
          have dropped := obtained.trans (step_release heap block)
          exact ⟨true, dropped, streams, fun _ => answer.symm,
            fun impossible => absurd impossible.symm Bool.false_ne_true⟩
      · next whole =>
          rw [if_neg whole] at answer
          exact ⟨true, obtained, streams, fun _ => answer.symm,
            fun impossible => absurd impossible.symm Bool.false_ne_true⟩

end Reading

theorem readStream_reads (grants : Nat → Bool) (answers : ReadAnswers) (before : Resources) :
    ∃ ok, Reads before (readStream grants answers before) answers ok := by
  cases opened : answers.opens with
  | error error =>
      have answer : readAnswer answers =
          .error (if error = .enomem then .noMemoryToOpen else .open_) := by
        rw [readAnswer, opened]
      rw [readStream, opened]
      exact ⟨true, .refl before.heap [], Nat.add_comm _ _, fun _ => answer.symm,
        fun impossible => absurd impossible.symm Bool.false_ne_true⟩
  | ok _ =>
      by_cases noEnd : answers.seeksEnd = false
      · have answer : readAnswer answers = .error .seekEnd := by
          rw [readAnswer, opened]
          exact if_pos noEnd
        rw [readStream, opened]
        dsimp only
        rw [if_pos noEnd]
        exact ⟨true, reads_closed before answer⟩
      · cases told : answers.tells with
        | none =>
            have answer : readAnswer answers = .error .tell := by
              rw [readAnswer, opened, told]
              exact if_neg noEnd
            rw [readStream, opened, told]
            dsimp only
            rw [if_neg noEnd]
            exact ⟨true, reads_closed before answer⟩
        | some size =>
            by_cases large : nazmApiMaxSourceSize < size
            · have answer : readAnswer answers = .error .tooLarge := by
                rw [readAnswer, opened, told]
                dsimp only
                rw [if_neg noEnd, if_pos large]
              rw [readStream, opened, told]
              dsimp only
              rw [if_neg noEnd, if_pos large]
              exact ⟨true, reads_closed before answer⟩
            · by_cases noStart : answers.seeksStart = false
              · have answer : readAnswer answers = .error .seekStart := by
                  rw [readAnswer, opened, told]
                  dsimp only
                  rw [if_neg noEnd, if_neg large, if_pos noStart]
                rw [readStream, opened, told]
                dsimp only
                rw [if_neg noEnd, if_neg large, if_pos noStart]
                exact ⟨true, reads_closed before answer⟩
              · exact readStream_sized ⟨opened, noEnd, told, large, noStart⟩ before

end Nazm.Io
