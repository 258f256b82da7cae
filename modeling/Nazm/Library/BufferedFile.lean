import Mathlib.Algebra.GroupWithZero.Nat
import Mathlib.Data.List.TakeDrop
import Mathlib.Logic.Function.Basic
import Nazm.Library.OutputStream

/-!
Files written through a buffered stream, with failures.

Owns what a stream does to its file when opening, writing and closing may fail,
a write may take and store only some of its bytes and closing may lose what is
still in the buffer; and which bytes the file holds at the end.

Does not own why an operation fails.
-/

namespace BufferedFile

open OutputStream

variable {File Byte : Type}

/-! ## Failures -/

/-- One write: how many bytes a failing one takes, and how many of the buffered
bytes then reach the file. -/
structure WriteOutcome where
  succeeds : Bool
  taken : Nat
  flushed : Nat

/-- Closing: how many of the buffered bytes a failing one stores. -/
structure CloseOutcome where
  succeeds : Bool
  flushed : Nat

/-- What happens to one file, call by call. -/
structure FilePattern where
  opens : Bool
  write : Nat → WriteOutcome
  close : CloseOutcome

/-- How many bytes of a write the stream takes. -/
def WriteOutcome.takes (outcome : WriteOutcome) (size : Nat) : Nat :=
  if outcome.succeeds then size else min outcome.taken size

/-- How many of the bytes still in the buffer closing stores. -/
def CloseOutcome.stores (outcome : CloseOutcome) (pending : Nat) : Nat :=
  if outcome.succeeds then pending else min outcome.flushed pending

/-- Whether so many writes succeed, from a call on. -/
def FilePattern.writesSucceed (pattern : FilePattern) (calls : Nat) : Nat → Bool
  | 0 => true
  | count + 1 => (pattern.write calls).succeeds && pattern.writesSucceed (calls + 1) count

/-- How many bytes of the buffer and of writes of these sizes get stored, from a
call on; nothing is written after a write that fails. -/
def FilePattern.storesFrom (pattern : FilePattern) (calls pending : Nat) : List Nat → Nat
  | [] => pattern.close.stores pending
  | size :: sizes =>
      let outcome := pattern.write calls
      let held := pending + outcome.takes size
      let flushed := min outcome.flushed held
      flushed + (if outcome.succeeds then pattern.storesFrom (calls + 1) (held - flushed) sizes
        else pattern.close.stores (held - flushed))

/-- How many bytes get stored of writes of these sizes. -/
def FilePattern.stores (pattern : FilePattern) (sizes : List Nat) : Nat :=
  pattern.storesFrom 0 0 sizes

/-- Every call succeeds. -/
def FilePattern.succeeds (pattern : FilePattern) (writes : Nat) : Bool :=
  pattern.opens && (pattern.writesSucceed 0 writes && pattern.close.succeeds)

/-! ## Streams -/

/-- A stream over a file: what the file holds, what is in the buffer, how many
writes were made, and the error flag. -/
structure FileStream (Byte : Type) where
  stored : List Byte
  pending : List Byte
  calls : Nat
  failed : Bool
deriving DecidableEq

/-- The stream over a file that was opened for writing. -/
def FileStream.opened : FileStream Byte := ⟨[], [], 0, false⟩

def fileOps (pattern : FilePattern) : StreamOps (FileStream Byte) Byte where
  write stream bytes :=
    let outcome := pattern.write stream.calls
    let held := stream.pending ++ bytes.take (outcome.takes bytes.length)
    (⟨stream.stored ++ held.take outcome.flushed, held.drop outcome.flushed, stream.calls + 1,
      stream.failed || !outcome.succeeds⟩, outcome.succeeds)
  ferror := FileStream.failed

/-- What the file holds once the stream is closed, and whether that succeeded. -/
def closeFile (pattern : FilePattern) (stream : FileStream Byte) : List Byte × Bool :=
  (stream.stored ++ stream.pending.take (pattern.close.stores stream.pending.length),
    pattern.close.succeeds)

/-- Opens a file for writing, which empties it, writes to it and closes it. -/
def createFile [DecidableEq File] (pattern : FilePattern) (files : File → Option (List Byte))
    (file : File) (body : FileStream Byte → FileStream Byte × Bool) :
    (File → Option (List Byte)) × Bool :=
  if pattern.opens then
    let written := body .opened
    let closed := closeFile pattern written.1
    (Function.update files file (some closed.1), written.2 && closed.2)
  else (files, false)

/-! ## What a file holds -/

variable {pattern : FilePattern}

theorem CloseOutcome.stores_le (outcome : CloseOutcome) (pending : Nat) :
    outcome.stores pending ≤ pending := by
  unfold CloseOutcome.stores
  split
  · exact Nat.le_refl _
  · exact Nat.min_le_right _ _

/-- A list cut in two places. -/
theorem take_flushed (held rest : List Byte) (flushed more : Nat) :
    held.take flushed ++ (held.drop flushed ++ rest).take more =
      (held ++ rest).take (min flushed held.length + more) := by
  have inside : min flushed held.length ≤ held.length := Nat.min_le_right _ _
  have taken : held.take flushed = held.take (min flushed held.length) := by
    rw [← List.take_take, List.take_length]
  have dropped : held.drop flushed = held.drop (min flushed held.length) := by
    rcases Nat.le_total flushed held.length with le | le
    · rw [Nat.min_eq_left le]
    · rw [Nat.min_eq_right le, List.drop_eq_nil_of_le le, List.drop_length]
  rw [List.take_add, taken, dropped, List.take_append_of_le_length inside,
    List.drop_append_of_le_length inside]

theorem WriteOutcome.takes_le (outcome : WriteOutcome) (size : Nat) : outcome.takes size ≤ size := by
  unfold WriteOutcome.takes
  split
  · exact Nat.le_refl _
  · exact Nat.min_le_right _ _

/-- The file ends up with a front part of what was written: as much as the
pattern stores. -/
theorem closeFile_writeAll (stream : FileStream Byte) (pieces : List (List Byte)) :
    (closeFile pattern ((fileOps pattern).writeAll stream pieces).1).1 =
      stream.stored ++ (stream.pending ++ pieces.flatten).take
        (pattern.storesFrom stream.calls stream.pending.length (pieces.map List.length)) := by
  induction pieces generalizing stream with
  | nil =>
      rw [List.flatten_nil, List.append_nil]
      rfl
  | cons piece pieces inductionHypothesis =>
      have written : (fileOps pattern).write stream piece =
          (⟨stream.stored ++ (stream.pending ++ piece.take ((pattern.write stream.calls).takes
              piece.length)).take (pattern.write stream.calls).flushed,
            (stream.pending ++ piece.take ((pattern.write stream.calls).takes
              piece.length)).drop (pattern.write stream.calls).flushed,
            stream.calls + 1, stream.failed || !(pattern.write stream.calls).succeeds⟩,
            (pattern.write stream.calls).succeeds) := rfl
      rw [writeAll_cons, written, List.map_cons, FilePattern.storesFrom, List.flatten_cons]
      generalize pattern.write stream.calls = outcome
      obtain ⟨held, isHeld⟩ : ∃ held, held = stream.pending ++
        piece.take (outcome.takes piece.length) := ⟨_, rfl⟩
      have heldLength : stream.pending.length + outcome.takes piece.length = held.length := by
        rw [isHeld, List.length_append, List.length_take_of_le (outcome.takes_le _)]
      have dropped : (held.drop outcome.flushed).length =
          held.length - min outcome.flushed held.length := by
        rw [List.length_drop]
        omega
      rw [heldLength, ← isHeld]
      cases succeeds : outcome.succeeds with
      | true =>
          have whole : stream.pending ++ (piece ++ pieces.flatten) = held ++ pieces.flatten := by
            have all : outcome.takes piece.length = piece.length := if_pos succeeds
            rw [isHeld, all, List.take_length, List.append_assoc]
          rw [andThen_true, inductionHypothesis, if_pos rfl]
          dsimp only
          rw [List.append_assoc, take_flushed, dropped, whole]
      | false =>
          have split : stream.pending ++ (piece ++ pieces.flatten) =
              held ++ (piece.drop (outcome.takes piece.length) ++ pieces.flatten) := by
            rw [isHeld, List.append_assoc, ← List.append_assoc (piece.take _),
              List.take_append_drop]
          have inside := pattern.close.stores_le (held.length - min outcome.flushed held.length)
          have least : min outcome.flushed held.length ≤ held.length := Nat.min_le_right _ _
          have cut := take_flushed held [] outcome.flushed
            (pattern.close.stores (held.length - min outcome.flushed held.length))
          rw [List.append_nil, List.append_nil] at cut
          rw [andThen_false, if_neg Bool.false_ne_true, closeFile, split,
            List.take_append_of_le_length (by omega)]
          dsimp only
          rw [List.append_assoc, dropped, cut]

/-- All writes succeed where the pattern says so, and then no failure is on record. -/
theorem writeAll_succeeds (stream : FileStream Byte) (pieces : List (List Byte)) :
    ((fileOps pattern).writeAll stream pieces).2 =
        pattern.writesSucceed stream.calls pieces.length ∧
      (pattern.writesSucceed stream.calls pieces.length = true →
        ((fileOps pattern).writeAll stream pieces).1.failed = stream.failed) := by
  induction pieces generalizing stream with
  | nil => exact ⟨rfl, fun _ => rfl⟩
  | cons piece pieces inductionHypothesis =>
      rw [writeAll_cons, List.length_cons, FilePattern.writesSucceed]
      cases succeeds : (pattern.write stream.calls).succeeds with
      | true =>
          have ok : ((fileOps pattern).write stream piece).2 = true := succeeds
          have sameFlag : ((fileOps pattern).write stream piece).1.failed = stream.failed := by
            show (stream.failed || !(pattern.write stream.calls).succeeds) = stream.failed
            rw [succeeds, Bool.not_true, Bool.or_false]
          obtain ⟨all, flag⟩ := inductionHypothesis ((fileOps pattern).write stream piece).1
          rw [andThen, if_pos ok, Bool.true_and]
          exact ⟨all, fun rest => (flag rest).trans sameFlag⟩
      | false =>
          have failed : ¬ ((fileOps pattern).write stream piece).2 = true := by
            rw [show ((fileOps pattern).write stream piece).2 = false from succeeds]
            exact Bool.false_ne_true
          rw [andThen, if_neg failed, Bool.false_and]
          exact ⟨rfl, fun impossible => absurd impossible Bool.false_ne_true⟩

/-- Where every call succeeds, every byte is stored. -/
theorem storesFrom_of_succeeds (closes : pattern.close.succeeds = true) {calls pending : Nat}
    {sizes : List Nat} (succeeds : pattern.writesSucceed calls sizes.length = true) :
    pattern.storesFrom calls pending sizes = pending + sizes.sum := by
  induction sizes generalizing calls pending with
  | nil => exact if_pos closes
  | cons size sizes inductionHypothesis =>
      rw [List.length_cons, FilePattern.writesSucceed, Bool.and_eq_true] at succeeds
      obtain ⟨here, later⟩ := succeeds
      have all : (pattern.write calls).takes size = size := if_pos here
      rw [FilePattern.storesFrom, all, if_pos here, inductionHypothesis later, List.sum_cons]
      omega

/-! ## Files that are created -/

/-- Looking at the error flag after writes that succeeded changes nothing. -/
theorem writeAll_checked (pieces : List (List Byte)) :
    andThen ((fileOps pattern).writeAll .opened pieces)
        (fun stream => (stream, !(fileOps pattern).ferror stream)) =
      (fileOps pattern).writeAll .opened pieces := by
  obtain ⟨succeeds, flag⟩ := @writeAll_succeeds _ pattern .opened pieces
  cases ok : ((fileOps pattern).writeAll .opened pieces).2 with
  | true =>
      have clear : ((fileOps pattern).writeAll .opened pieces).1.failed = false :=
        flag (succeeds.symm.trans ok)
      rw [andThen, if_pos ok]
      refine Prod.ext rfl ?_
      rw [ok]
      show (!((fileOps pattern).writeAll .opened pieces).1.failed) = true
      rw [clear]
      rfl
  | false =>
      rw [andThen, if_neg (by simp [ok])]
      exact Prod.ext rfl ok.symm

/-- What becomes of a file to which some pieces are written. -/
theorem createFile_eq [DecidableEq File] (files : File → Option (List Byte)) (file : File)
    {body : FileStream Byte → FileStream Byte × Bool} {pieces : List (List Byte)}
    (writes : body .opened = (fileOps pattern).writeAll .opened pieces) :
    createFile pattern files file body =
      (if pattern.opens then
        Function.update files file
          (some (pieces.flatten.take (pattern.stores (pieces.map List.length))))
      else files, pattern.succeeds pieces.length) := by
  unfold createFile FilePattern.succeeds
  cases pattern.opens with
  | true =>
      have content := @closeFile_writeAll _ pattern .opened pieces
      have succeeds := (@writeAll_succeeds _ pattern .opened pieces).1
      rw [if_pos rfl, if_pos rfl, writes]
      dsimp only
      rw [content, succeeds]
      rfl
  | false => rfl

theorem stores_of_succeeds {pieces : List (List Byte)}
    (succeeds : pattern.succeeds pieces.length = true) :
    pieces.flatten.length ≤ pattern.stores (pieces.map List.length) := by
  rw [FilePattern.succeeds, Bool.and_eq_true, Bool.and_eq_true] at succeeds
  obtain ⟨-, writes, closes⟩ := succeeds
  rw [← List.length_map (f := List.length)] at writes
  rw [FilePattern.stores, storesFrom_of_succeeds closes writes, List.length_flatten]
  exact Nat.le_add_left _ _

/-- A file that was created without a failure holds every byte. -/
theorem createFile_whole [DecidableEq File] (files : File → Option (List Byte)) (file : File)
    {body : FileStream Byte → FileStream Byte × Bool} {pieces : List (List Byte)}
    (writes : body .opened = (fileOps pattern).writeAll .opened pieces)
    (succeeds : pattern.succeeds pieces.length = true) :
    (createFile pattern files file body).1 file = some pieces.flatten := by
  have opens : pattern.opens = true := by
    rw [FilePattern.succeeds, Bool.and_eq_true] at succeeds
    exact succeeds.1
  rw [createFile_eq files file writes, if_pos opens]
  dsimp only
  rw [Function.update_self, List.take_of_length_le (stores_of_succeeds succeeds)]

theorem createFile_other [DecidableEq File] (files : File → Option (List Byte)) {file other : File}
    (apart : other ≠ file) (body : FileStream Byte → FileStream Byte × Bool) :
    (createFile pattern files file body).1 other = files other := by
  unfold createFile
  split
  · exact Function.update_of_ne apart _ _
  · rfl

end BufferedFile
