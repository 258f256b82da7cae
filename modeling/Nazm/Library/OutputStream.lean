import Mathlib.Data.List.Basic

/-!
Writing to an output stream that may fail.

Owns the operations of a stream, what it means to write pieces one after the
other up to the first failure, and what a stream that does not fail then holds.

Does not own where the bytes of a stream go.
-/

namespace OutputStream

/-- The operations of a stream: a write says whether it succeeded, and `ferror`
whether one before it failed. -/
structure StreamOps (Stream Byte : Type) where
  write : Stream → List Byte → Stream × Bool
  ferror : Stream → Bool

variable {Stream Byte : Type}

/-- What comes next, unless something has failed. -/
def andThen (written : Stream × Bool) (next : Stream → Stream × Bool) : Stream × Bool :=
  if written.2 then next written.1 else (written.1, false)

/-- Writes the pieces in order, up to the first that fails. -/
def StreamOps.writeAll (ops : StreamOps Stream Byte) (stream : Stream) :
    List (List Byte) → Stream × Bool
  | [] => (stream, true)
  | piece :: pieces => andThen (ops.write stream piece) fun stream => ops.writeAll stream pieces

variable {ops : StreamOps Stream Byte} {stream : Stream}

@[simp] theorem andThen_true (stream : Stream) (next : Stream → Stream × Bool) :
    andThen (stream, true) next = next stream :=
  rfl

@[simp] theorem andThen_false (stream : Stream) (next : Stream → Stream × Bool) :
    andThen (stream, false) next = (stream, false) :=
  rfl

theorem andThen_assoc (written : Stream × Bool) (next last : Stream → Stream × Bool) :
    andThen (andThen written next) last = andThen written fun stream => andThen (next stream) last := by
  obtain ⟨stream, ok⟩ := written
  cases ok <;> rfl

@[simp] theorem andThen_done (written : Stream × Bool) :
    andThen written (fun stream => (stream, true)) = written := by
  obtain ⟨stream, ok⟩ := written
  cases ok <;> rfl

theorem writeAll_cons (piece : List Byte) (pieces : List (List Byte)) :
    ops.writeAll stream (piece :: pieces) =
      andThen (ops.write stream piece) fun stream => ops.writeAll stream pieces :=
  rfl

theorem writeAll_append (front back : List (List Byte)) :
    ops.writeAll stream (front ++ back) =
      andThen (ops.writeAll stream front) fun stream => ops.writeAll stream back := by
  induction front generalizing stream with
  | nil => rfl
  | cons piece front inductionHypothesis =>
      rw [List.cons_append, writeAll_cons, writeAll_cons, andThen_assoc]
      congr 1
      funext next
      exact inductionHypothesis

theorem writeAll_singleton (piece : List Byte) :
    ops.writeAll stream [piece] = ops.write stream piece :=
  andThen_done _

/-! ## Streams that do not fail -/

/-- From a good state every write succeeds, adds its bytes to the contents and
leaves a good state, and no failure is on record. -/
structure Healthy (ops : StreamOps Stream Byte) (contents : Stream → List Byte)
    (good : Stream → Prop) : Prop where
  succeeds : ∀ {stream}, good stream → ∀ bytes, (ops.write stream bytes).2 = true
  stays : ∀ {stream}, good stream → ∀ bytes, good (ops.write stream bytes).1
  appends : ∀ {stream}, good stream → ∀ bytes,
    contents (ops.write stream bytes).1 = contents stream ++ bytes
  noError : ∀ {stream}, good stream → ops.ferror stream = false

variable {contents : Stream → List Byte} {good : Stream → Prop}

/-- A stream that does not fail takes all pieces. -/
theorem Healthy.writeAll (healthy : Healthy ops contents good) (isGood : good stream)
    (pieces : List (List Byte)) :
    (ops.writeAll stream pieces).2 = true ∧ good (ops.writeAll stream pieces).1 ∧
      contents (ops.writeAll stream pieces).1 = contents stream ++ pieces.flatten := by
  induction pieces generalizing stream with
  | nil => exact ⟨rfl, isGood, (List.append_nil _).symm⟩
  | cons piece pieces inductionHypothesis =>
      obtain ⟨succeeds, stillGood, holds⟩ := inductionHypothesis (healthy.stays isGood piece)
      rw [StreamOps.writeAll, andThen, if_pos (healthy.succeeds isGood piece)]
      refine ⟨succeeds, stillGood, ?_⟩
      rw [holds, healthy.appends isGood, List.flatten_cons, List.append_assoc]

/-! ## Streams in memory -/

/-- A stream that keeps what it is given. -/
def memoryOps : StreamOps (List Byte) Byte := ⟨fun held bytes => (held ++ bytes, true), fun _ => false⟩

theorem memoryOps_healthy : Healthy (@memoryOps Byte) id fun _ => True where
  succeeds _ _ := rfl
  stays _ _ := trivial
  appends _ _ := rfl
  noError _ := rfl

end OutputStream
