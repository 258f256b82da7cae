import Nazm.Api.HeapOutcomes
import Nazm.Io.SourceFile

/-!
Assembling a file.

Owns `nazm_assemble_file` of `src/api/api.c` over a file whose operations and a heap
whose requests may fail: what each call returns, and that it holds no block and no stream
once its result is freed.

Does not own reading the file, nor what a call on a buffer returns.
-/

namespace Nazm.Api

open Nazm.Diagnostics Nazm.Io Nazm.Lexer Nazm.Passes Nazm.Unicode

/-! ## Calls -/

/-- The message about a source that was not read; without memory there is none. -/
def fileFailureMessage : ReadFailure → Option (List UInt8)
  | .noMemoryToOpen | .noMemory => none
  | .open_ => some (utf8 "تعذر فتح ملف مصدر نظم.")
  | .seekEnd => some (utf8 "تعذر تحديد حجم ملف مصدر نظم.")
  | .tell | .tooLarge | .seekStart =>
      some (utf8 "حجم ملف مصدر نظم غير صالح أو يتجاوز الحد المسموح.")
  | .read => some (utf8 "تعذرت قراءة ملف مصدر نظم كاملا.")

/-- The result for a source that was not read. -/
def fileFailureResult (sourcePath : List UInt8) (failure : ReadFailure) : NazmResult :=
  match fileFailureMessage failure with
  | none => nazmEmptyResult .outOfMemory
  | some message => nazmDiagnosticResult .ioError sourcePath message

/-- `nazm_assemble_file`, where no request of the heap fails. -/
def nazmAssembleFile (answers : ReadAnswers) (sourcePath : Option (List UInt8))
    (options : NazmOptions) : NazmResult :=
  if sourcePath.getD [] = [] then
    nazmDiagnosticResult .invalidArgument [] (utf8 "مسار مصدر نظم مفقود.")
  else
    match readAnswer answers with
    | .error failure => fileFailureResult (sourcePath.getD []) failure
    | .ok data => nazmAssembleBuffer (some data) data.length (some (sourcePath.getD [])) options

namespace OnHeap

open FailingHeap

/-- `nazm_assemble_file`. -/
def nazmAssembleFile (pattern : HeapPattern) (stages : StageRequests) (answers : ReadAnswers)
    (sourcePath : Option (List UInt8)) (options : NazmOptions) (resources : Resources) :
    HeapResult × Resources :=
  if sourcePath.getD [] = [] then
    let result := nazmDiagnosticResult pattern .invalidArgument []
      (utf8 "مسار مصدر نظم مفقود.") resources.heap
    (result.1, { resources with heap := result.2 })
  else
    match readStream pattern.grants answers resources with
    | (.error failure, resources) =>
        match fileFailureMessage failure with
        | none => (nazmEmptyResult .outOfMemory, resources)
        | some message =>
            let result := nazmDiagnosticResult pattern .ioError (sourcePath.getD []) message
              resources.heap
            (result.1, { resources with heap := result.2 })
    | (.ok source, resources) =>
        let result := nazmAssembleBuffer pattern stages (some source.data) source.data.length
          (some (sourcePath.getD [])) options resources.heap
        (result.1, { resources with heap := result.2.release (some source.block) })

end OnHeap

/-! ## Outcomes -/

/-- A result that says that the file was not read, and has nothing else. -/
structure NazmResult.IsIoError (path : List UInt8) (result : NazmResult) : Prop where
  status : result.status = .ioError
  none_ : result.objectData = none
  reported : ∃ message, message ≠ [] ∧ result.diagnostics = [⟨cString path, 0, 0, 0, message⟩]

/-- The outcomes of a call on a file: what was read is assembled, and what was not is
said to be unread or ran out of memory. -/
structure FileOutcomes (answers : ReadAnswers) (path : List UInt8) (options : NazmOptions)
    (result : NazmResult) : Prop where
  assembled : ∀ data, readAnswer answers = .ok data →
    HasTwoOutcomes ⟨data, some path⟩ options.format result
  unread : ∀ failure, readAnswer answers = .error failure →
    result.IsIoError path ∨ failure = .noMemoryToOpen ∧ result = nazmEmptyResult .outOfMemory
  unchanged : ∀ content, Holds answers content → content.length ≤ nazmApiMaxSourceSize →
    result = nazmAssembleBuffer (some content) content.length (some path) options
  tooLarge : ∀ content, Holds answers content → nazmApiMaxSourceSize < content.length →
    result.IsIoError path

section Outcomes

variable {answers : ReadAnswers} {path : List UInt8} {options : NazmOptions}

theorem nazmAssembleFile_some (some_ : path ≠ []) :
    nazmAssembleFile answers (some path) options =
      match readAnswer answers with
      | .error failure => fileFailureResult path failure
      | .ok data => nazmAssembleBuffer (some data) data.length (some path) options := by
  unfold nazmAssembleFile
  exact if_neg some_

/-- Reading alone never finds the heap full. -/
theorem readAnswer_ne_noMemory : readAnswer answers ≠ .error .noMemory := by
  intro refused
  unfold readAnswer at refused
  repeat' split at refused
  all_goals contradiction

theorem fileFailureResult_outcome {failure : ReadFailure} (granted : failure ≠ .noMemory) :
    (fileFailureResult path failure).IsIoError path ∨
      failure = .noMemoryToOpen ∧
        fileFailureResult path failure = nazmEmptyResult .outOfMemory := by
  have reports : ∀ message, fileFailureMessage failure = some (utf8 message) →
      cString (utf8 message) ≠ [] → (fileFailureResult path failure).IsIoError path := by
    intro message isMessage some_
    rw [fileFailureResult, isMessage]
    exact ⟨rfl, rfl, _, some_, rfl⟩
  cases failure with
  | noMemoryToOpen => exact .inr ⟨rfl, rfl⟩
  | noMemory => contradiction
  | open_ => exact .inl (reports _ rfl (by decide))
  | seekEnd => exact .inl (reports _ rfl (by decide))
  | tell => exact .inl (reports _ rfl (by decide))
  | tooLarge => exact .inl (reports _ rfl (by decide))
  | seekStart => exact .inl (reports _ rfl (by decide))
  | read => exact .inl (reports _ rfl (by decide))

theorem nazmAssembleFile_outcomes (some_ : path ≠ []) (short : path.length < 2 ^ 31)
    (valid : nazmOptionsValid options = true) :
    FileOutcomes answers path options (nazmAssembleFile answers (some path) options) := by
  rw [nazmAssembleFile_some some_]
  have isBuffer : ∀ data : List UInt8, ¬ ((some data = none ∧ data.length ≠ 0) ∨
      nazmOptionsValid options = false) := by
    rintro data (⟨none, -⟩ | invalid)
    · exact Option.some_ne_none data none
    · exact absurd (invalid.symm.trans valid) Bool.false_ne_true
  refine ⟨?_, ?_, ?_, ?_⟩
  · intro data read
    rw [read]
    dsimp only
    rw [nazmAssembleBuffer, if_neg (isBuffer data)]
    have source : callSource (some data) data.length (some path) = ⟨data, some path⟩ := by
      rw [callSource, Option.getD_some, List.take_length]
      rfl
    rw [source]
    apply caught_outcomes (readAnswer_limit read)
    intro name isName
    obtain rfl := Option.some.inj isName
    exact short
  · intro failure unread
    rw [unread]
    apply fileFailureResult_outcome
    intro refused
    exact readAnswer_ne_noMemory (refused ▸ unread)
  · intro content holds small
    rw [readAnswer_holds holds, if_neg (Nat.not_lt.mpr small)]
  · intro content holds large
    rw [readAnswer_holds holds, if_pos large]
    rcases @fileFailureResult_outcome path .tooLarge (by decide) with isError | ⟨impossible, -⟩
    · exact isError
    · contradiction

end Outcomes

namespace OnHeap

open FailingHeap

/-! ## Calls that may run out of memory -/

section Calls

variable {pattern : HeapPattern}

/-- A block that is released once the call is done. -/
theorem release_outcome {heap : Heap} {block : Nat} {ended : HeapResult × Heap}
    {failureFree : NazmResult} (outcome : AllOrNothing heap ended [] failureFree) :
    AllOrNothing heap (ended.1, ended.2.release (some block)) [block] failureFree := by
  obtain ⟨ok, step, whole, nothing⟩ := outcome
  have released := (step_release ended.2 block).frame ended.1.blocks
  have both := (step.frame [block]).trans (released.perm List.perm_append_comm (.refl _))
  rw [Bool.and_true] at both
  exact ⟨ok, both, whole, nothing⟩

/-- A call on a file is all or nothing, and it closes what it opens. -/
theorem assembleFile_outcome (stages : StageRequests) (answers : ReadAnswers)
    (sourcePath : Option (List UInt8)) (options : NazmOptions) (before : Resources) :
    let ended := nazmAssembleFile pattern stages answers sourcePath options before
    AllOrNothing before.heap (ended.1, ended.2.heap) []
        (Api.nazmAssembleFile answers sourcePath options) ∧
      ended.2.opened + before.closed = ended.2.closed + before.opened := by
  dsimp only
  unfold nazmAssembleFile Api.nazmAssembleFile
  split
  · exact ⟨diagnosticResult_outcome _ _ _ before.heap, Nat.add_comm _ _⟩
  · obtain ⟨ok, step, streams, whole, refused⟩ := readStream_reads pattern.grants answers before
    cases ran : readStream pattern.grants answers before with
    | mk result after =>
        rw [ran] at step streams whole refused
        cases ok with
        | false =>
            obtain rfl := refused rfl
            exact ⟨allOrNothing_of_failed step, streams⟩
        | true =>
            rw [← whole rfl]
            cases result with
            | error failure =>
                dsimp only [Except.map]
                unfold fileFailureResult
                split
                · exact ⟨⟨true, step, fun _ => rfl, fun impossible => Bool.noConfusion impossible⟩,
                    streams⟩
                · exact ⟨(diagnosticResult_outcome _ _ _ after.heap).after_step step, streams⟩
            | ok source =>
                refine ⟨AllOrNothing.after_step step (release_outcome ?_), streams⟩
                exact assembleBuffer_outcome stages _ _ _ options after.heap

end Calls

/-- What a call on a file promises, whatever fails. -/
structure FileCall (answers : ReadAnswers) (sourcePath : Option (List UInt8))
    (options : NazmOptions) (ended : HeapResult × Resources) : Prop where
  whole : ended.2.heap.failed = false →
    ended.1.view = Api.nazmAssembleFile answers sourcePath options
  nothing : ended.2.heap.failed = true → ended.1 = nazmEmptyResult .outOfMemory
  released : (nazmResultFree ended.1 ended.2.heap).Owns []
  closed : ended.2.opened = ended.2.closed
  outcomes : ended.2.heap.failed = false → nazmOptionsValid options = true →
    ∀ path, sourcePath = some path → path ≠ [] → path.length < 2 ^ 31 →
      FileOutcomes answers path options ended.1.view

/-- Whatever operation of the file and whatever request of the heap fails, a call on a file
is all or nothing: it assembles what it read within the limit, it says that the file was
not read, or it ran out of memory; every block that it obtained is released once its
result is freed, and every stream that it opened is closed. -/
theorem assemble_file_all_or_nothing (pattern : HeapPattern) (stages : StageRequests)
    (answers : ReadAnswers) (sourcePath : Option (List UInt8)) (options : NazmOptions) :
    FileCall answers sourcePath options
      (nazmAssembleFile pattern stages answers sourcePath options .start) := by
  obtain ⟨⟨ok, step, whole, nothing⟩, streams⟩ :=
    @assembleFile_outcome pattern stages answers sourcePath options .start
  have failed : (nazmAssembleFile pattern stages answers sourcePath options
      .start).2.heap.failed = !ok := step.failed
  have agrees : (nazmAssembleFile pattern stages answers sourcePath options
      .start).2.heap.failed = false →
      (nazmAssembleFile pattern stages answers sourcePath options .start).1.view =
        Api.nazmAssembleFile answers sourcePath options := by
    intro clean
    apply whole
    rw [failed, Bool.not_eq_false'] at clean
    exact clean
  refine ⟨agrees, ?_, ?_, streams, ?_⟩
  · intro lost
    apply nothing
    rw [failed, Bool.not_eq_true'] at lost
    exact lost
  · exact (step.trans (step_resultFree _ _)).owns Heap.owns_empty
  · rintro clean valid path rfl some_ short
    rw [agrees clean]
    exact nazmAssembleFile_outcomes some_ short valid

end OnHeap

end Nazm.Api
