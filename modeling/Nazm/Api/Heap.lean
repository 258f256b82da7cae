import Nazm.Alloc.Arena
import Nazm.Api.Assemble
import Nazm.Library.FailingHeap

/-!
The programming interface over a heap that may fail.

Owns `src/api/api.c` from the results and their release on, as it runs over a heap
whose requests may fail, with `arena_free` of `src/alloc/arena.c`: a request that
the arena cannot meet leaves the call by a jump, which is an early return here.

Does not own which requests the stages make of the arena: they are any at all,
and may depend on what was handed out before.
-/

namespace Nazm.Api.OnHeap

open FailingHeap
open Nazm.Alloc Nazm.Diagnostics Nazm.Lexer Nazm.Output Nazm.Passes Nazm.Unicode

/-! ## The heap -/

/-- How the heap answers: which requests it grants, and what bytes lie in a block. -/
structure HeapPattern where
  grants : Nat → Bool
  garbage : Nat → Nat → UInt8

/-- `nazm_sys_malloc`, as the arena calls it. -/
def sysMalloc (pattern : HeapPattern) : SysMalloc Heap := fun heap _ =>
  let answer := heap.request pattern.grants
  (answer.1.map fun block => ⟨block, pattern.garbage block⟩, answer.2)

/-- `arena_free`: the blocks of the chain, newest first. -/
def arenaFree (arena : Arena) (heap : Heap) : Heap :=
  heap.releaseAll (arena.blocks.reverse.map ArenaBlock.address)

/-! ## Results -/

/-- A text in a block of its own. -/
structure HeapString where
  block : Nat
  text : List UInt8
deriving DecidableEq

/-- `NazmDiagnostic`, with its owned texts; `none` is the null pointer. -/
structure HeapDiagnostic where
  file : Option HeapString
  message : Option HeapString
  line : Nat
  col : Nat
  endCol : Nat
deriving DecidableEq

/-- `NazmResult`, with what it owns: `elements` are the elements of the array
`diagnostics` that were written, the others are zero. -/
structure HeapResult where
  status : NazmStatus
  objectData : Option (Nat × List UInt8)
  diagnostics : Option Nat
  elements : List HeapDiagnostic
  diagnosticCount : Nat
deriving DecidableEq

/-- `nazm_empty_result`. -/
def nazmEmptyResult (status : NazmStatus) : HeapResult := ⟨status, none, none, [], 0⟩

/-- `nazm_api_strdup`. -/
def nazmApiStrdup (pattern : HeapPattern) (text : List UInt8) (heap : Heap) :
    Option HeapString × Heap :=
  let answer := heap.request pattern.grants
  (answer.1.map fun block => ⟨block, cString text⟩, answer.2)

/-- One turn of the loop of `nazm_result_free`. -/
def freeDiagnostic (heap : Heap) (diagnostic : HeapDiagnostic) : Heap :=
  (heap.release (diagnostic.file.map HeapString.block)).release
    (diagnostic.message.map HeapString.block)

/-- `nazm_result_free`. -/
def nazmResultFree (result : HeapResult) (heap : Heap) : Heap :=
  let heap := heap.release (result.objectData.map Prod.fst)
  let heap := (result.elements.take result.diagnosticCount).foldl freeDiagnostic heap
  heap.release result.diagnostics

section Functions

variable (pattern : HeapPattern)

/-- `nazm_add_single_diagnostic`; a result that it frees is zero. -/
def nazmAddSingleDiagnostic (result : HeapResult) (file : List UInt8) (line col endCol : Nat)
    (message : List UInt8) (heap : Heap) : (HeapResult × Bool) × Heap :=
  let array := heap.request pattern.grants
  if array.1 = none then ((result, false), array.2)
  else
    let fileCopy := nazmApiStrdup pattern file array.2
    let messageCopy := nazmApiStrdup pattern message fileCopy.2
    let owner := { result with
      diagnostics := array.1
      elements := [⟨fileCopy.1, messageCopy.1, 0, 0, 0⟩]
      diagnosticCount := 1 }
    if fileCopy.1 = none ∨ messageCopy.1 = none then
      ((⟨.ok, none, none, [], 0⟩, false), nazmResultFree owner messageCopy.2)
    else
      (({ owner with elements := [⟨fileCopy.1, messageCopy.1, line, col, endCol⟩] }, true),
        messageCopy.2)

/-- `nazm_diagnostic_result`. -/
def nazmDiagnosticResult (status : NazmStatus) (file message : List UInt8) (heap : Heap) :
    HeapResult × Heap :=
  let added := nazmAddSingleDiagnostic pattern (nazmEmptyResult status) file 0 0 0 message heap
  if added.1.2 then (added.1.1, added.2) else (nazmEmptyResult .outOfMemory, added.2)

/-- The loop of `nazm_copy_diagnostics`: the elements it wrote, the last of them
without its texts where a copy failed. -/
def copyElements : List NazmError → Heap → (List HeapDiagnostic × Bool) × Heap
  | [], heap => (([], true), heap)
  | source :: errors, heap =>
      let fileCopy := nazmApiStrdup pattern source.file heap
      let messageCopy := nazmApiStrdup pattern source.message fileCopy.2
      if fileCopy.1 = none ∨ messageCopy.1 = none then
        (([⟨fileCopy.1, messageCopy.1, 0, 0, 0⟩], false), messageCopy.2)
      else
        let copied := copyElements errors messageCopy.2
        ((⟨fileCopy.1, messageCopy.1, source.line, source.col, source.endCol⟩ :: copied.1.1,
          copied.1.2), copied.2)

/-- `nazm_copy_diagnostics`. -/
def nazmCopyDiagnostics (result : HeapResult) (errors : ErrorList) (heap : Heap) :
    (HeapResult × Bool) × Heap :=
  if errors.errors = [] then ((result, true), heap)
  else
    let array := heap.request pattern.grants
    if array.1 = none then ((result, false), array.2)
    else
      let copied := copyElements pattern errors.errors array.2
      (({ result with
          diagnostics := array.1
          elements := copied.1.1
          diagnosticCount := copied.1.1.length }, copied.1.2), copied.2)

/-- `nazm_source_error`. -/
def nazmSourceError (errors : ErrorList) (heap : Heap) : HeapResult × Heap :=
  let copied := nazmCopyDiagnostics pattern (nazmEmptyResult .sourceError) errors heap
  if copied.1.2 then (copied.1.1, copied.2)
  else (nazmEmptyResult .outOfMemory, nazmResultFree copied.1.1 copied.2)

/-! ## Stages -/

/-- What a stage asks of the arena, one request after the other: the next may
depend on what it was given. -/
inductive ArenaRequests where
  | done
  | request (size align : UInt64) (next : ArenaRange → ArenaRequests)

/-- A stage, as far as the arena sees it; `false` where it left by a jump. -/
def runStage : ArenaRequests → Arena → Heap → (Arena × Bool) × Heap
  | .done, arena, heap => ((arena, true), heap)
  | .request size align next, arena, heap =>
      match arenaAlloc (sysMalloc pattern) arena size align heap with
      | (some (arena, range), heap) => runStage (next range) arena heap
      | (none, heap) =>
          -- a size that the heap cannot express fails like a full heap
          ((arena, false), heap.refuse)

/-- The requests of the stages of a call. -/
structure StageRequests where
  lexer : ArenaRequests
  parser : ArenaRequests
  pass1 : ArenaRequests
  pass2 : ArenaRequests
  output : ArenaRequests

/-- Every exit of `nazm_assemble_caught` releases the arena and the context. -/
def leave (arena : Arena) (context : Nat) (ended : HeapResult × Heap) : HeapResult × Heap :=
  (ended.1, (arenaFree arena ended.2).release (some context))

/-- A stage and what follows it; a jump ends in the branch of `setjmp`. -/
def withStage (requests : ArenaRequests) (context : Nat) (arena : Arena) (heap : Heap)
    (next : Arena → Heap → HeapResult × Heap) : HeapResult × Heap :=
  match runStage pattern requests arena heap with
  | ((arena, true), heap) => next arena heap
  | ((arena, false), heap) => leave arena context (nazmEmptyResult .outOfMemory, heap)

/-- The copy of the object into the result. -/
def objectResult (object : List UInt8) (heap : Heap) : HeapResult × Heap :=
  let answer := heap.request pattern.grants
  match answer.1 with
  | some block => ({ nazmEmptyResult .ok with objectData := some (block, object) }, answer.2)
  | none => (nazmEmptyResult .outOfMemory, answer.2)

/-- `nazm_assemble_caught`. -/
def nazmAssembleCaught (stages : StageRequests) (context : Nat) (src : SourceBuffer)
    (logicalName : List UInt8) (options : NazmOptions) (heap : Heap) : HeapResult × Heap :=
  match arenaCreate (sysMalloc pattern) 0 heap with
  | (none, heap) => (nazmEmptyResult .outOfMemory, heap.release (some context))
  | (some arena, heap) =>
      withStage pattern stages.lexer context arena heap fun arena heap =>
      if errorHasAny (lexerLex src).errors then
        leave arena context (nazmSourceError pattern (lexerLex src).errors heap)
      else
        withStage pattern stages.parser context arena heap fun arena heap =>
        if errorHasAny (sourceParse src).errors then
          leave arena context (nazmSourceError pattern (sourceParse src).errors heap)
        else
          withStage pattern stages.pass1 context arena heap fun arena heap =>
          if errorHasAny (sourcePass1 src).errors then
            leave arena context (nazmSourceError pattern (sourcePass1 src).errors heap)
          else
            withStage pattern stages.pass2 context arena heap fun arena heap =>
            if errorHasAny (sourcePass2 src).errors then
              leave arena context (nazmSourceError pattern (sourcePass2 src).errors heap)
            else
              withStage pattern stages.output context arena heap fun arena heap =>
              match outputWrite options.format (sourceOutput src) with
              | .error message =>
                  leave arena context
                    (nazmDiagnosticResult pattern .internalError logicalName message heap)
              | .ok object => leave arena context (objectResult pattern object heap)

/-- `nazm_assemble_buffer`. -/
def nazmAssembleBuffer (stages : StageRequests) (source : Option (List UInt8)) (sourceLen : Nat)
    (sourceName : Option (List UInt8)) (options : NazmOptions) (heap : Heap) :
    HeapResult × Heap :=
  if (source = none ∧ sourceLen ≠ 0) ∨ nazmOptionsValid options = false then
    nazmDiagnosticResult pattern .invalidArgument (logicalName sourceName)
      (utf8 "خيارات واجهة نظم أو مخزن المصدر غير صالح.") heap
  else
    let context := heap.request pattern.grants
    match context.1 with
    | none => (nazmEmptyResult .outOfMemory, context.2)
    | some block =>
        nazmAssembleCaught pattern stages block (callSource source sourceLen sourceName)
          (logicalName sourceName) options context.2

end Functions

end Nazm.Api.OnHeap
