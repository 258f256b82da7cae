import Nazm.Api.Heap

/-!
Allocation failure.

Owns what each function of the interface does with the blocks it obtains, whether
or not a request fails, and from this that a call is all or nothing and that
everything it obtained is released once its result is freed.

Does not own what a failure-free call returns.
-/

namespace Nazm.Api.OnHeap

open FailingHeap
open Nazm.Alloc Nazm.Diagnostics Nazm.Lexer Nazm.Output Nazm.Passes Nazm.Unicode

/-! ## Owned blocks -/

/-- The blocks of the texts of a diagnostic. -/
def HeapDiagnostic.blocks (diagnostic : HeapDiagnostic) : List Nat :=
  (diagnostic.file.map HeapString.block).toList ++ (diagnostic.message.map HeapString.block).toList

/-- What `nazm_result_free` releases. -/
def HeapResult.blocks (result : HeapResult) : List Nat :=
  (result.objectData.map Prod.fst).toList ++
    (result.elements.take result.diagnosticCount).flatMap HeapDiagnostic.blocks ++
    result.diagnostics.toList

/-- The addresses of the blocks of an arena. -/
def arenaAddresses (arena : Arena) : List Nat := arena.blocks.map ArenaBlock.address

theorem freeDiagnostic_eq (heap : Heap) (diagnostic : HeapDiagnostic) :
    freeDiagnostic heap diagnostic = heap.releaseAll diagnostic.blocks := by
  rw [freeDiagnostic, Heap.release_eq, Heap.release_eq, ← Heap.releaseAll_append]
  rfl

theorem nazmResultFree_eq (result : HeapResult) (heap : Heap) :
    nazmResultFree result heap = heap.releaseAll result.blocks := by
  have loop : ∀ (elements : List HeapDiagnostic) (heap : Heap),
      elements.foldl freeDiagnostic heap =
        heap.releaseAll (elements.flatMap HeapDiagnostic.blocks) := by
    intro elements
    induction elements with
    | nil => exact fun _ => rfl
    | cons diagnostic elements inductionHypothesis =>
        intro heap
        rw [List.foldl_cons, inductionHypothesis, freeDiagnostic_eq, List.flatMap_cons,
          Heap.releaseAll_append]
  rw [nazmResultFree, HeapResult.blocks, Heap.releaseAll_append, Heap.releaseAll_append, loop,
    Heap.release_eq, Heap.release_eq]

theorem step_resultFree (result : HeapResult) (heap : Heap) :
    Step heap (nazmResultFree result heap) result.blocks [] true := by
  rw [nazmResultFree_eq]
  exact step_releaseAll heap result.blocks

theorem step_arenaFree (arena : Arena) (heap : Heap) :
    Step heap (arenaFree arena heap) (arenaAddresses arena) [] true := by
  refine (step_releaseAll heap _).perm ?_ .nil
  rw [List.map_reverse]
  exact (List.reverse_perm _).symm

variable {pattern : HeapPattern}

/-! ## Texts and diagnostics -/

theorem step_strdup (text : List UInt8) (heap : Heap) :
    Step heap (nazmApiStrdup pattern text heap).2 []
      ((nazmApiStrdup pattern text heap).1.map HeapString.block).toList
      (nazmApiStrdup pattern text heap).1.isSome := by
  have step := @step_request pattern.grants heap
  have block : (nazmApiStrdup pattern text heap).1.map HeapString.block =
      (heap.request pattern.grants).1 := by
    rw [nazmApiStrdup, Option.map_map]
    exact Option.map_id'
  have same : (nazmApiStrdup pattern text heap).1.isSome = (heap.request pattern.grants).1.isSome := by
    rw [← block, Option.isSome_map]
  rw [block, same]
  exact step

/-- A copy that was made holds the text. -/
theorem strdup_text {text : List UInt8} {heap : Heap} {copy : HeapString}
    (isCopy : (nazmApiStrdup pattern text heap).1 = some copy) : copy.text = cString text := by
  rw [nazmApiStrdup, Option.map_eq_some_iff] at isCopy
  obtain ⟨_, -, rfl⟩ := isCopy
  rfl

/-- Both texts of a diagnostic; the second is copied even where the first was not. -/
theorem step_texts (file message : List UInt8) (line col endCol : Nat) (heap : Heap) :
    let fileCopy := nazmApiStrdup pattern file heap
    let messageCopy := nazmApiStrdup pattern message fileCopy.2
    Step heap messageCopy.2 []
      (HeapDiagnostic.blocks ⟨fileCopy.1, messageCopy.1, line, col, endCol⟩)
      (fileCopy.1.isSome && messageCopy.1.isSome) := by
  have first := @step_strdup pattern file heap
  have second := (@step_strdup pattern message (nazmApiStrdup pattern file heap).2).frame
    ((nazmApiStrdup pattern file heap).1.map HeapString.block).toList
  exact (first.trans second).perm .nil List.perm_append_comm

/-- A diagnostic as the caller sees it. -/
def HeapDiagnostic.view (diagnostic : HeapDiagnostic) : NazmDiagnostic :=
  ⟨(diagnostic.file.map HeapString.text).getD [], diagnostic.line, diagnostic.col,
    diagnostic.endCol, (diagnostic.message.map HeapString.text).getD []⟩

/-- A result as the caller sees it. -/
def HeapResult.view (result : HeapResult) : NazmResult :=
  ⟨result.status, result.objectData.map Prod.snd,
    (result.elements.take result.diagnosticCount).map HeapDiagnostic.view⟩

/-- Where neither copy failed, the diagnostic shows both texts. -/
theorem view_texts {file message : List UInt8} {heap middle : Heap} (line col endCol : Nat)
    (copied : ¬ ((nazmApiStrdup pattern file heap).1 = none ∨
      (nazmApiStrdup pattern message middle).1 = none)) :
    HeapDiagnostic.view ⟨(nazmApiStrdup pattern file heap).1,
        (nazmApiStrdup pattern message middle).1, line, col, endCol⟩ =
      ⟨cString file, line, col, endCol, cString message⟩ := by
  rw [not_or] at copied
  obtain ⟨fileCopy, isFile⟩ := Option.ne_none_iff_exists'.mp copied.1
  obtain ⟨messageCopy, isMessage⟩ := Option.ne_none_iff_exists'.mp copied.2
  rw [HeapDiagnostic.view, isFile, isMessage]
  simp only [Option.map_some, Option.getD_some, strdup_text isFile, strdup_text isMessage]

theorem isSome_and {α β : Type} {first : Option α} {second : Option β} :
    (first.isSome && second.isSome) = true ↔ ¬ (first = none ∨ second = none) := by
  cases first <;> cases second <;> simp

/-- The loop over the diagnostics owns every text it copied. -/
theorem step_copyElements (errors : List NazmError) (heap : Heap) :
    let copied := copyElements pattern errors heap
    Step heap copied.2 [] (copied.1.1.flatMap HeapDiagnostic.blocks) copied.1.2 ∧
      (copied.1.2 = true → copied.1.1.map HeapDiagnostic.view = errors.map fun source =>
        ⟨cString source.file, source.line, source.col, source.endCol, cString source.message⟩) := by
  induction errors generalizing heap with
  | nil => exact ⟨.refl heap [], fun _ => rfl⟩
  | cons source errors inductionHypothesis =>
      have texts := @step_texts pattern source.file source.message
      dsimp only at texts ⊢
      rw [copyElements]
      dsimp only
      split
      · next lost =>
          have fails := mt isSome_and.mp (not_not.mpr lost)
          have step := texts 0 0 0 heap
          rw [Bool.eq_false_of_not_eq_true fails] at step
          refine ⟨?_, fun impossible => absurd impossible Bool.false_ne_true⟩
          rw [List.flatMap_singleton]
          exact step
      · next copied =>
          have succeeds := isSome_and.mpr copied
          have step := texts source.line source.col source.endCol heap
          rw [succeeds] at step
          obtain ⟨rest, views⟩ := inductionHypothesis
            (nazmApiStrdup pattern source.message (nazmApiStrdup pattern source.file heap).2).2
          refine ⟨?_, fun all => ?_⟩
          · rw [List.flatMap_cons]
            exact (step.trans (rest.frame _)).perm .nil List.perm_append_comm
          · rw [List.map_cons, List.map_cons, view_texts _ _ _ copied, views all]

/-! ## Outcomes -/

/-- What a function returns: the failure-free result, or the empty result of a
call that ran out of memory; and nothing but the result's blocks stays owned. -/
structure Outcome (before : Heap) (ended : HeapResult × Heap) (given : List Nat)
    (failureFree : NazmResult) (ok : Bool) : Prop where
  step : Step before ended.2 given ended.1.blocks ok
  whole : ok = true → ended.1.view = failureFree
  nothing : ok = false → ended.1 = nazmEmptyResult .outOfMemory

/-- An outcome, whether or not a request failed. -/
def AllOrNothing (before : Heap) (ended : HeapResult × Heap) (given : List Nat)
    (failureFree : NazmResult) : Prop :=
  ∃ ok, Outcome before ended given failureFree ok

/-- The step that ends without memory owns nothing. -/
theorem allOrNothing_of_failed {before after : Heap} {given : List Nat} {failureFree : NazmResult}
    (step : Step before after given [] false) :
    AllOrNothing before (nazmEmptyResult .outOfMemory, after) given failureFree :=
  ⟨false, step, fun impossible => absurd impossible Bool.false_ne_true, fun _ => rfl⟩

/-- A request that is refused leaves nothing behind. -/
theorem step_refused {heap : Heap} (refused : (heap.request pattern.grants).1 = none) :
    Step heap (heap.request pattern.grants).2 [] [] false := by
  have step := @step_request pattern.grants heap
  rw [refused] at step
  exact step

/-! ## Results with diagnostics -/

/-- The result that owns an array and the texts of its elements. -/
def diagnosticsOwner (status : NazmStatus) (block : Nat) (elements : List HeapDiagnostic) :
    HeapResult :=
  ⟨status, none, some block, elements, elements.length⟩

theorem blocks_diagnosticsOwner (status : NazmStatus) (block : Nat)
    (elements : List HeapDiagnostic) :
    (diagnosticsOwner status block elements).blocks =
      elements.flatMap HeapDiagnostic.blocks ++ [block] := by
  rw [HeapResult.blocks, diagnosticsOwner, List.take_length]
  rfl

theorem view_diagnosticsOwner (status : NazmStatus) (block : Nat)
    (elements : List HeapDiagnostic) :
    (diagnosticsOwner status block elements).view =
      ⟨status, none, elements.map HeapDiagnostic.view⟩ := by
  rw [HeapResult.view, diagnosticsOwner, List.take_length]
  rfl

section Owner

variable {heap after : Heap} {block : Nat} {elements : List HeapDiagnostic} {ok : Bool}

/-- An array that was obtained, with the texts that followed. -/
theorem step_owner (granted : (heap.request pattern.grants).1 = some block)
    (step : Step (heap.request pattern.grants).2 after []
      (elements.flatMap HeapDiagnostic.blocks) ok) (status : NazmStatus) :
    Step heap after [] (diagnosticsOwner status block elements).blocks ok := by
  have first := @step_request pattern.grants heap
  rw [granted] at first
  have both := first.trans (step.frame [block])
  rw [Option.isSome_some, Bool.true_and] at both
  rw [blocks_diagnosticsOwner]
  exact both

/-- What was copied before a failure is released. -/
theorem step_ownerFree (granted : (heap.request pattern.grants).1 = some block)
    (step : Step (heap.request pattern.grants).2 after []
      (elements.flatMap HeapDiagnostic.blocks) false) (status : NazmStatus) :
    Step heap (nazmResultFree (diagnosticsOwner status block elements) after) [] [] false :=
  (step_owner granted step status).trans (step_resultFree _ after)

end Owner

/-- What follows a step that succeeds. -/
theorem AllOrNothing.after_step {before middle : Heap} {ended : HeapResult × Heap}
    {given taken : List Nat} {failureFree : NazmResult}
    (step : Step before middle given taken true)
    (outcome : AllOrNothing middle ended taken failureFree) :
    AllOrNothing before ended given failureFree := by
  obtain ⟨ok, rest, whole, nothing⟩ := outcome
  have both := step.trans rest
  rw [Bool.true_and] at both
  exact ⟨ok, both, whole, nothing⟩

theorem diagnosticResult_outcome (status : NazmStatus) (file message : List UInt8) (heap : Heap) :
    AllOrNothing heap (nazmDiagnosticResult pattern status file message heap) []
      (Api.nazmDiagnosticResult status file message) := by
  unfold nazmDiagnosticResult nazmAddSingleDiagnostic
  dsimp only
  cases granted : (heap.request pattern.grants).1 with
  | none => exact allOrNothing_of_failed (step_refused granted)
  | some block =>
      have texts := @step_texts pattern file message 0 0 0 (heap.request pattern.grants).2
      dsimp only at texts
      rw [← List.flatMap_singleton HeapDiagnostic.blocks] at texts
      rw [if_neg (Option.some_ne_none block)]
      split
      · next lost =>
          have fails := mt isSome_and.mp (not_not.mpr lost)
          rw [Bool.eq_false_of_not_eq_true fails] at texts
          exact allOrNothing_of_failed (step_ownerFree granted texts status)
      · next copied =>
          rw [isSome_and.mpr copied] at texts
          refine ⟨true, step_owner granted texts status, fun _ => ?_,
            fun impossible => Bool.noConfusion impossible⟩
          refine (view_diagnosticsOwner status block _).trans ?_
          rw [List.map_singleton, view_texts 0 0 0 copied]
          rfl

theorem sourceError_outcome {errors : ErrorList} (some_ : errorHasAny errors = true) (heap : Heap) :
    AllOrNothing heap (nazmSourceError pattern errors heap) [] (Api.nazmSourceError errors) := by
  have notEmpty : errors.errors ≠ [] := by
    rintro empty
    rw [errorHasAny, empty] at some_
    contradiction
  unfold nazmSourceError nazmCopyDiagnostics
  dsimp only
  rw [if_neg notEmpty]
  cases granted : (heap.request pattern.grants).1 with
  | none => exact allOrNothing_of_failed (step_refused granted)
  | some block =>
      obtain ⟨step, views⟩ := @step_copyElements pattern errors.errors
        (heap.request pattern.grants).2
      rw [if_neg (Option.some_ne_none block)]
      dsimp only
      split
      · next copied =>
          rw [copied] at step
          refine ⟨true, step_owner granted step .sourceError, fun _ => ?_,
            fun impossible => Bool.noConfusion impossible⟩
          exact (view_diagnosticsOwner .sourceError block _).trans
            (congrArg (NazmResult.mk .sourceError none) (views copied))
      · next lost =>
          rw [Bool.eq_false_of_not_eq_true lost] at step
          exact allOrNothing_of_failed (step_ownerFree granted step .sourceError)

theorem objectResult_outcome (object : List UInt8) (heap : Heap) :
    AllOrNothing heap (objectResult pattern object heap) []
      { Api.nazmEmptyResult .ok with objectData := some object } := by
  unfold objectResult
  dsimp only
  cases granted : (heap.request pattern.grants).1 with
  | none => exact allOrNothing_of_failed (step_refused granted)
  | some block =>
      have step := @step_request pattern.grants heap
      rw [granted] at step
      exact ⟨true, step, fun _ => rfl, fun impossible => Bool.noConfusion impossible⟩

/-! ## The arena -/

theorem step_sysMalloc (size : UInt64) (heap : Heap) :
    Step heap (sysMalloc pattern heap size).2 []
      ((sysMalloc pattern heap size).1.map HeapBlock.address).toList
      (sysMalloc pattern heap size).1.isSome := by
  have step := @step_request pattern.grants heap
  have block : (sysMalloc pattern heap size).1.map HeapBlock.address =
      (heap.request pattern.grants).1 := by
    rw [sysMalloc, Option.map_map]
    exact Option.map_id'
  have same : (sysMalloc pattern heap size).1.isSome = (heap.request pattern.grants).1.isSome := by
    rw [← block, Option.isSome_map]
  rw [block, same]
  exact step

/-- A block that the heap gave to the arena. -/
theorem sysMalloc_granted {size : UInt64} {heap after : Heap} {block : HeapBlock}
    (granted : sysMalloc pattern heap size = (some block, after)) :
    Step heap after [] [block.address] true := by
  have step := @step_sysMalloc pattern size heap
  rw [granted] at step
  exact step

theorem sysMalloc_refused {size : UInt64} {heap after : Heap}
    (refused : sysMalloc pattern heap size = (none, after)) : Step heap after [] [] false := by
  have step := @step_sysMalloc pattern size heap
  rw [refused] at step
  exact step

/-- `arena_alloc` that succeeds: the arena owns what it owned, and a block more
where it had no room. -/
theorem arenaAlloc_some {arena next : Arena} {size align : UInt64} {range : ArenaRange}
    {heap after : Heap}
    (allocated : arenaAlloc (sysMalloc pattern) arena size align heap = (some (next, range), after)) :
    Step heap after (arenaAddresses arena) (arenaAddresses next) true := by
  unfold arenaAlloc at allocated
  dsimp only at allocated
  split at allocated
  · obtain ⟨answer, rfl⟩ := Prod.mk.inj allocated
    obtain ⟨rfl, -⟩ := Prod.mk.inj (Option.some.inj answer)
    have kept := Step.refl heap (arenaAddresses arena)
    simp only [arenaAddresses, Arena.blocks, List.map_append, List.map_singleton] at kept ⊢
    exact kept
  · split at allocated
    · exact absurd (Prod.mk.inj allocated).1.symm (Option.some_ne_none _)
    · split at allocated
      · exact absurd (Prod.mk.inj allocated).1.symm (Option.some_ne_none _)
      · next granted =>
          obtain ⟨answer, rfl⟩ := Prod.mk.inj allocated
          obtain ⟨rfl, -⟩ := Prod.mk.inj (Option.some.inj answer)
          have step := (sysMalloc_granted granted).frame (arenaAddresses arena)
          refine step.perm (List.Perm.refl _) ?_
          simp only [arenaAddresses, Arena.blocks, List.map_append, List.map_singleton]
          exact List.perm_append_comm

/-- `arena_alloc` that jumps: nothing was obtained. -/
theorem arenaAlloc_none {arena : Arena} {size align : UInt64} {heap after : Heap}
    (jumped : arenaAlloc (sysMalloc pattern) arena size align heap = (none, after)) :
    Step heap after.refuse [] [] false := by
  unfold arenaAlloc at jumped
  dsimp only at jumped
  split at jumped
  · exact absurd (Prod.mk.inj jumped).1 (Option.some_ne_none _)
  · split at jumped
    · obtain ⟨-, rfl⟩ := Prod.mk.inj jumped
      exact step_refuse _
    · split at jumped
      · next refused =>
          obtain ⟨-, rfl⟩ := Prod.mk.inj jumped
          exact (sysMalloc_refused refused).trans (step_refuse _)
      · exact absurd (Prod.mk.inj jumped).1 (Option.some_ne_none _)

/-- A stage hands on an arena that owns every block obtained so far, and so it
does where it jumps. -/
theorem runStage_step (requests : ArenaRequests) (arena : Arena) (heap : Heap) :
    let ran := runStage pattern requests arena heap
    Step heap ran.2 (arenaAddresses arena) (arenaAddresses ran.1.1) ran.1.2 := by
  induction requests generalizing arena heap with
  | done => exact .refl heap _
  | request size align next inductionHypothesis =>
      dsimp only
      rw [runStage]
      split
      · next further range after allocated =>
          have both := (arenaAlloc_some allocated).trans (inductionHypothesis range further after)
          rw [Bool.true_and] at both
          exact both
      · next jumped => exact (arenaAlloc_none jumped).frame (arenaAddresses arena)

/-! ## The call -/

/-- Leaving a call releases the arena and the context. -/
theorem step_leave (arena : Arena) (context : Nat) (ended : HeapResult × Heap) :
    Step ended.2 (leave arena context ended).2 (arenaAddresses arena ++ [context]) [] true :=
  ((step_arenaFree arena ended.2).frame [context]).trans (step_releaseAll _ [context])

theorem leave_outcome {heap : Heap} {arena : Arena} {context : Nat} {ended : HeapResult × Heap}
    {failureFree : NazmResult} (outcome : AllOrNothing heap ended [] failureFree) :
    AllOrNothing heap (leave arena context ended) (arenaAddresses arena ++ [context])
      failureFree := by
  obtain ⟨ok, step, whole, nothing⟩ := outcome
  refine ⟨ok, ?_, whole, nothing⟩
  have released := (step_leave arena context ended).frame ended.1.blocks
  have kept := step.frame (arenaAddresses arena ++ [context])
  have both := kept.trans (released.perm List.perm_append_comm (.refl _))
  rw [Bool.and_true] at both
  exact both

/-- A stage, and what follows where it did not jump. -/
theorem withStage_outcome (requests : ArenaRequests) {context : Nat} {failureFree : NazmResult}
    {next : Arena → Heap → HeapResult × Heap}
    (follows : ∀ arena heap, AllOrNothing heap (next arena heap) (arenaAddresses arena ++ [context])
      failureFree) (arena : Arena) (heap : Heap) :
    AllOrNothing heap (withStage pattern requests context arena heap next)
      (arenaAddresses arena ++ [context]) failureFree := by
  have step := @runStage_step pattern requests arena heap
  unfold withStage
  split
  · next further after ran =>
      rw [ran] at step
      exact (follows further after).after_step (step.frame [context])
  · next further after ran =>
      rw [ran] at step
      exact allOrNothing_of_failed ((step.frame [context]).trans
        (step_leave further context (nazmEmptyResult .outOfMemory, after)))

/-- The first block of the arena; its size is one that a heap can express. -/
theorem arenaCreate_some {heap after : Heap} {arena : Arena}
    (created : arenaCreate (sysMalloc pattern) 0 heap = (some arena, after)) :
    Step heap after [] (arenaAddresses arena) true := by
  unfold arenaCreate at created
  dsimp only at created
  rw [if_pos rfl, if_neg (by decide)] at created
  split at created
  · exact absurd (Prod.mk.inj created).1.symm (Option.some_ne_none _)
  · next granted =>
      obtain ⟨answer, rfl⟩ := Prod.mk.inj created
      obtain rfl := Option.some.inj answer
      exact sysMalloc_granted granted

theorem arenaCreate_none {heap after : Heap}
    (jumped : arenaCreate (sysMalloc pattern) 0 heap = (none, after)) :
    Step heap after [] [] false := by
  unfold arenaCreate at jumped
  dsimp only at jumped
  rw [if_pos rfl, if_neg (by decide)] at jumped
  split at jumped
  · next refused =>
      obtain ⟨-, rfl⟩ := Prod.mk.inj jumped
      exact sysMalloc_refused refused
  · exact absurd (Prod.mk.inj jumped).1 (Option.some_ne_none _)

/-- A call with a context is all or nothing. -/
theorem assembleCaught_outcome (stages : StageRequests) (context : Nat) (src : SourceBuffer)
    (name : List UInt8) (options : NazmOptions) (heap : Heap) :
    AllOrNothing heap (nazmAssembleCaught pattern stages context src name options heap) [context]
      (Api.nazmAssembleCaught src name options) := by
  unfold nazmAssembleCaught
  split
  · next after jumped =>
      exact allOrNothing_of_failed (((arenaCreate_none jumped).frame [context]).trans
        (step_releaseAll after [context]))
  · next arena after created =>
      refine AllOrNothing.after_step ((arenaCreate_some created).frame [context]) ?_
      refine withStage_outcome stages.lexer (fun arena heap => ?_) arena after
      unfold Api.nazmAssembleCaught
      split
      · next errors => exact leave_outcome (sourceError_outcome errors heap)
      · refine withStage_outcome stages.parser (fun arena heap => ?_) arena heap
        split
        · next errors => exact leave_outcome (sourceError_outcome errors heap)
        · refine withStage_outcome stages.pass1 (fun arena heap => ?_) arena heap
          split
          · next errors => exact leave_outcome (sourceError_outcome errors heap)
          · refine withStage_outcome stages.pass2 (fun arena heap => ?_) arena heap
            split
            · next errors => exact leave_outcome (sourceError_outcome errors heap)
            · refine withStage_outcome stages.output (fun arena heap => ?_) arena heap
              cases outputWrite options.format (sourceOutput src) with
              | error message => exact leave_outcome (diagnosticResult_outcome _ _ _ heap)
              | ok object => exact leave_outcome (objectResult_outcome object heap)

/-- Every call is all or nothing. -/
theorem assembleBuffer_outcome (stages : StageRequests) (source : Option (List UInt8))
    (sourceLen : Nat) (sourceName : Option (List UInt8)) (options : NazmOptions) (heap : Heap) :
    AllOrNothing heap
      (nazmAssembleBuffer pattern stages source sourceLen sourceName options heap) []
      (Api.nazmAssembleBuffer source sourceLen sourceName options) := by
  unfold nazmAssembleBuffer Api.nazmAssembleBuffer
  split
  · exact diagnosticResult_outcome _ _ _ heap
  · have step := @step_request pattern.grants heap
    dsimp only
    split
    · next refused => exact allOrNothing_of_failed (step_refused refused)
    · next block granted =>
        rw [granted] at step
        exact AllOrNothing.after_step step (assembleCaught_outcome stages block _ _ options _)

/-- Allocation failure is all or nothing: a call none of whose requests failed
returns what it returns on a heap that never fails, and any other the empty result
of a call without memory; and once the result is freed, every block obtained was
released exactly once, and nothing else was. A size that no heap can express is a
request that failed. -/
theorem allocation_failure_all_or_nothing (pattern : HeapPattern) (stages : StageRequests)
    (source : Option (List UInt8)) (sourceLen : Nat) (sourceName : Option (List UInt8))
    (options : NazmOptions) :
    let ended := nazmAssembleBuffer pattern stages source sourceLen sourceName options .empty
    let freed := nazmResultFree ended.1 ended.2
    (ended.2.failed = false →
      ended.1.view = Api.nazmAssembleBuffer source sourceLen sourceName options) ∧
    (ended.2.failed = true → ended.1 = nazmEmptyResult .outOfMemory) ∧
    (∀ block ∈ freed.obtained, freed.released.count block = 1) ∧
    ∀ block ∈ freed.released, block ∈ freed.obtained := by
  obtain ⟨ok, step, whole, nothing⟩ :=
    @assembleBuffer_outcome pattern stages source sourceLen sourceName options .empty
  have failed := step.failed
  rw [show Heap.empty.failed = false from rfl, Bool.false_or] at failed
  have owned := (step.trans (step_resultFree _ _)).owns Heap.owns_empty
  refine ⟨fun clean => whole ?_, fun lost => nothing ?_, owned.released_once⟩
  · rw [failed, Bool.not_eq_false'] at clean
    exact clean
  · rw [failed, Bool.not_eq_true'] at lost
    exact lost

end Nazm.Api.OnHeap
