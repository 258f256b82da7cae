import Nazm.Api.File
import Nazm.Cli.Command

/-!
How the command ends.

Owns that a command to assemble does what the library does with the source it read: which
ending each run has, which files it changes and what they hold then, whatever operation
of a file or request of the heap fails.

Does not own the functions that the command calls.
-/

namespace Nazm.Cli

open BufferedFile FailingHeap
open Nazm.Alloc Nazm.Api Nazm.Api.OnHeap Nazm.Diagnostics Nazm.Io Nazm.Lexer Nazm.Output
open Nazm.Passes Nazm.Unicode

/-! ## The library's call -/

/-- The options of a call for a format. -/
def formatOptions (format : NazmOutputFormat) : NazmOptions :=
  { coffOptions with format := format }

/-- The library's call for the source that the command read. -/
def libraryCall (args : CliArgs) (data : List UInt8) : NazmResult :=
  Api.nazmAssembleBuffer (some data) data.length (some args.sourceName) (formatOptions args.format)

/-- Diagnostics as the command prints them. -/
def printDiagnostics (diagnostics : List NazmDiagnostic) (data : List UInt8) : List UInt8 :=
  diagnostics.flatMap fun diagnostic =>
    let error : NazmError := ⟨diagnostic.file, diagnostic.line, diagnostic.col,
      diagnostic.endCol, diagnostic.message⟩
    printErrorLine error ++ printSourceContext data error

section Library

variable {src : SourceBuffer}

theorem cString_cString (text : List UInt8) : cString (cString text) = cString text :=
  cString_of_clean (zero_notMem_cString text)

/-- The command prints the diagnostics that the library returns, and says whether some
were dropped. -/
theorem errorPrintAllTo_eq (errors : ErrorList) (data : List UInt8) :
    errorPrintAllTo errors data =
      printDiagnostics (Api.nazmCopyDiagnostics errors) data ++
        if errors.fatal then printFatalLine else [] := by
  have each : printDiagnostics (Api.nazmCopyDiagnostics errors) data =
      errors.errors.flatMap fun error => printErrorLine error ++ printSourceContext data error := by
    rw [printDiagnostics, Api.nazmCopyDiagnostics, List.flatMap_map]
    congr 1
    funext error
    simp only [printErrorLine, printSourceContext, cString_cString]
  rw [each, errorPrintAllTo]

theorem nazmAssembleCaught_eq (src : SourceBuffer) (name : List UInt8) (options : NazmOptions) :
    Api.nazmAssembleCaught src name options =
      if errorHasAny (sourceErrors src) then Api.nazmSourceError (sourceErrors src)
      else
        match outputWrite options.format (sourceOutput src) with
        | .error message => Api.nazmDiagnosticResult .internalError name message
        | .ok file => { Api.nazmEmptyResult .ok with objectData := some file } := by
  unfold Api.nazmAssembleCaught sourceErrors
  by_cases lexed : errorHasAny (lexerLex src).errors = true
  · rw [if_pos lexed, if_pos lexed, if_pos lexed]
  · rw [if_neg lexed, if_neg lexed]
    by_cases parsed : errorHasAny (sourceParse src).errors = true
    · rw [if_pos parsed, if_pos parsed, if_pos parsed]
    · rw [if_neg parsed, if_neg parsed]
      by_cases sized : errorHasAny (sourcePass1 src).errors = true
      · rw [if_pos sized, if_pos sized, if_pos sized]
      · cases outputWrite options.format (sourceOutput src) with
        | error message => rw [if_neg sized, if_neg sized]
        | ok file => rw [if_neg sized, if_neg sized]

end Library

theorem libraryCall_eq {args : CliArgs} (known : args.format = .elf64 ∨ args.format = .coff)
    (data : List UInt8) :
    libraryCall args data =
      if errorHasAny (sourceErrors (args.sourceBuffer data)) then
        Api.nazmSourceError (sourceErrors (args.sourceBuffer data))
      else
        match outputWrite args.format (sourceOutput (args.sourceBuffer data)) with
        | .error message => Api.nazmDiagnosticResult .internalError args.sourceName message
        | .ok file => { Api.nazmEmptyResult .ok with objectData := some file } := by
  have valid : nazmOptionsValid (formatOptions args.format) = true := by
    rcases known with elf | coff
    · rw [elf]
      decide
    · rw [coff]
      decide
  have isBuffer : ¬ ((some data = none ∧ data.length ≠ 0) ∨
      nazmOptionsValid (formatOptions args.format) = false) := by
    rintro (⟨none, -⟩ | invalid)
    · exact Option.some_ne_none data none
    · exact absurd (invalid.symm.trans valid) Bool.false_ne_true
  have source : callSource (some data) data.length (some args.sourceName) =
      args.sourceBuffer data := by
    rw [callSource, Option.getD_some, List.take_length]
    rfl
  rw [libraryCall, Api.nazmAssembleBuffer, if_neg isBuffer, source, nazmAssembleCaught_eq]
  rfl

/-- A source without errors is not rejected. -/
theorem libraryCall_accepts {args : CliArgs} (known : args.format = .elf64 ∨ args.format = .coff)
    {data : List UInt8} (clean : errorHasAny (sourceErrors (args.sourceBuffer data)) = false) :
    (libraryCall args data).status ≠ .sourceError := by
  rw [libraryCall_eq known, clean, if_neg Bool.false_ne_true]
  cases outputWrite args.format (sourceOutput (args.sourceBuffer data)) with
  | error message => exact fun impossible => NazmStatus.noConfusion impossible
  | ok object => exact fun impossible => NazmStatus.noConfusion impossible

/-! ## Runs -/

section Runs

variable {File : Type} [DecidableEq File] {host : CommandHost File} {context : MainContext File}

/-- The result of comparing the paths where the memory does not run out. -/
def expectedClash (host : CommandHost File) (args : WriteArgs (List UInt8)) : IoPathIdentity :=
  pathClash (fun left right => expectedIdentity host.toIoHost left right false) args

/-- A comparison of the paths, where the memory did or did not run out: without memory
they are never found to differ. -/
structure Compared (host : CommandHost File) (args : WriteArgs (List UInt8))
    (clash : IoPathIdentity) (ok : Bool) : Prop where
  granted : ok = true → clash = expectedClash host args
  cautious : ok = false → clash ≠ .different

/-- The paths of a command are C strings. -/
structure CleanPaths (args : WriteArgs (List UInt8)) : Prop where
  source : 0 ∉ args.sourcePath
  out : 0 ∉ args.outPath
  listing : ∀ path, args.listingPath = some path → 0 ∉ path

theorem worse_cautious {first second : IoPathIdentity} (cautious : first = .unknown ∨
    second = .unknown) : first.worse second ≠ .different := by
  rcases cautious with rfl | rfl
  · cases second <;> decide
  · cases first <;> decide

theorem comparePaths_steps {args : WriteArgs (List UInt8)} (clean : CleanPaths args)
    (heap : Heap) :
    ∃ ok, Step heap (comparePaths host args heap).2 [] [] ok ∧
      Compared host args (comparePaths host args heap).1 ok := by
  obtain ⟨okOut, stepOut, answerOut, cautiousOut⟩ :=
    @ioPathIdentity_steps File _ host.toIoHost _ _ clean.out clean.source heap
  unfold comparePaths
  dsimp only
  cases listed : args.listingPath with
  | none =>
      refine ⟨okOut, stepOut, ?_, ?_⟩
      · rintro rfl
        rw [expectedClash, pathClash, listed]
        exact answerOut
      · intro lost different
        rw [cautiousOut lost] at different
        contradiction
  | some listingPath =>
      obtain ⟨okSource, stepSource, answerSource, cautiousSource⟩ :=
        @ioPathIdentity_steps File _ host.toIoHost _ _ (clean.listing _ listed) clean.source
          (ioPathIdentity host.toIoHost args.outPath args.sourcePath heap).2
      obtain ⟨okObject, stepObject, answerObject, cautiousObject⟩ :=
        @ioPathIdentity_steps File _ host.toIoHost _ _ (clean.listing _ listed) clean.out
          (ioPathIdentity host.toIoHost listingPath args.sourcePath
            (ioPathIdentity host.toIoHost args.outPath args.sourcePath heap).2).2
      refine ⟨okOut && (okSource && okObject), stepOut.trans (stepSource.trans stepObject), ?_, ?_⟩
      · intro all
        rw [Bool.and_eq_true, Bool.and_eq_true] at all
        obtain ⟨rfl, rfl, rfl⟩ := all
        rw [expectedClash, pathClash, listed]
        dsimp only
        rw [answerOut, answerSource, answerObject]
        rfl
      · intro lost
        dsimp only
        rw [Bool.and_eq_false_iff, Bool.and_eq_false_iff] at lost
        rcases lost with lostOut | lostSource | lostObject
        · intro different
          have both := (IoPathIdentity.worse_eq_different.mp different).1
          exact worse_cautious (.inl (cautiousOut lostOut)) both
        · intro different
          have both := (IoPathIdentity.worse_eq_different.mp different).1
          exact worse_cautious (.inr (cautiousSource lostSource)) both
        · exact worse_cautious (.inr (cautiousObject lostObject))

/-- How the command ends with a source that it read and a result of the comparison. -/
def sourceEnd (host : CommandHost File) (context : MainContext File) (clash : IoPathIdentity) :
    MainEnd × (File → Option (List UInt8)) :=
  if errorHasAny (sourceErrors context.source) then
    (.sourceErrors (errorPrintAllTo (sourceErrors context.source) context.source.data),
      context.files)
  else
    let ended := nazmWriteOutputs ⟨host.locate, fun _ _ => clash, host.pattern⟩
      context.args.writeArgs context.files context.source
    (.outputs ended.1, ended.2)

/-- No stream was opened or closed. -/
structure SameStreams (before after : Resources) : Prop where
  opened : after.opened = before.opened
  closed : after.closed = before.closed

/-- The end of a run: the process ended without memory before it wrote anything, or it
returned and released what it was given. Paths are only compared of a source without
errors. -/
inductive Ended (host : CommandHost File) (context : MainContext File) (given : List Nat)
    (before : Resources) (run : MainRun File) : Prop
  | outOfMemory : SameStreams before run.resources → run.ending = .outOfMemory →
      run.files = context.files → run.resources.heap.failed = true →
      Ended host context given before run
  | returned (clash : IoPathIdentity) (ok : Bool) : SameStreams before run.resources →
      Step before.heap run.resources.heap given [] ok →
      Compared host context.args.writeArgs clash ok →
      (ok = false → errorHasAny (sourceErrors context.source) = false) →
      (run.ending, run.files) = sourceEnd host context clash → Ended host context given before run

/-- What a run is given: the blocks of the arena and the one of the source. -/
def runBlocks (context : MainContext File) (arena : Arena) : List Nat :=
  context.block :: arenaAddresses arena

omit [DecidableEq File] in
theorem step_cleanup (arena : Arena) (heap : Heap) :
    Step heap (arenaFree arena (heap.release (some context.block))) (runBlocks context arena) []
      true :=
  ((step_release heap context.block).frame (arenaAddresses arena)).trans (step_arenaFree arena _)

/-- What follows a step that succeeds. -/
theorem Ended.after_step {before middle : Resources} {given taken : List Nat} {run : MainRun File}
    (streams : SameStreams before middle)
    (step : Step before.heap middle.heap given taken true)
    (ended : Ended host context taken middle run) : Ended host context given before run := by
  cases ended with
  | outOfMemory same ending files failed =>
      exact .outOfMemory ⟨same.opened.trans streams.opened, same.closed.trans streams.closed⟩
        ending files failed
  | returned clash ok same later compared clean ends =>
      have both := step.trans later
      rw [Bool.true_and] at both
      exact .returned clash ok ⟨same.opened.trans streams.opened,
        same.closed.trans streams.closed⟩ both compared clean ends

theorem withArena_ended (requests : ArenaRequests)
    {next : Arena → Resources → MainRun File}
    (follows : ∀ arena resources,
      Ended host context (runBlocks context arena) resources (next arena resources))
    (arena : Arena) (before : Resources) :
    Ended host context (runBlocks context arena) before
      (withArena host context requests arena before next) := by
  have step := @runStage_step host.heapPattern requests arena before.heap
  unfold withArena
  split
  · next further after ran =>
      rw [ran] at step
      have framed : Step before.heap after (runBlocks context arena) (runBlocks context further)
          true :=
        (step.frame [context.block]).perm (List.perm_append_singleton _ _).symm
          (List.perm_append_singleton _ _)
      have later := follows further { before with heap := after }
      have streams : SameStreams before { before with heap := after } := ⟨rfl, rfl⟩
      exact later.after_step streams framed
  · next further after ran =>
      rw [ran] at step
      exact .outOfMemory ⟨rfl, rfl⟩ rfl rfl (step.failed.trans (Bool.or_true _))

/-- A stage that reports errors is the first one that does. -/
theorem mainStage_ended (requests : ArenaRequests) {errors : ErrorList}
    {next : Arena → Resources → MainRun File}
    (first : errorHasAny errors = true → sourceErrors context.source = errors)
    (follows : errorHasAny errors = false → ∀ arena resources,
      Ended host context (runBlocks context arena) resources (next arena resources))
    (arena : Arena) (before : Resources) :
    Ended host context (runBlocks context arena) before
      (mainStage host context requests errors arena before next) := by
  unfold mainStage
  apply withArena_ended
  intro arena resources
  by_cases reported : errorHasAny errors = true
  · rw [if_pos reported]
    refine .returned _ true ⟨rfl, rfl⟩ (step_cleanup arena resources.heap) ⟨fun _ => rfl, ?_⟩
      ?_ ?_
    · intro impossible
      exact absurd impossible.symm Bool.false_ne_true
    · intro impossible
      exact absurd impossible.symm Bool.false_ne_true
    · rw [sourceEnd, first reported, if_pos reported]
      rfl
  · rw [if_neg reported]
    exact follows (Bool.eq_false_of_not_eq_true reported) arena resources

/-- An accepted source is written out. -/
theorem writeOutputs_ended (accepted : errorHasAny (sourceErrors context.source) = false)
    {clash : IoPathIdentity} {ok : Bool} (compared : Compared host context.args.writeArgs clash ok)
    {before : Resources} {arena : Arena} {resources : Resources}
    (streams : SameStreams before resources)
    (step : Step before.heap resources.heap (runBlocks context arena) (runBlocks context arena)
      ok) :
    Ended host context (runBlocks context arena) before
      (writeOutputs host context clash arena resources) := by
  have released := step.trans (step_cleanup arena resources.heap)
  rw [Bool.and_true] at released
  refine .returned clash ok ⟨streams.opened, streams.closed⟩ released compared
    (fun _ => accepted) ?_
  rw [sourceEnd, accepted]
  rfl

theorem mainAssemble_ended (clean : CleanPaths context.args.writeArgs) (arena : Arena)
    (before : Resources) :
    Ended host context (runBlocks context arena) before
      (mainAssemble host context arena before) := by
  unfold mainAssemble
  apply mainStage_ended
  · intro lexed
    exact if_pos lexed
  intro lexed arena resources
  apply mainStage_ended
  · intro parsed
    unfold sourceErrors
    rw [lexed]
    exact if_pos parsed
  intro parsed arena resources
  apply mainStage_ended
  · intro sized
    unfold sourceErrors
    rw [lexed, parsed]
    exact if_pos sized
  intro sized arena resources
  have last : sourceErrors context.source = (sourcePass2 context.source).errors := by
    unfold sourceErrors
    rw [lexed, parsed, sized]
    rfl
  apply mainStage_ended
  · intro _
    exact last
  intro encoded arena resources
  have accepted : errorHasAny (sourceErrors context.source) = false := last ▸ encoded
  apply withArena_ended
  intro arena resources
  obtain ⟨ok, step, compared⟩ := @comparePaths_steps File _ host _ clean resources.heap
  have framed := step.frame (runBlocks context arena)
  dsimp only
  split
  · next different =>
      rw [different] at compared
      cases ok with
      | false => exact absurd rfl (compared.cautious rfl)
      | true =>
          apply @Ended.after_step _ _ _ _ resources
            { resources with heap := (comparePaths host context.args.writeArgs resources.heap).2 }
            _ _ _ ⟨rfl, rfl⟩ framed
          apply withArena_ended
          intro arena resources
          exact writeOutputs_ended accepted compared ⟨rfl, rfl⟩ (.refl _ _)
  · exact writeOutputs_ended accepted compared ⟨rfl, rfl⟩ framed

end Runs

/-! ## Command lines -/

/-- Arguments that are C strings, and a format that there is. -/
structure CleanArgs (args : CliArgs) : Prop where
  source : ∀ path, args.sourcePath = some path → 0 ∉ path
  output : ∀ path, args.outputPath = some path → 0 ∉ path
  listing : ∀ path, args.listingPath = some path → 0 ∉ path
  format : args.format = .elf64 ∨ args.format = .coff

section Lines

variable {args : CliArgs} {words : List (List UInt8)} {defaultFormat : NazmOutputFormat}

theorem cleanArgs_apply {option : CliOption} (spells : option.Spells words)
    (clean : ∀ word ∈ words, 0 ∉ word) (before : CleanArgs args) :
    CleanArgs (option.apply args) := by
  have isLast : ∀ {path last : List UInt8}, 0 ∉ last → some last = some path → 0 ∉ path := by
    rintro path last noZero ⟨rfl⟩
    exact noZero
  cases spells with
  | verbose _ => exact ⟨before.source, before.output, before.listing, before.format⟩
  | @output _ path _ =>
      have noZero := clean path (List.mem_cons_of_mem _ (List.mem_singleton_self path))
      exact ⟨before.source, fun _ => isLast noZero, before.listing, before.format⟩
  | @listing _ path _ =>
      have noZero := clean path (List.mem_cons_of_mem _ (List.mem_singleton_self path))
      exact ⟨before.source, before.output, fun _ => isLast noZero, before.format⟩
  | logicalName _ => exact ⟨before.source, before.output, before.listing, before.format⟩
  | @format _ isCoff _ =>
      refine ⟨before.source, before.output, before.listing, ?_⟩
      cases isCoff with
      | false => exact .inl rfl
      | true => exact .inr rfl
  | @source path _ =>
      have noZero := clean path (List.mem_singleton_self path)
      exact ⟨fun _ => isLast noZero, before.output, before.listing, before.format⟩

theorem cleanArgs_options {options : List CliOption} (spells : SpellsAll options words)
    (clean : ∀ word ∈ words, 0 ∉ word) (before : CleanArgs args) :
    CleanArgs (options.foldl CliOption.apply args) := by
  induction spells generalizing args with
  | nil => exact before
  | cons isOption _ inductionHypothesis =>
      rw [List.foldl_cons]
      apply inductionHypothesis
      · intro word member
        exact clean word (List.mem_append_right _ member)
      · apply cleanArgs_apply isOption _ before
        intro word member
        exact clean word (List.mem_append_left _ member)

theorem cleanArgs_of_line (line : CommandLine defaultFormat words args)
    (clean : ∀ word ∈ words, 0 ∉ word) (known : defaultFormat = .elf64 ∨ defaultFormat = .coff) :
    CleanArgs args := by
  obtain ⟨options, path, spells, -, -, rfl⟩ := line
  apply cleanArgs_options spells clean
  have none : ∀ path : List UInt8, (none : Option (List UInt8)) = some path → 0 ∉ path := by
    intro path impossible
    contradiction
  exact ⟨none, none, none, known⟩

theorem cleanPaths_of_args (clean : CleanArgs args) : CleanPaths args.writeArgs := by
  have source : 0 ∉ args.sourcePath.getD [] := by
    cases given : args.sourcePath with
    | none => exact List.not_mem_nil
    | some path => exact clean.source path given
  refine ⟨source, ?_, clean.listing⟩
  unfold CliArgs.writeArgs
  cases given : args.outputPath with
  | none => exact makeOutputPath_clean source args.format
  | some path => exact clean.output path given

end Lines

/-! ## The whole command -/

section Main

variable {File : Type} [DecidableEq File] {host : CommandHost File} {args : CliArgs}
  {files : File → Option (List UInt8)} {run : MainRun File}

/-- How the source of a command answers. -/
def sourceAnswer (host : CommandHost File) (args : CliArgs) : Except ReadFailure (List UInt8) :=
  readAnswer (host.answers (args.sourcePath.getD []))

/-- The end of a command to assemble. -/
inductive MainEnded (host : CommandHost File) (args : CliArgs) (files : File → Option (List UInt8))
    (run : MainRun File) : Prop
  | outOfMemory : run.resources.opened = run.resources.closed → run.ending = .outOfMemory →
      run.files = files → run.resources.heap.failed = true → MainEnded host args files run
  | notRead (failure : ReadFailure) (ok : Bool) : run.resources.opened = run.resources.closed →
      Step .empty run.resources.heap [] [] ok →
      (ok = true → sourceAnswer host args = .error failure) →
      (ok = false → failure = .noMemory) → run.ending = .sourceNotRead failure.status →
      run.files = files → MainEnded host args files run
  | read (data : List UInt8) (block : Nat) (clash : IoPathIdentity) (ok : Bool) :
      run.resources.opened = run.resources.closed → Step .empty run.resources.heap [] [] ok →
      sourceAnswer host args = .ok data →
      Compared host args.writeArgs clash ok →
      (ok = false → errorHasAny (sourceErrors (args.sourceBuffer data)) = false) →
      (run.ending, run.files) =
        sourceEnd host ⟨files, args, args.sourceBuffer data, block⟩ clash →
      MainEnded host args files run

theorem nazmMain_ended {defaultFormat : NazmOutputFormat} {argv : List (List UInt8)}
    (parsed : cliParse defaultFormat argv = args) (runs : args.Runs)
    (clean : CleanPaths args.writeArgs) :
    MainEnded host args files (nazmMain host defaultFormat argv files) := by
  unfold nazmMain
  rw [parsed]
  dsimp only
  rw [runs.help, runs.version, runs.apiInfo, runs.valid, if_neg Bool.false_ne_true,
    if_neg Bool.false_ne_true, if_neg Bool.false_ne_true, if_neg Bool.false_ne_true.symm]
  split
  · next heap jumped =>
      have step := arenaCreate_none jumped
      exact .outOfMemory rfl rfl rfl step.failed
  · next arena heap created =>
      have step := arenaCreate_some created
      obtain ⟨ok, reading, streams, whole, refused⟩ := readStream_reads host.grants
        (host.answers (args.sourcePath.getD [])) { Resources.start with heap := heap }
      unfold readFile
      cases ran : readStream host.grants (host.answers (args.sourcePath.getD []))
          { Resources.start with heap := heap } with
      | mk result after =>
          rw [ran] at reading streams whole refused
          dsimp only at reading streams
          have same : after.opened = after.closed := streams
          have both := step.trans (reading.frame (arenaAddresses arena))
          rw [Bool.true_and] at both
          cases result with
          | error failure =>
              have freed := both.trans (step_arenaFree arena after.heap)
              rw [Bool.and_true] at freed
              refine .notRead failure ok same freed ?_ ?_ rfl rfl
              · intro granted
                exact (whole granted).symm
              · intro lost
                exact Except.error.inj (refused lost)
          | ok source =>
              cases ok with
              | false =>
                  have impossible := refused rfl
                  contradiction
              | true =>
                  have ended := @mainAssemble_ended File _ host
                    ⟨files, args, args.sourceBuffer source.data, source.block⟩ clean arena after
                  dsimp only [Except.mapError]
                  cases ended with
                  | outOfMemory kept ending unchanged failed =>
                      exact .outOfMemory (kept.opened.trans (same.trans kept.closed.symm)) ending
                        unchanged failed
                  | returned clash ok kept later compared accepted ends =>
                      have all := both.trans later
                      rw [Bool.true_and] at all
                      exact .read source.data source.block clash ok
                        (kept.opened.trans (same.trans kept.closed.symm)) all (whole rfl).symm
                        compared accepted ends

/-- What is written of an object that the library returns: each file that could be written
is whole, and the ending says which one could not. -/
structure ObjectWritten (host : CommandHost File) (args : WriteArgs (List UInt8))
    (src : SourceBuffer) (object : List UInt8) (run : MainRun File) : Prop where
  objectFails : (host.pattern (host.locate args.outPath)).succeeds 1 = false →
    run.ending = .outputs .objectNotWritten
  listingFails : (host.pattern (host.locate args.outPath)).succeeds 1 = true →
    ∀ path, args.listingPath = some path →
      (host.pattern (host.locate path)).succeeds (listingPieces src).length = false →
        run.ending = .outputs .listingNotWritten
  written : (host.pattern (host.locate args.outPath)).succeeds 1 = true →
    (∀ path, args.listingPath = some path →
      (host.pattern (host.locate path)).succeeds (listingPieces src).length = true) →
        run.ending = .outputs .written
  object : (host.pattern (host.locate args.outPath)).succeeds 1 = true →
    (∀ path, args.listingPath = some path → host.locate path ≠ host.locate args.outPath) →
      run.files (host.locate args.outPath) = some object
  listing : run.ending = .outputs .written → ∀ path, args.listingPath = some path →
    run.files (host.locate path) = some (wholeListing src)

/-- What a command to assemble promises. -/
structure CommandRun (host : CommandHost File) (args : CliArgs)
    (files : File → Option (List UInt8)) (run : MainRun File) : Prop where
  memory : run.resources.heap.failed = true → run.ending.exitCode = 2 ∧ run.files = files
  unread : run.resources.heap.failed = false →
    ∀ failure, sourceAnswer host args = .error failure →
      run.ending = .sourceNotRead failure.status ∧ run.files = files
  rejected : run.resources.heap.failed = false → ∀ data, sourceAnswer host args = .ok data →
    (libraryCall args data).status = .sourceError →
      ∃ dropped : Bool, run.files = files ∧ run.ending = .sourceErrors
        (printDiagnostics (libraryCall args data).diagnostics data ++
          if dropped then printFatalLine else [])
  clashes : run.resources.heap.failed = false → ∀ data, sourceAnswer host args = .ok data →
    (libraryCall args data).status ≠ .sourceError →
      expectedClash host args.writeArgs ≠ .different →
        run.ending.exitCode = 2 ∧ run.files = files
  internal : run.resources.heap.failed = false → ∀ data, sourceAnswer host args = .ok data →
    (libraryCall args data).status = .internalError →
      expectedClash host args.writeArgs = .different →
        run.ending = .outputs .outputError ∧ run.files = files
  assembled : run.resources.heap.failed = false → ∀ data, sourceAnswer host args = .ok data →
    expectedClash host args.writeArgs = .different →
      ∀ object, (libraryCall args data).objectData = some object →
        ObjectWritten host args.writeArgs (args.sourceBuffer data) object run
  frame : ∀ file, file ≠ host.locate args.writeArgs.outPath →
    (∀ path, args.listingPath = some path → file ≠ host.locate path) →
      run.files file = files file
  released : run.ending ≠ .outOfMemory → run.resources.heap.Owns []
  closed : run.resources.opened = run.resources.closed

section Written

variable {src : SourceBuffer} {writeArgs : WriteArgs (List UInt8)}

/-- The surroundings of the end of a command, once its paths are compared. -/
def comparedSurroundings (host : CommandHost File) (clash : IoPathIdentity) :
    Surroundings (List UInt8) File :=
  ⟨host.locate, fun _ _ => clash, host.pattern⟩

theorem pathClash_const (clash : IoPathIdentity) (writeArgs : WriteArgs (List UInt8)) :
    pathClash (fun _ _ => clash) writeArgs = clash := by
  unfold pathClash
  cases writeArgs.listingPath with
  | none => rfl
  | some path => cases clash <;> rfl

/-- Paths that are not proven distinct end the command before it writes. -/
theorem nazmWriteOutputs_clash {clash : IoPathIdentity} (clashes : clash ≠ .different)
    (writeArgs : WriteArgs (List UInt8)) (files : File → Option (List UInt8)) (src : SourceBuffer) :
    (nazmWriteOutputs (comparedSurroundings host clash) writeArgs files src).1.exitCode = 2 ∧
      (nazmWriteOutputs (comparedSurroundings host clash) writeArgs files src).2 = files := by
  have isClash := pathClash_const clash writeArgs
  unfold nazmWriteOutputs comparedSurroundings
  dsimp only
  rw [isClash]
  cases clash with
  | different => contradiction
  | unknown => exact ⟨rfl, rfl⟩
  | same => exact ⟨rfl, rfl⟩

section Object

variable {object path : List UInt8}

/-- An object that could not be written ends the command. -/
theorem nazmWriteOutputs_objectFails
    (isObject : outputWrite writeArgs.format (sourceOutput src) = .ok object)
    (fails : (host.pattern (host.locate writeArgs.outPath)).succeeds 1 = false) :
    nazmWriteOutputs (comparedSurroundings host .different) writeArgs files src =
      (.objectNotWritten,
        (filesWithObject (comparedSurroundings host .different) writeArgs files object).1) := by
  have ended := @filesWithObject_succeeds _ _ _ (comparedSurroundings host .different) writeArgs
    files object
  rw [nazmWriteOutputs_eq (pathClash_const .different writeArgs) isObject]
  split
  · next wrote => rw [wrote]
  · next wrote =>
      rw [wrote] at ended
      exact absurd (fails.symm.trans ended.symm) Bool.false_ne_true

/-- The object was written, and there is no listing to write. -/
theorem nazmWriteOutputs_object
    (isObject : outputWrite writeArgs.format (sourceOutput src) = .ok object)
    (succeeds : (host.pattern (host.locate writeArgs.outPath)).succeeds 1 = true)
    (listed : writeArgs.listingPath = none) :
    nazmWriteOutputs (comparedSurroundings host .different) writeArgs files src =
      (.written,
        (filesWithObject (comparedSurroundings host .different) writeArgs files object).1) := by
  have ended := @filesWithObject_succeeds _ _ _ (comparedSurroundings host .different) writeArgs
    files object
  rw [nazmWriteOutputs_eq (pathClash_const .different writeArgs) isObject, listed]
  split
  · next wrote =>
      rw [wrote] at ended
      exact absurd (ended.trans succeeds) Bool.false_ne_true
  · next wrote => rw [wrote]

/-- The object was written, and then the listing. -/
theorem nazmWriteOutputs_listing
    (isObject : outputWrite writeArgs.format (sourceOutput src) = .ok object)
    (succeeds : (host.pattern (host.locate writeArgs.outPath)).succeeds 1 = true)
    (listed : writeArgs.listingPath = some path) :
    let wrote := filesWithListing (comparedSurroundings host .different) writeArgs files object
      path src
    nazmWriteOutputs (comparedSurroundings host .different) writeArgs files src =
      (if wrote.2 then .written else .listingNotWritten, wrote.1) := by
  have ended := @filesWithObject_succeeds _ _ _ (comparedSurroundings host .different) writeArgs
    files object
  rw [nazmWriteOutputs_eq (pathClash_const .different writeArgs) isObject, listed]
  unfold filesWithListing
  split
  · next wrote =>
      rw [wrote] at ended
      exact absurd (ended.trans succeeds) Bool.false_ne_true
  · next wrote =>
      rw [wrote]
      dsimp only
      split
      · next isListing => rw [isListing]; rfl
      · next isListing => rw [isListing]; rfl

theorem filesWithListing_kept {file : File} (apart : file ≠ host.locate path) :
    (filesWithListing (comparedSurroundings host .different) writeArgs files object path src).1
        file =
      (filesWithObject (comparedSurroundings host .different) writeArgs files object).1 file := by
  unfold filesWithListing listingWriteFile
  exact createFile_other _ apart _

/-- A listing that was written is whole. -/
theorem filesWithListing_whole (accepted : Accepted src)
    (succeeds : (host.pattern (host.locate path)).succeeds (listingPieces src).length = true) :
    (filesWithListing (comparedSurroundings host .different) writeArgs files object path src).1
      (host.locate path) = some (wholeListing src) := by
  rw [← flatten_listingPieces]
  unfold filesWithListing listingWriteFile
  apply createFile_whole _ _ _ succeeds
  exact listingBody (host.pattern (host.locate path)) accepted

/-- Only the object and the listing change. -/
theorem nazmWriteOutputs_other {clash : IoPathIdentity} {file : File}
    (apartObject : file ≠ host.locate writeArgs.outPath)
    (apartListing : ∀ path, writeArgs.listingPath = some path → file ≠ host.locate path) :
    (nazmWriteOutputs (comparedSurroundings host clash) writeArgs files src).2 file =
      files file := by
  by_cases differ : clash = .different
  · subst differ
    cases isObject : outputWrite writeArgs.format (sourceOutput src) with
    | error message =>
        unfold nazmWriteOutputs comparedSurroundings
        dsimp only
        rw [pathClash_const, isObject]
    | ok object =>
        cases wrote : (host.pattern (host.locate writeArgs.outPath)).succeeds 1 with
        | false =>
            rw [nazmWriteOutputs_objectFails isObject wrote]
            exact filesWithObject_other apartObject
        | true =>
            cases listed : writeArgs.listingPath with
            | none =>
                rw [nazmWriteOutputs_object isObject wrote listed]
                exact filesWithObject_other apartObject
            | some path =>
                rw [nazmWriteOutputs_listing isObject wrote listed]
                exact (filesWithListing_kept (apartListing path listed)).trans
                  (filesWithObject_other apartObject)
  · exact congrFun (nazmWriteOutputs_clash differ writeArgs files src).2 file

theorem objectWritten_of_compared (accepted : Accepted src)
    (isObject : outputWrite writeArgs.format (sourceOutput src) = .ok object)
    (ends : (run.ending, run.files) =
      let ended := nazmWriteOutputs (comparedSurroundings host .different) writeArgs files src
      (.outputs ended.1, ended.2)) :
    ObjectWritten host writeArgs src object run := by
  obtain ⟨ending, isFiles⟩ := Prod.mk.inj ends
  have listingSucceeds := fun path => @filesWithListing_succeeds _ _ _
    (comparedSurroundings host .different) writeArgs files src object accepted path
  have wholeObject := @object_of_succeeds _ _ _ (comparedSurroundings host .different) writeArgs
    files object
  rw [filesWithObject_succeeds] at wholeObject
  refine ⟨?_, ?_, ?_, ?_, ?_⟩
  · intro fails
    rw [ending, nazmWriteOutputs_objectFails isObject fails]
  · intro succeeds path listed fails
    have lost : (filesWithListing (comparedSurroundings host .different) writeArgs files object
        path src).2 = false := (listingSucceeds path).trans fails
    rw [ending, nazmWriteOutputs_listing isObject succeeds listed, lost]
    rfl
  · intro succeeds all
    cases listed : writeArgs.listingPath with
    | none => rw [ending, nazmWriteOutputs_object isObject succeeds listed]
    | some path =>
        have wrote : (filesWithListing (comparedSurroundings host .different) writeArgs files object
            path src).2 = true := (listingSucceeds path).trans (all path listed)
        rw [ending, nazmWriteOutputs_listing isObject succeeds listed, wrote]
        rfl
  · intro succeeds apart
    cases listed : writeArgs.listingPath with
    | none =>
        rw [isFiles, nazmWriteOutputs_object isObject succeeds listed]
        exact wholeObject succeeds
    | some path =>
        rw [isFiles, nazmWriteOutputs_listing isObject succeeds listed]
        exact (filesWithListing_kept (apart path listed).symm).trans (wholeObject succeeds)
  · intro written path listed
    cases succeeds : (host.pattern (host.locate writeArgs.outPath)).succeeds 1 with
    | false =>
        rw [ending, nazmWriteOutputs_objectFails isObject succeeds] at written
        have impossible : CommandEnd.objectNotWritten = .written := MainEnd.outputs.inj written
        contradiction
    | true =>
        have wrote := listingSucceeds path
        rw [ending, nazmWriteOutputs_listing isObject succeeds listed, wrote] at written
        rw [isFiles, nazmWriteOutputs_listing isObject succeeds listed]
        cases complete : (host.pattern (host.locate path)).succeeds (listingPieces src).length with
        | false =>
            have lost : ((comparedSurroundings host .different).pattern
                ((comparedSurroundings host .different).locate path)).succeeds
                (listingPieces src).length = false := complete
            rw [lost] at written
            have impossible : CommandEnd.listingNotWritten = .written :=
              MainEnd.outputs.inj written
            contradiction
        | true =>
            exact filesWithListing_whole accepted complete

end Object

end Written

/-- What `sourceEnd` says, in terms of the library's call. -/
structure SourceEnded (host : CommandHost File) (args : CliArgs)
    (files : File → Option (List UInt8)) (data : List UInt8) (clash : IoPathIdentity) (run : MainRun File) : Prop where
  rejected : (libraryCall args data).status = .sourceError →
    ∃ dropped : Bool, run.files = files ∧ run.ending = .sourceErrors
      (printDiagnostics (libraryCall args data).diagnostics data ++
        if dropped then printFatalLine else [])
  clashes : (libraryCall args data).status ≠ .sourceError → clash ≠ .different →
    run.ending.exitCode = 2 ∧ run.files = files
  internal : (libraryCall args data).status = .internalError → clash = .different →
    run.ending = .outputs .outputError ∧ run.files = files
  assembled : clash = .different → ∀ object, (libraryCall args data).objectData = some object →
    ObjectWritten host args.writeArgs (args.sourceBuffer data) object run
  frame : ∀ file, file ≠ host.locate args.writeArgs.outPath →
    (∀ path, args.listingPath = some path → file ≠ host.locate path) →
      run.files file = files file

theorem sourceEnded_of_rejected {data : List UInt8} {block : Nat} {clash : IoPathIdentity}
    (known : args.format = .elf64 ∨ args.format = .coff)
    (reported : errorHasAny (sourceErrors (args.sourceBuffer data)) = true)
    (ends : (run.ending, run.files) =
      sourceEnd host ⟨files, args, args.sourceBuffer data, block⟩ clash) :
    SourceEnded host args files data clash run := by
  have called : libraryCall args data =
      Api.nazmSourceError (sourceErrors (args.sourceBuffer data)) := by
    rw [libraryCall_eq known, if_pos reported]
  have isRejected : (libraryCall args data).status = .sourceError := by
    rw [called]
    rfl
  rw [sourceEnd, if_pos reported] at ends
  obtain ⟨ending, unchanged⟩ := Prod.mk.inj ends
  refine ⟨?_, ?_, ?_, ?_, ?_⟩
  · intro _
    refine ⟨(sourceErrors (args.sourceBuffer data)).fatal, unchanged, ?_⟩
    rw [ending, errorPrintAllTo_eq, called]
    rfl
  · intro accepted
    exact absurd isRejected accepted
  · intro internal
    have impossible := isRejected.symm.trans internal
    contradiction
  · intro _ object isObject
    rw [called] at isObject
    contradiction
  · intro file _ _
    exact congrFun unchanged file

theorem sourceEnded_of_accepted {data : List UInt8} {block : Nat} {clash : IoPathIdentity}
    (known : args.format = .elf64 ∨ args.format = .coff)
    (clean : errorHasAny (sourceErrors (args.sourceBuffer data)) = false)
    (ends : (run.ending, run.files) =
      sourceEnd host ⟨files, args, args.sourceBuffer data, block⟩ clash) :
    SourceEnded host args files data clash run := by
  have accepted : Accepted (args.sourceBuffer data) := accepted_iff_sourceErrors.mpr clean
  have called := libraryCall_eq known data
  rw [clean, if_neg Bool.false_ne_true] at called
  have ended : (run.ending, run.files) =
      let ended := nazmWriteOutputs (comparedSurroundings host clash) args.writeArgs files
        (args.sourceBuffer data)
      (.outputs ended.1, ended.2) := by
    rw [sourceEnd] at ends
    dsimp only at ends
    rw [clean, if_neg Bool.false_ne_true] at ends
    exact ends
  obtain ⟨ending, isFiles⟩ := Prod.mk.inj ended
  refine ⟨fun isRejected => absurd isRejected (libraryCall_accepts known clean), ?_, ?_, ?_, ?_⟩
  · intro _ differs
    rw [ending, isFiles]
    exact nazmWriteOutputs_clash differs args.writeArgs files (args.sourceBuffer data)
  · intro internal same
    subst same
    cases isObject : outputWrite args.format (sourceOutput (args.sourceBuffer data)) with
    | ok object =>
        rw [called, isObject] at internal
        contradiction
    | error message =>
        have stops : nazmWriteOutputs (comparedSurroundings host .different) args.writeArgs files
            (args.sourceBuffer data) = (.outputError, files) := by
          have noClash := pathClash_const .different args.writeArgs
          have failed : outputWrite args.writeArgs.format
            (sourceOutput (args.sourceBuffer data)) = .error message := isObject
          unfold nazmWriteOutputs comparedSurroundings
          dsimp only
          rw [noClash, failed]
        rw [ending, isFiles, stops]
        exact ⟨rfl, rfl⟩
  · intro same object isObject
    subst same
    cases made : outputWrite args.format (sourceOutput (args.sourceBuffer data)) with
    | ok whole =>
        rw [called, made] at isObject
        obtain rfl := Option.some.inj isObject
        exact objectWritten_of_compared accepted made ended
    | error message =>
        rw [called, made] at isObject
        contradiction
  · intro file apartObject apartListing
    rw [isFiles]
    exact nazmWriteOutputs_other apartObject apartListing

theorem commandRun_of_ended (known : args.format = .elf64 ∨ args.format = .coff)
    (ended : MainEnded host args files run) : CommandRun host args files run := by
  cases ended with
  | outOfMemory streams ending unchanged failed =>
      have noMemory : run.resources.heap.failed ≠ false := by
        rw [failed]
        decide
      refine ⟨fun _ => ⟨by rw [ending]; rfl, unchanged⟩, ?_, ?_, ?_, ?_, ?_, ?_, ?_, streams⟩
      · exact fun granted => absurd granted noMemory
      · exact fun granted => absurd granted noMemory
      · exact fun granted => absurd granted noMemory
      · exact fun granted => absurd granted noMemory
      · exact fun granted => absurd granted noMemory
      · exact fun file _ _ => congrFun unchanged file
      · exact fun returned => absurd ending returned
  | notRead failure ok streams step isAnswer refused ending unchanged =>
      have failed : run.resources.heap.failed = !ok := step.failed
      have notData : run.resources.heap.failed = false → ∀ data,
          sourceAnswer host args ≠ .ok data := by
        intro granted data isData
        rw [failed, Bool.not_eq_false'] at granted
        rw [isAnswer granted] at isData
        contradiction
      refine ⟨?_, ?_, ?_, ?_, ?_, ?_, ?_, ?_, streams⟩
      · intro lost
        rw [failed, Bool.not_eq_true'] at lost
        rw [ending, refused lost]
        exact ⟨rfl, unchanged⟩
      · intro granted other isOther
        rw [failed, Bool.not_eq_false'] at granted
        rw [isAnswer granted] at isOther
        obtain rfl := Except.error.inj isOther
        exact ⟨ending, unchanged⟩
      · exact fun granted data isData => absurd isData (notData granted data)
      · exact fun granted data isData => absurd isData (notData granted data)
      · exact fun granted data isData => absurd isData (notData granted data)
      · exact fun granted data isData => absurd isData (notData granted data)
      · exact fun file _ _ => congrFun unchanged file
      · exact fun _ => step.owns Heap.owns_empty
  | read data block clash ok streams step isAnswer compared accepted ends =>
      have failed : run.resources.heap.failed = !ok := step.failed
      have isData : ∀ other, sourceAnswer host args = .ok other → other = data := by
        intro other isOther
        exact Except.ok.inj (isOther.symm.trans isAnswer)
      have expected : run.resources.heap.failed = false →
          clash = expectedClash host args.writeArgs := by
        intro granted
        rw [failed, Bool.not_eq_false'] at granted
        exact compared.granted granted
      have ended : SourceEnded host args files data clash run := by
        cases reported : errorHasAny (sourceErrors (args.sourceBuffer data)) with
        | true => exact sourceEnded_of_rejected known reported ends
        | false => exact sourceEnded_of_accepted known reported ends
      refine ⟨?_, ?_, ?_, ?_, ?_, ?_, ended.frame, fun _ => step.owns Heap.owns_empty, streams⟩
      · intro lost
        rw [failed, Bool.not_eq_true'] at lost
        exact ended.clashes (libraryCall_accepts known (accepted lost)) (compared.cautious lost)
      · intro _ failure unread
        rw [isAnswer] at unread
        contradiction
      · rintro _ other isOther
        obtain rfl := isData other isOther
        exact ended.rejected
      · rintro granted other isOther isAccepted differs
        obtain rfl := isData other isOther
        rw [← expected granted] at differs
        exact ended.clashes isAccepted differs
      · rintro granted other isOther internal same
        obtain rfl := isData other isOther
        rw [← expected granted] at same
        exact ended.internal internal same
      · rintro granted other isOther same
        obtain rfl := isData other isOther
        rw [← expected granted] at same
        exact ended.assembled same

/-- A command to assemble does what the library does with the source that it read: it
prints the library's diagnostics, and it writes the library's object, whole where its file
could be written, with the listing, and no other file; memory that runs out at any point
ends it before it writes. -/
theorem command_agrees_with_library (host : CommandHost File) (program : List UInt8)
    (files : File → Option (List UInt8)) {defaultFormat : NazmOutputFormat}
    {words : List (List UInt8)} (line : CommandLine defaultFormat words args)
    (clean : ∀ word ∈ words, 0 ∉ word)
    (known : defaultFormat = .elf64 ∨ defaultFormat = .coff) :
    CommandRun host args files (nazmMain host defaultFormat (program :: words) files) := by
  obtain ⟨parsed, runs⟩ := commandLine_parsed program line
  have cleanArgs := cleanArgs_of_line line clean known
  have ended := @nazmMain_ended File _ host args files _ _ parsed runs
    (cleanPaths_of_args cleanArgs)
  exact commandRun_of_ended cleanArgs.format ended

end Main

/-! ## One source in a directory -/

/-- A file that holds these bytes and can be read. -/
def readableFile (content : List UInt8) : ReadAnswers :=
  ⟨.ok (), true, some content.length, true, fun size => content.take size,
    fun size => List.length_take_le size content⟩

/-- A file that cannot be opened. -/
def missingFile : ReadAnswers :=
  ⟨.error (.other 2), false, none, false, fun _ => [], fun _ => Nat.zero_le _⟩

/-- The path of the source. -/
def oneSource : List UInt8 := utf8 "ب.نظم"

/-- A host whose only file is one source, which has two names; nothing fails there. -/
def oneSourceHost : CommandHost Nat where
  toIoHost := { directoryHost with
    stat := fun path => if path = oneSource ∨ path = utf8 "./ب.نظم" then some 0 else none }
  locate path :=
    if path = oneSource ∨ path = utf8 "./ب.نظم" then 0 else if path = utf8 "ب.o" then 1
    else if path = [] then 2 else 3
  answers path := if path = oneSource then readableFile oneReturn.data else missingFile
  pattern _ := ⟨true, fun _ => ⟨true, 0, 0⟩, ⟨true, 0⟩⟩
  stages := ⟨.done, .done, .done, .done, .done⟩

def oneSourceFiles (file : Nat) : Option (List UInt8) :=
  if file = 0 then some oneReturn.data else none

/-- The arguments of a command line that only names a source. -/
def oneSourceArgs : CliArgs := CliOption.apply (.start .elf64) (.source oneSource)

theorem oneSource_line : CommandLine .elf64 [oneSource] oneSourceArgs :=
  ⟨[.source oneSource], oneSource, .cons (.source (by decide)) .nil, rfl, ⟨utf8 "ب", by decide⟩,
    rfl⟩

/-- The command writes the library's object beside the source. -/
theorem command_agrees_with_library_oneSource :
    ∃ object, (libraryCall oneSourceArgs oneReturn.data).objectData = some object ∧
      (nazmMain oneSourceHost .elf64 [utf8 "نظم", oneSource] oneSourceFiles).ending =
        .outputs .written ∧
      (nazmMain oneSourceHost .elf64 [utf8 "نظم", oneSource] oneSourceFiles).files 1 =
        some object := by
  have run := command_agrees_with_library oneSourceHost (utf8 "نظم") oneSourceFiles oneSource_line
    (by decide) (.inl rfl)
  have granted : (nazmMain oneSourceHost .elf64 [utf8 "نظم", oneSource]
      oneSourceFiles).resources.heap.failed = false := by
    decide +kernel
  have differ : expectedClash oneSourceHost oneSourceArgs.writeArgs = .different := by
    decide +kernel
  have read : sourceAnswer oneSourceHost oneSourceArgs = .ok oneReturn.data := by
    decide +kernel
  obtain ⟨object, isObject⟩ : ∃ object,
      (libraryCall oneSourceArgs oneReturn.data).objectData = some object := by
    apply Option.isSome_iff_exists.mp
    decide +kernel
  have wrote := run.assembled granted _ read differ object isObject
  have noListing : ∀ path, oneSourceArgs.writeArgs.listingPath ≠ some path :=
    fun path listed => Option.some_ne_none path listed.symm
  have beside : oneSourceHost.locate oneSourceArgs.writeArgs.outPath = 1 := by
    decide +kernel
  have whole := wrote.object rfl fun path listed => absurd listed (noListing path)
  rw [beside] at whole
  exact ⟨object, isObject, wrote.written rfl fun path listed => absurd listed (noListing path),
    whole⟩

end Nazm.Cli
