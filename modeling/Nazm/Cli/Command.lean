import Nazm.Api.HeapOutcomes
import Nazm.Cli.Args
import Nazm.Cli.Outputs
import Nazm.Io.SourceFile
import Nazm.Passes.Printed

/-!
The command.

Owns `nazm_main_utf8` of `src/main.c` with `make_output_path`, from its arguments to its
exit code, over files whose operations and a heap whose requests may fail.

Does not own what is printed for a request for information, with the option for details or
about a file, nor what follows once every path was compared.
-/

namespace Nazm.Cli

open BufferedFile FailingHeap
open Nazm.Alloc Nazm.Api Nazm.Api.OnHeap Nazm.Diagnostics Nazm.Io Nazm.Lexer Nazm.Output
open Nazm.Passes Nazm.Unicode

/-! ## The path of the object -/

/-- `strrchr`. -/
def lastPlace (byte : UInt8) : List UInt8 → Option Nat
  | [] => none
  | head :: tail =>
      match lastPlace byte tail with
      | some place => some (place + 1)
      | none => if head = byte then some 0 else none

/-- The suffix of an object. -/
def objectSuffix (format : NazmOutputFormat) : List UInt8 :=
  if format = .coff then utf8 ".obj" else utf8 ".o"

/-- `separator` of `make_output_path`: the later of the two. -/
def lastSeparator (path : List UInt8) : Option Nat :=
  let slash := lastPlace 0x2F path
  match lastPlace 0x5C path with
  | none => slash
  | some backslash => if slash.all (· < backslash) then some backslash else slash

/-- `make_output_path`. -/
def makeOutputPath (sourcePath : List UInt8) (format : NazmOutputFormat) : List UInt8 :=
  match lastPlace 0x2E sourcePath with
  | none => sourcePath ++ objectSuffix format
  | some dot =>
      if 0 < dot ∧ (lastSeparator sourcePath).all (· < dot) = true then
        sourcePath.take dot ++ objectSuffix format
      else sourcePath ++ objectSuffix format

section OutputPath

variable {byte : UInt8} {stem extension : List UInt8}

theorem lastPlace_lt {text : List UInt8} {place : Nat} (found : lastPlace byte text = some place) :
    place < text.length := by
  induction text generalizing place with
  | nil => contradiction
  | cons head tail inductionHypothesis =>
      rw [lastPlace] at found
      split at found
      · next earlier isLast =>
          obtain rfl := Option.some.inj found
          exact Nat.succ_lt_succ (inductionHypothesis isLast)
      · split at found
        · obtain rfl := Option.some.inj found
          exact Nat.succ_pos _
        · contradiction

theorem lastPlace_append (absent : lastPlace byte extension = none) :
    lastPlace byte (stem ++ extension) = lastPlace byte stem := by
  induction stem with
  | nil => exact absent
  | cons head tail inductionHypothesis =>
      rw [List.cons_append, lastPlace, lastPlace, inductionHypothesis]

theorem lastPlace_append_cons (absent : lastPlace byte extension = none) :
    lastPlace byte (stem ++ byte :: extension) = some stem.length := by
  induction stem with
  | nil =>
      rw [List.nil_append, lastPlace, absent]
      exact if_pos rfl
  | cons head tail inductionHypothesis =>
      rw [List.cons_append, lastPlace, inductionHypothesis]
      rfl

/-- A separator before the extension. -/
theorem lastSeparator_all_lt (slash : lastPlace 0x2F extension = none)
    (backslash : lastPlace 0x5C extension = none) :
    (lastSeparator (stem ++ extension)).all (· < stem.length) = true := by
  have earlier : ∀ byte, (lastPlace byte stem).all (· < stem.length) = true := by
    intro byte
    cases found : lastPlace byte stem with
    | none => rfl
    | some place => exact decide_eq_true (lastPlace_lt found)
  unfold lastSeparator
  rw [lastPlace_append slash, lastPlace_append backslash]
  dsimp only
  split
  · exact earlier 0x2F
  · next found =>
      split
      · exact decide_eq_true (lastPlace_lt found)
      · exact earlier 0x2F

/-- The object of a source stands beside it, under its name with another extension; where
there is nothing before the extension, the extension stays. -/
theorem makeOutputPath_source (stem : List UInt8) (format : NazmOutputFormat) :
    makeOutputPath (stem ++ utf8 ".نظم") format =
      (if stem = [] then utf8 ".نظم" else stem) ++ objectSuffix format := by
  have dotted : utf8 ".نظم" = 0x2E :: utf8 "نظم" := by decide
  have dot : lastPlace 0x2E (stem ++ utf8 ".نظم") = some stem.length := by
    rw [dotted]
    apply lastPlace_append_cons
    decide
  have behind := @lastSeparator_all_lt stem (utf8 ".نظم") (by decide) (by decide)
  unfold makeOutputPath
  rw [dot]
  dsimp only
  cases stem with
  | nil => rw [if_neg (fun both => absurd both.1 (Nat.lt_irrefl 0)), if_pos rfl, List.nil_append]
  | cons head tail =>
      rw [if_pos ⟨Nat.succ_pos _, behind⟩, List.take_left, if_neg (List.cons_ne_nil head tail)]

/-- The path that is made has the bytes of the source's path and of the suffix. -/
theorem makeOutputPath_clean {sourcePath : List UInt8} (clean : 0 ∉ sourcePath)
    (format : NazmOutputFormat) : 0 ∉ makeOutputPath sourcePath format := by
  have suffix : 0 ∉ objectSuffix format := by
    unfold objectSuffix
    split <;> decide
  have appended : ∀ front : List UInt8, (∀ byte ∈ front, byte ∈ sourcePath) →
      0 ∉ front ++ objectSuffix format := by
    intro front inside member
    rcases List.mem_append.mp member with inFront | inSuffix
    · exact clean (inside 0 inFront)
    · exact suffix inSuffix
  unfold makeOutputPath
  split
  · exact appended sourcePath fun _ member => member
  · split
    · exact appended _ fun _ member => List.mem_of_mem_take member
    · exact appended sourcePath fun _ member => member

end OutputPath

/-- The name that a source is given. -/
def CliArgs.sourceName (args : CliArgs) : List UInt8 :=
  args.logicalSourceName.getD (args.sourcePath.getD [])

/-- The source that the command assembles. -/
def CliArgs.sourceBuffer (args : CliArgs) (data : List UInt8) : SourceBuffer :=
  ⟨data, some args.sourceName⟩

/-- The arguments that say where to write. -/
def CliArgs.writeArgs (args : CliArgs) : WriteArgs (List UInt8) :=
  let sourcePath := args.sourcePath.getD []
  ⟨sourcePath, args.outputPath.getD (makeOutputPath sourcePath args.format), args.listingPath,
    args.format⟩

/-! ## The command -/

/-- How the command ends. -/
inductive MainEnd where
  | help | version | apiInfo
  | badArguments (message : List UInt8)
  | outOfMemory
  | sourceNotRead (status : ReadFileStatus)
  | sourceErrors (printed : List UInt8)
  | outputs (ending : CommandEnd)
deriving DecidableEq

/-- The exit code. -/
def MainEnd.exitCode : MainEnd → Nat
  | .help | .version | .apiInfo => 0
  | .badArguments _ | .outOfMemory | .sourceNotRead _ => 2
  | .sourceErrors _ => 1
  | .outputs ending => ending.exitCode

/-- What the command runs on: the file that a path names, how each file answers when it is
read and when it is written, and the requests that the stages make of the arena. -/
structure CommandHost (File : Type) extends IoHost File where
  locate : List UInt8 → File
  answers : List UInt8 → ReadAnswers
  pattern : File → FilePattern
  stages : StageRequests

/-- A run of the command. -/
structure MainRun (File : Type) where
  ending : MainEnd
  files : File → Option (List UInt8)
  resources : Resources

section Main

variable {File : Type} [DecidableEq File]

/-- The heap of a host, as the arena sees it. -/
def CommandHost.heapPattern (host : CommandHost File) : HeapPattern := ⟨host.grants, host.garbage⟩

/-- The comparison of every pair of paths. -/
def comparePaths (host : CommandHost File) (args : WriteArgs (List UInt8)) (heap : Heap) :
    IoPathIdentity × Heap :=
  let (clash, heap) := ioPathIdentity host.toIoHost args.outPath args.sourcePath heap
  match args.listingPath with
  | none => (clash, heap)
  | some listingPath =>
      let (withSource, heap) := ioPathIdentity host.toIoHost listingPath args.sourcePath heap
      let (withObject, heap) := ioPathIdentity host.toIoHost listingPath args.outPath heap
      ((clash.worse withSource).worse withObject, heap)

/-- What the command has once the source was read: the file system, the arguments, the
source and its block. -/
structure MainContext (File : Type) where
  files : File → Option (List UInt8)
  args : CliArgs
  source : SourceBuffer
  block : Nat

/-- `cleanup_and_return`. -/
def cleanupAndReturn (arena : Arena) (block : Option Nat) (ending : MainEnd)
    (files : File → Option (List UInt8)) (resources : Resources) : MainRun File :=
  ⟨ending, files, { resources with heap := arenaFree arena (resources.heap.release block) }⟩

/-- What the stages ask of the arena, and what follows; without memory the process ends. -/
def withArena (host : CommandHost File) (context : MainContext File) (requests : ArenaRequests)
    (arena : Arena) (resources : Resources) (next : Arena → Resources → MainRun File) :
    MainRun File :=
  match runStage host.heapPattern requests arena resources.heap with
  | ((arena, true), heap) => next arena { resources with heap := heap }
  | ((_, false), heap) => ⟨.outOfMemory, context.files, { resources with heap := heap }⟩

/-- A stage, with `print_errors_if_any`, and what follows. -/
def mainStage (host : CommandHost File) (context : MainContext File) (requests : ArenaRequests)
    (errors : ErrorList) (arena : Arena) (resources : Resources)
    (next : Arena → Resources → MainRun File) : MainRun File :=
  withArena host context requests arena resources fun arena resources =>
    if errorHasAny errors then
      cleanupAndReturn arena (some context.block)
        (.sourceErrors (errorPrintAllTo errors context.source.data)) context.files resources
    else next arena resources

/-- The request of `make_output_path`. -/
def outputPathRequests (args : CliArgs) : ArenaRequests :=
  match args.outputPath with
  | some _ => .done
  | none =>
      let size := (args.sourcePath.getD []).length + (objectSuffix args.format).length + 1
      .request (UInt64.ofNat size) 1 fun _ => .done

/-- What follows the comparison of the paths, with its result. -/
def writeOutputs (host : CommandHost File) (context : MainContext File) (clash : IoPathIdentity)
    (arena : Arena) (resources : Resources) : MainRun File :=
  let ended := nazmWriteOutputs ⟨host.locate, fun _ _ => clash, host.pattern⟩
    context.args.writeArgs context.files context.source
  cleanupAndReturn arena (some context.block) (.outputs ended.1) ended.2 resources

/-- `nazm_main_utf8`, once the source was read. -/
def mainAssemble (host : CommandHost File) (context : MainContext File) (arena : Arena)
    (resources : Resources) : MainRun File :=
  mainStage host context host.stages.lexer (lexerLex context.source).errors arena resources
    fun arena resources =>
  mainStage host context host.stages.parser (sourceParse context.source).errors arena resources
    fun arena resources =>
  mainStage host context host.stages.pass1 (sourcePass1 context.source).errors arena resources
    fun arena resources =>
  mainStage host context host.stages.pass2 (sourcePass2 context.source).errors arena resources
    fun arena resources =>
  withArena host context (outputPathRequests context.args) arena resources
    fun arena resources =>
  let compared := comparePaths host context.args.writeArgs resources.heap
  let resources := { resources with heap := compared.2 }
  if compared.1 = .different then
    withArena host context host.stages.output arena resources (writeOutputs host context .different)
  else writeOutputs host context compared.1 arena resources

/-- `nazm_main_utf8`; the first argument is the name of the program. -/
def nazmMain (host : CommandHost File) (defaultFormat : NazmOutputFormat)
    (argv : List (List UInt8)) (files : File → Option (List UInt8)) : MainRun File :=
  let args := cliParse defaultFormat argv
  if args.help then ⟨.help, files, .start⟩
  else if args.version then ⟨.version, files, .start⟩
  else if args.apiInfo then ⟨.apiInfo, files, .start⟩
  else if args.valid = false then ⟨.badArguments (args.errorMsg.getD []), files, .start⟩
  else
    match arenaCreate (sysMalloc host.heapPattern) 0 .empty with
    | (none, heap) => ⟨.outOfMemory, files, { Resources.start with heap := heap }⟩
    | (some arena, heap) =>
        let sourcePath := args.sourcePath.getD []
        match readFile host.grants (host.answers sourcePath)
            { Resources.start with heap := heap } with
        | (.error status, resources) =>
            cleanupAndReturn arena none (.sourceNotRead status) files resources
        | (.ok source, resources) =>
            mainAssemble host ⟨files, args, args.sourceBuffer source.data, source.block⟩ arena
              resources

end Main

end Nazm.Cli
