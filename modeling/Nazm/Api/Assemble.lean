import Nazm.Output.CoffWritten

/-!
The programming interface.

Owns `nazm_assemble_buffer` and `nazm_assemble_caught` of `src/api/api.c`, as
they run when no allocation fails, with `output_write` of `src/output/output.c`;
and the outcomes that a call can have.

Does not own the stages that a call runs through.
-/

namespace Nazm.Api

open Nazm.Diagnostics Nazm.Encoder Nazm.Lexer Nazm.Output Nazm.Passes Nazm.Symtable Nazm.Unicode

/-! ## Options and results -/

/-- `NazmOutputFormat`, and the other numbers that a caller can pass for it. -/
inductive NazmOutputFormat where
  | elf64
  | coff
  | other (number : Nat)
deriving DecidableEq, Repr

/-- `NazmOptions`. -/
structure NazmOptions where
  structSize : UInt32
  format : NazmOutputFormat
  flags : UInt32
  reserved : Vector UInt32 4
deriving DecidableEq

/-- `sizeof(NazmOptions)`. -/
def nazmOptionsSize : UInt32 := 28

/-- `nazm_options_valid`. -/
def nazmOptionsValid (options : NazmOptions) : Bool :=
  if options.structSize ≠ nazmOptionsSize ∨ options.flags ≠ 0 then false
  else if options.format ≠ .elf64 ∧ options.format ≠ .coff then false
  else options.reserved.toList.all fun word => word == 0

/-- `NazmStatus`. -/
inductive NazmStatus where
  | ok | sourceError | invalidArgument | ioError | outOfMemory | internalError
deriving DecidableEq, Repr

/-- `NazmDiagnostic`. -/
structure NazmDiagnostic where
  file : List UInt8
  line : Nat
  col : Nat
  endCol : Nat
  message : List UInt8
deriving DecidableEq

/-- `NazmResult`; `none` is the null pointer, and the sizes are the lengths. -/
structure NazmResult where
  status : NazmStatus
  objectData : Option (List UInt8)
  diagnostics : List NazmDiagnostic
deriving DecidableEq

/-- `nazm_empty_result`. -/
def nazmEmptyResult (status : NazmStatus) : NazmResult := ⟨status, none, []⟩

/-- `nazm_diagnostic_result`. -/
def nazmDiagnosticResult (status : NazmStatus) (file message : List UInt8) : NazmResult :=
  { nazmEmptyResult status with diagnostics := [⟨cString file, 0, 0, 0, cString message⟩] }

/-- `nazm_copy_diagnostics`. -/
def nazmCopyDiagnostics (errors : ErrorList) : List NazmDiagnostic :=
  errors.errors.map fun source =>
    ⟨cString source.file, source.line, source.col, source.endCol, cString source.message⟩

/-- `nazm_source_error`. -/
def nazmSourceError (errors : ErrorList) : NazmResult :=
  { nazmEmptyResult .sourceError with diagnostics := nazmCopyDiagnostics errors }

/-! ## Calls -/

/-- `output_write`, for the two formats that `nazm_assemble_caught` passes to it. -/
def outputWrite (format : NazmOutputFormat) (input : OutputInput) :
    Except (List UInt8) (List UInt8) :=
  if format = .coff then outputWriteCoff input else outputWriteElf64 input

/-- `nazm_assemble_caught`. -/
def nazmAssembleCaught (src : SourceBuffer) (logicalName : List UInt8) (options : NazmOptions) :
    NazmResult :=
  if errorHasAny (lexerLex src).errors then nazmSourceError (lexerLex src).errors
  else if errorHasAny (sourceParse src).errors then nazmSourceError (sourceParse src).errors
  else if errorHasAny (sourcePass1 src).errors then nazmSourceError (sourcePass1 src).errors
  else if errorHasAny (sourcePass2 src).errors then nazmSourceError (sourcePass2 src).errors
  else
    match outputWrite options.format (sourceOutput src) with
    | .error message => nazmDiagnosticResult .internalError logicalName message
    | .ok file => { nazmEmptyResult .ok with objectData := some file }

/-- The `logical_name` of a call. -/
def logicalName (sourceName : Option (List UInt8)) : List UInt8 :=
  sourceName.getD (utf8 "<ذاكرة>")

/-- The source that a call assembles. -/
def callSource (source : Option (List UInt8)) (sourceLen : Nat)
    (sourceName : Option (List UInt8)) : SourceBuffer :=
  ⟨(source.getD []).take sourceLen, some (logicalName sourceName)⟩

/-- `nazm_assemble_buffer`. -/
def nazmAssembleBuffer (source : Option (List UInt8)) (sourceLen : Nat)
    (sourceName : Option (List UInt8)) (options : NazmOptions) : NazmResult :=
  if (source = none ∧ sourceLen ≠ 0) ∨ nazmOptionsValid options = false then
    nazmDiagnosticResult .invalidArgument (logicalName sourceName)
      (utf8 "خيارات واجهة نظم أو مخزن المصدر غير صالح.")
  else
    nazmAssembleCaught (callSource source sourceLen sourceName) (logicalName sourceName) options

/-! ## Outcomes -/

namespace NazmResult

/-- An object that is not empty, and no diagnostics. -/
structure IsObject (result : NazmResult) : Prop where
  status : result.status = .ok
  object : ∃ object, result.objectData = some object ∧ object ≠ []
  silent : result.diagnostics = []

/-- Diagnostics, and no object. -/
structure IsSourceError (result : NazmResult) : Prop where
  status : result.status = .sourceError
  reported : result.diagnostics ≠ []
  none_ : result.objectData = none

end NazmResult

/-- A section with more relocations than a COFF header counts. -/
def TooManyRelocations (src : SourceBuffer) : Prop :=
  ∃ section_, 65535 < countRelocationsInSection (sourcePass2 src).relocations section_

/-- The checks of both writers on what the passes hand over. -/
structure WriterChecksPass (src : SourceBuffer) : Prop where
  relocations : ∀ symbols, outputSymbolsCollect (sourceOutput src).symtable = some symbols →
    relocationsHaveSymbols (sourceOutput src).relocations symbols = true
  debugRows : (sourceOutput src).hasDebug = true →
    debugContractIsValid (sourceOutput src).debugFiles (sourceOutput src).debugLines
      (sourceOutput src).textBytes.length = true

/-- The outcomes of assembling a source into a format. -/
structure HasTwoOutcomes (src : SourceBuffer) (format : NazmOutputFormat) (result : NazmResult) :
    Prop where
  outcome : result.IsObject ∨ result.IsSourceError ∨
    result.status = .internalError ∧ format = .coff ∧ TooManyRelocations src
  elf : format = .elf64 → result.status ≠ .internalError
  checks : Accepted src → WriterChecksPass src

section Sources

variable {src : SourceBuffer}

theorem isSourceError_of_errors {errors : ErrorList} (some_ : errorHasAny errors = true) :
    (nazmSourceError errors).IsSourceError := by
  refine ⟨rfl, fun none => ?_, rfl⟩
  have empty : errors.errors = [] := List.map_eq_nil_iff.mp none
  rw [errorHasAny, empty] at some_
  contradiction

theorem writerChecksPass_of_source (accepted : Accepted src) : WriterChecksPass src where
  relocations symbols collected := by
    rw [outputSymbolsCollect_eq_some collected]
    exact relocationsHaveSymbols_of_source accepted _
  debugRows debug := debugContract_of_source accepted debug

theorem elf_file_ne_nil (contents : ElfContents) : contents.file ≠ [] := by
  intro empty
  rw [ElfContents.file, ElfContents.outbufPatch] at empty
  have patched := (List.append_eq_nil_iff.mp (List.append_eq_nil_iff.mp empty).1).2
  have length := congrArg List.length patched
  rw [w64, LittleEndian.length_bytes] at length
  contradiction

theorem coff_file_ne_nil (contents : CoffContents) : contents.file ≠ [] := by
  intro empty
  have header := List.flatMap_eq_nil_iff.mp empty .fileHeader (by decide)
  have length := congrArg List.length header
  simp only [CoffContents.part, CoffContents.fileHeader, List.length_append, w16,
    LittleEndian.length_bytes, List.length_nil] at length
  omega

/-- A source that a stage rejects gives its diagnostics. -/
theorem caught_of_rejected (rejected : ¬ Accepted src) (name : List UInt8)
    (options : NazmOptions) : (nazmAssembleCaught src name options).IsSourceError := by
  rw [nazmAssembleCaught]
  split
  · next errors => exact isSourceError_of_errors errors
  · next lexed =>
      split
      · next errors => exact isSourceError_of_errors errors
      · next parsed =>
          split
          · next errors => exact isSourceError_of_errors errors
          · next sized =>
              split
              · next errors => exact isSourceError_of_errors errors
              · next encoded =>
                  exact absurd ⟨Bool.eq_false_of_not_eq_true lexed,
                    Bool.eq_false_of_not_eq_true parsed, Bool.eq_false_of_not_eq_true sized,
                    Bool.eq_false_of_not_eq_true encoded⟩ rejected

/-- An accepted source goes to the writer. -/
theorem caught_of_accepted (accepted : Accepted src) (name : List UInt8) (options : NazmOptions) :
    nazmAssembleCaught src name options =
      match outputWrite options.format (sourceOutput src) with
      | .error message => nazmDiagnosticResult .internalError name message
      | .ok file => { nazmEmptyResult .ok with objectData := some file } := by
  rw [nazmAssembleCaught, accepted.lexed, accepted.parsed, accepted.sized, accepted.encoded]
  rfl

theorem isObject_of_file {file : List UInt8} (some_ : file ≠ []) :
    ({ nazmEmptyResult .ok with objectData := some file } : NazmResult).IsObject :=
  ⟨rfl, ⟨file, rfl, some_⟩, rfl⟩

/-- Assembling a source within the size limit. -/
theorem caught_outcomes (limit : src.data.length ≤ nazmApiMaxSourceSize)
    (named : ∀ name, src.name = some name → name.length < 2 ^ 31) (name : List UInt8)
    (options : NazmOptions) :
    HasTwoOutcomes src options.format (nazmAssembleCaught src name options) := by
  by_cases accepted : Accepted src
  · rw [caught_of_accepted accepted]
    by_cases coff : options.format = .coff
    · rw [outputWrite, if_pos coff, outputWriteCoff]
      refine ⟨?_, fun elf => absurd (coff.symm.trans elf) (by decide),
        writerChecksPass_of_source⟩
      cases written : coffContents (sourceOutput src) with
      | ok contents => exact .inl (isObject_of_file (coff_file_ne_nil contents))
      | error message =>
          refine .inr (.inr ⟨rfl, coff, ?_⟩)
          by_contra few
          obtain ⟨contents, ok⟩ := (coff_of_source accepted limit named).mpr fun section_ =>
            Nat.le_of_not_lt fun many => few ⟨section_, many⟩
          rw [written] at ok
          contradiction
    · rw [outputWrite, if_neg coff]
      obtain ⟨file, written⟩ := elf_of_source accepted limit
      obtain ⟨contents, -, isFile⟩ := contents_of_written written
      rw [written]
      have object := isObject_of_file (isFile ▸ elf_file_ne_nil contents)
      refine ⟨.inl object, fun _ => ?_, writerChecksPass_of_source⟩
      rw [object.status]
      decide
  · have rejected := caught_of_rejected accepted name options
    refine ⟨.inr (.inl rejected), fun _ => ?_, fun other => absurd other accepted⟩
    rw [rejected.status]
    decide

end Sources

/-- A call with at most 100 MiB, a name shorter than 2^31 bytes and valid options
returns an object or diagnostics; COFF alone has an internal error, for more
relocations in a section than it counts. -/
theorem assemble_has_two_outcomes (source sourceName : Option (List UInt8))
    (limit : (source.getD []).length ≤ nazmApiMaxSourceSize)
    (short : ∀ name, sourceName = some name → name.length < 2 ^ 31)
    (options : NazmOptions) (valid : nazmOptionsValid options = true) :
    HasTwoOutcomes (callSource source (source.getD []).length sourceName) options.format
      (nazmAssembleBuffer source (source.getD []).length sourceName options) := by
  have isBuffer : ¬ ((source = none ∧ (source.getD []).length ≠ 0) ∨
      nazmOptionsValid options = false) := by
    rintro (⟨none, some_⟩ | invalid)
    · rw [none] at some_
      exact some_ rfl
    · rw [valid] at invalid
      contradiction
  rw [nazmAssembleBuffer, if_neg isBuffer]
  refine caught_outcomes ?_ (fun name isName => ?_) _ _
  · rw [callSource, List.take_length]
    exact limit
  · obtain rfl := Option.some.inj isName
    rw [logicalName]
    cases given : sourceName with
    | none => exact (by decide : (utf8 "<ذاكرة>").length < 2 ^ 31)
    | some name => exact short name given

/-- The options of a call for a COFF object. -/
def coffOptions : NazmOptions := ⟨nazmOptionsSize, .coff, 0, ⟨#[0, 0, 0, 0], rfl⟩⟩

theorem assemble_has_two_outcomes_markedCall :
    HasTwoOutcomes (callSource (some markedCall.data)
        ((some markedCall.data).getD []).length (some (utf8 "ب"))) coffOptions.format
      (nazmAssembleBuffer (some markedCall.data) ((some markedCall.data).getD []).length
        (some (utf8 "ب")) coffOptions) :=
  assemble_has_two_outcomes (some markedCall.data) (some (utf8 "ب")) (by decide +kernel)
    (fun name isName => by obtain rfl := Option.some.inj isName; decide) coffOptions (by decide)

end Nazm.Api
