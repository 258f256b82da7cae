import Nazm.Api.Assemble
import Nazm.Cli.ListingFaithful
import Nazm.Library.BufferedFile

/-!
The files that the command writes.

Owns `output_write_file` of `src/output/output.c`, `listing_write_file` and the
end of `nazm_main_utf8` of `src/main.c`, from the comparison of the paths on,
over files whose operations may fail; and exactly which failures leave a
truncated object or listing behind.

Does not own the operating system: which file a path names, when two paths are
found to name one file and which operation fails are parameters. The messages on
the error stream are left out.
-/

namespace Nazm.Cli

open BufferedFile OutputStream
open Nazm.Api Nazm.Lexer Nazm.Parser Nazm.Passes Nazm.Output Nazm.Unicode

/-! ## Writing a file -/

section Files

variable {File : Type} [DecidableEq File]

/-- `output_write_file`. -/
def outputWriteFile (pattern : File → FilePattern) (files : File → Option (List UInt8))
    (file : File) (result : Except (List UInt8) (List UInt8)) :
    (File → Option (List UInt8)) × Bool :=
  match result with
  | .error _ => (files, false)
  | .ok data =>
      createFile (pattern file) files file fun stream =>
        (fileOps (pattern file)).write stream data

/-- `listing_write_file`. -/
def listingWriteFile (pattern : File → FilePattern) (files : File → Option (List UInt8))
    (file : File) (instructions : InstructionList) (sourceData : List UInt8)
    (pass2 : Pass2Result) : (File → Option (List UInt8)) × Bool :=
  createFile (pattern file) files file fun stream =>
    listingWriteStream (fileOps (pattern file)) stream instructions sourceData pass2

end Files

/-! ## The command -/

/-- `IoPathIdentity`. -/
inductive IoPathIdentity where
  | different | unknown | same
deriving DecidableEq, Repr

/-- The values are ordered by how much they forbid. -/
def IoPathIdentity.worse (first second : IoPathIdentity) : IoPathIdentity :=
  match first, second with
  | .same, _ | _, .same => .same
  | .unknown, _ | _, .unknown => .unknown
  | .different, .different => .different

/-- How the command ends once pass 2 is done. -/
inductive CommandEnd where
  | samePaths | unknownPaths | outputError | objectNotWritten | listingNotWritten | written
deriving DecidableEq, Repr

/-- The exit code. -/
def CommandEnd.exitCode : CommandEnd → Nat
  | .written => 0
  | .outputError => 1
  | .samePaths | .unknownPaths | .objectNotWritten | .listingNotWritten => 2

/-- What the command meets outside: the file that a path names,
`io_path_identity`, and what happens to each file. -/
structure Surroundings (Path File : Type) where
  locate : Path → File
  identity : Path → Path → IoPathIdentity
  pattern : File → FilePattern

/-- The arguments of the command that say where to write. -/
structure WriteArgs (Path : Type) where
  sourcePath : Path
  outPath : Path
  listingPath : Option Path
  format : NazmOutputFormat

section Command

variable {Path File : Type} [DecidableEq File]

/-- `clash`: what the comparison of every pair of paths forbids. -/
def pathClash (identity : Path → Path → IoPathIdentity) (args : WriteArgs Path) : IoPathIdentity :=
  let clash := identity args.outPath args.sourcePath
  match args.listingPath with
  | none => clash
  | some listingPath =>
      (clash.worse (identity listingPath args.sourcePath)).worse
        (identity listingPath args.outPath)

/-- `nazm_main_utf8`, once pass 2 is done. -/
def nazmWriteOutputs (surroundings : Surroundings Path File) (args : WriteArgs Path)
    (files : File → Option (List UInt8)) (src : SourceBuffer) :
    CommandEnd × (File → Option (List UInt8)) :=
  match pathClash surroundings.identity args with
  | .same => (.samePaths, files)
  | .unknown => (.unknownPaths, files)
  | .different =>
      match outputWrite args.format (sourceOutput src) with
      | .error _ => (.outputError, files)
      | .ok data =>
          match outputWriteFile surroundings.pattern files (surroundings.locate args.outPath)
              (.ok data) with
          | (files, false) => (.objectNotWritten, files)
          | (files, true) =>
              match args.listingPath with
              | none => (.written, files)
              | some listingPath =>
                  match listingWriteFile surroundings.pattern files
                      (surroundings.locate listingPath) (sourceInstructions src) src.data
                      (sourcePass2 src) with
                  | (files, false) => (.listingNotWritten, files)
                  | (files, true) => (.written, files)

end Command

/-! ## Failures that truncate -/

/-- The whole listing of a source. -/
def wholeListing (src : SourceBuffer) : List UInt8 :=
  listingText (sourceInstructions src).sourceName
    (listingRows src.data (sourcePass2 src) (listedStatements src))

section Failures

variable {Path File : Type} [DecidableEq File]

theorem IoPathIdentity.worse_eq_different {first second : IoPathIdentity} :
    first.worse second = .different ↔ first = .different ∧ second = .different := by
  cases first <;> cases second <;> decide

theorem flatten_listingPieces (src : SourceBuffer) :
    (listingPieces src).flatten = wholeListing src := by
  rw [listingPieces, List.flatten_cons, flatten_flatMap_pieces]
  rfl

theorem outputWriteFile_eq (pattern : File → FilePattern) (files : File → Option (List UInt8))
    (file : File) (data : List UInt8) :
    outputWriteFile pattern files file (.ok data) =
      createFile (pattern file) files file fun stream =>
        (fileOps (pattern file)).writeAll stream [data] := by
  simp only [outputWriteFile, writeAll_singleton]

/-- The body of `output_write_file` writes the object. -/
theorem writeBody (pattern : FilePattern) (pieces : List (List UInt8)) :
    (fun stream => (fileOps pattern).writeAll stream pieces) FileStream.opened =
      (fileOps pattern).writeAll .opened pieces :=
  rfl

/-- The body of `listing_write_file` writes the pieces of the listing. -/
theorem listingBody (pattern : FilePattern) {src : SourceBuffer} (accepted : Accepted src) :
    listingWriteStream (fileOps pattern) .opened (sourceInstructions src) src.data
        (sourcePass2 src) = (fileOps pattern).writeAll .opened (listingPieces src) := by
  rw [listingWriteStream_eq accepted, writeAll_checked]

section Runs

variable {surroundings : Surroundings Path File} {args : WriteArgs Path}
  {files : File → Option (List UInt8)} {src : SourceBuffer} {object : List UInt8}

/-- The files once the object was written, or was not. -/
def filesWithObject (surroundings : Surroundings Path File) (args : WriteArgs Path)
    (files : File → Option (List UInt8)) (object : List UInt8) :
    (File → Option (List UInt8)) × Bool :=
  outputWriteFile surroundings.pattern files (surroundings.locate args.outPath) (.ok object)

theorem filesWithObject_succeeds :
    (filesWithObject surroundings args files object).2 =
      (surroundings.pattern (surroundings.locate args.outPath)).succeeds 1 := by
  rw [filesWithObject, outputWriteFile_eq, createFile_eq files _ (writeBody _ [object])]
  rfl

/-- An object that was written is whole. -/
theorem object_of_succeeds (succeeds : (filesWithObject surroundings args files object).2 = true) :
    (filesWithObject surroundings args files object).1 (surroundings.locate args.outPath) =
      some object := by
  rw [filesWithObject_succeeds] at succeeds
  have opens : (surroundings.pattern (surroundings.locate args.outPath)).opens = true := by
    rw [FilePattern.succeeds, Bool.and_eq_true] at succeeds
    exact succeeds.1
  have all := @stores_of_succeeds _ _ [object] succeeds
  rw [filesWithObject, outputWriteFile_eq, createFile_eq files _ (writeBody _ [object]),
    if_pos opens]
  dsimp only
  rw [Function.update_self, List.take_of_length_le all]
  exact congrArg some (List.append_nil object)

theorem filesWithObject_other {file : File} (apart : file ≠ surroundings.locate args.outPath) :
    (filesWithObject surroundings args files object).1 file = files file := by
  rw [filesWithObject, outputWriteFile_eq]
  exact createFile_other files apart _

/-- The run on paths that do not clash. -/
theorem nazmWriteOutputs_eq (noClash : pathClash surroundings.identity args = .different)
    (isObject : outputWrite args.format (sourceOutput src) = .ok object) :
    nazmWriteOutputs surroundings args files src =
      match filesWithObject surroundings args files object with
      | (files, false) => (.objectNotWritten, files)
      | (files, true) =>
          match args.listingPath with
          | none => (.written, files)
          | some listingPath =>
              match listingWriteFile surroundings.pattern files (surroundings.locate listingPath)
                  (sourceInstructions src) src.data (sourcePass2 src) with
              | (files, false) => (.listingNotWritten, files)
              | (files, true) => (.written, files) := by
  rw [nazmWriteOutputs, noClash]
  dsimp only
  rw [isObject]
  rfl

/-- The files once the listing was written too, or was not. -/
def filesWithListing (surroundings : Surroundings Path File) (args : WriteArgs Path)
    (files : File → Option (List UInt8)) (object : List UInt8) (listingPath : Path)
    (src : SourceBuffer) : (File → Option (List UInt8)) × Bool :=
  listingWriteFile surroundings.pattern (filesWithObject surroundings args files object).1
    (surroundings.locate listingPath) (sourceInstructions src) src.data (sourcePass2 src)

theorem filesWithListing_succeeds (accepted : Accepted src) (listingPath : Path) :
    (filesWithListing surroundings args files object listingPath src).2 =
      (surroundings.pattern (surroundings.locate listingPath)).succeeds
        (listingPieces src).length := by
  rw [filesWithListing, listingWriteFile, createFile_eq _ _ (listingBody _ accepted)]

end Runs

end Failures

/-! ## A disk that is full -/

/-- Files by number, each path its own, that all fare alike. -/
def alike (pattern : FilePattern) : Surroundings Nat Nat where
  locate := id
  identity first second := if first = second then .same else .different
  pattern _ := pattern

/-- One statement. -/
def oneReturn : SourceBuffer := ⟨utf8 "ارجع\n", none⟩

end Nazm.Cli
