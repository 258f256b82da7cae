import Nazm.Cli.CommandEnds

/-!
The source stays as it is.

Owns that no run of a command to assemble changes the file that it reads, under whatever
name an output has that file too, on a host that finds the files there are.

Does not own the other files.
-/

namespace Nazm.Cli

open FailingHeap
open Nazm.Api Nazm.Diagnostics Nazm.Io Nazm.Passes Nazm.Unicode

/-- A host that finds under a path the file that the path names, where there is one; it
opens no other, and none under the empty path. -/
structure FindsFiles {File : Type} (host : CommandHost File) (files : File → Option (List UInt8)) :
    Prop where
  stat : ∀ path file, path ≠ [] → host.locate path = file → files file ≠ none →
    host.stat path = some file
  opens : ∀ path, (host.answers path).opens = .ok () →
    path ≠ [] ∧ files (host.locate path) ≠ none
  nameless : ∀ path, path ≠ [] → host.locate path ≠ host.locate []

section Kept

variable {File : Type} [DecidableEq File] {host : CommandHost File}
  {files : File → Option (List UInt8)} {left right : List UInt8}

/-- Paths that are found to differ name different files, where one of them is there. -/
theorem locate_ne_of_different (finds : FindsFiles host files) (some_ : right ≠ [])
    (exists_ : files (host.locate right) ≠ none)
    (different : expectedIdentity host.toIoHost left right false = .different) :
    host.locate right ≠ host.locate left := by
  intro same
  unfold expectedIdentity at different
  by_cases empty : left = []
  · rw [empty] at same
    exact finds.nameless right some_ same
  · have neither : ¬ (left = [] ∨ right = []) := not_or.mpr ⟨empty, some_⟩
    rw [if_neg neither] at different
    by_cases equal : left = right
    · rw [if_pos equal] at different
      contradiction
    · have isRight := finds.stat right _ some_ rfl exists_
      have isLeft := finds.stat left _ empty same.symm exists_
      have sameFile : (host.stat left).isSome ∧ host.stat left = host.stat right := by
        rw [isLeft, isRight]
        exact ⟨rfl, rfl⟩
      rw [if_neg equal, if_pos sameFile] at different
      contradiction

/-- A file that was read could be opened. -/
theorem opens_of_readAnswer {answers : ReadAnswers} {data : List UInt8}
    (read : readAnswer answers = .ok data) : answers.opens = .ok () := by
  unfold readAnswer at read
  split at read
  · contradiction
  · next opened => exact opened

/-- Whatever fails, and whatever names the outputs have, a command to assemble leaves the
file that it reads as it is. -/
theorem command_keeps_source (host : CommandHost File) (program : List UInt8)
    (files : File → Option (List UInt8)) {defaultFormat : NazmOutputFormat}
    {words : List (List UInt8)} {args : CliArgs} (line : CommandLine defaultFormat words args)
    (clean : ∀ word ∈ words, 0 ∉ word)
    (known : defaultFormat = .elf64 ∨ defaultFormat = .coff) (finds : FindsFiles host files) :
    let source := host.locate args.writeArgs.sourcePath
    (nazmMain host defaultFormat (program :: words) files).files source = files source := by
  obtain ⟨parsed, runs⟩ := commandLine_parsed program line
  have cleanArgs := cleanArgs_of_line line clean known
  have ended := @nazmMain_ended File _ host args files _ _ parsed runs
    (cleanPaths_of_args cleanArgs)
  cases ended with
  | outOfMemory _ _ unchanged _ => exact congrFun unchanged _
  | notRead _ _ _ _ _ _ _ unchanged => exact congrFun unchanged _
  | read data block clash ok _ _ read compared _ ends =>
      obtain ⟨some_, exists_⟩ := finds.opens _ (opens_of_readAnswer read)
      have isFiles := congrArg Prod.snd ends
      dsimp only at isFiles ⊢
      rw [isFiles, sourceEnd]
      dsimp only
      split
      · rfl
      · by_cases differ : clash = .different
        · cases ok with
          | false => exact absurd differ (compared.cautious rfl)
          | true =>
              have noClash : expectedClash host args.writeArgs = .different :=
                (compared.granted rfl).symm.trans differ
              have apart := fun other => @locate_ne_of_different File _ host files other _ finds
                some_ exists_
              apply nazmWriteOutputs_other
              · apply apart
                rw [expectedClash, pathClash] at noClash
                cases listed : args.writeArgs.listingPath with
                | none =>
                    rw [listed] at noClash
                    exact noClash
                | some path =>
                    rw [listed] at noClash
                    have both := (IoPathIdentity.worse_eq_different.mp noClash).1
                    exact (IoPathIdentity.worse_eq_different.mp both).1
              · intro path listed
                apply apart
                rw [expectedClash, pathClash, listed] at noClash
                have both := (IoPathIdentity.worse_eq_different.mp noClash).1
                exact (IoPathIdentity.worse_eq_different.mp both).2
        · exact congrFun (nazmWriteOutputs_clash differ _ files _).2 _

end Kept

/-! ## Two names of one source -/

theorem oneSourceHost_finds : FindsFiles oneSourceHost oneSourceFiles where
  stat path file some_ isFile exists_ := by
    have onlySource : file = 0 := by
      by_contra other
      exact exists_ (if_neg other)
    rw [onlySource] at isFile ⊢
    unfold oneSourceHost at isFile ⊢
    dsimp only at isFile ⊢
    split at isFile
    · next isSource => exact if_pos isSource
    · split at isFile
      · contradiction
      · contradiction
  opens path opened := by
    unfold oneSourceHost at opened ⊢
    dsimp only at opened ⊢
    split at opened
    · next isSource =>
        subst isSource
        refine ⟨by decide, ?_⟩
        rw [if_pos (.inl rfl)]
        exact Option.some_ne_none _
    · contradiction
  nameless path some_ := by
    have nothing : oneSourceHost.locate [] = 2 := by
      decide
    rw [nothing]
    unfold oneSourceHost
    dsimp only
    rw [if_neg some_]
    split
    · decide
    · split <;> decide

/-- A command line whose object has the other name of its source. -/
def sameSourceArgs : CliArgs :=
  CliOption.apply (CliOption.apply (.start .elf64) (.output (utf8 "./ب.نظم"))) (.source oneSource)

theorem sameSource_line : CommandLine .elf64
    [utf8 "-خ", utf8 "./ب.نظم", oneSource] sameSourceArgs :=
  ⟨[.output (utf8 "./ب.نظم"), .source oneSource], oneSource,
    .cons (.output (by decide)) (.cons (.source (by decide)) .nil), rfl, ⟨utf8 "ب", by decide⟩, rfl⟩

/-- The source stays where the object has its other name. -/
theorem command_keeps_source_sameSource :
    (nazmMain oneSourceHost .elf64 [utf8 "نظم", utf8 "-خ", utf8 "./ب.نظم", oneSource]
      oneSourceFiles).files 0 = some oneReturn.data := by
  have kept := command_keeps_source oneSourceHost (utf8 "نظم") oneSourceFiles sameSource_line
    (by decide) (.inl rfl) oneSourceHost_finds
  have isSource : oneSourceHost.locate sameSourceArgs.writeArgs.sourcePath = 0 := by
    decide +kernel
  dsimp only at kept
  rw [isSource] at kept
  exact kept

end Nazm.Cli
