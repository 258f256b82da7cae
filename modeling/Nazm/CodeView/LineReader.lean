import Nazm.Library.ByteFile
import Nazm.Library.ByteStream

/-!
A reference reader of CodeView C13 line tables.

Owns the subsections of a section, the blocks of its lines subsection with the
files that they name, and the location that the lines give to an address.

Does not own how a table comes about. Column records are not read: a lines
subsection that has them is refused.
-/

namespace Nazm.CodeView

open ByteStream

/-! ## Subsections -/

def debugSLines : Nat := 0xF2
def debugSStringTable : Nat := 0xF3
def debugSFileChksms : Nat := 0xF4

structure Subsection where
  kind : Nat
  bytes : List UInt8
deriving DecidableEq, Repr

/-- Subsections start at multiples of four bytes. -/
def readSubsections : Nat → List UInt8 → Option (List Subsection)
  | _, [] => some []
  | 0, _ :: _ => none
  | fuel + 1, bytes => do
      let (kind, bytes) ← readWord 4 bytes
      let (length, bytes) ← readWord 4 bytes
      if bytes.length < length then none
      else
        let later ← readSubsections fuel (bytes.drop (length + (4 - length % 4) % 4))
        some (⟨kind, bytes.take length⟩ :: later)

def subsection? (subsections : List Subsection) (kind : Nat) : Option (List UInt8) :=
  (subsections.find? fun subsection => decide (subsection.kind = kind)).map Subsection.bytes

/-! ## Lines -/

/-- A line: where it starts, and its number. -/
structure Line where
  offset : Nat
  number : Nat
deriving DecidableEq, Repr

/-- The lines of a file. -/
structure Block where
  file : List UInt8
  lines : List Line
deriving DecidableEq, Repr

/-- The file of a checksum: the string that it refers to. -/
def file? (checksums strings : List UInt8) (checksum : Nat) : Option (List UInt8) :=
  if checksum + 4 ≤ checksums.length then
    ByteFile.stringAt strings (ByteFile.word checksums checksum 4)
  else none

/-- Line numbers take 24 bits. -/
def readBlockLines : Nat → List UInt8 → Option (List Line × List UInt8)
  | 0, bytes => some ([], bytes)
  | count + 1, bytes => do
      let (offset, bytes) ← readWord 4 bytes
      let (number, bytes) ← readWord 4 bytes
      let (lines, bytes) ← readBlockLines count bytes
      some (⟨offset, number % 2 ^ 24⟩ :: lines, bytes)

/-- The size of a block is that of its head and its lines. -/
def readBlocks (file? : Nat → Option (List UInt8)) : Nat → List UInt8 → Option (List Block)
  | _, [] => some []
  | 0, _ :: _ => none
  | fuel + 1, bytes => do
      let (checksum, bytes) ← readWord 4 bytes
      let (count, bytes) ← readWord 4 bytes
      let (size, bytes) ← readWord 4 bytes
      if size ≠ 12 + count * 8 then none
      else
        let file ← file? checksum
        let (lines, bytes) ← readBlockLines count bytes
        let later ← readBlocks file? fuel bytes
        some (⟨file, lines⟩ :: later)

/-! ## Tables -/

/-- The lines of a range of code. -/
structure Table where
  codeSize : Nat
  blocks : List Block
deriving DecidableEq, Repr

/-- The lines subsection; its start is relocated. -/
def readLines (file? : Nat → Option (List UInt8)) (bytes : List UInt8) : Option Table := do
  let (_, bytes) ← readWord 4 bytes
  let (_, bytes) ← readWord 2 bytes
  let (flags, bytes) ← readWord 2 bytes
  let (codeSize, bytes) ← readWord 4 bytes
  if flags ≠ 0 then none
  else
    let blocks ← readBlocks file? bytes.length bytes
    some ⟨codeSize, blocks⟩

/-- The table of a section that starts with the C13 signature. -/
def readTable (bytes : List UInt8) : Option Table := do
  let (signature, bytes) ← readWord 4 bytes
  if signature ≠ 4 then none
  else
    let subsections ← readSubsections bytes.length bytes
    let strings ← subsection? subsections debugSStringTable
    let checksums ← subsection? subsections debugSFileChksms
    let lines ← subsection? subsections debugSLines
    readLines (file? checksums strings) lines

/-! ## Looking up an address -/

/-- A line with its file. -/
structure Entry where
  offset : Nat
  file : List UInt8
  line : Nat
deriving DecidableEq, Repr

def Block.entries (block : Block) : List Entry :=
  block.lines.map fun line => ⟨line.offset, block.file, line.number⟩

def Table.entries (table : Table) : List Entry := table.blocks.flatMap Block.entries

/-- The entry with the greatest offset up to an address. -/
def latest (address : Nat) : List Entry → Option Entry
  | [] => none
  | entry :: entries =>
      match latest address entries with
      | none => if entry.offset ≤ address then some entry else none
      | some other =>
          if entry.offset ≤ address ∧ other.offset < entry.offset then some entry else some other

/-- A file and a line. -/
structure Location where
  file : List UInt8
  line : Nat
deriving DecidableEq, Repr

def Table.location? (table : Table) (address : Nat) : Option Location :=
  if address < table.codeSize then
    (latest address table.entries).map fun entry => ⟨entry.file, entry.line⟩
  else none

theorem latest_spec {address : Nat} {entries : List Entry} {entry : Entry}
    (found : latest address entries = some entry) : entry ∈ entries ∧ entry.offset ≤ address := by
  induction entries with
  | nil => contradiction
  | cons head entries inductionHypothesis =>
      rw [latest] at found
      split at found
      · rw [Option.ite_none_right_eq_some] at found
        obtain ⟨before, same⟩ := found
        obtain rfl := Option.some.inj same
        exact ⟨List.mem_cons_self, before⟩
      · next other isOther =>
          split at found
          · next later =>
              obtain rfl := Option.some.inj found
              exact ⟨List.mem_cons_self, later.1⟩
          · obtain rfl := Option.some.inj found
            obtain ⟨member, before⟩ := inductionHypothesis isOther
            exact ⟨List.mem_cons_of_mem _ member, before⟩

/-- The latest entry is the one that all others come before. -/
theorem latest_eq_some {address : Nat} {entries : List Entry} {entry : Entry}
    (member : entry ∈ entries) (before : entry.offset ≤ address)
    (last : ∀ other ∈ entries, other.offset ≤ address → other ≠ entry →
      other.offset < entry.offset) : latest address entries = some entry := by
  induction entries with
  | nil => contradiction
  | cons head entries inductionHypothesis =>
      have lastOfRest := fun other inRest => last other (List.mem_cons_of_mem _ inRest)
      rw [latest]
      by_cases inRest : entry ∈ entries
      · rw [inductionHypothesis inRest lastOfRest]
        refine if_neg ?_
        rintro ⟨headBefore, later⟩
        have earlier := last head List.mem_cons_self headBefore fun same => by
          rw [same] at later
          exact Nat.lt_irrefl _ later
        omega
      · obtain rfl : entry = head := (List.mem_cons.mp member).resolve_right inRest
        cases found : latest address entries with
        | none => exact if_pos before
        | some other =>
            obtain ⟨inEntries, otherBefore⟩ := latest_spec found
            refine if_pos ⟨before, lastOfRest other inEntries otherBefore ?_⟩
            rintro rfl
            exact inRest inEntries

theorem latest_eq_none {address : Nat} {entries : List Entry}
    (after : ∀ entry ∈ entries, address < entry.offset) : latest address entries = none := by
  induction entries with
  | nil => rfl
  | cons head entries inductionHypothesis =>
      have first := after head List.mem_cons_self
      rw [latest, inductionHypothesis fun entry member => after entry (List.mem_cons_of_mem _ member)]
      exact if_neg (Nat.not_le.mpr first)

end Nazm.CodeView
