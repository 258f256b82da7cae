import Nazm.Passes.Disassembly

/-!
Running the linked text of a source.

Owns that a processor whose memory holds the linked text runs the listing of the
source, instruction by instruction.

Does not own what an instruction does, nor how the text gets into memory.
-/

namespace Nazm.Passes

open FetchDecode
open Nazm.Encoder Nazm.Parser Nazm.Lexer Nazm.Symtable Nazm.Unicode Nazm.Diagnostics

variable {src : SourceBuffer} {addresses : Addresses}

/-- An instruction takes at most the fifteen bytes that a processor reads for one. -/
theorem length_sourceListing {entry : Entry X86.PlacedInstruction}
    (member : entry ∈ sourceListing src addresses) : entry.length ≤ maxInstructionBytes := by
  obtain ⟨place, -, isEntry⟩ := List.mem_filterMap.mp member
  unfold statementListing? at isEntry
  split at isEntry
  · obtain ⟨instruction, -, rfl⟩ := Option.map_eq_some_iff.mp isEntry
    exact (instructionSize_bounds place.2).2
  · contradiction

/-- A processor runs the listing of the text that its memory holds. -/
theorem text_runs {State : Type} {processor : Processor X86.PlacedInstruction State}
    {base : Int} {text : List UInt8} {entries : List (Entry X86.PlacedInstruction)}
    (listed : Listed X86.decodeAt base text entries)
    (short : ∀ entry ∈ entries, entry.length ≤ maxInstructionBytes)
    (decodes : processor.decode = X86.decodeAt) (window : maxInstructionBytes ≤ processor.window)
    (protects : processor.Protects base text) {state : State}
    (holds : HoldsAt (processor.memory state) base text) {count : Nat} {result : Option State}
    (ran : processor.listingRun entries count state = some result) :
    processor.run count state = result := by
  apply listingRun_sound (decodes ▸ listed) _ protects holds ran
  intro entry member
  exact Nat.le_trans (short entry member) window

/-- A processor that decodes x86-64 and does not write into its code, with the linked
text of an accepted source in memory, does what the listing of the source says, for as
many steps as the counter stays on it; faults are the same ones. -/
theorem linked_text_runs {State : Type} (src : SourceBuffer) (accepted : Accepted src)
    (addresses : Addresses) (reach : WithinReach src addresses)
    (processor : Processor X86.PlacedInstruction State)
    (decodes : processor.decode = X86.decodeAt) (window : maxInstructionBytes ≤ processor.window)
    (protects : processor.Protects (addresses.base .text) (linkedBytes src addresses .text))
    (state : State)
    (holds : HoldsAt (processor.memory state) (addresses.base .text)
      (linkedBytes src addresses .text)) (count : Nat) (result : Option State)
    (ran : processor.listingRun (sourceListing src addresses) count state = some result) :
    processor.run count state = result := by
  apply text_runs (linkedText_listed accepted reach) _ decodes window protects holds ran
  intro entry member
  exact length_sourceListing member

/-- A processor that follows jumps and passes over everything else. -/
def jumpFollower (base : Int) (text : List UInt8) : Processor X86.PlacedInstruction Int where
  counter := id
  memory _ := imageAt base text
  decode := X86.decodeAt
  window := maxInstructionBytes
  execute instruction behind _ :=
    if instruction.operation = .jmp then
      instruction.operands.head?.bind X86.PlacedOperand.target?
    else some behind

theorem linked_text_runs_externalLoop :
    (jumpFollower 4096 (linkedBytes externalLoop loadedLow .text)).run 3 4096 = some 4101 :=
  linked_text_runs externalLoop (by decide +kernel) loadedLow (by decide +kernel)
    (jumpFollower 4096 (linkedBytes externalLoop loadedLow .text)) rfl (Nat.le_refl _)
    (fun _ _ _ _ _ _ _ => rfl) 4096 (holdsAt_imageAt _) 3 (some 4101) (by decide +kernel)

end Nazm.Passes
