import Mathlib.Data.Int.Init
import Mathlib.Data.List.Basic

/-!
Machines that fetch their program from memory.

Owns code as a row of encoded instructions, its disassembly from one end to the
other, processors that decode what their memory holds at the program counter,
and that a processor whose code is protected runs the listing of that code.

Does not own any instruction, nor what executing one does.
-/

namespace FetchDecode

variable {Instruction State : Type}

/-! ## Code -/

/-- A decoder is told the address of the bytes it reads, and gives back the ones
behind the instruction. -/
abbrev Decoder (Instruction : Type) := Int → List UInt8 → Option (Instruction × List UInt8)

/-- An instruction, where it stands and how many bytes it takes. -/
structure Entry (Instruction : Type) where
  address : Int
  length : Nat
  instruction : Instruction
deriving DecidableEq, Repr

/-- Whatever follows, the decoder takes exactly `code`. -/
def DecodesAt (decode : Decoder Instruction) (address : Int) (code : List UInt8)
    (instruction : Instruction) : Prop :=
  ∀ rest, decode address (code ++ rest) = some (instruction, rest)

/-- Code that is one encoded instruction after the other. -/
inductive Listed (decode : Decoder Instruction) :
    Int → List UInt8 → List (Entry Instruction) → Prop where
  | nil {address : Int} : Listed decode address [] []
  | cons {address : Int} {code rest : List UInt8} {instruction : Instruction}
      {entries : List (Entry Instruction)} :
      DecodesAt decode address code instruction → code ≠ [] →
      Listed decode (address + code.length) rest entries →
      Listed decode address (code ++ rest) (⟨address, code.length, instruction⟩ :: entries)

/-- Decode one instruction after the other, up to the end of the code. -/
def sweep (decode : Decoder Instruction) :
    Nat → Int → List UInt8 → Option (List (Entry Instruction))
  | _, _, [] => some []
  | 0, _, _ :: _ => none
  | fuel + 1, address, byte :: code =>
      match decode address (byte :: code) with
      | none => none
      | some (instruction, rest) =>
          let length := (byte :: code).length - rest.length
          (sweep decode fuel (address + length) rest).map (⟨address, length, instruction⟩ :: ·)

section Code

variable {decode : Decoder Instruction} {address : Int} {code : List UInt8}
  {entries : List (Entry Instruction)}

/-- A sweep finds the instructions that the code was put together from. -/
theorem Listed.sweep (listed : Listed decode address code entries) {fuel : Nat}
    (enough : code.length ≤ fuel) : sweep decode fuel address code = some entries := by
  induction listed generalizing fuel with
  | nil => cases fuel <;> rfl
  | @cons address code rest instruction entries decodes some_ _ inductionHypothesis =>
      obtain ⟨byte, more, rfl⟩ := List.exists_cons_of_ne_nil some_
      rw [List.length_append, List.length_cons] at enough
      obtain ⟨fuel, rfl⟩ := Nat.exists_eq_add_of_le' (show 1 ≤ fuel by omega)
      have first := decodes rest
      rw [List.cons_append] at first ⊢
      have length : (byte :: (more ++ rest)).length - rest.length = (byte :: more).length := by
        simp only [List.length_cons, List.length_append]
        omega
      rw [FetchDecode.sweep, first]
      dsimp only
      rw [length, inductionHypothesis (by omega), Option.map_some]

theorem Listed.append {front back : List UInt8} {before after : List (Entry Instruction)}
    (listedFront : Listed decode address front before)
    (listedBack : Listed decode (address + front.length) back after) :
    Listed decode address (front ++ back) (before ++ after) := by
  induction listedFront with
  | nil => simpa using listedBack
  | @cons address code rest instruction entries decodes some_ _ inductionHypothesis =>
      rw [List.append_assoc, List.cons_append]
      refine .cons decodes some_ (inductionHypothesis ?_)
      rw [List.length_append, Int.natCast_add, ← Int.add_assoc] at listedBack
      exact listedBack

/-- One more instruction behind the code. -/
theorem Listed.snoc (listed : Listed decode address code entries) {last : List UInt8}
    {instruction : Instruction}
    (decodes : DecodesAt decode (address + code.length) last instruction) (some_ : last ≠ []) :
    Listed decode address (code ++ last)
      (entries ++ [⟨address + code.length, last.length, instruction⟩]) := by
  have one := Listed.cons decodes some_ .nil
  rw [List.append_nil] at one
  exact listed.append one

/-- An entry has its bytes in the code, at its address. -/
theorem Listed.code_of_mem (listed : Listed decode address code entries)
    {entry : Entry Instruction} (member : entry ∈ entries) :
    ∃ front own back, code = front ++ own ++ back ∧ entry.address = address + front.length ∧
      entry.length = own.length ∧ own ≠ [] ∧
      DecodesAt decode entry.address own entry.instruction := by
  induction listed with
  | nil => contradiction
  | @cons address code rest instruction entries decodes some_ _ inductionHypothesis =>
      rcases List.mem_cons.mp member with rfl | later
      · exact ⟨[], code, rest, rfl, (Int.add_zero _).symm, rfl, some_, decodes⟩
      · obtain ⟨front, own, back, rfl, isAddress, length, ownSome, ownDecodes⟩ :=
          inductionHypothesis later
        refine ⟨code ++ front, own, back, by simp only [List.append_assoc], ?_, length, ownSome,
          ownDecodes⟩
        rw [isAddress, List.length_append, Int.natCast_add, Int.add_assoc]

/-- Every entry ends before the code does. -/
theorem Listed.behind_le (listed : Listed decode address code entries)
    {entry : Entry Instruction} (member : entry ∈ entries) :
    0 < entry.length ∧ entry.address + entry.length ≤ address + code.length := by
  obtain ⟨front, own, back, rfl, isAddress, length, some_, -⟩ := listed.code_of_mem member
  have positive := List.length_pos_iff.mpr some_
  simp only [List.length_append]
  omega

end Code

/-! ## Listings -/

/-- The entry at an address. -/
def entryAt (entries : List (Entry Instruction)) (address : Int) : Option (Entry Instruction) :=
  entries.find? fun entry => entry.address = address

theorem entryAt_spec {entries : List (Entry Instruction)} {address : Int}
    {entry : Entry Instruction} (found : entryAt entries address = some entry) :
    entry ∈ entries ∧ entry.address = address := by
  unfold entryAt at found
  have isAddress := List.find?_some found
  exact ⟨List.mem_of_find?_eq_some found, of_decide_eq_true isAddress⟩

/-- Where code goes on, the entry is the first one of what follows. -/
theorem Listed.entryAt_append {decode : Decoder Instruction} {address : Int}
    {front back : List UInt8} {before after : List (Entry Instruction)}
    (listedFront : Listed decode address front before)
    (listedBack : Listed decode (address + front.length) back after) :
    entryAt (before ++ after) (address + front.length) = after.head? := by
  have noneBefore : before.find? (fun entry => decide (entry.address = address + front.length)) =
      none := by
    apply List.find?_eq_none.mpr
    intro entry member isHere
    have behind := listedFront.behind_le member
    have here := of_decide_eq_true isHere
    omega
  unfold entryAt
  rw [List.find?_append, noneBefore, Option.none_or]
  cases listedBack with
  | nil => rfl
  | cons decodes some_ listed => exact List.find?_cons_of_pos (decide_eq_true rfl)

/-! ## Processors -/

/-- A processor. It decodes at its counter, from at most `window` bytes of its
memory; executing an instruction, with the address behind it, may fault. -/
structure Processor (Instruction State : Type) where
  counter : State → Int
  memory : State → Int → UInt8
  decode : Decoder Instruction
  window : Nat
  execute : Instruction → Int → State → Option State

/-- The bytes of a memory from an address on. -/
def bytesAt (memory : Int → UInt8) (address : Int) (count : Nat) : List UInt8 :=
  (List.range count).map fun index : Nat => memory (address + index)

/-- A memory holds bytes at an address. -/
def HoldsAt (memory : Int → UInt8) (address : Int) (bytes : List UInt8) : Prop :=
  ∀ (index : Nat) (byte : UInt8), bytes[index]? = some byte → memory (address + index) = byte

/-- The memory with bytes at an address, and zero everywhere else. -/
def imageAt (address : Int) (bytes : List UInt8) (place : Int) : UInt8 :=
  if place < address then 0 else bytes.getD (place - address).toNat 0

namespace Processor

variable (processor : Processor Instruction State)

/-- One instruction; `none` is a fault, also where the bytes are no instruction. -/
def step (state : State) : Option State :=
  let address := processor.counter state
  let bytes := bytesAt (processor.memory state) address processor.window
  (processor.decode address bytes).bind fun (instruction, rest) =>
    processor.execute instruction (address + (bytes.length - rest.length : Nat)) state

/-- So many instructions. -/
def run : Nat → State → Option State
  | 0, state => some state
  | count + 1, state => (processor.step state).bind (run count)

/-- What a listing says about one step: `none` where it has no entry at the
counter, and `some none` for a fault. -/
def listingStep (entries : List (Entry Instruction)) (state : State) : Option (Option State) :=
  (entryAt entries (processor.counter state)).map fun entry =>
    processor.execute entry.instruction (entry.address + entry.length) state

/-- A run by the listing alone, as long as the counter stays on its entries. -/
def listingRun (entries : List (Entry Instruction)) : Nat → State → Option (Option State)
  | 0, state => some (some state)
  | count + 1, state =>
      match processor.listingStep entries state with
      | none => none
      | some none => some none
      | some (some next) => listingRun entries count next

/-- Executing an instruction does not write into the code. -/
def Protects (address : Int) (code : List UInt8) : Prop :=
  ∀ instruction behind state next, processor.execute instruction behind state = some next →
    ∀ index : Nat, index < code.length →
      processor.memory next (address + index) = processor.memory state (address + index)

end Processor

section Memories

variable {memory : Int → UInt8} {address : Int}

theorem length_bytesAt (count : Nat) : (bytesAt memory address count).length = count := by
  rw [bytesAt, List.length_map, List.length_range]

theorem bytesAt_add (first second : Nat) :
    bytesAt memory address (first + second) =
      bytesAt memory address first ++ bytesAt memory (address + first) second := by
  unfold bytesAt
  rw [List.range_add, List.map_append, List.map_map]
  congr 1
  refine List.map_congr_left fun index _ => ?_
  rw [Function.comp_apply, Int.natCast_add, Int.add_assoc]

/-- What a memory holds is what is read there. -/
theorem HoldsAt.bytesAt {bytes : List UInt8} (holds : HoldsAt memory address bytes) :
    bytesAt memory address bytes.length = bytes := by
  refine List.ext_getElem (length_bytesAt _) fun index _ inside => ?_
  simp only [FetchDecode.bytesAt, List.getElem_map, List.getElem_range]
  exact holds index _ (List.getElem?_eq_getElem inside)

theorem holdsAt_imageAt (bytes : List UInt8) : HoldsAt (imageAt address bytes) address bytes := by
  intro index byte isByte
  have offset : (address + (index : Int) - address).toNat = index := by omega
  unfold imageAt
  rw [if_neg (by omega), offset, List.getD_eq_getElem?_getD, isByte, Option.getD_some]

theorem HoldsAt.middle {front own back : List UInt8}
    (holds : HoldsAt memory address (front ++ own ++ back)) :
    HoldsAt memory (address + front.length) own := by
  intro index byte isByte
  have inside := (List.getElem?_eq_some_iff.mp isByte).1
  have here := holds (front.length + index) byte (by
    rw [List.append_assoc, List.getElem?_append_right (Nat.le_add_right _ _),
      Nat.add_sub_cancel_left, List.getElem?_append_left inside]
    exact isByte)
  rw [Int.natCast_add, ← Int.add_assoc] at here
  exact here

/-- A memory that agrees on the code holds it too. -/
theorem HoldsAt.of_same {other : Int → UInt8} {bytes : List UInt8}
    (holds : HoldsAt memory address bytes)
    (same : ∀ index : Nat, index < bytes.length →
      other (address + index) = memory (address + index)) :
    HoldsAt other address bytes := by
  intro index byte isByte
  have inside := (List.getElem?_eq_some_iff.mp isByte).1
  rw [same index inside]
  exact holds index byte isByte

end Memories

section Runs

variable {processor : Processor Instruction State} {base : Int} {code : List UInt8}
  {entries : List (Entry Instruction)} {state : State}

/-- A step on an entry of the listing executes its instruction. -/
theorem step_of_entry (listed : Listed processor.decode base code entries)
    (short : ∀ entry ∈ entries, entry.length ≤ processor.window)
    (holds : HoldsAt (processor.memory state) base code) {entry : Entry Instruction}
    (here : entryAt entries (processor.counter state) = some entry) :
    processor.step state =
      processor.execute entry.instruction (entry.address + entry.length) state := by
  obtain ⟨member, isCounter⟩ := entryAt_spec here
  obtain ⟨front, own, back, rfl, isAddress, length, -, decodes⟩ := listed.code_of_mem member
  obtain ⟨extra, isWindow⟩ := Nat.exists_eq_add_of_le (short entry member)
  have read : bytesAt (processor.memory state) entry.address processor.window =
      own ++ bytesAt (processor.memory state) (entry.address + own.length) extra := by
    rw [isWindow, length, bytesAt_add, isAddress, (holds.middle).bytesAt]
  have taken : (own ++ bytesAt (processor.memory state) (entry.address + own.length) extra).length -
      (bytesAt (processor.memory state) (entry.address + own.length) extra).length =
        entry.length := by
    rw [List.length_append, Nat.add_sub_cancel, length]
  rw [Processor.step, ← isCounter]
  dsimp only
  rw [read, decodes, Option.bind_some, taken]

/-- The step of a listing is the step of the processor, and leaves the code in
memory. -/
theorem listingStep_sound (listed : Listed processor.decode base code entries)
    (short : ∀ entry ∈ entries, entry.length ≤ processor.window)
    (protects : processor.Protects base code)
    (holds : HoldsAt (processor.memory state) base code) {result : Option State}
    (stepped : processor.listingStep entries state = some result) :
    processor.step state = result ∧
      ∀ next, result = some next → HoldsAt (processor.memory next) base code := by
  obtain ⟨entry, here, executed⟩ := Option.map_eq_some_iff.mp stepped
  rw [step_of_entry listed short holds here, executed]
  refine ⟨rfl, fun next isNext => holds.of_same ?_⟩
  rw [isNext] at executed
  exact protects _ _ _ _ executed

/-- A processor with protected code runs the listing of that code. -/
theorem listingRun_sound (listed : Listed processor.decode base code entries)
    (short : ∀ entry ∈ entries, entry.length ≤ processor.window)
    (protects : processor.Protects base code)
    (holds : HoldsAt (processor.memory state) base code) {count : Nat} {result : Option State}
    (ran : processor.listingRun entries count state = some result) :
    processor.run count state = result := by
  induction count generalizing state with
  | zero => exact Option.some.inj ran
  | succ count inductionHypothesis =>
      rw [Processor.listingRun] at ran
      rw [Processor.run]
      cases stepped : processor.listingStep entries state with
      | none =>
          rw [stepped] at ran
          contradiction
      | some outcome =>
          obtain ⟨isStep, keeps⟩ := listingStep_sound listed short protects holds stepped
          rw [stepped] at ran
          rw [isStep]
          cases outcome with
          | none => exact Option.some.inj ran
          | some next => exact inductionHypothesis (keeps next rfl) ran

end Runs

end FetchDecode
