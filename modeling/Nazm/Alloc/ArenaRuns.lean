import Mathlib.Data.List.Forall2
import Nazm.Alloc.Arena

/-!
Runs of the arena.

Owns what the callers of the arena do with it, the invariant that every run keeps,
and that the ranges handed out behave as separate arrays of zeroes.

Does not own the arena.
-/

namespace Nazm.Alloc

open CellMemory

/-! ## Runs -/

/-- What a caller does: it asks for a range, or stores into one that it was given. -/
inductive ArenaEvent where
  | alloc (size align : UInt64)
  | store (index offset : Nat) (byte : UInt8)
deriving DecidableEq

/-- An arena, the ranges that it handed out, and the heap behind it. -/
structure ArenaState (Heap : Type) where
  arena : Arena
  ranges : List ArenaRange
  heap : Heap

section Runs

variable {Heap : Type} (malloc : SysMalloc Heap)

/-- One event; `none` when the arena calls the handler, or when a store is not into a
range that was handed out. -/
def arenaStep (state : ArenaState Heap) : ArenaEvent → Option (ArenaState Heap)
  | .alloc size align =>
      match arenaAlloc malloc state.arena size align state.heap with
      | (some (arena, range), heap) => some ⟨arena, state.ranges ++ [range], heap⟩
      | (none, _) => none
  | .store index offset byte =>
      match state.ranges[index]? with
      | none => none
      | some range =>
          if offset < range.size.toNat then
            let arena := state.arena.store range.block (range.offset.toNat + offset) byte
            some { state with arena := arena }
          else none

/-- Events one after the other. -/
def arenaSteps (state : ArenaState Heap) : List ArenaEvent → Option (ArenaState Heap)
  | [] => some state
  | event :: events => (arenaStep malloc state event).bind fun next => arenaSteps next events

/-- A run of a new arena. -/
def arenaRun (initialSize : UInt64) (heap : Heap) (events : List ArenaEvent) :
    Option (ArenaState Heap) :=
  match arenaCreate malloc initialSize heap with
  | (some arena, heap) => arenaSteps malloc ⟨arena, [], heap⟩ events
  | (none, _) => none

end Runs

/-! ## What a run should do -/

/-- A power of two, at most 16. -/
def SmallPower (align : UInt64) : Prop := ∃ bits ≤ 4, align.toNat = 2 ^ bits

/-- The alignments that callers ask for. -/
def ArenaEvent.Aligned : ArenaEvent → Prop
  | .alloc _ align => SmallPower align
  | .store _ _ _ => True

/-- The requests of a run, each with its alignment. -/
def requests (events : List ArenaEvent) : List (UInt64 × UInt64) :=
  events.filterMap fun
    | .alloc size align => some (size, align)
    | .store _ _ _ => none

/-- What an event does to separate arrays. -/
def arraysStep (arrays : List (List UInt8)) : ArenaEvent → List (List UInt8)
  | .alloc size _ => arrays ++ [List.replicate size.toNat 0]
  | .store index offset byte => arrays.modify index fun array => array.set offset byte

/-- The arrays that a run leaves, if each request gave one of its own. -/
def arraysAfter (events : List ArenaEvent) : List (List UInt8) := events.foldl arraysStep []

namespace ArenaRange

/-- Where a range ends in its block. -/
def stop (range : ArenaRange) : Nat := range.offset.toNat + range.size.toNat

/-- Two ranges share no byte. -/
def Apart (first second : ArenaRange) : Prop :=
  first.block = second.block →
    first.stop ≤ second.offset.toNat ∨ second.stop ≤ first.offset.toNat

/-- A range of the size and the alignment of a request. -/
def Answers (request : UInt64 × UInt64) (range : ArenaRange) : Prop :=
  range.size = request.1 ∧ range.offset.toNat % request.2.toNat = 0

/-- A range inside the capacity of its block. -/
def Inside (arena : Arena) (range : ArenaRange) : Prop :=
  ∃ block, arena.blocks[range.block]? = some block ∧ range.stop ≤ block.capacity.toNat

end ArenaRange

/-! ## Size computations -/

/-- An operation on `size_t`. -/
inductive SizeOp where
  | add (left right : UInt64)
  | sub (left right : UInt64)
  | mul (left right : UInt64)

/-- The operation does not wrap. -/
def SizeOp.Exact : SizeOp → Prop
  | .add left right => left.toNat + right.toNat < 2 ^ 64
  | .sub left right => right.toNat ≤ left.toNat
  | .mul left right => left.toNat * right.toNat < 2 ^ 64

/-- The operations of `arenaCreate`. -/
def createOps (initialSize : UInt64) : List SizeOp :=
  let initialSize := if initialSize = 0 then arenaDefaultBlockSize else initialSize
  .sub sizeMax sizeofArenaBlock ::
    if sizeMax - sizeofArenaBlock < initialSize then []
    else [.add sizeofArenaBlock initialSize]

/-- The operations of `arenaAlloc` that decide a range or the size of a block. -/
def allocOps (arena : Arena) (size align : UInt64) : List SizeOp :=
  let aligned := alignedUsed arena.used align
  let capacity := arena.head.capacity
  let cap := nextCapacity capacity size
  [.add arena.used align, .sub (arena.used + align) 1, .sub align 1] ++
    (if aligned ≤ capacity then [.sub capacity aligned] else []) ++
    if fitsHead arena size align then [.add aligned size]
    else
      (if capacity ≤ sizeMax / 2 then [.mul capacity 2] else []) ++
        .sub sizeMax sizeofArenaBlock ::
          if sizeMax - sizeofArenaBlock < cap then [] else [.add sizeofArenaBlock cap]

/-! ## The invariant -/

/-- What every run keeps. -/
structure ArenaState.Sound {Heap : Type} (state : ArenaState Heap) : Prop where
  limit : state.arena.head.capacity.toNat ≤ (sizeMax - sizeofArenaBlock).toNat
  used : state.arena.used.toNat ≤ state.arena.head.capacity.toNat
  inside : ∀ range ∈ state.ranges, range.Inside state.arena
  below : ∀ range ∈ state.ranges, range.block = state.arena.earlier.length →
    range.stop ≤ state.arena.used.toNat
  apart : state.ranges.Pairwise ArenaRange.Apart

section Requests

variable {arena : Arena} {size align : UInt64}

theorem toNat_alignedUsed {used : UInt64}
    (room : used.toNat ≤ (sizeMax - sizeofArenaBlock).toNat) (power : SmallPower align) :
    (alignedUsed used align).toNat = roundUp used.toNat align.toNat ∧ 1 ≤ align.toNat ∧
      align.toNat ≤ 16 := by
  obtain ⟨bits, few, isPower⟩ := power
  have small : align.toNat ≤ 16 := isPower ▸ Nat.pow_le_pow_right (by decide) few
  have positive : 1 ≤ align.toNat := isPower ▸ Nat.two_pow_pos bits
  have limit : (sizeMax - sizeofArenaBlock).toNat = 2 ^ 64 - 17 := by decide
  have sum : (used + align - 1).toNat = used.toNat + align.toNat - 1 := by
    rw [UInt64.toNat_sub_of_le _ _ (by rw [UInt64.le_iff_toNat_le, UInt64.toNat_add]; simp; omega),
      UInt64.toNat_add, Nat.mod_eq_of_lt (by omega)]
    rfl
  have mask : (~~~(align - 1)).toNat = 2 ^ 64 - 1 - (2 ^ bits - 1) := by
    rw [UInt64.toNat_not, UInt64.toNat_sub_of_le _ _ (by rw [UInt64.le_iff_toNat_le]; simpa),
      isPower]
    rfl
  refine ⟨?_, positive, small⟩
  rw [alignedUsed, UInt64.toNat_and, sum, mask, and_mask_eq (by omega) (by omega), roundUp,
    isPower]

/-- The two tests of the head block, on exact numbers. -/
theorem fitsHead_iff (room : arena.used.toNat ≤ (sizeMax - sizeofArenaBlock).toNat)
    (power : SmallPower align) :
    fitsHead arena size align = true ↔
      roundUp arena.used.toNat align.toNat + size.toNat ≤ arena.head.capacity.toNat := by
  have rounded := (toNat_alignedUsed room power).1
  rw [fitsHead, Bool.and_eq_true, decide_eq_true_iff, decide_eq_true_iff, UInt64.le_iff_toNat_le,
    UInt64.le_iff_toNat_le, rounded]
  constructor
  · rintro ⟨starts, fits⟩
    rw [UInt64.toNat_sub_of_le _ _ (UInt64.le_iff_toNat_le.mpr (rounded ▸ starts)), rounded] at fits
    omega
  · intro fits
    have starts : roundUp arena.used.toNat align.toNat ≤ arena.head.capacity.toNat := by omega
    refine ⟨starts, ?_⟩
    rw [UInt64.toNat_sub_of_le _ _ (UInt64.le_iff_toNat_le.mpr (rounded ▸ starts)), rounded]
    omega

/-- The next block has room for the request that it is made for. -/
theorem size_le_nextCapacity (capacity size : UInt64) :
    size.toNat ≤ (nextCapacity capacity size).toNat := by
  unfold nextCapacity
  generalize (if capacity ≤ sizeMax / 2 then capacity * 2 else capacity) = doubled
  dsimp only
  split
  · exact Nat.le_refl _
  · next enough =>
      rw [UInt64.lt_iff_toNat_lt] at enough
      omega

/-- The two ways in which a request succeeds. -/
inductive Allocated (arena : Arena) (size align : UInt64) : Arena → ArenaRange → Prop where
  | inHead (fits : fitsHead arena size align = true) :
      Allocated arena size align
        { arena with
          head := { arena.head with
            data := fillRange arena.head.data (alignedUsed arena.used align).toNat size.toNat 0 }
          used := alignedUsed arena.used align + size }
        ⟨arena.earlier.length, alignedUsed arena.used align, size⟩
  | inNewBlock (block : HeapBlock)
      (limit : nextCapacity arena.head.capacity size ≤ sizeMax - sizeofArenaBlock) :
      Allocated arena size align
        ⟨arena.earlier ++ [arena.head],
          ⟨block.address, nextCapacity arena.head.capacity size,
            fillRange block.bytes 0 size.toNat 0⟩,
          size, arena.total + nextCapacity arena.head.capacity size⟩
        ⟨arena.earlier.length + 1, 0, size⟩

theorem allocated_of_some {Heap : Type} {malloc : SysMalloc Heap} {heap after_ : Heap}
    {next : Arena} {range : ArenaRange}
    (answer : arenaAlloc malloc arena size align heap = (some (next, range), after_)) :
    Allocated arena size align next range := by
  unfold arenaAlloc at answer
  dsimp only at answer
  split at answer
  · next fits =>
      obtain ⟨made, -⟩ := Prod.mk.inj answer
      obtain ⟨rfl, rfl⟩ := Prod.mk.inj (Option.some.inj made)
      exact .inHead fits
  · split at answer
    · exact absurd (Prod.mk.inj answer).1 (by simp)
    · next limit =>
        split at answer
        · exact absurd (Prod.mk.inj answer).1 (by simp)
        · next block _ _ =>
            obtain ⟨made, -⟩ := Prod.mk.inj answer
            obtain ⟨rfl, rfl⟩ := Prod.mk.inj (Option.some.inj made)
            exact .inNewBlock block (UInt64.not_lt.mp limit)

/-- No size computation of a request wraps. -/
theorem allocOps_exact (room : arena.used.toNat ≤ arena.head.capacity.toNat)
    (limit : arena.head.capacity.toNat ≤ (sizeMax - sizeofArenaBlock).toNat)
    (power : SmallPower align) : ∀ op ∈ allocOps arena size align, op.Exact := by
  have used : arena.used.toNat ≤ (sizeMax - sizeofArenaBlock).toNat := room.trans limit
  obtain ⟨rounded, positive, small⟩ := toNat_alignedUsed used power
  have bound : (sizeMax - sizeofArenaBlock).toNat = 2 ^ 64 - 17 := by decide
  have half : (sizeMax / 2).toNat = 2 ^ 63 - 1 := by decide
  have sum : (arena.used + align).toNat = arena.used.toNat + align.toNat := by
    rw [UInt64.toNat_add, Nat.mod_eq_of_lt (by omega)]
  intro op member
  rw [allocOps] at member
  simp only [List.mem_append, List.mem_cons, List.not_mem_nil, or_false] at member
  rcases member with ((rfl | rfl | rfl) | inTest) | inBlock
  · simp only [SizeOp.Exact]
    omega
  · simp only [SizeOp.Exact, sum, UInt64.toNat_one]
    omega
  · simp only [SizeOp.Exact, UInt64.toNat_one]
    exact positive
  · split at inTest
    · next starts =>
        obtain rfl := List.mem_singleton.mp inTest
        exact UInt64.le_iff_toNat_le.mp starts
    · contradiction
  · split at inBlock
    · next fits =>
        obtain rfl := List.mem_singleton.mp inBlock
        have inside := (fitsHead_iff used power).mp fits
        simp only [SizeOp.Exact, rounded]
        omega
    · simp only [List.mem_append, List.mem_cons] at inBlock
      rcases inBlock with doubled | rfl | inGrowth
      · split at doubled
        · next small =>
            obtain rfl := List.mem_singleton.mp doubled
            have below := UInt64.le_iff_toNat_le.mp small
            simp only [SizeOp.Exact, show (2 : UInt64).toNat = 2 from rfl]
            omega
        · contradiction
      · exact (by decide : sizeofArenaBlock.toNat ≤ sizeMax.toNat)
      · split at inGrowth
        · contradiction
        · next fits =>
            obtain rfl := List.mem_singleton.mp inGrowth
            have below := UInt64.le_iff_toNat_le.mp (UInt64.not_lt.mp fits)
            simp only [SizeOp.Exact, show sizeofArenaBlock.toNat = 16 from rfl]
            omega

theorem createOps_exact (initialSize : UInt64) : ∀ op ∈ createOps initialSize, op.Exact := by
  have bound : (sizeMax - sizeofArenaBlock).toNat = 2 ^ 64 - 17 := by decide
  intro op member
  unfold createOps at member
  generalize (if initialSize = 0 then arenaDefaultBlockSize else initialSize) = first at member
  rcases List.mem_cons.mp member with rfl | inGrowth
  · exact (by decide : sizeofArenaBlock.toNat ≤ sizeMax.toNat)
  · split at inGrowth
    · contradiction
    · next fits =>
        obtain rfl := List.mem_singleton.mp inGrowth
        have below := UInt64.le_iff_toNat_le.mp (UInt64.not_lt.mp fits)
        simp only [SizeOp.Exact, show sizeofArenaBlock.toNat = 16 from rfl]
        omega

end Requests

/-! ## One step -/

section Blocks

variable {arena next : Arena} {size align : UInt64} {range old first second : ArenaRange}

theorem getElem?_blocks_head (arena : Arena) :
    arena.blocks[arena.earlier.length]? = some arena.head := by
  rw [Arena.blocks, List.getElem?_append_right (Nat.le_refl _), Nat.sub_self]
  rfl

theorem getElem?_blocks_earlier {place : Nat} (earlier : place < arena.earlier.length) :
    arena.blocks[place]? = arena.earlier[place]? :=
  List.getElem?_append_left earlier

theorem block_le_of_inside (inside : range.Inside arena) :
    range.block ≤ arena.earlier.length := by
  obtain ⟨block, isBlock, -⟩ := inside
  have bound := (List.getElem?_eq_some_iff.mp isBlock).1
  rw [Arena.blocks, List.length_append, List.length_singleton] at bound
  omega

/-- A request leaves the ranges handed out before it, and what they hold. -/
theorem Allocated.keeps (allocated : Allocated arena size align next range)
    (room : arena.used.toNat ≤ (sizeMax - sizeofArenaBlock).toNat) (power : SmallPower align)
    (inside : old.Inside arena)
    (below : old.block = arena.earlier.length → old.stop ≤ arena.used.toNat) :
    old.Inside next ∧ next.read old = arena.read old ∧
      (old.block = next.earlier.length → old.stop ≤ next.used.toNat) ∧ old.Apart range := by
  have within := block_le_of_inside inside
  obtain ⟨rounded, positive, -⟩ := toNat_alignedUsed room power
  have above := @le_roundUp arena.used.toNat align.toNat positive
  cases allocated with
  | inHead fits =>
      rcases Nat.lt_or_eq_of_le within with earlier | isHead
      · have same : ∀ head used,
            ({ arena with head := head, used := used } : Arena).blocks[old.block]? =
              arena.blocks[old.block]? := fun head used =>
          (@getElem?_blocks_earlier { arena with head := head, used := used } _ earlier).trans
            (getElem?_blocks_earlier earlier).symm
        refine ⟨?_, ?_, fun isHead => absurd isHead (Nat.ne_of_lt earlier),
          fun isHead => absurd isHead (Nat.ne_of_lt earlier)⟩
        · obtain ⟨block, isBlock, fits⟩ := inside
          exact ⟨block, (same _ _).trans isBlock, fits⟩
        · rw [Arena.read, same, Arena.read]
      · have before := below isHead
        obtain ⟨block, isBlock, fitsBlock⟩ := inside
        rw [isHead, getElem?_blocks_head] at isBlock
        obtain rfl := Option.some.inj isBlock
        refine ⟨⟨_, (congrArg _ isHead).trans (getElem?_blocks_head _), fitsBlock⟩, ?_,
          fun _ => ?_, fun _ => .inl ?_⟩
        · rw [Arena.read, Arena.read, isHead, getElem?_blocks_head, getElem?_blocks_head]
          refine readRange_fillRange_of_apart (.inl ?_)
          rw [rounded]
          exact before.trans above
        · have inside := (fitsHead_iff room power).mp fits
          rw [UInt64.toNat_add, rounded, Nat.mod_eq_of_lt]
          · exact before.trans (above.trans (Nat.le_add_right _ _))
          · exact Nat.lt_of_le_of_lt inside arena.head.capacity.toNat_lt
        · rw [rounded]
          exact before.trans above
  | inNewBlock block limit =>
      have same : ∀ head used total,
          (⟨arena.earlier ++ [arena.head], head, used, total⟩ : Arena).blocks[old.block]? =
            arena.blocks[old.block]? := fun head used total => by
        rw [getElem?_blocks_earlier (by simpa using Nat.lt_succ_of_le within)]
        rfl
      have notNew : old.block ≠ (arena.earlier ++ [arena.head]).length := by
        rw [List.length_append, List.length_singleton]
        omega
      refine ⟨?_, ?_, fun isNew => absurd isNew notNew, fun isNew => ?_⟩
      · obtain ⟨kept, isBlock, fits⟩ := inside
        exact ⟨kept, (same _ _ _).trans isBlock, fits⟩
      · rw [Arena.read, same, Arena.read]
      · rw [List.length_append, List.length_singleton] at notNew
        exact absurd isNew notNew

/-- The range that a request is given. -/
theorem Allocated.gives (allocated : Allocated arena size align next range)
    (room : arena.used.toNat ≤ arena.head.capacity.toNat)
    (limit : arena.head.capacity.toNat ≤ (sizeMax - sizeofArenaBlock).toNat)
    (power : SmallPower align) :
    range.Answers (size, align) ∧ range.Inside next ∧
      next.read range = List.replicate size.toNat 0 ∧
      range.block = next.earlier.length ∧ range.stop = next.used.toNat ∧
      next.head.capacity.toNat ≤ (sizeMax - sizeofArenaBlock).toNat ∧
      next.used.toNat ≤ next.head.capacity.toNat := by
  have used := room.trans limit
  obtain ⟨rounded, positive, -⟩ := toNat_alignedUsed used power
  cases allocated with
  | inHead fits =>
      have inside := (fitsHead_iff used power).mp fits
      have stop : (alignedUsed arena.used align + size).toNat =
          (alignedUsed arena.used align).toNat + size.toNat := by
        rw [UInt64.toNat_add, rounded, Nat.mod_eq_of_lt]
        exact Nat.lt_of_le_of_lt inside arena.head.capacity.toNat_lt
      rw [← rounded] at inside
      refine ⟨⟨rfl, ?_⟩, ⟨_, getElem?_blocks_head _, inside⟩, ?_, rfl, stop.symm, limit,
        stop ▸ inside⟩
      · exact rounded ▸ roundUp_mod _ _
      · rw [Arena.read, getElem?_blocks_head]
        exact readRange_fillRange_self _ _ _ _
  | inNewBlock block capacity =>
      have enough := size_le_nextCapacity arena.head.capacity size
      have isHead : arena.earlier.length + 1 = (arena.earlier ++ [arena.head]).length := by
        rw [List.length_append, List.length_singleton]
      refine ⟨⟨rfl, Nat.zero_mod _⟩, ⟨_, (congrArg _ isHead).trans (getElem?_blocks_head _), ?_⟩, ?_,
        isHead, Nat.zero_add _, UInt64.le_iff_toNat_le.mp capacity, enough⟩
      · exact (Nat.zero_add _).trans_le enough
      · rw [Arena.read, isHead, getElem?_blocks_head]
        exact readRange_fillRange_self _ _ _ _

/-- A store touches one block. -/
theorem blocks_store (arena : Arena) {place : Nat} (offset : Nat) (byte : UInt8)
    (within : place ≤ arena.earlier.length) :
    (arena.store place offset byte).blocks =
      arena.blocks.modify place fun block =>
        { block with data := writeCell block.data offset byte } := by
  unfold Arena.store
  dsimp only
  refine List.ext_getElem? fun index => ?_
  split
  · next isHead =>
      subst isHead
      rw [List.getElem?_modify, Arena.blocks, Arena.blocks]
      grind
  · next other =>
      have earlier : place < arena.earlier.length := Nat.lt_of_le_of_ne within other
      rw [List.getElem?_modify, Arena.blocks, Arena.blocks]
      grind

theorem inside_store {place : Nat} (offset : Nat) (byte : UInt8)
    (within : place ≤ arena.earlier.length) (inside : range.Inside arena) :
    range.Inside (arena.store place offset byte) := by
  obtain ⟨block, isBlock, fits⟩ := inside
  rw [ArenaRange.Inside, blocks_store arena offset byte within, List.getElem?_modify, isBlock]
  exact ⟨_, rfl, by split <;> exact fits⟩

/-- A store into a range leaves the ranges that share no byte with it. -/
theorem read_store_of_apart {offset : Nat} (byte : UInt8) (inside : first.Inside arena)
    (stored : offset < first.size.toNat) (apart : first.Apart second) :
    (arena.store first.block (first.offset.toNat + offset) byte).read second =
      arena.read second := by
  rw [Arena.read, Arena.read, blocks_store arena _ byte (block_le_of_inside inside),
    List.getElem?_modify]
  cases arena.blocks[second.block]? with
  | none => rfl
  | some block =>
      dsimp only [Option.map_eq_map, Option.map_some]
      by_cases same : first.block = second.block
      · rw [if_pos same]
        refine readRange_writeCell_of_outside ?_
        have ordered := apart same
        unfold ArenaRange.stop at ordered
        omega
      · rw [if_neg same]

/-- A store into a range, read back. -/
theorem read_store_self {offset : Nat} (byte : UInt8) (inside : range.Inside arena) :
    (arena.store range.block (range.offset.toNat + offset) byte).read range =
      (arena.read range).set offset byte := by
  rw [Arena.read, Arena.read, blocks_store arena _ byte (block_le_of_inside inside),
    List.getElem?_modify]
  obtain ⟨block, isBlock, -⟩ := inside
  rw [isBlock]
  dsimp only [Option.map_eq_map, Option.map_some]
  rw [if_pos rfl]
  exact readRange_writeCell_of_inside

end Blocks

/-! ## Whole runs -/

/-- A request answered: one range more, of the size and the alignment asked for, all
zero, with the bytes of the others as they were. -/
structure HandedOut {Heap : Type} (before after_ : ArenaState Heap) (size align : UInt64) :
    Prop where
  answered : ∃ range, after_.ranges = before.ranges ++ [range] ∧ range.Answers (size, align) ∧
    after_.arena.read range = List.replicate size.toNat 0
  kept : ∀ old ∈ before.ranges, after_.arena.read old = before.arena.read old

section Steps

variable {Heap : Type} {malloc : SysMalloc Heap} {state next : ArenaState Heap}
  {size align : UInt64} {event : ArenaEvent}

theorem arenaStep_alloc (stepped : arenaStep malloc state (.alloc size align) = some next) :
    ∃ range, Allocated state.arena size align next.arena range ∧
      next.ranges = state.ranges ++ [range] := by
  unfold arenaStep at stepped
  dsimp only at stepped
  split at stepped
  · next arena range heap answer =>
      obtain rfl := Option.some.inj stepped
      exact ⟨range, allocated_of_some answer, rfl⟩
  · contradiction

theorem arenaStep_store {index offset : Nat} {byte : UInt8}
    (stepped : arenaStep malloc state (.store index offset byte) = some next) :
    ∃ range, state.ranges[index]? = some range ∧ offset < range.size.toNat ∧
      next = { state with
        arena := state.arena.store range.block (range.offset.toNat + offset) byte } := by
  unfold arenaStep at stepped
  dsimp only at stepped
  split at stepped
  · contradiction
  · next range isRange =>
      split at stepped
      · next inside => exact ⟨range, isRange, inside, (Option.some.inj stepped).symm⟩
      · contradiction

theorem ArenaState.Sound.afterAlloc (sound : state.Sound) (power : SmallPower align)
    (stepped : arenaStep malloc state (.alloc size align) = some next) :
    next.Sound ∧ HandedOut state next size align := by
  obtain ⟨range, allocated, isNext⟩ := arenaStep_alloc stepped
  have room := sound.used.trans sound.limit
  obtain ⟨answers, inside, zero, isHead, stop, limit, used⟩ :=
    allocated.gives sound.used sound.limit power
  have kept := fun old (member : old ∈ state.ranges) =>
    allocated.keeps room power (sound.inside old member) (sound.below old member)
  refine ⟨⟨limit, used, ?_, ?_, ?_⟩, ⟨range, isNext, answers, zero⟩,
    fun old member => (kept old member).2.1⟩
  · intro old member
    rw [isNext] at member
    rcases List.mem_append.mp member with earlier | isNew
    · exact (kept old earlier).1
    · exact List.mem_singleton.mp isNew ▸ inside
  · intro old member
    rw [isNext] at member
    rcases List.mem_append.mp member with earlier | isNew
    · exact (kept old earlier).2.2.1
    · rw [List.mem_singleton.mp isNew]
      exact fun _ => Nat.le_of_eq stop
  · rw [isNext]
    refine List.pairwise_append.mpr ⟨sound.apart, List.pairwise_singleton _ _, ?_⟩
    intro old member new isNew
    exact List.mem_singleton.mp isNew ▸ (kept old member).2.2.2

theorem ArenaState.Sound.afterStore {index offset : Nat} {byte : UInt8} (sound : state.Sound)
    (stepped : arenaStep malloc state (.store index offset byte) = some next) : next.Sound := by
  obtain ⟨range, isRange, inside, rfl⟩ := arenaStep_store stepped
  have within := block_le_of_inside (sound.inside range (List.mem_of_getElem? isRange))
  have isSame : ∀ place cell, (state.arena.store place cell byte).used = state.arena.used ∧
      (state.arena.store place cell byte).earlier.length = state.arena.earlier.length ∧
      (state.arena.store place cell byte).head.capacity = state.arena.head.capacity := by
    intro place cell
    unfold Arena.store
    dsimp only
    split
    · exact ⟨rfl, rfl, rfl⟩
    · exact ⟨rfl, List.length_modify _ _ _, rfl⟩
  obtain ⟨sameUsed, sameLength, sameCapacity⟩ := isSame range.block (range.offset.toNat + offset)
  refine ⟨?_, ?_, fun old member => inside_store _ _ within (sound.inside old member), ?_,
    sound.apart⟩
  · exact sameCapacity ▸ sound.limit
  · exact sameCapacity ▸ sameUsed ▸ sound.used
  · intro old member isHead
    rw [sameUsed]
    exact sound.below old member (isHead.trans sameLength)

theorem ArenaState.Sound.step (sound : state.Sound) (aligned : event.Aligned)
    (stepped : arenaStep malloc state event = some next) : next.Sound := by
  cases event with
  | alloc size align => exact (sound.afterAlloc aligned stepped).1
  | store index offset byte => exact sound.afterStore stepped

/-- What the ranges hold changes as separate arrays would. -/
theorem read_step (sound : state.Sound) (aligned : event.Aligned)
    (stepped : arenaStep malloc state event = some next) :
    next.ranges.map next.arena.read = arraysStep (state.ranges.map state.arena.read) event := by
  cases event with
  | alloc size align =>
      obtain ⟨-, ⟨range, isNext, -, zero⟩, kept⟩ := sound.afterAlloc aligned stepped
      rw [isNext, List.map_append, List.map_singleton, zero, List.map_congr_left kept]
      rfl
  | store index offset byte =>
      obtain ⟨range, isRange, inside, rfl⟩ := arenaStep_store stepped
      obtain ⟨bound, isRange⟩ := List.getElem?_eq_some_iff.mp isRange
      have member : range ∈ state.ranges := isRange ▸ List.getElem_mem bound
      dsimp only [arraysStep]
      refine List.ext_getElem (by simp) fun place isPlace _ => ?_
      rw [List.length_map] at isPlace
      rw [List.getElem_map, List.getElem_modify, List.getElem_map]
      by_cases same : index = place
      · subst same
        rw [if_pos rfl, isRange]
        exact read_store_self byte (sound.inside range member)
      · rw [if_neg same]
        refine read_store_of_apart byte (sound.inside range member) inside ?_
        have pairwise := List.pairwise_iff_getElem.mp sound.apart
        rcases Nat.lt_or_gt_of_ne same with before | after_
        · have ordered := pairwise index place bound isPlace before
          rwa [isRange] at ordered
        · have ordered := pairwise place index isPlace bound after_
          rw [isRange] at ordered
          exact fun isBlock => (ordered isBlock.symm).symm

theorem answers_step (sound : state.Sound) (aligned : event.Aligned)
    (stepped : arenaStep malloc state event = some next) {asked : List (UInt64 × UInt64)}
    (answered : List.Forall₂ ArenaRange.Answers asked state.ranges) :
    List.Forall₂ ArenaRange.Answers (asked ++ requests [event]) next.ranges := by
  cases event with
  | alloc size align =>
      obtain ⟨-, ⟨range, isNext, answers, -⟩, -⟩ := sound.afterAlloc aligned stepped
      rw [isNext]
      exact List.rel_append answered (.cons answers .nil)
  | store index offset byte =>
      obtain ⟨range, isRange, inside, rfl⟩ := arenaStep_store stepped
      exact (List.append_nil asked).symm ▸ answered

end Steps

/-- A state that a run may reach: sound, with a range for each request, which hold what
separate arrays would. -/
structure ArenaState.Reached {Heap : Type} (state : ArenaState Heap)
    (asked : List (UInt64 × UInt64)) (arrays : List (List UInt8)) : Prop where
  sound : state.Sound
  answers : List.Forall₂ ArenaRange.Answers asked state.ranges
  reads : state.ranges.map state.arena.read = arrays

section Runs

variable {Heap : Type} {malloc : SysMalloc Heap} {heap : Heap} {initialSize : UInt64}

theorem ArenaState.Reached.steps {events : List ArenaEvent}
    (aligned : ∀ event ∈ events, event.Aligned) {state last : ArenaState Heap}
    {asked : List (UInt64 × UInt64)} {arrays : List (List UInt8)}
    (reached : state.Reached asked arrays) (ran : arenaSteps malloc state events = some last) :
    last.Reached (asked ++ requests events) (events.foldl arraysStep arrays) := by
  induction events generalizing state asked arrays with
  | nil =>
      obtain rfl := Option.some.inj ran
      exact (List.append_nil asked).symm ▸ reached
  | cons event events inductionHypothesis =>
      obtain ⟨next, stepped, rest⟩ := Option.bind_eq_some_iff.mp ran
      have isAligned := aligned event List.mem_cons_self
      have split : asked ++ requests (event :: events) =
          (asked ++ requests [event]) ++ requests events := by
        rw [List.append_assoc, requests, requests, requests, ← List.filterMap_append]
        rfl
      rw [split]
      refine inductionHypothesis (fun later member => aligned later (List.mem_cons_of_mem _ member))
        ⟨reached.sound.step isAligned stepped,
          answers_step reached.sound isAligned stepped reached.answers, ?_⟩ rest
      exact (read_step reached.sound isAligned stepped).trans
        (congrArg (arraysStep · event) reached.reads)

theorem reached_of_create {arena : Arena} {after_ : Heap}
    (created : arenaCreate malloc initialSize heap = (some arena, after_)) :
    (⟨arena, [], after_⟩ : ArenaState Heap).Reached [] [] := by
  unfold arenaCreate at created
  generalize (if initialSize = 0 then arenaDefaultBlockSize else initialSize) = first at created
  dsimp only at created
  split at created
  · exact absurd (Prod.mk.inj created).1 (by simp)
  · next fits =>
      split at created
      · exact absurd (Prod.mk.inj created).1 (by simp)
      · obtain rfl := Option.some.inj (Prod.mk.inj created).1
        refine ⟨⟨UInt64.le_iff_toNat_le.mp (UInt64.not_lt.mp fits), Nat.zero_le _, ?_, ?_, .nil⟩,
          .nil, rfl⟩
        · exact fun range member => absurd member List.not_mem_nil
        · exact fun range member => absurd member List.not_mem_nil

theorem reached_of_run {events : List ArenaEvent} (aligned : ∀ event ∈ events, event.Aligned)
    {state : ArenaState Heap} (ran : arenaRun malloc initialSize heap events = some state) :
    state.Reached (requests events) (arraysAfter events) := by
  unfold arenaRun at ran
  split at ran
  · next arena after_ created =>
      have reached := (reached_of_create created).steps aligned ran
      rwa [List.nil_append] at reached
  · contradiction

end Runs

/-- What the arena promises at a state that a run reaches. -/
structure ArenaState.Promises {Heap : Type} (malloc : SysMalloc Heap) (state : ArenaState Heap)
    (events : List ArenaEvent) : Prop where
  answers : List.Forall₂ ArenaRange.Answers (requests events) state.ranges
  inside : ∀ range ∈ state.ranges, range.Inside state.arena
  apart : state.ranges.Pairwise ArenaRange.Apart
  reads : state.ranges.map state.arena.read = arraysAfter events
  used : state.arena.used ≤ state.arena.head.capacity
  noWrap : ∀ size align, SmallPower align → ∀ op ∈ allocOps state.arena size align, op.Exact
  next : ∀ size align next, SmallPower align →
    arenaStep malloc state (.alloc size align) = some next → HandedOut state next size align

/-- In every run whose requests the heap grants, the ranges are inside their blocks,
aligned, apart, zero when given and untouched by later requests; and no size wraps. -/
theorem arena_ranges_apart_and_zero {Heap : Type} (malloc : SysMalloc Heap) (initialSize : UInt64)
    (heap : Heap) (events : List ArenaEvent) (aligned : ∀ event ∈ events, event.Aligned)
    (state : ArenaState Heap) (ran : arenaRun malloc initialSize heap events = some state) :
    state.Promises malloc events ∧ ∀ op ∈ createOps initialSize, op.Exact := by
  have reached := reached_of_run aligned ran
  have sound := reached.sound
  refine ⟨⟨reached.answers, sound.inside, sound.apart, reached.reads,
    UInt64.le_iff_toNat_le.mpr sound.used, fun size align power => ?_, ?_⟩,
    createOps_exact initialSize⟩
  · exact allocOps_exact sound.used sound.limit power
  · exact fun size align next power stepped => (sound.afterAlloc power stepped).2

/-- A heap that grants every request, with bytes that are not zero. -/
def grantingHeap : SysMalloc Nat := fun heap _ => (some ⟨heap, fun _ => 0xAA⟩, heap + 1)

/-- Two blocks are added, one for a request larger than a doubled block. -/
def threeBlockRun : List ArenaEvent :=
  [.alloc 3 1, .store 0 1 7, .alloc 8 8, .alloc 5 4, .store 1 7 9, .alloc 100 16, .alloc 0 2]

theorem arena_ranges_apart_and_zero_threeBlocks :
    ((arenaRun grantingHeap 16 0 threeBlockRun).get (by decide +kernel)).Promises grantingHeap
        threeBlockRun ∧ ∀ op ∈ createOps 16, op.Exact :=
  arena_ranges_apart_and_zero grantingHeap 16 0 threeBlockRun
    (by
      have powers : SmallPower 1 ∧ SmallPower 2 ∧ SmallPower 4 ∧ SmallPower 8 ∧ SmallPower 16 :=
        ⟨⟨0, by decide⟩, ⟨1, by decide⟩, ⟨2, by decide⟩, ⟨3, by decide⟩, ⟨4, by decide⟩⟩
      simpa [threeBlockRun, ArenaEvent.Aligned] using
        ⟨powers.1, powers.2.2.2.1, powers.2.2.1, powers.2.2.2.2, powers.2.1⟩)
    _ (Option.some_get _).symm

end Nazm.Alloc
