import Nazm.Library.CellMemory

/-!
The arena.

Owns the arena of `src/alloc/arena.c` over a heap that may refuse a request, the
ranges that it hands out with what the callers store into them, and which of its
size computations a request makes.

Does not own `arena_free`, which `Nazm.Api.Heap` runs, nor the heap itself.
-/

namespace Nazm.Alloc

open CellMemory

/-! ## Blocks and arenas -/

/-- What the heap answers to a request: an address, and whatever bytes lie there. -/
structure HeapBlock where
  address : Nat
  bytes : Nat → UInt8

/-- `nazm_sys_malloc` of a heap; `none` is the null pointer. -/
abbrev SysMalloc (Heap : Type) := Heap → UInt64 → Option HeapBlock × Heap

/-- `ArenaBlock`, with the address that the heap gave it. -/
structure ArenaBlock where
  address : Nat
  capacity : UInt64
  data : Nat → UInt8

/-- `Arena`: the blocks behind `head` are the chain of `prev`, oldest first. -/
structure Arena where
  earlier : List ArenaBlock
  head : ArenaBlock
  used : UInt64
  total : UInt64

/-- Every block of the chain, oldest first. -/
def Arena.blocks (arena : Arena) : List ArenaBlock := arena.earlier ++ [arena.head]

/-- The bytes that a pointer of `arena_alloc` is for: the place of its block in the
chain, and what lies in that block. -/
structure ArenaRange where
  block : Nat
  offset : UInt64
  size : UInt64
deriving DecidableEq

/-- `SIZE_MAX`. -/
def sizeMax : UInt64 := 18446744073709551615

/-- `sizeof(ArenaBlock)`. -/
def sizeofArenaBlock : UInt64 := 16

/-- `ARENA_DEFAULT_BLOCK_SIZE`. -/
def arenaDefaultBlockSize : UInt64 := 1024 * 1024

section Functions

variable {Heap : Type} (malloc : SysMalloc Heap)

/-- `arena_create_with_oom_handler`; `none` when it calls the handler. -/
def arenaCreate (initialSize : UInt64) (heap : Heap) : Option Arena × Heap :=
  let initialSize := if initialSize = 0 then arenaDefaultBlockSize else initialSize
  if sizeMax - sizeofArenaBlock < initialSize then (none, heap)
  else
    match malloc heap (sizeofArenaBlock + initialSize) with
    | (none, heap) => (none, heap)
    | (some block, heap) =>
        (some ⟨[], ⟨block.address, initialSize, block.bytes⟩, 0, initialSize⟩, heap)

/-- `used` aligned up to `align`. -/
def alignedUsed (used align : UInt64) : UInt64 := (used + align - 1) &&& ~~~(align - 1)

/-- The head block has room for a request. -/
def fitsHead (arena : Arena) (size align : UInt64) : Bool :=
  decide (alignedUsed arena.used align ≤ arena.head.capacity) &&
    decide (size ≤ arena.head.capacity - alignedUsed arena.used align)

/-- The capacity of the block that follows a block without room. -/
def nextCapacity (capacity size : UInt64) : UInt64 :=
  let cap := if capacity ≤ sizeMax / 2 then capacity * 2 else capacity
  if cap < size then size else cap

/-- `arena_alloc`; `none` when it calls the handler. -/
def arenaAlloc (arena : Arena) (size align : UInt64) (heap : Heap) :
    Option (Arena × ArenaRange) × Heap :=
  let aligned := alignedUsed arena.used align
  if fitsHead arena size align then
    let head := { arena.head with data := fillRange arena.head.data aligned.toNat size.toNat 0 }
    (some ({ arena with head := head, used := aligned + size },
      ⟨arena.earlier.length, aligned, size⟩), heap)
  else
    let cap := nextCapacity arena.head.capacity size
    if sizeMax - sizeofArenaBlock < cap then (none, heap)
    else
      match malloc heap (sizeofArenaBlock + cap) with
      | (none, heap) => (none, heap)
      | (some block, heap) =>
          let data := fillRange block.bytes 0 size.toNat 0
          (some (⟨arena.earlier ++ [arena.head], ⟨block.address, cap, data⟩, size,
              arena.total + cap⟩,
            ⟨arena.earlier.length + 1, 0, size⟩), heap)

end Functions

/-! ## What the callers see -/

namespace Arena

/-- The bytes of a range. -/
def read (arena : Arena) (range : ArenaRange) : List UInt8 :=
  match arena.blocks[range.block]? with
  | some block => readRange block.data range.offset.toNat range.size.toNat
  | none => []

/-- A store through a pointer into a block. -/
def store (arena : Arena) (place offset : Nat) (byte : UInt8) : Arena :=
  let write (block : ArenaBlock) : ArenaBlock :=
    { block with data := writeCell block.data offset byte }
  if place = arena.earlier.length then { arena with head := write arena.head }
  else { arena with earlier := arena.earlier.modify place write }

end Arena

end Nazm.Alloc
