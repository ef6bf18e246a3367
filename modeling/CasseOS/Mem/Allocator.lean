import CasseOS.Lib.CInt
import Mathlib.Logic.Function.Basic

/-! # The heap (`libc/mem.c`)

`aligned_alloc` serves a request from the first free block that is large enough
and otherwise carves it from the tail of `allocator_buffer`; `aligned_free`
pushes a block on the free list. The header of a block stands in the buffer,
before the memory handed out: its size at the header's address and the link of
the free list 8 bytes behind. Headers are aligned to 8 bytes, so memory is
modelled as a map from addresses to 64-bit words. -/

namespace CasseOS.Mem
open CInt

def allocatorSize : ℕ := 1024 * 512

/- `sizeof(AllocationHeader)`. -/
def headerSize : ℕ := 16

/- Where `allocator_buffer` is; the address behind it is still an address. -/
structure Buffer where
  base : ℕ
  fits : base + allocatorSize < 18446744073709551616

structure Heap where
  mem : ℕ → ℕ
  /-- `allocator_offset`. -/
  offset : ℕ
  /-- `free_list`; 0 is `NULL`. -/
  freeList : ℕ

/- `header->size`. -/
def Heap.size (hp : Heap) (header : ℕ) : ℕ := hp.mem header

/- `header->next_free`. -/
def Heap.nextFree (hp : Heap) (header : ℕ) : ℕ := hp.mem (header + 8)

def Heap.setSize (hp : Heap) (header size : ℕ) : Heap :=
  {hp with mem := Function.update hp.mem header size}

def Heap.setNextFree (hp : Heap) (header next : ℕ) : Heap :=
  {hp with mem := Function.update hp.mem (header + 8) next}

/-! ### The free list -/

/- What `current` points to: `free_list` or the link of a header. -/
inductive Link where
  | head
  | next (header : ℕ)

def Heap.read (hp : Heap) : Link → ℕ
  | .head => hp.freeList
  | .next header => hp.nextFree header

def Heap.write (hp : Heap) (link : Link) (header : ℕ) : Heap :=
  match link with
  | .head => {hp with freeList := header}
  | .next h => hp.setNextFree h header

/-- The search of `aligned_alloc` (`mem.c:76-100`): the link to the first block
of at least `totalSize` bytes, if there is one. -/
def findFit (hp : Heap) (totalSize : ℕ) : ℕ → Link → Option (Option Link)
  | 0, _ => none
  | fuel + 1, current =>
    if hp.read current = 0 then some none
    else if totalSize ≤ hp.size (hp.read current) then some (some current)
    else findFit hp totalSize fuel (.next (hp.read current))

/-! ### Allocation -/

/- `(address + (alignment - 1)) & ~(alignment - 1)`. -/
def alignUp (address alignment : ℕ) : ℕ :=
  u64 (address + (alignment - 1)) &&& (18446744073709551615 - (alignment - 1))

/-- A block of the free list is handed out (`mem.c:80-96`). -/
def takeFree (hp : Heap) (alignment : ℕ) (current : Link) : ℕ × Heap :=
  let header := hp.read current
  let hp := hp.write current (hp.nextFree header)
  let rawAddress := u64 (header + headerSize)
  let alignedAddress := alignUp rawAddress alignment
  let padding := u64 (alignedAddress + 18446744073709551616 - rawAddress)
  if 0 < padding then
    let newHeader := u64 (alignedAddress + 18446744073709551616 - headerSize)
    let size := u64 (hp.size header + 18446744073709551616 - padding)
    (u64 (newHeader + headerSize), hp.setSize newHeader size)
  else (rawAddress, hp)

/-- `header_padding` (`mem.c:106-109`). -/
def headerPadding (address alignment : ℕ) : ℕ :=
  let padding := (alignment - address % alignment) % alignment
  if padding < headerSize then u64 (padding + alignment) else padding

/-- A block is carved from the tail of the buffer (`mem.c:103-125`). -/
def carve (b : Buffer) (hp : Heap) (alignment totalSize : ℕ) : ℕ × Heap :=
  let address := u64 (b.base + hp.offset)
  let padding := headerPadding address alignment
  let header := u64 (address + padding)
  if allocatorSize < u64 (hp.offset + padding + totalSize) then (0, hp)
  else
    let hp := {hp with offset := u64 (hp.offset + padding + totalSize)}
    (u64 (header + headerSize), hp.setSize header totalSize)

/-- `aligned_alloc` (`mem.c:63-126`). -/
def alignedAlloc (b : Buffer) (fuel : ℕ) (hp : Heap) (alignment size : ℕ) : Option (ℕ × Heap) := do
  let alignment := if alignment < 8 then 8 else alignment
  if alignment &&& (alignment - 1) ≠ 0 then return (0, hp)
  let totalSize := u64 (size + headerSize)
  match ← findFit hp totalSize fuel .head with
  | some current => return takeFree hp alignment current
  | none => return carve b hp alignment totalSize

/-- `aligned_free` (`mem.c:128-139`). -/
def alignedFree (hp : Heap) (ptr : ℕ) : Heap :=
  if ptr = 0 then hp
  else
    let header := u64 (ptr + 18446744073709551616 - headerSize)
    {hp.setNextFree header hp.freeList with freeList := header}

end CasseOS.Mem
