import Aeglos.Kernel.Bytes
import Aeglos.Kernel.Task
import Aeglos.Library.ByteMemory

/-!
# The C interface of the kernel heap

`memory/heap.rs`. The header in front of a user pointer records the block, so that `c_free` can
give it back.
-/

namespace Aeglos.HeapShim

open ByteMemory

structure Block where
  addr : BitVec 64
  size : BitVec 64
  deriving DecidableEq

namespace Block

def top (b : Block) : Nat := b.addr.toNat + b.size.toNat

def Holds (b : Block) (x : BitVec 64) : Prop := b.addr.toNat ≤ x.toNat ∧ x.toNat < b.top

def Apart (b c : Block) : Prop := b.top ≤ c.addr.toNat ∨ c.top ≤ b.addr.toNat

instance (b c : Block) : Decidable (b.Apart c) :=
  inferInstanceAs (Decidable (b.top ≤ c.addr.toNat ∨ c.top ≤ b.addr.toNat))

end Block

/-- The memory, the blocks that the allocator has given out, and a record of the ranges
that the shim has read. -/
structure Heap where
  mem : Mem
  blocks : List Block
  reads : List (BitVec 64 × Nat)

def directMapEnd : Nat := physToVirt maxRamEnd

/-- `ALLOCATOR`: null, or a 16-aligned block of the size that was asked for. It keeps its
own records in memory that is in no block. -/
structure Allocator where
  alloc : Heap → BitVec 64 → BitVec 64 × Mem
  dealloc : Heap → Block → Mem
  aligned : ∀ h size, (alloc h size).1.toNat % 16 = 0
  fits : ∀ h size, (alloc h size).1 ≠ 0 → (alloc h size).1.toNat + size.toNat ≤ directMapEnd
  apart : ∀ h size, (alloc h size).1 ≠ 0 → ∀ b ∈ h.blocks, (Block.mk (alloc h size).1 size).Apart b
  alloc_keeps : ∀ h size, ∀ b ∈ h.blocks, ∀ x, b.Holds x → (alloc h size).2 x = h.mem x
  dealloc_keeps : ∀ h c, ∀ b ∈ h.blocks.erase c, ∀ x, b.Holds x → dealloc h c x = h.mem x

def headerSize : BitVec 64 := 32
def magic : BitVec 64 := 0xDEADBEEFCAFEBABE

def headerBytes (blockPtr layoutSize layoutAlign : BitVec 64) : Bytes :=
  toLe blockPtr.toNat 8 ++ (toLe layoutSize.toNat 8 ++ (toLe layoutAlign.toNat 8 ++ toLe magic.toNat 8))

def isPowerOfTwo (a : BitVec 64) : Bool := (List.range 64).any fun k => a == BitVec.twoPow 64 k

def minAlign (align : BitVec 64) : BitVec 64 := if align < 16 then 16 else align

def allocSize (size align : BitVec 64) : BitVec 64 := size + headerSize + align

def userAddr (block align : BitVec 64) : BitVec 64 := (block + headerSize + (align - 1)) &&& ~~~(align - 1)

section

variable (A : Allocator)

def cAlignedAlloc (size align : BitVec 64) (h : Heap) : BitVec 64 × Heap :=
  let align := minAlign align
  if !isPowerOfTwo align then (0, h)
  else
    let layoutSize := allocSize size align
    let block := (A.alloc h layoutSize).1
    let mem := (A.alloc h layoutSize).2
    if block = 0 then (0, { h with mem := mem })
    else
      let user := userAddr block align
      (user, { h with
        mem := store mem (user - headerSize) (headerBytes block layoutSize 16)
        blocks := ⟨block, layoutSize⟩ :: h.blocks })

def cMalloc (size : BitVec 64) (h : Heap) : BitVec 64 × Heap := cAlignedAlloc A size 16 h

def loadField (ptr : BitVec 64) (offset : Nat) (h : Heap) : BitVec 64 × Heap :=
  let a := ptr - headerSize + BitVec.ofNat 64 offset
  (BitVec.ofNat 64 (fromLe (window h.mem a 8)), { h with reads := h.reads ++ [(a, 8)] })

def cFree (ptr : BitVec 64) (h : Heap) : Heap :=
  if ptr = 0 then h
  else
    let (found, h) := loadField ptr 24 h
    if found ≠ magic then h
    else
      let (blockPtr, h) := loadField ptr 0 h
      let (size, h) := loadField ptr 8 h
      let (_, h) := loadField ptr 16 h
      { h with mem := A.dealloc h ⟨blockPtr, size⟩, blocks := h.blocks.erase ⟨blockPtr, size⟩ }

def copyBytes (src dst : BitVec 64) (n : Nat) (h : Heap) : Heap :=
  { h with mem := copy h.mem src dst n, reads := h.reads ++ [(src, n)] }

def cRealloc (ptr newSize : BitVec 64) (h : Heap) : BitVec 64 × Heap :=
  if ptr = 0 then cMalloc A newSize h
  else if newSize = 0 then (0, cFree A ptr h)
  else
    let (found, h) := loadField ptr 24 h
    if found ≠ magic then (0, h)
    else
      let (oldLayoutSize, h) := loadField ptr 8 h
      let copySize := oldLayoutSize - headerSize
      let (newPtr, h) := cMalloc A newSize h
      if newPtr = 0 then (newPtr, h)
      else
        let actualCopy := if copySize < newSize then copySize else newSize
        (newPtr, cFree A ptr (copyBytes ptr newPtr actualCopy.toNat h))

end

end Aeglos.HeapShim
