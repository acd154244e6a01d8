import Aeglos.Kernel.Page

/-!
# The bitmap of the page allocator

`memory/page.rs` down to the bytes of `BITMAP`, loop by loop.
-/

namespace Aeglos

/-- `MAX_PAGES`; an access of `BITMAP` beyond it panics. -/
def maxPages : Nat := (maxRamEnd - 0x40000000) / pageSize

def pageAlignUp (addr : Nat) : Nat := wrap64 (addr + (pageSize - 1)) / pageSize * pageSize

structure PageBitmap where
  bytes : Nat → BitVec 8
  pageBase : Nat
  numPages : Nat
  ramTop : Nat

def pageBit (i : Nat) : BitVec 8 := 1#8 <<< (i % 8)

namespace PageBitmap

def isFree (bytes : Nat → BitVec 8) (i : Nat) : Bool := bytes (i / 8) &&& pageBit i != 0

def markFree (bytes : Nat → BitVec 8) (i : Nat) : Nat → BitVec 8 :=
  Function.update bytes (i / 8) (bytes (i / 8) ||| pageBit i)

def markUsed (bytes : Nat → BitVec 8) (i : Nat) : Nat → BitVec 8 :=
  Function.update bytes (i / 8) (bytes (i / 8) &&& ~~~pageBit i)

/-- Mark the pages `0..num_pages` of the zeroed bitmap free. `none` stands for the panic of
an index beyond the bitmap, which also catches a RAM end below the kernel image. -/
def init (kernelEnd ramEnd : Nat) : Option PageBitmap :=
  let ramEnd := min ramEnd maxRamEnd
  let base := pageAlignUp kernelEnd
  let numPages := wrapSub ramEnd base / pageSize
  if numPages ≤ maxPages then
    some ⟨(List.range numPages).foldl markFree fun _ => 0, base, numPages, ramEnd⟩
  else none

def allocPages (b : PageBitmap) (count : Nat) : Option (Nat × PageBitmap) :=
  if count = 0 then none
  else (PageAllocator.scan (isFree b.bytes) count b.numPages 0 0 0).map fun startIdx =>
    (b.pageBase + startIdx * pageSize,
      { b with bytes := (List.range count).foldl (fun bytes k => markUsed bytes (startIdx + k)) b.bytes })

def freePage (b : PageBitmap) (addr : Nat) : PageBitmap :=
  if addr < b.pageBase ∨ addr ≥ b.ramTop then b
  else if addr % pageSize ≠ 0 then b
  else
    let index := (addr - b.pageBase) / pageSize
    if index < b.numPages then { b with bytes := markFree b.bytes index } else b

def releasePages (b : PageBitmap) (base count : Nat) : PageBitmap :=
  (List.range count).foldl (fun b i => b.freePage (base + i * pageSize)) b

def freePages (b : PageBitmap) : Nat := (List.range b.numPages).countP (isFree b.bytes)

end PageBitmap

end Aeglos
