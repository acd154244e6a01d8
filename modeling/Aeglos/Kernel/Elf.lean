import Aeglos.Kernel.Files

/-!
# The ELF loader

`spawn_elf` of `process/elf.rs`. The segments are copied to the high alias of their load address,
whatever that address is.
-/

namespace Aeglos

open Effects

namespace Elf

def field (bytes : Bytes) (off len : Nat) : Option Nat :=
  if off + len ≤ bytes.length then some (fromLe ((bytes.drop off).take len)) else none

structure Phdr where
  flags : Nat
  offset : Nat
  vaddr : Nat
  filesz : Nat
  memsz : Nat

/-- A program header at a file offset: `none` panics, `some none` is not a `PT_LOAD`. -/
def phdr (bytes : Bytes) (ph : Nat) : Option (Option Phdr) := do
  if (← field bytes ph 4) ≠ 1 then return none
  return some ⟨← field bytes (ph + 4) 4, ← field bytes (ph + 8) 8, ← field bytes (ph + 0x10) 8,
    ← field bytes (ph + 0x20) 8, ← field bytes (ph + 0x28) 8⟩

structure Header where
  type : Nat
  entry : Nat
  phoff : Nat
  phentsize : Nat
  phnum : Nat

def headerError (bytes : Bytes) : Option String :=
  if bytes.length < 64 then some "ELF: file too short"
  else if bytes.take 4 ≠ [0x7F, 0x45, 0x4C, 0x46] then some "ELF: bad magic"
  else if bytes.getD 4 0 ≠ 2 then some "ELF: not 64-bit"
  else if field bytes 0x12 2 ≠ some 0xB7 then some "ELF: wrong architecture (need AArch64)"
  else none

def header (bytes : Bytes) : Header :=
  let get := fun off len => (field bytes off len).getD 0
  ⟨get 0x10 2, get 0x18 8, get 0x20 8, get 0x36 2, get 0x38 2⟩

def phOffset (h : Header) (i : Nat) : Nat := wrap64 (h.phoff + i * h.phentsize)

def aslrBase : Nat := 0x48000000
def aslrSlots : Nat := (0x80000000 - 0x48000000) / 0x10000

def aslrSlide (random minVaddr : Nat) : Nat := wrapSub (aslrBase + random % aslrSlots * 0x10000) minVaddr

def minVaddr (bytes : Bytes) (h : Header) : List Nat → Nat → Option Nat
  | [], lowest => some lowest
  | i :: is, lowest =>
    let ph := phOffset h i
    if wrap64 (ph + 48) > bytes.length then minVaddr bytes h is lowest
    else match phdr bytes ph with
      | none => none
      | some none => minVaddr bytes h is lowest
      | some (some p) => minVaddr bytes h is (min lowest p.vaddr)

def etDyn : Nat := 3

def loadSlide (bytes : Bytes) (h : Header) (random : Nat) : Option Nat :=
  if h.type = etDyn then
    (minVaddr bytes h (List.range h.phnum) (2 ^ 64 - 1)).map fun lowest =>
      if lowest = 2 ^ 64 - 1 then 0 else aslrSlide random lowest
  else some 0

def segmentDst (slide : Nat) (p : Phdr) : Nat := wrap64 (wrap64 (p.vaddr + slide) + kernelVaOffset)

end Elf

namespace Call

open Elf

/-- The file contents of a segment. Past the end of the file this is whatever follows the
buffer, which is at `elfPtr`. -/
def segmentBytes (cpu : Cpu) (bytes : Bytes) (elfPtr off : Nat) : Nat → Call Bytes
  | 0 => return []
  | len + 1 => do
    let b ← if off < bytes.length then pure (bytes.getD off 0) else loadByte cpu (wrap64 (elfPtr + off))
    return b :: (← segmentBytes cpu bytes elfPtr (wrap64 (off + 1)) len)

def loadSegment (cpu : Cpu) (bytes : Bytes) (elfPtr slide : Nat) (p : Phdr) : Call Unit := do
  let dst := segmentDst slide p
  store cpu dst (← segmentBytes cpu bytes elfPtr p.offset p.filesz)
  if p.memsz > p.filesz then
    store cpu (wrap64 (dst + p.filesz)) (List.replicate (p.memsz - p.filesz) 0)

def loadSegments (cpu : Cpu) (bytes : Bytes) (elfPtr slide : Nat) (h : Header) :
    List Nat → List ProcSegment → Call (Except String (List ProcSegment))
  | [], segs => return .ok segs
  | i :: is, segs => do
    let ph := phOffset h i
    if wrap64 (ph + 48) > bytes.length then return .error "ELF: file too short"
    match phdr bytes ph with
    | none => stop
    | some none => loadSegments cpu bytes elfPtr slide h is segs
    | some (some p) =>
      if p.memsz = 0 then loadSegments cpu bytes elfPtr slide h is segs
      else if p.filesz > 0 ∧ wrap64 (p.offset + p.filesz) > bytes.length then
        return .error "ELF: bad PT_LOAD segment"
      else
        loadSegment cpu bytes elfPtr slide p
        let seg : ProcSegment := ⟨wrap64 (p.vaddr + slide), p.memsz, true, p.flags % 2 == 1, false⟩
        loadSegments cpu bytes elfPtr slide h is (if segs.length < 16 then segs ++ [seg] else segs)

def spawnElf (cpu : Cpu) (env : Env) (name bytes : Bytes) (caps : BitVec 64) :
    Call (Except String Nat) := do
  match headerError bytes with
  | some e => return .error e
  | none =>
    let h := header bytes
    match loadSlide bytes h env.random with
    | none => stop
    | some slide =>
      match ← loadSegments cpu bytes env.heapPtr slide h (List.range h.phnum) [] with
      | .error e => return .error e
      | .ok segs =>
        let entry := wrap64 (h.entry + slide)
        match ← sched (.spawnUserEntryWithSegs name entry caps segs)
            fun s => (s.spawnUserEntryWithSegs name entry caps segs).1 with
        | none => stop
        | some r => return r

end Call

end Aeglos
