import Aeglos.Library.Traced
import Aeglos.Kernel.Elf

/-!
# What the ELF loader reads

`load_elf` and `spawn_elf` of `process/elf.rs` as functions of the file, with a record of their
bounds checks and accesses.
-/

namespace Aeglos.Elf

open Traced

inductive ElfError where
  | tooShort
  | badMagic
  | not64Bit
  | wrongArch
  | badSegment
  deriving DecidableEq

def ElfError.asStr : ElfError → String
  | .tooShort => "ELF: file too short"
  | .badMagic => "ELF: bad magic"
  | .not64Bit => "ELF: not 64-bit"
  | .wrongArch => "ELF: wrong architecture (need AArch64)"
  | .badSegment => "ELF: bad PT_LOAD segment"

inductive Access where
  | sum (a b : Nat)
  | read (off len : Nat)
  deriving DecidableEq

/-- The addition does not wrap around; the access stays in a file of `size` bytes. -/
def Access.InBounds (size : Nat) : Access → Prop
  | .sum a b => a + b < 2 ^ 64
  | .read off len => off + len ≤ size

abbrev Scan := Traced Access

def addUsize (a b : Nat) : Scan Nat := do
  emit (.sum a b)
  return wrap64 (a + b)

def le (bytes : Bytes) (off len : Nat) : Scan Nat := do
  emit (.read off len)
  ofOption (field bytes off len)

def elfMagic : Nat := 0x464C457F
def elfClass64 : Nat := 2
def emAarch64 : Nat := 0xB7
def ptLoad : Nat := 1

def checkHeader (bytes : Bytes) : Scan (Option ElfError) := do
  if bytes.length < 64 then return some .tooShort
  else if (← le bytes 0 4) ≠ elfMagic then return some .badMagic
  else if (← le bytes 4 1) ≠ elfClass64 then return some .not64Bit
  else if (← le bytes 0x12 2) ≠ emAarch64 then return some .wrongArch
  else return none

structure PhTable where
  phoff : Nat
  phentsize : Nat
  phnum : Nat

def phTable (bytes : Bytes) : Scan PhTable := do
  return ⟨← le bytes 0x20 8, ← le bytes 0x36 2, ← le bytes 0x38 2⟩

/-- What the two loaders differ in: how many bytes of a program header they check for, whether
they read `p_flags`, and by how much they move the image. -/
structure Loader where
  need : Nat
  flags : Bool
  slide : Nat
  writable : Nat → Bool

def write (l : Loader) (va len : Nat) : Scan Unit :=
  if ∀ k < len, l.writable (wrap64 (va + k)) = true then pure () else fail

def copySegment (l : Loader) (p : Phdr) : Scan (Except ElfError (Option ProcSegment)) := do
  let dst := segmentDst l.slide p
  if p.filesz > 0 then
    emit (.read p.offset p.filesz)
    write l dst p.filesz
  if p.memsz > p.filesz then
    write l (dst + p.filesz) (p.memsz - p.filesz)
  return .ok (some ⟨wrap64 (p.vaddr + l.slide), p.memsz, true, p.flags % 2 == 1, false⟩)

def loadSegment (l : Loader) (bytes : Bytes) (p : Phdr) :
    Scan (Except ElfError (Option ProcSegment)) := do
  if p.memsz = 0 then return .ok none
  else if p.filesz > 0 then
    if (← addUsize p.offset p.filesz) > bytes.length then return .error .badSegment
    else copySegment l p
  else copySegment l p

def readPhdr (l : Loader) (bytes : Bytes) (ph : Nat) : Scan Phdr := do
  let flags ← if l.flags then le bytes (ph + 4) 4 else pure 0
  return ⟨flags, ← le bytes (ph + 8) 8, ← le bytes (ph + 0x10) 8, ← le bytes (ph + 0x20) 8,
    ← le bytes (ph + 0x28) 8⟩

def loadHeader (l : Loader) (bytes : Bytes) (t : PhTable) (i : Nat) :
    Scan (Except ElfError (Option ProcSegment)) := do
  let ph ← addUsize t.phoff (i * t.phentsize)
  if (← addUsize ph l.need) > bytes.length then return .error .tooShort
  else if (← le bytes ph 4) ≠ ptLoad then return .ok none
  else loadSegment l bytes (← readPhdr l bytes ph)

def loadHeaders (l : Loader) (bytes : Bytes) (t : PhTable) :
    List Nat → List ProcSegment → Scan (Except ElfError (List ProcSegment))
  | [], segs => return .ok segs
  | i :: is, segs => do
    match ← loadHeader l bytes t i with
    | .error e => return .error e
    | .ok none => loadHeaders l bytes t is segs
    | .ok (some seg) => loadHeaders l bytes t is (if segs.length < 16 then segs ++ [seg] else segs)

def loadElf (writable : Nat → Bool) (bytes : Bytes) : Scan (Except ElfError Nat) := do
  match ← checkHeader bytes with
  | some e => return .error e
  | none =>
    let entry ← le bytes 0x18 8
    let t ← phTable bytes
    match ← loadHeaders ⟨40, false, 0, writable⟩ bytes t (List.range t.phnum) [] with
    | .error e => return .error e
    | .ok _ => return .ok entry

def lowestVaddr (bytes : Bytes) (t : PhTable) : List Nat → Nat → Scan Nat
  | [], lowest => return lowest
  | i :: is, lowest => do
    let ph ← addUsize t.phoff (i * t.phentsize)
    if (← addUsize ph 48) > bytes.length then lowestVaddr bytes t is lowest
    else if (← le bytes ph 4) ≠ ptLoad then lowestVaddr bytes t is lowest
    else lowestVaddr bytes t is (min lowest (← le bytes (ph + 0x10) 8))

def aslrOffset (bytes : Bytes) (t : PhTable) (type random : Nat) : Scan Nat := do
  if type = etDyn then
    let lowest ← lowestVaddr bytes t (List.range t.phnum) (2 ^ 64 - 1)
    return if lowest = 2 ^ 64 - 1 then 0 else aslrSlide random lowest
  else return 0

def spawnElf (writable : Nat → Bool) (spawn : Nat → List ProcSegment → Option (Except String Nat))
    (random : Nat) (bytes : Bytes) : Scan (Except String Nat) := do
  match ← checkHeader bytes with
  | some e => return .error e.asStr
  | none =>
    let type ← le bytes 0x10 2
    let entry ← le bytes 0x18 8
    let t ← phTable bytes
    let slide ← aslrOffset bytes t type random
    match ← loadHeaders ⟨48, true, slide, writable⟩ bytes t (List.range t.phnum) [] with
    | .error e => return .error e.asStr
    | .ok segs => ofOption (spawn (wrap64 (entry + slide)) segs)

end Aeglos.Elf
