import Aeglos.Library.Effects
import Aeglos.Kernel.Page
import Aeglos.Kernel.Sector

/-!
# The FAT32 driver

`fs/fat32.rs`. A computation stops when the Rust code panics; a chain of more than `chainLimit`
steps has a cycle, so that the loop never ends.
-/

namespace Aeglos

open Effects

structure OpenFile where
  used : Bool
  writable : Bool
  size : Nat
  startCluster : Nat
  curCluster : Nat
  curClusIdx : Nat
  offset : Nat
  dirLba : Nat
  dirEntryOff : Nat

def OpenFile.empty : OpenFile := ⟨false, false, 0, 0, 0, 0, 0, 0, 0⟩

abbrev cacheSlots : Nat := 16
abbrev maxOpen : Nat := 8

/-- The block device, the sector cache and the statics of the driver. Sectors from
`capacity` on do not exist. -/
structure Fat where
  present : Bool
  capacity : Nat
  disk : Nat → Sector
  ctag : Fin cacheSlots → Nat
  cdata : Fin cacheSlots → Sector
  ready : Bool
  bytesPerSec : Nat
  secsPerCluster : Nat
  fatStart : Nat
  dataStart : Nat
  rootCluster : Nat
  totalClusters : Nat
  freeHint : Nat
  openFiles : Fin maxOpen → OpenFile

abbrev FatM (α : Type) := Comp Fat α

namespace Fat

def emptyTag : Nat := 2 ^ 64 - 1

def wrap32 (n : Nat) : Nat := n % 2 ^ 32

def slotOf (lba : Nat) : Fin cacheSlots := Fin.ofNat cacheSlots lba

/-- `read_block` into a cache slot. A sector that does not exist leaves the buffer as it is. -/
def readBlock (lba : Nat) : FatM Unit := do
  if !(← get).present then stop
  modify fun f =>
    if lba < f.capacity then { f with cdata := Function.update f.cdata (slotOf lba) (f.disk lba) } else f

def writeBlock (lba : Nat) (data : Sector) : FatM Unit := do
  if !(← get).present then stop
  modify fun f => if lba < f.capacity then { f with disk := Function.update f.disk lba data } else f

def setTag (lba : Nat) : FatM Unit := modify fun f => { f with ctag := Function.update f.ctag (slotOf lba) lba }

def patchCached (lba off : Nat) (bytes : Bytes) : FatM Unit :=
  modify fun f => { f with
    cdata := Function.update f.cdata (slotOf lba) ((f.cdata (slotOf lba)).patch off bytes) }

def csec (lba : Nat) : FatM Sector := do
  if (← get).ctag (slotOf lba) ≠ lba then
    readBlock lba
    setTag lba
  return (← get).cdata (slotOf lba)

def writeThrough (lba : Nat) : FatM Unit := do
  writeBlock lba ((← get).cdata (slotOf lba))

def wsec (lba : Nat) (data : Sector) : FatM Unit := do
  modify fun f => { f with cdata := Function.update f.cdata (slotOf lba) data }
  setTag lba
  writeThrough lba

def cinval (lba : Nat) : FatM Unit :=
  modify fun f =>
    if f.ctag (slotOf lba) = lba then { f with ctag := Function.update f.ctag (slotOf lba) emptyTag } else f

def fatMask : Nat := 0x0FFFFFFF
def fatEoc : Nat := 0x0FFFFFFF
def fatFree : Nat := 0

def fatEntry (f : Fat) (cluster : Nat) : Nat × Nat :=
  (wrap64 (f.fatStart + cluster * 4 / f.bytesPerSec), cluster * 4 % f.bytesPerSec)

def fatGet (cluster : Nat) : FatM Nat := do
  let (lba, off) := (← get).fatEntry cluster
  return (← csec lba).u32at off &&& fatMask

def fatPut (cluster value : Nat) : FatM Unit := do
  let (lba, off) := (← get).fatEntry cluster
  let _ ← csec lba
  patchCached lba off (toLe (value &&& fatMask) 4)
  setTag lba
  writeThrough lba

def isEoc (v : Nat) : Bool := decide (v &&& fatMask ≥ 0x0FFFFFF8) || v &&& fatMask == 0

def clusterLba (f : Fat) (n : Nat) : Nat := wrap64 (f.dataStart + wrap64 (n + 2 ^ 64 - 2) * f.secsPerCluster)

def sectorLba (f : Fat) (n s : Nat) : Nat := wrap64 (f.clusterLba n + s)

def zeroCluster (c : Nat) : FatM Unit := do
  let f ← get
  (List.range f.secsPerCluster).forM fun s => do
    writeBlock (f.sectorLba c s) Sector.zero
    cinval (f.sectorLba c s)

def allocPass : Nat → Nat → FatM (Option Nat)
  | 0, _ => return none
  | left + 1, c => do
    if (← fatGet c) = fatFree then
      fatPut c fatEoc
      modify fun f => { f with freeHint := wrap32 (c + 1) }
      zeroCluster c
      return some c
    else allocPass left (c + 1)

def allocCluster : FatM Nat := do
  let start := (← get).freeHint
  let limit := wrap32 ((← get).totalClusters + 2)
  match ← allocPass (limit - start) start with
  | some c => return c
  | none =>
    match ← allocPass (start - 3) 3 with
    | some c => return c
    | none => return 0

/-- More steps than any chain without a cycle has, even if it is followed twice. -/
def chainLimit : Nat := 2 ^ 30

def init (partitionLba : Nat) : FatM Bool := do
  let sec ← csec partitionLba
  if sec.byteAt 510 ≠ 0x55 ∨ sec.byteAt 511 ≠ 0xAA then return false
  if sec.u16at 11 ≠ 512 then return false
  if sec.u16at 22 ≠ 0 ∨ sec.u16at 19 ≠ 0 then return false
  if sec.slice 82 5 ≠ ascii "FAT32" then return false
  let spc := (sec.byteAt 13).toNat
  let fatStart := wrap64 (partitionLba + sec.u16at 14)
  let dataStart := wrap64 (fatStart + (sec.byteAt 16).toNat * sec.u32at 36)
  -- a division by zero panics
  if spc = 0 then stop
  modify fun f => { f with
    ready := true, bytesPerSec := 512, secsPerCluster := spc, fatStart := fatStart
    dataStart := dataStart, rootCluster := sec.u32at 44, freeHint := 3
    totalClusters := wrap32 (sec.u32at 32 + 2 ^ 32 - wrap32 (dataStart + 2 ^ 64 - partitionLba)) / spc }
  return true

def shortName (raw : Bytes) : Bytes :=
  let padded := fun part : Bytes => (part.reverse.dropWhile fun b => b == 32).reverse
  let name := (padded (raw.take 8)).map toAsciiLowercase
  let ext := (padded ((raw.drop 8).take 3)).map toAsciiLowercase
  if ext = [] then name else name ++ 46 :: ext

structure Lfn where
  buf : Nat → UInt8
  len : Nat
  active : Bool

def Lfn.empty : Lfn := ⟨fun _ => 0, 0, false⟩

def lfnPositions : List Nat := [1, 3, 5, 7, 9, 14, 16, 18, 20, 22, 24, 28, 30]

def lfnChars (ent : Sector) (entryOff off : Nat) : List Nat → (Nat → UInt8) → Nat → (Nat → UInt8) × Nat
  | [], buf, n => (buf, n)
  | p :: ps, buf, n =>
    let lo := ent.byteAt (entryOff + p)
    let hi := ent.byteAt (entryOff + p + 1)
    if lo = 0xFF ∧ hi = 0xFF then (buf, n)
    else if lo = 0 ∧ hi = 0 then (buf, n)
    else if off + n < 255 then
      lfnChars ent entryOff off ps
        (Function.update buf (off + n) (if hi = 0 ∧ lo < 128 then lo else 63)) (n + 1)
    else lfnChars ent entryOff off ps buf n

def nameEq (a b : Bytes) : Bool := a.map toAsciiLowercase == b.map toAsciiLowercase

def attrVolumeId : Nat := 0x08
def attrDirectory : Nat := 0x10
def attrArchive : UInt8 := 0x20
def attrLongName : Nat := 0x0F

structure DirInfo where
  name : Bytes
  attr : Nat
  cluster : Nat
  size : Nat
  lba : Nat
  off : Nat

def DirInfo.isDir (d : DirInfo) : Bool := d.attr &&& attrDirectory != 0

inductive EntryStep where
  | finished
  | skip (lfn : Lfn)
  | entry (info : DirInfo)
  | panic

def lfnStep (sec : Sector) (off : Nat) (lfn : Lfn) : Lfn :=
  let first := (sec.byteAt off).toNat
  let seq := first &&& 0x1F
  let lfn := if first &&& 0x40 != 0 then ⟨fun _ => 0, 0, true⟩ else lfn
  if lfn.active && decide (seq ≥ 1) then
    let base := (seq - 1) * 13
    let (buf, added) := lfnChars sec off base lfnPositions lfn.buf 0
    { lfn with buf := buf, len := max lfn.len (base + added) }
  else lfn

def entryStep (sec : Sector) (lba off : Nat) (lfn : Lfn) : EntryStep :=
  let first := sec.byteAt off
  let attr := (sec.byteAt (off + 11)).toNat
  if first = 0 then .finished
  else if first = 0xE5 then .skip { lfn with active := false, len := 0 }
  else if attr = attrLongName then .skip (lfnStep sec off lfn)
  else if attr &&& attrVolumeId ≠ 0 then .skip { lfn with active := false }
  else if first = 46 then .skip { lfn with active := false }
  else if lfn.active && decide (lfn.len > 255) then .panic
  else
    let name := if lfn.active && decide (lfn.len > 0) then (List.range lfn.len).map lfn.buf
      else shortName (sec.slice off 11)
    .entry ⟨name, attr, sec.u16at (off + 20) * 65536 + sec.u16at (off + 26), sec.u32at (off + 28), lba, off⟩

section Scan

variable {α : Type} (cb : α → DirInfo → α × Bool)

inductive Scan (α : Type) where
  | more (lfn : Lfn) (acc : α)
  | finished (acc : α)

def scanSector (sec : Sector) (lba : Nat) : List Nat → Lfn → α → FatM (Scan α)
  | [], lfn, acc => return .more lfn acc
  | off :: offs, lfn, acc =>
    match entryStep sec lba off lfn with
    | .finished => return .finished acc
    | .skip lfn => scanSector sec lba offs lfn acc
    | .panic => stop
    | .entry info =>
      let (acc, done) := cb acc info
      if done then return .finished acc
      else scanSector sec lba offs { lfn with active := false, len := 0 } acc

def entryOffsets : List Nat := (List.range 16).map (32 * ·)

def scanSectors (cluster : Nat) : List Nat → Lfn → α → FatM (Scan α)
  | [], lfn, acc => return .more lfn acc
  | s :: ss, lfn, acc => do
    let lba := (← get).sectorLba cluster s
    match ← scanSector cb (← csec lba) lba entryOffsets lfn acc with
    | .finished acc => return .finished acc
    | .more lfn acc => scanSectors cluster ss lfn acc

def scanClusters : Nat → Nat → Lfn → α → FatM α
  | 0, _, _, _ => stop
  | fuel + 1, cluster, lfn, acc => do
    if cluster < 2 ∨ isEoc cluster then return acc
    match ← scanSectors cb cluster (List.range (← get).secsPerCluster) lfn acc with
    | .finished acc => return acc
    | .more lfn acc => scanClusters fuel (← fatGet cluster) lfn acc

def scanDir (dirCluster : Nat) (init : α) : FatM α := scanClusters cb chainLimit dirCluster .empty init

end Scan

def pathParts (path : Bytes) : List Bytes := (path.splitOn 47).filter (· ≠ [])

def lookup (dirCluster : Nat) (component : Bytes) : FatM (Option DirInfo) :=
  scanDir (fun found info => if nameEq info.name component then (some info, true) else (found, false))
    dirCluster none

/-- Walk the components. A file in the middle of a path is not followed, and the next
component is looked up in the same directory again. -/
def resolveParts : List Bytes → Nat → Option DirInfo → FatM (Option DirInfo)
  | [], _, result => return result
  | part :: parts, dirCluster, _ => do
    match ← lookup dirCluster part with
    | none => return none
    | some info => resolveParts parts (if info.isDir then info.cluster else dirCluster) (some info)

def resolve (path : Bytes) : FatM (Option DirInfo) := do
  let root := (← get).rootCluster
  if pathParts path = [] then return some ⟨[], attrDirectory, root, 0, 0, 0⟩
  resolveParts (pathParts path) root none

def freeFile (f : Fat) : Option (Fin maxOpen) := (List.finRange maxOpen).find? fun i => !(f.openFiles i).used

def setFile (fd : Fin maxOpen) (file : OpenFile) : FatM Unit :=
  modify fun f => { f with openFiles := Function.update f.openFiles fd file }

def allocFile (writable : Bool) (size cluster dirLba dirOff : Nat) : FatM (Option (Fin maxOpen)) := do
  match (← get).freeFile with
  | none => return none
  | some fd =>
    setFile fd ⟨true, writable, size, cluster, cluster, 0, 0, dirLba, dirOff⟩
    return some fd

def openRead (path : Bytes) : FatM (Option (Fin maxOpen)) := do
  if !(← get).ready then return none
  match ← resolve path with
  | none => return none
  | some info => if info.isDir then return none else allocFile false info.size info.cluster info.lba info.off

def freeChain : Nat → Nat → FatM Unit
  | 0, _ => stop
  | fuel + 1, c => do
    if isEoc c then return ()
    let next ← fatGet c
    fatPut c fatFree
    freeChain fuel next

def freeWholeChain : Nat → Nat → FatM Unit
  | 0, _ => stop
  | fuel + 1, c => do
    if isEoc c ∨ c < 2 then return ()
    let next ← fatGet c
    fatPut c fatFree
    freeWholeChain fuel next

def chainTail : Nat → Nat → FatM Nat
  | 0, _ => stop
  | fuel + 1, c => do
    if isEoc (← fatGet c) then return c
    chainTail fuel (← fatGet c)

def freeEntry (sec : Sector) : Option Nat :=
  entryOffsets.find? fun off => sec.byteAt off == 0 || sec.byteAt off == 0xE5

def findSlotSectors (cluster : Nat) : List Nat → FatM (Option (Nat × Nat))
  | [] => return none
  | s :: ss => do
    let lba := (← get).sectorLba cluster s
    match freeEntry (← csec lba) with
    | some off => return some (lba, off)
    | none => findSlotSectors cluster ss

def findSlot : Nat → Nat → FatM (Option (Nat × Nat))
  | 0, _ => stop
  | fuel + 1, cluster => do
    if cluster < 2 ∨ isEoc cluster then return none
    match ← findSlotSectors cluster (List.range (← get).secsPerCluster) with
    | some slot => return some slot
    | none => findSlot fuel (← fatGet cluster)

def writeEntry (lba off : Nat) (bytes : Bytes) : FatM Unit := do
  wsec lba ((← csec lba).patch off bytes)

def splitPath (path : Bytes) : Bytes × Bytes :=
  match rfind 47 path with
  | some i => (path.take (max i 1), trim (path.drop (i + 1)))
  | none => ([47], trim path)

def shortEntryName (fname : Bytes) : Bytes :=
  let (name, ext) := match rfind 46 fname with
    | some i => (fname.take i, fname.drop (i + 1))
    | none => (fname, [])
  let field := fun (part : Bytes) (width : Nat) =>
    (part.take width).map toAsciiUppercase ++ List.replicate (width - part.length) 32
  field name 8 ++ field ext 3

def zeros (n : Nat) : Bytes := List.replicate n 0

/-- The entry that `create` writes: the cluster number has its high byte first. -/
def createdEntry (fname : Bytes) (cluster : Nat) : Bytes :=
  shortEntryName fname ++ [attrArchive] ++ zeros 8 ++
    [UInt8.ofNat (cluster / 2 ^ 24), UInt8.ofNat (cluster / 2 ^ 16)] ++ zeros 4 ++
    [UInt8.ofNat (cluster / 2 ^ 8), UInt8.ofNat cluster] ++ zeros 4

def parentCluster (parent : Bytes) : FatM (Option Nat) := do
  if parent = [47] ∨ parent = [] then return some (← get).rootCluster
  match ← resolve parent with
  | none => return none
  | some info => return if info.isDir then some info.cluster else none

def slotOrExtend (parent newCluster : Nat) : FatM (Option (Nat × Nat)) := do
  match ← findSlot chainLimit parent with
  | some slot => return some slot
  | none =>
    let dirCluster ← allocCluster
    if dirCluster = 0 then
      fatPut newCluster fatFree
      return none
    fatPut (← chainTail chainLimit parent) dirCluster
    return some ((← get).clusterLba dirCluster, 0)

def create (path : Bytes) : FatM (Option (Fin maxOpen)) := do
  if !(← get).ready then return none
  let (parent, fname) := splitPath path
  if fname = [] ∨ fname.length > 11 then return none
  match ← parentCluster parent with
  | none => return none
  | some dir =>
    let newCluster ← allocCluster
    if newCluster = 0 then return none
    match ← slotOrExtend dir newCluster with
    | none => return none
    | some (lba, off) =>
      writeEntry lba off (createdEntry fname newCluster)
      allocFile true 0 newCluster lba off

/-- Open for writing: an existing file is truncated to its first cluster. -/
def openWrite (path : Bytes) : FatM (Option (Fin maxOpen)) := do
  if !(← get).ready then return none
  match ← resolve path with
  | none => create path
  | some info =>
    if info.isDir then return none
    freeChain chainLimit (← fatGet info.cluster)
    fatPut info.cluster fatEoc
    writeEntry info.lba (info.off + 28) (zeros 4)
    allocFile true 0 info.cluster info.lba info.off

def file (f : Fat) (fd : Nat) : Option (Fin maxOpen) :=
  if h : fd < maxOpen then if (f.openFiles ⟨fd, h⟩).used then some ⟨fd, h⟩ else none else none

def modifyFile (fd : Fin maxOpen) (g : OpenFile → OpenFile) : FatM Unit :=
  modify fun f => { f with openFiles := Function.update f.openFiles fd (g (f.openFiles fd)) }

def clusterBytes (f : Fat) : Nat := f.secsPerCluster * sectorSize

def filePosition (f : Fat) (file : OpenFile) : Nat × Nat :=
  let inCluster := file.offset % f.clusterBytes
  (wrap64 (f.clusterLba file.curCluster + inCluster / sectorSize), inCluster % sectorSize)

def readLoop (fd : Fin maxOpen) : Nat → Nat → FatM Bytes
  | 0, _ => return []
  | fuel + 1, want => do
    let f ← get
    let file := f.openFiles fd
    if want = 0 then return []
    if file.curCluster < 2 ∨ isEoc file.curCluster then return []
    let (lba, inSector) := f.filePosition file
    let sec ← csec lba
    let chunk := min want (sectorSize - inSector)
    modifyFile fd fun file => { file with offset := wrap32 (file.offset + chunk) }
    if wrap32 (file.offset + chunk) % f.clusterBytes = 0 ∧ chunk < want then
      let next ← fatGet file.curCluster
      modifyFile fd fun file =>
        { file with curCluster := next, curClusIdx := wrap32 (file.curClusIdx + 1) }
    return sec.slice inSector chunk ++ (← readLoop fd fuel (want - chunk))

def read (fd len : Nat) : FatM (Option Bytes) := do
  match (← get).file fd with
  | none => return none
  | some fd =>
    let file := (← get).openFiles fd
    let want := min len (file.size - file.offset)
    return some (← readLoop fd want want)

def ensureCluster (fd : Fin maxOpen) : FatM Bool := do
  let file := (← get).openFiles fd
  if isEoc file.curCluster ∨ file.curCluster < 2 then
    let newC ← allocCluster
    if newC = 0 then return false
    if file.startCluster < 2 then
      modifyFile fd fun file => { file with startCluster := newC, curCluster := newC }
    else
      fatPut (← chainTail chainLimit file.startCluster) newC
      modifyFile fd fun file => { file with curCluster := newC }
  return true

def writeChunk (fd : Fin maxOpen) (lba inSector : Nat) (chunk : Bytes) : FatM Unit := do
  let _ ← csec lba
  patchCached lba inSector chunk
  setTag lba
  writeThrough lba
  modifyFile fd fun file =>
    let offset := wrap32 (file.offset + chunk.length)
    { file with offset := offset, size := max file.size offset }
  let f ← get
  let file := f.openFiles fd
  if file.offset % f.clusterBytes = 0 then
    let next ← fatGet file.curCluster
    if !isEoc next then
      modifyFile fd fun file =>
        { file with curCluster := next, curClusIdx := wrap32 (file.curClusIdx + 1) }

def writeLoop (fd : Fin maxOpen) : Nat → Bytes → FatM Nat
  | 0, _ => return 0
  | fuel + 1, buf => do
    if buf = [] then return 0
    if !(← ensureCluster fd) then return 0
    let f ← get
    let (lba, inSector) := f.filePosition (f.openFiles fd)
    let chunk := buf.take (sectorSize - inSector)
    writeChunk fd lba inSector chunk
    return chunk.length + (← writeLoop fd fuel (buf.drop chunk.length))

def flushSize (file : OpenFile) : FatM Unit := do
  if file.dirLba ≠ 0 then
    let _ ← csec file.dirLba
    patchCached file.dirLba (file.dirEntryOff + 28) (toLe file.size 4)
    writeThrough file.dirLba

def write (fd : Nat) (buf : Bytes) : FatM (Option Nat) := do
  match (← get).file fd with
  | none => return none
  | some fd =>
    if !((← get).openFiles fd).writable then return none
    let done ← writeLoop fd buf.length buf
    flushSize ((← get).openFiles fd)
    return some done

def close (fd : Nat) : FatM Unit := do
  match (← get).file fd with
  | none => return ()
  | some fd =>
    if ((← get).openFiles fd).writable then flushSize ((← get).openFiles fd)
    setFile fd .empty

def seekLoop : Nat → Nat → Nat → Nat → FatM (Nat × Nat)
  | 0, _, c, idx => return (c, idx)
  | fuel + 1, target, c, idx => do
    if idx < target ∧ !isEoc c then seekLoop fuel target (← fatGet c) (idx + 1)
    else return (c, idx)

def seek (fd offset : Nat) : FatM Bool := do
  match (← get).file fd with
  | none => return false
  | some fd =>
    let f ← get
    let file := f.openFiles fd
    if offset > file.size then return false
    let target := offset / f.clusterBytes
    let (c, idx) ← if target ≥ file.curClusIdx then
        seekLoop (target - file.curClusIdx) target file.curCluster file.curClusIdx
      else seekLoop target target file.startCluster 0
    modifyFile fd fun file => { file with curCluster := c, curClusIdx := idx, offset := offset }
    return true

def readdir (path : Bytes) (max : Nat) : FatM (List DirInfo) := do
  if !(← get).ready then return []
  let collect := fun (acc : List DirInfo) info =>
    if acc.length ≥ max then (acc, true) else (acc ++ [info], false)
  if path = [47] ∨ path = [] then scanDir collect (← get).rootCluster []
  else match ← resolve path with
    | some info => if info.isDir then scanDir collect info.cluster [] else return []
    | none => return []

def removeFile (info : DirInfo) : FatM Unit := do
  freeWholeChain chainLimit info.cluster
  writeEntry info.lba info.off [0xE5]

def unlink (path : Bytes) : FatM Bool := do
  if !(← get).ready then return false
  match ← resolve path with
  | none => return false
  | some info =>
    if info.isDir then return false
    removeFile info
    return true

def renamedEntry (fname : Bytes) (cluster size : Nat) : Bytes :=
  shortEntryName fname ++ [attrArchive] ++ zeros 8 ++ toLe (cluster / 2 ^ 16) 2 ++ zeros 4 ++
    toLe cluster 2 ++ toLe size 4

def rename (src dst : Bytes) : FatM Bool := do
  if !(← get).ready then return false
  match ← resolve src with
  | none => return false
  | some source =>
    if source.isDir then return false
    let (parentSrc, _) := splitPath src
    let (parentDst, fname) := splitPath dst
    if !nameEq parentSrc parentDst then return false
    if fname = [] ∨ fname.length > 11 then return false
    match ← resolve dst with
    | some target => if !target.isDir then removeFile target
    | none => pure ()
    match ← parentCluster parentSrc with
    | none => return false
    | some dir =>
      match ← findSlot chainLimit dir with
      | none => return false
      | some (lba, off) =>
        writeEntry lba off (renamedEntry fname source.cluster source.size)
        writeEntry source.lba source.off [0xE5]
        return true

def readFileAlloc (path : Bytes) (allocOk : Bool) : FatM (Option Bytes) := do
  if !(← get).ready then return none
  match ← openRead path with
  | none => return none
  | some fd =>
    let size := ((← get).openFiles fd).size
    if size = 0 ∨ !allocOk then
      close fd.val
      return none
    let data ← read fd.val size
    close fd.val
    return data

end Fat

inductive FatOp where
  | init (partitionLba : Nat)
  | openRead (path : Bytes)
  | openWrite (path : Bytes)
  | create (path : Bytes)
  | read (fd len : Nat)
  | write (fd : Nat) (buf : Bytes)
  | close (fd : Nat)
  | seek (fd offset : Nat)
  | readdir (path : Bytes) (max : Nat)
  | unlink (path : Bytes)
  | rename (src dst : Bytes)
  | readFileAlloc (path : Bytes) (allocOk : Bool)

def Fat.perform (f : Fat) : FatOp → Fat
  | .init partitionLba => after (Fat.init partitionLba) f
  | .openRead path => after (Fat.openRead path) f
  | .openWrite path => after (Fat.openWrite path) f
  | .create path => after (Fat.create path) f
  | .read fd len => after (Fat.read fd len) f
  | .write fd buf => after (Fat.write fd buf) f
  | .close fd => after (Fat.close fd) f
  | .seek fd offset => after (Fat.seek fd offset) f
  | .readdir path max => after (Fat.readdir path max) f
  | .unlink path => after (Fat.unlink path) f
  | .rename src dst => after (Fat.rename src dst) f
  | .readFileAlloc path allocOk => after (Fat.readFileAlloc path allocOk) f

end Aeglos
