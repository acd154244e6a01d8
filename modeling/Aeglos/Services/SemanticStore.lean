import Aeglos.Library.WriteLog
import Aeglos.Kernel.Page
import Aeglos.Kernel.Sector

/-!
# The semantic store

`semantic/src/store.rs`, `block_manager.rs` and `hash.rs`. Sectors are numbered from the beginning
of the region of the store on.
-/

namespace Aeglos.Semantic

open Sector

def fnvPrime : UInt64 := 0x1099511628211

def fnvBasis : UInt64 := 0xcbf29ce484222325

def fnv (buf : Bytes) : UInt64 := buf.foldl (fun hash byte => (hash ^^^ byte.toUInt64) * fnvPrime) fnvBasis

def hashBuf (buf : Bytes) : Bytes := [0, 1, 2, 3].flatMap fun i => toLe ((fnv buf + i) * fnvPrime).toNat 8

def totalBlocks : Nat := 20480
def superblockSector : Nat := 0
def superblockMagic : Bytes := [65, 69, 71, 76, 79, 83, 1, 0]
def indexStartSector : Nat := 1
def indexSectors : Nat := 100
def entriesPerSector : Nat := 8
def entrySize : Nat := 64
def dataStart : Nat := 101

structure Metadata where
  bytes : Bytes
  length_eq : bytes.length = 256

structure Embedding where
  bytes : Bytes
  length_eq : bytes.length = 1536

/-- The block manager and the disk. `written` are the writes that have been made; nothing reads it. -/
structure Store where
  nextFree : Nat
  disk : Nat → Sector
  written : List (Nat × Sector)

def Store.fresh (disk : Nat → Sector) : Store := ⟨dataStart, disk, []⟩

namespace Store

def readBlock (s : Store) (sector : Nat) : Sector := s.disk sector

def writeBlock (s : Store) (sector : Nat) (buf : Sector) : Store :=
  { s with disk := Function.update s.disk sector buf, written := s.written ++ [(sector, buf)] }

end Store

def superblock (next : Nat) : Sector := ((zero.patch 0 superblockMagic).patch 8 (toLe 1 4)).patch 12 (toLe next 8)

namespace Store

def flushSuperblock (s : Store) : Store := s.writeBlock superblockSector (superblock s.nextFree)

def init (s : Store) : Store :=
  let buf := s.readBlock superblockSector
  if buf.slice 0 8 = superblockMagic then
    let next := fromLe (buf.slice 12 8)
    { s with nextFree := if next ≥ dataStart ∧ next < totalBlocks then next else dataStart }
  else s.flushSuperblock

def allocate (s : Store) : Option Nat × Store :=
  let block := s.nextFree
  let s := { s with nextFree := wrap64 (block + 1) }
  if block ≥ totalBlocks then (none, s) else (some block, s.flushSuperblock)

end Store

structure IndexEntry where
  hash : Bytes
  sector : Nat
  len : Nat
  metadataSector : Nat
  vectorSector : Nat
deriving DecidableEq

def entryAt (buf : Sector) (off : Nat) : IndexEntry where
  hash := buf.slice off 32
  sector := fromLe (buf.slice (off + 32) 8)
  len := fromLe (buf.slice (off + 40) 8)
  metadataSector := fromLe (buf.slice (off + 48) 8)
  vectorSector := fromLe (buf.slice (off + 56) 8)

def putEntry (buf : Sector) (off : Nat) (e : IndexEntry) : Sector :=
  ((((buf.patch off e.hash).patch (off + 32) (toLe e.sector 8)).patch (off + 40) (toLe e.len 8)).patch
    (off + 48) (toLe e.metadataSector 8)).patch (off + 56) (toLe e.vectorSector 8)

def indexSlots : List (Nat × Nat) :=
  (List.range indexSectors).flatMap fun i => (List.range entriesPerSector).map fun j => (i, j)

def slotEntry (disk : Nat → Sector) (slot : Nat × Nat) : IndexEntry :=
  entryAt (disk (indexStartSector + slot.1)) (slot.2 * entrySize)

namespace Store

def lookupIndex (s : Store) (hash : Bytes) : Option (Nat × Nat) :=
  (indexSlots.find? fun slot => decide ((slotEntry s.disk slot).sector ≠ 0 ∧ (slotEntry s.disk slot).hash = hash)).map
    fun slot => ((slotEntry s.disk slot).sector, (slotEntry s.disk slot).len)

def writeIndex (s : Store) (e : IndexEntry) : Bool × Store :=
  match indexSlots.find? fun slot => decide ((slotEntry s.disk slot).sector = 0) with
  | some slot =>
    (true, s.writeBlock (indexStartSector + slot.1)
      (putEntry (s.readBlock (indexStartSector + slot.1)) (slot.2 * entrySize) e))
  | none => (false, s)

end Store

namespace Store

/-- The sector of the metadata, 0 without metadata; `none` when the disk is full. -/
def storeMetadata (s : Store) : Option Metadata → Option Nat × Store
  | none => (some 0, s)
  | some m =>
    match s.allocate with
    | (none, s) => (none, s)
    | (some sector, s) => (some sector, s.writeBlock sector (zero.patch 0 m.bytes))

def vectorBlock (v : Embedding) (k : Nat) : Sector := zero.patch 0 ((v.bytes.drop (512 * k)).take 512)

def storeVector (s : Store) : Option Embedding → Option Nat × Store
  | none => (some 0, s)
  | some v =>
    match s.allocate with
    | (none, s) => (none, s)
    | (some s1, s) =>
      match s.allocate with
      | (none, s) => (none, s)
      | (some s2, s) =>
        match s.allocate with
        | (none, s) => (none, s)
        | (some s3, s) =>
          (some s1, ((s.writeBlock s1 (vectorBlock v 0)).writeBlock s2 (vectorBlock v 1)).writeBlock s3 (vectorBlock v 2))

def storeFull (s : Store) (data : Bytes) (metadata : Option Metadata) (vector : Option Embedding) :
    Except String Bytes × Store :=
  let hash := hashBuf data
  if (s.lookupIndex hash).isSome then (.ok hash, s)
  else if data.length > 512 then (.error "Data too large for single block", s)
  else
    match s.allocate with
    | (none, s) => (.error "Disk full", s)
    | (some sector, s) =>
      match s.storeMetadata metadata with
      | (none, s) => (.error "Disk full (meta)", s)
      | (some metaSector, s) =>
        match s.storeVector vector with
        | (none, s) => (.error "Disk full (vec)", s)
        | (some vecSector, s) =>
          let s := s.writeBlock sector (zero.patch 0 data)
          let indexed := s.writeIndex ⟨hash, sector, data.length, metaSector, vecSector⟩
          (if indexed.1 then .ok hash else .error "Index full", indexed.2)

def store (s : Store) (data : Bytes) : Except String Bytes × Store := s.storeFull data none none

/-- `retrieve` into a buffer of `outLen` bytes. The outer `none` is the panic of a slice that reaches
over the end of a sector. -/
def retrieve (s : Store) (hash : Bytes) (outLen : Nat) : Option (Except String Bytes) :=
  match s.lookupIndex hash with
  | none => some (.error "Not found")
  | some (sector, len) =>
    if outLen < len then some (.error "Buffer too small")
    else if len > 512 then none
    else some (.ok ((s.readBlock sector).slice 0 len))

end Store

end Aeglos.Semantic
