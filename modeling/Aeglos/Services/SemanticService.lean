import Aeglos.Kernel.Files
import Aeglos.Library.Insertion
import Aeglos.Services.SemanticStore

/-!
# The message handlers of the semantic service

`semantic/src/lib.rs` with `query.rs` and the searches of `index.rs`. A handler returns the payload
of its reply and what it writes to memory.
-/

namespace Aeglos.Semantic

open Sector

structure Service where
  store : Store
  memory : Nat → UInt8

structure Handled where
  reply : Vector UInt8 32
  written : List (Nat × Bytes)
  store : Store

namespace Service

def bytesAt (svc : Service) (ptr len : Nat) : Bytes := (List.range len).map fun k => svc.memory (ptr + k)

end Service

def ramBase : Nat := 0x40000000
def ramEnd : Nat := 0x140000000
def kvaOffset : Nat := 0xFFFF000000000000

def validPtr (ptr len : Nat) : Bool :=
  let base := if ptr ≥ kvaOffset + ramBase then ptr - kvaOffset else ptr
  if base < ramBase ∨ base ≥ ramEnd then false
  else if base + len < 2 ^ 64 then decide (base + len ≤ ramEnd)
  else false

def maxResults : Nat := 8

def usedEntries (disk : Nat → Sector) : List IndexEntry :=
  (indexSlots.map (slotEntry disk)).filter fun e => decide (e.sector ≠ 0)

def contains (haystack needle : Bytes) : Bool :=
  if needle = [] ∨ needle.length > haystack.length then decide (needle = [])
  else (List.range (haystack.length - needle.length + 1)).any fun i => (haystack.drop i).take needle.length == needle

def searchKeyword (s : Store) (keyword : Bytes) : List Bytes :=
  if keyword = [] then []
  else (((usedEntries s.disk).filter fun e => decide (e.len ≠ 0 ∧ e.len ≤ 512) &&
    contains ((s.readBlock e.sector).slice 0 e.len) keyword).map IndexEntry.hash).take maxResults

def searchByTag (s : Store) (tag : Bytes) : List Bytes :=
  (((usedEntries s.disk).filter fun e => decide (e.metadataSector ≠ 0) &&
    contains (((s.readBlock e.metadataSector).slice 56 128).takeWhile (· ≠ 0)) tag).map IndexEntry.hash).take maxResults

section VectorSearch

variable {α : Type*} [LinearOrder α]

def maxVecResults : Nat := 8

structure VecResult (α : Type*) where
  hash : Bytes
  sector : Nat
  len : Nat
  similarity : α

def embeddingAt (s : Store) (vecSector : Nat) : Bytes :=
  (s.readBlock vecSector).slice 0 512 ++ (s.readBlock ((vecSector + 1) % 2 ^ 64)).slice 0 512 ++
    (s.readBlock ((vecSector + 2) % 2 ^ 64)).slice 0 512

def candidate (cosineSimilarity : Bytes → Option α) (threshold : α) (s : Store) (e : IndexEntry) : Option (VecResult α) :=
  if e.vectorSector = 0 then none
  else match cosineSimilarity (embeddingAt s e.vectorSector) with
    | some sim => if threshold ≤ sim then some ⟨e.hash, e.sector, e.len, sim⟩ else none
    | none => none

def addResult (results : List (VecResult α)) (c : VecResult α) : List (VecResult α) :=
  if results.length < maxVecResults then Insertion.bubbleUp VecResult.similarity (results ++ [c]) results.length
  else match results[maxVecResults - 1]? with
    | some weakest =>
      if weakest.similarity < c.similarity then
        Insertion.bubbleUp VecResult.similarity (results.set (maxVecResults - 1) c) (maxVecResults - 1)
      else results
    | none => results

def searchByVector (cosineSimilarity : Bytes → Option α) (threshold : α) (s : Store) : List (VecResult α) :=
  (usedEntries s.disk).foldl (fun results e => (candidate cosineSimilarity threshold s e).elim results (addResult results)) []

end VectorSearch

def resultWrites (ptr width : Nat) (results : List Bytes) : List (Nat × Bytes) :=
  results.zipIdx.map fun p => (ptr + p.2 * width, p.1)

def wordsReply (status count : Nat) : Vector UInt8 32 := payload (toLe status 8 ++ toLe count 8)

def hashReply (status : Nat) (hash : Bytes) : Vector UInt8 32 := payload (toLe status 8 ++ hash.take 24)

def handleStore (svc : Service) (msg : Message) : Handled :=
  if validPtr (msg.word 1) (msg.word 2) && validPtr (msg.word 3) 32 && decide (msg.word 2 > 0) then
    match svc.store.storeFull (svc.bytesAt (msg.word 1) (msg.word 2)) none none with
    | (.ok hash, s) => ⟨wordsReply 0 0, [(msg.word 3, hash)], s⟩
    | (.error _, s) => ⟨wordsReply 1 0, [], s⟩
  else ⟨wordsReply 2 0, [], svc.store⟩

/-- `none` is a panic of `retrieve`. -/
def handleRetrieve (svc : Service) (msg : Message) : Option Handled :=
  if validPtr (msg.word 1) 32 && validPtr (msg.word 2) (msg.word 3) then
    match svc.store.retrieve (svc.bytesAt (msg.word 1) 32) (msg.word 3) with
    | none => none
    | some (.ok blob) => some ⟨wordsReply 0 blob.length, [(msg.word 2, blob)], svc.store⟩
    | some (.error _) => some ⟨wordsReply 1 0, [], svc.store⟩
  else some ⟨wordsReply 2 0, [], svc.store⟩

def Service.metadataAt (svc : Service) (ptr : Nat) : Metadata := ⟨svc.bytesAt ptr 256, by simp [Service.bytesAt]⟩

def Service.embeddingAt (svc : Service) (ptr : Nat) : Embedding := ⟨svc.bytesAt ptr 1536, by simp [Service.bytesAt]⟩

def storedReply : Except String Bytes × Store → Handled
  | (.ok hash, s) => ⟨hashReply 0 hash, [], s⟩
  | (.error _, s) => ⟨hashReply 1 (List.replicate 32 0), [], s⟩

def handleStoreMeta (svc : Service) (msg : Message) : Handled :=
  if validPtr (msg.word 1) (msg.word 2) && decide (msg.word 2 > 0) then
    storedReply (svc.store.storeFull (svc.bytesAt (msg.word 1) (msg.word 2))
      (if validPtr (msg.word 3) 256 then some (svc.metadataAt (msg.word 3)) else none) none)
  else ⟨hashReply 2 (List.replicate 32 0), [], svc.store⟩

def handleStoreVec (svc : Service) (msg : Message) : Handled :=
  if validPtr (msg.word 1) (msg.word 2) && decide (msg.word 2 > 0) && validPtr (msg.word 3) 1536 then
    storedReply (svc.store.storeFull (svc.bytesAt (msg.word 1) (msg.word 2)) none (some (svc.embeddingAt (msg.word 3))))
  else ⟨hashReply 2 (List.replicate 32 0), [], svc.store⟩

def handleSearch (search : Store → Bytes → List Bytes) (svc : Service) (msg : Message) : Handled :=
  if validPtr (msg.word 1) (msg.word 2) && decide (msg.word 2 > 0) && validPtr (msg.word 3) 256 then
    let results := search svc.store (svc.bytesAt (msg.word 1) (msg.word 2))
    ⟨wordsReply 0 results.length, resultWrites (msg.word 3) 32 results, svc.store⟩
  else ⟨wordsReply 2 0, [], svc.store⟩

def handleSearchTag : Service → Message → Handled := handleSearch searchByTag

def handleQuery : Service → Message → Handled := handleSearch searchKeyword

def handleVectorSearch (search : Store → Embedding → Nat → List (Bytes × Bytes)) (svc : Service) (msg : Message) :
    Handled :=
  if validPtr (msg.word 1) 1536 && validPtr (msg.word 3) 320 then
    let results := search svc.store (svc.embeddingAt (msg.word 1)) (msg.word 2 % 2 ^ 32)
    ⟨wordsReply 0 results.length, resultWrites (msg.word 3) 40 (results.map fun r => r.1 ++ r.2), svc.store⟩
  else ⟨wordsReply 2 0, [], svc.store⟩

/-- One message of the main loop: nothing for an unknown operation, `none` for a panic. -/
def handle (search : Store → Embedding → Nat → List (Bytes × Bytes)) (svc : Service) (msg : Message) :
    Option (Option Handled) :=
  match msg.word 0 with
  | 100 => some (some (handleStore svc msg))
  | 101 => (handleRetrieve svc msg).map some
  | 102 => some (some (handleStoreMeta svc msg))
  | 103 => some (some (handleSearchTag svc msg))
  | 104 => some (some (handleQuery svc msg))
  | 105 => some (some (handleVectorSearch search svc msg))
  | 106 => some (some (handleStoreVec svc msg))
  | _ => some none

end Aeglos.Semantic
