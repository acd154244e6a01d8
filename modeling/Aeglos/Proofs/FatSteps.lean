import Aeglos.Kernel.Fat32

/-!
# What the operations of the FAT32 driver are made of

Every operation is made of a few steps on sectors, the cache and the tables of the driver.
-/

namespace Aeglos.Fat

open Effects

def patchSector (lba off : Nat) (bytes : Bytes) : FatM Unit := do
  let _ ← csec lba
  patchCached lba off bytes
  setTag lba
  writeThrough lba

def patchLoaded (lba off : Nat) (bytes : Bytes) : FatM Unit := do
  let _ ← csec lba
  patchCached lba off bytes
  writeThrough lba

def wipeSector (lba : Nat) : FatM Unit := do
  writeBlock lba Sector.zero
  cinval lba

def advance (fd : Fin maxOpen) (n : Nat) : FatM Unit := do
  modifyFile fd fun file =>
    let offset := wrap32 (file.offset + n)
    { file with offset := offset, size := max file.size offset }
  let f ← get
  let file := f.openFiles fd
  if file.offset % f.clusterBytes = 0 then
    let next ← fatGet file.curCluster
    if !isEoc next then
      modifyFile fd fun file =>
        { file with curCluster := next, curClusIdx := wrap32 (file.curClusIdx + 1) }

lemma writeChunk_eq (fd : Fin maxOpen) (lba inSector : Nat) (chunk : Bytes) :
    writeChunk fd lba inSector chunk = (patchSector lba inSector chunk >>= fun _ => advance fd chunk.length) := by
  unfold writeChunk patchSector
  simp only [bind_assoc]
  rfl

def moveEntry (parentSrc fname : Bytes) (source : DirInfo) : FatM Bool := do
  match ← parentCluster parentSrc with
  | none => return false
  | some dir =>
    match ← findSlot chainLimit dir with
    | none => return false
    | some (lba, off) =>
      writeEntry lba off (renamedEntry fname source.cluster source.size)
      writeEntry source.lba source.off [0xE5]
      return true

structure Reads (R : Fat → Fat → Prop) : Prop where
  csec : ∀ lba, Within R (csec lba)

structure Driven (R : Fat → Fat → Prop) : Prop extends Reads R where
  patchSector : ∀ lba off bytes, Within R (patchSector lba off bytes)
  patchLoaded : ∀ lba off bytes, Within R (patchLoaded lba off bytes)
  writeEntry : ∀ lba off bytes, Within R (writeEntry lba off bytes)
  wipeSector : ∀ lba, Within R (wipeSector lba)
  files : ∀ f files, R f { f with openFiles := files }
  hint : ∀ f n, R f { f with freeHint := n }
  mount : ∀ (f : Fat) ready bytesPerSec secsPerCluster fatStart dataStart rootCluster freeHint totalClusters,
    R f { f with
      ready := ready, bytesPerSec := bytesPerSec, secsPerCluster := secsPerCluster, fatStart := fatStart
      dataStart := dataStart, rootCluster := rootCluster, freeHint := freeHint
      totalClusters := totalClusters }

attribute [grind ←] Reads.csec Driven.patchSector Driven.patchLoaded Driven.writeEntry Driven.wipeSector
attribute [grind →] Driven.toReads

namespace Reads

variable {R : Fat → Fat → Prop} (h : Reads R)

include h

@[grind ←] lemma fatGet (cluster : Nat) : Within R (fatGet cluster) := by
  grind [Fat.fatGet]

section Scan

variable {α : Type} (cb : α → DirInfo → α × Bool)

omit h in
@[grind .] lemma scanSector (sec : Sector) (lba : Nat) (offs : List Nat) (lfn : Lfn) (acc : α) :
    Within R (scanSector cb sec lba offs lfn acc) := by
  induction offs generalizing lfn acc with grind [Fat.scanSector]

@[grind ←] lemma scanSectors (cluster : Nat) (ss : List Nat) (lfn : Lfn) (acc : α) :
    Within R (scanSectors cb cluster ss lfn acc) := by
  induction ss generalizing lfn acc with grind [Fat.scanSectors]

lemma scanClusters (fuel cluster : Nat) (lfn : Lfn) (acc : α) :
    Within R (scanClusters cb fuel cluster lfn acc) := by
  induction fuel generalizing cluster lfn acc with grind [Fat.scanClusters]

@[grind ←] lemma scanDir (dirCluster : Nat) (acc : α) : Within R (scanDir cb dirCluster acc) :=
  h.scanClusters cb _ _ _ _

end Scan

lemma resolveParts (parts : List Bytes) (dirCluster : Nat) (found : Option DirInfo) :
    Within R (resolveParts parts dirCluster found) := by
  induction parts generalizing dirCluster found with grind [Fat.resolveParts, Fat.lookup]

@[grind ←] lemma resolve (path : Bytes) : Within R (resolve path) := by
  grind [Fat.resolve, h.resolveParts]

@[grind ←] lemma chainTail (fuel c : Nat) : Within R (chainTail fuel c) := by
  induction fuel generalizing c with grind [Fat.chainTail]

@[grind ←] lemma findSlotSectors (cluster : Nat) (ss : List Nat) : Within R (findSlotSectors cluster ss) := by
  induction ss with grind [Fat.findSlotSectors]

@[grind ←] lemma findSlot (fuel cluster : Nat) : Within R (findSlot fuel cluster) := by
  induction fuel generalizing cluster with grind [Fat.findSlot]

@[grind ←] lemma parentCluster (parent : Bytes) : Within R (parentCluster parent) := by
  grind [Fat.parentCluster]

@[grind ←] lemma seekLoop (fuel target c idx : Nat) : Within R (seekLoop fuel target c idx) := by
  induction fuel generalizing c idx with grind [Fat.seekLoop]

end Reads

namespace Driven

variable {R : Fat → Fat → Prop} (h : Driven R)

include h

@[grind ←] lemma fatPut (cluster value : Nat) : Within R (fatPut cluster value) :=
  within_bind within_get fun _ => h.patchSector _ _ _

@[grind ←] lemma zeroCluster (c : Nat) : Within R (zeroCluster c) :=
  within_bind within_get fun _ => within_forM fun _ _ => h.wipeSector _

lemma allocPass (left c : Nat) : Within R (allocPass left c) := by
  induction left generalizing c with
  | zero => exact within_pure _
  | succ left ih =>
    unfold Fat.allocPass
    refine within_bind (h.fatGet c) fun v => within_ite ?_ (ih _)
    refine within_bind (h.fatPut c _) fun _ => within_bind (within_modify fun f => h.hint f _) fun _ => ?_
    exact within_bind (h.zeroCluster c) fun _ => within_pure _

@[grind ←] lemma allocCluster : Within R allocCluster := by
  unfold Fat.allocCluster
  refine within_bind within_get fun f => within_bind within_get fun g =>
    within_bind (h.allocPass _ _) fun r => ?_
  cases r with
  | some c => exact within_pure _
  | none =>
    refine within_bind (h.allocPass _ _) fun r => ?_
    cases r with
    | some c => exact within_pure _
    | none => exact within_pure _

lemma init (partitionLba : Nat) : Within R (init partitionLba) := by
  unfold Fat.init
  refine within_bind (h.csec _) fun sec => within_ite (within_pure _) (within_ite (within_pure _)
    (within_ite (within_pure _) (within_ite (within_pure _) (within_ite within_stop_bind ?_))))
  exact within_bind (within_modify fun f => h.mount f _ _ _ _ _ _ _ _) fun _ => within_pure _

@[grind ←] lemma setFile (fd : Fin maxOpen) (file : OpenFile) : Within R (setFile fd file) :=
  within_modify fun f => h.files f _

@[grind ←] lemma modifyFile (fd : Fin maxOpen) (g : OpenFile → OpenFile) : Within R (modifyFile fd g) :=
  within_modify fun f => h.files f _

@[grind ←] lemma allocFile (writable : Bool) (size cluster lba off : Nat) :
    Within R (allocFile writable size cluster lba off) := by
  grind [Fat.allocFile]

@[grind ←] lemma openRead (path : Bytes) : Within R (openRead path) := by
  grind [Fat.openRead]

@[grind ←] lemma freeChain (fuel c : Nat) : Within R (freeChain fuel c) := by
  induction fuel generalizing c with grind [Fat.freeChain]

@[grind ←] lemma freeWholeChain (fuel c : Nat) : Within R (freeWholeChain fuel c) := by
  induction fuel generalizing c with grind [Fat.freeWholeChain]

@[grind ←] lemma slotOrExtend (parent newCluster : Nat) : Within R (slotOrExtend parent newCluster) := by
  grind [Fat.slotOrExtend]

@[grind ←] lemma create (path : Bytes) : Within R (create path) := by
  unfold Fat.create
  refine within_bind within_get fun f => within_ite (within_pure _) ?_
  refine within_ite (within_pure _) (within_bind (h.parentCluster _) fun r => ?_)
  cases r with
  | none => exact within_pure _
  | some dir => exact within_bind h.allocCluster fun c => by grind

@[grind ←] lemma openWrite (path : Bytes) : Within R (openWrite path) := by
  unfold Fat.openWrite
  refine within_bind within_get fun f => within_ite (within_pure _)
    (within_bind (h.resolve path) fun r => ?_)
  grind

lemma readLoop (fd : Fin maxOpen) (fuel want : Nat) : Within R (readLoop fd fuel want) := by
  induction fuel generalizing want with grind [Fat.readLoop]

@[grind ←] lemma read (fd len : Nat) : Within R (Fat.read fd len) := by
  grind [Fat.read, h.readLoop]

@[grind ←] lemma ensureCluster (fd : Fin maxOpen) : Within R (ensureCluster fd) := by
  grind [Fat.ensureCluster]

@[grind ←] lemma advance (fd : Fin maxOpen) (n : Nat) : Within R (advance fd n) := by
  grind [Fat.advance]

@[grind ←] lemma writeChunk (fd : Fin maxOpen) (lba inSector : Nat) (chunk : Bytes) :
    Within R (writeChunk fd lba inSector chunk) := by
  grind [writeChunk_eq]

lemma writeLoop (fd : Fin maxOpen) (fuel : Nat) (buf : Bytes) : Within R (writeLoop fd fuel buf) := by
  induction fuel generalizing buf with grind [Fat.writeLoop]

@[grind ←] lemma flushSize (file : OpenFile) : Within R (flushSize file) :=
  within_ite (h.patchLoaded _ _ _) (within_pure _)

@[grind ←] lemma write (fd : Nat) (buf : Bytes) : Within R (Fat.write fd buf) := by
  unfold Fat.write
  refine within_bind within_get fun f => ?_
  grind [h.writeLoop]

@[grind ←] lemma close (fd : Nat) : Within R (close fd) := by
  grind [Fat.close]

@[grind ←] lemma seek (fd offset : Nat) : Within R (seek fd offset) := by
  grind [Fat.seek]

@[grind ←] lemma readdir (path : Bytes) (max : Nat) : Within R (readdir path max) := by
  grind [Fat.readdir]

@[grind ←] lemma removeFile (info : DirInfo) : Within R (removeFile info) :=
  within_bind (h.freeWholeChain _ _) fun _ => h.writeEntry _ _ _

@[grind ←] lemma unlink (path : Bytes) : Within R (unlink path) := by
  grind [Fat.unlink]

lemma moveEntry (parentSrc fname : Bytes) (source : DirInfo) :
    Within R (Fat.moveEntry parentSrc fname source) := by
  unfold Fat.moveEntry
  refine within_bind (h.parentCluster _) fun r => ?_
  grind

@[grind ←] lemma rename (src dst : Bytes) : Within R (rename src dst) := by
  unfold Fat.rename
  refine within_bind within_get fun f => within_ite (within_pure _)
    (within_bind (h.resolve src) fun r => ?_)
  cases r with
  | none => exact within_pure _
  | some source =>
    refine within_ite (within_pure _) (within_ite (within_pure _) (within_ite (within_pure _) ?_))
    refine within_bind (h.resolve dst) fun r => ?_
    cases r with
    | none => exact h.moveEntry _ _ source
    | some target =>
      exact within_ite (within_bind (h.removeFile target) fun _ => h.moveEntry _ _ source)
        (h.moveEntry _ _ source)

@[grind ←] lemma readFileAlloc (path : Bytes) (allocOk : Bool) : Within R (readFileAlloc path allocOk) := by
  unfold Fat.readFileAlloc
  refine within_bind within_get fun f => within_ite (within_pure _)
    (within_bind (h.openRead path) fun r => ?_)
  grind

theorem perform (f : Fat) (op : FatOp) : Relation.ReflTransGen R f (f.perform op) := by
  cases op with
  | init partitionLba => exact h.init partitionLba f
  | openRead path => exact h.openRead path f
  | openWrite path => exact h.openWrite path f
  | create path => exact h.create path f
  | read fd len => exact h.read fd len f
  | write fd buf => exact h.write fd buf f
  | close fd => exact h.close fd f
  | seek fd offset => exact h.seek fd offset f
  | readdir path max => exact h.readdir path max f
  | unlink path => exact h.unlink path f
  | rename src dst => exact h.rename src dst f
  | readFileAlloc path allocOk => exact h.readFileAlloc path allocOk f

end Driven

end Aeglos.Fat
