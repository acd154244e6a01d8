import Aeglos.Proofs.SectorCache

/-!
# Positions in open files

An open file keeps, beside its position, the cluster that the position lies in. `seek` finds that
cluster from the position.
-/

namespace Aeglos.Fat

open Effects List Option

def fatLink (f : Fat) (c : Nat) : Nat := (f.disk (f.fatEntry c).1).u32at (f.fatEntry c).2 &&& fatMask

def byteIn (f : Fat) (c k : Nat) : UInt8 := (f.disk (f.sectorLba c (k / sectorSize))).byteAt (k % sectorSize)

def fileByte (f : Fat) (chain : List Nat) (p : Nat) : UInt8 :=
  f.byteIn (chain.getD (p / f.clusterBytes) 0) (p % f.clusterBytes)

def fileSlice (f : Fat) (chain : List Nat) (p len : Nat) : Bytes :=
  (List.range len).map fun i => f.fileByte chain (p + i)

lemma fileSlice_append (f : Fat) (chain : List Nat) (p m n : Nat) :
    f.fileSlice chain p (m + n) = f.fileSlice chain p m ++ f.fileSlice chain (p + m) n := by
  simp only [fileSlice, List.range_add, List.map_append, List.map_map]
  congr 1
  refine List.map_congr_left fun i _ => ?_
  rw [Function.comp_apply, Nat.add_assoc]

/-- The clusters of a file: linked by the FAT, and with all their sectors on the device. -/
structure Chain (f : Fat) (chain : List Nat) : Prop where
  inner : ∀ c ∈ chain, ¬ChainEnd c
  sectors : ∀ c ∈ chain, ∀ s < f.secsPerCluster, f.sectorLba c s < f.capacity
  entries : ∀ c ∈ chain, (f.fatEntry c).1 < f.capacity
  links : ∀ i c d, chain[i]? = some c → chain[i + 1]? = some d → f.fatLink c = d
  ends : ∀ c, chain.getLast? = some c → isEoc (f.fatLink c) = true

structure SameVolume (f g : Fat) : Prop where
  disk : g.disk = f.disk
  capacity : g.capacity = f.capacity
  bytesPerSec : g.bytesPerSec = f.bytesPerSec
  secsPerCluster : g.secsPerCluster = f.secsPerCluster
  fatStart : g.fatStart = f.fatStart
  dataStart : g.dataStart = f.dataStart

namespace SameVolume

variable {f g h : Fat}

lemma refl (f : Fat) : SameVolume f f := ⟨rfl, rfl, rfl, rfl, rfl, rfl⟩

lemma trans (h₁ : SameVolume f g) (h₂ : SameVolume g h) : SameVolume f h :=
  ⟨h₂.disk.trans h₁.disk, h₂.capacity.trans h₁.capacity, h₂.bytesPerSec.trans h₁.bytesPerSec,
    h₂.secsPerCluster.trans h₁.secsPerCluster, h₂.fatStart.trans h₁.fatStart,
    h₂.dataStart.trans h₁.dataStart⟩

lemma sectorLba (hs : SameVolume f g) (c s : Nat) : g.sectorLba c s = f.sectorLba c s := by
  simp only [Fat.sectorLba, clusterLba, hs.dataStart, hs.secsPerCluster]

lemma fatEntry (hs : SameVolume f g) (c : Nat) : g.fatEntry c = f.fatEntry c := by
  simp only [Fat.fatEntry, hs.fatStart, hs.bytesPerSec]

lemma fatLink (hs : SameVolume f g) (c : Nat) : g.fatLink c = f.fatLink c := by
  simp only [Fat.fatLink, hs.disk, hs.fatEntry]

lemma clusterBytes (hs : SameVolume f g) : g.clusterBytes = f.clusterBytes := by
  simp only [Fat.clusterBytes, hs.secsPerCluster]

lemma fileSlice (hs : SameVolume f g) (chain : List Nat) (p len : Nat) :
    g.fileSlice chain p len = f.fileSlice chain p len := by
  simp only [Fat.fileSlice, fileByte, byteIn, hs.clusterBytes, hs.disk, hs.sectorLba]

lemma chain (hs : SameVolume f g) {chain : List Nat} (hc : Chain f chain) : Chain g chain where
  inner := hc.inner
  sectors c hmem s hlt := by
    rw [hs.sectorLba, hs.capacity]
    exact hc.sectors c hmem s (hs.secsPerCluster ▸ hlt)
  entries c hmem := by
    rw [hs.fatEntry, hs.capacity]
    exact hc.entries c hmem
  links i c d hi hi' := by
    rw [hs.fatLink]
    exact hc.links i c d hi hi'
  ends c hlast := by
    rw [hs.fatLink]
    exact hc.ends c hlast

end SameVolume

/-- An open file with its clusters. The cursor is on the cluster with the recorded number,
or behind the last one. -/
structure OpenChain (f : Fat) (fd : Fin maxOpen) (chain : List Nat) : Prop where
  sound : Sound f
  linked : Chain f chain
  clusters : 0 < f.secsPerCluster
  used : (f.openFiles fd).used = true
  sized : (f.openFiles fd).size < 2 ^ 32
  covers : (f.openFiles fd).size ≤ chain.length * f.clusterBytes
  start : ∀ c, chain[0]? = some c → (f.openFiles fd).startCluster = c
  cursor : chain[(f.openFiles fd).curClusIdx]? = some (f.openFiles fd).curCluster ∨
    (f.openFiles fd).curClusIdx = chain.length

structure Moved (fd : Fin maxOpen) (f g : Fat) : Prop extends SameVolume f g where
  sound : Sound g
  used : (g.openFiles fd).used = (f.openFiles fd).used
  size : (g.openFiles fd).size = (f.openFiles fd).size
  start : (g.openFiles fd).startCluster = (f.openFiles fd).startCluster

section Moves

variable {f g h : Fat} {fd : Fin maxOpen} {chain : List Nat}

lemma Moved.trans (h₁ : Moved fd f g) (h₂ : Moved fd g h) : Moved fd f h :=
  ⟨h₁.toSameVolume.trans h₂.toSameVolume, h₂.sound, h₂.used.trans h₁.used, h₂.size.trans h₁.size,
    h₂.start.trans h₁.start⟩

lemma OpenChain.moved (ho : OpenChain f fd chain) (hm : Moved fd f g)
    (hcursor : chain[(g.openFiles fd).curClusIdx]? = some (g.openFiles fd).curCluster ∨
      (g.openFiles fd).curClusIdx = chain.length) : OpenChain g fd chain where
  sound := hm.sound
  linked := hm.toSameVolume.chain ho.linked
  clusters := hm.secsPerCluster ▸ ho.clusters
  used := hm.used.trans ho.used
  sized := hm.size ▸ ho.sized
  covers := by
    rw [hm.size, hm.clusterBytes]
    exact ho.covers
  start c hc := hm.start.trans (ho.start c hc)
  cursor := hcursor

lemma OpenChain.clusterBytes_pos (ho : OpenChain f fd chain) : 0 < f.clusterBytes :=
  Nat.mul_pos ho.clusters (by decide)

def withFile (f : Fat) (fd : Fin maxOpen) (file : OpenFile) : Fat :=
  { f with openFiles := Function.update f.openFiles fd file }

lemma withFile_self (f : Fat) (fd : Fin maxOpen) (file : OpenFile) : (withFile f fd file).openFiles fd = file :=
  Function.update_self ..

lemma moved_load (hf : Sound f) (lba : Nat) : Moved fd f (load f lba) :=
  ⟨⟨rfl, rfl, rfl, rfl, rfl, rfl⟩, hf.load lba, rfl, rfl, rfl⟩

lemma moved_withFile (hf : Sound f) {file : OpenFile} (hused : file.used = (f.openFiles fd).used)
    (hsize : file.size = (f.openFiles fd).size)
    (hstart : file.startCluster = (f.openFiles fd).startCluster) : Moved fd f (withFile f fd file) where
  toSameVolume := ⟨rfl, rfl, rfl, rfl, rfl, rfl⟩
  sound := ⟨hf.present, hf.sized, hf.cached⟩
  used := by rw [withFile_self, hused]
  size := by rw [withFile_self, hsize]
  start := by rw [withFile_self, hstart]

lemma Chain.nextCluster (hc : Chain f chain) (hf : Sound f) {c : Nat} (hmem : c ∈ chain) :
    Fat.nextCluster f c = f.fatLink c := by
  rw [Fat.nextCluster, hf.cached.sectorAt hf.sized (hc.entries c hmem), Fat.fatLink]

lemma Chain.link (hc : Chain f chain) {i c : Nat} (hi : chain[i]? = some c) :
    chain[i + 1]? = some (f.fatLink c) ∨ i + 1 = chain.length := by
  obtain ⟨hlt, -⟩ := List.getElem?_eq_some_iff.mp hi
  by_cases hlast : i + 1 < chain.length
  · have hnext : chain[i + 1]? = some (chain[i + 1]) := List.getElem?_eq_getElem hlast
    rw [hc.links i c _ hi hnext]
    exact Or.inl hnext
  · exact Or.inr (by omega)

end Moves

section Seek

variable {f : Fat} {fd : Fin maxOpen} {chain : List Nat}

lemma seekLoop_spec (fd : Fin maxOpen) (hf : Sound f) (hc : Chain f chain) {i c n : Nat} (hi : chain[i]? = some c)
    (hn : i + n ≤ chain.length) :
    ∃ c' g, seekLoop n (i + n) c i f = .ok ((c', i + n), g) ∧ Moved fd f g ∧ g.openFiles = f.openFiles ∧
      (chain[i + n]? = some c' ∨ i + n = chain.length) := by
  induction n generalizing f i c with
  | zero =>
    exact ⟨c, f, rfl, ⟨SameVolume.refl f, hf, rfl, rfl, rfl⟩, rfl, Or.inl hi⟩
  | succ n ih =>
    have hmem : c ∈ chain := mem_of_getElem? hi
    have hinner : ¬ChainEnd c := hc.inner c hmem
    have hgo : i < i + (n + 1) ∧ (!isEoc c) = true := by
      refine ⟨by omega, ?_⟩
      rw [Bool.not_eq_true', Bool.eq_false_iff]
      exact fun heoc => hinner (Or.inr heoc)
    have hfirst : Moved fd f (loadEntry f c) := moved_load hf _
    have hturn : seekLoop (n + 1) (i + (n + 1)) c i f =
        seekLoop n (i + (n + 1)) (Fat.nextCluster f c) (i + 1) (loadEntry f c) := by
      rw [seekLoop, if_pos hgo, bind_of_ok (fatGet_eq hf.present c)]
    rw [hturn, hc.nextCluster hf hmem]
    rcases hc.link hi with hnext | hend
    · have hrest := ih hfirst.sound (hfirst.toSameVolume.chain hc) hnext (by omega)
      rw [show i + 1 + n = i + (n + 1) by omega] at hrest
      obtain ⟨c', g, hg, hm, hfiles, hat⟩ := hrest
      exact ⟨c', g, hg, hfirst.trans hm, hfiles, hat⟩
    · -- The last link: no turn is left.
      obtain rfl : n = 0 := by omega
      exact ⟨f.fatLink c, loadEntry f c, rfl, hfirst, rfl, Or.inr hend⟩

def seekWalk (file : OpenFile) (target : Nat) : FatM (Nat × Nat) :=
  if target ≥ file.curClusIdx then
    seekLoop (target - file.curClusIdx) target file.curCluster file.curClusIdx
  else seekLoop target target file.startCluster 0

lemma seekWalk_spec (ho : OpenChain f fd chain) {target : Nat} (hle : target ≤ chain.length) :
    ∃ c g, seekWalk (f.openFiles fd) target f = .ok ((c, target), g) ∧ Moved fd f g ∧
      g.openFiles = f.openFiles ∧ (chain[target]? = some c ∨ target = chain.length) := by
  unfold seekWalk
  by_cases hahead : target ≥ (f.openFiles fd).curClusIdx
  · rw [if_pos hahead]
    rcases ho.cursor with hat | hend
    · have hsplit : (f.openFiles fd).curClusIdx + (target - (f.openFiles fd).curClusIdx) = target := by omega
      have hwalk := seekLoop_spec fd ho.sound ho.linked hat (hsplit.trans_le hle)
      rw [hsplit] at hwalk
      exact hwalk
    · -- The cursor is behind the last cluster, and so is the target.
      have htarget : target = (f.openFiles fd).curClusIdx := by omega
      rw [htarget, Nat.sub_self]
      exact ⟨_, f, rfl, ⟨SameVolume.refl f, ho.sound, rfl, rfl, rfl⟩, rfl, Or.inr hend⟩
  · rw [if_neg hahead]
    have hnonempty : 0 < chain.length := by
      rcases ho.cursor with hat | hend
      · exact (Nat.zero_le _).trans_lt (List.getElem?_eq_some_iff.mp hat).1
      · omega
    have hfirst : chain[0]? = some chain[0] := List.getElem?_eq_getElem hnonempty
    rw [ho.start _ hfirst]
    have hwalk := seekLoop_spec (n := target) fd ho.sound ho.linked hfirst (by omega)
    rw [Nat.zero_add] at hwalk
    exact hwalk

lemma file_of_used (hused : (f.openFiles fd).used = true) : f.file fd.val = some fd := by
  rw [Fat.file, dif_pos fd.isLt, if_pos hused]

lemma seek_spec (ho : OpenChain f fd chain) {o : Nat} (hle : o ≤ (f.openFiles fd).size) :
    ∃ g, seek fd.val o f = .ok (true, g) ∧ Moved fd f g ∧ OpenChain g fd chain ∧
      (g.openFiles fd).offset = o ∧ (g.openFiles fd).curClusIdx = o / f.clusterBytes := by
  have htarget : o / f.clusterBytes ≤ chain.length :=
    Nat.div_le_of_le_mul (by rw [Nat.mul_comm]; exact hle.trans ho.covers)
  obtain ⟨c, g, hwalk, hm, hfiles, hat⟩ := seekWalk_spec ho htarget
  have hput : Moved fd g (withFile g fd { g.openFiles fd with
      curCluster := c, curClusIdx := o / f.clusterBytes, offset := o }) := moved_withFile hm.sound rfl rfl rfl
  refine ⟨_, ?_, hm.trans hput, ho.moved (hm.trans hput) ?_, ?_, ?_⟩
  · rw [seek, get_bind_apply, file_of_used ho.used]
    change (if o > (f.openFiles fd).size then _ else _ : FatM Bool) f = _
    rw [if_neg (by omega)]
    unfold seekWalk at hwalk
    by_cases hahead : o / f.clusterBytes ≥ (f.openFiles fd).curClusIdx
    · rw [if_pos hahead] at hwalk ⊢
      rw [bind_of_ok hwalk]
      rfl
    · rw [if_neg hahead] at hwalk ⊢
      rw [bind_of_ok hwalk]
      rfl
  · rw [withFile_self]
    exact hat
  · rw [withFile_self]
  · rw [withFile_self]

end Seek

section Read

variable {f : Fat} {fd : Fin maxOpen} {chain : List Nat}

/-- Where in the file the next byte is read from: the cluster of the cursor and the place of
the position in a cluster. -/
def place (f : Fat) (fd : Fin maxOpen) : Nat :=
  (f.openFiles fd).curClusIdx * f.clusterBytes + (f.openFiles fd).offset % f.clusterBytes

def chunkLen (f : Fat) (fd : Fin maxOpen) (want : Nat) : Nat :=
  min want (sectorSize - (f.openFiles fd).offset % f.clusterBytes % sectorSize)

def afterChunk (f : Fat) (fd : Fin maxOpen) (n : Nat) : Fat :=
  withFile (load f (f.filePosition (f.openFiles fd)).1) fd
    { f.openFiles fd with offset := wrap32 ((f.openFiles fd).offset + n) }

def afterLink (f : Fat) (fd : Fin maxOpen) : Fat :=
  withFile (loadEntry f (f.openFiles fd).curCluster) fd
    { f.openFiles fd with
      curCluster := Fat.nextCluster f (f.openFiles fd).curCluster
      curClusIdx := wrap32 ((f.openFiles fd).curClusIdx + 1) }

def afterTurn (f : Fat) (fd : Fin maxOpen) (want : Nat) : Fat :=
  if wrap32 ((f.openFiles fd).offset + f.chunkLen fd want) % f.clusterBytes = 0 ∧ f.chunkLen fd want < want then
    afterLink (afterChunk f fd (f.chunkLen fd want)) fd
  else afterChunk f fd (f.chunkLen fd want)

lemma readLoop_turn (hpresent : f.present = true) {fuel want : Nat} (hwant : want ≠ 0)
    (hin : ¬ChainEnd (f.openFiles fd).curCluster) :
    readLoop fd (fuel + 1) want f =
      (readLoop fd fuel (want - f.chunkLen fd want) >>= fun rest =>
        pure ((sectorAt f (f.filePosition (f.openFiles fd)).1).slice (f.filePosition (f.openFiles fd)).2
          (f.chunkLen fd want) ++ rest)) (f.afterTurn fd want) := by
  rw [readLoop, get_bind_apply, if_neg hwant]
  change (if ChainEnd (f.openFiles fd).curCluster then _ else _ : FatM Bytes) f = _
  rw [if_neg hin]
  change (csec (f.filePosition (f.openFiles fd)).1 >>= _) f = _
  rw [bind_of_ok (csec_eq hpresent _)]
  change (if wrap32 ((f.openFiles fd).offset + f.chunkLen fd want) % f.clusterBytes = 0 ∧
    f.chunkLen fd want < want then _ else _ : FatM Bytes) (afterChunk f fd (f.chunkLen fd want)) = _
  unfold afterTurn
  split_ifs with hnext
  · have hfile : ((afterChunk f fd (f.chunkLen fd want)).openFiles fd).curCluster = (f.openFiles fd).curCluster := by
      rw [afterChunk, withFile_self]
    rw [bind_of_ok (fatGet_eq (f := afterChunk f fd (f.chunkLen fd want)) hpresent _), afterLink, hfile]
    rfl
  · rfl

lemma in_sector {s k i : Nat} (hk : k < s * sectorSize) (hi : k % sectorSize + i < sectorSize) :
    k + i < s * sectorSize ∧ (k + i) / sectorSize = k / sectorSize ∧
      (k + i) % sectorSize = k % sectorSize + i := by
  simp only [sectorSize] at *
  omega

lemma slice_eq_fileSlice (hc : Chain f chain) (hf : Sound f) {j c k n : Nat} (hj : chain[j]? = some c) (hk : k < f.clusterBytes) (hn : k % sectorSize + n ≤ sectorSize) :
    (sectorAt f (f.sectorLba c (k / sectorSize))).slice (k % sectorSize) n =
      f.fileSlice chain (j * f.clusterBytes + k) n := by
  have hsector : k / sectorSize < f.secsPerCluster := Nat.div_lt_of_lt_mul (by rw [Nat.mul_comm]; exact hk)
  rw [hf.cached.sectorAt hf.sized (hc.sectors c (mem_of_getElem? hj) _ hsector)]
  refine map_congr_left fun i hi => ?_
  have hi : i < n := mem_range.mp hi
  obtain ⟨hin, hsame, hoff⟩ := in_sector hk ((Nat.add_lt_add_left hi _).trans_le hn)
  change k + i < f.clusterBytes at hin
  have hcluster : (j * f.clusterBytes + k + i) / f.clusterBytes = j := by
    rw [Nat.add_assoc, Nat.add_comm, Nat.add_mul_div_right _ _ (by omega), Nat.div_eq_of_lt hin, Nat.zero_add]
  have hrest : (j * f.clusterBytes + k + i) % f.clusterBytes = k + i := by
    rw [Nat.add_assoc, Nat.mul_add_mod_self_right, Nat.mod_eq_of_lt hin]
  rw [fileByte, byteIn, hcluster, hrest, hsame, hoff, getD_eq_getElem?_getD, hj]
  rfl

/-- What a read relies on: the cursor is on a cluster, not ahead of the position, and the
bytes wanted are in the file. -/
structure Readable (f : Fat) (fd : Fin maxOpen) (chain : List Nat) (want : Nat) : Prop
    extends OpenChain f fd chain where
  at_cluster : chain[(f.openFiles fd).curClusIdx]? = some (f.openFiles fd).curCluster
  behind : (f.openFiles fd).curClusIdx ≤ (f.openFiles fd).offset / f.clusterBytes
  inside : (f.openFiles fd).offset + want ≤ (f.openFiles fd).size

section Chunk

variable (f fd) {want : Nat}

lemma chunkLen_pos (hwant : want ≠ 0) : 0 < f.chunkLen fd want := by
  simp only [chunkLen, sectorSize]
  omega

lemma chunkLen_le (want : Nat) : f.chunkLen fd want ≤ want := Nat.min_le_left ..

lemma chunkLen_in_sector (want : Nat) :
    (f.openFiles fd).offset % f.clusterBytes % sectorSize + f.chunkLen fd want ≤ sectorSize := by
  simp only [chunkLen, sectorSize]
  omega

lemma chunkLen_in_cluster (hclusters : 0 < f.secsPerCluster) (hwant : want ≠ 0) :
    (f.openFiles fd).offset % f.clusterBytes + f.chunkLen fd want ≤ f.clusterBytes := by
  have hk : (f.openFiles fd).offset % f.clusterBytes < f.clusterBytes :=
    Nat.mod_lt _ (Nat.mul_pos hclusters (by decide))
  have hpos := chunkLen_pos f fd hwant
  have hchunk := chunkLen_in_sector f fd want
  have hlast := (in_sector (i := f.chunkLen fd want - 1) hk (by omega)).1
  change _ < f.clusterBytes at hlast
  omega

end Chunk

lemma place_after {o n b : Nat} (hin : o % b + n ≤ b) (hn : 0 < n) :
    (o + n) % b = o % b + n ∧ (o + n) / b = o / b ∧ o % b + n < b ∨
      (o + n) % b = 0 ∧ (o + n) / b = o / b + 1 ∧ o % b + n = b := by
  have hb : 0 < b := by omega
  have hdecomp : o + n = o % b + n + b * (o / b) := by
    have := Nat.mod_add_div o b
    omega
  rcases Nat.lt_or_eq_of_le hin with hlt | heq
  · refine Or.inl ⟨?_, ?_, hlt⟩
    · rw [hdecomp, Nat.add_mul_mod_self_left, Nat.mod_eq_of_lt hlt]
    · rw [hdecomp, Nat.add_mul_div_left _ _ hb, Nat.div_eq_of_lt hlt, Nat.zero_add]
  · refine Or.inr ⟨?_, ?_, heq⟩
    · rw [hdecomp, heq, Nat.add_mul_mod_self_left, Nat.mod_self]
    · rw [hdecomp, heq, Nat.add_mul_div_left _ _ hb, Nat.div_self hb, Nat.add_comm]

lemma moved_afterChunk (hf : Sound f) (n : Nat) : Moved fd f (afterChunk f fd n) :=
  (moved_load hf _).trans (moved_withFile (hf.load _) rfl rfl rfl)

lemma moved_afterLink (hf : Sound f) : Moved fd f (afterLink f fd) :=
  (moved_load hf _).trans (moved_withFile (hf.load _) rfl rfl rfl)

section Turn

variable {want : Nat} (hr : Readable f fd chain want) (hwant : want ≠ 0)

include hr

lemma Readable.wrap_offset (n : Nat) (hn : n ≤ want) :
    wrap32 ((f.openFiles fd).offset + n) = (f.openFiles fd).offset + n := by
  have hinside := hr.inside
  have hsized := hr.sized
  exact Nat.mod_eq_of_lt (by omega)

lemma Readable.afterChunk_file :
    (afterChunk f fd (f.chunkLen fd want)).openFiles fd =
      { f.openFiles fd with offset := (f.openFiles fd).offset + f.chunkLen fd want } := by
  rw [afterChunk, withFile_self, hr.wrap_offset _ (chunkLen_le f fd want)]

lemma Readable.more_clusters {n : Nat} (hn : n < want) :
    ((f.openFiles fd).offset + n) / f.clusterBytes < chain.length := by
  have hinside := hr.inside
  have hcovers := hr.covers
  refine Nat.div_lt_of_lt_mul ?_
  rw [Nat.mul_comm]
  omega

include hwant

lemma Readable.stay
    (hstay : ¬(((f.openFiles fd).offset + f.chunkLen fd want) % f.clusterBytes = 0 ∧ f.chunkLen fd want < want)) :
    Readable (afterChunk f fd (f.chunkLen fd want)) fd chain (want - f.chunkLen fd want) ∧
      (f.chunkLen fd want < want →
        place (afterChunk f fd (f.chunkLen fd want)) fd = place f fd + f.chunkLen fd want) := by
  have hm : Moved fd f (afterChunk f fd (f.chunkLen fd want)) := moved_afterChunk hr.sound _
  have hfile := hr.afterChunk_file
  have hat : chain[((afterChunk f fd (f.chunkLen fd want)).openFiles fd).curClusIdx]? =
      some ((afterChunk f fd (f.chunkLen fd want)).openFiles fd).curCluster := by
    rw [hfile]
    exact hr.at_cluster
  have hle := chunkLen_le f fd want
  have hinside := hr.inside
  refine ⟨⟨hr.toOpenChain.moved hm (Or.inl hat), hat, ?_, ?_⟩, fun hmore => ?_⟩
  · rw [hfile, hm.clusterBytes]
    exact hr.behind.trans (Nat.div_le_div_right (Nat.le_add_right ..))
  · rw [hfile]
    change (f.openFiles fd).offset + f.chunkLen fd want + (want - f.chunkLen fd want) ≤ (f.openFiles fd).size
    omega
  · rcases place_after (chunkLen_in_cluster f fd hr.clusters hwant) (chunkLen_pos f fd hwant) with
      ⟨hmod, -, -⟩ | ⟨hmod, -, -⟩
    · rw [place, hm.clusterBytes, hfile]
      change _ * _ + ((f.openFiles fd).offset + f.chunkLen fd want) % f.clusterBytes = _
      rw [hmod, place, Nat.add_assoc]
    · exact absurd ⟨hmod, hmore⟩ hstay

lemma Readable.step (hend : ((f.openFiles fd).offset + f.chunkLen fd want) % f.clusterBytes = 0)
    (hmore : f.chunkLen fd want < want) :
    Readable (afterLink (afterChunk f fd (f.chunkLen fd want)) fd) fd chain (want - f.chunkLen fd want) ∧
      place (afterLink (afterChunk f fd (f.chunkLen fd want)) fd) fd = place f fd + f.chunkLen fd want := by
  have hchunk : Moved fd f (afterChunk f fd (f.chunkLen fd want)) := moved_afterChunk hr.sound _
  have hm : Moved fd f (afterLink (afterChunk f fd (f.chunkLen fd want)) fd) :=
    hchunk.trans (moved_afterLink hchunk.sound)
  have hinside := hr.inside
  have hsized := hr.sized
  have hbehind := hr.behind
  rcases place_after (chunkLen_in_cluster f fd hr.clusters hwant) (chunkLen_pos f fd hwant) with
    ⟨hmod, -, -⟩ | ⟨-, hdiv, hfull⟩
  · have hpos := chunkLen_pos f fd hwant
    omega
  -- The next cluster is in the chain, since more of the file is wanted.
  have hlt := hr.more_clusters hmore
  have hlink : chain[(f.openFiles fd).curClusIdx + 1]? = some (f.fatLink (f.openFiles fd).curCluster) := by
    rcases hr.linked.link hr.at_cluster with hnext | hlast
    · exact hnext
    · omega
  have hindex : wrap32 ((f.openFiles fd).curClusIdx + 1) = (f.openFiles fd).curClusIdx + 1 := by
    refine Nat.mod_eq_of_lt ?_
    have hle := Nat.div_le_self ((f.openFiles fd).offset + f.chunkLen fd want) f.clusterBytes
    omega
  have hnext : Fat.nextCluster (afterChunk f fd (f.chunkLen fd want)) (f.openFiles fd).curCluster =
      f.fatLink (f.openFiles fd).curCluster := by
    rw [(hchunk.toSameVolume.chain hr.linked).nextCluster hchunk.sound (mem_of_getElem? hr.at_cluster),
      hchunk.toSameVolume.fatLink]
  have hfile : (afterLink (afterChunk f fd (f.chunkLen fd want)) fd).openFiles fd =
      { f.openFiles fd with
        offset := (f.openFiles fd).offset + f.chunkLen fd want
        curCluster := f.fatLink (f.openFiles fd).curCluster
        curClusIdx := (f.openFiles fd).curClusIdx + 1 } := by
    rw [afterLink, withFile_self, hr.afterChunk_file]
    dsimp only
    rw [hnext, hindex]
  have hat : chain[((afterLink (afterChunk f fd (f.chunkLen fd want)) fd).openFiles fd).curClusIdx]? =
      some ((afterLink (afterChunk f fd (f.chunkLen fd want)) fd).openFiles fd).curCluster := by
    rw [hfile]
    exact hlink
  refine ⟨⟨hr.toOpenChain.moved hm (Or.inl hat), hat, ?_, ?_⟩, ?_⟩
  · rw [hfile, hm.clusterBytes]
    change (f.openFiles fd).curClusIdx + 1 ≤ ((f.openFiles fd).offset + f.chunkLen fd want) / f.clusterBytes
    omega
  · rw [hfile]
    change (f.openFiles fd).offset + f.chunkLen fd want + (want - f.chunkLen fd want) ≤ (f.openFiles fd).size
    omega
  · rw [place, hm.clusterBytes, hfile]
    change ((f.openFiles fd).curClusIdx + 1) * f.clusterBytes +
      ((f.openFiles fd).offset + f.chunkLen fd want) % f.clusterBytes = _
    rw [hend, place, Nat.succ_mul]
    omega

lemma Readable.turn :
    Readable (f.afterTurn fd want) fd chain (want - f.chunkLen fd want) ∧ Moved fd f (f.afterTurn fd want) ∧
      ((f.afterTurn fd want).openFiles fd).offset = (f.openFiles fd).offset + f.chunkLen fd want ∧
      (f.chunkLen fd want < want → place (f.afterTurn fd want) fd = place f fd + f.chunkLen fd want) ∧
      (f.chunkLen fd want = want →
        ((f.afterTurn fd want).openFiles fd).curClusIdx = (f.openFiles fd).curClusIdx) := by
  have hchunk : Moved fd f (afterChunk f fd (f.chunkLen fd want)) := moved_afterChunk hr.sound _
  have hfile := hr.afterChunk_file
  unfold afterTurn
  rw [hr.wrap_offset _ (chunkLen_le f fd want)]
  split_ifs with hlink
  · obtain ⟨hend, hmore⟩ := hlink
    obtain ⟨hreadable, hplace⟩ := hr.step hwant hend hmore
    refine ⟨hreadable, hchunk.trans (moved_afterLink hchunk.sound), ?_, fun _ => hplace, fun hall => by omega⟩
    rw [afterLink, withFile_self, hfile]
  · obtain ⟨hreadable, hplace⟩ := hr.stay hwant hlink
    exact ⟨hreadable, hchunk, by rw [hfile], hplace, fun _ => by rw [hfile]⟩

end Turn

lemma OpenChain.place_div (ho : OpenChain f fd chain) {n : Nat}
    (hn : (f.openFiles fd).offset % f.clusterBytes + n < f.clusterBytes) :
    (place f fd + n) / f.clusterBytes = (f.openFiles fd).curClusIdx := by
  rw [place, Nat.add_assoc, Nat.add_comm, Nat.add_mul_div_right _ _ ho.clusterBytes_pos, Nat.div_eq_of_lt hn,
    Nat.zero_add]

lemma readLoop_zero (fuel : Nat) : readLoop fd fuel 0 f = .ok ([], f) := by
  cases fuel <;> rfl

lemma Readable.chunk {want : Nat} (hr : Readable f fd chain want) :
    (sectorAt f (f.filePosition (f.openFiles fd)).1).slice (f.filePosition (f.openFiles fd)).2 (f.chunkLen fd want) =
      f.fileSlice chain (place f fd) (f.chunkLen fd want) :=
  slice_eq_fileSlice hr.linked hr.sound hr.at_cluster (Nat.mod_lt _ hr.clusterBytes_pos) (chunkLen_in_sector f fd want)

lemma readLoop_spec {fuel want : Nat} (hfuel : want ≤ fuel) (hr : Readable f fd chain want) :
    ∃ g, readLoop fd fuel want f = .ok (f.fileSlice chain (place f fd) want, g) ∧ Moved fd f g ∧
      Readable g fd chain 0 ∧ (g.openFiles fd).offset = (f.openFiles fd).offset + want ∧
      (g.openFiles fd).curClusIdx = (place f fd + (want - 1)) / f.clusterBytes := by
  induction fuel generalizing f want with
  | zero =>
    obtain rfl : want = 0 := by omega
    refine ⟨f, rfl, ⟨SameVolume.refl f, hr.sound, rfl, rfl, rfl⟩, hr, rfl, ?_⟩
    exact (hr.place_div (Nat.mod_lt _ hr.clusterBytes_pos)).symm
  | succ fuel ih =>
    by_cases hwant : want = 0
    · subst hwant
      refine ⟨f, readLoop_zero _, ⟨SameVolume.refl f, hr.sound, rfl, rfl, rfl⟩, hr, rfl, ?_⟩
      exact (hr.place_div (Nat.mod_lt _ hr.clusterBytes_pos)).symm
    have hpos := chunkLen_pos f fd hwant
    have hle := chunkLen_le f fd want
    obtain ⟨hr', hm, hoff, hplace, hindex⟩ := hr.turn hwant
    obtain ⟨g, hrest, hm', hg, hoff', hindex'⟩ := ih (by omega) hr'
    refine ⟨g, ?_, hm.trans hm', hg, by omega, ?_⟩
    · rw [readLoop_turn hr.sound.present hwant (hr.linked.inner _ (mem_of_getElem? hr.at_cluster)),
        bind_of_ok hrest, hr.chunk, hm.fileSlice]
      change Except.ok (_ ++ _, g) = _
      rcases Nat.lt_or_eq_of_le hle with hmore | hall
      · rw [hplace hmore, ← fileSlice_append, Nat.add_sub_cancel' hle]
      · rw [hall, Nat.sub_self]
        exact congrArg (fun bytes => Except.ok (bytes, g)) (append_nil _)
    · rw [hindex', hm.clusterBytes]
      rcases Nat.lt_or_eq_of_le hle with hmore | hall
      · rw [hplace hmore]
        congr 1
        omega
      · have hin := chunkLen_in_cluster f fd hr.clusters hwant
        rw [hr.place_div (by omega), ← hindex hall, hall, Nat.sub_self, ← hm.clusterBytes]
        exact hr'.place_div (Nat.mod_lt _ hr'.clusterBytes_pos)

lemma read_spec {n want : Nat} (hwant : want = min n ((f.openFiles fd).size - (f.openFiles fd).offset))
    (hr : Readable f fd chain want) :
    ∃ g, read fd.val n f = .ok (some (f.fileSlice chain (place f fd) want), g) ∧ Moved fd f g ∧
      Readable g fd chain 0 ∧ (g.openFiles fd).offset = (f.openFiles fd).offset + want ∧
      (g.openFiles fd).curClusIdx = (place f fd + (want - 1)) / f.clusterBytes := by
  subst hwant
  obtain ⟨g, hloop, hrest⟩ := readLoop_spec le_rfl hr
  refine ⟨g, ?_, hrest⟩
  rw [read, get_bind_apply, file_of_used hr.used]
  change (readLoop fd _ _ >>= fun bytes => pure (some bytes) : FatM (Option Bytes)) f = _
  rw [bind_of_ok hloop]
  rfl

end Read

def readFrom (fd offset n : Nat) : FatM (Option Bytes) := do
  let _ ← seek fd offset
  read fd n

def readTwiceFrom (fd offset n m : Nat) : FatM (Option Bytes) := do
  let _ ← seek fd offset
  let first ← read fd n
  let second ← read fd m
  return first.bind fun bytes => second.map (bytes ++ ·)

def ReadsCompose (f : Fat) (fd offset n m : Nat) : Prop :=
  ∃ bytes g g', readTwiceFrom fd offset n m f = .ok (some bytes, g) ∧
    readFrom fd offset (n + m) f = .ok (some bytes, g')

def firstLen (f : Fat) (fd : Fin maxOpen) (offset n : Nat) : Nat := min n ((f.openFiles fd).size - offset)

def secondLen (f : Fat) (fd : Fin maxOpen) (offset n m : Nat) : Nat :=
  min m ((f.openFiles fd).size - (offset + f.firstLen fd offset n))

/-- If the first read ends with a cluster, the second one, which reads that cluster again,
finds the bytes of the next one in it. -/
def SplitHarmless (f : Fat) (fd : Fin maxOpen) (chain : List Nat) (offset n m : Nat) : Prop :=
  0 < f.firstLen fd offset n → (offset + f.firstLen fd offset n) % f.clusterBytes = 0 →
    f.fileSlice chain (offset + f.firstLen fd offset n - f.clusterBytes) (f.secondLen fd offset n m) =
      f.fileSlice chain (offset + f.firstLen fd offset n) (f.secondLen fd offset n m)

section Compose

variable {f : Fat} {fd : Fin maxOpen} {chain : List Nat} {o : Nat}

lemma read_nothing (hused : (f.openFiles fd).used = true)
    (hend : (f.openFiles fd).size ≤ (f.openFiles fd).offset) (n : Nat) : read fd.val n f = .ok (some [], f) := by
  have hwant : min n ((f.openFiles fd).size - (f.openFiles fd).offset) = 0 := by omega
  rw [read, get_bind_apply, file_of_used hused]
  change (readLoop fd _ _ >>= fun bytes => pure (some bytes) : FatM (Option Bytes)) f = _
  rw [hwant]
  rfl

lemma place_after_read (o w : Nat) {b : Nat} (hb : 0 < b) :
    (o + (w - 1)) / b * b + (o + w) % b = if 0 < w ∧ (o + w) % b = 0 then o + w - b else o + w := by
  by_cases hw : 0 < w
  · obtain ⟨v, rfl⟩ : ∃ v, w = v + 1 := ⟨w - 1, by omega⟩
    have hsplit := Nat.div_add_mod' (o + v) b
    have hlt := Nat.mod_lt (o + v) hb
    rw [Nat.add_sub_cancel, ← Nat.add_assoc o v 1]
    rcases place_after (o := o + v) (n := 1) hlt Nat.one_pos with ⟨hmod, -, -⟩ | ⟨hmod, -, hfull⟩
    · rw [if_neg (by omega)]
      omega
    · rw [if_pos ⟨hw, hmod⟩]
      omega
  · obtain rfl : w = 0 := by omega
    rw [if_neg (by omega)]
    exact Nat.div_add_mod' o b

lemma OpenChain.readable (ho : OpenChain f fd chain) {want : Nat}
    (hoff : (f.openFiles fd).offset = o) (hidx : (f.openFiles fd).curClusIdx = o / f.clusterBytes)
    (hlt : o < (f.openFiles fd).size) (hwant : o + want ≤ (f.openFiles fd).size) : Readable f fd chain want where
  toOpenChain := ho
  at_cluster := by
    have hin : o / f.clusterBytes < chain.length :=
      Nat.div_lt_of_lt_mul (by rw [Nat.mul_comm]; exact hlt.trans_le ho.covers)
    rcases ho.cursor with hat | hend
    · exact hat
    · omega
  behind := by rw [hoff, hidx]
  inside := hoff ▸ hwant

def secondPlace (f : Fat) (fd : Fin maxOpen) (o n : Nat) : Nat :=
  if 0 < f.firstLen fd o n ∧ (o + f.firstLen fd o n) % f.clusterBytes = 0 then
    o + f.firstLen fd o n - f.clusterBytes
  else o + f.firstLen fd o n

lemma seek_read_spec (ho : OpenChain f fd chain) (hlt : o < (f.openFiles fd).size) (n : Nat) :
    ∃ g g', seek fd.val o f = .ok (true, g) ∧
      read fd.val n g = .ok (some (f.fileSlice chain o (f.firstLen fd o n)), g') ∧ Moved fd f g' ∧
      Readable g' fd chain 0 ∧ (g'.openFiles fd).offset = o + f.firstLen fd o n ∧
      place g' fd = f.secondPlace fd o n := by
  obtain ⟨g, hseek, hm, hopen, hoff, hidx⟩ := seek_spec ho hlt.le
  have hlen : f.firstLen fd o n = min n ((g.openFiles fd).size - (g.openFiles fd).offset) := by
    rw [hm.size, hoff, firstLen]
  have hfit : o + f.firstLen fd o n ≤ (f.openFiles fd).size := by
    unfold firstLen
    omega
  rw [← hm.clusterBytes] at hidx
  rw [← hm.size] at hlt hfit
  obtain ⟨g', hread, hm', hr', hoff', hidx'⟩ := read_spec hlen (hopen.readable hoff hidx hlt hfit)
  have hplace : place g fd = o := by
    rw [place, hidx, hoff]
    exact Nat.div_add_mod' ..
  rw [hplace] at hread hidx'
  rw [hm.fileSlice] at hread
  rw [hoff] at hoff'
  refine ⟨g, g', hseek, hread, hm.trans hm', hr', hoff', ?_⟩
  rw [place, hidx', hoff', (hm.trans hm').clusterBytes, hm.clusterBytes]
  exact place_after_read o _ ho.clusterBytes_pos

lemma readFrom_eq (ho : OpenChain f fd chain) (hle : o ≤ (f.openFiles fd).size) (n : Nat) :
    ∃ g, readFrom fd.val o n f = .ok (some (f.fileSlice chain o (f.firstLen fd o n)), g) := by
  rcases Nat.lt_or_eq_of_le hle with hlt | hend
  · obtain ⟨g, g', hseek, hread, -⟩ := seek_read_spec ho hlt n
    refine ⟨g', ?_⟩
    rw [readFrom, bind_of_ok hseek, hread]
  · obtain ⟨g, hseek, hm, hopen, hoff, -⟩ := seek_spec ho hle
    have hnone : f.firstLen fd o n = 0 := by
      unfold firstLen
      omega
    refine ⟨g, ?_⟩
    rw [readFrom, bind_of_ok hseek, read_nothing hopen.used (by rw [hm.size, hoff, hend]), hnone]
    rfl

lemma readTwiceFrom_eq (ho : OpenChain f fd chain) (hle : o ≤ (f.openFiles fd).size) (n m : Nat) :
    ∃ g, readTwiceFrom fd.val o n m f =
      .ok (some (f.fileSlice chain o (f.firstLen fd o n) ++
        f.fileSlice chain (f.secondPlace fd o n) (f.secondLen fd o n m)), g) := by
  rcases Nat.lt_or_eq_of_le hle with hlt | hend
  · obtain ⟨g, g', hseek, hread, hm, hr, hoff, hplace⟩ := seek_read_spec ho hlt n
    have hlen : f.secondLen fd o n m = min m ((g'.openFiles fd).size - (g'.openFiles fd).offset) := by
      rw [hm.size, hoff, secondLen]
    have hinside := hr.inside
    have hr' : Readable g' fd chain (f.secondLen fd o n m) := { hr with inside := by omega }
    obtain ⟨h, hread', -⟩ := read_spec hlen hr'
    rw [hplace, hm.fileSlice] at hread'
    refine ⟨h, ?_⟩
    rw [readTwiceFrom, bind_of_ok hseek, bind_of_ok hread, bind_of_ok hread']
    rfl
  · obtain ⟨g, hseek, hm, hopen, hoff, -⟩ := seek_spec ho hle
    have hnone : f.firstLen fd o n = 0 := by
      unfold firstLen
      omega
    have hnone' : f.secondLen fd o n m = 0 := by
      unfold secondLen
      omega
    have hread : ∀ k, read fd.val k g = .ok (some [], g) := read_nothing hopen.used (by rw [hm.size, hoff, hend])
    refine ⟨g, ?_⟩
    rw [readTwiceFrom, bind_of_ok hseek, bind_of_ok (hread n), bind_of_ok (hread m), hnone, hnone']
    rfl

end Compose

/-- Two reads from a position that `seek` reaches return the bytes of one read exactly if
the split between them is harmless. -/
theorem reads_compose_iff (f : Fat) (fd : Fin maxOpen) (chain : List Nat) (ho : OpenChain f fd chain) (o : Nat)
    (hle : o ≤ (f.openFiles fd).size) (n m : Nat) :
    ReadsCompose f fd.val o n m ↔ SplitHarmless f fd chain o n m := by
  obtain ⟨g, htwice⟩ := readTwiceFrom_eq ho hle n m
  obtain ⟨g', honce⟩ := readFrom_eq ho hle (n + m)
  have hlen : f.firstLen fd o (n + m) = f.firstLen fd o n + f.secondLen fd o n m := by
    unfold firstLen secondLen firstLen
    omega
  rw [hlen, fileSlice_append] at honce
  have hsame : ReadsCompose f fd.val o n m ↔
      f.fileSlice chain (f.secondPlace fd o n) (f.secondLen fd o n m) =
        f.fileSlice chain (o + f.firstLen fd o n) (f.secondLen fd o n m) := by
    unfold ReadsCompose
    rw [htwice, honce]
    constructor
    · rintro ⟨bytes, _, _, hfirst, hsecond⟩
      injection hfirst with hfirst
      injection hsecond with hsecond
      have hboth := (congrArg Prod.fst hfirst).trans (congrArg Prod.fst hsecond).symm
      exact append_cancel_left (some.inj hboth)
    · intro heq
      exact ⟨_, g, g', rfl, by rw [heq]⟩
  rw [hsame, secondPlace, SplitHarmless]
  split_ifs with hsplit
  · exact ⟨fun heq _ _ => heq, fun heq => heq hsplit.1 hsplit.2⟩
  · exact ⟨fun _ hpos hmod => absurd ⟨hpos, hmod⟩ hsplit, fun _ => rfl⟩

def twoClusterFat : Sector := Sector.zero.patch 8 (toLe 3 4 ++ toLe fatEoc 4)

def twoClusterFile : OpenFile := ⟨true, false, 1024, 2, 2, 0, 0, 0, 0⟩

def twoClusters : Fat where
  present := true
  capacity := 4
  disk := fun lba => if lba = 1 then twoClusterFat else if lba = 2 then fun _ => 1 else fun _ => 2
  ctag := fun _ => emptyTag
  cdata := fun _ => Sector.zero
  ready := true
  bytesPerSec := 512
  secsPerCluster := 1
  fatStart := 1
  dataStart := 2
  rootCluster := 2
  totalClusters := 2
  freeHint := 2
  openFiles := fun _ => twoClusterFile

lemma twoClusters_chain : Chain twoClusters [2, 3] where
  inner := by decide
  sectors := by decide
  entries := by decide
  links i c d hi hi' := by
    match i with
    | 0 =>
      obtain rfl : c = 2 := (some.inj hi).symm
      obtain rfl : d = 3 := (some.inj hi').symm
      decide +kernel
    | i + 1 => cases hi'
  ends c hc := by
    obtain rfl : c = 3 := (some.inj hc).symm
    decide +kernel

lemma twoClusters_open : OpenChain twoClusters 0 [2, 3] where
  sound := ⟨rfl, by decide, fun _ hi => absurd rfl hi⟩
  linked := twoClusters_chain
  clusters := by decide
  used := rfl
  sized := by decide
  covers := by decide
  start c hc := some.inj hc
  cursor := Or.inl rfl

theorem reads_compose_inside_cluster : ReadsCompose twoClusters 0 0 100 600 :=
  (reads_compose_iff twoClusters 0 [2, 3] twoClusters_open 0 (by decide) 100 600).mpr
    fun _ hend => absurd hend (by decide)

/-- Reads split between the clusters: the first cluster is read again. -/
theorem split_at_cluster_end_reads_again :
    (∃ g, readTwiceFrom 0 0 512 1 twoClusters = .ok (some (List.replicate 513 1), g)) ∧
      (∃ g, readFrom 0 0 513 twoClusters = .ok (some (List.replicate 512 1 ++ [2]), g)) ∧
      ¬ReadsCompose twoClusters 0 0 512 1 := by
  obtain ⟨g, htwice⟩ := readTwiceFrom_eq twoClusters_open (Nat.zero_le _) 512 1
  obtain ⟨g', honce⟩ := readFrom_eq twoClusters_open (Nat.zero_le _) 513
  have hfirst : twoClusters.fileSlice [2, 3] 0 (twoClusters.firstLen 0 0 512) ++
      twoClusters.fileSlice [2, 3] (twoClusters.secondPlace 0 0 512) (twoClusters.secondLen 0 0 512 1) =
        List.replicate 513 1 := by decide +kernel
  have hsecond : twoClusters.fileSlice [2, 3] 0 (twoClusters.firstLen 0 0 513) = List.replicate 512 1 ++ [2] := by
    decide +kernel
  rw [hfirst] at htwice
  rw [hsecond] at honce
  refine ⟨⟨g, htwice⟩, ⟨g', honce⟩, ?_⟩
  rintro ⟨bytes, _, _, htwice', honce'⟩
  have hones := (congrArg Prod.fst (Except.ok.inj (htwice.symm.trans htwice'))).symm
  have htwo := (congrArg Prod.fst (Except.ok.inj (honce.symm.trans honce'))).symm
  exact absurd (some.inj (hones.symm.trans htwo)) (by decide +kernel)

end Aeglos.Fat
