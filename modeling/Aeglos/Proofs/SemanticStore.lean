import Aeglos.Library.Runs
import Aeglos.Proofs.SemanticIndex

/-!
# Blobs of the semantic store

What `store_full` writes, and what a whole history of calls and restarts keeps.
-/

namespace Aeglos.Semantic

open Sector TransitionSystem List Option Function

section Catalogue

structure Stored where
  data : Bytes
  metadata : Option Metadata
  vector : Option Embedding
  sector : Nat
  metaSector : Nat
  vecSector : Nat

namespace Stored

def entry (b : Stored) : IndexEntry := ⟨hashBuf b.data, b.sector, b.data.length, b.metaSector, b.vecSector⟩

structure Placed (b : Stored) (lo hi : Nat) : Prop where
  length_le : b.data.length ≤ 512
  sector : lo ≤ b.sector ∧ b.sector < hi
  metaSector : ∀ m, b.metadata = some m → lo ≤ b.metaSector ∧ b.metaSector < hi
  noMetadata : b.metadata = none → b.metaSector = 0
  vecSector : ∀ v, b.vector = some v → lo ≤ b.vecSector ∧ b.vecSector + 3 ≤ hi
  noVector : b.vector = none → b.vecSector = 0

structure Complete (b : Stored) (disk : Nat → Sector) : Prop where
  data : disk b.sector = zero.patch 0 b.data
  metadata : ∀ m, b.metadata = some m → disk b.metaSector = zero.patch 0 m.bytes
  vector : ∀ v, b.vector = some v → ∀ k < 3, disk (b.vecSector + k) = Store.vectorBlock v k

variable {b : Stored} {lo hi : Nat} {disk disk' : Nat → Sector}

lemma Placed.mono (h : b.Placed lo hi) {lo' hi' : Nat} (hlo : lo' ≤ lo) (hhi : hi ≤ hi') : b.Placed lo' hi' where
  length_le := h.length_le
  sector := ⟨hlo.trans h.sector.1, h.sector.2.trans_le hhi⟩
  metaSector m hm := ⟨hlo.trans (h.metaSector m hm).1, (h.metaSector m hm).2.trans_le hhi⟩
  noMetadata := h.noMetadata
  vecSector v hv := ⟨hlo.trans (h.vecSector v hv).1, (h.vecSector v hv).2.trans hhi⟩
  noVector := h.noVector

lemma Complete.congr (h : b.Complete disk) (hplaced : b.Placed lo hi)
    (hdisk : ∀ n, lo ≤ n → n < hi → disk' n = disk n) : b.Complete disk' where
  data := by
    rw [hdisk _ hplaced.sector.1 hplaced.sector.2]
    exact h.data
  metadata m hm := by
    obtain ⟨hlo, hhi⟩ := hplaced.metaSector m hm
    rw [hdisk _ hlo hhi]
    exact h.metadata m hm
  vector v hv k hk := by
    obtain ⟨hlo, hhi⟩ := hplaced.vecSector v hv
    rw [hdisk _ (by omega) (by omega)]
    exact h.vector v hv k hk

lemma length_hashBuf (data : Bytes) : (hashBuf data).length = 32 := by
  simp [hashBuf]

lemma Placed.fits (h : b.Placed lo hi) (hhi : hi ≤ totalBlocks) : b.entry.Fits := by
  have hsize : totalBlocks < 256 ^ 8 := by decide
  obtain ⟨data, metadata, vector, sector, metaSector, vecSector⟩ := b
  refine ⟨length_hashBuf data, ?_, ?_, ?_, ?_⟩
  · have := h.sector.2
    dsimp only [entry] at this ⊢
    omega
  · have := h.length_le
    dsimp only [entry] at this ⊢
    omega
  · cases metadata with
    | none =>
      have := h.noMetadata rfl
      dsimp only [entry] at this ⊢
      omega
    | some m =>
      have := (h.metaSector m rfl).2
      dsimp only [entry] at this ⊢
      omega
  · cases vector with
    | none =>
      have := h.noVector rfl
      dsimp only [entry] at this ⊢
      omega
    | some v =>
      have := (h.vecSector v rfl).2
      dsimp only [entry] at this ⊢
      omega

end Stored

/-- The disk holds exactly these blobs, in sectors below `lim`. -/
structure Kept (disk : Nat → Sector) (cat : List Stored) (lim : Nat) : Prop where
  index : Indexed disk (cat.map Stored.entry)
  placed : ∀ b ∈ cat, b.Placed dataStart lim
  complete : ∀ b ∈ cat, b.Complete disk

variable {disk disk' : Nat → Sector} {cat : List Stored} {lim : Nat}

lemma Kept.congr (h : Kept disk cat lim) (hlim : dataStart ≤ lim) (hdisk : ∀ n, 1 ≤ n → n < lim → disk' n = disk n) :
    Kept disk' cat lim := by
  rw [dataStart] at hlim
  refine ⟨h.index.congr fun n hn hn' => hdisk n hn (by omega), h.placed, ?_⟩
  intro b hb
  refine (h.complete b hb).congr (h.placed b hb) ?_
  intro n hn hlt
  rw [dataStart] at hn
  exact hdisk n (by omega) hlt

lemma Kept.mono (h : Kept disk cat lim) {lim' : Nat} (hlim : lim ≤ lim') : Kept disk cat lim' :=
  ⟨h.index, fun b hb => (h.placed b hb).mono le_rfl hlim, h.complete⟩

def find (cat : List Stored) (hash : Bytes) : Option Stored := cat.find? fun b => decide (hashBuf b.data = hash)

lemma Kept.lookupIndex {s : Store} (h : Kept s.disk cat lim) (hash : Bytes) :
    s.lookupIndex hash = (find cat hash).map fun b => (b.sector, b.data.length) := by
  rw [h.index.lookupIndex, List.find?_map, Option.map_map]
  rfl

def answer (cat : List Stored) (hash : Bytes) (outLen : Nat) : Except String Bytes :=
  match find cat hash with
  | none => .error "Not found"
  | some b => if outLen < b.data.length then .error "Buffer too small" else .ok b.data

lemma Kept.contents {s : Store} (h : Kept s.disk cat lim) {b : Stored} (hb : b ∈ cat) :
    (s.readBlock b.sector).slice 0 b.data.length = b.data := by
  rw [Store.readBlock, (h.complete b hb).data]
  exact slice_patch_self zero ((Nat.zero_add _).trans_le (h.placed b hb).length_le)

lemma Kept.retrieve {s : Store} (h : Kept s.disk cat lim) (hash : Bytes) (outLen : Nat) :
    s.retrieve hash outLen = some (answer cat hash outLen) := by
  rw [Store.retrieve, h.lookupIndex, answer]
  cases hfind : find cat hash with
  | none => rfl
  | some b =>
    have hb : b ∈ cat := mem_of_find?_eq_some hfind
    have hlength := (h.placed b hb).length_le
    simp only [map_some]
    split_ifs
    · rfl
    · omega
    · rw [h.contents hb]

end Catalogue

section Writes

def Store.onDiskNext (s : Store) : Nat := min s.nextFree totalBlocks

/-- Writes go to the superblock and to sectors that were not in use, the counter moves by at most `k`, and the
superblock has it. -/
structure Grows (s s' : Store) (writes : List (Nat × Sector)) (k : Nat) : Prop where
  disk : s'.disk = WriteLog.apply s.disk writes
  written : s'.written = s.written ++ writes
  next_ge : s.nextFree ≤ s'.nextFree
  next_le : s'.nextFree ≤ s.nextFree + k
  targets : ∀ w ∈ writes, w.1 = 0 ∨ s.nextFree ≤ w.1
  super : s.disk 0 = superblock s.onDiskNext → s'.disk 0 = superblock s'.onDiskNext

variable {s s' s'' : Store} {ws ws' : List (Nat × Sector)} {k k' n : Nat}

lemma Grows.refl (s : Store) : Grows s s [] 0 :=
  ⟨rfl, (append_nil _).symm, le_rfl, le_rfl, fun _ hw => absurd hw not_mem_nil, id⟩

lemma Grows.weaken (h : Grows s s' ws k) (hk : k ≤ k') : Grows s s' ws k' :=
  { h with next_le := h.next_le.trans (Nat.add_le_add_left hk _) }

lemma Grows.trans (h : Grows s s' ws k) (h' : Grows s' s'' ws' k') : Grows s s'' (ws ++ ws') (k + k') where
  disk := by rw [h'.disk, h.disk, WriteLog.apply_append]
  written := by rw [h'.written, h.written, append_assoc]
  next_ge := h.next_ge.trans h'.next_ge
  next_le := by
    have h1 := h.next_le
    have h2 := h'.next_le
    omega
  targets w hw := by
    rcases mem_append.mp hw with hw | hw
    · exact h.targets w hw
    · rcases h'.targets w hw with hzero | hge
      · exact Or.inl hzero
      · exact Or.inr (h.next_ge.trans hge)
  super hs := h'.super (h.super hs)

lemma Grows.write (h : Grows s s' ws k) (hn : s.nextFree ≤ n) (hpos : 0 < n) (buf : Sector) :
    Grows s (s'.writeBlock n buf) (ws ++ [(n, buf)]) k where
  disk := by
    rw [Store.writeBlock, WriteLog.apply_append, h.disk]
    rfl
  written := by
    rw [Store.writeBlock, ← append_assoc, h.written]
  next_ge := h.next_ge
  next_le := h.next_le
  targets w hw := by
    rcases mem_append.mp hw with hw | hw
    · exact h.targets w hw
    · rw [mem_singleton.mp hw]
      exact Or.inr hn
  super hs := by
    have hzero : (s'.writeBlock n buf).disk 0 = s'.disk 0 := update_of_ne (by omega) ..
    rw [hzero]
    exact h.super hs

lemma Grows.disk_eq (h : Grows s s' ws k) (hpos : 0 < n) (hlt : n < s.nextFree) : s'.disk n = s.disk n := by
  rw [h.disk]
  refine WriteLog.apply_of_not_mem ?_
  intro w hw
  rcases h.targets w hw with hzero | hge
  · omega
  · omega

lemma allocate_cases (s : Store) (hbound : s.nextFree + 1 < 2 ^ 64) :
    (∃ s' ws, s.allocate = (some s.nextFree, s') ∧ s.nextFree < totalBlocks ∧ s'.nextFree = s.nextFree + 1 ∧
      Grows s s' ws 1) ∨
    ∃ s' ws, s.allocate = (none, s') ∧ Grows s s' ws 1 := by
  have hwrap : wrap64 (s.nextFree + 1) = s.nextFree + 1 := Nat.mod_eq_of_lt hbound
  rcases Nat.lt_or_ge s.nextFree totalBlocks with hlt | hge
  · refine Or.inl ⟨{ s with nextFree := s.nextFree + 1 }.flushSuperblock, [(0, superblock (s.nextFree + 1))], ?_, hlt,
      rfl, ?_⟩
    · rw [Store.allocate, if_neg (Nat.not_le.mpr hlt), hwrap]
    · refine ⟨rfl, rfl, Nat.le_succ _, le_rfl, ?_, ?_⟩
      · intro w hw
        rw [mem_singleton.mp hw]
        exact Or.inl rfl
      · intro _
        have hmin : min (s.nextFree + 1) totalBlocks = s.nextFree + 1 := Nat.min_eq_left hlt
        change Function.update s.disk 0 (superblock (s.nextFree + 1)) 0 = superblock (min (s.nextFree + 1) totalBlocks)
        rw [hmin, update_self]
  · refine Or.inr ⟨{ s with nextFree := s.nextFree + 1 }, [], ?_, ?_⟩
    · rw [Store.allocate, if_pos hge, hwrap]
    · refine ⟨rfl, (append_nil _).symm, Nat.le_succ _, le_rfl, fun _ hw => absurd hw not_mem_nil, ?_⟩
      intro hs
      rw [Store.onDiskNext, Nat.min_eq_right hge] at hs
      rw [Store.onDiskNext, Nat.min_eq_right (hge.trans (Nat.le_succ _))]
      exact hs

end Writes

section Steps

variable {s : Store}

lemma storeMetadata_grows (metadata : Option Metadata) (hpos : 0 < s.nextFree) (hbound : s.nextFree + 1 < 2 ^ 64) :
    ∃ ws, Grows s (s.storeMetadata metadata).2 ws 1 ∧ ∀ n, (s.storeMetadata metadata).1 = some n →
      (metadata = none → n = 0) ∧ ∀ m, metadata = some m → n = s.nextFree ∧ n < totalBlocks ∧
        n < (s.storeMetadata metadata).2.nextFree ∧ (s.storeMetadata metadata).2.disk n = zero.patch 0 m.bytes := by
  cases metadata with
  | none =>
    refine ⟨[], (Grows.refl s).weaken (Nat.zero_le 1), ?_⟩
    intro n hn
    exact ⟨fun _ => (some.inj hn).symm, nofun⟩
  | some m =>
    rw [Store.storeMetadata]
    rcases allocate_cases s hbound with ⟨s', ws, halloc, hlt, hnext, hgrows⟩ | ⟨s', ws, halloc, hgrows⟩
    · rw [halloc]
      refine ⟨_, hgrows.write le_rfl hpos _, ?_⟩
      intro n hn
      obtain rfl : s.nextFree = n := some.inj hn
      refine ⟨nofun, ?_⟩
      intro m' hm
      obtain rfl := some.inj hm
      exact ⟨rfl, hlt, hnext.ge, update_self ..⟩
    · rw [halloc]
      exact ⟨ws, hgrows, nofun⟩

lemma storeVector_grows (vector : Option Embedding) (hpos : 0 < s.nextFree) (hbound : s.nextFree + 3 < 2 ^ 64) :
    ∃ ws, Grows s (s.storeVector vector).2 ws 3 ∧ ∀ n, (s.storeVector vector).1 = some n →
      (vector = none → n = 0) ∧ ∀ v, vector = some v → n = s.nextFree ∧ n + 3 ≤ totalBlocks ∧
        n + 3 ≤ (s.storeVector vector).2.nextFree ∧
        ∀ k < 3, (s.storeVector vector).2.disk (n + k) = Store.vectorBlock v k := by
  cases vector with
  | none =>
    refine ⟨[], (Grows.refl s).weaken (Nat.zero_le 3), ?_⟩
    intro n hn
    exact ⟨fun _ => (some.inj hn).symm, nofun⟩
  | some v =>
    rw [Store.storeVector]
    rcases allocate_cases s (by omega) with ⟨s₁, ws₁, halloc₁, hlt₁, hnext₁, h₁⟩ | ⟨s₁, ws₁, halloc₁, h₁⟩
    swap
    · rw [halloc₁]
      exact ⟨_, h₁.weaken (by decide), nofun⟩
    rw [halloc₁]
    dsimp only
    rcases allocate_cases s₁ (by omega) with ⟨s₂, ws₂, halloc₂, hlt₂, hnext₂, h₂⟩ | ⟨s₂, ws₂, halloc₂, h₂⟩
    swap
    · rw [halloc₂]
      exact ⟨_, (h₁.trans h₂).weaken (by decide), nofun⟩
    rw [halloc₂]
    dsimp only
    rcases allocate_cases s₂ (by omega) with ⟨s₃, ws₃, halloc₃, hlt₃, hnext₃, h₃⟩ | ⟨s₃, ws₃, halloc₃, h₃⟩
    swap
    · rw [halloc₃]
      exact ⟨_, (h₁.trans h₂).trans h₃, nofun⟩
    rw [halloc₃]
    dsimp only
    have hgrows := (((h₁.trans h₂).trans h₃).write le_rfl hpos (Store.vectorBlock v 0))
    have hgrows' := hgrows.write h₁.next_ge (by omega) (Store.vectorBlock v 1)
    refine ⟨_, hgrows'.write (h₁.next_ge.trans h₂.next_ge) (by omega) (Store.vectorBlock v 2), ?_⟩
    intro n hn
    obtain rfl : s.nextFree = n := some.inj hn
    refine ⟨nofun, ?_⟩
    intro v' hv
    obtain rfl := some.inj hv
    have hsecond : s₁.nextFree = s.nextFree + 1 := hnext₁
    have hthird : s₂.nextFree = s.nextFree + 2 := by omega
    refine ⟨rfl, by omega, ?_, ?_⟩
    · change s.nextFree + 3 ≤ s₃.nextFree
      omega
    · intro k hk
      simp only [Store.writeBlock, hsecond, hthird]
      interval_cases k
      · rw [update_of_ne (by omega), update_of_ne (by omega)]
        exact update_self ..
      · rw [update_of_ne (by omega)]
        exact update_self ..
      · exact update_self ..

def Store.prepare (s : Store) (data : Bytes) (metadata : Option Metadata) (vector : Option Embedding) :
    Option Stored × Store :=
  match s.allocate with
  | (none, s) => (none, s)
  | (some sector, s) =>
    match s.storeMetadata metadata with
    | (none, s) => (none, s)
    | (some metaSector, s) =>
      match s.storeVector vector with
      | (none, s) => (none, s)
      | (some vecSector, s) =>
        (some ⟨data, metadata, vector, sector, metaSector, vecSector⟩, s.writeBlock sector (zero.patch 0 data))

variable {data : Bytes} {metadata : Option Metadata} {vector : Option Embedding}

lemma storeFull_of_found (h : (s.lookupIndex (hashBuf data)).isSome) :
    s.storeFull data metadata vector = (.ok (hashBuf data), s) := by
  rw [Store.storeFull, if_pos h]

lemma storeFull_of_long (h : ¬(s.lookupIndex (hashBuf data)).isSome) (hlong : 512 < data.length) :
    s.storeFull data metadata vector = (.error "Data too large for single block", s) := by
  rw [Store.storeFull, if_neg h, if_pos hlong]

lemma storeFull_prepare (metadata : Option Metadata) (vector : Option Embedding)
    (h : ¬(s.lookupIndex (hashBuf data)).isSome) (hlength : data.length ≤ 512) :
    ∃ e, s.storeFull data metadata vector = match s.prepare data metadata vector with
      | (none, s') => (.error e, s')
      | (some b, s') =>
        (if (s'.writeIndex b.entry).1 then .ok (hashBuf data) else .error "Index full", (s'.writeIndex b.entry).2) := by
  rw [Store.storeFull, if_neg h, if_neg (Nat.not_lt.mpr hlength), Store.prepare]
  rcases s.allocate with ⟨_ | sector, s₁⟩
  · exact ⟨_, rfl⟩
  dsimp only
  rcases s₁.storeMetadata metadata with ⟨_ | metaSector, s₂⟩
  · exact ⟨_, rfl⟩
  dsimp only
  rcases s₂.storeVector vector with ⟨_ | vecSector, s₃⟩
  · exact ⟨_, rfl⟩
  · exact ⟨"", rfl⟩

lemma prepare_grows (metadata : Option Metadata) (vector : Option Embedding) (hpos : 0 < s.nextFree)
    (hbound : s.nextFree + 5 < 2 ^ 64) (hlength : data.length ≤ 512) :
    ∃ ws, Grows s (s.prepare data metadata vector).2 ws 5 ∧ ∀ b, (s.prepare data metadata vector).1 = some b →
      b.data = data ∧ b.metadata = metadata ∧ b.vector = vector ∧
      b.Placed s.nextFree (s.prepare data metadata vector).2.onDiskNext ∧
      b.Complete (s.prepare data metadata vector).2.disk := by
  rw [Store.prepare]
  rcases allocate_cases s (by omega) with ⟨s₁, ws₁, halloc, hlt₁, hnext₁, h₁⟩ | ⟨s₁, ws₁, halloc, h₁⟩
  swap
  · rw [halloc]
    exact ⟨_, h₁.weaken (by decide), nofun⟩
  rw [halloc]
  dsimp only
  obtain ⟨ws₂, h₂, hmeta⟩ := storeMetadata_grows metadata (s := s₁) (by omega) (by omega)
  rcases hstored : s₁.storeMetadata metadata with ⟨m, s₂⟩
  rw [hstored] at h₂ hmeta
  cases m with
  | none => exact ⟨_, (h₁.trans h₂).weaken (by decide), nofun⟩
  | some metaSector =>
    have hnext₂ := h₂.next_le
    have hge₂ := h₂.next_ge
    dsimp only at h₂ hmeta hnext₂ hge₂ ⊢
    obtain ⟨ws₃, h₃, hvec⟩ := storeVector_grows vector (s := s₂) (by omega) (by omega)
    rcases hvector : s₂.storeVector vector with ⟨v, s₃⟩
    rw [hvector] at h₃ hvec
    cases v with
    | none => exact ⟨_, (h₁.trans h₂).trans h₃, nofun⟩
    | some vecSector =>
      have hge₃ := h₃.next_ge
      dsimp only at h₃ hvec hge₃ ⊢
      refine ⟨_, ((h₁.trans h₂).trans h₃).write le_rfl hpos _, ?_⟩
      intro b hb
      obtain rfl := some.inj hb
      obtain ⟨hnometa, hsomemeta⟩ := hmeta metaSector rfl
      obtain ⟨hnovec, hsomevec⟩ := hvec vecSector rfl
      refine ⟨rfl, rfl, rfl, ?_, ?_⟩
      · have htop : (s₃.writeBlock s.nextFree (zero.patch 0 data)).onDiskNext = min s₃.nextFree totalBlocks := rfl
        rw [htop]
        refine ⟨hlength, ⟨le_rfl, by dsimp only; omega⟩, ?_, hnometa, ?_, hnovec⟩
        · intro m hm
          obtain ⟨heq, hlt, hbelow, -⟩ := hsomemeta m hm
          dsimp only
          omega
        · intro v hv
          obtain ⟨heq, hlt, hbelow, -⟩ := hsomevec v hv
          dsimp only
          omega
      · refine ⟨update_self .., ?_, ?_⟩
        · intro m hm
          obtain ⟨heq, hlt, hbelow, hdisk⟩ := hsomemeta m hm
          have hkeep : s₃.disk metaSector = s₂.disk metaSector := h₃.disk_eq (by omega) hbelow
          change Function.update s₃.disk s.nextFree _ metaSector = _
          rw [update_of_ne (by omega), hkeep, hdisk]
        · intro v hv k hk
          obtain ⟨heq, hlt, hbelow, hdisk⟩ := hsomevec v hv
          change Function.update s₃.disk s.nextFree _ (vecSector + k) = _
          rw [update_of_ne (by omega), hdisk k hk]

end Steps

section Soundness

structure Sound (s : Store) (cat : List Stored) : Prop where
  kept : Kept s.disk cat s.onDiskNext
  super : s.disk 0 = superblock s.onDiskNext
  next_ge : dataStart ≤ s.nextFree

variable {s s' : Store} {cat : List Stored} {ws : List (Nat × Sector)} {k : Nat} {data : Bytes}

lemma dataStart_le_onDiskNext (h : dataStart ≤ s.nextFree) : dataStart ≤ s.onDiskNext := le_min h (by decide)

lemma Grows.onDiskNext_le (h : Grows s s' ws k) : s.onDiskNext ≤ s'.onDiskNext := min_le_min_right _ h.next_ge

lemma Grows.sound (h : Grows s s' ws k) (hs : Sound s cat) : Sound s' cat where
  kept := by
    refine (hs.kept.congr (dataStart_le_onDiskNext hs.next_ge) ?_).mono h.onDiskNext_le
    intro n hn hlt
    exact h.disk_eq hn (hlt.trans_le (min_le_left _ _))
  super := h.super hs.super
  next_ge := hs.next_ge.trans h.next_ge

def publish (disk : Nat → Sector) (count : Nat) (e : IndexEntry) : Nat → Sector :=
  Function.update disk (1 + count / 8) (putEntry (disk (1 + count / 8)) (count % 8 * 64) e)

lemma Indexed.writeIndex {entries : List IndexEntry} (h : Indexed s.disk entries) (e : IndexEntry) :
    s.writeIndex e = if entries.length < 800 then
      (true, s.writeBlock (1 + entries.length / 8)
        (putEntry (s.disk (1 + entries.length / 8)) (entries.length % 8 * 64) e))
    else (false, s) := by
  rw [Store.writeIndex, h.find_free]
  split_ifs
  · rfl
  · rfl

lemma Kept.publish {disk : Nat → Sector} {lim : Nat} (h : Kept disk cat lim) (hlt : cat.length < 800) {b : Stored}
    (hplaced : b.Placed dataStart lim) (hcomplete : b.Complete disk) (hlim : lim ≤ totalBlocks) :
    Kept (publish disk cat.length b.entry) (cat ++ [b]) lim := by
  have hdata : ∀ n, dataStart ≤ n → n < lim → Semantic.publish disk cat.length b.entry n = disk n := by
    intro n hn _
    rw [dataStart] at hn
    exact update_of_ne (by omega) ..
  have hindexed := h.index.append (by rwa [length_map]) (hplaced.fits hlim) (by
    have hge := hplaced.sector.1
    rw [dataStart] at hge
    change b.sector ≠ 0
    omega)
  rw [length_map] at hindexed
  refine ⟨?_, ?_, ?_⟩
  · rw [map_append]
    exact hindexed
  · intro b' hb'
    rcases mem_append.mp hb' with hb' | hb'
    · exact h.placed b' hb'
    · rw [mem_singleton.mp hb']
      exact hplaced
  · intro b' hb'
    rcases mem_append.mp hb' with hb' | hb'
    · exact (h.complete b' hb').congr (h.placed b' hb') hdata
    · rw [mem_singleton.mp hb']
      exact hcomplete.congr hplaced hdata

/-- A blob that is not in the index: the call fails and has written to unused sectors, or it has prepared the
blob there and writes the index last. -/
lemma storeFull_new (hs : Sound s cat) (hbound : s.nextFree + 5 < 2 ^ 64) (hnew : find cat (hashBuf data) = none)
    (metadata : Option Metadata) (vector : Option Embedding) :
    (∃ e ws, (s.storeFull data metadata vector).1 = .error e ∧ Grows s (s.storeFull data metadata vector).2 ws 5) ∨
    ∃ (b : Stored) (ws : List (Nat × Sector)) (s' : Store), b.data = data ∧ b.metadata = metadata ∧
      b.vector = vector ∧ Grows s s' ws 5 ∧
      b.Placed s.nextFree s'.onDiskNext ∧ b.Complete s'.disk ∧ cat.length < 800 ∧
      s.storeFull data metadata vector = (.ok (hashBuf data), s'.writeBlock (1 + cat.length / 8)
        (putEntry (s'.disk (1 + cat.length / 8)) (cat.length % 8 * 64) b.entry)) := by
  have hlookup : ¬(s.lookupIndex (hashBuf data)).isSome := by
    rw [hs.kept.lookupIndex, hnew]
    exact Bool.false_ne_true
  have hge := hs.next_ge
  rw [dataStart] at hge
  rcases Nat.lt_or_ge 512 data.length with hlong | hlength
  · rw [storeFull_of_long hlookup hlong]
    exact Or.inl ⟨_, [], rfl, (Grows.refl s).weaken (Nat.zero_le 5)⟩
  obtain ⟨ws, hgrows, hprepared⟩ := prepare_grows metadata vector (by omega) hbound hlength
  rcases hprepare : s.prepare data metadata vector with ⟨b, s'⟩
  obtain ⟨e, he⟩ := storeFull_prepare metadata vector hlookup hlength
  rw [hprepare] at hgrows hprepared he
  rw [he]
  cases b with
  | none =>
    exact Or.inl ⟨e, ws, rfl, hgrows⟩
  | some b =>
    obtain ⟨hdata, hmeta, hvec, hplaced, hcomplete⟩ := hprepared b rfl
    dsimp only at hgrows hplaced hcomplete ⊢
    rw [(hgrows.sound hs).kept.index.writeIndex, length_map]
    by_cases hlt : cat.length < 800
    · rw [if_pos hlt]
      exact Or.inr ⟨b, ws, s', hdata, hmeta, hvec, hgrows, hplaced, hcomplete, hlt, rfl⟩
    · rw [if_neg hlt]
      exact Or.inl ⟨"Index full", ws, rfl, hgrows⟩

end Soundness

end Aeglos.Semantic
