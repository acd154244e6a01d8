import Aeglos.Proofs.SemanticStore

/-!
# Histories of the semantic store

Calls and restarts, from a zeroed disk on.
-/

namespace Aeglos.Semantic

open Sector TransitionSystem List Function

inductive StoreOp where
  | store (data : Bytes)
  | storeFull (data : Bytes) (metadata : Option Metadata) (vector : Option Embedding)
  | restart

namespace StoreOp

def blob : StoreOp → Option Bytes
  | .store data => some data
  | .storeFull data _ _ => some data
  | .restart => none

end StoreOp

namespace Store

def restart (s : Store) : Store := (Store.fresh s.disk).init

def step (s : Store) : StoreOp → Store
  | .store data => (s.store data).2
  | .storeFull data metadata vector => (s.storeFull data metadata vector).2
  | .restart => s.restart

def start : Store := (Store.fresh fun _ => zero).init

end Store

def NoCollisions (ops : List StoreOp) : Prop :=
  ∀ d ∈ ops.filterMap StoreOp.blob, ∀ d' ∈ ops.filterMap StoreOp.blob, hashBuf d = hashBuf d' → d = d'

instance NoCollisions.decidable (ops : List StoreOp) : Decidable (NoCollisions ops) :=
  inferInstanceAs (Decidable (∀ d ∈ ops.filterMap StoreOp.blob, ∀ d' ∈ ops.filterMap StoreOp.blob,
    hashBuf d = hashBuf d' → d = d'))

/-- The service is not restarted when the disk is exhausted, and the counter is not about to wrap. -/
def Usable (s : Store) (op : StoreOp) : Prop :=
  (op.blob = none → s.nextFree < totalBlocks) ∧ s.nextFree + 5 < 2 ^ 64

instance Usable.decidable (s : Store) (op : StoreOp) : Decidable (Usable s op) :=
  inferInstanceAs (Decidable ((op.blob = none → s.nextFree < totalBlocks) ∧ s.nextFree + 5 < 2 ^ 64))

section Restarts

lemma superblock_magic (next : Nat) : (superblock next).slice 0 8 = superblockMagic := by
  have hlength : ∀ n width, (toLe n width).length = width := length_toLe
  have hself : (zero.patch 0 superblockMagic).slice 0 8 = superblockMagic := slice_patch_self zero (by decide)
  rw [superblock, slice_patch_of_disjoint _ (by omega), slice_patch_of_disjoint _ (by omega), hself]

lemma superblock_next {next : Nat} (h : next < 256 ^ 8) : fromLe ((superblock next).slice 12 8) = next := by
  rw [superblock, slice_patch_toLe _ (by decide), fromLe_toLe_of_lt h]

variable {s : Store} {cat : List Stored}

lemma init_of_magic {disk : Nat → Sector} (h : (disk 0).slice 0 8 = superblockMagic) :
    (Store.fresh disk).init = { Store.fresh disk with
      nextFree := if fromLe ((disk 0).slice 12 8) ≥ dataStart ∧ fromLe ((disk 0).slice 12 8) < totalBlocks then
        fromLe ((disk 0).slice 12 8) else dataStart } := by
  rw [Store.init]
  exact if_pos h

lemma Sound.restart_eq (h : Sound s cat) :
    s.restart = ⟨if s.nextFree < totalBlocks then s.nextFree else dataStart, s.disk, []⟩ := by
  have hsuper := h.super
  have htotal : totalBlocks < 256 ^ 8 := by decide
  have hnext : fromLe ((s.disk 0).slice 12 8) = s.onDiskNext := by
    rw [hsuper]
    exact superblock_next ((min_le_right _ _).trans_lt htotal)
  have hmagic : (s.disk 0).slice 0 8 = superblockMagic := by
    rw [hsuper, superblock_magic]
  rw [Store.restart, init_of_magic hmagic, hnext]
  by_cases hlt : s.nextFree < totalBlocks
  · have hmin : s.onDiskNext = s.nextFree := Nat.min_eq_left hlt.le
    rw [hmin, if_pos ⟨h.next_ge, hlt⟩, if_pos hlt]
    rfl
  · have hmin : s.onDiskNext = totalBlocks := Nat.min_eq_right (Nat.not_lt.mp hlt)
    rw [hmin, if_neg (fun hcond => absurd hcond.2 (Nat.lt_irrefl _)), if_neg hlt]
    rfl

lemma Sound.restart (h : Sound s cat) (hlt : s.nextFree < totalBlocks) : Sound s.restart cat := by
  rw [h.restart_eq, if_pos hlt]
  exact ⟨h.kept, h.super, h.next_ge⟩

lemma fromLe_zero_slice (off len : Nat) : fromLe (zero.slice off len) = 0 := by
  have hbytes : zero.slice off len = List.replicate len 0 := by
    refine eq_replicate_iff.mpr ⟨length_slice _, ?_⟩
    intro b hb
    obtain ⟨k, -, rfl⟩ := mem_map.mp hb
    rw [byteAt]
    split_ifs
    · rfl
    · rfl
  rw [hbytes]
  clear hbytes
  induction len with
  | zero => rfl
  | succ len ih => simpa [replicate_succ, fromLe] using ih

lemma start_eq : Store.start = (Store.fresh fun _ => zero).flushSuperblock := by
  have hmagic : ¬zero.slice 0 8 = superblockMagic := by decide
  rw [Store.start, Store.init]
  exact if_neg hmagic

lemma sound_start : Sound Store.start [] := by
  rw [start_eq]
  refine ⟨⟨⟨Nat.zero_le _, nofun, ?_⟩, nofun, nofun⟩, rfl, le_rfl⟩
  intro k _ _
  have hsector : (Store.fresh fun _ => zero).flushSuperblock.disk (indexStartSector + (slotNo k).1) = zero :=
    update_of_ne (by simp [indexStartSector, superblockSector]) ..
  rw [slotEntry, hsector]
  exact fromLe_zero_slice _ _

end Restarts

section Plain

variable {s : Store} {cat : List Stored} {data : Bytes}

def Store.placed (s : Store) (data : Bytes) : Store :=
  ({ s with nextFree := s.nextFree + 1 }.flushSuperblock).writeBlock s.nextFree (zero.patch 0 data)

lemma Store.placed_disk_self : (s.placed data).disk s.nextFree = zero.patch 0 data := update_self ..

lemma Store.placed_disk_of_ne {n : Nat} (hzero : n ≠ 0) (hn : n ≠ s.nextFree) : (s.placed data).disk n = s.disk n := by
  have hdata : (s.placed data).disk n = { s with nextFree := s.nextFree + 1 }.flushSuperblock.disk n :=
    update_of_ne hn ..
  rw [hdata]
  exact update_of_ne hzero ..

lemma prepare_plain (hlt : s.nextFree < totalBlocks) :
    s.prepare data none none = (some ⟨data, none, none, s.nextFree, 0, 0⟩, s.placed data) := by
  have hwrap : wrap64 (s.nextFree + 1) = s.nextFree + 1 := by
    rw [totalBlocks] at hlt
    exact Nat.mod_eq_of_lt (by omega)
  have halloc : s.allocate = (some s.nextFree, { s with nextFree := s.nextFree + 1 }.flushSuperblock) := by
    rw [Store.allocate, if_neg (Nat.not_le.mpr hlt), hwrap]
  rw [Store.prepare, halloc]
  rfl

lemma store_plain {lim : Nat} (hkept : Kept s.disk cat lim) (hge : dataStart ≤ s.nextFree)
    (hlt : s.nextFree < totalBlocks) (hlength : data.length ≤ 512) (hnew : find cat (hashBuf data) = none) :
    s.store data = if cat.length < 800 then (.ok (hashBuf data), (s.placed data).writeBlock (1 + cat.length / 8)
        (putEntry ((s.placed data).disk (1 + cat.length / 8)) (cat.length % 8 * 64)
          (Stored.mk data none none s.nextFree 0 0).entry))
      else (.error "Index full", s.placed data) := by
  have hlookup : ¬(s.lookupIndex (hashBuf data)).isSome := by
    rw [hkept.lookupIndex, hnew]
    exact Bool.false_ne_true
  have hindex : Indexed (s.placed data).disk (cat.map Stored.entry) := by
    refine hkept.index.congr ?_
    intro n hn hn'
    rw [dataStart] at hge
    exact Store.placed_disk_of_ne (by omega) (by omega)
  obtain ⟨e, he⟩ := storeFull_prepare none none hlookup hlength
  rw [prepare_plain hlt] at he
  dsimp only at he
  rw [Store.store, he, hindex.writeIndex, length_map]
  by_cases hroom : cat.length < 800
  · rw [if_pos hroom, if_pos hroom]
    rfl
  · rw [if_neg hroom, if_neg hroom]
    rfl

lemma store_start (hlength : data.length ≤ 512) : (Store.start.store data).1 = .ok (hashBuf data) := by
  have hnext : Store.start.nextFree = dataStart := by
    rw [start_eq]
    rfl
  have hlt : Store.start.nextFree < totalBlocks := by
    rw [hnext]
    decide
  rw [store_plain sound_start.kept hnext.ge hlt hlength rfl, if_pos (by decide)]

end Plain

section Runs

variable {s : Store} {cat cat' : List Stored} {hash : Bytes} {b : Stored}

lemma Sound.publish (h : Sound s cat) (hlt : cat.length < 800) {lo : Nat} (hplaced : b.Placed lo s.onDiskNext)
    (hlo : dataStart ≤ lo) (hcomplete : b.Complete s.disk) :
    Sound (s.writeBlock (1 + cat.length / 8)
      (putEntry (s.disk (1 + cat.length / 8)) (cat.length % 8 * 64) b.entry)) (cat ++ [b]) where
  kept := h.kept.publish hlt (hplaced.mono hlo le_rfl) hcomplete (min_le_right _ _)
  super := by
    have hzero : (s.writeBlock (1 + cat.length / 8)
        (putEntry (s.disk (1 + cat.length / 8)) (cat.length % 8 * 64) b.entry)).disk 0 = s.disk 0 :=
      update_of_ne (by omega) ..
    rw [hzero]
    exact h.super
  next_ge := h.next_ge

lemma find_append_of_some (h : find cat hash = some b) (later : List Stored) : find (cat ++ later) hash = some b := by
  rw [find, find?_append]
  exact Option.or_eq_some_iff.mpr (Or.inl h)

lemma find_append_self (h : find cat (hashBuf b.data) = none) : find (cat ++ [b]) (hashBuf b.data) = some b := by
  rw [find] at h ⊢
  rw [find?_append, h]
  simp

lemma hashBuf_of_find (h : find cat hash = some b) : b ∈ cat ∧ hashBuf b.data = hash := by
  rw [find] at h
  have hb := find?_some h
  exact ⟨mem_of_find?_eq_some h, of_decide_eq_true hb⟩

lemma storeFull_sound (hs : Sound s cat) (hbound : s.nextFree + 5 < 2 ^ 64) (data : Bytes)
    (metadata : Option Metadata) (vector : Option Embedding) :
    ∃ later, Sound (s.storeFull data metadata vector).2 (cat ++ later) ∧ (∀ b ∈ later, b.data = data) ∧
      ∀ hash, (s.storeFull data metadata vector).1 = .ok hash →
        hash = hashBuf data ∧ ∃ b, find (cat ++ later) hash = some b := by
  cases hfind : find cat (hashBuf data) with
  | some b =>
    have hlookup : (s.lookupIndex (hashBuf data)).isSome := by
      rw [hs.kept.lookupIndex, hfind]
      rfl
    rw [storeFull_of_found hlookup]
    refine ⟨[], by rwa [append_nil], nofun, ?_⟩
    intro hash hok
    obtain rfl : hashBuf data = hash := Except.ok.inj hok
    exact ⟨rfl, b, find_append_of_some hfind []⟩
  | none =>
    rcases storeFull_new hs hbound hfind metadata vector with
      ⟨e, ws, herr, hgrows⟩ | ⟨b, ws, s', rfl, -, -, hgrows, hplaced, hcomplete, hlt, heq⟩
    · refine ⟨[], ?_, nofun, ?_⟩
      · rw [append_nil]
        exact hgrows.sound hs
      · intro hash hok
        rw [herr] at hok
        cases hok
    · rw [heq]
      refine ⟨[b], (hgrows.sound hs).publish hlt hplaced hs.next_ge hcomplete, ?_, ?_⟩
      · intro b' hb'
        rw [mem_singleton.mp hb']
      · intro hash hok
        obtain rfl : hashBuf b.data = hash := Except.ok.inj hok
        exact ⟨rfl, b, find_append_self hfind⟩

lemma step_sound (hs : Sound s cat) {op : StoreOp} (hop : Usable s op) :
    ∃ later, Sound (s.step op) (cat ++ later) ∧ ∀ b ∈ later, op.blob = some b.data := by
  cases op with
  | store data =>
    obtain ⟨later, hsound, hblob, -⟩ := storeFull_sound hs hop.2 data none none
    exact ⟨later, hsound, fun b hb => congrArg some (hblob b hb).symm⟩
  | storeFull data metadata vector =>
    obtain ⟨later, hsound, hblob, -⟩ := storeFull_sound hs hop.2 data metadata vector
    exact ⟨later, hsound, fun b hb => congrArg some (hblob b hb).symm⟩
  | restart =>
    refine ⟨[], ?_, nofun⟩
    rw [append_nil]
    exact hs.restart (hop.1 rfl)

lemma run_sound {ops : List StoreOp} (hs : Sound s cat) (hops : Guarded Store.step Usable s ops) :
    ∃ later, Sound (run Store.step s ops) (cat ++ later) ∧ ∀ b ∈ later, b.data ∈ ops.filterMap StoreOp.blob := by
  induction ops generalizing s cat with
  | nil => exact ⟨[], by rwa [append_nil], nofun⟩
  | cons op ops ih =>
    obtain ⟨first, hfirst, hblob⟩ := step_sound hs hops.1
    obtain ⟨later, hlater, hblobs⟩ := ih hfirst hops.2
    refine ⟨first ++ later, ?_, ?_⟩
    · rw [← append_assoc]
      exact hlater
    · intro b hb
      rw [mem_filterMap]
      rcases mem_append.mp hb with hb | hb
      · exact ⟨op, mem_cons_self, hblob b hb⟩
      · obtain ⟨op', hop', heq⟩ := mem_filterMap.mp (hblobs b hb)
        exact ⟨op', mem_cons_of_mem op hop', heq⟩

/-- Once `store` has returned a hash, `retrieve` returns the blob after every usable continuation. -/
theorem blobs_kept {before after : List StoreOp} {data hash : Bytes} {outLen : Nat}
    (hops : Guarded Store.step Usable Store.start (before ++ .store data :: after))
    (hcollisions : NoCollisions (before ++ .store data :: after))
    (hok : ((run Store.step Store.start before).store data).1 = .ok hash) (hlen : data.length ≤ outLen) :
    (run Store.step Store.start (before ++ .store data :: after)).retrieve hash outLen = some (.ok data) := by
  obtain ⟨hbefore, hstore, hafter⟩ := (guarded_append Store.step Usable Store.start before _).mp hops
  obtain ⟨cat, hcat, hblobs⟩ := run_sound sound_start hbefore
  obtain ⟨stored, hstored, hblob, hfound⟩ := storeFull_sound hcat hstore.2 data none none
  obtain ⟨rfl, b, hfind⟩ := hfound hash hok
  obtain ⟨later, hlater, -⟩ := run_sound hstored hafter
  have hdata : b.data = data := by
    obtain ⟨hb, hhash⟩ := hashBuf_of_find hfind
    rcases mem_append.mp hb with hb | hb
    · rw [nil_append] at hb
      refine hcollisions _ ?_ _ ?_ hhash
      · rw [filterMap_append]
        exact mem_append_left _ (hblobs b hb)
      · exact mem_filterMap.mpr ⟨.store data, by simp, rfl⟩
    · exact hblob b hb
  have hstep : (run Store.step Store.start before).step (.store data) =
      ((run Store.step Store.start before).storeFull data none none).2 := rfl
  rw [run_append, run_cons, hstep, hlater.kept.retrieve, answer, find_append_of_some hfind later]
  simp only [hdata]
  rw [if_neg (Nat.not_lt.mpr hlen)]

theorem blob_kept_over_restart :
    (run Store.step Store.start [.store [1], .restart, .store [2]]).retrieve (hashBuf [1]) 1 = some (.ok [1]) :=
  @blobs_kept [] [.restart, .store [2]] [1] (hashBuf [1]) 1 (by decide +kernel) (by decide +kernel)
    (store_start (by decide)) le_rfl

/-- After every usable history, what `retrieve` returns was handed to the store, and has the hash. -/
theorem retrieved_was_stored {ops : List StoreOp} {hash data : Bytes} {outLen : Nat}
    (hops : Guarded Store.step Usable Store.start ops)
    (hok : (run Store.step Store.start ops).retrieve hash outLen = some (.ok data)) :
    data ∈ ops.filterMap StoreOp.blob ∧ hashBuf data = hash ∧ data.length ≤ outLen := by
  obtain ⟨cat, hsound, hblobs⟩ := run_sound sound_start hops
  rw [hsound.kept.retrieve, answer, nil_append] at hok
  cases hfind : find cat hash with
  | none =>
    rw [hfind] at hok
    cases hok
  | some b =>
    obtain ⟨hb, hhash⟩ := hashBuf_of_find hfind
    simp only [hfind] at hok
    split_ifs at hok with hroom
    · cases hok
    · obtain rfl : b.data = data := by simpa using hok
      exact ⟨hblobs b hb, hhash, Nat.not_lt.mp hroom⟩

theorem retrieved_was_stored_once : [1] ∈ [StoreOp.store [1]].filterMap StoreOp.blob :=
  (@retrieved_was_stored [.store [1]] (hashBuf [1]) [1] 1 (by decide +kernel) (by decide +kernel)).1

end Runs

lemma mul_fnvPrime_injective {a b : UInt64} (h : a * fnvPrime = b * fnvPrime) : a = b := by
  -- the prime is odd, so it has an inverse modulo 2 ^ 64
  have hinverse : fnvPrime * 0xb9449d28341caef1 = 1 := by decide
  calc a = a * fnvPrime * 0xb9449d28341caef1 := by rw [UInt64.mul_assoc, hinverse, UInt64.mul_one]
    _ = b * fnvPrime * 0xb9449d28341caef1 := by rw [h]
    _ = b := by rw [UInt64.mul_assoc, hinverse, UInt64.mul_one]

lemma fnv_eq_of_hashBuf_eq {d d' : Bytes} (h : hashBuf d = hashBuf d') : fnv d = fnv d' := by
  have hfirst : toLe (fnv d * fnvPrime).toNat 8 = toLe (fnv d' * fnvPrime).toNat 8 := by
    have happ := h
    simp only [hashBuf, flatMap_cons, UInt64.add_zero] at happ
    exact (append_inj happ (by simp)).1
  have hnumbers := congrArg fromLe hfirst
  rw [fromLe_toLe_of_lt (UInt64.toNat_lt _), fromLe_toLe_of_lt (UInt64.toNat_lt _)] at hnumbers
  exact mul_fnvPrime_injective (UInt64.toNat_inj.mp hnumbers)

def blob (k : Nat) : Bytes := [UInt8.ofNat (k / 256), UInt8.ofNat k]

lemma length_blob_le (k : Nat) : (blob k).length ≤ 512 := by
  have hlength : (blob k).length = 2 := rfl
  omega

def afterFirst (a : UInt8) : UInt64 := (fnvBasis ^^^ a.toUInt64) * fnvPrime

lemma afterFirst_far : ∀ a < 4, ∀ a' < 4, a ≠ a' →
    256 ≤ (afterFirst (UInt8.ofNat a) ^^^ afterFirst (UInt8.ofNat a')).toNat := by
  decide

lemma xor_eq_xor_of_xor_eq {x y b c : UInt64} (h : x ^^^ b = y ^^^ c) : x ^^^ y = b ^^^ c := by
  calc x ^^^ y = (x ^^^ b) ^^^ (b ^^^ y) := by
        rw [UInt64.xor_assoc, ← UInt64.xor_assoc b, UInt64.xor_self, UInt64.zero_xor]
    _ = (y ^^^ c) ^^^ (b ^^^ y) := by rw [h]
    _ = b ^^^ c := by
        rw [UInt64.xor_comm b y, UInt64.xor_comm y c, UInt64.xor_assoc, ← UInt64.xor_assoc y, UInt64.xor_self,
          UInt64.zero_xor, UInt64.xor_comm]

lemma blob_inj {j k : Nat} (hj : j < 1024) (hk : k < 1024) (h : hashBuf (blob j) = hashBuf (blob k)) : j = k := by
  have hfnv : afterFirst (UInt8.ofNat (j / 256)) ^^^ (UInt8.ofNat j).toUInt64 =
      afterFirst (UInt8.ofNat (k / 256)) ^^^ (UInt8.ofNat k).toUInt64 :=
    mul_fnvPrime_injective (fnv_eq_of_hashBuf_eq h)
  have hxor := xor_eq_xor_of_xor_eq hfnv
  have hhigh : j / 256 = k / 256 := by
    by_contra hne
    have hfar := afterFirst_far (j / 256) (by omega) (k / 256) (by omega) hne
    rw [hxor, ← UInt8.toUInt64_xor, UInt8.toNat_toUInt64] at hfar
    have hnear := UInt8.toNat_lt (UInt8.ofNat j ^^^ UInt8.ofNat k)
    omega
  rw [hhigh, UInt64.xor_self] at hxor
  have hlow := congrArg UInt64.toNat (UInt64.xor_eq_zero_iff.mp hxor.symm)
  simp only [UInt8.toNat_toUInt64, UInt8.toNat_ofNat'] at hlow
  omega

section Exhaustion

variable {s : Store} {cat : List Stored} {data : Bytes}

lemma store_filled (hs : Sound s cat) (hlt : s.nextFree < totalBlocks) (hlength : data.length ≤ 512)
    (hnew : find cat (hashBuf data) = none) (hroom : cat.length < 800) :
    Sound (s.store data).2 (cat ++ [⟨data, none, none, s.nextFree, 0, 0⟩]) ∧
      (s.store data).2.nextFree = s.nextFree + 1 := by
  have hge := hs.next_ge
  rw [store_plain hs.kept hge hlt hlength hnew, if_pos hroom]
  rw [dataStart] at hge
  rw [totalBlocks] at hlt
  obtain ⟨ws, hgrows, hprepared⟩ := prepare_grows none none (s := s) (by omega) (by omega) hlength
  rw [prepare_plain hlt] at hgrows hprepared
  obtain ⟨-, -, -, hplaced, hcomplete⟩ := hprepared _ rfl
  exact ⟨(hgrows.sound hs).publish hroom hplaced hs.next_ge hcomplete, rfl⟩

lemma store_leaks (hs : Sound s cat) (hlt : s.nextFree < totalBlocks) (hlength : data.length ≤ 512)
    (hnew : find cat (hashBuf data) = none) (hfull : cat.length = 800) :
    Sound (s.store data).2 cat ∧ (s.store data).2.nextFree = s.nextFree + 1 := by
  have hge := hs.next_ge
  rw [store_plain hs.kept hge hlt hlength hnew, if_neg (by omega)]
  rw [dataStart] at hge
  rw [totalBlocks] at hlt
  obtain ⟨ws, hgrows, -⟩ := prepare_grows none none (s := s) (by omega) (by omega) hlength
  rw [prepare_plain hlt] at hgrows
  exact ⟨hgrows.sound hs, rfl⟩

lemma run_leaks (hs : Sound s cat) (hlength : data.length ≤ 512) (hnew : find cat (hashBuf data) = none)
    (hfull : cat.length = 800) {m : Nat} (hm : s.nextFree + m ≤ totalBlocks) :
    Sound (run Store.step s (List.replicate m (.store data))) cat ∧
      (run Store.step s (List.replicate m (.store data))).nextFree = s.nextFree + m := by
  induction m generalizing s with
  | zero => exact ⟨hs, rfl⟩
  | succ m ih =>
    obtain ⟨hsound, hnext⟩ := store_leaks hs (by omega) hlength hnew hfull
    obtain ⟨hsound', hnext'⟩ := ih hsound (by omega)
    have hstep : s.step (.store data) = (s.store data).2 := rfl
    rw [replicate_succ, run_cons, hstep, hnext', hnext]
    exact ⟨hsound', by omega⟩

def filling (n : Nat) : List StoreOp := (List.range n).map fun k => .store (blob k)

lemma range_800 : List.range 800 = 0 :: (List.range 799).map Nat.succ := range_succ_eq_map

lemma find_blob_eq_none {n k : Nat} (hcat : cat.map (fun b => (b.data, b.sector)) =
    (List.range n).map fun k => (blob k, dataStart + k)) (hn : n ≤ k) (hk : k < 1024) :
    find cat (hashBuf (blob k)) = none := by
  rw [find, find?_eq_none]
  intro b hb
  have hmem := mem_map_of_mem (f := fun b : Stored => (b.data, b.sector)) hb
  rw [hcat] at hmem
  obtain ⟨j, hj, heq⟩ := mem_map.mp hmem
  have hlt := mem_range.mp hj
  have hdata : blob j = b.data := congrArg Prod.fst heq
  rw [decide_eq_true_iff, ← hdata]
  intro hhash
  have := blob_inj (by omega) hk hhash
  omega

lemma run_filling {n : Nat} (hn : n ≤ 800) :
    ∃ cat, Sound (run Store.step Store.start (filling n)) cat ∧
      (run Store.step Store.start (filling n)).nextFree = dataStart + n ∧
      cat.map (fun b => (b.data, b.sector)) = (List.range n).map fun k => (blob k, dataStart + k) := by
  induction n with
  | zero =>
    refine ⟨[], sound_start, ?_, rfl⟩
    rw [filling, range_zero, map_nil, run_nil, start_eq]
    rfl
  | succ n ih =>
    obtain ⟨cat, hsound, hnext, hcat⟩ := ih (by omega)
    have hlength : cat.length = n := by simpa using congrArg List.length hcat
    have hnew := find_blob_eq_none hcat le_rfl (by omega)
    have hlt : (run Store.step Store.start (filling n)).nextFree < totalBlocks := by
      rw [hnext, dataStart, totalBlocks]
      omega
    obtain ⟨hsound', hnext'⟩ := store_filled hsound hlt (length_blob_le n) hnew (by omega)
    have hrun : run Store.step Store.start (filling (n + 1)) =
        ((run Store.step Store.start (filling n)).store (blob n)).2 := by
      rw [filling, range_succ, map_append, run_append]
      rfl
    refine ⟨_, hrun ▸ hsound', ?_, ?_⟩
    · rw [hrun, hnext', hnext, Nat.add_assoc]
    · rw [map_append, hcat, range_succ, map_append]
      simp [hnext]

def exhausting : List StoreOp :=
  filling 800 ++ List.replicate 19579 (.store (blob 800)) ++ [.restart, .store (blob 800)]

lemma noCollisions_exhausting : NoCollisions exhausting := by
  have hblobs : ∀ d ∈ exhausting.filterMap StoreOp.blob, ∃ k < 1024, d = blob k := by
    intro d hd
    obtain ⟨op, hop, hblob⟩ := mem_filterMap.mp hd
    rw [exhausting, mem_append, mem_append] at hop
    rcases hop with (hop | hop) | hop
    · obtain ⟨k, hk, rfl⟩ := mem_map.mp hop
      have hlt := mem_range.mp hk
      exact ⟨k, by omega, (Option.some.inj hblob).symm⟩
    · rw [eq_of_mem_replicate hop] at hblob
      exact ⟨800, by decide, (Option.some.inj hblob).symm⟩
    · rcases mem_cons.mp hop with rfl | hop
      · cases hblob
      · rw [mem_singleton.mp hop] at hblob
        exact ⟨800, by decide, (Option.some.inj hblob).symm⟩
  intro d hd d' hd' hhash
  obtain ⟨j, hj, rfl⟩ := hblobs d hd
  obtain ⟨k, hk, rfl⟩ := hblobs d' hd'
  rw [blob_inj hj hk hhash]

lemma run_exhausted : ∃ b cat, b.data = blob 0 ∧ b.sector = dataStart ∧ (b :: cat).length = 800 ∧
    find (b :: cat) (hashBuf (blob 800)) = none ∧
    Sound (run Store.step Store.start (filling 800 ++ List.replicate 19579 (.store (blob 800)))) (b :: cat) ∧
    (run Store.step Store.start (filling 800 ++ List.replicate 19579 (.store (blob 800)))).nextFree = totalBlocks := by
  obtain ⟨cat, hsound, hnext, hcat⟩ := run_filling (n := 800) le_rfl
  have hlength : cat.length = 800 := by simpa using congrArg List.length hcat
  have hnew := find_blob_eq_none hcat le_rfl (by decide)
  obtain ⟨hsound', hnext'⟩ := run_leaks hsound (length_blob_le 800) hnew hlength (m := 19579) (by rw [hnext]; decide)
  cases cat with
  | nil => cases hlength
  | cons b cat =>
    have hfirst : (b.data, b.sector) = (blob 0, dataStart + 0) := by
      rw [range_800, map_cons, map_cons] at hcat
      exact (List.cons.inj hcat).1
    refine ⟨b, cat, congrArg Prod.fst hfirst, congrArg Prod.snd hfirst, hlength, hnew, ?_, ?_⟩
    · rw [run_append]
      exact hsound'
    · rw [run_append, hnext', hnext]
      rfl

lemma retrieve_overwritten {b : Stored} {lim : Nat} {disk : Nat → Sector} (hkept : Kept disk (b :: cat) lim)
    (hdata : b.data = blob 0) (hsector : b.sector = dataStart) :
    ((Store.mk dataStart disk []).placed (blob 800)).retrieve (hashBuf (blob 0)) 512 = some (.ok (blob 800)) := by
  have hindex : Indexed ((Store.mk dataStart disk []).placed (blob 800)).disk ((b :: cat).map Stored.entry) := by
    refine hkept.index.congr ?_
    intro n hn hn'
    have hne : n ≠ dataStart := by
      rw [dataStart]
      omega
    exact Store.placed_disk_of_ne (by omega) hne
  have hlookup : ((Store.mk dataStart disk []).placed (blob 800)).lookupIndex (hashBuf (blob 0)) =
      some (dataStart, 2) := by
    rw [hindex.lookupIndex, map_cons, find?_cons_of_pos (by simp [Stored.entry, hdata])]
    simp only [Stored.entry, hdata, hsector, Option.map_some]
    rfl
  rw [Store.retrieve, hlookup]
  have hblock : ((Store.mk dataStart disk []).placed (blob 800)).readBlock dataStart = zero.patch 0 (blob 800) :=
    Store.placed_disk_self
  simp only [hblock]
  have hself : (zero.patch 0 (blob 800)).slice 0 2 = blob 800 := slice_patch_self zero (by decide)
  rw [hself]
  rfl

lemma head_exhausting : exhausting.head? = some (.store (blob 0)) := by
  rw [exhausting, filling, range_800, map_cons, cons_append, cons_append, List.head?_cons]

lemma retrieve_after_restart {s : Store} {b : Stored} (hdata : b.data = blob 0) (hsector : b.sector = dataStart)
    (hlength : (b :: cat).length = 800) (hnew : find (b :: cat) (hashBuf (blob 800)) = none)
    (hsound : Sound s (b :: cat)) (hnext : s.nextFree = totalBlocks) :
    (run Store.step s [.restart, .store (blob 800)]).retrieve (hashBuf (blob 0)) 512 = some (.ok (blob 800)) := by
  have hrun : run Store.step s [.restart, .store (blob 800)] = (s.restart.store (blob 800)).2 := rfl
  have hrestart : s.restart = ⟨dataStart, s.disk, []⟩ := by
    rw [hsound.restart_eq, if_neg (by omega)]
  have hfirst : dataStart < totalBlocks := by decide
  rw [hrun, hrestart, store_plain (s := ⟨dataStart, s.disk, []⟩) hsound.kept le_rfl hfirst (length_blob_le 800) hnew,
    if_neg (by omega)]
  exact retrieve_overwritten hsound.kept hdata hsector

/-- The first blob was acknowledged, and in the end its hash leads to another blob. -/
theorem blob_lost_after_restart :
    NoCollisions exhausting ∧ exhausting.head? = some (.store (blob 0)) ∧
    (Store.start.store (blob 0)).1 = .ok (hashBuf (blob 0)) ∧
    (run Store.step Store.start exhausting).retrieve (hashBuf (blob 0)) 512 = some (.ok (blob 800)) := by
  refine ⟨noCollisions_exhausting, head_exhausting, store_start (length_blob_le 0), ?_⟩
  obtain ⟨b, cat, hdata, hsector, hlength, hnew, hsound, hnext⟩ := run_exhausted
  rw [exhausting, run_append]
  exact retrieve_after_restart hdata hsector hlength hnew hsound hnext

end Exhaustion

end Aeglos.Semantic
