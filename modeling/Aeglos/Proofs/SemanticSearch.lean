import Aeglos.Proofs.SemanticHistory
import Aeglos.Services.SemanticService

/-!
# Searches in the semantic store

The index entries in use are those of the blobs on the disk, in the order of storing, so a search by
tag or keyword filters the stored blobs.
-/

namespace Aeglos.Semantic

open Sector TransitionSystem List

section Contents

def Metadata.tags (m : Metadata) : Bytes := ((m.bytes.drop 56).take 128).takeWhile (· ≠ 0)

lemma contains_iff {haystack needle : Bytes} : contains haystack needle = true ↔ needle <:+: haystack := by
  rw [contains]
  split_ifs with hshort
  · rw [decide_eq_true_iff]
    refine ⟨?_, ?_⟩
    · rintro rfl
      exact nil_infix
    · intro h
      exact hshort.resolve_right (Nat.not_lt.mpr h.length_le)
  · simp only [any_eq_true, mem_range, beq_iff_eq]
    refine ⟨?_, ?_⟩
    · rintro ⟨i, -, hi⟩
      rw [← hi]
      exact (List.take_prefix ..).isInfix.trans (drop_suffix ..).isInfix
    · rintro ⟨front, rest, rfl⟩
      refine ⟨front.length, ?_, ?_⟩
      · simp only [length_append]
        omega
      · rw [append_assoc, drop_left, take_left]

variable {s : Store} {cat : List Stored} {lim : Nat} {b : Stored}

lemma Kept.usedEntries (h : Kept s.disk cat lim) : usedEntries s.disk = cat.map Stored.entry := h.index.filter_used

lemma Kept.tags (h : Kept s.disk cat lim) (hb : b ∈ cat) {m : Metadata} (hm : b.metadata = some m) :
    (((s.readBlock b.metaSector).slice 56 128).takeWhile (· ≠ 0)) = m.tags := by
  have hlength := m.length_eq
  have hslice : (zero.patch 0 m.bytes).slice (0 + 56) 128 = (m.bytes.drop 56).take 128 :=
    slice_patch_inside zero (by omega) (by rw [hlength]; decide)
  rw [Store.readBlock, (h.complete b hb).metadata m hm, Metadata.tags, ← hslice]

end Contents

section Additions

variable {s : Store} {cat : List Stored} {data hash : Bytes} {metadata : Option Metadata} {vector : Option Embedding}

lemma storeFull_added (hs : Sound s cat) (hbound : s.nextFree + 5 < 2 ^ 64) (hnew : find cat (hashBuf data) = none)
    (hok : (s.storeFull data metadata vector).1 = .ok hash) :
    ∃ b : Stored, b.data = data ∧ b.metadata = metadata ∧ b.vector = vector ∧
      Sound (s.storeFull data metadata vector).2 (cat ++ [b]) := by
  rcases storeFull_new hs hbound hnew metadata vector with
    ⟨e, ws, herr, -⟩ | ⟨b, ws, s', hdata, hmeta, hvec, hgrows, hplaced, hcomplete, hlt, heq⟩
  · rw [herr] at hok
    cases hok
  · rw [heq]
    exact ⟨b, hdata, hmeta, hvec, (hgrows.sound hs).publish hlt hplaced hs.next_ge hcomplete⟩

lemma Sound.usedEntries_find (hs : Sound s cat) (hash : Bytes) :
    ((usedEntries s.disk).find? fun e => decide (e.hash = hash)) = (find cat hash).map Stored.entry := by
  rw [hs.kept.usedEntries, find?_map]
  rfl

/-- The index entry for a hash refers to sectors that hold the metadata and the vector, if one is
given, and matches every part of the tags. -/
def Refers (s : Store) (hash : Bytes) (m : Metadata) (vector : Option Embedding) : Prop :=
  ∃ e, ((usedEntries s.disk).find? fun e => decide (e.hash = hash)) = some e ∧ e.metadataSector ≠ 0 ∧
    s.disk e.metadataSector = zero.patch 0 m.bytes ∧
    (∀ v, vector = some v → e.vectorSector ≠ 0 ∧ ∀ k < 3, s.disk (e.vectorSector + k) = Store.vectorBlock v k) ∧
    ∀ q, q <:+: m.tags → contains (((s.readBlock e.metadataSector).slice 56 128).takeWhile (· ≠ 0)) q = true

lemma refers_of_find (hs : Sound s cat) {b : Stored} (hfind : find cat hash = some b) {m : Metadata}
    (hm : b.metadata = some m) : Refers s hash m b.vector := by
  have hb := (hashBuf_of_find hfind).1
  have hplaced := hs.kept.placed b hb
  have hcomplete := hs.kept.complete b hb
  have hmeta := (hplaced.metaSector m hm).1
  rw [dataStart] at hmeta
  refine ⟨b.entry, ?_, ?_, hcomplete.metadata m hm, ?_, ?_⟩
  · rw [hs.usedEntries_find, hfind]
    rfl
  · dsimp only [Stored.entry]
    omega
  · intro v hv
    have hvec := (hplaced.vecSector v hv).1
    rw [dataStart] at hvec
    refine ⟨?_, hcomplete.vector v hv⟩
    dsimp only [Stored.entry]
    omega
  · intro q hq
    exact contains_iff.mpr ((hs.kept.tags hb hm).symm ▸ hq)

/-- After a successful call the index refers to the metadata if the hash was new, or its entry referred to the
same ones already: otherwise the old entry is left. -/
theorem metadata_stored_iff {ops : List StoreOp} {m : Metadata}
    (hops : Guarded Store.step Usable Store.start (ops ++ [.storeFull data (some m) vector]))
    (hok : ((run Store.step Store.start ops).storeFull data (some m) vector).1 = .ok hash) :
    Refers (run Store.step Store.start (ops ++ [.storeFull data (some m) vector])) hash m vector ↔
      (run Store.step Store.start ops).lookupIndex hash = none ∨ Refers (run Store.step Store.start ops) hash m vector := by
  obtain ⟨hbefore, hstore, -⟩ := (guarded_append Store.step Usable Store.start ops _).mp hops
  obtain ⟨cat, hcat, -⟩ := run_sound sound_start hbefore
  rw [nil_append] at hcat
  rw [run_append]
  generalize run Store.step Store.start ops = s at *
  change Refers (s.storeFull data (some m) vector).2 hash m vector ↔ _
  obtain ⟨later, -, -, hhash⟩ := storeFull_sound hcat hstore.2 data (some m) vector
  obtain rfl := (hhash hash hok).1
  cases hfind : find cat (hashBuf data) with
  | some b =>
    have hlookup : s.lookupIndex (hashBuf data) = some (b.sector, b.data.length) := by
      rw [hcat.kept.lookupIndex, hfind]
      rfl
    rw [storeFull_of_found (by rw [hlookup]; rfl), hlookup]
    simp
  | none =>
    obtain ⟨b, rfl, hm, rfl, hsound⟩ := storeFull_added hcat hstore.2 hfind hok
    have hlookup : s.lookupIndex (hashBuf b.data) = none := by
      rw [hcat.kept.lookupIndex, hfind]
      rfl
    exact iff_of_true (refers_of_find hsound (find_append_self hfind) hm) (Or.inl hlookup)

def tagged : Metadata := ⟨List.replicate 56 0 ++ [116] ++ List.replicate 199 0, by
  rw [List.length_append, List.length_append, List.length_replicate, List.length_replicate, List.length_singleton]⟩

lemma store_first : (Store.start.storeFull [1] none none).1 = .ok (hashBuf [1]) := store_start (by decide)

lemma sound_plain : ∃ b : Stored, b.data = [1] ∧ b.metadata = none ∧ Sound (run Store.step Store.start [.store [1]]) [b] := by
  obtain ⟨b, hdata, hmeta, -, hsound⟩ := storeFull_added sound_start (by decide +kernel) rfl store_first
  refine ⟨b, hdata, hmeta, ?_⟩
  rw [run_cons, run_nil]
  exact hsound

lemma storeFull_again : ((run Store.step Store.start [.store [1]]).storeFull [1] (some tagged) none) =
    (.ok (hashBuf [1]), run Store.step Store.start [.store [1]]) := by
  obtain ⟨b, hdata, -, hsound⟩ := sound_plain
  refine storeFull_of_found ?_
  rw [hsound.kept.lookupIndex, find]
  simp [hdata]

lemma not_refers {b : Stored} (hs : Sound s [b]) (hmeta : b.metadata = none) {m : Metadata} :
    ¬Refers s (hashBuf b.data) m vector := by
  rintro ⟨e, he, hne, -⟩
  rw [hs.usedEntries_find, find, find?_singleton, if_pos (decide_eq_true rfl)] at he
  rw [← Option.some.inj he] at hne
  exact hne ((hs.kept.placed b (mem_singleton_self b)).noMetadata hmeta)

lemma run_of_unchanged {ops : List StoreOp} {result : Except String Bytes}
    (h : (run Store.step s ops).storeFull data metadata vector = (result, run Store.step s ops)) :
    run Store.step s (ops ++ [.storeFull data metadata vector]) = run Store.step s ops := by
  rw [run_append]
  exact congrArg Prod.snd h

theorem metadata_ignored : ((run Store.step Store.start [.store [1]]).storeFull [1] (some tagged) none).1 = .ok (hashBuf [1]) ∧
    ¬Refers (run Store.step Store.start ([.store [1]] ++ [.storeFull [1] (some tagged) none])) (hashBuf [1]) tagged none := by
  obtain ⟨b, hdata, hmeta, hsound⟩ := sound_plain
  have hnot : ¬Refers (run Store.step Store.start [.store [1]]) (hashBuf b.data) tagged none := not_refers hsound hmeta
  rw [hdata] at hnot
  refine ⟨congrArg Prod.fst storeFull_again, ?_⟩
  rw [run_of_unchanged storeFull_again]
  exact hnot

theorem metadata_stored_iff_again :
    Refers (run Store.step Store.start ([.store [1]] ++ [.storeFull [1] (some tagged) none])) (hashBuf [1]) tagged none ↔
      (run Store.step Store.start [.store [1]]).lookupIndex (hashBuf [1]) = none ∨
        Refers (run Store.step Store.start [.store [1]]) (hashBuf [1]) tagged none :=
  @metadata_stored_iff [1] (hashBuf [1]) none [.store [1]] tagged (by decide +kernel) (congrArg Prod.fst storeFull_again)

end Additions

section Exact

structure StoreCall where
  data : Bytes
  metadata : Option Metadata
  vector : Option Embedding

def StoreCall.hash (c : StoreCall) : Bytes := hashBuf c.data

def Store.call (s : Store) (c : StoreCall) : Store := (s.storeFull c.data c.metadata c.vector).2

structure Succeeds (s : Store) (c : StoreCall) : Prop where
  room : s.nextFree + 5 < 2 ^ 64
  ok : (s.storeFull c.data c.metadata c.vector).1 = .ok c.hash

def Stored.call (b : Stored) : StoreCall := ⟨b.data, b.metadata, b.vector⟩

variable {s : Store} {cat : List Stored} {calls : List StoreCall} {q : Bytes}

lemma run_stored (hs : Sound s cat) (hcalls : Guarded Store.call Succeeds s calls)
    (hnodup : ((cat.map Stored.call ++ calls).map StoreCall.hash).Nodup) :
    ∃ cat', Sound (run Store.call s calls) cat' ∧ cat'.map Stored.call = cat.map Stored.call ++ calls := by
  induction calls generalizing s cat with
  | nil => exact ⟨cat, hs, (append_nil _).symm⟩
  | cons c calls ih =>
    obtain ⟨hc, hcalls⟩ := hcalls
    have hnew : find cat (hashBuf c.data) = none := by
      rw [find, find?_eq_none]
      intro b hb
      rw [map_append, nodup_append] at hnodup
      have hne := hnodup.2.2 b.call.hash (mem_map_of_mem (mem_map_of_mem hb)) c.hash (by simp)
      rw [decide_eq_true_iff]
      exact hne
    obtain ⟨b, hdata, hmeta, hvec, hsound⟩ := storeFull_added hs hc.room hnew hc.ok
    have hcall : b.call = c := by
      rw [Stored.call, hdata, hmeta, hvec]
    have hsplit : (cat ++ [b]).map Stored.call ++ calls = cat.map Stored.call ++ c :: calls := by
      rw [map_append, append_assoc, map_singleton, hcall]
      rfl
    rw [← hsplit] at hnodup ⊢
    have hadded : Sound (s.call c) (cat ++ [b]) := hsound
    rw [run_cons]
    exact ih hadded hcalls hnodup

lemma Sound.searchByTag (hs : Sound s cat) (q : Bytes) : searchByTag s q = (((cat.map Stored.call).filter fun c =>
    c.metadata.any fun m => decide (q <:+: m.tags)).map StoreCall.hash).take maxResults := by
  rw [Semantic.searchByTag, hs.kept.usedEntries, filter_map, filter_map, map_map, map_map]
  congr 2
  refine filter_congr ?_
  intro b hb
  have hplaced := hs.kept.placed b hb
  dsimp only [Function.comp_apply, Stored.call, Stored.entry]
  cases hm : b.metadata with
  | none => simp [hplaced.noMetadata hm]
  | some m =>
    have hmeta := (hplaced.metaSector m hm).1
    rw [dataStart] at hmeta
    have hne : b.metaSector ≠ 0 := by omega
    rw [hs.kept.tags hb hm, Bool.eq_iff_iff]
    simp [hne, contains_iff]

lemma Sound.searchKeyword (hs : Sound s cat) (hq : q ≠ []) : searchKeyword s q = (((cat.map Stored.call).filter fun c =>
    decide (q <:+: c.data)).map StoreCall.hash).take maxResults := by
  rw [Semantic.searchKeyword, if_neg hq, hs.kept.usedEntries, filter_map, filter_map, map_map, map_map]
  congr 2
  refine filter_congr ?_
  intro b hb
  have hlength := (hs.kept.placed b hb).length_le
  change (decide (b.data.length ≠ 0 ∧ b.data.length ≤ 512) &&
    contains ((s.readBlock b.sector).slice 0 b.data.length) q) = decide (q <:+: b.data)
  rw [hs.kept.contents hb, Bool.eq_iff_iff]
  simp only [Bool.and_eq_true, contains_iff, decide_eq_true_eq, and_iff_right_iff_imp]
  intro hin
  have hpos := length_pos_iff.mpr hq
  have hle := hin.length_le
  omega

/-- The searches return the first of the blobs stored that match, in the order of storing. -/
theorem searches_exact (hcalls : Guarded Store.call Succeeds Store.start calls) (hnodup : (calls.map StoreCall.hash).Nodup)
    (hq : q ≠ []) :
    searchByTag (run Store.call Store.start calls) q = ((calls.filter fun c =>
      c.metadata.any fun m => decide (q <:+: m.tags)).map StoreCall.hash).take maxResults ∧
    searchKeyword (run Store.call Store.start calls) q =
      ((calls.filter fun c => decide (q <:+: c.data)).map StoreCall.hash).take maxResults := by
  obtain ⟨cat, hsound, hcat⟩ := run_stored sound_start hcalls hnodup
  rw [map_nil, nil_append] at hcat
  have htag := hsound.searchByTag q
  have hkeyword := hsound.searchKeyword hq
  rw [hcat] at htag hkeyword
  exact ⟨htag, hkeyword⟩

theorem searches_exact_single : searchKeyword (run Store.call Store.start [⟨[1], none, none⟩]) [1] = [hashBuf [1]] := by
  have hcalls : Guarded Store.call Succeeds Store.start [⟨[1], none, none⟩] :=
    (guarded_cons ..).mpr ⟨⟨by decide +kernel, store_first⟩, guarded_nil ..⟩
  refine (searches_exact hcalls (nodup_singleton _) (cons_ne_nil 1 [])).2.trans ?_
  simp [StoreCall.hash, maxResults]

end Exact

end Aeglos.Semantic
