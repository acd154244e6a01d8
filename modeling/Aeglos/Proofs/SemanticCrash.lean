import Aeglos.Proofs.SemanticHistory

/-!
# Crashes of the semantic store

`store_full` stops after some of its block writes and a new instance is started on the disk.
-/

namespace Aeglos.Semantic

open Sector TransitionSystem List

namespace Store

def writes (s : Store) (data : Bytes) (metadata : Option Metadata) (vector : Option Embedding) :
    List (Nat × Sector) := (s.storeFull data metadata vector).2.written.drop s.written.length

def crashed (s : Store) (data : Bytes) (metadata : Option Metadata) (vector : Option Embedding) (k : Nat) : Store :=
  (Store.fresh (WriteLog.apply s.disk ((s.writes data metadata vector).take k))).init

end Store

/-- Each entry that the index has for the blob leads to sectors with all of its data. -/
def Published (disk : Nat → Sector) (data : Bytes) (metadata : Option Metadata) (vector : Option Embedding) : Prop :=
  ∀ slot ∈ indexSlots, (slotEntry disk slot).sector ≠ 0 → (slotEntry disk slot).hash = hashBuf data →
    (slotEntry disk slot).len = data.length ∧ disk (slotEntry disk slot).sector = zero.patch 0 data ∧
    (∀ m, metadata = some m → disk (slotEntry disk slot).metadataSector = zero.patch 0 m.bytes) ∧
    ∀ v, vector = some v → ∀ k < 3, disk ((slotEntry disk slot).vectorSector + k) = Store.vectorBlock v k

section Instances

variable {s s' : Store} {disk : Nat → Sector} {cat : List Stored} {lim k : Nat} {ws : List (Nat × Sector)}

lemma init_disk_of_ne {n : Nat} (h : n ≠ 0) : s.init.disk n = s.disk n := by
  rw [Store.init]
  by_cases hmagic : (s.readBlock superblockSector).slice 0 8 = superblockMagic
  · rw [if_pos hmagic]
  · rw [if_neg hmagic]
    exact Function.update_of_ne h ..

lemma Kept.init (h : Kept disk cat lim) (hlim : dataStart ≤ lim) : Kept (Store.fresh disk).init.disk cat lim :=
  h.congr hlim fun n hn _ => init_disk_of_ne (by omega)

lemma Grows.kept_take (h : Grows s s' ws k) (hs : Sound s cat) (i : Nat) :
    Kept (WriteLog.apply s.disk (ws.take i)) cat s.onDiskNext := by
  refine hs.kept.congr (dataStart_le_onDiskNext hs.next_ge) ?_
  intro n hn hlt
  have hused : n < s.nextFree := hlt.trans_le (min_le_left _ _)
  refine WriteLog.apply_of_not_mem ?_
  intro w hw
  rcases h.targets w (mem_of_mem_take hw) with hzero | hge
  · omega
  · omega

lemma Kept.published_of_new (h : Kept disk cat lim) {b : Stored} (hcat : ∀ c ∈ cat, hashBuf c.data = hashBuf b.data → c = b) :
    Published disk b.data b.metadata b.vector := by
  intro slot hslot hsector hhash
  rw [indexSlots_eq] at hslot
  obtain ⟨i, hi, rfl⟩ := mem_map.mp hslot
  rcases Nat.lt_or_ge i (cat.map Stored.entry).length with hlt | hge
  · obtain ⟨heq, -⟩ := h.index.used i _ (getElem?_eq_getElem hlt)
    obtain ⟨c, hc, hentry⟩ := mem_map.mp (getElem_mem hlt)
    rw [← hentry] at heq
    rw [heq] at hhash ⊢
    obtain rfl : c = b := hcat c hc hhash
    have hcomplete := h.complete c hc
    exact ⟨rfl, hcomplete.data, hcomplete.metadata, hcomplete.vector⟩
  · exact absurd (h.index.free i hge (mem_range.mp hi)) hsector

end Instances

lemma answer_append_of_ok {cat : List Stored} {hash blob : Bytes} {outLen : Nat} {later : List Stored}
    (h : answer cat hash outLen = .ok blob) : answer (cat ++ later) hash outLen = .ok blob := by
  cases hfind : find cat hash with
  | none =>
    rw [answer, hfind] at h
    cases h
  | some b =>
    rw [answer, hfind] at h
    rw [answer, find_append_of_some hfind]
    exact h

section Crashes

variable {s : Store} {cat : List Stored} {data : Bytes} {metadata : Option Metadata} {vector : Option Embedding}

lemma crashed_kept (hs : Sound s cat) (hbound : s.nextFree + 5 < 2 ^ 64) (hnew : find cat (hashBuf data) = none)
    (metadata : Option Metadata) (vector : Option Embedding) (k : Nat) :
    ∃ lim, Kept (s.crashed data metadata vector k).disk cat lim ∨
      ∃ b : Stored, b.data = data ∧ b.metadata = metadata ∧ b.vector = vector ∧
        Kept (s.crashed data metadata vector k).disk (cat ++ [b]) lim := by
  rcases storeFull_new hs hbound hnew metadata vector with
    ⟨e, ws, -, hgrows⟩ | ⟨b, ws, s', hdata, hmeta, hvec, hgrows, hplaced, hcomplete, hlt, heq⟩
  · have hwrites : s.writes data metadata vector = ws := by
      rw [Store.writes, hgrows.written, drop_left]
    refine ⟨s.onDiskNext, Or.inl ?_⟩
    rw [Store.crashed, hwrites]
    exact (hgrows.kept_take hs k).init (dataStart_le_onDiskNext hs.next_ge)
  · have hwrites : s.writes data metadata vector = ws ++ [(1 + cat.length / 8,
        putEntry (s'.disk (1 + cat.length / 8)) (cat.length % 8 * 64) b.entry)] := by
      rw [Store.writes, heq, Store.writeBlock, hgrows.written, append_assoc, drop_left]
    rw [Store.crashed, hwrites]
    rcases Nat.lt_or_ge ws.length k with hall | hsome
    · -- all writes have been made
      have hs' := hgrows.sound hs
      refine ⟨s'.onDiskNext, Or.inr ⟨b, hdata, hmeta, hvec, ?_⟩⟩
      rw [take_of_length_le (by rw [length_append]; exact hall), WriteLog.apply_append, ← hgrows.disk]
      exact (hs'.publish hlt hplaced hs.next_ge hcomplete).kept.init (dataStart_le_onDiskNext hs'.next_ge)
    · refine ⟨s.onDiskNext, Or.inl ?_⟩
      rw [take_append_of_le_length hsome]
      exact (hgrows.kept_take hs k).init (dataStart_le_onDiskNext hs.next_ge)

/-- Whatever part of its writes a call of `store_full` has made, a new instance returns every blob that could
be retrieved before, and the new one exactly or not at all. -/
theorem crash_safe {ops : List StoreOp}
    (hops : Guarded Store.step Usable Store.start (ops ++ [.storeFull data metadata vector]))
    (hnew : (run Store.step Store.start ops).lookupIndex (hashBuf data) = none) (k : Nat) :
    (∀ hash outLen blob, (run Store.step Store.start ops).retrieve hash outLen = some (.ok blob) →
      ((run Store.step Store.start ops).crashed data metadata vector k).retrieve hash outLen = some (.ok blob)) ∧
    ((∀ outLen, ((run Store.step Store.start ops).crashed data metadata vector k).retrieve (hashBuf data) outLen =
        some (.error "Not found")) ∨
      ∀ outLen, data.length ≤ outLen →
        ((run Store.step Store.start ops).crashed data metadata vector k).retrieve (hashBuf data) outLen =
          some (.ok data)) ∧
    Published ((run Store.step Store.start ops).crashed data metadata vector k).disk data metadata vector := by
  obtain ⟨hbefore, hcall, -⟩ := (guarded_append Store.step Usable Store.start ops _).mp hops
  obtain ⟨cat, hsound, -⟩ := run_sound sound_start hbefore
  rw [nil_append] at hsound
  generalize run Store.step Store.start ops = s at hsound hcall hnew ⊢
  have hfind : find cat (hashBuf data) = none := by
    rw [hsound.kept.lookupIndex] at hnew
    exact Option.map_eq_none_iff.mp hnew
  have hnone : ∀ c ∈ cat, hashBuf c.data ≠ hashBuf data := by
    intro c hc
    rw [find, find?_eq_none] at hfind
    simpa using hfind c hc
  obtain ⟨lim, hkept | ⟨b, rfl, rfl, rfl, hkept⟩⟩ := crashed_kept hsound hcall.2 hfind metadata vector k
  · refine ⟨?_, Or.inl ?_, ?_⟩
    · intro hash outLen blob hblob
      rw [hkept.retrieve, ← hsound.kept.retrieve]
      exact hblob
    · intro outLen
      rw [hkept.retrieve, answer, hfind]
    · exact hkept.published_of_new (b := ⟨data, metadata, vector, 0, 0, 0⟩) fun c hc hhash => absurd hhash (hnone c hc)
  · refine ⟨?_, Or.inr ?_, ?_⟩
    · intro hash outLen blob hblob
      rw [hsound.kept.retrieve] at hblob
      rw [hkept.retrieve, answer_append_of_ok (Option.some.inj hblob)]
    · intro outLen hlen
      rw [hkept.retrieve, answer, find_append_self hfind]
      exact congrArg some (if_neg (Nat.not_lt.mpr hlen))
    · refine hkept.published_of_new ?_
      intro c hc hhash
      rcases mem_append.mp hc with hc | hc
      · exact absurd hhash (hnone c hc)
      · exact mem_singleton.mp hc

theorem old_blob_after_crash :
    ((run Store.step Store.start [.store [1]]).crashed [2] none none 1).retrieve (hashBuf [1]) 1 = some (.ok [1]) :=
  (@crash_safe [2] none none [.store [1]] (by decide +kernel) (by decide +kernel) 1).1 (hashBuf [1]) 1 [1]
    (by decide +kernel)

end Crashes

end Aeglos.Semantic
