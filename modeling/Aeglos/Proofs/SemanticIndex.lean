import Aeglos.Services.SemanticStore

/-!
# The index of the semantic store

The 800 slots of the index hold a list of entries, filled from the front.
-/

namespace Aeglos.Semantic

open Sector List Function

def slotNo (k : Nat) : Nat × Nat := (k / 8, k % 8)

lemma indexSlots_eq : indexSlots = (List.range 800).map slotNo := by
  decide +kernel

structure IndexEntry.Fits (e : IndexEntry) : Prop where
  hash : e.hash.length = 32
  sector : e.sector < 256 ^ 8
  len : e.len < 256 ^ 8
  metadataSector : e.metadataSector < 256 ^ 8
  vectorSector : e.vectorSector < 256 ^ 8

lemma fromLe_toLe_of_lt {n width : Nat} (h : n < 256 ^ width) : fromLe (toLe n width) = n := by
  rw [fromLe_toLe, Nat.mod_eq_of_lt h]

lemma slice_patch_toLe (buf : Sector) {off n : Nat} (h : off + 8 ≤ 512) :
    (buf.patch off (toLe n 8)).slice off 8 = toLe n 8 := by
  have hend : off + (toLe n 8).length ≤ 512 := by rwa [length_toLe]
  have hself := slice_patch_self buf hend
  rwa [length_toLe] at hself

lemma entryAt_putEntry {e : IndexEntry} (he : e.Fits) (buf : Sector) {off : Nat} (hoff : off + 64 ≤ 512) :
    entryAt (putEntry buf off e) off = e := by
  have hlength : ∀ n, (toLe n 8).length = 8 := fun n => length_toLe n 8
  have hend : off + e.hash.length ≤ 512 := by
    rw [he.hash]
    omega
  have hhash : (putEntry buf off e).slice off 32 = e.hash := by
    have hself := slice_patch_self buf hend
    rw [he.hash] at hself
    rw [putEntry, slice_patch_of_disjoint _ (by omega), slice_patch_of_disjoint _ (by omega),
      slice_patch_of_disjoint _ (by omega), slice_patch_of_disjoint _ (by omega), hself]
  have hsector : (putEntry buf off e).slice (off + 32) 8 = toLe e.sector 8 := by
    rw [putEntry, slice_patch_of_disjoint _ (by omega), slice_patch_of_disjoint _ (by omega),
      slice_patch_of_disjoint _ (by omega), slice_patch_toLe _ (by omega)]
  have hlen : (putEntry buf off e).slice (off + 40) 8 = toLe e.len 8 := by
    rw [putEntry, slice_patch_of_disjoint _ (by omega), slice_patch_of_disjoint _ (by omega),
      slice_patch_toLe _ (by omega)]
  have hmeta : (putEntry buf off e).slice (off + 48) 8 = toLe e.metadataSector 8 := by
    rw [putEntry, slice_patch_of_disjoint _ (by omega), slice_patch_toLe _ (by omega)]
  have hvec : (putEntry buf off e).slice (off + 56) 8 = toLe e.vectorSector 8 := by
    rw [putEntry, slice_patch_toLe _ (by omega)]
  rw [entryAt, hhash, hsector, hlen, hmeta, hvec, fromLe_toLe_of_lt he.sector, fromLe_toLe_of_lt he.len,
    fromLe_toLe_of_lt he.metadataSector, fromLe_toLe_of_lt he.vectorSector]

lemma entryAt_putEntry_of_disjoint {e : IndexEntry} (he : e.hash.length = 32) (buf : Sector) {off off' : Nat}
    (h : off' + 64 ≤ off ∨ off + 64 ≤ off') : entryAt (putEntry buf off e) off' = entryAt buf off' := by
  have hslice : ∀ n len, off' ≤ n → n + len ≤ off' + 64 → (putEntry buf off e).slice n len = buf.slice n len := by
    intro n len hn hlen
    have hlength : ∀ n, (toLe n 8).length = 8 := fun n => length_toLe n 8
    rw [putEntry, slice_patch_of_disjoint _ (by rw [hlength]; omega), slice_patch_of_disjoint _ (by rw [hlength]; omega),
      slice_patch_of_disjoint _ (by rw [hlength]; omega), slice_patch_of_disjoint _ (by rw [hlength]; omega),
      slice_patch_of_disjoint _ (by rw [he]; omega)]
  rw [entryAt, entryAt, hslice _ _ le_rfl (by omega), hslice _ _ (by omega) (by omega), hslice _ _ (by omega) (by omega),
    hslice _ _ (by omega) (by omega), hslice _ _ (by omega) (by omega)]

/-- The used slots hold the entries, in order, and the others are free. -/
structure Indexed (disk : Nat → Sector) (entries : List IndexEntry) : Prop where
  length_le : entries.length ≤ 800
  used : ∀ k (e : IndexEntry), entries[k]? = some e → slotEntry disk (slotNo k) = e ∧ e.sector ≠ 0
  free : ∀ k, entries.length ≤ k → k < 800 → (slotEntry disk (slotNo k)).sector = 0

variable {disk disk' : Nat → Sector} {entries : List IndexEntry}

lemma Indexed.congr (h : Indexed disk entries) (hdisk : ∀ n, 1 ≤ n → n ≤ 100 → disk' n = disk n) :
    Indexed disk' entries := by
  have hslot : ∀ k < 800, slotEntry disk' (slotNo k) = slotEntry disk (slotNo k) := by
    intro k hk
    rw [slotEntry, slotEntry, hdisk]
    · exact Nat.le_add_right 1 _
    · simp only [slotNo, indexStartSector]
      omega
  refine ⟨h.length_le, ?_, ?_⟩
  · intro k e he
    have hlt : k < entries.length := (List.getElem?_eq_some_iff.mp he).1
    rw [hslot k (Nat.lt_of_lt_of_le hlt h.length_le)]
    exact h.used k e he
  · intro k hk hlt
    rw [hslot k hlt]
    exact h.free k hk hlt

lemma Indexed.entries_eq (h : Indexed disk entries) :
    entries = (List.range entries.length).map fun k => slotEntry disk (slotNo k) := by
  refine ext_getElem (by simp) ?_
  intro k hk hk'
  rw [getElem_map, getElem_range]
  exact (h.used k entries[k] (getElem?_eq_getElem hk)).1.symm

lemma Indexed.filter_used (h : Indexed disk entries) :
    ((indexSlots.map (slotEntry disk)).filter fun e => decide (e.sector ≠ 0)) = entries := by
  have hsplit : List.range 800 = List.range entries.length ++
      (List.range (800 - entries.length)).map (entries.length + ·) := by
    rw [← range_add, Nat.add_sub_cancel' h.length_le]
  have hused : (entries.filter fun e => decide (e.sector ≠ 0)) = entries := by
    rw [filter_eq_self]
    intro e he
    obtain ⟨k, hk⟩ := mem_iff_getElem?.mp he
    exact decide_eq_true (h.used k e hk).2
  rw [indexSlots_eq, hsplit, map_map, map_append, filter_append]
  have hfree : (((List.range (800 - entries.length)).map (entries.length + ·)).map (slotEntry disk ∘ slotNo)).filter
      (fun e => decide (e.sector ≠ 0)) = [] := by
    rw [filter_eq_nil_iff]
    intro e he
    obtain ⟨k, hk, rfl⟩ := mem_map.mp he
    obtain ⟨i, hi, rfl⟩ := mem_map.mp hk
    have hlt := mem_range.mp hi
    simp [h.free (entries.length + i) (Nat.le_add_right ..) (by omega)]
  rw [hfree, append_nil]
  conv_rhs => rw [← hused, h.entries_eq]
  rfl

lemma Indexed.lookupIndex {s : Store} (h : Indexed s.disk entries) (hash : Bytes) :
    s.lookupIndex hash = (entries.find? fun e => decide (e.hash = hash)).map fun e => (e.sector, e.len) := by
  conv_rhs => rw [← h.filter_used, find?_filter, find?_map, Option.map_map]
  simp only [Store.lookupIndex, comp_def, decide_eq_true_eq]

lemma Indexed.find_free (h : Indexed disk entries) :
    (indexSlots.find? fun slot => decide ((slotEntry disk slot).sector = 0)) =
      if entries.length < 800 then some (slotNo entries.length) else none := by
  have hused : ∀ k < entries.length, (slotEntry disk (slotNo k)).sector ≠ 0 := by
    intro k hk
    obtain ⟨heq, hne⟩ := h.used k entries[k] (getElem?_eq_getElem hk)
    rw [heq]
    exact hne
  rw [indexSlots_eq, find?_map]
  split_ifs with hlt
  · have hfirst : (List.range 800).find? ((fun slot => decide ((slotEntry disk slot).sector = 0)) ∘ slotNo) =
        some entries.length := by
      rw [find?_range_eq_some]
      refine ⟨?_, mem_range.mpr hlt, ?_⟩
      · simp [h.free entries.length le_rfl hlt]
      · intro j hj
        simp [hused j hj]
    rw [hfirst]
    rfl
  · rw [Option.map_eq_none_iff, find?_eq_none]
    intro k hk
    have hk' := mem_range.mp hk
    simp [hused k (by omega)]

lemma Indexed.append (h : Indexed disk entries) (hlt : entries.length < 800) {e : IndexEntry} (he : e.Fits)
    (hne : e.sector ≠ 0) :
    Indexed (Function.update disk (1 + entries.length / 8)
      (putEntry (disk (1 + entries.length / 8)) (entries.length % 8 * 64) e)) (entries ++ [e]) := by
  have hnew : slotEntry (Function.update disk (1 + entries.length / 8)
      (putEntry (disk (1 + entries.length / 8)) (entries.length % 8 * 64) e)) (slotNo entries.length) = e := by
    rw [slotEntry]
    simp only [slotNo, indexStartSector, entrySize]
    rw [update_self]
    exact entryAt_putEntry he _ (by omega)
  have hold : ∀ k, k ≠ entries.length → slotEntry (Function.update disk (1 + entries.length / 8)
      (putEntry (disk (1 + entries.length / 8)) (entries.length % 8 * 64) e)) (slotNo k) = slotEntry disk (slotNo k) := by
    intro k hk
    rw [slotEntry, slotEntry]
    simp only [slotNo, indexStartSector, entrySize]
    by_cases hsector : k / 8 = entries.length / 8
    · rw [hsector, update_self]
      exact entryAt_putEntry_of_disjoint he.hash _ (by omega)
    · rw [update_of_ne (by omega)]
  refine ⟨?_, ?_, ?_⟩
  · rw [length_append]
    exact hlt
  · intro k e' hk
    rcases Nat.lt_trichotomy k entries.length with hk' | rfl | hk'
    · rw [getElem?_append_left hk'] at hk
      rw [hold k (by omega)]
      exact h.used k e' hk
    · rw [getElem?_concat_length] at hk
      obtain rfl := Option.some.inj hk
      exact ⟨hnew, hne⟩
    · rw [getElem?_eq_none (by simpa using hk')] at hk
      cases hk
  · intro k hk hk'
    rw [length_append, length_singleton] at hk
    rw [hold k (by omega)]
    exact h.free k (by omega) hk'

end Aeglos.Semantic
