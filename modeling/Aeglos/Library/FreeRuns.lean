import Mathlib.Tactic

/-!
# Runs of free cells

A row of cells, from which blocks are taken and to which they are given back.
-/

namespace FreeRuns

open List

def AllFree (free : Nat → Bool) (n start : Nat) : Prop := ∀ k, k < n → free (start + k) = true

def IsRun (free : Nat → Bool) (size n start : Nat) : Prop := start + n ≤ size ∧ AllFree free n start

def IsLowest (free : Nat → Bool) (size n start : Nat) : Prop :=
  IsRun free size n start ∧ ∀ j, IsRun free size n j → start ≤ j

/-- What a scan knows at cell `i`: the last `len` cells are free, and no run of length `n`
starts before them. -/
structure Scanned (free : Nat → Bool) (n i len : Nat) : Prop where
  len_le : len ≤ i
  len_lt : len < n
  tail : AllFree free len (i - len)
  none_before : ∀ j, j < i - len → ¬AllFree free n j

lemma Scanned.init (free : Nat → Bool) {n : Nat} (hn : 0 < n) : Scanned free n 0 0 where
  len_le := le_refl _
  len_lt := hn
  tail _ hk := absurd hk (Nat.not_lt_zero _)
  none_before _ hj := absurd hj (Nat.not_lt_zero _)

lemma AllFree.snoc {free : Nat → Bool} {len start : Nat} (h : AllFree free len start)
    (hnext : free (start + len) = true) : AllFree free (len + 1) start := by
  intro k hk
  by_cases hlast : k = len
  · rw [hlast]
    exact hnext
  · exact h k (by omega)

lemma Scanned.free {free : Nat → Bool} {n i len : Nat} (h : Scanned free n i len)
    (hi : free i = true) (hlt : len + 1 < n) : Scanned free n (i + 1) (len + 1) where
  len_le := Nat.succ_le_succ h.len_le
  len_lt := hlt
  tail := by
    have hle := h.len_le
    have hnext : free (i - len + len) = true := by rwa [Nat.sub_add_cancel hle]
    have hstart : i + 1 - (len + 1) = i - len := by omega
    rw [hstart]
    exact h.tail.snoc hnext
  none_before j hj := h.none_before j (by omega)

lemma Scanned.found {free : Nat → Bool} {n i len size : Nat} (h : Scanned free n i len)
    (hi : free i = true) (hn : len + 1 = n) (hsize : i < size) : IsLowest free size n (i - len) := by
  have hle := h.len_le
  have hnext : free (i - len + len) = true := by rwa [Nat.sub_add_cancel hle]
  have hall : AllFree free n (i - len) := hn ▸ h.tail.snoc hnext
  refine ⟨⟨by omega, hall⟩, fun j hj => ?_⟩
  by_contra hlt
  exact h.none_before j (by omega) hj.2

lemma Scanned.used {free : Nat → Bool} {n i len : Nat} (h : Scanned free n i len)
    (hi : free i = false) : Scanned free n (i + 1) 0 where
  len_le := Nat.zero_le _
  len_lt := by
    have := h.len_lt
    omega
  tail _ hk := absurd hk (Nat.not_lt_zero _)
  none_before j hj hall := by
    have hlt := h.len_lt
    by_cases hbefore : j < i - len
    · exact h.none_before j hbefore hall
    · have hcell := hall (i - j) (by omega)
      rw [Nat.add_sub_cancel' (by omega), hi] at hcell
      exact absurd hcell (by decide)

lemma Scanned.end_none {free : Nat → Bool} {n size len : Nat} (h : Scanned free n size len) (j : Nat) :
    ¬IsRun free size n j := by
  rintro ⟨hle, hall⟩
  have := h.len_lt
  exact h.none_before j (by omega) hall

section Counting

variable {free : Nat → Bool}

def freeCells (free : Nat → Bool) (size : Nat) : Finset Nat := (Finset.range size).filter (free · = true)

def block (b : Nat × Nat) : Finset Nat := Finset.Ico b.1 (b.1 + b.2)

lemma card_block (b : Nat × Nat) : (block b).card = b.2 := by
  simp [block]

def setBlock (free : Nat → Bool) (b : Nat × Nat) (value : Bool) : Nat → Bool :=
  fun i => if i ∈ block b then value else free i

@[simp] lemma setBlock_zero (free : Nat → Bool) (start : Nat) (v : Bool) : setBlock free (start, 0) v = free := by
  funext i
  simp [setBlock, block]

lemma setBlock_succ (free : Nat → Bool) (start n : Nat) (v : Bool) :
    setBlock free (start, n + 1) v = fun i => if i = start + n then v else setBlock free (start, n) v i := by
  funext i
  simp only [setBlock, block, Finset.mem_Ico]
  by_cases hi : i = start + n
  · subst hi
    simp
  · rw [if_neg hi]
    by_cases hin : start ≤ i ∧ i < start + n
    · rw [if_pos hin, if_pos ⟨hin.1, by omega⟩]
    · rw [if_neg hin, if_neg (by omega)]

/-- Blocks that are in use: pairwise disjoint, inside the row, not free, and with the free
cells they fill the row. -/
structure Owned (free : Nat → Bool) (size : Nat) (live : List (Nat × Nat)) : Prop where
  disjoint : live.Pairwise fun b c => Disjoint (block b) (block c)
  inside : ∀ b ∈ live, b.1 + b.2 ≤ size
  used : ∀ b ∈ live, ∀ i ∈ block b, free i = false
  total : (freeCells free size).card + (live.map Prod.snd).sum = size

lemma mem_freeCells {size i : Nat} : i ∈ freeCells free size ↔ i < size ∧ free i = true := by
  simp [freeCells]

lemma freeCells_setBlock_false (free : Nat → Bool) (size : Nat) (b : Nat × Nat) :
    freeCells (setBlock free b false) size = freeCells free size \ block b := by
  ext i
  simp only [mem_freeCells, Finset.mem_sdiff, setBlock]
  split_ifs with h <;> simp [h]

lemma freeCells_setBlock_true (free : Nat → Bool) {size : Nat} {b : Nat × Nat} (hb : b.1 + b.2 ≤ size) :
    freeCells (setBlock free b true) size = freeCells free size ∪ block b := by
  ext i
  have hin : i ∈ block b → i < size := fun h => by
    have := Finset.mem_Ico.mp h
    omega
  simp only [mem_freeCells, Finset.mem_union, setBlock]
  split_ifs with h
  · simp [h, hin h]
  · simp [h]

lemma Owned.take {size : Nat} {live : List (Nat × Nat)} (h : Owned free size live)
    {n start : Nat} (hrun : IsRun free size n start) :
    Owned (setBlock free (start, n) false) size ((start, n) :: live) where
  disjoint := by
    refine pairwise_cons.mpr ⟨fun b hb => ?_, h.disjoint⟩
    refine Finset.disjoint_left.mpr fun i hi hib => ?_
    have hlt := Finset.mem_Ico.mp hi
    have hfree := hrun.2 (i - start) (by dsimp only at hlt; omega)
    rw [Nat.add_sub_cancel' hlt.1, h.used b hb i hib] at hfree
    exact absurd hfree (by decide)
  inside b hb := by
    rcases mem_cons.mp hb with rfl | hb
    · exact hrun.1
    · exact h.inside b hb
  used b hb i hi := by
    rcases mem_cons.mp hb with rfl | hb
    · simp [setBlock, hi]
    · simp [setBlock, h.used b hb i hi]
  total := by
    have hsub : block (start, n) ⊆ freeCells free size := by
      intro i hi
      have hlt := Finset.mem_Ico.mp hi
      have hle := hrun.1
      dsimp only at hlt
      have hfree := hrun.2 (i - start) (by omega)
      rw [Nat.add_sub_cancel' hlt.1] at hfree
      exact mem_freeCells.mpr ⟨by omega, hfree⟩
    have hcard := Finset.card_le_card hsub
    rw [card_block] at hcard
    rw [freeCells_setBlock_false, Finset.card_sdiff_of_subset hsub, card_block, map_cons, sum_cons]
    have := h.total
    dsimp only at hcard ⊢
    omega

lemma Owned.give {size : Nat} {live : List (Nat × Nat)} (h : Owned free size live)
    {b : Nat × Nat} (hb : b ∈ live) : Owned (setBlock free b true) size (live.erase b) := by
  have hperm := perm_cons_erase hb
  have hdisj : (b :: live.erase b).Pairwise fun b c => Disjoint (block b) (block c) :=
    hperm.pairwise h.disjoint fun hbc => hbc.symm
  obtain ⟨hothers, hrest⟩ := pairwise_cons.mp hdisj
  refine ⟨hrest, fun c hc => h.inside c (mem_of_mem_erase hc), fun c hc i hi => ?_, ?_⟩
  · have hnot : i ∉ block b := Finset.disjoint_right.mp (hothers c hc) hi
    rw [setBlock, if_neg hnot]
    exact h.used c (mem_of_mem_erase hc) i hi
  · have hfree : Disjoint (freeCells free size) (block b) := by
      refine Finset.disjoint_left.mpr fun i hi hib => ?_
      have hused := h.used b hb i hib
      rw [(mem_freeCells.mp hi).2] at hused
      exact absurd hused (by decide)
    have hsum : (live.map Prod.snd).sum = b.2 + ((live.erase b).map Prod.snd).sum := by
      rw [(hperm.map Prod.snd).sum_eq, map_cons, sum_cons]
    rw [freeCells_setBlock_true free (h.inside b hb), Finset.card_union_of_disjoint hfree, card_block]
    have := h.total
    omega

end Counting

end FreeRuns
