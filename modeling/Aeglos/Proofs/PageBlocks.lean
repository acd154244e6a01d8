import Aeglos.Library.FreeRuns
import Aeglos.Library.Runs
import Aeglos.Kernel.PageBitmap

/-!
# The page allocator over whole histories

The byte operations act on single bits of the row of pages, and the search loop of `alloc_pages`
finds the lowest free run.
-/

namespace Aeglos.Proofs

open FreeRuns TransitionSystem List Option BitVec

variable {p : PageAllocator} {b : PageBitmap}

section Bits

variable (bytes : Nat → BitVec 8)

lemma pageBit_getLsbD (i k : Nat) : (pageBit i).getLsbD k = decide (k = i % 8) := by
  have hlt : i % 8 < 8 := Nat.mod_lt i (by decide)
  unfold pageBit
  rw [getLsbD_shiftLeft]
  by_cases hk : k = i % 8
  · subst hk
    simp [hlt]
  · by_cases hle : k < i % 8
    · simp [hk, hle]
    · have hpos : k - i % 8 ≠ 0 := by omega
      simp [hk, hpos]

lemma isFree_eq (i : Nat) : PageBitmap.isFree bytes i = (bytes (i / 8)).getLsbD (i % 8) := by
  have hlt : i % 8 < 8 := Nat.mod_lt i (by decide)
  unfold PageBitmap.isFree
  by_cases hbit : (bytes (i / 8)).getLsbD (i % 8) = true
  · rw [hbit, bne_iff_ne]
    intro hzero
    have hget := congrArg (fun v => v.getLsbD (i % 8)) hzero
    simp [getLsbD_and, hbit, pageBit_getLsbD] at hget
  · have hzero : bytes (i / 8) &&& pageBit i = 0 := by
      refine eq_of_getLsbD_eq fun k hk => ?_
      rw [getLsbD_and, pageBit_getLsbD]
      by_cases hki : k = i % 8
      · subst hki
        simpa using hbit
      · simp [hki]
    simpa [hzero] using hbit

lemma eq_of_byte_and_bit {i j : Nat} (hbyte : i / 8 = j / 8) (hbit : i % 8 = j % 8) : i = j := by
  omega

lemma isFree_update {j : Nat} {b : BitVec 8} {free : Bool}
    (hb : ∀ n < 8, b.getLsbD n = if n = j % 8 then free else (bytes (j / 8)).getLsbD n) (i : Nat) :
    PageBitmap.isFree (Function.update bytes (j / 8) b) i = if i = j then free else PageBitmap.isFree bytes i := by
  rw [isFree_eq, isFree_eq]
  by_cases hbyte : i / 8 = j / 8
  · rw [hbyte, Function.update_self, hb _ (Nat.mod_lt i (by decide))]
    by_cases hij : i = j
    · simp [hij]
    · rw [if_neg hij, if_neg fun h => hij (eq_of_byte_and_bit hbyte h)]
  · have hij : i ≠ j := fun h => hbyte (by rw [h])
    rw [Function.update_of_ne hbyte, if_neg hij]

lemma isFree_markFree (i j : Nat) :
    PageBitmap.isFree (PageBitmap.markFree bytes j) i = if i = j then true else PageBitmap.isFree bytes i := by
  refine isFree_update bytes (fun n _ => ?_) i
  rw [getLsbD_or, pageBit_getLsbD]
  by_cases hn : n = j % 8 <;> simp [hn]

lemma isFree_markUsed (i j : Nat) :
    PageBitmap.isFree (PageBitmap.markUsed bytes j) i = if i = j then false else PageBitmap.isFree bytes i := by
  refine isFree_update bytes (fun n hlt => ?_) i
  rw [getLsbD_and, getLsbD_not, pageBit_getLsbD]
  by_cases hn : n = j % 8 <;> simp [hn, hlt]

lemma isFree_markLoop (start count : Nat) :
    PageBitmap.isFree ((List.range count).foldl (fun b k => PageBitmap.markUsed b (start + k)) bytes) =
      setBlock (PageBitmap.isFree bytes) (start, count) false := by
  funext i
  induction count with
  | zero => rw [setBlock_zero]; rfl
  | succ count ih =>
    rw [range_succ, foldl_append, foldl_cons, foldl_nil, isFree_markUsed, ih, setBlock_succ]

lemma isFree_initLoop (n i : Nat) :
    PageBitmap.isFree ((List.range n).foldl PageBitmap.markFree fun _ => 0) i = decide (i < n) := by
  induction n with
  | zero => simp [isFree_eq]
  | succ n ih =>
    rw [range_succ, foldl_append, foldl_cons, foldl_nil, isFree_markFree, ih]
    by_cases hi : i = n
    · simp [hi]
    · have hiff : i < n + 1 ↔ i < n := by omega
      simp [hi, hiff]

end Bits

lemma scan_spec {free : Nat → Bool} {n left i len start : Nat} (h : Scanned free n i len)
    (hstart : 0 < len → start = i - len) :
    (PageAllocator.scan free n left i len start = none ∧ ∀ j, ¬IsRun free (i + left) n j) ∨
      ∃ k, PageAllocator.scan free n left i len start = some k ∧ IsLowest free (i + left) n k := by
  induction left generalizing i len start with
  | zero => exact Or.inl ⟨rfl, h.end_none⟩
  | succ left ih =>
    rw [PageAllocator.scan]
    have hsize : i + (left + 1) = i + 1 + left := by omega
    cases hi : free i with
    | true =>
      have hnew : (if len = 0 then i else start) = i - len := by
        split_ifs with h0
        · omega
        · exact hstart (by omega)
      simp only [if_true, hnew]
      by_cases hdone : len + 1 = n
      · rw [if_pos hdone]
        exact Or.inr ⟨i - len, rfl, h.found hi hdone (by omega)⟩
      · rw [if_neg hdone, hsize]
        have hlt := h.len_lt
        exact ih (h.free hi (by omega)) fun _ => by omega
    | false =>
      simp only [Bool.false_eq_true, if_false, hsize]
      exact ih (h.used hi) fun h0 => absurd h0 (by omega)

lemma scan_lowest (free : Nat → Bool) (size : Nat) {n : Nat} (hn : 0 < n) :
    (PageAllocator.scan free n size 0 0 0 = none ∧ ∀ j, ¬IsRun free size n j) ∨
      ∃ k, PageAllocator.scan free n size 0 0 0 = some k ∧ IsLowest free size n k := by
  have hscan : (PageAllocator.scan free n size 0 0 0 = none ∧ ∀ j, ¬IsRun free (0 + size) n j) ∨
      ∃ k, PageAllocator.scan free n size 0 0 0 = some k ∧ IsLowest free (0 + size) n k :=
    scan_spec (Scanned.init free hn) fun h0 => absurd h0 (Nat.lt_irrefl 0)
  rwa [Nat.zero_add] at hscan

section Blocks

variable (p : PageAllocator)

def toAddr (blk : Nat × Nat) : Nat × Nat := (p.pageBase + blk.1 * pageSize, blk.2)

lemma toAddr_injective : Function.Injective (toAddr p) := by
  rintro ⟨s, n⟩ ⟨t, k⟩ h
  simp only [toAddr, pageSize, Prod.mk.injEq] at h ⊢
  omega

lemma allocPages_lowest {n : Nat} (hn : 0 < n) :
    (p.allocPages n = none ∧ ∀ j, ¬IsRun p.bitmap p.numPages n j) ∨
      ∃ k, p.allocPages n = some (p.pageBase + k * pageSize,
          { p with bitmap := setBlock p.bitmap (k, n) false }) ∧
        IsLowest p.bitmap p.numPages n k := by
  unfold PageAllocator.allocPages
  rw [if_neg (by omega)]
  rcases scan_lowest p.bitmap p.numPages hn with ⟨hnone, hno⟩ | ⟨k, hsome, hlow⟩
  · rw [hnone]
    exact Or.inl ⟨rfl, hno⟩
  · rw [hsome]
    have hbits : setBlock p.bitmap (k, n) false =
        fun i => if k ≤ i ∧ i < k + n then false else p.bitmap i := by
      funext i
      simp only [setBlock, block, Finset.mem_Ico]
    exact Or.inr ⟨k, by rw [hbits]; rfl, hlow⟩

lemma freePage_page {i : Nat} (hi : i < p.numPages) :
    p.freePage (p.pageBase + i * pageSize) =
      { p with bitmap := fun j => if j = i then true else p.bitmap j } := by
  have hfits := p.fits
  have hidx : (p.pageBase + i * pageSize - p.pageBase) / pageSize = i := by
    rw [Nat.add_sub_cancel_left, Nat.mul_div_cancel _ (by decide)]
  unfold PageAllocator.freePage
  rw [if_neg, if_neg]
  · dsimp only
    rw [hidx, if_pos hi]
  · rw [Nat.add_mul_mod_self_right, p.base_aligned]
    simp
  · unfold pageSize at hfits ⊢
    omega

lemma releasePages_block {start n : Nat} (hin : start + n ≤ p.numPages) :
    p.releasePages (p.pageBase + start * pageSize) n =
      { p with bitmap := setBlock p.bitmap (start, n) true } := by
  unfold PageAllocator.releasePages
  induction n with
  | zero =>
    rw [setBlock_zero]
    rfl
  | succ n ih =>
    have hpage : p.pageBase + start * pageSize + n * pageSize = p.pageBase + (start + n) * pageSize := by
      rw [Nat.add_mul]
      omega
    rw [range_succ, foldl_append, foldl_cons, foldl_nil, ih (by omega), hpage, setBlock_succ]
    exact freePage_page { p with bitmap := setBlock p.bitmap (start, n) true } (by dsimp only; omega)

end Blocks

structure Represents (b : PageBitmap) (p : PageAllocator) : Prop where
  bits : PageBitmap.isFree b.bytes = p.bitmap
  pageBase : b.pageBase = p.pageBase
  numPages : b.numPages = p.numPages
  ramTop : b.ramTop = p.ramTop

section Representation

variable {b : PageBitmap} {p : PageAllocator}

lemma Represents.allocPages (h : Represents b p) {n : Nat} (hn : 0 < n) :
    (b.allocPages n = none ∧ p.allocPages n = none) ∨
      ∃ addr b' p', b.allocPages n = some (addr, b') ∧ p.allocPages n = some (addr, p') ∧
        Represents b' p' := by
  unfold PageBitmap.allocPages PageAllocator.allocPages
  rw [if_neg (by omega), if_neg (by omega), h.bits, h.numPages]
  cases hs : PageAllocator.scan p.bitmap n p.numPages 0 0 0 with
  | none => exact Or.inl ⟨rfl, rfl⟩
  | some k =>
    refine Or.inr ⟨p.pageBase + k * pageSize, _, _, by rw [map_some, h.pageBase], rfl, ?_⟩
    refine ⟨?_, rfl, rfl, h.ramTop⟩
    dsimp only
    rw [isFree_markLoop, h.bits]
    funext i
    simp only [setBlock, block, Finset.mem_Ico]

lemma Represents.freePage (h : Represents b p) (addr : Nat) : Represents (b.freePage addr) (p.freePage addr) := by
  unfold PageBitmap.freePage PageAllocator.freePage
  rw [h.pageBase, h.ramTop, h.numPages]
  split_ifs
  · exact h
  · exact h
  · dsimp only
    split_ifs
    · refine ⟨?_, rfl, rfl, rfl⟩
      funext i
      dsimp only
      rw [isFree_markFree, h.bits]
    · exact h

lemma Represents.releasePages (h : Represents b p) (base n : Nat) :
    Represents (b.releasePages base n) (p.releasePages base n) := by
  unfold PageBitmap.releasePages PageAllocator.releasePages
  induction n with
  | zero => exact h
  | succ n ih =>
    rw [range_succ, foldl_append, foldl_append]
    exact ih.freePage _

lemma Represents.freePages (h : Represents b p) : b.freePages = (freeCells p.bitmap p.numPages).card := by
  unfold PageBitmap.freePages
  rw [h.bits, h.numPages]
  induction p.numPages with
  | zero => simp [freeCells]
  | succ n ih =>
    rw [range_succ, countP_append, ih]
    unfold freeCells
    rw [Finset.range_add_one, Finset.filter_insert]
    cases hn : p.bitmap n with
    | true => simp [hn]
    | false => simp [hn]

end Representation

lemma wrapSub_large {a b : Nat} (h : ¬b ≤ a) (hb : b < 2 ^ 49) : 2 ^ 63 ≤ wrapSub a b := by
  unfold wrapSub
  rw [if_neg h]
  omega

/-- After `init` the bytes represent an allocator with all its pages free. -/
lemma init_represents {kernelEnd ramEnd : Nat} (hpos : 0 < kernelEnd)
    (himage : kernelEnd < 2 ^ 48) (h : PageBitmap.init kernelEnd ramEnd = some b) :
    ∃ p, Represents b p ∧ ∀ i, p.bitmap i = decide (i < p.numPages) := by
  unfold PageBitmap.init at h
  dsimp only at h
  split_ifs at h with hmax
  obtain rfl := some.inj h
  have hle : pageAlignUp kernelEnd ≤ kernelEnd + 4095 := by
    unfold pageAlignUp wrap64 pageSize
    omega
  have hbase : 0 < pageAlignUp kernelEnd := by
    unfold pageAlignUp wrap64 pageSize
    omega
  have hfits : pageAlignUp kernelEnd +
      wrapSub (min ramEnd maxRamEnd) (pageAlignUp kernelEnd) / pageSize * pageSize ≤
        min ramEnd maxRamEnd := by
    have hdiv := Nat.div_mul_le_self (wrapSub (min ramEnd maxRamEnd) (pageAlignUp kernelEnd)) pageSize
    by_cases hle : pageAlignUp kernelEnd ≤ min ramEnd maxRamEnd
    · rw [wrapSub, if_pos hle] at hdiv ⊢
      exact (Nat.add_le_add_left hdiv _).trans (le_of_eq (Nat.add_sub_cancel' hle))
    · -- a wrapped difference is far beyond the bitmap
      have hlarge : 2 ^ 63 ≤ wrapSub (min ramEnd maxRamEnd) (pageAlignUp kernelEnd) :=
        wrapSub_large hle (by omega)
      have hpages := Nat.div_le_div_right (c := pageSize) hlarge
      exact absurd (hpages.trans hmax) (by decide)
  exact ⟨⟨_, _, _, _, hbase, Nat.mul_mod_left _ _, hfits, min_le_right _ _⟩, ⟨rfl, rfl, rfl, rfl⟩,
    isFree_initLoop _⟩

inductive PageOp where
  | alloc (count : Nat)
  | release (base count : Nat)

/-- The statics with the blocks that are live: address and count of the successful
allocations that have not been released. A release is of a live block. -/
def pageStep : PageBitmap × List (Nat × Nat) → PageOp → PageBitmap × List (Nat × Nat)
  | (b, live), .alloc count =>
    match b.allocPages count with
    | some (addr, b') => (b', (addr, count) :: live)
    | none => (b, live)
  | (b, live), .release base count =>
    if (base, count) ∈ live then (b.releasePages base count, live.erase (base, count)) else (b, live)

def Apart (x y : Nat × Nat) : Prop := x.1 + x.2 * pageSize ≤ y.1 ∨ y.1 + y.2 * pageSize ≤ x.1

/-- The managed pages from `start` on are the lowest run of `n` free ones. -/
def LowestFree (b : PageBitmap) (n start : Nat) : Prop := IsLowest (PageBitmap.isFree b.bytes) b.numPages n start

structure BlocksCorrect (b : PageBitmap) (live : List (Nat × Nat)) : Prop where
  disjoint : live.Pairwise Apart
  aligned : ∀ x ∈ live, x.1 % pageSize = 0
  inside : ∀ x ∈ live, b.pageBase ≤ x.1 ∧ x.1 + x.2 * pageSize ≤ b.pageBase + b.numPages * pageSize
  total : b.freePages + (live.map Prod.snd).sum = b.numPages
  none_iff : ∀ n, 1 ≤ n → (b.allocPages n = none ↔
    ¬∃ start, IsRun (PageBitmap.isFree b.bytes) b.numPages n start)
  lowest : ∀ n addr b', b.allocPages n = some (addr, b') →
    ∃ start, addr = b.pageBase + start * pageSize ∧ LowestFree b n start

structure PagesOwned (x : PageBitmap × List (Nat × Nat)) (p : PageAllocator)
    (blocks : List (Nat × Nat)) : Prop where
  bits : Represents x.1 p
  live : x.2 = blocks.map (toAddr p)
  pos : ∀ blk ∈ blocks, 0 < blk.2
  owned : Owned p.bitmap p.numPages blocks

lemma pageStep_owned {x : PageBitmap × List (Nat × Nat)}
    {blocks : List (Nat × Nat)} (h : PagesOwned x p blocks) (op : PageOp) :
    ∃ p' blocks', PagesOwned (pageStep x op) p' blocks' := by
  obtain ⟨b, live⟩ := x
  cases op with
  | alloc n =>
    by_cases hn : n = 0
    · subst hn
      exact ⟨p, blocks, h⟩
    have hpos := Nat.pos_of_ne_zero hn
    rcases h.bits.allocPages hpos with ⟨hnone, -⟩ | ⟨addr, b', p', hb, hp, hrep⟩
    · simp only [pageStep, hnone]
      exact ⟨p, blocks, h⟩
    · simp only [pageStep, hb]
      rcases allocPages_lowest p hpos with ⟨hnone, -⟩ | ⟨k, hsome, hlow⟩
      · simp [hnone] at hp
      rw [hsome, Option.some.injEq, Prod.mk.injEq] at hp
      obtain ⟨rfl, rfl⟩ := hp
      refine ⟨_, (k, n) :: blocks, hrep, ?_, ?_, h.owned.take hlow.1⟩
      · exact congrArg ((p.pageBase + k * pageSize, n) :: ·) h.live
      · intro blk hblk
        rcases mem_cons.mp hblk with rfl | hblk
        · exact hpos
        · exact h.pos blk hblk
  | release base n =>
    simp only [pageStep]
    split_ifs with hmem
    swap
    · exact ⟨p, blocks, h⟩
    have hlive : live = blocks.map (toAddr p) := h.live
    rw [hlive] at hmem
    obtain ⟨blk, hblk, heq⟩ := mem_map.mp hmem
    obtain ⟨rfl, rfl⟩ : p.pageBase + blk.1 * pageSize = base ∧ blk.2 = n := Prod.mk.inj heq
    have hrep := h.bits.releasePages (p.pageBase + blk.1 * pageSize) blk.2
    rw [releasePages_block p (h.owned.inside blk hblk)] at hrep
    refine ⟨_, blocks.erase blk, hrep, ?_, fun x hx => h.pos x (mem_of_mem_erase hx),
      h.owned.give hblk⟩
    rw [hlive]
    exact (map_erase (toAddr_injective p) blocks).symm

lemma apart_of_disjoint (base : Nat) {x y : Nat × Nat} (hx : 0 < x.2) (hy : 0 < y.2)
    (h : Disjoint (block x) (block y)) :
    Apart (base + x.1 * pageSize, x.2) (base + y.1 * pageSize, y.2) := by
  have hcases : x.1 + x.2 ≤ y.1 ∨ y.1 + y.2 ≤ x.1 := by
    by_contra hne
    have hmem : max x.1 y.1 ∈ block x ∧ max x.1 y.1 ∈ block y := by
      simp only [block, Finset.mem_Ico]
      omega
    exact Finset.disjoint_left.mp h hmem.1 hmem.2
  simp only [Apart, pageSize]
  omega

lemma Represents.allocPages_lowest (h : Represents b p) {n : Nat}
    (hn : 0 < n) :
    (b.allocPages n = none ∧ ∀ j, ¬IsRun (PageBitmap.isFree b.bytes) b.numPages n j) ∨
      ∃ k b', b.allocPages n = some (b.pageBase + k * pageSize, b') ∧ LowestFree b n k := by
  unfold LowestFree
  rw [h.bits, h.numPages, h.pageBase]
  rcases h.allocPages hn with ⟨hb, hp⟩ | ⟨addr, b', p', hb, hp, -⟩ <;>
    rcases Proofs.allocPages_lowest p hn with ⟨hnone, hno⟩ | ⟨k, hsome, hlow⟩
  · exact Or.inl ⟨hb, hno⟩
  · simp [hp] at hsome
  · simp [hp] at hnone
  · rw [hsome, Option.some.injEq, Prod.mk.injEq] at hp
    exact Or.inr ⟨k, b', by rw [hb, hp.1], hlow⟩

lemma PagesOwned.correct {live : List (Nat × Nat)}
    {blocks : List (Nat × Nat)} (h : PagesOwned (b, live) p blocks) : BlocksCorrect b live := by
  have hrep : Represents b p := h.bits
  obtain rfl : live = blocks.map (toAddr p) := h.live
  refine ⟨?_, ?_, ?_, ?_, fun n hn => ?_, fun n addr b' halloc => ?_⟩
  · refine List.pairwise_map.mpr (h.owned.disjoint.imp_of_mem ?_)
    intro x y hx hy hxy
    exact apart_of_disjoint p.pageBase (h.pos x hx) (h.pos y hy) hxy
  · intro x hx
    obtain ⟨y, -, rfl⟩ := List.mem_map.mp hx
    have haligned := p.base_aligned
    simp only [toAddr, pageSize] at haligned ⊢
    omega
  · intro x hx
    obtain ⟨y, hy, rfl⟩ := List.mem_map.mp hx
    have hin := h.owned.inside y hy
    rw [hrep.pageBase, hrep.numPages]
    simp only [toAddr, pageSize]
    omega
  · rw [hrep.freePages, hrep.numPages, List.map_map]
    exact h.owned.total
  · rcases hrep.allocPages_lowest hn with ⟨hnone, hno⟩ | ⟨k, b', hsome, hlow⟩
    · rw [hnone]
      exact iff_of_true rfl fun ⟨j, hj⟩ => hno j hj
    · rw [hsome]
      exact iff_of_false (by simp) fun hnot => hnot ⟨k, hlow.1⟩
  · have hn : 0 < n := by
      rcases Nat.eq_zero_or_pos n with rfl | hpos
      · simp [PageBitmap.allocPages] at halloc
      · exact hpos
    rcases hrep.allocPages_lowest hn with ⟨hnone, -⟩ | ⟨k, b'', hsome, hlow⟩
    · simp [hnone] at halloc
    · rw [hsome, Option.some.injEq, Prod.mk.injEq] at halloc
      exact ⟨k, halloc.1.symm, hlow⟩

/-- The allocator is correct after every history of allocations and of releases of live blocks. -/
theorem page_allocator_correct (kernelEnd ramEnd : Nat) (hpos : 0 < kernelEnd)
    (himage : kernelEnd < 2 ^ 48) (b₀ : PageBitmap)
    (hinit : PageBitmap.init kernelEnd ramEnd = some b₀) (ops : List PageOp) :
    BlocksCorrect (run pageStep (b₀, []) ops).1 (run pageStep (b₀, []) ops).2 := by
  obtain ⟨p, hrep, hfree⟩ := init_represents hpos himage hinit
  have hall : freeCells p.bitmap p.numPages = Finset.range p.numPages := by
    ext i
    simp [mem_freeCells, hfree]
  have hstart : PagesOwned (b₀, []) p [] :=
    ⟨hrep, rfl, by simp, ⟨List.Pairwise.nil, by simp, by simp, by simp [hall]⟩⟩
  have hrun : ∃ p' blocks, PagesOwned (run pageStep (b₀, []) ops) p' blocks :=
    run_preserves (P := fun x => ∃ p' blocks, PagesOwned x p' blocks) (fun _ op ⟨_, _, h⟩ => pageStep_owned h op)
      ⟨p, [], hstart⟩ ops
  obtain ⟨p', blocks, h⟩ := hrun
  exact h.correct

theorem page_allocator_correct_eight :
    ∃ b₀, PageBitmap.init 0x40100000 0x40108000 = some b₀ ∧
      BlocksCorrect (run pageStep (b₀, []) [.alloc 2, .alloc 3, .release 0x40100000 2]).1
        (run pageStep (b₀, []) [.alloc 2, .alloc 3, .release 0x40100000 2]).2 := by
  have hsome : (PageBitmap.init 0x40100000 0x40108000).isSome = true := by decide +kernel
  obtain ⟨b₀, hb₀⟩ := isSome_iff_exists.mp hsome
  exact ⟨b₀, hb₀, page_allocator_correct 0x40100000 0x40108000 (by decide) (by decide) b₀ hb₀ _⟩

end Aeglos.Proofs
