import Aeglos.Kernel.Dtb
import Aeglos.Proofs.PageBlocks

/-!
# Reserved memory and the page allocator

The device tree walk records reserved regions, and nobody tells the page allocator: it hands out
every page between the kernel image and the end of RAM.
-/

namespace Aeglos.Proofs

open Dtb FreeRuns TransitionSystem List Option

variable {b : PageBitmap}

lemma beginNode_off (w : Walk) (blob : Blob) (sblk : Nat) : w.off ≤ (w.beginNode blob sblk).off := by
  unfold Walk.beginNode
  dsimp only
  split <;> exact Nat.le_add_right _ _

lemma prop_off (w : Walk) (blob : Blob) (sblk strs : Nat) : w.off ≤ (w.prop blob sblk strs).off := by
  have hle : ∀ len, w.off ≤ w.off + 8 + (len + 3) / 4 * 4 := fun len => by omega
  unfold Walk.prop
  dsimp only
  split_ifs <;> exact hle _

/-- The walk of the structure block does not depend on its fuel, once that is as large as
what is left of the blob. -/
lemma walkStruct_enough (blob : Blob) (totalSize offStruct offStrings : Nat) {n : Nat} {w : Walk}
    (hn : totalSize ≤ offStruct + w.off + n) (m : Nat) :
    walkStruct blob totalSize offStruct offStrings (n + m) w =
      walkStruct blob totalSize offStruct offStrings n w := by
  induction n generalizing w with
  | zero =>
    cases m with
    | zero => rfl
    | succ m =>
      have hend : offStruct + w.off + 4 > totalSize := by omega
      simp only [walkStruct, if_pos hend]
  | succ n ih =>
    rw [show n + 1 + m = n + m + 1 by omega]
    simp only [walkStruct]
    split
    · rfl
    · have hnext : totalSize ≤ offStruct + (w.off + 4) + n := by omega
      split
      · have hoff := beginNode_off { w with off := w.off + 4 } blob offStruct
        exact ih (by dsimp only at hoff; omega)
      · exact ih hnext
      · have hoff := prop_off { w with off := w.off + 4 } blob offStruct offStrings
        exact ih (by dsimp only at hoff; omega)
      · exact ih hnext
      · rfl

def bitmapStep (b : PageBitmap) : PageOp → PageBitmap
  | .alloc count => ((b.allocPages count).map Prod.snd).getD b
  | .release base count => b.releasePages base count

/-- The region and the bytes from `lo` up to `hi` have one in common. -/
def Overlaps (region : Nat × Nat) (lo hi : Nat) : Prop :=
  ∃ x, region.1 ≤ x ∧ x < region.1 + region.2 ∧ lo ≤ x ∧ x < hi

/-- Whatever `alloc_pages` returns next, no page of it overlaps a recorded region. -/
def ReservedSpared (info : DtbInfo) (b : PageBitmap) : Prop :=
  ∀ count addr b', b.allocPages count = some (addr, b') →
    ∀ region ∈ info.reserved, ¬Overlaps region addr (addr + count * pageSize)

def SameRange (b b' : PageBitmap) : Prop := b'.pageBase = b.pageBase ∧ b'.numPages = b.numPages

lemma allocPages_range {b b' : PageBitmap} {count addr : Nat} (h : b.allocPages count = some (addr, b')) :
    SameRange b b' ∧ ∃ start, addr = b.pageBase + start * pageSize ∧
      IsLowest (PageBitmap.isFree b.bytes) b.numPages count start := by
  unfold PageBitmap.allocPages at h
  split at h
  case isTrue => cases h
  case isFalse hzero =>
    obtain ⟨start, hscan, heq⟩ := map_eq_some_iff.mp h
    obtain ⟨rfl, rfl⟩ := Prod.mk.inj heq
    have hpos := Nat.pos_of_ne_zero hzero
    rcases scan_lowest (PageBitmap.isFree b.bytes) b.numPages hpos with ⟨hnone, -⟩ | ⟨k, hk, hlow⟩
    · simp [hnone] at hscan
    · obtain rfl : start = k := some.inj (hscan.symm.trans hk)
      exact ⟨⟨rfl, rfl⟩, start, rfl, hlow⟩

lemma releasePages_range (b : PageBitmap) (base count : Nat) : SameRange b (b.releasePages base count) := by
  unfold PageBitmap.releasePages
  induction count with
  | zero => exact ⟨rfl, rfl⟩
  | succ count ih =>
    rw [range_succ, foldl_append, foldl_cons, foldl_nil]
    unfold PageBitmap.freePage
    dsimp only
    split_ifs <;> exact ih

lemma bitmapStep_range (b : PageBitmap) (op : PageOp) : SameRange b (bitmapStep b op) := by
  cases op with
  | alloc count =>
    simp only [bitmapStep]
    cases h : b.allocPages count with
    | none => exact ⟨rfl, rfl⟩
    | some r =>
      obtain ⟨addr, b'⟩ := r
      exact (allocPages_range h).1
  | release base count => exact releasePages_range b base count

lemma run_range (b : PageBitmap) (ops : List PageOp) : SameRange b (run bitmapStep b ops) :=
  run_preserves (fun b' op h => ⟨(bitmapStep_range b' op).1.trans h.1, (bitmapStep_range b' op).2.trans h.2⟩)
    ⟨rfl, rfl⟩ ops

def FreeFrom (b : PageBitmap) (i : Nat) : Prop :=
  ∀ k, PageBitmap.isFree b.bytes k = decide (i ≤ k ∧ k < b.numPages)

lemma allocPages_lowestPage {i : Nat} (h : FreeFrom b i) (hi : i < b.numPages) :
    ∃ b', b.allocPages 1 = some (b.pageBase + i * pageSize, b') ∧ SameRange b b' ∧ FreeFrom b' (i + 1) := by
  have hone : ∀ j, IsRun (PageBitmap.isFree b.bytes) b.numPages 1 j ↔ i ≤ j ∧ j < b.numPages := by
    intro j
    simp only [IsRun, AllFree, Nat.lt_one_iff, forall_eq, Nat.add_zero]
    rw [h j, decide_eq_true_eq]
    omega
  rcases scan_lowest (PageBitmap.isFree b.bytes) b.numPages Nat.one_pos with ⟨-, hnone⟩ | ⟨k, hk, hlow⟩
  · exact absurd ((hone i).mpr ⟨le_refl i, hi⟩) (hnone i)
  · obtain rfl : k = i :=
      Nat.le_antisymm (hlow.2 i ((hone i).mpr ⟨le_refl i, hi⟩)) ((hone k).mp hlow.1).1
    refine ⟨{ b with bytes := PageBitmap.markUsed b.bytes k }, ?_, ⟨rfl, rfl⟩, fun j => ?_⟩
    · rw [PageBitmap.allocPages, if_neg Nat.one_ne_zero, hk]
      rfl
    · dsimp only
      rw [isFree_markUsed, h j]
      by_cases hj : j = k
      · subst hj
        simp
      · rw [if_neg hj, decide_eq_decide]
        omega

lemma run_allocOnes (h : FreeFrom b 0) {i : Nat} (hi : i ≤ b.numPages) :
    SameRange b (run bitmapStep b (List.replicate i (.alloc 1))) ∧
      FreeFrom (run bitmapStep b (List.replicate i (.alloc 1))) i := by
  refine ⟨run_range b _, ?_⟩
  induction i with
  | zero => exact h
  | succ i ih =>
    have hrange := run_range b (List.replicate i (.alloc 1))
    obtain ⟨b', halloc, -, hfree⟩ := allocPages_lowestPage (ih (by omega)) (by rw [hrange.2]; exact hi)
    rw [replicate_succ', run_append, run_cons, run_nil, bitmapStep, halloc]
    exact hfree

lemma init_free {kernelEnd ramEnd : Nat} (h : PageBitmap.init kernelEnd ramEnd = some b) : FreeFrom b 0 := by
  unfold PageBitmap.init at h
  dsimp only at h
  split at h
  case isFalse => cases h
  case isTrue =>
    obtain rfl := some.inj h
    intro k
    simp only [isFree_initLoop, Nat.zero_le, true_and]

lemma kernelMain_free {fuel kernelEnd : Nat} {blob : Option Blob} {info : DtbInfo}
    (h : kernelMain fuel blob kernelEnd = some (info, b)) : FreeFrom b 0 := by
  obtain ⟨info', -, h⟩ := bind_eq_some_iff.mp h
  obtain ⟨pages, hinit, h⟩ := bind_eq_some_iff.mp h
  obtain ⟨rfl, rfl⟩ := Prod.mk.inj (some.inj h)
  exact init_free hinit

/-- The recorded regions are spared by every history of the allocator exactly when none of them reaches into
the managed pages. -/
theorem reserved_spared_iff (fuel : Nat) (blob : Option Blob) (kernelEnd : Nat) (info : DtbInfo)
    (b : PageBitmap) (hboot : kernelMain fuel blob kernelEnd = some (info, b)) :
    (∀ ops, ReservedSpared info (run bitmapStep b ops)) ↔
      ∀ region ∈ info.reserved, ¬Overlaps region b.pageBase (b.pageBase + b.numPages * pageSize) := by
  constructor
  · rintro hspared region hregion ⟨x, hlo, hhi, hbase, htop⟩
    have hpos : 0 < pageSize := by decide
    have hi : (x - b.pageBase) / pageSize < b.numPages := by
      rw [Nat.div_lt_iff_lt_mul hpos]
      omega
    obtain ⟨hrange, hfree⟩ := run_allocOnes (kernelMain_free hboot) (Nat.le_of_lt hi)
    obtain ⟨b', halloc, -, -⟩ := allocPages_lowestPage hfree (by rw [hrange.2]; exact hi)
    apply hspared _ _ _ _ halloc region hregion
    have hdiv := Nat.div_add_mod (x - b.pageBase) pageSize
    have hmod := Nat.mod_lt (x - b.pageBase) hpos
    rw [Nat.mul_comm] at hdiv
    rw [hrange.1, Nat.one_mul]
    exact ⟨x, hlo, hhi, by omega, by omega⟩
  · rintro hmanaged ops count addr b' halloc region hregion ⟨x, hlo, hhi, haddr, htop⟩
    obtain ⟨-, start, rfl, hlow⟩ := allocPages_range halloc
    have hrange := run_range b ops
    have hin := hlow.1.1
    rw [hrange.2] at hin
    rw [hrange.1] at haddr htop
    have hend : start * pageSize + count * pageSize ≤ b.numPages * pageSize := by
      rw [← Nat.add_mul]
      exact Nat.mul_le_mul_right _ hin
    exact hmanaged region hregion ⟨x, hlo, hhi, by omega, by omega⟩

def toBe (n width : Nat) : Bytes := (toLe n width).reverse

/-- A device tree with RAM from `0x40000000` up to `0x40084000`, and one page of it reserved
right behind a kernel image that ends at `0x40080000`. -/
def reservingTree : Bytes :=
  (toBe fdtMagic 4 ++ toBe 120 4 ++ toBe 56 4 ++ toBe 116 4 ++ toBe 24 4 ++ toBe 0 4) ++
  -- the reserve map
  (toBe 0x40080000 8 ++ toBe 0x1000 8 ++ toBe 0 16) ++
  -- the root node with `memory` in it
  (toBe 1 4 ++ toBe 0 4 ++ toBe 1 4 ++ ascii "memory" ++ toBe 0 2) ++
  (toBe 3 4 ++ toBe 16 4 ++ toBe 0 4 ++ toBe 0x40000000 8 ++ toBe 0x84000 8) ++
  (toBe 2 4 ++ toBe 2 4 ++ toBe 9 4) ++
  (ascii "reg" ++ [0])

def reservingBlob : Blob := fun i => reservingTree.getD i 0

theorem reserved_spared_iff_tree :
    ∃ info b, kernelMain 2 (some reservingBlob) 0x40080000 = some (info, b) ∧
      ((∀ ops, ReservedSpared info (run bitmapStep b ops)) ↔
        ∀ region ∈ info.reserved, ¬Overlaps region b.pageBase (b.pageBase + b.numPages * pageSize)) := by
  have hsome : (kernelMain 2 (some reservingBlob) 0x40080000).isSome = true := by decide +kernel
  obtain ⟨⟨info, b⟩, hboot⟩ := isSome_iff_exists.mp hsome
  exact ⟨info, b, hboot, reserved_spared_iff 2 _ _ info b hboot⟩

theorem reserved_page_returned :
    ∃ info b, kernelMain 2 (some reservingBlob) 0x40080000 = some (info, b) ∧
      info.reserved = [(0x40080000, 0x1000)] ∧ (b.allocPages 1).map Prod.fst = some 0x40080000 ∧
      ¬ReservedSpared info (run bitmapStep b []) := by
  have hresult : (kernelMain 2 (some reservingBlob) 0x40080000).map
      (fun r => (r.1.reserved, (r.2.allocPages 1).map Prod.fst)) =
        some ([(0x40080000, 0x1000)], some 0x40080000) := by decide +kernel
  obtain ⟨⟨info, b⟩, hboot, heq⟩ := map_eq_some_iff.mp hresult
  obtain ⟨hreserved, halloc⟩ := Prod.mk.inj heq
  refine ⟨info, b, hboot, hreserved, halloc, fun hspared => ?_⟩
  obtain ⟨⟨addr, b'⟩, hpage, rfl⟩ := map_eq_some_iff.mp halloc
  have hmem : (0x40080000, 0x1000) ∈ info.reserved := hreserved.symm ▸ mem_singleton_self _
  refine hspared 1 _ b' hpage _ hmem ⟨0x40080000, ?_, ?_, ?_, ?_⟩
  all_goals decide

end Aeglos.Proofs
