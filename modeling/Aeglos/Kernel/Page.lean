import Mathlib.Tactic

/-!
# The physical page allocator

`memory/page.rs`: one bit per 4 KiB page, set while the page is free, indexed relative to
`pageBase`.
-/

namespace Aeglos

/-! The sizes of the kernel's fixed tables are positive, so that their indices have literals. -/

instance neZero4 : NeZero 4 := ⟨by decide⟩
instance neZero8 : NeZero 8 := ⟨by decide⟩
instance neZero16 : NeZero 16 := ⟨by decide⟩
instance neZero31 : NeZero 31 := ⟨by decide⟩
instance neZero512 : NeZero 512 := ⟨by decide⟩

def pageSize : Nat := 4096

def wrap64 (n : Nat) : Nat := n % 2 ^ 64

def wrapSub (a b : Nat) : Nat := if b ≤ a then a - b else 2 ^ 64 + a - b

def maxRamEnd : Nat := 0x440000000

/-- The allocator's statics, with what `init` establishes about them. -/
structure PageAllocator where
  bitmap : Nat → Bool
  pageBase : Nat
  numPages : Nat
  ramTop : Nat
  base_pos : 0 < pageBase
  base_aligned : pageBase % pageSize = 0
  fits : pageBase + numPages * pageSize ≤ ramTop
  top_le : ramTop ≤ maxRamEnd

namespace PageAllocator

def scan (bitmap : Nat → Bool) (count : Nat) : Nat → Nat → Nat → Nat → Option Nat
  | 0, _, _, _ => none
  | left + 1, i, consecutive, startIdx =>
    if bitmap i then
      let startIdx := if consecutive = 0 then i else startIdx
      if consecutive + 1 = count then some startIdx
      else scan bitmap count left (i + 1) (consecutive + 1) startIdx
    else scan bitmap count left (i + 1) 0 startIdx

def allocPages (p : PageAllocator) (count : Nat) : Option (Nat × PageAllocator) :=
  if count = 0 then none
  else (scan p.bitmap count p.numPages 0 0 0).map fun start =>
    (p.pageBase + start * pageSize,
      { p with bitmap := fun i => if start ≤ i ∧ i < start + count then false else p.bitmap i })

def freePage (p : PageAllocator) (addr : Nat) : PageAllocator :=
  if addr < p.pageBase ∨ addr ≥ p.ramTop then p
  else if addr % pageSize ≠ 0 then p
  else
    let index := (addr - p.pageBase) / pageSize
    if index < p.numPages then
      { p with bitmap := fun i => if i = index then true else p.bitmap i }
    else p

def releasePages (p : PageAllocator) (base count : Nat) : PageAllocator :=
  (List.range count).foldl (fun p i => p.freePage (base + i * pageSize)) p

def Free (p : PageAllocator) (addr : Nat) : Prop :=
  p.pageBase ≤ addr ∧ (addr - p.pageBase) / pageSize < p.numPages ∧
    p.bitmap ((addr - p.pageBase) / pageSize) = true

instance (p : PageAllocator) (addr : Nat) : Decidable (p.Free addr) := by
  unfold Free
  infer_instance

lemma scan_some {bitmap : Nat → Bool} {count left i consecutive startIdx start : Nat}
    (hcount : 0 < count) (hlt : consecutive < count)
    (hrun : 0 < consecutive → startIdx + consecutive = i)
    (hfree : ∀ k, k < consecutive → bitmap (startIdx + k) = true)
    (h : scan bitmap count left i consecutive startIdx = some start) :
    start + count ≤ i + left ∧ ∀ k, k < count → bitmap (start + k) = true := by
  induction left generalizing i consecutive startIdx with
  | zero => simp [scan] at h
  | succ left ih =>
    rw [scan] at h
    by_cases hbit : bitmap i = true
    · rw [if_pos hbit] at h
      have hnext : (if consecutive = 0 then i else startIdx) + (consecutive + 1) = i + 1 := by
        split_ifs with hc
        · omega
        · have := hrun (by omega)
          omega
      have hall : ∀ k, k < consecutive + 1 →
          bitmap ((if consecutive = 0 then i else startIdx) + k) = true := by
        intro k hk
        by_cases hc : consecutive = 0
        · have hk0 : k = 0 := by omega
          simpa [hc, hk0] using hbit
        · rw [if_neg hc]
          by_cases hlast : k = consecutive
          · have hi := hrun (by omega)
            rw [hlast, hi]
            exact hbit
          · exact hfree k (by omega)
      by_cases hdone : consecutive + 1 = count
      · simp only [hdone, if_true] at h
        obtain rfl := Option.some.inj h
        refine ⟨by omega, ?_⟩
        rw [← hdone]
        exact hall
      · simp only [hdone, if_false] at h
        have hres := ih (by omega) (fun _ => hnext) hall h
        exact ⟨by omega, hres.2⟩
    · rw [if_neg hbit] at h
      have hres := ih hcount (fun h0 => absurd h0 (by omega)) (fun k hk => absurd hk (by omega)) h
      exact ⟨by omega, hres.2⟩

theorem allocPages_some {p p' : PageAllocator} {count addr : Nat}
    (h : p.allocPages count = some (addr, p')) :
    ∃ start, addr = p.pageBase + start * pageSize ∧ 0 < count ∧ start + count ≤ p.numPages ∧
      (∀ k, k < count → p.bitmap (start + k) = true) ∧
      p' = { p with bitmap := fun i =>
        if start ≤ i ∧ i < start + count then false else p.bitmap i } := by
  unfold allocPages at h
  by_cases hc : count = 0
  · simp [hc] at h
  · rw [if_neg hc, Option.map_eq_some_iff] at h
    obtain ⟨start, hscan, heq⟩ := h
    have hs := scan_some (by omega) (by omega) (fun h0 => absurd h0 (by omega))
      (fun k hk => absurd hk (by omega)) hscan
    obtain ⟨rfl, rfl⟩ := Prod.mk.inj heq
    exact ⟨start, rfl, by omega, by omega, hs.2, rfl⟩

theorem allocPages_free {p p' : PageAllocator} {count addr : Nat}
    (h : p.allocPages count = some (addr, p')) (a : Nat) :
    (addr ≤ a ∧ a < addr + count * pageSize → p.Free a) ∧
      (p'.Free a ↔ p.Free a ∧ ¬(addr ≤ a ∧ a < addr + count * pageSize)) := by
  obtain ⟨start, rfl, hcount, hle, hfree, rfl⟩ := allocPages_some h
  have hidx : p.pageBase ≤ a → ((p.pageBase + start * pageSize ≤ a ∧
      a < p.pageBase + start * pageSize + count * pageSize) ↔
      (start ≤ (a - p.pageBase) / pageSize ∧ (a - p.pageBase) / pageSize < start + count)) := by
    intro ha
    rw [Nat.le_div_iff_mul_le (by decide), Nat.div_lt_iff_lt_mul (by decide), Nat.add_mul]
    omega
  constructor
  · rintro ⟨hlo, hhi⟩
    have hbase : p.pageBase ≤ a := by omega
    obtain ⟨h1, h2⟩ := (hidx hbase).mp ⟨hlo, hhi⟩
    refine ⟨hbase, by omega, ?_⟩
    have := hfree ((a - p.pageBase) / pageSize - start) (by omega)
    rwa [Nat.add_sub_cancel' h1] at this
  · unfold Free
    by_cases hbase : p.pageBase ≤ a
    · simp only [hbase, true_and, hidx hbase]
      split_ifs with hin
      · simp [hin]
      · tauto
    · simp [hbase]

lemma freePage_free {p : PageAllocator} {addr a : Nat} (h : (p.freePage addr).Free a) :
    p.Free a ∨ (addr ≤ a ∧ a < addr + pageSize) := by
  unfold freePage at h
  split_ifs at h with hrange halign
  · exact Or.inl h
  · exact Or.inl h
  · dsimp only at h
    split_ifs at h with hnum
    · obtain ⟨hbase, hlt, hbit⟩ := h
      dsimp only at hbase hlt hbit
      by_cases hsame : (a - p.pageBase) / pageSize = (addr - p.pageBase) / pageSize
      · right
        have hal := p.base_aligned
        unfold pageSize at *
        omega
      · rw [if_neg hsame] at hbit
        exact Or.inl ⟨hbase, hlt, hbit⟩
    · exact Or.inl h

theorem releasePages_free {p : PageAllocator} {base count a : Nat}
    (h : (p.releasePages base count).Free a) :
    p.Free a ∨ (base ≤ a ∧ a < base + count * pageSize) := by
  unfold releasePages at h
  induction count with
  | zero => exact Or.inl (by simpa using h)
  | succ count ih =>
    rw [List.range_succ, List.foldl_append, List.foldl_cons, List.foldl_nil] at h
    rcases freePage_free h with hold | hin
    · rcases ih hold with hp | hb
      · exact Or.inl hp
      · exact Or.inr ⟨hb.1, by rw [Nat.succ_mul]; omega⟩
    · exact Or.inr ⟨by omega, by rw [Nat.succ_mul]; omega⟩

end PageAllocator

end Aeglos
