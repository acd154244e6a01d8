import Aeglos.Library.Runs
import Aeglos.Proofs.PageTables

/-!
# Page tables refine a map

A root is, for its users, a map from the virtual pages of the 48-bit address space.
-/

namespace Aeglos.Proofs

open LinkedWalk Memory TransitionSystem List

abbrev VPage := BitVec 36

def vpage (va : Nat) : VPage := BitVec.ofNat 36 (va / 4096)

def vaddr (v : VPage) : Nat := v.toNat * 4096

def vregion (v : VPage) : Nat := v.toNat / 512

/-- A root as its users see it: where each page leads, and whether it is mapped, or could be,
with a descriptor of its own. -/
@[ext]
structure PageMap where
  trans : VPage → Option Translation
  small : VPage → Prop

def spanned (va size : Nat) : Nat := if size = 0 then 0 else (va % 4096 + size + 4095) / 4096

def keepExec (old : Option Translation) (flags : Entry) : Entry :=
  match old with
  | none => flags
  | some tr => if tr.user = true ∧ tr.attrs &&& pteUxn = 0 then flags &&& ~~~pteUxn else flags

namespace PageMap

def map (f : PageMap) (pa va size : Nat) (flags : Entry) : PageMap where
  trans v :=
    if (v - vpage va).toNat < spanned va size then
      some ⟨pa / 4096 * 4096 + (v - vpage va).toNat * 4096, keepExec (f.trans v) flags⟩
    else f.trans v
  small v := f.small v ∨ ∃ w : VPage, (w - vpage va).toNat < spanned va size ∧ vregion w = vregion v

open Classical in
noncomputable def unmap (f : PageMap) (va size : Nat) : PageMap where
  trans v := if (v - vpage va).toNat < spanned va size ∧ f.small v then none else f.trans v
  small := f.small

open Classical in
noncomputable def frees (f : PageMap) (va size : Nat) : List Nat :=
  (List.range (spanned va size)).filterMap fun k =>
    let v := vpage va + BitVec.ofNat 36 k
    if f.small v then (f.trans v).map Translation.page else none

end PageMap

def pageMap (root : Nat) (m : Memory) : PageMap where
  trans v := m.translate root (vaddr v)
  small v := ∃ l3, NodeAt m root (indices (vaddr v)) l3

lemma vpage_vaddr (v : VPage) : vpage (vaddr v) = v := by
  apply BitVec.eq_of_toNat_eq
  have hlt := v.isLt
  simp only [vpage, vaddr, BitVec.toNat_ofNat]
  omega

lemma samePage_iff_vpage {va va' : Nat} : SamePage va va' ↔ vpage va = vpage va' := by
  rw [SamePage, ← BitVec.toNat_inj]
  simp only [vpage, BitVec.toNat_ofNat]

lemma indices_iff_vregion {va va' : Nat} :
    indices va = indices va' ↔ vregion (vpage va) = vregion (vpage va') := by
  simp only [indices, vregion, vpage, List.cons.injEq, and_true, l0Idx, l1Idx, l2Idx, Fin.ext_iff,
    Fin.val_ofNat, BitVec.toNat_ofNat]
  omega

lemma vpage_add (va k : Nat) : vpage (pageFloor va + k * 4096) = vpage va + BitVec.ofNat 36 k := by
  apply BitVec.eq_of_toNat_eq
  simp only [vpage, pageFloor, BitVec.toNat_add, BitVec.toNat_ofNat]
  omega

lemma eq_add_iff {v w : VPage} {k : Nat} (hk : k < 2 ^ 36) : v = w + BitVec.ofNat 36 k ↔ (v - w).toNat = k := by
  have hv := v.isLt
  have hw := w.isLt
  rw [← BitVec.toNat_inj, BitVec.toNat_add, BitVec.toNat_ofNat, BitVec.toNat_sub]
  omega

lemma spanned_iff {va size : Nat} (h : va % 4096 + size ≤ 2 ^ 48) (v : VPage) :
    (v - vpage va).toNat < spanned va size ↔ ∃ x, va ≤ x ∧ x < va + size ∧ vpage x = v := by
  have hv := v.isLt
  have hoff : ∀ x, va ≤ x → x < va + size → vpage x = v → (v - vpage va).toNat = x / 4096 - va / 4096 := by
    rintro x hlo hhi rfl
    simp only [vpage, BitVec.toNat_sub, BitVec.toNat_ofNat]
    omega
  constructor
  · intro hlt
    unfold spanned at hlt
    split_ifs at hlt with hsize
    · omega
    · obtain ⟨k, hk⟩ : ∃ k, (v - vpage va).toNat = k := ⟨_, rfl⟩
      have hk36 : k < 2 ^ 36 := hk ▸ BitVec.isLt _
      have heq := (eq_add_iff hk36).mpr hk
      refine ⟨max va (pageFloor va + k * 4096), ?_, ?_, ?_⟩
      · omega
      · simp only [pageFloor]
        omega
      · have hsame : vpage (max va (pageFloor va + k * 4096)) = vpage (pageFloor va + k * 4096) := by
          apply BitVec.eq_of_toNat_eq
          simp only [vpage, pageFloor, BitVec.toNat_ofNat]
          omega
        rw [hsame, vpage_add, ← heq]
  · rintro ⟨x, hlo, hhi, hx⟩
    rw [hoff x hlo hhi hx]
    unfold spanned
    split_ifs with hsize <;> omega

lemma translate_valid {m : Memory} {root va : Nat} {tr : Translation}
    (h : m.translate root va = some tr) : tr.attrs.isValid = true := by
  simp only [Memory.translate, Option.bind_eq_bind, Option.bind_eq_some_iff] at h
  obtain ⟨l1, -, l2, -, h⟩ := h
  unfold leaf at h
  dsimp only at h
  split_ifs at h with hv ht
  · obtain rfl := Option.some.inj h
    have hvalid : (m.table l2 (l2Idx va)).isValid = true := by simpa using hv
    rw [Entry.blockPage, splitFlags_isValid, hvalid]
  · unfold Entry.page at h
    split_ifs at h with he
    obtain rfl := Option.some.inj h
    rw [Bool.and_eq_true] at he
    rw [isValid_eq, BitVec.getLsbD_and, BitVec.getLsbD_not, addrMask_getLsbD, ← isValid_eq, he.1]
    decide

lemma flagsOver_eq_keepExec {m : Memory} {root va : Nat} (flags : Entry) :
    flagsOver (m.translate root va) flags = keepExec (m.translate root va) flags := by
  cases h : m.translate root va with
  | none => rfl
  | some tr =>
    have hvalid := translate_valid h
    have hone : ∀ e : Entry, e &&& pteUxn = if e.getLsbD 54 then pteUxn else 0 := by
      intro e
      apply BitVec.eq_of_getLsbD_eq
      intro i hi
      have hbit : pteUxn.getLsbD i = decide (i = 54) := by
        interval_cases i <;> decide
      rw [BitVec.getLsbD_and, hbit]
      by_cases h54 : i = 54
      · subst h54
        cases e.getLsbD 54 <;> decide
      · cases e.getLsbD 54 <;> simp [h54, hbit]
    have hzero : pteUxn ≠ 0 := by decide
    have hsplit : (flags &&& ~~~pteUxn) ||| (flags &&& pteUxn) = flags := by
      rw [← BitVec.and_or_distrib_left, BitVec.or_comm, BitVec.or_not_self, BitVec.and_allOnes]
    have hmode : tr.attrs.isUser = tr.user := rfl
    simp only [flagsOver, keepExec, mergedFlags, hvalid, Bool.true_and, hmode]
    by_cases huser : tr.user = true
    · rw [if_pos huser]
      cases hx : tr.attrs.getLsbD 54 with
      | true =>
        have hset : tr.attrs &&& pteUxn = pteUxn := by rw [hone, if_pos hx]
        rw [hset, if_neg fun hc => hzero hc.2, BitVec.and_comm pteUxn, BitVec.and_assoc, BitVec.and_self, hsplit]
      | false =>
        have hclear : tr.attrs &&& pteUxn = 0 := by rw [hone, hx]; rfl
        rw [hclear, if_pos ⟨huser, rfl⟩]
        exact (congrArg _ BitVec.zero_and).trans BitVec.or_zero
    · rw [if_neg huser, if_neg fun hc => huser hc.1]

section Map

variable {m m' : Memory} {root pa va size : Nat} {flags : Entry}

/-- The flags of a page descriptor: no address bits, valid, and bit 1 set. -/
structure PageFlags (flags : Entry) : Prop where
  isFlags : IsFlags flags
  valid : flags.isValid = true
  table : flags.isTable = true

structure TakesTables (root : Nat) (m m' : Memory) : Prop where
  inv : TreeInv [root] m'
  new : ∀ p t, NodeAt m' root p t → NodeAt m root p t ∨ m.pages.Free t
  consumes : m.Consumes m'

lemma TakesTables.refl (hinv : TreeInv [root] m) : TakesTables root m m :=
  ⟨hinv, fun _ _ => Or.inl, Consumes.refl m⟩

lemma TakesTables.trans {m₁ m₂ : Memory} (h : TakesTables root m m₁) (h' : TakesTables root m₁ m₂) :
    TakesTables root m m₂ where
  inv := h'.inv
  new p t hn := (h'.new p t hn).elim (h.new p t) fun hfree => Or.inr (h.consumes t hfree)
  consumes := h.consumes.trans _ _ _ h'.consumes

lemma mapOnePage_pageMap (hinv : TreeInv [root] m) (hpa : pa % 4096 = 0) (hlt : pa < 2 ^ 48)
    (hflags : PageFlags flags) (h : m.mapOnePage root pa va flags = .ok m') :
    TakesTables root m m' ∧
      (∀ v, (pageMap root m').trans v = if v = vpage va then
        some ⟨pa, keepExec ((pageMap root m).trans v) flags⟩ else (pageMap root m).trans v) ∧
      ∀ v, (pageMap root m').small v ↔ (pageMap root m).small v ∨ vregion (vpage va) = vregion v := by
  have hroot : root ∈ [root] := mem_singleton_self root
  obtain ⟨hremaps, hcons⟩ := mapOnePage_ok hinv hroot hpa hlt hflags.isFlags hflags.valid hflags.table h
  refine ⟨⟨hremaps.inv, hremaps.new root hroot, hcons⟩, fun v => ?_, fun v => ?_⟩
  · have htr := hremaps.translate root hroot (vaddr v)
    simp only [true_and, samePage_iff_vpage, vpage_vaddr] at htr
    simp only [pageMap, htr, eq_comm (a := v)]
    refine if_ctx_congr Iff.rfl (fun hv => ?_) fun _ => rfl
    have hsame : SamePage va (vaddr v) := samePage_iff_vpage.mpr (by rw [vpage_vaddr, hv])
    rw [flagsOver_eq_keepExec, translate_samePage hsame]
  · rcases mapOnePage_cases pa va flags hinv hroot with ⟨m₁, h₁, -⟩ | ⟨m₃, l3, hg, hl3, hnodes, h₃⟩
    · simp [h₁] at h
    obtain rfl := Except.ok.inj (h₃.symm.trans h)
    have hnode := fun q u => setLeaf_node (e := BitVec.ofNat 64 pa &&& addrMask |||
      mergedFlags (m₃.table l3 (l3Idx va)) flags) hg.inv hroot hl3 hroot q u
    have hregion : indices va = indices (vaddr v) ↔ vregion (vpage va) = vregion v := by
      rw [indices_iff_vregion, vpage_vaddr]
    simp only [pageMap, hnode]
    constructor
    · rintro ⟨u, hu⟩
      rcases hnodes root hroot _ u hu with hold | hpath
      · exact Or.inl ⟨u, hold⟩
      · exact Or.inr (hregion.mp (List.IsPrefix.eq_of_length hpath rfl).symm)
    · rintro (⟨u, hu⟩ | hv)
      · exact ⟨u, hg.old root hroot _ u hu⟩
      · exact ⟨l3, hregion.mpr hv ▸ hl3⟩

lemma mapLoop_pageMap (hinv : TreeInv [root] m) (hflags : PageFlags flags) {n : Nat}
    (hn : n ≤ 2 ^ 36) (hlt : pageFloor pa + n * 4096 ≤ 2 ^ 48)
    (h : (List.range n).foldlM (fun m i => m.mapOnePage root (pageFloor pa + i * 4096)
      (pageFloor va + i * 4096) flags) m = .ok m') :
    TakesTables root m m' ∧
      (∀ v, (pageMap root m').trans v = if (v - vpage va).toNat < n then
          some ⟨pa / 4096 * 4096 + (v - vpage va).toNat * 4096, keepExec ((pageMap root m).trans v) flags⟩
        else (pageMap root m).trans v) ∧
      ∀ v, (pageMap root m').small v ↔
        (pageMap root m).small v ∨ ∃ w : VPage, (w - vpage va).toNat < n ∧ vregion w = vregion v := by
  induction n generalizing m' with
  | zero =>
    obtain rfl := Except.ok.inj h
    exact ⟨TakesTables.refl hinv, by simp, by simp⟩
  | succ n ih =>
    rw [range_succ, foldlM_append] at h
    obtain ⟨m₁, hm₁, h⟩ := Fallible.bind_eq_ok h
    simp only [foldlM_cons, foldlM_nil, bind_pure] at h
    have hbelow : pageFloor pa + n * 4096 < 2 ^ 48 := by
      clear ih h hm₁
      omega
    obtain ⟨htakes, htrans, hsmall⟩ := ih (Nat.le_of_succ_le hn) (Nat.le_of_lt hbelow) hm₁
    have haligned : (pageFloor pa + n * 4096) % 4096 = 0 := by
      clear ih h hm₁
      simp only [pageFloor]
      omega
    obtain ⟨htakes', htrans', hsmall'⟩ := mapOnePage_pageMap htakes.inv haligned hbelow hflags h
    have hpage : ∀ v : VPage, v = vpage (pageFloor va + n * 4096) ↔ (v - vpage va).toNat = n := fun v => by
      rw [vpage_add, eq_add_iff hn]
    refine ⟨htakes.trans htakes', fun v => ?_, fun v => ?_⟩
    · rw [htrans' v, htrans v]
      by_cases hlast : (v - vpage va).toNat = n
      · rw [if_pos ((hpage v).mpr hlast), hlast, if_neg (lt_irrefl n), if_pos (Nat.lt_succ_self n)]
        rfl
      · rw [if_neg fun hv => hlast ((hpage v).mp hv)]
        refine if_congr ?_ rfl rfl
        omega
    · rw [hsmall' v, hsmall v, or_assoc]
      refine or_congr_right ⟨?_, ?_⟩
      · rintro (⟨w, hw, hr⟩ | hr)
        · exact ⟨w, by omega, hr⟩
        · exact ⟨_, by rw [(hpage _).mp rfl]; exact Nat.lt_succ_self n, hr⟩
      · rintro ⟨w, hw, hr⟩
        by_cases hlast : (w - vpage va).toNat = n
        · exact Or.inr ((hpage w).mpr hlast ▸ hr)
        · exact Or.inl ⟨w, by omega, hr⟩

lemma pageCount_eq_spanned {a size : Nat} (hsize : 0 < size ∨ a % 4096 = 0)
    (hfits : a % 4096 + size ≤ 2 ^ 48) : pageCount a size = spanned a size := by
  unfold pageCount spanned pageFloor wrap64
  split_ifs with h0 <;> omega

theorem mapPages_pageMap (hinv : TreeInv [root] m) (hcong : pa % 4096 = va % 4096)
    (hsize : 0 < size ∨ pa % 4096 = 0) (hfits : pa + size ≤ 2 ^ 48) (hflags : PageFlags flags)
    (h : m.mapPages root pa va size flags = .ok m') :
    TakesTables root m m' ∧ pageMap root m' = (pageMap root m).map pa va size flags := by
  have hspan : spanned pa size = spanned va size := by rw [spanned, spanned, hcong]
  have hcount : pageCount pa size = spanned va size := by
    rw [pageCount_eq_spanned hsize (by omega), hspan]
  have hpages : spanned va size ≤ 2 ^ 36 ∧ pageFloor pa + spanned va size * 4096 ≤ 2 ^ 48 := by
    rw [← hspan]
    unfold spanned pageFloor
    split_ifs <;> omega
  unfold mapPages at h
  rw [hcount] at h
  obtain ⟨htakes, htrans, hsmall⟩ := mapLoop_pageMap hinv hflags hpages.1 hpages.2 h
  exact ⟨htakes, PageMap.ext (funext htrans) (funext fun v => propext (hsmall v))⟩

end Map

def freedBy (m : Memory) (root va : Nat) : Option Nat :=
  (m.unmapSlot root va).map fun slot => (m.table slot.1 slot.2).addr

def unmapFrees (m : Memory) (root : Nat) : List Nat → List Nat
  | [] => []
  | va :: vas => (freedBy m root va).toList ++ unmapFrees (m.unmapOnePage root va) root vas

def HoldsNoTable (m : Memory) (root page : Nat) : Prop := ∀ p t, NodeAt m root p t → ¬InPage page t

section Unmap

variable {m : Memory} {root va size : Nat}

lemma unmapSlot_none (h : m.unmapSlot root va = none) {l3 : Nat} (hl3 : NodeAt m root (indices va) l3) :
    (m.table l3 (l3Idx va)).isValid = false := by
  rw [indices, show [l0Idx va, l1Idx va, l2Idx va] = [l0Idx va, l1Idx va] ++ [l2Idx va] from rfl,
    nodeAt_concat] at hl3
  obtain ⟨-, l2, hl2, hc2⟩ := hl3
  obtain ⟨l1, hc0, hc1⟩ := nodeAt_two.mp hl2
  obtain ⟨hv0, -, rfl⟩ := child_eq_some.mp hc0
  obtain ⟨hv1, -, rfl⟩ := child_eq_some.mp hc1
  obtain ⟨hv2, ht2, rfl⟩ := child_eq_some.mp hc2
  simpa [unmapSlot, hv0, hv1, hv2, ht2] using h

lemma freedBy_small (hinv : TreeInv [root] m) (hsmall : (pageMap root m).small (vpage va)) :
    freedBy m root va = ((pageMap root m).trans (vpage va)).map Translation.page := by
  have hroot : root ∈ [root] := mem_singleton_self root
  have hsame : SamePage (vaddr (vpage va)) va := samePage_iff_vpage.mpr (vpage_vaddr _)
  obtain ⟨l3, hl3⟩ := hsmall
  rw [(samePage_iff.mp hsame).1] at hl3
  simp only [pageMap, translate_samePage hsame, freedBy]
  cases hs : m.unmapSlot root va with
  | none =>
    rw [translate_of_leaf hl3, Entry.page, unmapSlot_none hs hl3]
    rfl
  | some slot =>
    rw [(unmapOnePage_of_slot hinv hroot hs).mapped]
    rfl

lemma unmapSlot_not_small (hinv : TreeInv [root] m) (hsmall : ¬(pageMap root m).small (vpage va)) :
    m.unmapSlot root va = none := by
  have hroot : root ∈ [root] := mem_singleton_self root
  have hsame : SamePage (vaddr (vpage va)) va := samePage_iff_vpage.mpr (vpage_vaddr _)
  cases hs : m.unmapSlot root va with
  | none => rfl
  | some slot =>
    obtain ⟨hl3, -⟩ := unmapSlot_some hinv hroot hs
    exact absurd ⟨slot.1, (samePage_iff.mp hsame).1 ▸ hl3⟩ hsmall

structure UnmapsPages (root : Nat) (m m' : Memory) (P : VPage → Prop) : Prop where
  inv : TreeInv [root] m'
  node : ∀ p t, NodeAt m' root p t ↔ NodeAt m root p t
  removed : ∀ v, P v → (pageMap root m).small v → (pageMap root m').trans v = none
  kept : ∀ v, ¬(P v ∧ (pageMap root m).small v) → (pageMap root m').trans v = (pageMap root m).trans v

lemma UnmapsPages.small {m' : Memory} {P : VPage → Prop} (h : UnmapsPages root m m' P) (v : VPage) :
    (pageMap root m').small v ↔ (pageMap root m).small v :=
  exists_congr fun l3 => h.node _ l3

lemma unmapOnePage_pageMap (va : Nat) (hinv : TreeInv [root] m)
    (hfree : ∀ page ∈ freedBy m root va, HoldsNoTable m root page) :
    UnmapsPages root m (m.unmapOnePage root va) (· = vpage va) := by
  have hroot : root ∈ [root] := mem_singleton_self root
  cases hs : m.unmapSlot root va with
  | none =>
    rw [unmapOnePage, hs]
    refine ⟨hinv, fun _ _ => Iff.rfl, ?_, fun _ _ => rfl⟩
    rintro v rfl hsmall
    have hnone := freedBy_small hinv hsmall
    rw [freedBy, hs] at hnone
    exact Option.map_eq_none_iff.mp hnone.symm
  | some slot =>
    have hun := unmapOnePage_of_slot hinv hroot hs
    have hsmall : ∀ v, v = vpage va → (pageMap root m).small v := by
      rintro v rfl
      by_contra hns
      simp [unmapSlot_not_small hinv hns] at hs
    have htrans : ∀ v, (pageMap root (m.unmapOnePage root va)).trans v =
        if v = vpage va then none else (pageMap root m).trans v := fun v => by
      have htr := hun.translate root hroot (vaddr v)
      simp only [true_and, samePage_iff_vpage, vpage_vaddr] at htr
      simp only [pageMap, htr, eq_comm (a := v)]
    refine ⟨hun.inv ?_, hun.node root hroot, fun v hv _ => ?_, fun v hv => ?_⟩
    · intro r hr p t hn
      rw [mem_singleton.mp hr] at hn
      exact hfree _ (by rw [freedBy, hs]; rfl) p t hn
    · rw [htrans, if_pos hv]
    · rw [htrans, if_neg fun heq => hv ⟨heq, hsmall v heq⟩]

lemma UnmapsPages.trans {m₁ m₂ : Memory} {P Q : VPage → Prop} (h : UnmapsPages root m m₁ P)
    (h' : UnmapsPages root m₁ m₂ Q) : UnmapsPages root m m₂ fun v => P v ∨ Q v where
  inv := h'.inv
  node p t := (h'.node p t).trans (h.node p t)
  removed v hv hsmall := by
    by_cases hQ : Q v
    · exact h'.removed v hQ ((h.small v).mpr hsmall)
    · rw [h'.kept v fun hc => hQ hc.1]
      exact h.removed v (hv.resolve_right hQ) hsmall
  kept v hv := by
    rw [h'.kept v fun hc => hv ⟨Or.inr hc.1, (h.small v).mp hc.2⟩]
    exact h.kept v fun hc => hv ⟨Or.inl hc.1, hc.2⟩

lemma UnmapsPages.freedBy {m' : Memory} {P : VPage → Prop} (hinv : TreeInv [root] m)
    (h : UnmapsPages root m m' P) (hP : ¬P (vpage va)) :
    Proofs.freedBy m' root va = Proofs.freedBy m root va := by
  by_cases hsmall : (pageMap root m).small (vpage va)
  · rw [freedBy_small hinv hsmall, freedBy_small h.inv ((h.small _).mpr hsmall), h.kept _ fun hc => hP hc.1]
  · have hsmall' : ¬(pageMap root m').small (vpage va) := fun hc => hsmall ((h.small _).mp hc)
    rw [Proofs.freedBy, Proofs.freedBy, unmapSlot_not_small hinv hsmall,
      unmapSlot_not_small h.inv hsmall', Option.map_none, Option.map_none]

lemma unmapLoop_pageMap {pages : List Nat} (hinv : TreeInv [root] m)
    (hdistinct : pages.Pairwise fun a b => vpage a ≠ vpage b)
    (hfree : ∀ page ∈ unmapFrees m root pages, HoldsNoTable m root page) :
    UnmapsPages root m (pages.foldl (fun m page => m.unmapOnePage root page) m)
        (fun v => ∃ page ∈ pages, v = vpage page) ∧
      unmapFrees m root pages = pages.filterMap (freedBy m root) := by
  induction pages generalizing m with
  | nil => exact ⟨⟨hinv, fun _ _ => Iff.rfl, by simp, fun _ _ => rfl⟩, rfl⟩
  | cons va vas ih =>
    obtain ⟨hne, hdistinct⟩ := pairwise_cons.mp hdistinct
    have hone := unmapOnePage_pageMap va hinv fun page hpage =>
      hfree page (mem_append_left _ (Option.mem_toList.mpr hpage))
    obtain ⟨hrest, hfrees⟩ := ih hone.inv hdistinct fun page hpage p t hn =>
      hfree page (mem_append_right _ hpage) p t ((hone.node p t).mp hn)
    have hall := hone.trans hrest
    refine ⟨?_, ?_⟩
    · simpa only [foldl_cons, mem_cons, exists_eq_or_imp] using hall
    · have hsame : vas.filterMap (freedBy (m.unmapOnePage root va) root) =
          vas.filterMap (freedBy m root) :=
        filterMap_congr fun b hb => hone.freedBy hinv fun heq => hne b hb heq.symm
      rw [unmapFrees, hfrees, hsame, filterMap_cons]
      cases freedBy m root va <;> rfl

lemma vpage_rangePages (va size : Nat) : (rangePages va size).map vpage =
    (List.range (pageCount va size)).map fun k => vpage va + BitVec.ofNat 36 k := by
  rw [rangePages, map_map]
  exact map_congr_left fun k _ => vpage_add va k

theorem unmapPages_pageMap (hinv : TreeInv [root] m) (hsize : 0 < size ∨ va % 4096 = 0)
    (hfits : va % 4096 + size ≤ 2 ^ 48)
    (hfree : ∀ page ∈ unmapFrees m root (rangePages va size), HoldsNoTable m root page) :
    TreeInv [root] (m.unmapPages root va size) ∧
      pageMap root (m.unmapPages root va size) = (pageMap root m).unmap va size ∧
      unmapFrees m root (rangePages va size) = (pageMap root m).frees va size := by
  have hcount := pageCount_eq_spanned hsize hfits
  have hspan : spanned va size ≤ 2 ^ 36 := by
    unfold spanned
    split_ifs <;> omega
  have hoffset : ∀ k < spanned va size, ∀ v : VPage,
      v = vpage va + BitVec.ofNat 36 k ↔ (v - vpage va).toNat = k :=
    fun k hk v => eq_add_iff (Nat.lt_of_lt_of_le hk hspan)
  have hdistinct : (rangePages va size).Pairwise fun a b => vpage a ≠ vpage b := by
    rw [← pairwise_map (f := vpage) (R := (· ≠ ·)), vpage_rangePages, hcount, pairwise_map]
    refine List.Pairwise.imp_of_mem ?_ (pairwise_lt_range (n := spanned va size))
    intro a b ha hb hlt heq
    have hb' := (hoffset b (mem_range.mp hb) _).mp heq
    rw [(hoffset a (mem_range.mp ha) _).mp rfl] at hb'
    exact absurd hb' hlt.ne
  have hmem : ∀ v : VPage, (∃ page ∈ rangePages va size, v = vpage page) ↔
      (v - vpage va).toNat < spanned va size := fun v => by
    have hmap : (∃ page ∈ rangePages va size, v = vpage page) ↔
        v ∈ (rangePages va size).map vpage := by simp [eq_comm]
    rw [hmap, vpage_rangePages, hcount, mem_map]
    constructor
    · rintro ⟨k, hk, hv⟩
      rw [(hoffset k (mem_range.mp hk) v).mp hv.symm]
      exact mem_range.mp hk
    · intro hlt
      exact ⟨_, mem_range.mpr hlt, ((hoffset _ hlt v).mpr rfl).symm⟩
  obtain ⟨hun, hfrees⟩ := unmapLoop_pageMap hinv hdistinct hfree
  refine ⟨hun.inv, PageMap.ext (funext fun v => ?_) (funext fun v => propext (hun.small v)), ?_⟩
  · simp only [PageMap.unmap]
    split_ifs with hv
    · exact hun.removed v ((hmem v).mpr hv.1) hv.2
    · exact hun.kept v fun hc => hv ⟨(hmem v).mp hc.1, hc.2⟩
  · rw [hfrees, rangePages, filterMap_map, hcount, PageMap.frees]
    refine filterMap_congr fun k _ => ?_
    simp only [Function.comp_apply]
    rw [← vpage_add]
    split_ifs with hsmall
    · exact freedBy_small hinv hsmall
    · rw [freedBy, unmapSlot_not_small hinv hsmall]
      rfl

end Unmap

inductive TableOp where
  | map (pa va size : Nat) (flags : Entry)
  | unmap (va size : Nat)

def tableStep (root : Nat) (m : Memory) : TableOp → Memory
  | .map pa va size flags => Fallible.left id (m.mapPages root pa va size flags)
  | .unmap va size => m.unmapPages root va size

noncomputable def PageMap.step (f : PageMap) : TableOp → PageMap
  | .map pa va size flags => f.map pa va size flags
  | .unmap va size => f.unmap va size

def PageMap.empty : PageMap := ⟨fun _ => none, fun _ => False⟩

/-- A range that the page count is right for: it is not empty unless it is aligned, and the sum
in the count does not wrap. -/
def CountedRange (a size : Nat) : Prop := (0 < size ∨ a % 4096 = 0) ∧ a % 4096 + size ≤ 2 ^ 48

/-- The range is counted, `map_pages` finds the tables it needs and is given 48-bit addresses and the flags of
a page, and no page that `unmap_pages` frees holds a table of the root. -/
def Granted (root : Nat) (m : Memory) : TableOp → Prop
  | .map pa va size flags => pa % 4096 = va % 4096 ∧ CountedRange pa size ∧ pa + size ≤ 2 ^ 48 ∧
      PageFlags flags ∧ ∃ m', m.mapPages root pa va size flags = .ok m'
  | .unmap va size => CountedRange va size ∧
      ∀ page ∈ unmapFrees m root (rangePages va size), HoldsNoTable m root page

def segmentOp (seg : ProcSegment) : TableOp := .map seg.pa seg.pa seg.size (segmentFlags seg)

section Created

variable {m m₁ : Memory} {root : Nat}

lemma zeroTable_node (hzero : m.table root = fun _ => 0#64) {p : List Index} {t : Nat}
    (hn : NodeAt m root p t) : p = [] ∧ t = root := by
  cases p with
  | nil => exact ⟨rfl, (nodeAt_nil.mp hn).symm⟩
  | cons i p =>
    have hchild : m.child root i = none := by simp [Memory.child, hzero, isValid_zero]
    simp [NodeAt, walk, tableChild, hchild] at hn

lemma allocPages_root (halloc : m.allocPages 1 = some (root, m₁)) :
    TreeInv [root] m₁ ∧ pageMap root m₁ = PageMap.empty ∧ m.pages.Free root := by
  have hzero := allocPages_zero halloc
  obtain ⟨hfree, hused, -⟩ := allocPages_one halloc
  have hentry : ∀ t i, t = root → (m₁.table t i).isValid = false := by
    rintro t i rfl
    rw [hzero, isValid_zero]
  have htable : ∀ r ∈ [root], ∀ p t, NodeAt m₁ r p t → ∀ i, (m₁.table t i).isValid ≠ true := by
    intro r hr p t hn i hv
    rw [mem_singleton.mp hr] at hn
    rw [hentry t i (zeroTable_node hzero hn).2] at hv
    exact absurd hv (by decide)
  refine ⟨?_, ?_, hfree⟩
  · constructor
    case separate =>
      intro r hr r' hr' p p' t hn hn'
      rw [mem_singleton.mp hr] at hn ⊢
      rw [mem_singleton.mp hr'] at hn' ⊢
      exact ⟨rfl, (zeroTable_node hzero hn).1.trans (zeroTable_node hzero hn').1.symm⟩
    case used =>
      intro r hr p t hn
      rw [mem_singleton.mp hr] at hn
      rw [(zeroTable_node hzero hn).2]
      exact hused
    case upper => exact fun r hr p t hn _ i hv => absurd hv (htable r hr p t hn i)
    case block => exact fun r hr p t hn _ i hv => absurd hv (htable r hr p t hn i)
    case page => exact fun r hr p t hn _ i hv => absurd hv (htable r hr p t hn i)
  · refine PageMap.ext (funext fun v => ?_) (funext fun v => propext ⟨?_, False.elim⟩)
    · refine translate_of_no_node fun t hn => ?_
      exact absurd (zeroTable_node hzero hn).1 (by simp)
    · rintro ⟨l3, hn⟩
      exact absurd (zeroTable_node hzero hn).1 (by simp [indices])

lemma segmentFlags_pageFlags (seg : ProcSegment) : PageFlags (segmentFlags seg) := by
  have hbits : ∀ el0 exec dev : Bool, ∀ k : Fin 64, 12 ≤ k.val → k.val < 48 →
      (segmentFlags ⟨0, 0, el0, exec, dev⟩).getLsbD k.val = false := by decide
  have hvalid : ∀ el0 exec dev : Bool, (segmentFlags ⟨0, 0, el0, exec, dev⟩).isValid = true ∧
      (segmentFlags ⟨0, 0, el0, exec, dev⟩).isTable = true := by decide
  exact ⟨fun i h1 h2 => hbits seg.el0 seg.exec seg.dev ⟨i, by omega⟩ h1 h2, (hvalid _ _ _).1,
    (hvalid _ _ _).2⟩

lemma map_size_zero (f : PageMap) (pa va : Nat) (flags : Entry) : f.map pa va 0 flags = f := by
  refine PageMap.ext (funext fun v => ?_) (funext fun v => ?_) <;> simp [PageMap.map, spanned]

lemma segmentLoop_pageMap {segs : List ProcSegment} (hinv : TreeInv [root] m)
    (hsegs : ∀ seg ∈ segs, seg.pa + seg.size ≤ 2 ^ 48)
    (h : segs.foldlM (fun m seg => if seg.size = 0 then return m
      else m.mapPages root seg.pa seg.pa seg.size (segmentFlags seg)) m = .ok m₁) :
    TakesTables root m m₁ ∧ pageMap root m₁ = run PageMap.step (pageMap root m) (segs.map segmentOp) := by
  induction segs generalizing m with
  | nil =>
    obtain rfl := Except.ok.inj h
    exact ⟨TakesTables.refl hinv, rfl⟩
  | cons seg segs ih =>
    obtain ⟨hseg, hsegs⟩ := forall_mem_cons.mp hsegs
    rw [foldlM_cons] at h
    obtain ⟨m₂, hm₂, h⟩ := Fallible.bind_eq_ok h
    have hone : TakesTables root m m₂ ∧ pageMap root m₂ = (pageMap root m).step (segmentOp seg) := by
      simp only [PageMap.step, segmentOp]
      split_ifs at hm₂ with hsize
      · obtain rfl := Except.ok.inj hm₂
        rw [hsize, map_size_zero]
        exact ⟨TakesTables.refl hinv, rfl⟩
      · exact mapPages_pageMap hinv rfl (Or.inl (Nat.pos_of_ne_zero hsize)) hseg
          (segmentFlags_pageFlags seg) hm₂
    obtain ⟨htakes, hmap⟩ := ih hone.1.inv hsegs h
    refine ⟨hone.1.trans htakes, ?_⟩
    rw [hmap, hone.2]
    rfl

theorem createProcessTable_pageMap {segs : List ProcSegment}
    (hsegs : ∀ seg ∈ segs, seg.pa + seg.size ≤ 2 ^ 48)
    (h : m.createProcessTable segs = .ok (root, m₁)) :
    TreeInv [root] m₁ ∧ pageMap root m₁ = run PageMap.step PageMap.empty (segs.map segmentOp) ∧
      ∀ p t, NodeAt m₁ root p t → m.pages.Free t := by
  obtain ⟨⟨root', m₀⟩, halloc, h⟩ := Fallible.bind_eq_ok h
  obtain ⟨m₂, hloop, h⟩ := Fallible.bind_eq_ok h
  obtain ⟨rfl, rfl⟩ := Prod.mk.inj (Except.ok.inj h)
  have halloc' : m.allocPages 1 = some (root', m₀) := by
    unfold allocTable at halloc
    split at halloc
    · cases halloc
    · rename_i r hr
      rw [hr, Except.ok.inj halloc]
  obtain ⟨hinv, hempty, hfree⟩ := allocPages_root halloc'
  obtain ⟨htakes, hmap⟩ := segmentLoop_pageMap hinv hsegs hloop
  refine ⟨htakes.inv, hempty ▸ hmap, fun p t hn => ?_⟩
  rcases htakes.new p t hn with hn | ht
  · rw [(zeroTable_node (allocPages_zero halloc') hn).2]
    exact hfree
  · exact allocPages_consumes halloc' t ht

end Created

section Runs

variable {m : Memory} {root : Nat}

lemma tableStep_pageMap {op : TableOp} (hinv : TreeInv [root] m) (hop : Granted root m op) :
    TreeInv [root] (tableStep root m op) ∧
      pageMap root (tableStep root m op) = (pageMap root m).step op := by
  cases op with
  | map pa va size flags =>
    obtain ⟨hcong, hrange, hfits, hflags, m', hm'⟩ := hop
    obtain ⟨htakes, hmap⟩ := mapPages_pageMap hinv hcong hrange.1 hfits hflags hm'
    simp only [tableStep, hm', Fallible.left_ok]
    exact ⟨htakes.inv, hmap⟩
  | unmap va size =>
    obtain ⟨hrange, hfree⟩ := hop
    obtain ⟨hinv', hmap, -⟩ := unmapPages_pageMap hinv hrange.1 hrange.2 hfree
    exact ⟨hinv', hmap⟩

lemma tableRun_pageMap {ops : List TableOp} (hinv : TreeInv [root] m)
    (hg : Guarded (tableStep root) (Granted root) m ops) :
    TreeInv [root] (run (tableStep root) m ops) ∧
      pageMap root (run (tableStep root) m ops) = run PageMap.step (pageMap root m) ops := by
  induction ops generalizing m with
  | nil => exact ⟨hinv, rfl⟩
  | cons op ops ih =>
    obtain ⟨hinv', hmap⟩ := tableStep_pageMap hinv hg.1
    obtain ⟨hrun, heq⟩ := ih hinv' hg.2
    refine ⟨hrun, ?_⟩
    rw [run_cons, run_cons, heq, hmap]

/-- `create_process_table` builds a tree of tables with the map of its segments, and every run of granted
calls updates the map. -/
theorem page_tables_refine_map (root : Nat) (m : Memory) :
    (∀ (m₀ : Memory) (segs : List ProcSegment), (∀ seg ∈ segs, seg.pa + seg.size ≤ 2 ^ 48) →
      m₀.createProcessTable segs = .ok (root, m) →
      TreeInv [root] m ∧ pageMap root m = run PageMap.step PageMap.empty (segs.map segmentOp)) ∧
    ∀ ops : List TableOp, TreeInv [root] m → Guarded (tableStep root) (Granted root) m ops →
      TreeInv [root] (run (tableStep root) m ops) ∧
      pageMap root (run (tableStep root) m ops) = run PageMap.step (pageMap root m) ops ∧
      ∀ before va size after, ops = before ++ .unmap va size :: after →
        unmapFrees (run (tableStep root) m before) root (rangePages va size) =
          (run PageMap.step (pageMap root m) before).frees va size := by
  refine ⟨fun m₀ segs hsegs h => ?_, fun ops hinv hg => ?_⟩
  · obtain ⟨hinv, hmap, -⟩ := createProcessTable_pageMap hsegs h
    exact ⟨hinv, hmap⟩
  · obtain ⟨hinv', hmap⟩ := tableRun_pageMap hinv hg
    refine ⟨hinv', hmap, ?_⟩
    rintro before va size after rfl
    obtain ⟨hbefore, hlast, -⟩ := (guarded_append _ _ _ _ _).mp hg
    obtain ⟨hinv₁, hmap₁⟩ := tableRun_pageMap hinv hbefore
    obtain ⟨-, -, hfrees⟩ := unmapPages_pageMap hinv₁ hlast.1.1 hlast.1.2 hlast.2
    rw [hfrees, hmap₁]

end Runs

def sixteenPages : Memory where
  pages :=
    { bitmap := fun _ => true, pageBase := 0x4A000000, numPages := 16, ramTop := 0x4A010000,
      base_pos := by decide, base_aligned := by decide, fits := by decide, top_le := by decide }
  table := fun _ _ => 0

def deviceRoot : Nat × Memory :=
  match sixteenPages.createProcessTable [⟨0x90000000, 0x1000, true, false, true⟩] with
  | .ok r => r
  | .error m => (0, m)

theorem page_tables_refine_map_device :
    pageMap deviceRoot.1 (deviceRoot.2.unmapPages deviceRoot.1 0x90000000 0x1000) =
      (pageMap deviceRoot.1 deviceRoot.2).unmap 0x90000000 0x1000 := by
  have hcreated : sixteenPages.createProcessTable [⟨0x90000000, 0x1000, true, false, true⟩] =
      .ok (deviceRoot.1, deviceRoot.2) := by
    rfl
  have hsegs : ∀ seg ∈ [(⟨0x90000000, 0x1000, true, false, true⟩ : ProcSegment)],
      seg.pa + seg.size ≤ 2 ^ 48 := by decide
  have hrefine := page_tables_refine_map deviceRoot.1 deviceRoot.2
  have hinv := (hrefine.1 _ _ hsegs hcreated).1
  have hfrees : unmapFrees deviceRoot.2 deviceRoot.1 (rangePages 0x90000000 0x1000) = [0x90000000] := by
    decide +kernel
  refine (hrefine.2 [.unmap 0x90000000 0x1000] hinv ⟨⟨⟨by decide, by decide⟩, ?_⟩, trivial⟩).2.1
  rw [hfrees]
  intro page hpage p t hn hin
  have hfree := (createProcessTable_pageMap hsegs hcreated).2.2 p t hn
  rw [mem_singleton.mp hpage] at hin
  have hlt := hfree.2.1
  simp only [InPage, sixteenPages, pageSize] at hin hlt
  omega

def selfMapped : Nat × Memory :=
  match sixteenPages.createProcessTable [⟨0x4A000000, 0x4000, true, false, false⟩] with
  | .ok r => r
  | .error m => (0, m)

/-- A segment covers the tables of its own root. Unmapping one of them frees it, and the translations of all
other pages are lost. -/
theorem table_page_unmapped :
    sixteenPages.createProcessTable [⟨0x4A000000, 0x4000, true, false, false⟩] =
        .ok (selfMapped.1, selfMapped.2) ∧
      (∃ m', (selfMapped.2.unmapPages selfMapped.1 0x4A003000 0x1000).mapPages selfMapped.1
        0x90000000 0x90000000 0x1000 userRwFlags = .ok m') ∧
      (pageMap selfMapped.1 (run (tableStep selfMapped.1) selfMapped.2
        [.unmap 0x4A003000 0x1000, .map 0x90000000 0x90000000 0x1000 userRwFlags])).trans
          (vpage 0x4A000000) = none ∧
      (run PageMap.step (pageMap selfMapped.1 selfMapped.2)
        [.unmap 0x4A003000 0x1000, .map 0x90000000 0x90000000 0x1000 userRwFlags]).trans
          (vpage 0x4A000000) ≠ none := by
  have hkept : ∀ f : PageMap, (run PageMap.step f [.unmap 0x4A003000 0x1000,
      .map 0x90000000 0x90000000 0x1000 userRwFlags]).trans (vpage 0x4A000000) =
        f.trans (vpage 0x4A000000) := by
    intro f
    have hmapped : ¬(vpage 0x4A000000 - vpage 0x90000000).toNat < spanned 0x90000000 0x1000 := by decide
    have hunmapped : ¬(vpage 0x4A000000 - vpage 0x4A003000).toNat < spanned 0x4A003000 0x1000 := by decide
    simp only [run_cons, run_nil, PageMap.step, PageMap.map, PageMap.unmap, if_neg hmapped, hunmapped,
      false_and, if_false]
  refine ⟨rfl, ?_, ?_, ?_⟩
  · cases hm : (selfMapped.2.unmapPages selfMapped.1 0x4A003000 0x1000).mapPages selfMapped.1
      0x90000000 0x90000000 0x1000 userRwFlags with
    | ok m' => exact ⟨m', rfl⟩
    | error m' =>
      have hok : ((selfMapped.2.unmapPages selfMapped.1 0x4A003000 0x1000).mapPages selfMapped.1
        0x90000000 0x90000000 0x1000 userRwFlags).isOk = true := by decide +kernel
      rw [hm] at hok
      cases hok
  · show Memory.translate _ _ _ = none
    decide +kernel
  · rw [hkept]
    show Memory.translate _ _ _ ≠ none
    decide +kernel

end Aeglos.Proofs
