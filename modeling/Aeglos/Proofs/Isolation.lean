import Aeglos.Library.Runs
import Aeglos.Kernel.Compositor
import Aeglos.Proofs.PageTables

/-!
# Isolation of physical pages

Each page that EL0 can reach through a table should be in use, and the process's own or of a
surface.
-/

namespace Aeglos.Proofs

open Memory TransitionSystem

def pageOf (va : Nat) : Nat := va % 2 ^ 48 / 4096 * 4096

inductive Holder where
  | process (ttbr0 : Nat)
  | surface (id : Fin maxSurfaces)
  deriving DecidableEq

/-- The tables of the roots, with a holder for each page (`H`) and the pages that EL0 may reach through each
root (`J`). Tables map virtual pages to themselves. -/
structure Iso (roots : List Nat) (m : Memory) (H : Holder → Nat → Prop) (J : Nat → Nat → Prop) :
    Prop where
  trees : TreeInv roots m
  used : ∀ o page, H o page → ∀ a, InPage page a → ¬m.pages.Free a
  single : ∀ o o' page, H o page → H o' page → o = o'
  noTable : ∀ o page, H o page → ∀ r ∈ roots, ∀ p t, NodeAt m r p t → ¬InPage page t
  aligned : ∀ o page, H o page → page % 4096 = 0 ∧ page < 2 ^ 48
  identity : ∀ r ∈ roots, ∀ va tr, m.translate r va = some tr → tr.page = pageOf va
  justified : ∀ r ∈ roots, ∀ va tr, m.translate r va = some tr → tr.user = true → J r tr.page

def blockPages (base count : Nat) : List Nat := (List.range count).map fun k => base + k * 4096

lemma mem_blockPages {base count page : Nat} :
    page ∈ blockPages base count ↔ ∃ k, k < count ∧ page = base + k * 4096 := by
  simp only [blockPages, List.mem_map, List.mem_range]
  exact ⟨fun ⟨k, hk, h⟩ => ⟨k, hk, h.symm⟩, fun ⟨k, hk, h⟩ => ⟨k, hk, h.symm⟩⟩

lemma inPage_self (page : Nat) : InPage page page := ⟨le_refl _, by omega⟩

lemma inPage_unique {page page' a : Nat} (h : page % 4096 = 0) (h' : page' % 4096 = 0)
    (ha : InPage page a) (ha' : InPage page' a) : page = page' := by
  unfold InPage at ha ha'
  omega

lemma inPage_of_block {base count a : Nat} (hlo : base ≤ a) (hhi : a < base + count * 4096) :
    ∃ page ∈ blockPages base count, InPage page a := by
  refine ⟨base + (a - base) / 4096 * 4096, mem_blockPages.mpr ⟨(a - base) / 4096, by omega, rfl⟩, ?_⟩
  unfold InPage
  omega

lemma samePage_pageOf (va : Nat) : SamePage va (pageOf va) := by
  unfold SamePage pageOf
  omega

lemma pageOf_samePage {va va' : Nat} (h : SamePage va va') : pageOf va' = pageOf va := by
  unfold SamePage at h
  unfold pageOf
  omega

lemma pageOf_self {page : Nat} (h : page % 4096 = 0 ∧ page < 2 ^ 48) : pageOf page = page := by
  unfold pageOf
  omega

namespace Iso

variable {roots : List Nat} {m m' : Memory} {H H' : Holder → Nat → Prop} {J J' : Nat → Nat → Prop}

lemma mono (h : Iso roots m H J) (hH : ∀ o page, H' o page → H o page)
    (hJ : ∀ r page, J r page → J' r page) : Iso roots m H' J' where
  trees := h.trees
  used o page ho := h.used o page (hH o page ho)
  single o o' page ho ho' := h.single o o' page (hH o page ho) (hH o' page ho')
  noTable o page ho := h.noTable o page (hH o page ho)
  aligned o page ho := h.aligned o page (hH o page ho)
  identity := h.identity
  justified r hr va tr ht hu := hJ r tr.page (h.justified r hr va tr ht hu)

lemma grows (h : Iso roots m H J) (hg : Grows roots m m') : Iso roots m' H J where
  trees := hg.inv
  used o page ho a ha hfree := h.used o page ho a ha (hg.consumes a hfree)
  single := h.single
  noTable o page ho r hr p t ht hin := by
    rcases hg.new r hr p t ht with hold | hfree
    · exact h.noTable o page ho r hr p t hold hin
    · exact h.used o page ho t hin hfree
  aligned := h.aligned
  identity r hr va tr ht := h.identity r hr va tr (hg.translate r hr va ▸ ht)
  justified r hr va tr ht := h.justified r hr va tr (hg.translate r hr va ▸ ht)

lemma alloc_fresh (h : Iso roots m H J) {count base : Nat} (ha : m.allocPages count = some (base, m'))
    {o : Holder} {page : Nat} (ho : H o page) : page ∉ blockPages base count := by
  intro hp
  obtain ⟨k, hk, rfl⟩ := mem_blockPages.mp hp
  refine h.used o _ ho _ (inPage_self _) ((PageAllocator.allocPages_free (allocPages_pages ha) _).1 ?_)
  unfold pageSize
  omega

lemma alloc (h : Iso roots m H J) {count base : Nat} (ha : m.allocPages count = some (base, m'))
    (o : Holder) : Iso roots m' (fun o' page => H o' page ∨ (o' = o ∧ page ∈ blockPages base count)) J := by
  have htab := allocPages_tables h.trees ha
  have hg := Grows.of_tables htab h.trees (allocPages_consumes ha)
  have hi := h.grows hg
  have hpages := allocPages_pages ha
  have hfree := fun a => PageAllocator.allocPages_free hpages a
  have hblock : ∀ page ∈ blockPages base count, ∀ a, InPage page a →
      m.pages.Free a ∧ ¬m'.pages.Free a := by
    intro page hp a hin
    obtain ⟨k, hk, rfl⟩ := mem_blockPages.mp hp
    have hrange : base ≤ a ∧ a < base + count * pageSize := by
      unfold InPage at hin
      unfold pageSize
      omega
    exact ⟨(hfree a).1 hrange, fun hf => ((hfree a).2.mp hf).2 hrange⟩
  constructor
  case trees => exact hg.inv
  case used =>
    rintro o' page (ho | ⟨-, hp⟩) a hin
    · exact hi.used o' page ho a hin
    · exact (hblock page hp a hin).2
  case single =>
    rintro o₁ o₂ page (h₁ | ⟨rfl, hp₁⟩) (h₂ | ⟨rfl, hp₂⟩)
    · exact h.single o₁ o₂ page h₁ h₂
    · exact absurd hp₂ (h.alloc_fresh ha h₁)
    · exact absurd hp₁ (h.alloc_fresh ha h₂)
    · rfl
  case noTable =>
    rintro o' page (ho | ⟨-, hp⟩) r hr p t ht hin
    · exact hi.noTable o' page ho r hr p t ht hin
    · exact h.trees.used r hr p t ((nodeAt_of_tables htab hr p t).mp ht) (hblock page hp t hin).1
  case aligned =>
    rintro o' page (ho | ⟨-, hp⟩)
    · exact h.aligned o' page ho
    · obtain ⟨start, rfl, -, hle, -, -⟩ := PageAllocator.allocPages_some hpages
      obtain ⟨k, hk, rfl⟩ := mem_blockPages.mp hp
      have hbase := m.pages.base_aligned
      have hfits := m.pages.fits
      have htop := m.pages.top_le
      simp only [pageSize, maxRamEnd] at *
      omega
  case identity => exact hi.identity
  case justified => exact hi.justified

lemma map (h : Iso roots m H J) {root page : Nat} (hroot : root ∈ roots)
    (hpage : page % 4096 = 0 ∧ page < 2 ^ 48) (hJ : J root page) :
    Iso roots (Fallible.left id (m.mapOnePage root page page userRwFlags)) H J := by
  cases hm : m.mapOnePage root page page userRwFlags with
  | error m₁ => exact h.grows (mapOnePage_error h.trees hroot hm)
  | ok m₁ =>
    obtain ⟨hr, hcons⟩ := mapOnePage_ok h.trees hroot hpage.1 hpage.2 userRwFlags_isFlags (by decide)
      (by decide) hm
    constructor
    case trees => exact hr.inv
    case used => exact fun o p ho a ha hfree => h.used o p ho a ha (hcons a hfree)
    case single => exact h.single
    case noTable =>
      intro o p ho r hr' q t ht hin
      rcases hr.new r hr' q t ht with hold | hfree
      · exact h.noTable o p ho r hr' q t hold hin
      · exact h.used o p ho t hin hfree
    case aligned => exact h.aligned
    case identity =>
      intro r hr' va tr ht
      change m₁.translate r va = some tr at ht
      rw [hr.translate r hr' va] at ht
      split_ifs at ht with hsame
      · obtain rfl := Option.some.inj ht
        exact ((pageOf_samePage hsame.2).trans (pageOf_self hpage)).symm
      · exact h.identity r hr' va tr ht
    case justified =>
      intro r hr' va tr ht hu
      change m₁.translate r va = some tr at ht
      rw [hr.translate r hr' va] at ht
      split_ifs at ht with hsame
      · obtain rfl := Option.some.inj ht
        exact hsame.1 ▸ hJ
      · exact h.justified r hr' va tr ht hu

lemma mapUserRw (h : Iso roots m H J) {root pa size : Nat} (hroot : root ∈ roots)
    (hpa : pa % 4096 = 0)
    (hJ : ∀ page ∈ blockPages pa (pageCount pa size), (page < 2 ^ 48) ∧ J root page) :
    Iso roots (Fallible.left id (m.mapUserRw root pa size)) H J := by
  have hfloor : pageFloor pa = pa := by
    unfold pageFloor
    omega
  refine Fallible.invariant_foldlM (P := fun m => Iso roots m H J) (fun m i hi hm => ?_) h
  rw [hfloor]
  obtain ⟨hlt, hj⟩ := hJ (pa + i * 4096) (mem_blockPages.mpr ⟨i, List.mem_range.mp hi, rfl⟩)
  exact hm.map hroot ⟨by omega, hlt⟩ hj

lemma zeroPages (h : Iso roots m H J) {root base count : Nat} (hroot : root ∈ roots)
    (hheld : ∀ page ∈ blockPages base count, ∃ o, H o page) :
    Iso roots (Fallible.left id (m.zeroPages root base count)) H J := by
  refine Fallible.invariant_foldlM (P := fun m => Iso roots m H J) (fun m i hi hm => ?_) h
  obtain ⟨o, ho⟩ := hheld _ (mem_blockPages.mpr ⟨i, List.mem_range.mp hi, rfl⟩)
  unfold zeroPage
  cases ht : m.translate root (base + i * 4096) with
  | none => exact hm
  | some tr =>
    have hpage : tr.page = base + i * 4096 :=
      (hm.identity root hroot _ tr ht).trans (pageOf_self (hm.aligned o _ ho))
    refine hm.grows (Grows.of_tables (fun r hr p t hn => ?_) hm.trees (Consumes.refl m))
    have hne : t ≠ tr.page := by
      rintro rfl
      exact hm.noTable o _ ho r hr p _ hn (hpage ▸ inPage_self _)
    simp [fillTable, hne]

lemma release (h : Iso roots m H J) {base count : Nat}
    (hheld : ∀ page ∈ blockPages base count, ∃ o, H o page)
    (hH : ∀ o page, H' o page → H o page ∧ page ∉ blockPages base count)
    (hJ : ∀ r ∈ roots, ∀ va tr, m.translate r va = some tr → tr.user = true → J r tr.page →
      J' r tr.page) : Iso roots (m.releasePages base count) H' J' := by
  have hfree : ∀ a, (m.releasePages base count).pages.Free a →
      m.pages.Free a ∨ ∃ page ∈ blockPages base count, InPage page a := by
    intro a ha
    rcases PageAllocator.releasePages_free ha with hf | ⟨hlo, hhi⟩
    · exact Or.inl hf
    · exact Or.inr (inPage_of_block hlo (by unfold pageSize at hhi; omega))
  have htab : ∀ r ∈ roots, ∀ p t, NodeAt m r p t → (m.releasePages base count).table t = m.table t :=
    fun _ _ _ _ _ => rfl
  constructor
  case trees =>
    refine h.trees.of_tables htab fun r hr p t ht hf => ?_
    rcases hfree t hf with hold | ⟨page, hp, hin⟩
    · exact h.trees.used r hr p t ht hold
    · obtain ⟨o, ho⟩ := hheld page hp
      exact h.noTable o page ho r hr p t ht hin
  case used =>
    intro o page ho a ha hf
    obtain ⟨hold, hnot⟩ := hH o page ho
    rcases hfree a hf with hf' | ⟨page', hp, hin⟩
    · exact h.used o page hold a ha hf'
    · obtain ⟨o', ho'⟩ := hheld page' hp
      rw [inPage_unique (h.aligned o page hold).1 (h.aligned o' page' ho').1 ha hin] at hnot
      exact hnot hp
  case single => exact fun o o' page ho ho' => h.single o o' page (hH o page ho).1 (hH o' page ho').1
  case noTable =>
    intro o page ho r hr p t ht
    exact h.noTable o page (hH o page ho).1 r hr p t ((nodeAt_of_tables htab hr p t).mp ht)
  case aligned => exact fun o page ho => h.aligned o page (hH o page ho).1
  case identity =>
    intro r hr va tr ht
    exact h.identity r hr va tr ((translate_of_tables htab hr va).symm.trans ht)
  case justified =>
    intro r hr va tr ht hu
    have ht' := (translate_of_tables htab hr va).symm.trans ht
    exact hJ r hr va tr ht' hu (h.justified r hr va tr ht' hu)

end Iso

section Unmap

variable {roots : List Nat} {m m₀ : Memory} {root : Nat} {H : Holder → Nat → Prop}
  {mapped : List (Nat × Fin maxSurfaces)}

/-- The pages that EL0 may reach through `r`: its own, and those of the surfaces it mapped. -/
def Reach (mapped : List (Nat × Fin maxSurfaces)) (H : Holder → Nat → Prop) (r page : Nat) : Prop :=
  H (.process r) page ∨ ∃ i, (r, i) ∈ mapped ∧ H (.surface i) page

lemma Reach.mono {H' : Holder → Nat → Prop} (hH : ∀ o page, H o page → H' o page) {r page : Nat}
    (h : Reach mapped H r page) : Reach mapped H' r page := by
  rcases h with hown | ⟨i, hi, hs⟩
  · exact Or.inl (hH _ _ hown)
  · exact Or.inr ⟨i, hi, hH _ _ hs⟩

lemma Iso.congr {H' : Holder → Nat → Prop} (h : Iso roots m H (Reach mapped H))
    (hH : ∀ o page, H' o page ↔ H o page) : Iso roots m H' (Reach mapped H') :=
  h.mono (fun o page => (hH o page).mp) fun _ _ => Reach.mono fun o page => (hH o page).mpr

def Kept (root : Nat) (m₀ m : Memory) (H : Holder → Nat → Prop) (o : Holder) (page : Nat) : Prop :=
  H o page ∧ (o = .process root → m.translate root page = m₀.translate root page)

def Loses (roots : List Nat) (root : Nat) (m₀ m : Memory) : Prop :=
  ∀ r ∈ roots, ∀ va, m.translate r va = m₀.translate r va ∨ (r = root ∧ m.translate r va = none)

lemma Loses.unmap (h : Loses roots root m₀ m) {m' : Memory} {va : Nat} {tr : Translation}
    (hu : Unmaps roots m m' root va tr) : Loses roots root m₀ m' := by
  intro r hr va'
  rw [hu.translate r hr va']
  split_ifs with hsame
  · exact Or.inr ⟨hsame.1, rfl⟩
  · exact h r hr va'

lemma Kept.of_unmaps (hroot : root ∈ roots) (hl : Loses roots root m₀ m) {m' : Memory} {va : Nat}
    {tr : Translation} (hu : Unmaps roots m m' root va tr) {o : Holder} {page : Nat}
    (hk : Kept root m₀ m' H o page) : Kept root m₀ m H o page := by
  refine ⟨hk.1, fun ho => ?_⟩
  have hkept := hk.2 ho
  rw [hu.translate root hroot page] at hkept
  split_ifs at hkept
  · rcases hl root hroot page with hsame | ⟨-, hnone⟩
    · exact hsame
    · exact hnone.trans hkept
  · exact hkept

lemma Iso.unmapOnePage (h : Iso roots m (Kept root m₀ m H) (Reach mapped (Kept root m₀ m H)))
    (hl : Loses roots root m₀ m) (hroot : root ∈ roots) {va : Nat}
    (hown : ∀ tr, m₀.translate root va = some tr → H (.process root) tr.page) :
    Iso roots (m.unmapOnePage root va) (Kept root m₀ (m.unmapOnePage root va) H)
        (Reach mapped (Kept root m₀ (m.unmapOnePage root va) H)) ∧
      Loses roots root m₀ (m.unmapOnePage root va) := by
  rcases unmapOnePage_spec va h.trees hroot with hsame | ⟨tr, hu⟩
  · rw [hsame]
    exact ⟨h, hl⟩
  · generalize m.unmapOnePage root va = m' at hu
    have hold : m₀.translate root va = some tr := by
      rcases hl root hroot va with heq | ⟨-, hnone⟩
      · exact heq ▸ hu.mapped
      · exact absurd (hnone ▸ hu.mapped) (by simp)
    have hpage : tr.page = pageOf va := h.identity root hroot va tr hu.mapped
    have hsp : SamePage va tr.page := hpage ▸ samePage_pageOf va
    have hheld : Kept root m₀ m H (.process root) tr.page := by
      refine ⟨hown tr hold, fun _ => ?_⟩
      rw [← translate_samePage hsp, ← translate_samePage hsp, hu.mapped, hold]
    have hgone : ¬Kept root m₀ m' H (.process root) tr.page := by
      rintro ⟨-, hk⟩
      have := hk rfl
      rw [hu.translate root hroot, if_pos ⟨rfl, hsp⟩, ← translate_samePage hsp, hold] at this
      simp at this
    have hkept := fun {o page} (hk : Kept root m₀ m' H o page) => hk.of_unmaps hroot hl hu
    have htrans : ∀ r ∈ roots, ∀ va' tr', m'.translate r va' = some tr' → m.translate r va' = some tr' := by
      intro r hr va' tr' ht
      rw [hu.translate r hr] at ht
      split_ifs at ht
      exact ht
    refine ⟨?_, hl.unmap hu⟩
    constructor
    case trees => exact hu.inv fun r hr p t ht => h.noTable _ _ hheld r hr p t ht
    case used =>
      intro o page hk a ha hfree
      rcases hu.frees a hfree with hf | hin
      · exact h.used o page (hkept hk) a ha hf
      · -- the freed page has no holder left
        have hsame := inPage_unique (h.aligned o page (hkept hk)).1 (h.aligned _ _ hheld).1 ha hin
        subst hsame
        obtain rfl := h.single o _ _ (hkept hk) hheld
        exact hgone hk
    case single => exact fun o o' page ho ho' => h.single o o' page (hkept ho) (hkept ho')
    case noTable =>
      intro o page ho r hr p t ht
      exact h.noTable o page (hkept ho) r hr p t ((hu.node r hr p t).mp ht)
    case aligned => exact fun o page ho => h.aligned o page (hkept ho)
    case identity => exact fun r hr va' tr' ht => h.identity r hr va' tr' (htrans r hr va' tr' ht)
    case justified =>
      intro r hr va' tr' ht huser
      have ht' := htrans r hr va' tr' ht
      have hsp' : SamePage va' tr'.page := h.identity r hr va' tr' ht' ▸ samePage_pageOf va'
      rcases h.justified r hr va' tr' ht' huser with ⟨hown', hk⟩ | ⟨i, hi, hs, -⟩
      · refine Or.inl ⟨hown', fun hr' => ?_⟩
        obtain rfl := Holder.process.inj hr'
        rw [← hk rfl, ← translate_samePage hsp', ← translate_samePage hsp', ht, ht']
      · exact Or.inr ⟨i, hi, hs, fun hc => Holder.noConfusion hc⟩

lemma Iso.unmapPages (h : Iso roots m H (Reach mapped H)) (hroot : root ∈ roots) {va size : Nat}
    (hown : ∀ page ∈ rangePages va size, ∀ tr, m.translate root page = some tr →
      H (.process root) tr.page) :
    Iso roots (m.unmapPages root va size) (Kept root m (m.unmapPages root va size) H)
      (Reach mapped (Kept root m (m.unmapPages root va size) H)) := by
  have hstart : Iso roots m (Kept root m m H) (Reach mapped (Kept root m m H)) :=
    h.congr fun o page => by simp [Kept]
  have hfold : ∀ (l : List Nat) (m' : Memory), (∀ page ∈ l, page ∈ rangePages va size) →
      Iso roots m' (Kept root m m' H) (Reach mapped (Kept root m m' H)) → Loses roots root m m' →
      Iso roots (l.foldl (fun m page => m.unmapOnePage root page) m')
        (Kept root m (l.foldl (fun m page => m.unmapOnePage root page) m') H)
        (Reach mapped (Kept root m (l.foldl (fun m page => m.unmapOnePage root page) m') H)) := by
    intro l
    induction l with
    | nil => exact fun m' _ hi _ => hi
    | cons page l ih =>
      intro m' hmem hi hl
      obtain ⟨hi', hl'⟩ := hi.unmapOnePage hl hroot (hown page (hmem page (by simp)))
      exact ih _ (fun q hq => hmem q (by simp [hq])) hi' hl'
  exact hfold _ m (fun _ hp => hp) hstart fun _ _ _ => Or.inl rfl

end Unmap

end Aeglos.Proofs
