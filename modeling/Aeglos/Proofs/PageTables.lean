import Aeglos.Library.LinkedWalk
import Aeglos.Proofs.Descriptors

/-!
# Page tables as maps from virtual pages

`TreeInv` says that the tables of several roots form trees without sharing.
-/

namespace Aeglos.Proofs

open LinkedWalk Memory Option

variable {roots : List Nat}

def tableChild (m : Memory) (n : Nat × Nat) (i : Index) : Option (Nat × Nat) :=
  if n.1 < 3 then (m.child n.2 i).map fun t => (n.1 + 1, t) else none

/-- `t` is the table of root `r` at the end of the index path `p`. -/
def NodeAt (m : Memory) (r : Nat) (p : List Index) (t : Nat) : Prop :=
  walk (tableChild m) (0, r) p = some (p.length, t)

/-- The tables of the roots form trees without sharing, in pages that are in use. Levels 0
and 1 hold no blocks, and the blocks of level 2 are aligned. -/
structure TreeInv (roots : List Nat) (m : Memory) : Prop where
  separate : ∀ r ∈ roots, ∀ r' ∈ roots, ∀ p p' t, NodeAt m r p t → NodeAt m r' p' t → r = r' ∧ p = p'
  used : ∀ r ∈ roots, ∀ p t, NodeAt m r p t → ¬m.pages.Free t
  upper : ∀ r ∈ roots, ∀ p t, NodeAt m r p t → p.length < 2 →
    ∀ i, (m.table t i).isValid = true → (m.table t i).isTable = true
  block : ∀ r ∈ roots, ∀ p t, NodeAt m r p t → p.length = 2 →
    ∀ i, (m.table t i).isValid = true → (m.table t i).isTable = false → IsBlock (m.table t i)
  page : ∀ r ∈ roots, ∀ p t, NodeAt m r p t → p.length = 3 →
    ∀ i, (m.table t i).isValid = true → (m.table t i).isTable = true

section Nodes

variable {m m' : Memory} {r t u : Nat} {p : List Index} {i : Index}

lemma child_eq_some : m.child t i = some u ↔
    (m.table t i).isValid = true ∧ (m.table t i).isTable = true ∧ (m.table t i).addr = u := by
  simp only [child, Bool.and_eq_true, ite_none_right_eq_some, Option.some.injEq]
  tauto

lemma child_congr (h : m'.table t i = m.table t i) : m'.child t i = m.child t i := by
  simp only [child, h]

lemma walk_level {n : Nat × Nat} (h : walk (tableChild m) (0, r) p = some n) : n.1 = p.length := by
  induction p using List.reverseRecOn generalizing n with
  | nil =>
    obtain rfl := some.inj h
    rfl
  | append_singleton p i ih =>
    obtain ⟨k, hk, hc⟩ := walk_concat_eq_some.mp h
    unfold tableChild at hc
    split_ifs at hc
    obtain ⟨t, -, rfl⟩ := map_eq_some_iff.mp hc
    simp [ih hk]

lemma nodeAt_of_walk {n : Nat × Nat} (h : walk (tableChild m) (0, r) p = some n) : NodeAt m r p n.2 := by
  unfold NodeAt
  rw [← walk_level h]
  exact h

@[simp] lemma nodeAt_nil : NodeAt m r [] t ↔ r = t := by
  simp [NodeAt]

lemma nodeAt_concat : NodeAt m r (p ++ [i]) t ↔ p.length < 3 ∧ ∃ u, NodeAt m r p u ∧ m.child u i = some t := by
  constructor
  · intro h
    obtain ⟨n, hn, hc⟩ := walk_concat_eq_some.mp h
    have hlevel := walk_level hn
    unfold tableChild at hc
    split_ifs at hc with hlt
    obtain ⟨u, hu, heq⟩ := map_eq_some_iff.mp hc
    obtain rfl : u = t := (Prod.mk.inj heq).2
    exact ⟨by omega, n.2, nodeAt_of_walk hn, hu⟩
  · rintro ⟨hlt, u, hu, hc⟩
    refine walk_concat_eq_some.mpr ⟨_, hu, ?_⟩
    simp [tableChild, hlt, hc]

lemma nodeAt_one : NodeAt m r [i] t ↔ m.child r i = some t := by
  rw [show [i] = [] ++ [i] from rfl, nodeAt_concat]
  simp

lemma nodeAt_two {j : Index} : NodeAt m r [i, j] t ↔ ∃ l1, m.child r i = some l1 ∧ m.child l1 j = some t := by
  rw [show [i, j] = [i] ++ [j] from rfl, nodeAt_concat]
  simp [nodeAt_one]

lemma translate_of_node {va : Nat} (h : NodeAt m r [l0Idx va, l1Idx va] t) : m.translate r va = m.leaf t va := by
  obtain ⟨l1, h1, h2⟩ := nodeAt_two.mp h
  simp [Memory.translate, h1, h2]

lemma translate_of_no_node {va : Nat} (h : ∀ t, ¬NodeAt m r [l0Idx va, l1Idx va] t) : m.translate r va = none := by
  cases h1 : m.child r (l0Idx va) with
  | none => simp [Memory.translate, h1]
  | some l1 =>
    cases h2 : m.child l1 (l1Idx va) with
    | none => simp [Memory.translate, h1, h2]
    | some l2 => exact absurd (nodeAt_two.mpr ⟨l1, h1, h2⟩) (h l2)

lemma translate_congr_nodes {va : Nat} (hnode : ∀ l2, NodeAt m' r [l0Idx va, l1Idx va] l2 ↔ NodeAt m r [l0Idx va, l1Idx va] l2)
    (hleaf : ∀ l2, NodeAt m r [l0Idx va, l1Idx va] l2 → m'.leaf l2 va = m.leaf l2 va) :
    m'.translate r va = m.translate r va := by
  by_cases hold : ∃ l2, NodeAt m r [l0Idx va, l1Idx va] l2
  · obtain ⟨l2, hl2⟩ := hold
    rw [translate_of_node hl2, translate_of_node ((hnode l2).mpr hl2), hleaf l2 hl2]
  · rw [translate_of_no_node fun l2 hl2 => hold ⟨l2, hl2⟩]
    exact translate_of_no_node fun l2 hl2 => hold ⟨l2, (hnode l2).mp hl2⟩

lemma leaf_congr {va l2 : Nat} (hl2 : NodeAt m r [l0Idx va, l1Idx va] l2)
    (h2 : m'.table l2 (l2Idx va) = m.table l2 (l2Idx va))
    (h3 : ∀ l3, NodeAt m r [l0Idx va, l1Idx va, l2Idx va] l3 → m'.table l3 (l3Idx va) = m.table l3 (l3Idx va)) :
    m'.leaf l2 va = m.leaf l2 va := by
  unfold leaf
  simp only [h2]
  split_ifs with hv hb
  · rfl
  · rfl
  · rw [h3 _ (nodeAt_concat.mpr ⟨by simp, l2, hl2, child_eq_some.mpr ⟨by simpa using hv, by simpa using hb, rfl⟩⟩)]

end Nodes

section Levels

variable {roots : List Nat} {m : Memory} {r t level : Nat} {p : List Index} {e : Entry}

def EntryOk (level : Nat) (e : Entry) : Prop :=
  (level < 2 → e.isValid = true → e.isTable = true) ∧
  (level = 2 → e.isValid = true → e.isTable = false → IsBlock e) ∧ (level = 3 → e.isValid = true → e.isTable = true)

lemma entryOk_of_table (h : e.isValid = true → e.isTable = true) : EntryOk level e :=
  ⟨fun _ => h, fun _ hv hb => absurd (hb.symm.trans (h hv)) (by decide), fun _ => h⟩

lemma TreeInv.entryOk (h : TreeInv roots m) (hr : r ∈ roots) (ht : NodeAt m r p t) (i : Index) :
    EntryOk p.length (m.table t i) :=
  ⟨fun hl => h.upper r hr p t ht hl i, fun hl => h.block r hr p t ht hl i, fun hl => h.page r hr p t ht hl i⟩

lemma TreeInv.of_entries
    (separate : ∀ r ∈ roots, ∀ r' ∈ roots, ∀ p p' t, NodeAt m r p t → NodeAt m r' p' t → r = r' ∧ p = p')
    (used : ∀ r ∈ roots, ∀ p t, NodeAt m r p t → ¬m.pages.Free t)
    (hok : ∀ r ∈ roots, ∀ p t, NodeAt m r p t → ∀ i, EntryOk p.length (m.table t i)) : TreeInv roots m :=
  ⟨separate, used, fun r hr p t ht hl i => (hok r hr p t ht i).1 hl, fun r hr p t ht hl i => (hok r hr p t ht i).2.1 hl,
    fun r hr p t ht hl i => (hok r hr p t ht i).2.2 hl⟩

end Levels

/-- The change keeps every table and every translation, and adds only tables in pages that
were free. -/
structure Grows (roots : List Nat) (m m' : Memory) : Prop where
  inv : TreeInv roots m'
  old : ∀ r ∈ roots, ∀ p t, NodeAt m r p t → NodeAt m' r p t
  new : ∀ r ∈ roots, ∀ p t, NodeAt m' r p t → NodeAt m r p t ∨ m.pages.Free t
  translate : ∀ r ∈ roots, ∀ va, m'.translate r va = m.translate r va
  consumes : m.Consumes m'

lemma Grows.refl {m : Memory} (h : TreeInv roots m) : Grows roots m m :=
  ⟨h, fun _ _ _ _ h => h, fun _ _ _ _ h => Or.inl h, fun _ _ _ => rfl, Consumes.refl m⟩

lemma Grows.trans {m₁ m₂ m₃ : Memory} (h : Grows roots m₁ m₂)
    (h' : Grows roots m₂ m₃) : Grows roots m₁ m₃ where
  inv := h'.inv
  old r hr p t ht := h'.old r hr p t (h.old r hr p t ht)
  new r hr p t ht := by
    rcases h'.new r hr p t ht with ht | hfree
    · exact h.new r hr p t ht
    · exact Or.inr (h.consumes t hfree)
  translate r hr va := (h'.translate r hr va).trans (h.translate r hr va)
  consumes := Consumes.trans _ _ _ h.consumes h'.consumes

section SameTables

/-! Changes that write no table. -/

variable {roots : List Nat} {m m' : Memory}
  (hsame : ∀ r ∈ roots, ∀ p t, NodeAt m r p t → m'.table t = m.table t)
include hsame

lemma nodeAt_of_tables {r : Nat} (hr : r ∈ roots) (p : List Index) (t : Nat) :
    NodeAt m' r p t ↔ NodeAt m r p t := by
  have hwalk : walk (tableChild m') (0, r) p = walk (tableChild m) (0, r) p := walk_congr ?_ p
  · rw [NodeAt, NodeAt, hwalk]
  · intro q v j hv
    unfold tableChild
    rw [child_congr (congrFun (hsame r hr q v.2 (nodeAt_of_walk hv)) j)]

lemma translate_of_tables {r : Nat} (hr : r ∈ roots) (va : Nat) : m'.translate r va = m.translate r va :=
  translate_congr_nodes (nodeAt_of_tables hsame hr _) fun l2 hl2 => leaf_congr hl2 (congrFun (hsame r hr _ l2 hl2) _)
    fun l3 hl3 => congrFun (hsame r hr _ l3 hl3) _

lemma TreeInv.of_tables (hinv : TreeInv roots m)
    (hused : ∀ r ∈ roots, ∀ p t, NodeAt m r p t → ¬m'.pages.Free t) : TreeInv roots m' := by
  have hnode := fun {r} (hr : r ∈ roots) p t => nodeAt_of_tables hsame hr p t
  refine .of_entries (fun r₁ h₁ r₂ h₂ q₁ q₂ u hu₁ hu₂ => ?_) (fun r hr p t ht => hused r hr p t ((hnode hr p t).mp ht))
    fun r hr p t ht i => ?_
  · exact hinv.separate r₁ h₁ r₂ h₂ q₁ q₂ u ((hnode h₁ q₁ u).mp hu₁) ((hnode h₂ q₂ u).mp hu₂)
  · have hold := (hnode hr p t).mp ht
    rw [hsame r hr p t hold]
    exact hinv.entryOk hr hold i

lemma Grows.of_tables (hinv : TreeInv roots m) (hcons : m.Consumes m') : Grows roots m m' where
  inv := hinv.of_tables hsame fun r hr p t ht hfree => hinv.used r hr p t ht (hcons t hfree)
  old _ hr p t ht := (nodeAt_of_tables hsame hr p t).mpr ht
  new _ hr p t ht := Or.inl ((nodeAt_of_tables hsame hr p t).mp ht)
  translate _ hr va := translate_of_tables hsame hr va
  consumes := hcons

end SameTables

lemma allocPages_tables {m m' : Memory} {count addr : Nat}
    (hinv : TreeInv roots m) (h : m.allocPages count = some (addr, m')) :
    ∀ r ∈ roots, ∀ p t, NodeAt m r p t → m'.table t = m.table t := by
  intro r hr p t ht
  have hfree := (PageAllocator.allocPages_free (allocPages_pages h) t).1
  unfold allocPages at h
  obtain ⟨q, -, heq⟩ := map_eq_some_iff.mp h
  obtain ⟨rfl, rfl⟩ := Prod.mk.inj heq
  funext j
  exact if_neg fun hblock => hinv.used r hr p t ht (hfree hblock)

lemma allocPages_one {m m₁ : Memory} {n : Nat} (halloc : m.allocPages 1 = some (n, m₁)) :
    m.pages.Free n ∧ ¬m₁.pages.Free n ∧ n % 4096 = 0 ∧ n < 2 ^ 48 ∧
      ∀ a, ¬m.pages.Free a → m₁.table a = m.table a := by
  have hpages := allocPages_pages halloc
  have hin : n ≤ n ∧ n < n + 1 * pageSize := by simp [pageSize]
  have hfree := fun a => PageAllocator.allocPages_free hpages a
  obtain ⟨start, hn, -, hle, -, -⟩ := PageAllocator.allocPages_some hpages
  have hbase := m.pages.base_aligned
  have hfits := m.pages.fits
  have htop := m.pages.top_le
  refine ⟨(hfree n).1 hin, fun h => ((hfree n).2.mp h).2 hin, ?_, ?_, fun a ha => ?_⟩
  · simp only [pageSize] at hn hbase
    omega
  · simp only [pageSize, maxRamEnd] at hn hfits htop
    omega
  · unfold allocPages at halloc
    obtain ⟨q, hq, heq⟩ := map_eq_some_iff.mp halloc
    obtain ⟨rfl, rfl⟩ := Prod.mk.inj heq
    funext j
    exact if_neg fun hblock => ha ((hfree a).1 hblock)

def linked (m₁ : Memory) (t : Nat) (i : Index) (n : Nat) (entries : Index → Entry) : Memory :=
  (m₁.fillTable n entries).setEntry t i (tableEntry n)

/-- A new table is linked where there was none. It is empty, or a level-3 table whose pages
are those that slot `i` gave before. -/
structure Linking (roots : List Nat) (m m₁ : Memory) (r t n : Nat) (p : List Index) (i : Index)
    (entries : Index → Entry) : Prop where
  inv : TreeInv roots m
  root : r ∈ roots
  node : NodeAt m r p t
  len : p.length < 3
  alloc : m.allocPages 1 = some (n, m₁)
  vacant : m.child t i = none
  leafless : p.length + 1 < 3 → ∀ j, (entries j).isValid = false
  page : ∀ j, (entries j).isValid = true → (entries j).isTable = true
  same : p.length = 2 → ∀ va, l2Idx va = i → (entries (l3Idx va)).page = m.leaf t va

namespace Linking

variable {roots : List Nat} {m m₁ : Memory} {r t n r' : Nat} {p q : List Index} {i : Index}
  {entries : Index → Entry}

lemma table (h : Linking roots m m₁ r t n p i entries) :
    (linked m₁ t i n entries).table n = entries ∧
      (linked m₁ t i n entries).table t i = tableEntry n ∧
      ∀ a j, ¬m.pages.Free a → ¬(a = t ∧ j = i) →
        (linked m₁ t i n entries).table a j = m.table a j := by
  obtain ⟨hnfree, -, -, -, hsame⟩ := allocPages_one h.alloc
  have htn : t ≠ n := fun he => h.inv.used r h.root p t h.node (he ▸ hnfree)
  refine ⟨?_, ?_, fun a j ha hslot => ?_⟩
  · simp [linked, setEntry, fillTable, Ne.symm htn]
  · simp [linked, setEntry]
  · have han : a ≠ n := fun he => ha (he ▸ hnfree)
    by_cases hat : a = t
    · have hji : j ≠ i := fun he => hslot ⟨hat, he⟩
      simp [linked, setEntry, fillTable, hat, hji, htn, hsame t (hat ▸ ha)]
    · simp [linked, setEntry, fillTable, hat, han, hsame a ha]

lemma entry (h : Linking roots m m₁ r t n p i entries) (hr' : r' ∈ roots)
    {u : Nat} (hu : NodeAt m r' q u) (j : Index) :
    (linked m₁ t i n entries).table u j = m.table u j ∨
      (linked m₁ t i n entries).table u j = tableEntry n ∧ u = t ∧ j = i ∧ q = p := by
  obtain ⟨-, hslot, htab⟩ := h.table
  by_cases hs : u = t ∧ j = i
  · obtain ⟨rfl, rfl⟩ := hs
    exact Or.inr ⟨hslot, rfl, rfl, (h.inv.separate r' hr' r h.root q p u hu h.node).2⟩
  · exact Or.inl (htab u j (h.inv.used r' hr' q u hu) hs)

lemma old (h : Linking roots m m₁ r t n p i entries) (hr' : r' ∈ roots)
    {u : Nat} (hu : NodeAt m r' q u) :
    NodeAt (linked m₁ t i n entries) r' q u := by
  refine walk_mono (fun q' v j w hv hw => ?_) hu
  rcases h.entry hr' (nodeAt_of_walk hv) j with he | ⟨-, hvt, rfl, -⟩
  · unfold tableChild at hw ⊢
    rw [child_congr he]
    exact hw
  · rw [tableChild, hvt, h.vacant] at hw
    simp at hw

lemma child (h : Linking roots m m₁ r t n p i entries) : (linked m₁ t i n entries).child t i = some n := by
  obtain ⟨-, hslot, -⟩ := h.table
  obtain ⟨-, -, hal, hlt, -⟩ := allocPages_one h.alloc
  obtain ⟨hvalid, htable, haddr⟩ := tableEntry_describes hal hlt
  exact child_eq_some.mpr ⟨by rw [hslot, hvalid], by rw [hslot, htable], by rw [hslot, haddr]⟩

lemma new (h : Linking roots m m₁ r t n p i entries) (hr' : r' ∈ roots)
    {u : Nat} (hu : NodeAt (linked m₁ t i n entries) r' q u) :
    NodeAt m r' q u ∨ (u = n ∧ q = p ++ [i] ∧ r' = r) := by
  obtain ⟨hn, -, -⟩ := h.table
  have hc := h.child
  have hlink : walk (tableChild m) (0, r') q = some (q.length, u) ∨ ((q.length, u) = (p.length + 1, n) ∧
      ∃ q', q = q' ++ [i] ∧ walk (tableChild m) (0, r') q' = some (p.length, t)) := walk_link ?_ ?_ hu
  · rcases hlink with hold | ⟨heq, q', rfl, hq'⟩
    · exact Or.inl hold
    · have hpath := h.inv.separate r' hr' r h.root q' p t (nodeAt_of_walk hq') h.node
      exact Or.inr ⟨(Prod.mk.inj heq).2, by rw [hpath.2], hpath.1⟩
  · intro q' v j hv
    rcases h.entry hr' (nodeAt_of_walk hv) j with he | ⟨-, hvt, rfl, hq⟩
    · left
      unfold tableChild
      rw [child_congr he]
    · have hv1 : v.1 = p.length := by rw [walk_level hv, hq]
      exact Or.inr ⟨Prod.ext hv1 hvt, rfl, by simp [tableChild, hv1, hvt, h.len, hc]⟩
  · intro j
    unfold tableChild
    split_ifs with hl
    · have hnone : (linked m₁ t i n entries).child n j = none := by
        simp [Memory.child, hn, h.leafless hl j]
      simp [hnone]
    · rfl

lemma treeInv (h : Linking roots m m₁ r t n p i entries) : TreeInv roots (linked m₁ t i n entries) := by
  obtain ⟨hn, -, -⟩ := h.table
  obtain ⟨hfree, hused, hal, hlt, -⟩ := allocPages_one h.alloc
  obtain ⟨-, htable, -⟩ := tableEntry_describes hal hlt
  refine .of_entries (fun r₁ h₁ r₂ h₂ q₁ q₂ u hu₁ hu₂ => ?_) (fun r' hr' q u hu hfu => ?_) fun r' hr' q u hu j => ?_
  · rcases h.new h₁ hu₁ with ho₁ | ⟨hn₁, hq₁, hr₁⟩ <;> rcases h.new h₂ hu₂ with ho₂ | ⟨hn₂, hq₂, hr₂⟩
    · exact h.inv.separate r₁ h₁ r₂ h₂ q₁ q₂ u ho₁ ho₂
    · exact absurd (hn₂ ▸ hfree) (h.inv.used r₁ h₁ q₁ u ho₁)
    · exact absurd (hn₁ ▸ hfree) (h.inv.used r₂ h₂ q₂ u ho₂)
    · exact ⟨hr₁.trans hr₂.symm, hq₁.trans hq₂.symm⟩
  · rcases h.new hr' hu with ho | ⟨rfl, -, -⟩
    · exact h.inv.used r' hr' q u ho (allocPages_consumes h.alloc u hfu)
    · exact hused hfu
  · rcases h.new hr' hu with ho | ⟨rfl, -, -⟩
    · rcases h.entry hr' ho j with he | ⟨he, -⟩
      · rw [he]
        exact h.inv.entryOk hr' ho j
      · rw [he]
        exact entryOk_of_table fun _ => htable
    · rw [hn]
      exact entryOk_of_table (h.page j)

lemma leaf_eq (h : Linking roots m m₁ r t n p i entries) (hr' : r' ∈ roots) {va l2 : Nat}
    (hl2 : NodeAt m r' [l0Idx va, l1Idx va] l2) :
    (linked m₁ t i n entries).leaf l2 va = m.leaf l2 va := by
  obtain ⟨hn, -, -⟩ := h.table
  obtain ⟨-, -, hal, hlt, -⟩ := allocPages_one h.alloc
  obtain ⟨hvalid, htable, haddr⟩ := tableEntry_describes hal hlt
  rcases h.entry hr' hl2 (l2Idx va) with he | ⟨he, rfl, hi, hq⟩
  · refine leaf_congr hl2 he fun l3 hl3 => ?_
    rcases h.entry hr' hl3 (l3Idx va) with he3 | ⟨-, -, -, rfl⟩
    · exact he3
    · exact absurd h.len (by simp)
  · have hlen : p.length = 2 := by rw [← hq]; rfl
    rw [← h.same hlen va hi]
    simp [leaf, he, hvalid, htable, haddr, hn]

lemma translate (h : Linking roots m m₁ r t n p i entries) (hr' : r' ∈ roots) (va : Nat) :
    (linked m₁ t i n entries).translate r' va = m.translate r' va := by
  by_cases hold : ∃ l2, NodeAt m r' [l0Idx va, l1Idx va] l2
  · obtain ⟨l2, hl2⟩ := hold
    rw [translate_of_node hl2, translate_of_node (h.old hr' hl2), h.leaf_eq hr' hl2]
  · rw [translate_of_no_node (m := m) fun l2 hl2 => hold ⟨l2, hl2⟩]
    by_cases hnew : ∃ l2, NodeAt (linked m₁ t i n entries) r' [l0Idx va, l1Idx va] l2
    · obtain ⟨l2, hl2⟩ := hnew
      rw [translate_of_node hl2]
      rcases h.new hr' hl2 with ho | ⟨rfl, hq, -⟩
      · exact absurd ⟨l2, ho⟩ hold
      · have hlen := congrArg List.length hq
        have hinvalid := h.leafless (by simp at hlen; omega) (l2Idx va)
        simp [leaf, h.table.1, hinvalid]
    · exact translate_of_no_node fun l2 hl2 => hnew ⟨l2, hl2⟩

theorem grows (h : Linking roots m m₁ r t n p i entries) :
    Grows roots m (linked m₁ t i n entries) where
  inv := h.treeInv
  old _ hr' _ _ hu := h.old hr' hu
  new r' hr' q u hu := by
    rcases h.new hr' hu with ho | ⟨rfl, -, -⟩
    · exact Or.inl ho
    · exact Or.inr (allocPages_one h.alloc).1
  translate _ hr' va := h.translate hr' va
  consumes := by
    have hcons : m.Consumes m₁ := allocPages_consumes h.alloc
    exact hcons

lemma newNode (h : Linking roots m m₁ r t n p i entries) : NodeAt (linked m₁ t i n entries) r (p ++ [i]) n :=
  nodeAt_concat.mpr ⟨h.len, t, h.old h.root h.node, h.child⟩

end Linking

lemma allocPages_zero {m m₁ : Memory} {n : Nat} (halloc : m.allocPages 1 = some (n, m₁)) :
    m₁.table n = fun _ => 0#64 := by
  unfold allocPages at halloc
  obtain ⟨q, hq, heq⟩ := map_eq_some_iff.mp halloc
  obtain ⟨rfl, rfl⟩ := Prod.mk.inj heq
  funext j
  exact if_pos (by simp [pageSize])

section Subtables

variable {roots : List Nat} {m : Memory} {r t : Nat} {p : List Index} {i : Index}

lemma getOrAllocSubtable_cases (hinv : TreeInv roots m) (hr : r ∈ roots) (ht : NodeAt m r p t)
    (hp : p.length < 3) :
    m.getOrAllocSubtable t i = .error m ∨
      (∃ u, m.getOrAllocSubtable t i = .ok (u, m) ∧ m.child t i = some u) ∨
      ∃ n m₁ entries, m.getOrAllocSubtable t i = .ok (n, linked m₁ t i n entries) ∧
        Linking roots m m₁ r t n p i entries := by
  unfold getOrAllocSubtable allocTable
  dsimp only
  by_cases hv : (m.table t i).isValid = true
  · by_cases hb : (m.table t i).isTable = true
    · exact Or.inr (Or.inl ⟨_, by simp [hv, hb]; rfl, child_eq_some.mpr ⟨hv, hb, rfl⟩⟩)
    · cases halloc : m.allocPages 1 with
      | none => exact Or.inl (by simp [hv, hb])
      | some a =>
        have hlen : p.length = 2 := by
          by_contra hne
          exact hb (hinv.upper r hr p t ht (by omega) i hv)
        have hblock := hinv.block r hr p t ht hlen i hv (by simpa using hb)
        refine Or.inr (Or.inr ⟨a.1, a.2, splitEntry (m.table t i), by simp [hv, hb]; rfl, ?_⟩)
        refine ⟨hinv, hr, ht, hp, halloc, by simp [child, hb], fun h => absurd h (by omega), ?_, ?_⟩
        · intro j _
          rw [(splitEntry_describes hblock j).table, splitFlags_isTable]
        · rintro - va rfl
          have hd := splitEntry_describes hblock (l3Idx va)
          simp [Entry.page, leaf, hv, hb, hd.valid, hd.table, hd.addr, hd.attrs, splitFlags_isValid,
            splitFlags_isTable, Entry.blockPage]
  · cases halloc : m.allocPages 1 with
    | none => exact Or.inl (by simp [hv])
    | some a =>
      have hzero := allocPages_zero halloc
      have hfill : a.2.fillTable a.1 (fun _ => 0#64) = a.2 := by
        rw [fillTable, ← hzero, Function.update_eq_self]
      refine Or.inr (Or.inr ⟨a.1, a.2, fun _ => 0#64, by simp [hv, linked, hfill], ?_⟩)
      refine ⟨hinv, hr, ht, hp, halloc, by simp [child, hv], fun _ _ => isValid_zero, ?_, ?_⟩
      · intro _ h
        rw [isValid_zero] at h
        exact absurd h (by decide)
      · rintro - va rfl
        simp [Entry.page, leaf, hv, isValid_zero]

theorem getOrAllocSubtable_grows (hinv : TreeInv roots m) (hr : r ∈ roots) (ht : NodeAt m r p t)
    (hp : p.length < 3) :
    Grows roots m (Fallible.left Prod.snd (m.getOrAllocSubtable t i)) ∧
      ∀ u m', m.getOrAllocSubtable t i = .ok (u, m') → NodeAt m' r (p ++ [i]) u := by
  rcases getOrAllocSubtable_cases (i := i) hinv hr ht hp with he | ⟨u, hu, hc⟩ | ⟨n, m₁, entries, hn, hl⟩
  · rw [he]
    exact ⟨Grows.refl hinv, fun u m' h => by simp at h⟩
  · rw [hu]
    refine ⟨Grows.refl hinv, fun u' m' h => ?_⟩
    obtain ⟨rfl, rfl⟩ := Prod.mk.inj (Except.ok.inj h)
    exact nodeAt_concat.mpr ⟨hp, t, ht, hc⟩
  · rw [hn]
    refine ⟨hl.grows, fun u' m' h => ?_⟩
    obtain ⟨rfl, rfl⟩ := Prod.mk.inj (Except.ok.inj h)
    exact hl.newNode

lemma getOrAllocSubtable_nodes (hinv : TreeInv roots m) (hr : r ∈ roots) (ht : NodeAt m r p t)
    (hp : p.length < 3) {r' u v : Nat} (hr' : r' ∈ roots) {q : List Index} {m' : Memory}
    (h : m.getOrAllocSubtable t i = .ok (v, m')) (hu : NodeAt m' r' q u) :
    NodeAt m r' q u ∨ q = p ++ [i] := by
  rcases getOrAllocSubtable_cases (i := i) hinv hr ht hp with he | ⟨w, hw, -⟩ | ⟨n, m₁, entries, hn, hl⟩
  · simp [he] at h
  · obtain ⟨-, rfl⟩ := Prod.mk.inj (Except.ok.inj (hw.symm.trans h))
    exact Or.inl hu
  · obtain ⟨-, rfl⟩ := Prod.mk.inj (Except.ok.inj (hn.symm.trans h))
    rcases hl.new hr' hu with hold | ⟨-, hq, -⟩
    · exact Or.inl hold
    · exact Or.inr hq

end Subtables

def indices (va : Nat) : List Index := [l0Idx va, l1Idx va, l2Idx va]

def SamePage (va va' : Nat) : Prop := va / 4096 % 2 ^ 36 = va' / 4096 % 2 ^ 36

instance (va va' : Nat) : Decidable (SamePage va va') := by
  unfold SamePage
  infer_instance

lemma samePage_iff {va va' : Nat} : SamePage va va' ↔ indices va = indices va' ∧ l3Idx va = l3Idx va' := by
  simp only [SamePage, indices, List.cons.injEq, and_true, l0Idx, l1Idx, l2Idx, l3Idx, Fin.ext_iff, Fin.val_ofNat]
  omega

lemma translate_samePage {va va' : Nat} (h : SamePage va va') (m : Memory) (root : Nat) :
    m.translate root va = m.translate root va' := by
  obtain ⟨hidx, h3⟩ := samePage_iff.mp h
  simp only [indices, List.cons.injEq, and_true] at hidx
  obtain ⟨h0, h1, h2⟩ := hidx
  simp only [Memory.translate, leaf, h0, h1, h2, h3]

section SetLeaf

variable {roots : List Nat} {m : Memory} {r l3 va r' : Nat} {e : Entry}

lemma translate_of_leaf (h : NodeAt m r' (indices va) l3) : m.translate r' va = (m.table l3 (l3Idx va)).page := by
  rw [indices, show [l0Idx va, l1Idx va, l2Idx va] = [l0Idx va, l1Idx va] ++ [l2Idx va] from rfl,
    nodeAt_concat] at h
  obtain ⟨-, l2, hl2, hc⟩ := h
  obtain ⟨hv, ht, rfl⟩ := child_eq_some.mp hc
  simp [translate_of_node hl2, leaf, hv, ht]

variable (hinv : TreeInv roots m) (hr : r ∈ roots) (hl3 : NodeAt m r (indices va) l3)
include hinv hr hl3

lemma setLeaf_entry (hr' : r' ∈ roots) {q : List Index} {u : Nat} (hu : NodeAt m r' q u)
    (j : Index) : (m.setEntry l3 (l3Idx va) e).table u j = m.table u j ∨
      ((m.setEntry l3 (l3Idx va) e).table u j = e ∧ r' = r ∧ q = indices va ∧ j = l3Idx va) := by
  by_cases hs : u = l3
  · obtain ⟨rfl, rfl⟩ := hinv.separate r' hr' r hr q (indices va) l3 (hs ▸ hu) hl3
    by_cases hj : j = l3Idx va
    · exact Or.inr ⟨by simp [setEntry, hs, hj], rfl, rfl, hj⟩
    · exact Or.inl (by simp [setEntry, hs, hj])
  · exact Or.inl (by simp [setEntry, hs])

lemma setLeaf_node (hr' : r' ∈ roots) (q : List Index) (u : Nat) :
    NodeAt (m.setEntry l3 (l3Idx va) e) r' q u ↔ NodeAt m r' q u := by
  have hwalk : walk (tableChild (m.setEntry l3 (l3Idx va) e)) (0, r') q =
      walk (tableChild m) (0, r') q := walk_congr ?_ q
  · rw [NodeAt, NodeAt, hwalk]
  · intro q' v j hv
    rcases setLeaf_entry (e := e) hinv hr hl3 hr' (nodeAt_of_walk hv) j with he | ⟨-, -, hq, -⟩
    · unfold tableChild
      rw [child_congr he]
    · have hlevel := walk_level hv
      rw [hq] at hlevel
      simp [tableChild, hlevel, indices]

lemma setLeaf_inv (he : e.isValid = true → e.isTable = true) : TreeInv roots (m.setEntry l3 (l3Idx va) e) := by
  have hnode := fun {r'} (hr' : r' ∈ roots) q u => setLeaf_node (e := e) hinv hr hl3 hr' q u
  refine .of_entries (fun r₁ h₁ r₂ h₂ q₁ q₂ u hu₁ hu₂ => ?_)
    (fun r' hr' q u hu => hinv.used r' hr' q u ((hnode hr' q u).mp hu)) fun r' hr' q u hu j => ?_
  · exact hinv.separate r₁ h₁ r₂ h₂ q₁ q₂ u ((hnode h₁ q₁ u).mp hu₁) ((hnode h₂ q₂ u).mp hu₂)
  · have hold := (hnode hr' q u).mp hu
    rcases setLeaf_entry (e := e) hinv hr hl3 hr' hold j with h | ⟨h, -⟩
    · rw [h]
      exact hinv.entryOk hr' hold j
    · rw [h]
      exact entryOk_of_table he

lemma setLeaf_leaf (hr' : r' ∈ roots) {va' l2 : Nat}
    (hl2 : NodeAt m r' [l0Idx va', l1Idx va'] l2) (hne : ¬(r' = r ∧ SamePage va va')) :
    (m.setEntry l3 (l3Idx va) e).leaf l2 va' = m.leaf l2 va' := by
  rcases setLeaf_entry (e := e) hinv hr hl3 hr' hl2 (l2Idx va') with h2 | ⟨-, -, hq, -⟩
  · refine leaf_congr hl2 h2 fun l hl => ?_
    rcases setLeaf_entry (e := e) hinv hr hl3 hr' hl (l3Idx va') with h3 | ⟨-, hrr, hq, hj⟩
    · exact h3
    · exact absurd ⟨hrr, samePage_iff.mpr ⟨hq.symm, hj.symm⟩⟩ hne
  · have := congrArg List.length hq
    simp [indices] at this

theorem setLeaf_translate (hr' : r' ∈ roots) (va' : Nat) :
    (m.setEntry l3 (l3Idx va) e).translate r' va' =
      if r' = r ∧ SamePage va va' then e.page else m.translate r' va' := by
  split_ifs with hsame
  · obtain ⟨rfl, hva⟩ := hsame
    obtain ⟨hidx, hi⟩ := samePage_iff.mp hva
    have hn := (setLeaf_node (e := e) hinv hr hl3 hr' (indices va') l3).mpr (hidx ▸ hl3)
    rw [translate_of_leaf hn, ← hi]
    simp [setEntry]
  · exact translate_congr_nodes (setLeaf_node hinv hr hl3 hr' _) fun l2 hl2 => setLeaf_leaf hinv hr hl3 hr' hl2 hsame

end SetLeaf

def flagsOver (old : Option Translation) (flags : Entry) : Entry :=
  match old with
  | none => flags
  | some tr => mergedFlags tr.attrs flags

lemma mergedFlags_eq_flagsOver {e flags : Entry} (he : e.isValid = true → e.isTable = true) :
    mergedFlags e flags = flagsOver e.page flags := by
  by_cases hv : e.isValid = true
  · have hbit : ∀ k, ¬(12 ≤ k ∧ k < 48) → k < 64 → (e &&& ~~~addrMask).getLsbD k = e.getLsbD k := by
      intro k hk h64
      rw [BitVec.getLsbD_and, BitVec.getLsbD_not, addrMask_getLsbD]
      simp [hk, h64]
    have hvalid : Entry.isValid (e &&& ~~~addrMask) = e.isValid := by
      rw [isValid_eq, isValid_eq, hbit 0 (by omega) (by omega)]
    have huser : Entry.isUser (e &&& ~~~addrMask) = e.isUser := by
      rw [isUser_eq, isUser_eq, hbit 6 (by omega) (by omega)]
    have huxn : (e &&& ~~~addrMask) &&& pteUxn = e &&& pteUxn := by
      rw [BitVec.and_assoc, show (~~~addrMask &&& pteUxn : Entry) = pteUxn by decide]
    simp only [flagsOver, Entry.page, hv, he hv, Bool.and_self, if_true, mergedFlags, hvalid, huser, huxn]
  · simp [flagsOver, Entry.page, mergedFlags, hv]

/-- The translation of one virtual page of one root becomes `tr`; nothing else changes but
the pages that new tables take. -/
structure Remaps (roots : List Nat) (m m' : Memory) (root va : Nat) (tr : Option Translation) :
    Prop where
  inv : TreeInv roots m'
  new : ∀ r ∈ roots, ∀ p t, NodeAt m' r p t → NodeAt m r p t ∨ m.pages.Free t
  translate : ∀ r ∈ roots, ∀ va', m'.translate r va' =
    if r = root ∧ SamePage va va' then tr else m.translate r va'

section MapOnePage

variable {roots : List Nat} {m : Memory} {root pa va : Nat} {flags : Entry}

variable (pa va flags) in
lemma mapOnePage_cases (hinv : TreeInv roots m) (hroot : root ∈ roots) :
    (∃ m', m.mapOnePage root pa va flags = .error m' ∧ Grows roots m m') ∨
      ∃ m₃ l3, Grows roots m m₃ ∧ NodeAt m₃ root (indices va) l3 ∧
        (∀ r ∈ roots, ∀ q u, NodeAt m₃ r q u → NodeAt m r q u ∨ q <+: indices va) ∧
        m.mapOnePage root pa va flags = .ok (m₃.setEntry l3 (l3Idx va)
          (BitVec.ofNat 64 pa &&& addrMask ||| mergedFlags (m₃.table l3 (l3Idx va)) flags)) := by
  obtain ⟨g1, n1⟩ := getOrAllocSubtable_grows (i := l0Idx va) hinv hroot (nodeAt_nil.mpr rfl) (by simp)
  cases h1 : m.getOrAllocSubtable root (l0Idx va) with
  | error m₁ =>
    rw [h1, Fallible.left_error] at g1
    exact Or.inl ⟨m₁, by simp [mapOnePage, h1, bind, Except.bind], g1⟩
  | ok r1 =>
    rw [h1, Fallible.left_ok] at g1
    obtain ⟨g2, n2⟩ := getOrAllocSubtable_grows (i := l1Idx va) g1.inv hroot (n1 _ _ h1) (by simp)
    cases h2 : r1.2.getOrAllocSubtable r1.1 (l1Idx va) with
    | error m₂ =>
      rw [h2, Fallible.left_error] at g2
      exact Or.inl ⟨m₂, by simp [mapOnePage, h1, h2, bind, Except.bind], g1.trans g2⟩
    | ok r2 =>
      rw [h2, Fallible.left_ok] at g2
      obtain ⟨g3, n3⟩ := getOrAllocSubtable_grows (i := l2Idx va) g2.inv hroot (n2 _ _ h2) (by simp)
      cases h3 : r2.2.getOrAllocSubtable r2.1 (l2Idx va) with
      | error m₃ =>
        rw [h3, Fallible.left_error] at g3
        exact Or.inl ⟨m₃, by simp [mapOnePage, h1, h2, h3, bind, Except.bind],
          (g1.trans g2).trans g3⟩
      | ok r3 =>
        rw [h3, Fallible.left_ok] at g3
        refine Or.inr ⟨r3.2, r3.1, (g1.trans g2).trans g3, n3 _ _ h3, fun r hr q u hu => ?_, ?_⟩
        · rcases getOrAllocSubtable_nodes g2.inv hroot (n2 _ _ h2) (by simp) hr h3 hu with hu | rfl
          · rcases getOrAllocSubtable_nodes g1.inv hroot (n1 _ _ h1) (by simp) hr h2 hu with hu | rfl
            · rcases getOrAllocSubtable_nodes hinv hroot (nodeAt_nil.mpr rfl) (by simp) hr h1 hu with hu | rfl
              · exact Or.inl hu
              · exact Or.inr ⟨[l1Idx va, l2Idx va], rfl⟩
            · exact Or.inr ⟨[l2Idx va], rfl⟩
          · exact Or.inr ⟨[], rfl⟩
        · simp [mapOnePage, h1, h2, h3, bind, Except.bind, pure, Except.pure]

theorem mapOnePage_error (hinv : TreeInv roots m) (hroot : root ∈ roots) {m' : Memory}
    (h : m.mapOnePage root pa va flags = .error m') : Grows roots m m' := by
  rcases mapOnePage_cases pa va flags hinv hroot with
    ⟨m₁, h₁, hg⟩ | ⟨m₃, l3, -, -, -, h₃⟩
  · obtain rfl := Except.error.inj (h.symm.trans h₁)
    exact hg
  · rw [h₃] at h
    simp at h

theorem mapOnePage_ok (hinv : TreeInv roots m) (hroot : root ∈ roots) (hpa : pa % 4096 = 0)
    (hlt : pa < 2 ^ 48) (hflags : IsFlags flags) (hvalid : flags.isValid = true)
    (htable : flags.isTable = true) {m' : Memory} (h : m.mapOnePage root pa va flags = .ok m') :
    Remaps roots m m' root va (some ⟨pa, flagsOver (m.translate root va) flags⟩) ∧ m.Consumes m' := by
  rcases mapOnePage_cases pa va flags hinv hroot with
    ⟨m₁, h₁, -⟩ | ⟨m₃, l3, hg, hl3, -, h₃⟩
  · rw [h₁] at h
    simp at h
  · obtain rfl := Except.ok.inj (h₃.symm.trans h)
    have hpage := fun hv => hg.inv.page root hroot _ l3 hl3 rfl (l3Idx va) hv
    have hd := describesPage hpa hlt
      (mergedFlags_isFlags (m₃.table l3 (l3Idx va)) hflags)
    have hv : (mergedFlags (m₃.table l3 (l3Idx va)) flags).isValid = true := by
      rw [isValid_eq, mergedFlags_getLsbD _ _ (by decide), ← isValid_eq, hvalid]
    have ht : (mergedFlags (m₃.table l3 (l3Idx va)) flags).isTable = true := by
      rw [isTable_eq, mergedFlags_getLsbD _ _ (by decide), ← isTable_eq, htable]
    refine ⟨⟨setLeaf_inv hg.inv hroot hl3 fun _ => hd.table.trans ht, ?_, ?_⟩, ?_⟩
    · intro r hr p t hn
      exact hg.new r hr p t ((setLeaf_node hg.inv hroot hl3 hr p t).mp hn)
    · intro r hr va'
      rw [setLeaf_translate hg.inv hroot hl3 hr, hg.translate r hr]
      refine if_congr Iff.rfl ?_ rfl
      rw [← hg.translate root hroot va, translate_of_leaf hl3, ← mergedFlags_eq_flagsOver hpage]
      simp [Entry.page, hd.valid, hd.table, hv, ht, hd.addr, hd.attrs]
    · have hcons : m.Consumes m₃ := hg.consumes
      exact hcons

lemma mapUserPage_frame (hinv : TreeInv roots m) (hroot : root ∈ roots) {page : Nat}
    (hpage : page % 4096 = 0) (hlt : page < 2 ^ 48) : TreeInv roots (Fallible.left id (m.mapOnePage root page page userRwFlags)) ∧
      (¬SamePage page va → (Fallible.left id (m.mapOnePage root page page userRwFlags)).translate root va =
        m.translate root va) := by
  cases hm : m.mapOnePage root page page userRwFlags with
  | error m' =>
    have hg := mapOnePage_error hinv hroot hm
    exact ⟨hg.inv, fun _ => hg.translate root hroot va⟩
  | ok m' =>
    have hr := (mapOnePage_ok hinv hroot hpage hlt userRwFlags_isFlags (by decide) (by decide) hm).1
    refine ⟨hr.inv, fun hne => ?_⟩
    rw [Fallible.left_ok, id, hr.translate root hroot, if_neg fun hs => hne hs.2]

end MapOnePage

def InPage (page a : Nat) : Prop := page ≤ a ∧ a < page + 4096

section UnmapOnePage

variable {roots : List Nat} {m : Memory} {root va : Nat}

lemma unmapSlot_some (hinv : TreeInv roots m) (hroot : root ∈ roots) {l3 : Nat} {i : Index}
    (h : m.unmapSlot root va = some (l3, i)) :
    NodeAt m root (indices va) l3 ∧ i = l3Idx va ∧ (m.table l3 i).isValid = true := by
  unfold unmapSlot at h
  dsimp only at h
  split_ifs at h with h0 h1 h2 h2t h3
  obtain ⟨rfl, rfl⟩ := Prod.mk.inj (some.inj h)
  simp only [Bool.not_eq_true, Bool.not_eq_false'] at h0 h1 h2 h2t h3
  have hc0 := child_eq_some.mpr ⟨h0, hinv.upper root hroot [] root (nodeAt_nil.mpr rfl) (by simp) _ h0, rfl⟩
  have hn1 := nodeAt_one.mpr hc0
  have hc1 := child_eq_some.mpr ⟨h1, hinv.upper root hroot _ _ hn1 (by simp) _ h1, rfl⟩
  have hn2 := nodeAt_two.mpr ⟨_, hc0, hc1⟩
  exact ⟨nodeAt_concat.mpr ⟨by simp, _, hn2, child_eq_some.mpr ⟨h2, h2t, rfl⟩⟩, rfl, h3⟩

structure Unmaps (roots : List Nat) (m m' : Memory) (root va : Nat) (tr : Translation) : Prop where
  mapped : m.translate root va = some tr
  frees : ∀ a, m'.pages.Free a → m.pages.Free a ∨ InPage tr.page a
  node : ∀ r ∈ roots, ∀ p t, NodeAt m' r p t ↔ NodeAt m r p t
  translate : ∀ r ∈ roots, ∀ va', m'.translate r va' =
    if r = root ∧ SamePage va va' then none else m.translate r va'
  inv : (∀ r ∈ roots, ∀ p t, NodeAt m r p t → ¬InPage tr.page t) → TreeInv roots m'

/-- Clearing the slot removes the translation and frees the page behind it, which holds no table. -/
lemma unmapOnePage_of_slot (hinv : TreeInv roots m) (hroot : root ∈ roots) {l3 : Nat} {i : Index}
    (hs : m.unmapSlot root va = some (l3, i)) :
    Unmaps roots m (m.unmapOnePage root va) root va
      ⟨(m.table l3 i).addr, m.table l3 i &&& ~~~addrMask⟩ := by
  obtain ⟨hl3, rfl, hvalid⟩ := unmapSlot_some hinv hroot hs
  have htable := hinv.page root hroot _ l3 hl3 rfl _ hvalid
  have hpage : (m.table l3 (l3Idx va)).page =
      some ⟨(m.table l3 (l3Idx va)).addr, m.table l3 (l3Idx va) &&& ~~~addrMask⟩ := by
    simp [Entry.page, hvalid, htable]
  have hcleared := setLeaf_inv (e := 0#64) hinv hroot hl3 fun h => by
    rw [isValid_zero] at h
    exact absurd h (by decide)
  have hnode := fun r (hr : r ∈ roots) p t => setLeaf_node (e := 0#64) hinv hroot hl3 hr p t
  unfold unmapOnePage
  rw [hs]
  refine ⟨(translate_of_leaf hl3).trans hpage, fun a ha => ?_, hnode, fun r hr va' => ?_,
    fun htables => ?_⟩
  · exact PageAllocator.freePage_free ha
  · have htr := setLeaf_translate (e := 0#64) hinv hroot hl3 hr va'
    have hnone : Entry.page 0#64 = none := by simp [Entry.page, isValid_zero]
    rw [hnone] at htr
    exact htr
  · refine ⟨hcleared.separate, fun r hr p t hn hfree => ?_, hcleared.upper, hcleared.block,
      hcleared.page⟩
    rcases PageAllocator.freePage_free hfree with hf | hin
    · exact hcleared.used r hr p t hn hf
    · exact htables r hr p t ((hnode r hr p t).mp hn) hin

theorem unmapOnePage_spec (va : Nat) (hinv : TreeInv roots m) (hroot : root ∈ roots) :
    m.unmapOnePage root va = m ∨
      ∃ tr, Unmaps roots m (m.unmapOnePage root va) root va tr := by
  cases hs : m.unmapSlot root va with
  | none => exact Or.inl (by rw [unmapOnePage, hs])
  | some slot => exact Or.inr ⟨_, unmapOnePage_of_slot hinv hroot hs⟩

end UnmapOnePage

end Aeglos.Proofs
