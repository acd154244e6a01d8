import Aeglos.Proofs.Isolation
import Aeglos.Proofs.SchedulerSteps

/-!
# Who may reach a physical page

A run of the mapping syscalls is observed together with the pages that each process obtained and
the surfaces that it mapped.
-/

namespace Aeglos.Proofs

open Memory TransitionSystem List Function

variable {roots : List Nat}

structure Holdings where
  own : List (Nat × Nat)
  mapped : List (Nat × Fin maxSurfaces)

def surfacePages (s : Surface) : List Nat := if s.used then blockPages s.bufPa s.bufPages else []

def Held (surfaces : Fin maxSurfaces → Surface) (own : List (Nat × Nat)) : Holder → Nat → Prop
  | .process r, page => (r, page) ∈ own
  | .surface i, page => page ∈ surfacePages (surfaces i)

def Holdings.forget (g : Holdings) (i : Fin maxSurfaces) : Holdings :=
  { g with mapped := g.mapped.filter fun e => e.2 ≠ i }

/-- `SYS_MMAP` adds the pages that it allocates, `SYS_MUNMAP` takes away the pages that it unmaps, and a
surface is mapped until its buffer is replaced. -/
def track (v : Vm) (g : Holdings) : MapCall → Holdings
  | .mmap ttbr0 size =>
    if size = 0 then g
    else
      let pages := wrap64 (size + 0xFFF) / 4096
      match v.mem.allocPages pages with
      | none => g
      | some (pa, _) => { g with own := (blockPages pa pages).map (fun page => (ttbr0, page)) ++ g.own }
  | .munmap ttbr0 va size =>
    let mem := (v.sysMunmap ttbr0 va size).2.mem
    { g with own := g.own.filter fun e =>
        e.1 ≠ ttbr0 ∨ mem.translate ttbr0 e.2 = v.mem.translate ttbr0 e.2 }
  | .surfCreate _ _ _ _ => g
  | .surfMap ttbr0 id =>
    match v.surface id with
    | none => g
    | some i => { g with mapped := (ttbr0, i) :: g.mapped }
  | .surfResize id w h =>
    match v.surface id with
    | none => g
    | some i => if (v.resize id w h).1 then g.forget i else g
  | .surfDestroy id =>
    match v.surface id with
    | none => g
    | some i => g.forget i

def holding : Vm × Holdings → MapCall → Vm × Holdings := withHistory Vm.step track

def El0Maps (m : Memory) (r page : Nat) : Prop :=
  ∃ va tr, m.translate r va = some tr ∧ tr.user = true ∧ tr.page = page

/-- Every page that EL0 reaches is in use, and is the process's own or a page of a surface
that it mapped; a page owned by one process is not reached from another. -/
def Isolated (roots : List Nat) (p : Vm × Holdings) : Prop :=
  (∀ r ∈ roots, ∀ page, El0Maps p.1.mem r page →
    ¬p.1.mem.pages.Free page ∧ Reach p.2.mapped (Held p.1.surfaces p.2.own) r page) ∧
  ∀ r ∈ roots, ∀ r' ∈ roots, ∀ page, (r, page) ∈ p.2.own → El0Maps p.1.mem r' page → r' = r

structure Start (roots : List Nat) (v : Vm) (own : List (Nat × Nat)) : Prop where
  trees : TreeInv roots v.mem
  identity : ∀ r ∈ roots, ∀ va tr, v.mem.translate r va = some tr → tr.page = pageOf va
  owned : ∀ r ∈ roots, ∀ page, El0Maps v.mem r page → (r, page) ∈ own
  disjoint : ∀ r r' page, (r, page) ∈ own → (r', page) ∈ own → r = r'
  page : ∀ r page, (r, page) ∈ own → page % 4096 = 0 ∧ page < 2 ^ 48
  used : ∀ r page, (r, page) ∈ own → ∀ a, InPage page a → ¬v.mem.pages.Free a
  noTable : ∀ r page, (r, page) ∈ own → ∀ r' ∈ roots, ∀ p t, NodeAt v.mem r' p t → ¬InPage page t
  noSurface : ∀ i, (v.surfaces i).used = false

def KeepsIsolation (roots : List Nat) (p : Vm × Holdings) : MapCall → Prop
  | .mmap ttbr0 _ => ttbr0 ∈ roots
  | .munmap ttbr0 va size => ttbr0 ∈ roots ∧
      ∀ page ∈ rangePages va size, ∀ tr, p.1.mem.translate ttbr0 page = some tr →
        (ttbr0, tr.page) ∈ p.2.own
  | .surfCreate _ _ _ _ => True
  | .surfMap ttbr0 id => ttbr0 ∈ roots ∧
      ∀ i, p.1.surface id = some i → Vm.surfSize / 4096 ≤ (p.1.surfaces i).bufPages
  | .surfResize id _ _ => ∀ i, p.1.surface id = some i →
      ∀ r ∈ roots, ∀ page ∈ surfacePages (p.1.surfaces i), ¬El0Maps p.1.mem r page
  | .surfDestroy id => ∀ i, p.1.surface id = some i →
      ∀ r ∈ roots, ∀ page ∈ surfacePages (p.1.surfaces i), ¬El0Maps p.1.mem r page

def HoldingInv (roots : List Nat) (p : Vm × Holdings) : Prop :=
  Iso roots p.1.mem (Held p.1.surfaces p.2.own) (Reach p.2.mapped (Held p.1.surfaces p.2.own))

lemma Start.inv {v : Vm} {own : List (Nat × Nat)} (h : Start roots v own) : HoldingInv roots (v, ⟨own, []⟩) := by
  have hempty : ∀ i, surfacePages (v.surfaces i) = [] := fun i => by simp [surfacePages, h.noSurface i]
  have hcases : ∀ {o page}, Held v.surfaces own o page → ∃ r, o = .process r ∧ (r, page) ∈ own := by
    intro o page ho
    cases o with
    | process r => exact ⟨r, rfl, ho⟩
    | surface i => simp [Held, hempty] at ho
  constructor
  case trees => exact h.trees
  case used =>
    intro o page ho
    obtain ⟨r, -, hr⟩ := hcases ho
    exact h.used r page hr
  case single =>
    intro o o' page ho ho'
    obtain ⟨r, rfl, hr⟩ := hcases ho
    obtain ⟨r', rfl, hr'⟩ := hcases ho'
    rw [h.disjoint r r' page hr hr']
  case noTable =>
    intro o page ho
    obtain ⟨r, -, hr⟩ := hcases ho
    exact h.noTable r page hr
  case aligned =>
    intro o page ho
    obtain ⟨r, -, hr⟩ := hcases ho
    exact h.page r page hr
  case identity => exact h.identity
  case justified => exact fun r hr va tr ht hu => Or.inl (h.owned r hr tr.page ⟨va, tr, ht, hu, rfl⟩)

lemma HoldingInv.isolated {p : Vm × Holdings} (h : HoldingInv roots p) : Isolated roots p := by
  constructor
  · rintro r hr page ⟨va, tr, ht, hu, rfl⟩
    have hreach := h.justified r hr va tr ht hu
    refine ⟨?_, hreach⟩
    rcases hreach with hown | ⟨i, -, hs⟩
    · exact h.used _ _ hown _ (inPage_self _)
    · exact h.used _ _ hs _ (inPage_self _)
  · rintro r hr r' hr' page hown ⟨va, tr, ht, hu, rfl⟩
    rcases h.justified r' hr' va tr ht hu with hown' | ⟨i, -, hs⟩
    · exact Holder.process.inj (h.single (.process r') (.process r) tr.page hown' hown)
    · exact Holder.noConfusion (h.single (.surface i) (.process r) tr.page hs hown)

lemma returning_snd (v : Vm) (ret : Int) (r : Panics Memory) :
    (v.returning ret r).2 = { v with mem := Fallible.left id r } := by
  cases r <;> rfl

lemma surface_some {v : Vm} {id : Nat} {i : Fin maxSurfaces} (h : v.surface id = some i) :
    i.val = id ∧ (v.surfaces i).used = true := by
  unfold Vm.surface at h
  split_ifs at h with hlt hused
  obtain rfl := Option.some.inj h
  exact ⟨rfl, hused⟩

lemma pageCount_aligned {a size : Nat} (h : a % 4096 = 0) : pageCount a size = wrap64 (size + 0xFFF) / 4096 := by
  have hfloor : a - pageFloor a = 0 := by
    unfold pageFloor
    omega
  rw [pageCount, hfloor, Nat.add_zero]

section Calls

variable {roots : List Nat} {v : Vm} {g : Holdings} {i : Fin maxSurfaces}

lemma mem_surfacePages {s : Surface} (h : s.used = true) {page : Nat} :
    page ∈ surfacePages s ↔ page ∈ blockPages s.bufPa s.bufPages := by
  simp [surfacePages, h]

lemma held_of_ne {surfaces surfaces' : Fin maxSurfaces → Surface}
    (hsame : ∀ j, j ≠ i → surfaces' j = surfaces j) {own : List (Nat × Nat)} {o : Holder}
    (ho : o ≠ .surface i) {page : Nat} : Held surfaces' own o page ↔ Held surfaces own o page := by
  cases o with
  | process r => exact Iff.rfl
  | surface j => rw [Held, Held, hsame j fun hj => ho (hj ▸ rfl)]

lemma reach_forget {surfaces surfaces' : Fin maxSurfaces → Surface}
    (hsame : ∀ j, j ≠ i → surfaces' j = surfaces j) {r page : Nat}
    (hout : page ∉ surfacePages (surfaces i)) (h : Reach g.mapped (Held surfaces g.own) r page) :
    Reach (g.forget i).mapped (Held surfaces' g.own) r page := by
  rcases h with hown | ⟨j, hj, hs⟩
  · exact Or.inl hown
  · have hne : j ≠ i := fun hji => hout (hji ▸ hs)
    refine Or.inr ⟨j, ?_, (held_of_ne hsame fun hc => hne (Holder.surface.inj hc)).mpr hs⟩
    simp [Holdings.forget, hj, hne]

lemma step_mmap (h : HoldingInv roots (v, g)) {ttbr0 : Nat} (hroot : ttbr0 ∈ roots) (size : Nat) :
    HoldingInv roots (holding (v, g) (.mmap ttbr0 size)) := by
  simp only [holding, withHistory, Vm.step, Vm.sysMmap, track]
  by_cases hsize : size = 0
  · simpa only [hsize, if_true] using h
  · simp only [if_neg hsize]
    cases halloc : v.mem.allocPages (wrap64 (size + 0xFFF) / 4096) with
    | none => exact h
    | some r =>
      obtain ⟨pa, mem⟩ := r
      simp only [returning_snd]
      set pages := wrap64 (size + 0xFFF) / 4096 with hpages
      set own := (blockPages pa pages).map (fun page => (ttbr0, page)) ++ g.own with hown
      have hblock : ∀ page ∈ blockPages pa pages, (ttbr0, page) ∈ own := fun page hp =>
        mem_append_left _ (mem_map_of_mem hp)
      have hold : ∀ o page, Held v.surfaces g.own o page → Held v.surfaces own o page := by
        intro o page ho
        cases o with
        | process r => exact mem_append_right _ ho
        | surface i => exact ho
      have hnew : ∀ o page, Held v.surfaces own o page →
          Held v.surfaces g.own o page ∨ (o = .process ttbr0 ∧ page ∈ blockPages pa pages) := by
        intro o page ho
        cases o with
        | surface i => exact Or.inl ho
        | process r =>
          rcases mem_append.mp ho with hm | hm
          · obtain ⟨q, hq, heq⟩ := mem_map.mp hm
            obtain ⟨rfl, rfl⟩ := Prod.mk.inj heq
            exact Or.inr ⟨rfl, hq⟩
          · exact Or.inl hm
      have hi : Iso roots mem (Held v.surfaces own) (Reach g.mapped (Held v.surfaces own)) :=
        (h.alloc halloc (.process ttbr0)).mono hnew fun _ _ => Reach.mono hold
      have halign := fun page hp => hi.aligned (.process ttbr0) page (hblock page hp)
      have hpos : 0 < pages := by
        obtain ⟨_, -, hpos, -⟩ := PageAllocator.allocPages_some (allocPages_pages halloc)
        exact hpos
      have hpa : pa % 4096 = 0 := (halign pa (mem_blockPages.mpr ⟨0, hpos, by simp⟩)).1
      refine Fallible.invariant_bind (P := fun m => Iso roots m (Held v.surfaces own) (Reach g.mapped (Held v.surfaces own)))
        (hi.zeroPages hroot fun page hp => ⟨.process ttbr0, hblock page hp⟩) fun m hm => ?_
      split_ifs
      · refine hm.mapUserRw hroot hpa fun page hp => ?_
        rw [pageCount_aligned hpa] at hp
        exact ⟨(halign page hp).2, Or.inl (hblock page hp)⟩
      · exact hm

lemma step_munmap (h : HoldingInv roots (v, g)) {ttbr0 va size : Nat}
    (hguard : KeepsIsolation roots (v, g) (.munmap ttbr0 va size)) :
    HoldingInv roots (holding (v, g) (.munmap ttbr0 va size)) := by
  obtain ⟨hroot, hown⟩ := hguard
  simp only [holding, withHistory, Vm.step, track]
  unfold Vm.sysMunmap
  split_ifs
  · simpa using h
  · simpa using h
  · have hkept : ∀ o page, Held v.surfaces (g.own.filter fun e => e.1 ≠ ttbr0 ∨
        (v.mem.unmapPages ttbr0 va size).translate ttbr0 e.2 = v.mem.translate ttbr0 e.2) o page ↔
        Kept ttbr0 v.mem (v.mem.unmapPages ttbr0 va size) (Held v.surfaces g.own) o page := by
      intro o page
      cases o with
      | surface i => simp [Kept, Held]
      | process r =>
        simp only [Kept, Held, mem_filter, Holder.process.injEq, decide_eq_true_eq]
        tauto
    exact (Iso.unmapPages h hroot hown).congr hkept

lemma step_surfCreate (h : HoldingInv roots (v, g)) (tid w ht z : Nat) :
    HoldingInv roots (holding (v, g) (.surfCreate tid w ht z)) := by
  simp only [holding, withHistory, Vm.step, Vm.sysSurfCreate, Vm.create, track]
  cases hfind : (List.finRange maxSurfaces).find? fun i => !(v.surfaces i).used with
  | none => exact h
  | some slot =>
    cases halloc : v.mem.allocPages (Vm.bufferPages w ht) with
    | none => exact h
    | some r =>
      obtain ⟨pa, mem⟩ := r
      have hunused : surfacePages (v.surfaces slot) = [] := by
        have := find?_some hfind
        simp_all [surfacePages]
      have hold : ∀ o page, Held v.surfaces g.own o page →
          Held (Function.update v.surfaces slot
            ⟨true, tid, 0, 0, w, ht, z, pa, Vm.bufferPages w ht, true⟩) g.own o page := by
        intro o page ho
        refine (held_of_ne (fun j hj => update_of_ne hj _ _) ?_).mpr ho
        rintro rfl
        simp [Held, hunused] at ho
      refine (Iso.alloc h halloc (.surface slot)).mono (fun o page ho => ?_) fun _ _ => Reach.mono hold
      by_cases hslot : o = .surface slot
      · subst hslot
        exact Or.inr ⟨rfl, by simpa [Held, Vm.setSurface, surfacePages] using ho⟩
      · exact Or.inl ((held_of_ne (fun j hj => update_of_ne hj _ _) hslot).mp ho)

lemma step_surfMap (h : HoldingInv roots (v, g)) {ttbr0 id : Nat}
    (hguard : KeepsIsolation roots (v, g) (.surfMap ttbr0 id)) :
    HoldingInv roots (holding (v, g) (.surfMap ttbr0 id)) := by
  obtain ⟨hroot, hsize⟩ := hguard
  simp only [holding, withHistory, Vm.step, Vm.sysSurfMap, track]
  cases hid : v.surface id with
  | none => simpa [Vm.bufPa, hid] using h
  | some i =>
    have hused := (surface_some hid).2
    have hlarge : Vm.surfSize / 4096 ≤ (v.surfaces i).bufPages := hsize i hid
    have hmap : Iso roots v.mem (Held v.surfaces g.own)
        (Reach ((ttbr0, i) :: g.mapped) (Held v.surfaces g.own)) := by
      refine Iso.mono h (fun _ _ ho => ho) fun r page hj => ?_
      rcases hj with hown | ⟨j, hj, hs⟩
      · exact Or.inl hown
      · exact Or.inr ⟨j, mem_cons_of_mem _ hj, hs⟩
    have hbuf : v.bufPa id = (v.surfaces i).bufPa := by simp [Vm.bufPa, hid]
    rw [hbuf]
    split_ifs
    · exact hmap
    · rw [returning_snd]
      have hheld : ∀ page ∈ blockPages (v.surfaces i).bufPa (Vm.surfSize / 4096),
          Held v.surfaces g.own (.surface i) page := by
        intro page hp
        obtain ⟨k, hk, rfl⟩ := mem_blockPages.mp hp
        exact (mem_surfacePages hused).mpr (mem_blockPages.mpr ⟨k, by omega, rfl⟩)
      have hfirst := hheld (v.surfaces i).bufPa (mem_blockPages.mpr ⟨0, by decide, by simp⟩)
      have hpa := (h.aligned _ _ hfirst).1
      refine hmap.mapUserRw hroot hpa fun page hp => ?_
      rw [pageCount_aligned hpa, show wrap64 (Vm.surfSize + 0xFFF) / 4096 = Vm.surfSize / 4096 by decide] at hp
      exact ⟨(h.aligned _ _ (hheld page hp)).2, Or.inr ⟨i, mem_cons_self, hheld page hp⟩⟩
    · exact hmap

lemma release_surface {m : Memory} {H : Holder → Nat → Prop} {s : Surface}
    (hused : (v.surfaces i).used = true)
    (h : Iso roots m H (Reach g.mapped (Held v.surfaces g.own)))
    (hold : ∀ o page, Held v.surfaces g.own o page → H o page)
    (hnew : ∀ page ∈ surfacePages s, H (.surface i) page ∧ page ∉ surfacePages (v.surfaces i))
    (hunmapped : ∀ r ∈ roots, ∀ page ∈ surfacePages (v.surfaces i), ¬El0Maps m r page) :
    HoldingInv roots ({ v with mem := m.releasePages (v.surfaces i).bufPa (v.surfaces i).bufPages }.setSurface i s,
      g.forget i) := by
  have hother : ∀ j, j ≠ i → Function.update v.surfaces i s j = v.surfaces j :=
    fun j hj => update_of_ne hj _ _
  refine h.release (fun page hp => ⟨.surface i, hold _ _ ((mem_surfacePages hused).mpr hp)⟩) ?_ ?_
  · intro o page ho
    rw [← mem_surfacePages hused]
    by_cases hi : o = .surface i
    · subst hi
      exact hnew page (by simpa [Held, Vm.setSurface] using ho)
    · have hheld := (held_of_ne hother hi).mp ho
      exact ⟨hold o page hheld, fun hp => hi (h.single o _ page (hold _ _ hheld) (hold (.surface i) _ hp))⟩
  · intro r hr va tr ht hu hreach
    exact reach_forget hother (fun hp => hunmapped r hr _ hp ⟨va, tr, ht, hu, rfl⟩) hreach

lemma step_surfDestroy (h : HoldingInv roots (v, g)) {id : Nat}
    (hguard : KeepsIsolation roots (v, g) (.surfDestroy id)) :
    HoldingInv roots (holding (v, g) (.surfDestroy id)) := by
  simp only [holding, withHistory, Vm.step, Vm.destroy, track]
  cases hid : v.surface id with
  | none => exact h
  | some i =>
    refine release_surface (surface_some hid).2 h (fun _ _ ho => ho) ?_ (hguard i hid)
    simp [surfacePages, Surface.empty]

lemma step_surfResize (h : HoldingInv roots (v, g)) {id w ht : Nat}
    (hguard : KeepsIsolation roots (v, g) (.surfResize id w ht)) :
    HoldingInv roots (holding (v, g) (.surfResize id w ht)) := by
  simp only [holding, withHistory, Vm.step, Vm.sysSurfResize, track]
  cases hid : v.surface id with
  | none => simpa [Vm.resize, hid] using h
  | some i =>
    cases halloc : v.mem.allocPages (Vm.bufferPages w ht) with
    | none => simpa [Vm.resize, hid, halloc] using h
    | some r =>
      obtain ⟨pa, mem⟩ := r
      simp only [Vm.resize, hid, halloc, if_true]
      refine release_surface (surface_some hid).2 (Iso.alloc h halloc (.surface i)) (fun _ _ => Or.inl) ?_ ?_
      · intro page hp
        have hblock : page ∈ blockPages pa (Vm.bufferPages w ht) := by
          simpa [surfacePages, (surface_some hid).2] using hp
        exact ⟨Or.inr ⟨rfl, hblock⟩, fun hin => Iso.alloc_fresh h halloc (o := .surface i) hin hblock⟩
      · rintro r hr page hp ⟨va, tr, htr, hu, rfl⟩
        refine hguard i hid r hr tr.page hp ⟨va, tr, ?_, hu, rfl⟩
        rw [← translate_of_tables (allocPages_tables h.trees halloc) hr va, htr]

end Calls

theorem step_holding (p : Vm × Holdings) (call : MapCall) (h : HoldingInv roots p)
    (hguard : KeepsIsolation roots p call) : HoldingInv roots (holding p call) := by
  obtain ⟨v, g⟩ := p
  cases call with
  | mmap ttbr0 size => exact step_mmap h hguard size
  | munmap ttbr0 va size => exact step_munmap h hguard
  | surfCreate tid w ht z => exact step_surfCreate h tid w ht z
  | surfMap ttbr0 id => exact step_surfMap h hguard
  | surfResize id w ht => exact step_surfResize h hguard
  | surfDestroy id => exact step_surfDestroy h hguard

/-- In every run of the mapping syscalls whose calls all meet `KeepsIsolation`, physical
pages stay isolated in every state. -/
theorem pages_isolated {roots : List Nat} {v : Vm} {own : List (Nat × Nat)} (hstart : Start roots v own)
    {calls : List MapCall}
    (hguard : Guarded holding (KeepsIsolation roots) (v, ⟨own, []⟩) calls) :
    ∀ before after, calls = before ++ after →
      Isolated roots (run holding (v, ⟨own, []⟩) before) := by
  rintro before after rfl
  rw [guarded_append] at hguard
  exact (run_invariant step_holding hstart.inv hguard.1).isolated

def freshVm : Vm := ⟨smallMemory, fun _ => .empty, false⟩

def freshRoots : List Nat := [0x41000000, 0x41001000]

lemma freshVm_invalid (t : Nat) (i : Index) : (freshVm.mem.table t i).isValid ≠ true := by
  simp [freshVm, smallMemory, isValid_zero]

lemma freshVm_node {r t : Nat} {p : List Index} (h : NodeAt freshVm.mem r p t) : p = [] ∧ t = r := by
  induction p using List.reverseRecOn with
  | nil => exact ⟨rfl, (nodeAt_nil.mp h).symm⟩
  | append_singleton p i ih =>
    obtain ⟨-, u, -, hc⟩ := nodeAt_concat.mp h
    exact absurd (child_eq_some.mp hc).1 (freshVm_invalid u i)

lemma freshVm_translate (r va : Nat) : freshVm.mem.translate r va = none := by
  simp [Memory.translate, child, freshVm_invalid]

lemma freshVm_start : Start freshRoots freshVm [] := by
  constructor
  case trees =>
    constructor
    case separate =>
      intro r _ r' _ p p' t h h'
      obtain ⟨rfl, rfl⟩ := freshVm_node h
      obtain ⟨rfl, rfl⟩ := freshVm_node h'
      exact ⟨rfl, rfl⟩
    case used =>
      intro r hr p t h
      obtain ⟨-, rfl⟩ := freshVm_node h
      have : ∀ r ∈ freshRoots, ¬freshVm.mem.pages.Free r := by decide
      exact this _ hr
    case upper => exact fun r hr p t _ _ i hv => absurd hv (freshVm_invalid t i)
    case block => exact fun r hr p t _ _ i hv => absurd hv (freshVm_invalid t i)
    case page => exact fun r hr p t _ _ i hv => absurd hv (freshVm_invalid t i)
  case identity => exact fun r _ va tr h => absurd h (by simp [freshVm_translate])
  case owned =>
    rintro r - page ⟨va, tr, h, -⟩
    simp [freshVm_translate] at h
  case noSurface => exact fun i => rfl
  all_goals simp

theorem pages_isolated_fullSurface :
    Isolated freshRoots (run holding (freshVm, ⟨[], []⟩)
      [.surfCreate 3 1280 720 0, .surfMap 0x41000000 0]) := by
  have hguard : Guarded holding (KeepsIsolation freshRoots) (freshVm, ⟨[], []⟩)
      [.surfCreate 3 1280 720 0, .surfMap 0x41000000 0] := by
    refine ⟨trivial, ⟨by decide, ?_⟩, trivial⟩
    rw [holding, withHistory_fst]
    decide +kernel
  exact pages_isolated freshVm_start hguard _ [] rfl

def smallSurface : Vm × Holdings := holding (freshVm, ⟨[], []⟩) (.surfCreate 3 1 1 0)

def mapBuffer (m : Memory) (i : Nat) : Panics Memory :=
  m.mapOnePage 0x41000000 (0x48000000 + i * 4096) (0x48000000 + i * 4096) userRwFlags

lemma mapBuffer_inv {l : List Nat} (hl : ∀ i ∈ l, i < 900) {m : Memory} (hinv : TreeInv freshRoots m) :
    TreeInv freshRoots (Fallible.left id (l.foldlM mapBuffer m)) := by
  refine Fallible.invariant_foldlM (P := TreeInv freshRoots) (fun m i hi h => ?_) hinv
  have hi' := hl i hi
  exact (@mapUserPage_frame _ m 0x41000000 0 h (by decide) _ (by omega) (by omega)).1

lemma mapBuffer_secondPage {l : List Nat} (hl : ∀ i ∈ l, 2 ≤ i ∧ i < 900) {m : Memory}
    {tr : Option Translation} (hinv : TreeInv freshRoots m) (ht : m.translate 0x41000000 0x48001000 = tr) :
    (Fallible.left id (l.foldlM mapBuffer m)).translate 0x41000000 0x48001000 = tr := by
  refine (Fallible.invariant_foldlM (P := fun m : Memory => TreeInv freshRoots m ∧
    m.translate 0x41000000 0x48001000 = tr) ?_ ⟨hinv, ht⟩).2
  rintro m i hi ⟨hinv, ht⟩
  have hi' := hl i hi
  obtain ⟨h1, h2⟩ := @mapUserPage_frame _ m 0x41000000 0x48001000 hinv (by decide)
    (0x48000000 + i * 4096) (by omega) (by omega)
  exact ⟨h1, (h2 (by unfold SamePage; omega)).trans ht⟩

lemma smallSurface_secondPage :
    ∃ m tr, (List.range 2).foldlM mapBuffer smallSurface.1.mem = .ok m ∧
      m.translate 0x41000000 0x48001000 = some tr ∧ tr.user = true ∧ tr.page = 0x48001000 := by
  have hok : ((List.range 2).foldlM mapBuffer smallSurface.1.mem).isOk = true := by decide +kernel
  have hcheck : ((Fallible.left id ((List.range 2).foldlM mapBuffer smallSurface.1.mem)).translate
      0x41000000 0x48001000).any (fun tr => tr.user && tr.page == 0x48001000) = true := by decide +kernel
  cases hm : (List.range 2).foldlM mapBuffer smallSurface.1.mem with
  | error m =>
    rw [hm] at hok
    cases hok
  | ok m =>
    rw [hm] at hcheck
    obtain ⟨tr, ht, hp⟩ := (Option.any_eq_true _ _).mp hcheck
    rw [Bool.and_eq_true, beq_iff_eq] at hp
    exact ⟨m, tr, rfl, ht, hp.1, hp.2⟩

lemma smallSurface_map : (holding smallSurface (.surfMap 0x41000000 0)).1 =
    { smallSurface.1 with
      mem := Fallible.left id ((List.range 900).foldlM mapBuffer smallSurface.1.mem) } := by
  have hpa : smallSurface.1.bufPa 0 = 0x48000000 := by decide +kernel
  have hcount : pageCount 0x48000000 Vm.surfSize = 900 := by decide
  rw [holding, withHistory_fst, Vm.step, Vm.sysSurfMap, hpa, if_neg (by decide), if_pos (by decide),
    returning_snd, mapUserRw, mapPages, hcount]
  rfl

/-- A surface of one page is mapped with 900 pages: the process reaches one of its own page tables. -/
theorem small_surface_exposes_table :
    Start freshRoots freshVm [] ∧
      ¬Isolated freshRoots (run holding (freshVm, ⟨[], []⟩)
        [.surfCreate 3 1 1 0, .surfMap 0x41000000 0]) := by
  refine ⟨freshVm_start, fun hiso => ?_⟩
  have hinv : TreeInv freshRoots smallSurface.1.mem :=
    (step_holding _ (.surfCreate 3 1 1 0) freshVm_start.inv trivial).trees
  obtain ⟨m, tr, hm, htr, hu, hpage⟩ := smallSurface_secondPage
  have hinv₂ : TreeInv freshRoots m := by
    have := mapBuffer_inv (l := List.range 2) (by simp; omega) hinv
    rwa [hm] at this
  have hmapped : El0Maps (holding smallSurface (.surfMap 0x41000000 0)).1.mem 0x41000000 0x48001000 := by
    refine ⟨0x48001000, tr, ?_, hu, hpage⟩
    have hrange : List.range 900 = List.range 2 ++ (List.range 898).map (2 + ·) := by
      rw [← range_add]
    rw [smallSurface_map]
    dsimp only
    rw [hrange, Fallible.foldlM_append_of_ok hm]
    refine mapBuffer_secondPage (fun i hi => ?_) hinv₂ htr
    obtain ⟨k, hk, rfl⟩ := mem_map.mp hi
    have := mem_range.mp hk
    omega
  have hreach := (hiso.1 0x41000000 (by decide) 0x48001000 hmapped).2
  rw [run_cons, run_cons, run_nil, ← smallSurface, smallSurface_map] at hreach
  rcases hreach with hown | ⟨i, -, hs⟩
  · have hempty : (holding smallSurface (.surfMap 0x41000000 0)).2.own = [] := by decide +kernel
    rw [hempty] at hown
    exact absurd hown not_mem_nil
  · have hbuffer : ∀ i, 0x48001000 ∉ surfacePages (smallSurface.1.surfaces i) := by decide +kernel
    exact hbuffer i hs
end Aeglos.Proofs
