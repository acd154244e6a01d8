import Aeglos.Library.Runs
import Aeglos.Proofs.FatLookup

/-!
# The sector cache

The cache is direct-mapped and written through. Along every run of the driver a slot whose sector
exists holds what the device holds.
-/

namespace Aeglos.Fat

open Effects TransitionSystem Function

variable {f : Fat}

def stored (f : Fat) (lba : Nat) (data : Sector) : Fat :=
  { f with
    ctag := Function.update f.ctag (slotOf lba) lba
    cdata := Function.update f.cdata (slotOf lba) data
    disk := if lba < f.capacity then Function.update f.disk lba data else f.disk }

def wiped (f : Fat) (lba : Nat) : Fat :=
  { f with
    ctag := if f.ctag (slotOf lba) = lba then Function.update f.ctag (slotOf lba) emptyTag else f.ctag
    disk := if lba < f.capacity then Function.update f.disk lba Sector.zero else f.disk }

def patched (f : Fat) (lba off : Nat) (bytes : Bytes) : Fat :=
  stored (load f lba) lba ((sectorAt f lba).patch off bytes)

section Equations

variable {f : Fat} (hpresent : f.present = true) (lba off : Nat) (bytes : Bytes) (data : Sector)

include hpresent

lemma writeBlock_eq : writeBlock lba data f = .ok ((), { f with
    disk := if lba < f.capacity then Function.update f.disk lba data else f.disk }) := by
  have hthere : ¬(!f.present) = true := by
    rw [hpresent]
    exact Bool.false_ne_true
  change (if !f.present then _ else _ : FatM Unit) f = _
  rw [if_neg hthere]
  change Except.ok ((), if lba < f.capacity then _ else f) = _
  split_ifs <;> rfl

lemma writeThrough_eq (hdata : f.cdata (slotOf lba) = data) : writeThrough lba f = .ok ((), { f with
    disk := if lba < f.capacity then Function.update f.disk lba data else f.disk }) := by
  change writeBlock lba (f.cdata (slotOf lba)) f = _
  rw [hdata, writeBlock_eq hpresent]

omit hpresent in
lemma load_ctag : (load f lba).ctag (slotOf lba) = lba := update_self ..

lemma cached_through {tags : Fin cacheSlots → Nat}
    (htags : tags = Function.update f.ctag (slotOf lba) lba) :
    writeThrough lba { f with ctag := tags, cdata := Function.update f.cdata (slotOf lba) data } =
      .ok ((), stored f lba data) := by
  subst htags
  have hcached : (Function.update f.cdata (slotOf lba) data) (slotOf lba) = data := update_self ..
  exact writeThrough_eq (f := { f with
    ctag := Function.update f.ctag (slotOf lba) lba
    cdata := Function.update f.cdata (slotOf lba) data }) hpresent lba data hcached

lemma wsec_eq : wsec lba data f = .ok ((), stored f lba data) := cached_through hpresent lba data rfl

lemma writeEntry_eq : writeEntry lba off bytes f = .ok ((), patched f lba off bytes) := by
  change (csec lba >>= fun sec => wsec lba (sec.patch off bytes)) f = _
  rw [bind_of_ok (csec_eq hpresent lba)]
  exact wsec_eq (f := load f lba) hpresent lba _

lemma patchSector_eq : patchSector lba off bytes f = .ok ((), patched f lba off bytes) := by
  rw [patchSector, bind_of_ok (csec_eq hpresent lba), patched, ← load_cdata]
  exact cached_through (f := load f lba) hpresent lba _ rfl

lemma patchLoaded_eq : patchLoaded lba off bytes f = .ok ((), patched f lba off bytes) := by
  rw [patchLoaded, bind_of_ok (csec_eq hpresent lba), patched, ← load_cdata]
  exact cached_through (f := load f lba) hpresent lba _
    (update_eq_self_iff.mpr (load_ctag lba).symm).symm

lemma wipeSector_eq : wipeSector lba f = .ok ((), wiped f lba) := by
  rw [wipeSector, bind_of_ok (writeBlock_eq hpresent lba Sector.zero)]
  change Except.ok ((), if f.ctag (slotOf lba) = lba then _ else _) = _
  rw [wiped]
  split_ifs <;> rfl

end Equations

def Cached (f : Fat) : Prop :=
  ∀ i, f.ctag i ≠ emptyTag →
    slotOf (f.ctag i) = i ∧ (f.ctag i < f.capacity → f.cdata i = f.disk (f.ctag i))

/-- Every slot with a tag holds the contents of a sector of the device. -/
def Coherent (f : Fat) : Prop :=
  ∀ i, f.ctag i ≠ emptyTag →
    slotOf (f.ctag i) = i ∧ f.ctag i < f.capacity ∧ f.cdata i = f.disk (f.ctag i)

def TagsExist (f : Fat) : Prop := ∀ i, f.ctag i ≠ emptyTag → f.ctag i < f.capacity

lemma Cached.coherent_iff (h : Cached f) : Coherent f ↔ TagsExist f := by
  refine ⟨fun hc i hi => (hc i hi).2.1, fun ht i hi => ?_⟩
  obtain ⟨hslot, hdata⟩ := h i hi
  exact ⟨hslot, ht i hi, hdata (ht i hi)⟩

lemma Cached.sectorAt (h : Cached f) (hcap : f.capacity ≤ emptyTag) {lba : Nat}
    (hlt : lba < f.capacity) : sectorAt f lba = f.disk lba := by
  unfold Fat.sectorAt
  by_cases htag : f.ctag (slotOf lba) = lba
  · rw [if_pos htag]
    obtain ⟨-, hdata⟩ := h (slotOf lba) (by rw [htag]; omega)
    rw [htag] at hdata
    exact hdata hlt
  · rw [if_neg htag, if_pos hlt]

lemma Cached.other (h : Cached f) {i : Fin cacheSlots} {lba : Nat} (hi : f.ctag i ≠ emptyTag)
    (hne : i ≠ slotOf lba) : f.ctag i ≠ lba := fun heq => hne ((h i hi).1.symm.trans (congrArg slotOf heq))

lemma Cached.load (h : Cached f) (hcap : f.capacity ≤ emptyTag) (lba : Nat) : Cached (load f lba) := by
  intro i hi
  by_cases hslot : i = slotOf lba
  · subst hslot
    rw [load_ctag, load_cdata]
    exact ⟨rfl, fun hlt => h.sectorAt hcap hlt⟩
  · have htag : (Fat.load f lba).ctag i = f.ctag i := update_of_ne hslot ..
    have hdata : (Fat.load f lba).cdata i = f.cdata i := update_of_ne hslot ..
    rw [htag] at hi ⊢
    rw [hdata]
    exact h i hi

lemma Cached.stored (h : Cached f) (lba : Nat) (data : Sector) : Cached (stored f lba data) := by
  intro i hi
  by_cases hslot : i = slotOf lba
  · subst hslot
    have htag : (Fat.stored f lba data).ctag (slotOf lba) = lba := update_self ..
    have hcached : (Fat.stored f lba data).cdata (slotOf lba) = data := update_self ..
    rw [htag, hcached]
    refine ⟨rfl, fun hlt => ?_⟩
    change lba < f.capacity at hlt
    change data = (if lba < f.capacity then Function.update f.disk lba data else f.disk) lba
    rw [if_pos hlt, update_self]
  · have htag : (Fat.stored f lba data).ctag i = f.ctag i := update_of_ne hslot ..
    have hcached : (Fat.stored f lba data).cdata i = f.cdata i := update_of_ne hslot ..
    rw [htag] at hi ⊢
    have hdisk : (Fat.stored f lba data).disk (f.ctag i) = f.disk (f.ctag i) := by
      change (if lba < f.capacity then Function.update f.disk lba data else f.disk) (f.ctag i) = _
      split_ifs
      · exact update_of_ne (h.other hi hslot) ..
      · rfl
    rw [hcached, hdisk]
    exact h i hi

lemma Cached.wiped (h : Cached f) (lba : Nat) : Cached (wiped f lba) := by
  intro i hi
  have htag : (Fat.wiped f lba).ctag i = f.ctag i ∧ f.ctag i ≠ lba ∨ (Fat.wiped f lba).ctag i = emptyTag := by
    by_cases hslot : i = slotOf lba
    · subst hslot
      by_cases hlba : f.ctag (slotOf lba) = lba
      · refine Or.inr ?_
        change (if f.ctag (slotOf lba) = lba then _ else _ : Fin cacheSlots → Nat) (slotOf lba) = _
        rw [if_pos hlba, update_self]
      · refine Or.inl ⟨?_, hlba⟩
        change (if f.ctag (slotOf lba) = lba then _ else _ : Fin cacheSlots → Nat) (slotOf lba) = _
        rw [if_neg hlba]
    · have hsame : (Fat.wiped f lba).ctag i = f.ctag i := by
        change (if f.ctag (slotOf lba) = lba then _ else _ : Fin cacheSlots → Nat) i = _
        split_ifs
        · exact update_of_ne hslot ..
        · rfl
      rw [hsame] at hi
      exact Or.inl ⟨hsame, h.other hi hslot⟩
  rcases htag with ⟨hsame, hne⟩ | hempty
  · have hdisk : (Fat.wiped f lba).disk (f.ctag i) = f.disk (f.ctag i) := by
      change (if lba < f.capacity then Function.update f.disk lba _ else f.disk) (f.ctag i) = _
      split_ifs
      · exact update_of_ne hne ..
      · rfl
    rw [hsame] at hi ⊢
    rw [hdisk]
    exact h i hi
  · exact absurd hempty hi

structure Sound (f : Fat) : Prop where
  present : f.present = true
  sized : f.capacity ≤ emptyTag
  cached : Cached f

def KeepsSound (f g : Fat) : Prop := Sound f → Sound g ∧ g.capacity = f.capacity

lemma KeepsSound.of_steps {f g : Fat} (h : Relation.ReflTransGen KeepsSound f g) : KeepsSound f g := by
  induction h with
  | refl => exact fun hf => ⟨hf, rfl⟩
  | tail _ hstep ih =>
    intro hf
    obtain ⟨hg, hcap⟩ := ih hf
    obtain ⟨hg', hcap'⟩ := hstep hg
    exact ⟨hg', hcap'.trans hcap⟩

lemma within_keepsSound {α : Type} {x : FatM α}
    (h : ∀ f, Sound f → ∃ a g, x f = .ok (a, g) ∧ Sound g ∧ g.capacity = f.capacity) :
    Within KeepsSound x := by
  intro f
  refine .single fun hf => ?_
  obtain ⟨a, g, hx, hg, hcap⟩ := h f hf
  rw [after_ok hx]
  exact ⟨hg, hcap⟩

lemma Sound.load (h : Sound f) (lba : Nat) : Sound (load f lba) := ⟨h.present, h.sized, h.cached.load h.sized lba⟩

lemma Sound.patched (h : Sound f) (lba off : Nat) (bytes : Bytes) : Sound (patched f lba off bytes) :=
  ⟨h.present, h.sized, (h.load lba).cached.stored lba _⟩

lemma keepsSound_driven : Driven KeepsSound where
  csec lba := within_keepsSound fun _ h => ⟨_, _, csec_eq h.present lba, h.load lba, rfl⟩
  patchSector lba off bytes :=
    within_keepsSound fun _ h => ⟨_, _, patchSector_eq h.present lba off bytes, h.patched lba off bytes, rfl⟩
  patchLoaded lba off bytes :=
    within_keepsSound fun _ h => ⟨_, _, patchLoaded_eq h.present lba off bytes, h.patched lba off bytes, rfl⟩
  writeEntry lba off bytes :=
    within_keepsSound fun _ h => ⟨_, _, writeEntry_eq h.present lba off bytes, h.patched lba off bytes, rfl⟩
  wipeSector lba := within_keepsSound fun _ h =>
    ⟨_, _, wipeSector_eq h.present lba, ⟨h.present, h.sized, h.cached.wiped lba⟩, rfl⟩
  files _ _ h := ⟨⟨h.present, h.sized, h.cached⟩, rfl⟩
  hint _ _ h := ⟨⟨h.present, h.sized, h.cached⟩, rfl⟩
  mount _ _ _ _ _ _ _ _ _ h := ⟨⟨h.present, h.sized, h.cached⟩, rfl⟩

lemma perform_sound (h : Sound f) (op : FatOp) : Sound (f.perform op) :=
  (KeepsSound.of_steps (keepsSound_driven.perform f op) h).1

structure Booted (f : Fat) : Prop where
  present : f.present = true
  sized : f.capacity ≤ emptyTag
  empty : ∀ i, f.ctag i = emptyTag

lemma Booted.sound (h : Booted f) : Sound f := ⟨h.present, h.sized, fun i hi => absurd (h.empty i) hi⟩

def oneSector : Fat where
  present := true
  capacity := 1
  disk := fun _ _ => 1
  ctag := fun _ => emptyTag
  cdata := fun _ => Sector.zero
  ready := false
  bytesPerSec := 512
  secsPerCluster := 1
  fatStart := 0
  dataStart := 0
  rootCluster := 2
  totalClusters := 0
  freeHint := 3
  openFiles := fun _ => .empty

lemma oneSector_booted : Booted oneSector := ⟨rfl, by decide, fun _ => rfl⟩

lemma init_unsigned (hpresent : f.present = true) {lba : Nat}
    (hsig : (sectorAt f lba).byteAt 510 ≠ 0x55) : f.perform (.init lba) = load f lba := by
  change after (init lba) f = _
  refine after_ok (a := false) ?_
  rw [init, bind_of_ok (csec_eq hpresent lba), if_pos (Or.inl hsig)]
  rfl

end Aeglos.Fat
