import Aeglos.Proofs.Pointers

/-!
# Capability masks and syscall filters

How a step of the kernel changes the capability masks and the syscall filters.
-/

namespace Aeglos.Proofs

open Effects Call TransitionSystem Option

structure Watch where
  caps : Bool
  filter : Bool

namespace Watch

def sees (w : Watch) : TaskByte → Bool
  | .caps _ _ => w.caps
  | .filter _ _ => w.filter

def clear (w : Watch) (l : Layout) (pa : Nat) : Bool := !(l.taskByte pa).any w.sees

end Watch

lemma clear_nothing (l : Layout) (pa : Nat) : (⟨false, false⟩ : Watch).clear l pa = true := by
  unfold Watch.clear
  cases l.taskByte pa with
  | none => rfl
  | some b => cases b <;> rfl

structure Unchanged (w : Watch) (t t' : Task) : Prop where
  tid : t'.tid = t.tid
  caps : w.caps = true → t'.capabilities = t.capabilities
  filter : w.filter = true → t'.syscallFilter = t.syscallFilter

namespace Unchanged

variable {w : Watch}

lemma refl (t : Task) : Unchanged w t t := ⟨rfl, fun _ => rfl, fun _ => rfl⟩

lemma trans (t u v : Task) (h₁ : Unchanged w t u) (h₂ : Unchanged w u v) : Unchanged w t v :=
  ⟨h₂.tid.trans h₁.tid, fun h => (h₂.caps h).trans (h₁.caps h),
    fun h => (h₂.filter h).trans (h₁.filter h)⟩

lemma of_sameRights {t t' : Task} (h : SameRights t t') : Unchanged w t t' :=
  ⟨h.tid, fun _ => h.capabilities, fun _ => h.syscallFilter⟩

end Unchanged

/-- The step keeps the watched fields of every task that it leaves, and creates none. -/
structure KeepsRights (w : Watch) (k k' : Kernel) : Prop where
  layout : k'.layout = k.layout
  nextTid : k'.sched.nextTid = k.sched.nextTid
  tasks : TasksKept (Unchanged w) k.sched k'.sched

namespace KeepsRights

variable {w : Watch} {k k' k'' : Kernel}

lemma refl (k : Kernel) : KeepsRights w k k := ⟨rfl, rfl, fun _ t ht => ⟨t, ht, .refl t⟩⟩

lemma trans (h₁ : KeepsRights w k k') (h₂ : KeepsRights w k' k'') : KeepsRights w k k'' := by
  refine ⟨h₂.layout.trans h₁.layout, h₂.nextTid.trans h₁.nextTid, fun slot v hv => ?_⟩
  obtain ⟨u, hu, huv⟩ := h₂.tasks slot v hv
  obtain ⟨t, ht, htu⟩ := h₁.tasks slot u hu
  exact ⟨t, ht, .trans t u v htu huv⟩

lemma of_quiet {s' : Sched} (h : TasksKept SameRights k.sched s') (hv : s'.nextTid = k.sched.nextTid) :
    KeepsRights w k { k with sched := s' } := by
  refine ⟨rfl, hv, fun slot t' ht' => ?_⟩
  obtain ⟨t, ht, hsame⟩ := h slot t' ht'
  exact ⟨t, ht, .of_sameRights hsame⟩

end KeepsRights

section Stores

variable {w : Watch}

lemma poke_keepsRights {k : Kernel} {pa : Nat} (h : w.clear k.layout pa = true) (b : UInt8) :
    KeepsRights w k (k.poke pa b) := by
  unfold Watch.clear at h
  unfold Kernel.poke
  cases hb : k.layout.taskByte pa with
  | none => exact ⟨rfl, rfl, fun _ t ht => ⟨t, ht, .refl t⟩⟩
  | some byte =>
    rw [hb] at h
    cases byte with
    | caps slot i =>
      have hw : w.caps = false := by simpa [Watch.sees] using h
      have hkept : ∀ t, Unchanged w t (Kernel.setCapsByte i b t) := fun t =>
        ⟨rfl, fun hc => by simp [hw] at hc, fun _ => rfl⟩
      exact ⟨rfl, rfl, .of_related (modifyTask_related _ Unchanged.refl hkept slot)⟩
    | filter slot i =>
      have hw : w.filter = false := by simpa [Watch.sees] using h
      have hkept : ∀ t, Unchanged w t (Kernel.setFilterByte i b t) := fun t =>
        ⟨rfl, fun _ => rfl, fun hf => by simp [hw] at hf⟩
      exact ⟨rfl, rfl, .of_related (modifyTask_related _ Unchanged.refl hkept slot)⟩

lemma commit_keepsRights {k : Kernel} {cpu : Cpu} {stores : List (Nat × UInt8)}
    (h : ∀ s ∈ k.reached cpu stores, ∀ pa, k.physical cpu s.1 = some pa → w.clear k.layout pa = true) :
    KeepsRights w k (k.commit cpu stores) := by
  apply commit_induction (KeepsRights.refl k)
  intro s hs pa hpa k' hk'
  have hclear := h s hs pa hpa
  rw [← hk'.layout] at hclear
  exact hk'.trans (poke_keepsRights hclear s.2)

lemma acts_keepsRights {K : Kind → Bool} (hspawn : K .spawn = false) (hrights : K .rights = false)
    (hstore : K .store = false) {k k' : Kernel} (h : Relation.ReflTransGen (Acts K) k k') :
    KeepsRights w k k' := by
  induction h with
  | refl => exact .refl k
  | tail _ hstep ih =>
    apply ih.trans
    cases hstep with
    | quiet op hq => exact .of_quiet (quiet_step _ hq).1 (quiet_step _ hq).2.nextTid
    | vfs | reads | config | disk | network | memory =>
      exact ⟨rfl, rfl, fun _ t ht => ⟨t, ht, .refl t⟩⟩
    | spawn op hK => simp [hspawn] at hK
    | rights op hK => simp [hrights] at hK
    | store pa b hK => simp [hstore] at hK

end Stores

structure NewTask (w : Watch) (caps : BitVec 64) (k k' : Kernel) (t : Task) : Prop where
  fresh : k.sched.nextTid ≤ t.tid
  counted : t.tid < k'.sched.nextTid
  caps : w.caps = true → t.capabilities = caps
  filter : w.filter = true → t.syscallFilter = (allOnes64, allOnes64)

/-- The step keeps the watched fields of the tasks that were there, and creates tasks with
the mask `caps`. -/
structure Creates (w : Watch) (caps : BitVec 64) (k k' : Kernel) : Prop where
  layout : k'.layout = k.layout
  nextTid : k.sched.nextTid ≤ k'.sched.nextTid
  tasks : ∀ slot t', k'.sched.tasks slot = some t' →
    (∃ t, k.sched.tasks slot = some t ∧ Unchanged w t t') ∨ NewTask w caps k k' t'

namespace Creates

variable {w : Watch} {caps : BitVec 64} {k k' k'' : Kernel}

lemma of_keeps (h : KeepsRights w k k') : Creates w caps k k' :=
  ⟨h.layout, h.nextTid.ge, fun slot t' ht' => Or.inl (h.tasks slot t' ht')⟩

lemma trans (h₁ : Creates w caps k k') (h₂ : Creates w caps k' k'') : Creates w caps k k'' := by
  refine ⟨h₂.layout.trans h₁.layout, h₁.nextTid.trans h₂.nextTid, fun slot v hv => ?_⟩
  rcases h₂.tasks slot v hv with ⟨u, hu, huv⟩ | hnew
  · rcases h₁.tasks slot u hu with ⟨t, ht, htu⟩ | hnew
    · exact Or.inl ⟨t, ht, .trans t u v htu huv⟩
    · exact Or.inr ⟨huv.tid ▸ hnew.fresh, huv.tid ▸ hnew.counted.trans_le h₂.nextTid,
        fun hw => (huv.caps hw).trans (hnew.caps hw), fun hw => (huv.filter hw).trans (hnew.filter hw)⟩
  · exact Or.inr ⟨h₁.nextTid.trans hnew.fresh, hnew.counted, hnew.caps, hnew.filter⟩

lemma of_spawned {r : Option (Except String Nat) × Sched} (h : Spawned k.sched caps r) :
    Creates w caps k { k with sched := r.2 } := by
  generalize hs : k.sched = s at h
  cases h with
  | failed result mem =>
    subst hs
    exact ⟨rfl, le_rfl, fun _ t ht => Or.inl ⟨t, ht, .refl t⟩⟩
  | created mem slot task frame _ _ htid _ hcaps hfilter =>
    subst hs
    refine ⟨rfl, Nat.le_succ _, fun i t ht => ?_⟩
    rcases placed_eq_some ht with ⟨-, rfl⟩ | ⟨-, hold⟩
    · exact Or.inr ⟨htid.ge, htid.trans_lt (Nat.lt_succ_self _), fun _ => hcaps, fun _ => hfilter⟩
    · exact Or.inl ⟨t, hold, .refl t⟩

end Creates

inductive Loads (w : Watch) (l : Layout) (caps : BitVec 64) (k : Kernel) : Kernel → Prop where
  | reads (f : Fat) : Loads w l caps k { k with fat := f }
  | store (pa : Nat) (b : UInt8) (h : w.clear l pa = true) : Loads w l caps k (k.poke pa b)
  | spawn (name : Bytes) (entry : Nat) (segs : List ProcSegment) :
      Loads w l caps k { k with sched := k.sched.step (.spawnUserEntryWithSegs name entry caps segs) }

lemma loads_creates {w : Watch} {caps : BitVec 64} {k k' : Kernel}
    (h : Relation.ReflTransGen (Loads w k.layout caps) k k') : Creates w caps k k' := by
  induction h with
  | refl => exact .of_keeps (.refl k)
  | tail _ hstep ih =>
    apply ih.trans
    cases hstep with
    | reads f => exact .of_keeps ⟨rfl, rfl, fun _ t ht => ⟨t, ht, .refl t⟩⟩
    | store pa b hclear => exact .of_keeps (poke_keepsRights (ih.layout ▸ hclear) b)
    | spawn name entry segs => exact .of_spawned (spawnUserEntryWithSegs_spawned _ _ _ _ _)

def ClearAddress (w : Watch) (l : Layout) (va : Nat) : Prop :=
  kernelVaOffset ≤ va ∧ w.clear l (va - kernelVaOffset) = true

section Exec

variable {w : Watch} {l : Layout} {caps : BitVec 64} (cpu : Cpu)

lemma within_storeByte_clear {va : Nat} (h : ClearAddress w l va) (b : UInt8) :
    Within (Loads w l caps) (storeByte cpu va b) := by
  unfold storeByte
  refine within_bind within_get fun k => ?_
  unfold Kernel.physical
  rw [if_pos h.1]
  by_cases hm : Kernel.kernelMapped (va - kernelVaOffset) = true
  · rw [if_pos hm]
    exact within_modify fun k => .store _ b h.2
  · rw [if_neg hm]
    exact within_stop

lemma within_store_clear {va : Nat} (hva : wrap64 va = va) {bytes : Bytes}
    (h : ∀ j < bytes.length, ClearAddress w l (wrap64 (va + j))) :
    Within (Loads w l caps) (store cpu va bytes) := by
  induction bytes generalizing va with
  | nil => exact within_pure _
  | cons b bs ih =>
    have hfirst : ClearAddress w l va := by
      have h0 := h 0 (by simp)
      rwa [Nat.add_zero, hva] at h0
    refine within_bind (within_storeByte_clear cpu hfirst b) fun _ => ih (wrap64_idem _) ?_
    intro j hj
    have hnext := h (j + 1) (by simpa using hj)
    rwa [wrap64_wrap64, Nat.add_right_comm]

lemma segmentBytes_length {bytes bs : Bytes} {elfPtr off len : Nat} {k k' : Kernel}
    (h : segmentBytes cpu bytes elfPtr off len k = .ok (bs, k')) : bs.length = len := by
  induction len generalizing off bs k k' with
  | zero =>
    obtain ⟨rfl, -⟩ := Prod.mk.inj (Except.ok.inj h)
    rfl
  | succ len ih =>
    unfold segmentBytes at h
    have hrest : ∃ b k₁, (segmentBytes cpu bytes elfPtr (wrap64 (off + 1)) len >>= fun tail =>
        pure (b :: tail)) k₁ = .ok (bs, k') := by
      split_ifs at h
      · exact ⟨_, _, h⟩
      · obtain ⟨b, k₁, -, hb⟩ := bind_ok h
        exact ⟨b, k₁, hb⟩
    obtain ⟨b, k₁, hb⟩ := hrest
    obtain ⟨tail, k₂, htail, hlast⟩ := bind_ok hb
    obtain ⟨rfl, -⟩ := Prod.mk.inj (Except.ok.inj hlast)
    rw [List.length_cons, ih htail]

lemma within_loadSegment_clear {bytes : Bytes} {elfPtr slide : Nat} {p : Elf.Phdr}
    (h : ∀ j < max p.filesz p.memsz, ClearAddress w l (wrap64 (Elf.segmentDst slide p + j))) :
    Within (Loads w l caps) (loadSegment cpu bytes elfPtr slide p) := by
  intro k
  refine within_bind_at (within_segmentBytes _ _ _ _ _ k) fun bs k' hbs => ?_
  have hlen := segmentBytes_length cpu hbs
  refine within_bind (within_store_clear cpu (wrap64_idem _) fun j hj => h j ?_) (fun _ => ?_) k'
  · omega
  · intro k''
    refine within_ite_at (fun hsize => ?_) fun _ => .refl
    refine within_store_clear cpu (wrap64_idem _) (fun j hj => ?_) k''
    rw [List.length_replicate] at hj
    have hclear := h (p.filesz + j) (by omega)
    rwa [wrap64_wrap64, Nat.add_assoc]

def SegmentsClear (w : Watch) (k : Kernel) (cpu : Cpu) (a : Args) (env : Env) : Prop :=
  ∀ bytes f slide,
    Fat.readFileAlloc (stringArg k cpu a.arg0 a.arg1) (env.heapPtr != 0) k.fat = .ok (some bytes, f) →
    Elf.loadSlide bytes (Elf.header bytes) env.random = some slide →
    ∀ i < (Elf.header bytes).phnum, ∀ p,
      Elf.phdr bytes (Elf.phOffset (Elf.header bytes) i) = some (some p) → p.memsz ≠ 0 →
      ∀ j < max p.filesz p.memsz, ClearAddress w k.layout (wrap64 (Elf.segmentDst slide p + j))

lemma fat_ok {α : Type} {x : FatM α} {k k' : Kernel} {r : α} (h : fat x k = .ok (r, k')) :
    ∃ f, x k.fat = .ok (r, f) ∧ k' = { k with fat := f } := by
  unfold fat zoom at h
  cases hx : x k.fat with
  | error f =>
    rw [hx] at h
    cases h
  | ok s =>
    rw [hx] at h
    obtain ⟨rfl, rfl⟩ := Prod.mk.inj (Except.ok.inj h)
    exact ⟨s.2, rfl, rfl⟩

lemma loadStr_ok {ptr len : Nat} {k k' : Kernel} {path : Bytes}
    (h : loadStr cpu ptr len k = .ok (path, k')) : path = stringArg k cpu ptr len ∧ k' = k := by
  refine ⟨by rw [stringArg, h], ?_⟩
  rw [← after_ok h]
  exact (within_loadStr cpu ptr len).no_step k

lemma sysExec_creates {k : Kernel} {a : Args} {env : Env} (h : SegmentsClear w k cpu a env) :
    Creates w (BitVec.ofNat 64 a.arg2 &&& k.sched.currentCaps cpu) k
      (after (sysExec cpu env a.arg0 a.arg1 (BitVec.ofNat 64 a.arg2)) k) := by
  apply loads_creates
  refine within_ite_at (fun _ => .refl) fun _ => ?_
  refine within_bind_at (within_loadStr _ _ _ k) fun path k₁ hpath => ?_
  obtain ⟨rfl, rfl⟩ := loadStr_ok cpu hpath
  refine within_ite_at (fun _ => .refl) fun _ => within_get_at ?_
  refine within_bind_at ?_ fun r k₁ hr => ?_
  · unfold fat
    rw [after_zoom]
    exact .single (.reads _)
  · obtain ⟨f, hf, rfl⟩ := fat_ok hr
    have hload (b : UInt8) (bs : Bytes) (hbytes : r = some (b :: bs)) :=
      within_spawnElf (R := Loads w k₁.layout (BitVec.ofNat 64 a.arg2 &&& k₁.sched.currentCaps cpu))
        cpu (b :: bs) env (ascii "user") _
        (fun slide hslide i hi p hp hsize =>
          within_loadSegment_clear cpu (h _ f slide (hbytes ▸ hf) hslide i hi p hp hsize))
        fun entry segs k => .spawn (ascii "user") entry segs
    match r with
    | none => exact .refl
    | some [] => exact .refl
    | some (b :: bs) => exact within_bind (hload b bs rfl) (fun _ => within_pure _) _

end Exec

lemma syscall_of_plain {k : Kernel} {cpu : Cpu} {id : Nat} {a : Args} {env : Env} {call : Syscall}
    (hacc : accepted k cpu id = some call) {x : Call Int} (hx : handle cpu a env call = plain x) :
    k.syscall cpu id a env = after x k := by
  have hplain : plain x k = (fun r => (Reply.value r.1, r.2)) <$> x k := by
    unfold plain
    rw [map_eq_pure_bind]
    change (x k) >>= (fun r => pure (Reply.value r.1, r.2)) = _
    rw [map_eq_pure_bind]
  unfold Kernel.syscall after
  rw [dispatch_accepted hacc, hx, hplain]
  cases x k with
  | error e => rfl
  | ok r => rfl

structure StoresClear (w : Watch) (k : Kernel) (cpu : Cpu) (id : Nat) (a : Args) (env : Env) : Prop where
  targets : ∀ va ∈ (targets k cpu id a env).takeWhile (reachable k cpu), ∀ pa,
    k.physical cpu va = some pa → w.clear k.layout pa = true
  program : accepted k cpu id = some .exec → SegmentsClear w k cpu a env

structure RightsBy (w : Watch) (k : Kernel) (cpu : Cpu) (id : Nat) (a : Args) (t t' : Task) : Prop where
  tid : t'.tid = t.tid
  caps : w.caps = true → t'.capabilities = t.capabilities ∨
    (accepted k cpu id = some .capGrant ∧ t.tid = a.arg0 ∧
      t'.capabilities = t.capabilities ||| (BitVec.ofNat 64 a.arg1 &&& k.sched.currentCaps cpu)) ∨
    (accepted k cpu id = some .capRevoke ∧ t.tid = a.arg0 ∧
      t'.capabilities = t.capabilities &&& ~~~BitVec.ofNat 64 a.arg1)
  filter : w.filter = true → t'.syscallFilter = t.syscallFilter ∨
    (accepted k cpu id = some .filterSet ∧ t.tid = a.arg0)

lemma RightsBy.of_unchanged {w : Watch} {k : Kernel} {cpu : Cpu} {id : Nat} {a : Args} {t t' : Task}
    (h : Unchanged w t t') : RightsBy w k cpu id a t t' :=
  ⟨h.tid, fun hw => Or.inl (h.caps hw), fun hw => Or.inl (h.filter hw)⟩

lemma modifyTid_of_some {s : Sched} {tid : Nat} {f : Task → Task} {slot : Slot} {t' : Task}
    (h : (s.modifyTid tid f).2.tasks slot = some t') :
    ∃ t, s.tasks slot = some t ∧ (t' = t ∨ t.tid = tid ∧ s.findTid tid = some slot ∧ t' = f t) := by
  rw [modifyTid_tasks] at h
  split_ifs at h with hfind
  · obtain ⟨t, ht, rfl⟩ := map_eq_some_iff.mp h
    obtain ⟨u, hu, htid⟩ := SlotTable.find_some hfind
    obtain rfl := some.inj (hu.symm.trans ht)
    exact ⟨u, hu, Or.inr ⟨by simpa using htid, hfind, rfl⟩⟩
  · exact ⟨t', h, Or.inl rfl⟩

section Syscalls

variable {w : Watch} {k : Kernel} {cpu : Cpu} {id : Nat} {a : Args} {env : Env} {slot : Slot} {t' : Task}

lemma getTaskCaps_of_find {s : Sched} {tid : Nat} {t : Task} (hfind : s.findTid tid = some slot)
    (ht : s.tasks slot = some t) : s.getTaskCaps tid = some t.capabilities := by
  simp [Sched.getTaskCaps, hfind, ht]

lemma updateCaps_of_some {tid : Nat} {g : BitVec 64 → BitVec 64} {ret : BitVec 64 → Sched → Int}
    (h : (after (match k.sched.getTaskCaps tid with
      | none => return -1
      | some existing => sched (.setTaskCaps tid (g existing)) (ret existing)) k).sched.tasks slot = some t') :
    ∃ t, k.sched.tasks slot = some t ∧
      (t' = t ∨ t.tid = tid ∧ t' = { t with capabilities := g t.capabilities }) := by
  cases hcaps : k.sched.getTaskCaps tid with
  | none =>
    rw [hcaps] at h
    exact ⟨t', h, Or.inl rfl⟩
  | some existing =>
    rw [hcaps] at h
    obtain ⟨t, ht, rfl | ⟨htid, hfind, rfl⟩⟩ := modifyTid_of_some h
    · exact ⟨t', ht, Or.inl rfl⟩
    · have hexisting := some.inj (hcaps.symm.trans (getTaskCaps_of_find hfind ht))
      exact ⟨t, ht, Or.inr ⟨htid, by rw [hexisting]⟩⟩

lemma capGrant_rights (hacc : accepted k cpu id = some .capGrant)
    (h : (k.syscall cpu id a env).sched.tasks slot = some t') :
    ∃ t, k.sched.tasks slot = some t ∧ RightsBy w k cpu id a t t' := by
  rw [syscall_of_plain hacc rfl, sysCapGrant, after_get_bind] at h
  obtain ⟨t, ht, rfl | ⟨htid, rfl⟩⟩ := updateCaps_of_some
    (g := fun existing => existing ||| (BitVec.ofNat 64 a.arg1 &&& k.sched.currentCaps cpu)) h
  · exact ⟨t', ht, .of_unchanged (.refl t')⟩
  · exact ⟨t, ht, rfl, fun _ => Or.inr (Or.inl ⟨hacc, htid, rfl⟩), fun _ => Or.inl rfl⟩

lemma capRevoke_rights (hacc : accepted k cpu id = some .capRevoke)
    (h : (k.syscall cpu id a env).sched.tasks slot = some t') :
    ∃ t, k.sched.tasks slot = some t ∧ RightsBy w k cpu id a t t' := by
  rw [syscall_of_plain hacc rfl, sysCapRevoke, after_get_bind] at h
  obtain ⟨t, ht, rfl | ⟨htid, rfl⟩⟩ := updateCaps_of_some (g := fun existing => existing &&& ~~~BitVec.ofNat 64 a.arg1) h
  · exact ⟨t', ht, .of_unchanged (.refl t')⟩
  · exact ⟨t, ht, rfl, fun _ => Or.inr (Or.inr ⟨hacc, htid, rfl⟩), fun _ => Or.inl rfl⟩

lemma filterSet_rights (hacc : accepted k cpu id = some .filterSet)
    (h : (k.syscall cpu id a env).sched.tasks slot = some t') :
    ∃ t, k.sched.tasks slot = some t ∧ RightsBy w k cpu id a t t' := by
  rw [syscall_of_plain hacc rfl] at h
  obtain ⟨t, ht, rfl | ⟨htid, -, rfl⟩⟩ := modifyTid_of_some h
  · exact ⟨t', ht, .of_unchanged (.refl t')⟩
  · exact ⟨t, ht, rfl, fun _ => Or.inl rfl, fun _ => Or.inr ⟨hacc, htid⟩⟩

lemma clone_creates (hacc : accepted k cpu id = some .clone) :
    Creates w (BitVec.ofNat 64 a.arg2 &&& k.sched.currentCaps cpu) k (k.syscall cpu id a env) := by
  rw [syscall_of_plain hacc rfl]
  have hsame : Creates w (BitVec.ofNat 64 a.arg2 &&& k.sched.currentCaps cpu) k k := .of_keeps (.refl k)
  unfold sysClone
  by_cases hentry : a.arg0 = 0
  · rw [if_pos hentry]
    exact hsame
  · rw [if_neg hentry]
    change Creates _ _ k (after (if k.sched.currentTaskTtbr0 cpu = 0 then _ else _ : Call Int) k)
    by_cases htable : k.sched.currentTaskTtbr0 cpu = 0
    · rw [if_pos htable]
      exact hsame
    · rw [if_neg htable]
      exact .of_spawned (spawnUserThread_spawned _ _ _ _ _ _)

lemma syscall_keepsRights {call : Syscall} (hacc : accepted k cpu id = some call)
    (hspawn : footprint k cpu a env call .spawn = false)
    (hrights : footprint k cpu a env call .rights = false)
    (hstore : footprint k cpu a env call .store = false)
    (hclear : ∀ va ∈ (targets k cpu id a env).takeWhile (reachable k cpu), ∀ pa,
      k.physical cpu va = some pa → w.clear k.layout pa = true) :
    KeepsRights w k (k.syscall cpu id a env) := by
  have hacts := handle_acts k cpu a env call
  have hwritten := written_eq k cpu id a env
  unfold Kernel.written at hwritten
  unfold Kernel.syscall
  unfold after at hacts
  rw [dispatch_accepted hacc] at hwritten ⊢
  cases hh : handle cpu a env call k with
  | error k' =>
    rw [hh] at hacts
    exact acts_keepsRights hspawn hrights hstore hacts
  | ok r =>
    obtain ⟨r, k'⟩ := r
    rw [hh] at hacts hwritten
    have hk : KeepsRights w k k' := acts_keepsRights hspawn hrights hstore hacts
    refine hk.trans (commit_keepsRights fun s hs pa hpa => ?_)
    have hs' : s.1 ∈ (targets k cpu id a env).takeWhile (reachable k cpu) := by
      rw [← hwritten]
      exact List.mem_map_of_mem hs
    have hd : destinations k cpu a env call ≠ [] := by
      intro hnil
      rw [targets, hacc] at hs'
      dsimp only at hs'
      rw [hnil] at hs'
      simp at hs'
    obtain ⟨h₁, h₂, h₃⟩ := destinations_footprint hd
    have hview : SameView k.sched k'.sched := acts_view h₁ h₂ h₃ hacts
    rw [physical_congr hview] at hpa
    rw [hk.layout]
    exact hclear s.1 hs' pa hpa

theorem syscall_rights (hclear : StoresClear w k cpu id a env)
    (h : (k.syscall cpu id a env).sched.tasks slot = some t') :
    (∃ t, k.sched.tasks slot = some t ∧ RightsBy w k cpu id a t t') ∨
      ((accepted k cpu id = some .exec ∨ accepted k cpu id = some .clone) ∧
        NewTask w (BitVec.ofNat 64 a.arg2 &&& k.sched.currentCaps cpu) k (k.syscall cpu id a env) t') := by
  have hkept : KeepsRights w k (k.syscall cpu id a env) →
      ∃ t, k.sched.tasks slot = some t ∧ RightsBy w k cpu id a t t' := by
    intro hk
    obtain ⟨t, ht, hsame⟩ := hk.tasks slot t' h
    exact ⟨t, ht, .of_unchanged hsame⟩
  have hnew : (accepted k cpu id = some .exec ∨ accepted k cpu id = some .clone) →
      Creates w (BitVec.ofNat 64 a.arg2 &&& k.sched.currentCaps cpu) k (k.syscall cpu id a env) →
      (∃ t, k.sched.tasks slot = some t ∧ RightsBy w k cpu id a t t') ∨
        ((accepted k cpu id = some .exec ∨ accepted k cpu id = some .clone) ∧
          NewTask w (BitVec.ofNat 64 a.arg2 &&& k.sched.currentCaps cpu) k (k.syscall cpu id a env) t') := by
    intro hacc hc
    rcases hc.tasks slot t' h with ⟨t, ht, hsame⟩ | hnew
    · exact Or.inl ⟨t, ht, .of_unchanged hsame⟩
    · exact Or.inr ⟨hacc, hnew⟩
  cases hacc : accepted k cpu id with
  | none =>
    refine Or.inl (hkept ?_)
    obtain ⟨ret, hd⟩ := dispatch_refused hacc a env
    unfold Kernel.syscall
    rw [hd]
    exact .refl k
  | some call =>
    rw [← hacc]
    cases call with
    | exec =>
      refine hnew (Or.inl hacc) ?_
      rw [syscall_of_plain hacc rfl]
      exact sysExec_creates cpu (hclear.program hacc)
    | clone => exact hnew (Or.inr hacc) (clone_creates hacc)
    | capGrant => exact Or.inl (capGrant_rights hacc h)
    | capRevoke => exact Or.inl (capRevoke_rights hacc h)
    | filterSet => exact Or.inl (filterSet_rights hacc h)
    | _ => exact Or.inl (hkept (syscall_keepsRights hacc rfl rfl rfl hclear.targets))

end Syscalls

lemma step_nextTid (s : Sched) (op : SchedOp) : s.nextTid ≤ (s.step op).nextTid := by
  have hc := step_change s op
  generalize s.step op = s' at hc ⊢
  cases hc with
  | inPlace _ hnext => exact hnext.ge
  | placed _ _ _ _ _ hnext => omega
  | reaped _ _ _ _ _ _ _ hs => exact (congrArg Sched.nextTid hs).ge

structure TidsKept (k k' : Kernel) : Prop where
  tids : Tids k.sched → Tids k'.sched
  nextTid : k.sched.nextTid ≤ k'.sched.nextTid

namespace TidsKept

variable {k k' k'' : Kernel}

lemma trans (h₁ : TidsKept k k') (h₂ : TidsKept k' k'') : TidsKept k k'' :=
  ⟨fun h => h₂.tids (h₁.tids h), h₁.nextTid.trans h₂.nextTid⟩

lemma of_keeps {w : Watch} (h : KeepsRights w k k') : TidsKept k k' :=
  ⟨fun ht => ht.inPlace (fun _ _ hs => Unchanged.tid hs) h.tasks h.nextTid, h.nextTid.ge⟩

lemma of_step (k : Kernel) (op : SchedOp) : TidsKept k { k with sched := k.sched.step op } :=
  ⟨fun h => h.step op, step_nextTid k.sched op⟩

lemma of_acts {K : Kind → Bool} (h : Relation.ReflTransGen (Acts K) k k') : TidsKept k k' := by
  induction h with
  | refl => exact ⟨fun h => h, le_rfl⟩
  | tail _ hstep ih =>
    apply ih.trans
    cases hstep with
    | quiet op | spawn op | rights op => exact of_step _ op
    | store pa b => exact of_keeps (poke_keepsRights (clear_nothing _ pa) b)
    | vfs | reads | config | disk | network | memory =>
      exact of_keeps (w := ⟨true, true⟩) ⟨rfl, rfl, fun _ t ht => ⟨t, ht, .refl t⟩⟩

lemma of_syscall (k : Kernel) (cpu : Cpu) (id : Nat) (a : Args) (env : Env) :
    TidsKept k (k.syscall cpu id a env) := by
  have hcommit (k : Kernel) (stores : List (Nat × UInt8)) : TidsKept k (k.commit cpu stores) :=
    of_keeps (commit_keepsRights fun _ _ pa _ => clear_nothing _ pa)
  unfold Kernel.syscall
  cases hacc : accepted k cpu id with
  | none =>
    obtain ⟨ret, hd⟩ := dispatch_refused hacc a env
    rw [hd]
    exact hcommit k _
  | some call =>
    have hacts := of_acts (handle_acts k cpu a env call)
    unfold after at hacts
    rw [dispatch_accepted hacc]
    cases hh : handle cpu a env call k with
    | error k' =>
      rw [hh] at hacts
      exact hacts
    | ok r =>
      rw [hh] at hacts
      exact hacts.trans (hcommit r.2 _)

lemma of_kernelStep (k : Kernel) (op : KernelOp) : TidsKept k (k.step op) := by
  cases op with
  | syscall cpu id a env => exact of_syscall k cpu id a env
  | popPendingSignal cpu => exact of_step k _
  | scheduleNext cpu sp => exact of_step k _
  | pageFault cpu => exact of_step k _

end TidsKept

lemma scheduleNext_rights (s : Sched) (cpu : Cpu) (sp : Nat) :
    SlotTable.Related SameRights s.tasks (s.scheduleNext cpu sp).1.tasks := by
  refine scheduleNext_relatedBy SameRights.refl SameRights.trans s cpu sp (fun t => ?_)
    (fun _ => ⟨rfl, rfl, rfl⟩) fun _ => ⟨rfl, rfl, rfl⟩
  unfold Sched.chargeTick
  split <;> exact ⟨rfl, rfl, rfl⟩

def Clear (w : Watch) (k : Kernel) : KernelOp → Prop
  | .syscall cpu id a env => StoresClear w k cpu id a env
  | _ => True

def ChangedBy (w : Watch) (k : Kernel) (op : KernelOp) (t t' : Task) : Prop :=
  match op with
  | .syscall cpu id a _ => RightsBy w k cpu id a t t'
  | _ => Unchanged w t t'

def CreatedBy (w : Watch) (k : Kernel) (op : KernelOp) (t' : Task) : Prop :=
  match op with
  | .syscall cpu id a _ => (accepted k cpu id = some .exec ∨ accepted k cpu id = some .clone) ∧
      NewTask w (BitVec.ofNat 64 a.arg2 &&& k.sched.currentCaps cpu) k (k.step op) t'
  | _ => False

theorem step_rights {w : Watch} {k : Kernel} {op : KernelOp} (hclear : Clear w k op) {slot : Slot}
    {t' : Task} (h : (k.step op).sched.tasks slot = some t') :
    (∃ t, k.sched.tasks slot = some t ∧ ChangedBy w k op t t') ∨ CreatedBy w k op t' := by
  have hkept {s' : Sched} (hs : TasksKept SameRights k.sched s') (ht : s'.tasks slot = some t') :
      ∃ t, k.sched.tasks slot = some t ∧ Unchanged w t t' := by
    obtain ⟨t, ht, hsame⟩ := hs slot t' ht
    exact ⟨t, ht, .of_sameRights hsame⟩
  cases op with
  | syscall cpu id a env => exact syscall_rights hclear h
  | popPendingSignal cpu => exact Or.inl (hkept (quiet_step k.sched rfl).1 h)
  | scheduleNext cpu sp => exact Or.inl (hkept (.of_related (scheduleNext_rights k.sched cpu sp)) h)
  | pageFault cpu =>
    have hquiet : isQuiet (.exitTask cpu (-11)) = true := rfl
    exact Or.inl (hkept (quiet_step k.sched hquiet).1 h)

end Aeglos.Proofs
