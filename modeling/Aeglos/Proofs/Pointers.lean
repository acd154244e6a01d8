import Aeglos.Proofs.Outputs
import Aeglos.Proofs.SchedulerSteps

/-!
# Output pointers

What a step of a syscall leaves unchanged, and where its stores go.
-/

namespace Aeglos.Proofs

open Effects Call

variable {k : Kernel} {cpu : Cpu}

structure SameRights (t t' : Task) : Prop where
  tid : t'.tid = t.tid
  capabilities : t'.capabilities = t.capabilities
  syscallFilter : t'.syscallFilter = t.syscallFilter

lemma SameRights.refl (t : Task) : SameRights t t := ⟨rfl, rfl, rfl⟩

lemma SameRights.trans (t u v : Task) (h₁ : SameRights t u) (h₂ : SameRights u v) : SameRights t v :=
  ⟨h₂.tid.trans h₁.tid, h₂.capabilities.trans h₁.capabilities, h₂.syscallFilter.trans h₁.syscallFilter⟩

def TasksKept (R : Task → Task → Prop) (s s' : Sched) : Prop :=
  ∀ slot t', s'.tasks slot = some t' → ∃ t, s.tasks slot = some t ∧ R t t'

lemma TasksKept.of_related {R : Task → Task → Prop} {s s' : Sched}
    (h : SlotTable.Related R s.tasks s'.tasks) : TasksKept R s s' := fun _ _ ht => h.of_some ht

structure SameView (s s' : Sched) : Prop where
  current : s'.current = s.current
  currentTtbr0 : s'.currentTtbr0 = s.currentTtbr0
  vmmTtbr0 : s'.vmmTtbr0 = s.vmmTtbr0
  nextTid : s'.nextTid = s.nextTid
  table : s'.mem.table = s.mem.table

namespace SameView

lemma refl (s : Sched) : SameView s s := ⟨rfl, rfl, rfl, rfl, rfl⟩

lemma trans {s t u : Sched} (h₁ : SameView s t) (h₂ : SameView t u) : SameView s u :=
  ⟨h₂.current.trans h₁.current, h₂.currentTtbr0.trans h₁.currentTtbr0,
    h₂.vmmTtbr0.trans h₁.vmmTtbr0, h₂.nextTid.trans h₁.nextTid, h₂.table.trans h₁.table⟩

lemma of_only {s s' : Sched} (h : OnlyTasks s s') : SameView s s' :=
  ⟨h.current, h.currentTtbr0, h.vmmTtbr0, h.nextTid, by rw [h.mem]⟩

end SameView

section QuietOps

open Sched

variable (s : Sched) (cpu : Cpu) (tid : Nat)

lemma wakeWaiters_rights : SlotTable.Related SameRights s.tasks (s.wakeWaiters tid).tasks := by
  refine SlotTable.related_map s.tasks fun _ t => ?_
  unfold wakeWaiter
  split <;> exact ⟨rfl, rfl, rfl⟩

lemma exitTask_quiet (code : Int) :
    SlotTable.Related SameRights s.tasks (s.exitTask cpu code).tasks ∧ SameView s (s.exitTask cpu code) := by
  have hdead := modifyCurrent_related s cpu SameRights.refl (f := markDead code) fun _ => ⟨rfl, rfl, rfl⟩
  have honly := modifyCurrent_only s cpu (markDead code)
  exact ⟨hdead.trans SameRights.trans (wakeWaiters_rights _ _),
    ⟨honly.current, honly.currentTtbr0, honly.vmmTtbr0, honly.nextTid,
      congrArg Memory.table honly.mem⟩⟩

lemma forceExit_quiet (code : Int) :
    SlotTable.Related SameRights s.tasks (s.forceExit tid code).2.tasks ∧
      SameView s (s.forceExit tid code).2 := by
  unfold forceExit
  cases s.findTid tid with
  | none => exact ⟨SlotTable.Related.refl SameRights.refl _, .refl s⟩
  | some slot =>
    have hdead := modifyTask_related s SameRights.refl (f := markDead code) (fun _ => ⟨rfl, rfl, rfl⟩) slot
    exact ⟨hdead.trans SameRights.trans (wakeWaiters_rights _ _), rfl, rfl, rfl, rfl, rfl⟩

lemma waitForTid_quiet :
    TasksKept SameRights s (s.waitForTid cpu tid).2 ∧ SameView s (s.waitForTid cpu tid).2 := by
  have hrefl : TasksKept SameRights s s := fun _ t ht => ⟨t, ht, .refl t⟩
  unfold waitForTid
  cases hf : s.findTid tid with
  | none => exact ⟨hrefl, .refl s⟩
  | some slot =>
    dsimp only
    cases ht : s.tasks slot with
    | none => exact ⟨hrefl, .refl s⟩
    | some t =>
      dsimp only
      split
      · refine ⟨fun i t' hi => ?_, rfl, rfl, rfl, rfl, ?_⟩
        · unfold reap at hi
          dsimp only at hi
          by_cases his : i = slot
          · subst his
            simp at hi
          · rw [Function.update_of_ne his] at hi
            exact ⟨t', hi, .refl t'⟩
        · unfold reap
          dsimp only
          split <;> rfl
      · exact ⟨.of_related (modifyCurrent_related s cpu SameRights.refl fun _ => ⟨rfl, rfl, rfl⟩),
          .of_only (modifyCurrent_only s cpu _)⟩

theorem quiet_step {op : SchedOp} (h : isQuiet op = true) :
    TasksKept SameRights s (s.step op) ∧ SameView s (s.step op) := by
  have hcurrent {f : Task → Task} (cpu : Cpu) (hf : ∀ t, SameRights t (f t)) :
      TasksKept SameRights s (s.modifyCurrent cpu f) ∧ SameView s (s.modifyCurrent cpu f) :=
    ⟨.of_related (modifyCurrent_related s cpu SameRights.refl hf), .of_only (modifyCurrent_only s cpu f)⟩
  have htid {f : Task → Task} (tid : Nat) (hf : ∀ t, SameRights t (f t)) :
      TasksKept SameRights s (s.modifyTid tid f).2 ∧ SameView s (s.modifyTid tid f).2 :=
    ⟨.of_related (modifyTid_related s tid SameRights.refl hf), .of_only (modifyTid_only s tid f)⟩
  have htask {f : Task → Task} (slot : Slot) (hf : ∀ t, SameRights t (f t)) :
      TasksKept SameRights s (s.modifyTask slot f) ∧ SameView s (s.modifyTask slot f) :=
    ⟨.of_related (modifyTask_related s SameRights.refl hf slot), .of_only (modifyTask_only s f slot)⟩
  have hsame : TasksKept SameRights s s ∧ SameView s s := ⟨fun _ t ht => ⟨t, ht, .refl t⟩, .refl s⟩
  cases op with
  | init | secondaryIdleInit | spawn | spawnUserEntryWithSegs | spawnUserThread | scheduleNext
  | setTaskSyscallFilter | setTaskCaps => cases h
  | sendSignal tid sig =>
    simp only [step, sendSignal]
    split
    · exact hsame
    · exact htid tid fun _ => ⟨rfl, rfl, rfl⟩
  | setSignalHandler cpu handler mask => exact hcurrent cpu fun _ => ⟨rfl, rfl, rfl⟩
  | popPendingSignal cpu =>
    simp only [step, popPendingSignal]
    split
    · exact hsame
    · exact hcurrent cpu fun _ => ⟨rfl, rfl, rfl⟩
  | forceExit tid code => exact (forceExit_quiet s tid code).imp_left .of_related
  | swapSignalMask cpu mask => exact hcurrent cpu fun _ => ⟨rfl, rfl, rfl⟩
  | sendMessage tid msg =>
    simp only [step, sendMessage]
    split
    · exact hsame
    · split
      · exact hsame
      · exact htask _ fun _ => ⟨rfl, rfl, rfl⟩
  | recvMessage cpu =>
    simp only [step, recvMessage]
    split <;> exact hcurrent cpu fun _ => ⟨rfl, rfl, rfl⟩
  | tryRecvMessage cpu => exact hcurrent cpu fun _ => ⟨rfl, rfl, rfl⟩
  | yieldCpu cpu => exact hcurrent cpu fun _ => ⟨rfl, rfl, rfl⟩
  | exitTask cpu code => exact (exitTask_quiet s cpu code).imp_left .of_related
  | waitForTid cpu tid => exact waitForTid_quiet s cpu tid
  | setAffinity tid cpu => exact htid tid fun _ => ⟨rfl, rfl, rfl⟩
  | setTaskPriority tid priority => exact htid tid fun _ => ⟨rfl, rfl, rfl⟩

lemma setsRights_view {op : SchedOp} (h : setsRights op = true) : SameView s (s.step op) := by
  cases op with
  | setTaskSyscallFilter tid filter => exact .of_only (modifyTid_only s tid _)
  | setTaskCaps tid caps => exact .of_only (modifyTid_only s tid _)
  | _ => cases h

end QuietOps

lemma acts_view {K : Kind → Bool} (hspawn : K .spawn = false) (hstore : K .store = false)
    (hmemory : K .memory = false) {k k' : Kernel} (h : Relation.ReflTransGen (Acts K) k k') :
    SameView k.sched k'.sched := by
  induction h with
  | refl => exact .refl _
  | tail _ hstep ih =>
    refine ih.trans ?_
    cases hstep with
    | quiet op h => exact (quiet_step _ h).2
    | rights op _ h => exact setsRights_view _ h
    | vfs | reads | config | disk | network => exact .refl _
    | spawn op hK => simp [hspawn] at hK
    | store pa b hK => simp [hstore] at hK
    | memory v hK => simp [hmemory] at hK

lemma translate_congr {m m' : Memory} (h : m'.table = m.table) (root va : Nat) :
    m'.translate root va = m.translate root va := by
  simp only [Memory.translate, Memory.child, Memory.leaf, h]

lemma physical_congr {k k' : Kernel} (h : SameView k.sched k'.sched) (cpu : Cpu) (va : Nat) :
    k'.physical cpu va = k.physical cpu va := by
  simp only [Kernel.physical, Kernel.ttbr0, h.currentTtbr0, h.vmmTtbr0, translate_congr h.table]

lemma commit_induction {stores : List (Nat × UInt8)} {P : Kernel → Prop}
    (hk : P k) (hpoke : ∀ s ∈ k.reached cpu stores, ∀ pa, k.physical cpu s.1 = some pa →
      ∀ k', P k' → P (k'.poke pa s.2)) : P (k.commit cpu stores) := by
  have hfold : ∀ (todo : List (Nat × UInt8)) (k' : Kernel), (∀ s ∈ todo, s ∈ k.reached cpu stores) →
      P k' → P (todo.foldl
        (fun k' s => (k.physical cpu s.1).elim k' fun pa => k'.poke pa s.2) k') := by
    intro todo
    induction todo with
    | nil => exact fun _ _ hk' => hk'
    | cons s todo ih =>
      intro k' hsub hk'
      apply ih _ fun s' hs' => hsub s' (List.mem_cons_of_mem s hs')
      dsimp only
      cases hpa : k.physical cpu s.1 with
      | none => exact hk'
      | some pa => exact hpoke s (hsub s List.mem_cons_self) pa hpa k' hk'
  exact hfold _ k (fun _ hs => hs) hk

def accepted (k : Kernel) (cpu : Cpu) (id : Nat) : Option Syscall :=
  if passesFilter (k.sched.currentSyscallFilter cpu) id then
    (Syscall.ofNumber id).filter fun call => !denied (k.sched.currentCaps cpu) call.required
  else none

lemma dispatch_accepted {id : Nat} {call : Syscall}
    (h : accepted k cpu id = some call) (a : Args) (env : Env) :
    dispatch cpu id a env k = handle cpu a env call k := by
  unfold accepted at h
  split at h
  case isFalse => cases h
  case isTrue hf =>
    obtain ⟨hcall, hden⟩ := Option.filter_eq_some_iff.mp h
    change (if (!passesFilter (k.sched.currentSyscallFilter cpu) id) = true then _ else _ : Call Reply) k = _
    rw [if_neg (by simp [hf]), hcall]
    dsimp only
    rw [if_neg (by simpa using hden)]

lemma dispatch_refused {id : Nat} (h : accepted k cpu id = none)
    (a : Args) (env : Env) : ∃ ret, dispatch cpu id a env k = .ok (.value ret, k) := by
  unfold accepted at h
  change ∃ ret, (if (!passesFilter (k.sched.currentSyscallFilter cpu) id) = true then _ else _ : Call Reply) k = _
  split at h
  case isFalse hf =>
    rw [if_pos (by simpa using hf)]
    exact ⟨-1, rfl⟩
  case isTrue hf =>
    rw [if_neg (by simp [hf])]
    cases hcall : Syscall.ofNumber id with
    | none => exact ⟨-1, rfl⟩
    | some call =>
      rw [hcall, Option.filter_some, ite_eq_right_iff] at h
      dsimp only
      rw [if_pos (by_contra fun hden => by simpa using h (by simpa using hden))]
      exact ⟨-13, rfl⟩

lemma destinations_footprint {a : Args} {env : Env} {call : Syscall}
    (h : destinations k cpu a env call ≠ []) :
    footprint k cpu a env call .spawn = false ∧ footprint k cpu a env call .store = false ∧
      footprint k cpu a env call .memory = false := by
  cases call <;> first | exact ⟨rfl, rfl, rfl⟩ | exact absurd rfl h

def targets (k : Kernel) (cpu : Cpu) (id : Nat) (a : Args) (env : Env) : List Nat :=
  match accepted k cpu id with
  | none => []
  | some call => destinations k cpu a env call

def reachable (k : Kernel) (cpu : Cpu) (va : Nat) : Bool := (k.physical cpu va).isSome

theorem written_eq (k : Kernel) (cpu : Cpu) (id : Nat) (a : Args) (env : Env) :
    k.written cpu id a env = (targets k cpu id a env).takeWhile (reachable k cpu) := by
  unfold Kernel.written targets
  cases hacc : accepted k cpu id with
  | none =>
    obtain ⟨ret, h⟩ := dispatch_refused hacc a env
    rw [h]
    rfl
  | some call =>
    rw [dispatch_accepted hacc]
    have hout := handle_outputs k cpu a env call
    have hacts := handle_acts k cpu a env call
    unfold outputs at hout
    unfold after at hacts
    cases hh : handle cpu a env call k with
    | error k' =>
      rw [hh] at hout
      dsimp only at hout ⊢
      rw [← hout]
      rfl
    | ok r =>
      obtain ⟨r, k'⟩ := r
      rw [hh] at hout hacts
      dsimp only at hout ⊢
      rw [← hout]
      by_cases hd : destinations k cpu a env call = []
      · have hnone : r.stores = [] := List.map_eq_nil_iff.mp (hout.trans hd)
        simp [Kernel.reached, hnone]
      · obtain ⟨h₁, h₂, h₃⟩ := destinations_footprint hd
        have hview : SameView k.sched k'.sched := acts_view h₁ h₂ h₃ hacts
        rw [List.takeWhile_map]
        unfold Kernel.reached reachable
        simp only [physical_congr hview, Function.comp_def]

def El0Writable (k : Kernel) (cpu : Cpu) (va : Nat) : Prop :=
  va < 2 ^ 48 ∧ ∃ tr, k.sched.mem.translate (k.sched.currentTaskTtbr0 cpu) va = some tr ∧ tr.user = true

def smallKernel (caps : BitVec 64) : Kernel where
  sched := { smallBoot.init with
    tasks := Function.update smallBoot.init.tasks 1
      (some { Task.newUser 1 [] 0x48000000 0x100000 caps 0x48200000 0 0 0 0 with state := .running })
    current := Function.update smallBoot.init.current 0 (some 1)
    currentTtbr0 := fun _ => 0x48200000
    nextTid := 2
    active := true }
  surfaces := fun _ => .empty
  anyDirty := false
  vfs := ⟨fun _ => none, fun _ => .new⟩
  fat := ⟨true, 64, fun _ => .zero, fun _ => Fat.emptyTag, fun _ => .zero, false, 512, 1, 0, 0, 0, 0, 2,
    fun _ => .empty⟩
  config := []
  netUp := true
  sent := []
  framebuffer := ⟨0, 0, 0, 0⟩
  layout := ⟨fun slot => 0x40100000 + slot.val * 0x200, fun slot => 0x40100100 + slot.val * 0x200⟩

def quietEnv : Env where
  received := none
  ioBuffer := []
  typed := []
  events := []
  rtc := 0
  ip := []
  mac := []
  random := 0
  heapPtr := 0
  heapHole := []
  polls := []
  spoken := false
  frames := []
  netRet := 0
  netData := []
  dns := none
  host := []
  hostRet := 0

def copyMask : Args := ⟨kernelVaOffset + 0x40100000, kernelVaOffset + 0x40100200, 8, 0, 0, 0⟩

end Aeglos.Proofs
