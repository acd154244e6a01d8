import Aeglos.Library.Runs
import Aeglos.Kernel.Scheduler

/-!
# What a scheduler operation can do

Inversion lemmas for the operations of the scheduler.
-/

namespace Aeglos.Proofs

open Sched List Option Function

variable {tasks : Slot → Option Task} {s : Sched} {op : SchedOp} {f : Task → Task} {cpu : Cpu}

def isDead (t : Task) : Bool := t.state == .dead

def InStack (t : Task) (a : Nat) : Prop := t.stackBase ≤ a ∧ a < t.stackBase + t.stackSize

structure SameOwner (t t' : Task) : Prop where
  tid : t'.tid = t.tid
  stackBase : t'.stackBase = t.stackBase
  stackSize : t'.stackSize = t.stackSize
  privilege : t'.privilege = t.privilege
  ttbr0 : t'.ttbr0 = t.ttbr0

lemma SameOwner.refl (t : Task) : SameOwner t t := ⟨rfl, rfl, rfl, rfl, rfl⟩

lemma SameOwner.trans (t u v : Task) (h₁ : SameOwner t u) (h₂ : SameOwner u v) : SameOwner t v :=
  ⟨h₂.tid.trans h₁.tid, h₂.stackBase.trans h₁.stackBase, h₂.stackSize.trans h₁.stackSize,
    h₂.privilege.trans h₁.privilege, h₂.ttbr0.trans h₁.ttbr0⟩

def movesMessages : SchedOp → Bool
  | .sendMessage .. | .recvMessage _ | .tryRecvMessage _ => true
  | _ => false

structure Edited (op : SchedOp) (t t' : Task) : Prop extends SameOwner t t' where
  mailbox : movesMessages op = false → t'.mailbox = t.mailbox

lemma Edited.refl (op : SchedOp) (t : Task) : Edited op t t := ⟨SameOwner.refl t, fun _ => rfl⟩

lemma Edited.trans (op : SchedOp) (t u v : Task) (h₁ : Edited op t u) (h₂ : Edited op u v) : Edited op t v :=
  ⟨SameOwner.trans t u v h₁.toSameOwner h₂.toSameOwner,
    fun hop => (h₂.mailbox hop).trans (h₁.mailbox hop)⟩

section Helpers

variable (s : Sched) (cpu : Cpu) (tid : Nat) (f : Task → Task)

lemma modifyTask_tasks (slot : Slot) : (s.modifyTask slot f).tasks = SlotTable.modify s.tasks slot f := rfl

lemma modifyCurrent_tasks (i : Slot) :
    (s.modifyCurrent cpu f).tasks i =
      if s.current cpu = some i then (s.tasks i).map f else s.tasks i := by
  unfold modifyCurrent
  cases hc : s.current cpu with
  | none => simp
  | some slot =>
    by_cases hi : slot = i
    · subst hi
      simp [modifyTask_tasks, SlotTable.modify_self]
    · simp [modifyTask_tasks, SlotTable.modify_of_ne _ (Ne.symm hi), hi]

lemma modifyTid_tasks (i : Slot) :
    (s.modifyTid tid f).2.tasks i =
      if s.findTid tid = some i then (s.tasks i).map f else s.tasks i := by
  unfold modifyTid
  cases hc : s.findTid tid with
  | none => simp
  | some slot =>
    by_cases hi : slot = i
    · subst hi
      simp [modifyTask_tasks, SlotTable.modify_self]
    · simp [modifyTask_tasks, SlotTable.modify_of_ne _ (Ne.symm hi), hi]

structure OnlyTasks (s s' : Sched) : Prop where
  current : s'.current = s.current
  currentTtbr0 : s'.currentTtbr0 = s.currentTtbr0
  nextTid : s'.nextTid = s.nextTid
  mem : s'.mem = s.mem
  vmmTtbr0 : s'.vmmTtbr0 = s.vmmTtbr0

lemma OnlyTasks.refl (s : Sched) : OnlyTasks s s := ⟨rfl, rfl, rfl, rfl, rfl⟩

lemma modifyTask_only (slot : Slot) : OnlyTasks s (s.modifyTask slot f) := ⟨rfl, rfl, rfl, rfl, rfl⟩

lemma modifyCurrent_only : OnlyTasks s (s.modifyCurrent cpu f) := by
  unfold modifyCurrent
  split
  · exact OnlyTasks.refl s
  · exact modifyTask_only s f _

lemma modifyTid_only : OnlyTasks s (s.modifyTid tid f).2 := by
  unfold modifyTid
  split
  · exact OnlyTasks.refl s
  · exact modifyTask_only s f _

variable {f} {R : Task → Task → Prop} (hR : ∀ t, R t t)
include hR

lemma modifyTask_related_at (slot : Slot) (hf : ∀ t, s.tasks slot = some t → R t (f t)) :
    SlotTable.Related R s.tasks (s.modifyTask slot f).tasks :=
  SlotTable.related_modify_at hR s.tasks slot hf

lemma modifyCurrent_related_at (hf : ∀ t, s.currentTask cpu = some t → R t (f t)) :
    SlotTable.Related R s.tasks (s.modifyCurrent cpu f).tasks := by
  unfold modifyCurrent
  cases hc : s.current cpu with
  | none => exact SlotTable.Related.refl hR s.tasks
  | some slot =>
    refine modifyTask_related_at s hR slot fun t ht => hf t ?_
    rw [currentTask, hc, bind_some, ht]

variable (hf : ∀ t, R t (f t))
include hf

lemma modifyTask_related (slot : Slot) : SlotTable.Related R s.tasks (s.modifyTask slot f).tasks :=
  SlotTable.related_modify hR s.tasks slot hf

lemma modifyCurrent_related : SlotTable.Related R s.tasks (s.modifyCurrent cpu f).tasks := by
  unfold modifyCurrent
  split
  · exact SlotTable.Related.refl hR s.tasks
  · exact modifyTask_related s hR hf _

lemma modifyTid_related : SlotTable.Related R s.tasks (s.modifyTid tid f).2.tasks := by
  unfold modifyTid
  split
  · exact SlotTable.Related.refl hR s.tasks
  · exact modifyTask_related s hR hf _

end Helpers

lemma mem_others {start j : Slot} : j ∈ others start ↔ j ≠ start := by
  revert start j
  decide +kernel

lemma scanFrom_some {start idx : Slot} {p : Task → Bool}
    (h : scanFrom tasks start p = some idx) : idx ≠ start ∧ (tasks idx).any p = true :=
  ⟨mem_others.mp (mem_of_find?_eq_some h),
    find?_some (p := fun i => (tasks i).any p) h⟩

lemma pickNext_some {start idx : Slot}
    (h : pickNext tasks cpu start = some idx) :
    idx ≠ start ∧ (tasks idx).any (anyReady cpu) = true := by
  have hweaken : ∀ p : Task → Bool, (∀ t, p t = true → anyReady cpu t = true) →
      scanFrom tasks start p = some idx → idx ≠ start ∧ (tasks idx).any (anyReady cpu) = true := by
    intro p hp hscan
    obtain ⟨hne, hany⟩ := scanFrom_some hscan
    refine ⟨hne, ?_⟩
    obtain ⟨t, ht, hpt⟩ := (any_eq_true _ _).mp hany
    rw [ht]
    exact hp t hpt
  unfold pickNext at h
  rcases or_eq_some_iff.mp h with h1 | ⟨-, h23⟩
  · exact hweaken _ (fun t ht => by simp_all [pinnedReady, anyReady]) h1
  · rcases or_eq_some_iff.mp h23 with h2 | ⟨-, h3⟩
    · exact hweaken _ (fun t ht => by simp_all [migratableReady, anyReady]) h2
    · exact hweaken _ (fun _ ht => ht) h3

lemma pickNext_none {start : Slot} :
    pickNext tasks cpu start = none ↔ ∀ j, j ≠ start → (tasks j).any (anyReady cpu) = false := by
  constructor
  · intro h j hj
    unfold pickNext at h
    rw [or_eq_none_iff, or_eq_none_iff] at h
    have hall := find?_eq_none.mp h.2.2 j (mem_others.mpr hj)
    simpa using hall
  · intro h
    cases hp : pickNext tasks cpu start with
    | none => rfl
    | some idx =>
      obtain ⟨hne, hany⟩ := pickNext_some hp
      rw [h idx hne] at hany
      exact absurd hany (by decide)

inductive Scheduled (s : Sched) (cpu : Cpu) (sp : Nat) : Sched → Prop where
  | inactive (h : s.active = false) : Scheduled s cpu sp s
  | noTask (ha : s.active = true) (h : s.current cpu = none) :
      Scheduled s cpu sp { s with totalTicks := s.totalTicks + 1 }
  | keeps (cur : Slot) (ha : s.active = true) (hc : s.current cpu = some cur)
      (h : (s.tasks cur).any keepsCpu = true) : Scheduled s cpu sp (s.charge cur sp)
  | stays (cur : Slot) (ha : s.active = true) (hc : s.current cpu = some cur)
      (hk : (s.tasks cur).any keepsCpu = false)
      (h : pickNext (s.charge cur sp).tasks cpu cur = none) :
      Scheduled s cpu sp ((s.charge cur sp).modifyTask cur setRunning)
  | switches (cur idx : Slot) (reset : Sched) (ha : s.active = true)
      (hc : s.current cpu = some cur) (hk : (s.tasks cur).any keepsCpu = false)
      (h : pickNext (s.charge cur sp).tasks cpu cur = some idx)
      (hr : reset = s.charge cur sp ∨ reset = (s.charge cur sp).modifyTask cur resetQuantum) :
      Scheduled s cpu sp (reset.switchTo cpu idx)

theorem scheduled (s : Sched) (cpu : Cpu) (sp : Nat) : Scheduled s cpu sp (s.scheduleNext cpu sp).1 := by
  unfold scheduleNext
  by_cases ha : s.active = true
  · rw [if_neg (by simp [ha])]
    cases hc : s.current cpu with
    | none => exact .noTask ha hc
    | some cur =>
      dsimp only
      cases hk : (s.tasks cur).any keepsCpu with
      | true => exact .keeps cur ha hc hk
      | false =>
        simp only [Bool.false_eq_true, if_false]
        cases hp : pickNext (s.charge cur sp).tasks cpu cur with
        | none => exact .stays cur ha hc hk hp
        | some idx =>
          dsimp only
          refine .switches cur idx _ ha hc hk hp ?_
          split
          · exact Or.inr rfl
          · exact Or.inl rfl
  · rw [if_pos (by simpa using ha)]
    exact .inactive (by simpa using ha)

lemma charge_tasks_of_ne {cur j : Slot} (h : j ≠ cur) (sp : Nat) : (s.charge cur sp).tasks j = s.tasks j :=
  SlotTable.modify_of_ne s.tasks h _

lemma switches_idx {s reset : Sched} {sp : Nat} {cur idx : Slot}
    (h : pickNext (s.charge cur sp).tasks cpu cur = some idx)
    (hr : reset = s.charge cur sp ∨ reset = (s.charge cur sp).modifyTask cur resetQuantum) :
    idx ≠ cur ∧ (s.tasks idx).any (anyReady cpu) = true ∧ reset.tasks idx = s.tasks idx := by
  obtain ⟨hne, hany⟩ := pickNext_some h
  rw [charge_tasks_of_ne hne] at hany
  refine ⟨hne, hany, ?_⟩
  rcases hr with rfl | rfl
  · exact charge_tasks_of_ne hne sp
  · exact (SlotTable.modify_of_ne _ hne _).trans (charge_tasks_of_ne hne sp)

structure JustCreated (t : Task) : Prop where
  waitTid : t.waitTid = none
  sp : t.sp = frameSp t.stackBase t.stackSize
  stackSize : t.stackSize = taskStackSize
  mailbox : t.mailbox = .new

/-- The outcomes of a spawn: a panic or an error, which may have consumed pages, or a new Ready task in an
empty slot, on a stack of pages that were free. -/
inductive Spawned (s : Sched) (caps : BitVec 64) : Option (Except String Nat) × Sched → Prop where
  | failed (result : Option (Except String Nat)) (mem : Memory) (hmem : s.mem.Consumes mem)
      (hresult : ∀ tid, result ≠ some (.ok tid)) : Spawned s caps (result, { s with mem := mem })
  | created (mem : Memory) (slot : Slot) (task : Task) (frame : TrapFrame)
      (hmem : s.mem.Consumes mem) (hslot : s.tasks slot = none) (htid : task.tid = s.nextTid)
      (hstate : task.state = .ready) (hcaps : task.capabilities = caps)
      (hfilter : task.syscallFilter = (allOnes64, allOnes64))
      (hstack : ∀ a, InStack task a → s.mem.pages.Free a ∧ ¬mem.pages.Free a)
      (hnew : JustCreated task) :
      Spawned s caps (some (.ok s.nextTid), { s with mem := mem }.install slot task frame)

lemma fresh_stack {m m₁ m₂ : Memory} {base : Nat}
    (h : m.allocPages taskStackPages = some (base, m₁)) (h₂ : m₁.Consumes m₂) {a : Nat}
    (ha : base ≤ a ∧ a < base + taskStackSize) : m.pages.Free a ∧ ¬m₂.pages.Free a := by
  obtain ⟨hfree, hiff⟩ := PageAllocator.allocPages_free (Memory.allocPages_pages h) a
  exact ⟨hfree ha, fun hf => (hiff.mp (h₂ a hf)).2 ha⟩

theorem spawn_spawned (s : Sched) (name : List UInt8) (entry : Nat) :
    Spawned s allOnes64 (some (s.spawn name entry).1, (s.spawn name entry).2) := by
  unfold spawn
  cases hf : SlotTable.free s.tasks with
  | none => exact .failed _ s.mem (Memory.Consumes.refl _) (by simp)
  | some slot =>
    cases hk : s.mem.allocPages taskStackPages with
    | none => exact .failed _ s.mem (Memory.Consumes.refl _) (by simp)
    | some k =>
      exact .created k.2 slot _ _ (Memory.allocPages_consumes hk) (SlotTable.free_some hf) rfl rfl rfl rfl
        (fun a ha => fresh_stack hk (Memory.Consumes.refl _) ha) ⟨rfl, rfl, rfl, rfl⟩

theorem spawnUserThread_spawned (s : Sched) (name : List UInt8) (entry userSp : Nat)
    (caps : BitVec 64) (ttbr0 : Nat) :
    Spawned s caps (some (s.spawnUserThread name entry userSp caps ttbr0).1,
      (s.spawnUserThread name entry userSp caps ttbr0).2) := by
  unfold spawnUserThread
  cases hk : s.mem.allocPages taskStackPages with
  | none => exact .failed _ s.mem (Memory.Consumes.refl _) (by simp)
  | some k =>
    dsimp only
    cases hf : SlotTable.free s.tasks with
    | none => exact .failed _ k.2 (Memory.allocPages_consumes hk) (by simp)
    | some slot =>
      exact .created k.2 slot _ _ (Memory.allocPages_consumes hk) (SlotTable.free_some hf) rfl rfl rfl rfl
        (fun a ha => fresh_stack hk (Memory.Consumes.refl _) ha) ⟨rfl, rfl, rfl, rfl⟩

theorem spawnUserEntryWithSegs_spawned (s : Sched) (name : List UInt8) (entry : Nat)
    (caps : BitVec 64) (segs : List ProcSegment) :
    Spawned s caps (s.spawnUserEntryWithSegs name entry caps segs) := by
  unfold spawnUserEntryWithSegs
  cases hk : s.mem.allocPages taskStackPages with
  | none => exact .failed _ s.mem (Memory.Consumes.refl _) (by simp)
  | some k =>
    have hkmem := Memory.allocPages_consumes hk
    dsimp only
    cases hu : k.2.allocPages userStackPages with
    | none => exact .failed _ k.2 hkmem (by simp)
    | some u =>
      dsimp only
      have htable := Memory.createProcessTable_consumes u.2
        (segs.take 17 ++ [⟨u.1, userStackSize, true, false, false⟩])
      have humem := Memory.Consumes.trans _ _ _ (Memory.allocPages_consumes hu) htable
      have hmem := Memory.Consumes.trans _ _ _ hkmem humem
      cases hp : u.2.createProcessTable (segs.take 17 ++ [⟨u.1, userStackSize, true, false, false⟩]) with
      | error mem =>
        rw [hp] at hmem
        exact .failed _ mem hmem (by simp)
      | ok p =>
        rw [hp] at hmem humem
        cases hf : SlotTable.free s.tasks with
        | none => exact .failed _ p.2 hmem (by simp)
        | some slot =>
          exact .created p.2 slot _ _ hmem (SlotTable.free_some hf) rfl rfl rfl rfl
            (fun a ha => fresh_stack hk humem ha) ⟨rfl, rfl, rfl, rfl⟩

def createsTask : SchedOp → Bool
  | .init | .secondaryIdleInit _ | .spawn .. | .spawnUserEntryWithSegs .. | .spawnUserThread .. => true
  | _ => false

inductive Change (s : Sched) (op : SchedOp) (s' : Sched) : Prop where
  | inPlace (htasks : SlotTable.Related (Edited op) s.tasks s'.tasks)
      (hnext : s'.nextTid = s.nextTid) (hmem : s.mem.Consumes s'.mem)
  | placed (slot : Slot) (task : Task) (hslot : s.tasks slot = none ∨ op = .init ∧ slot = 0)
      (htasks : s'.tasks = Function.update s.tasks slot (some task))
      (htid : task.tid = s.nextTid) (hnext : s'.nextTid = s.nextTid + 1)
      (hstack : ∀ a, InStack task a → s.mem.pages.Free a ∧ ¬s'.mem.pages.Free a)
      (hmem : s.mem.Consumes s'.mem) (hcreates : createsTask op = true)
      (hmail : task.mailbox = .new)
  | reaped (cpu : Cpu) (slot : Slot) (t : Task) (hop : op = .waitForTid cpu t.tid)
      (hfind : s.findTid t.tid = some slot) (ht : s.tasks slot = some t)
      (hdead : t.state = .dead) (hs : s' = s.reap slot t)

lemma Change.of_related {s s' : Sched}
    (htasks : SlotTable.Related (Edited op) s.tasks s'.tasks) (honly : OnlyTasks s s') :
    Change s op s' :=
  .inPlace htasks honly.nextTid (honly.mem ▸ Memory.Consumes.refl _)

lemma Change.of_modifyTask (s : Sched) (op : SchedOp) (slot : Slot)
    (hf : ∀ t, Edited op t (f t)) : Change s op (s.modifyTask slot f) :=
  .of_related (modifyTask_related s (Edited.refl op) hf slot) (modifyTask_only s f slot)

lemma Change.of_modifyCurrent (s : Sched) (op : SchedOp) (cpu : Cpu)
    (hf : ∀ t, Edited op t (f t)) : Change s op (s.modifyCurrent cpu f) :=
  .of_related (modifyCurrent_related s cpu (Edited.refl op) hf) (modifyCurrent_only s cpu f)

lemma Change.of_modifyTid (s : Sched) (op : SchedOp) (tid : Nat)
    (hf : ∀ t, Edited op t (f t)) : Change s op (s.modifyTid tid f).2 :=
  .of_related (modifyTid_related s tid (Edited.refl op) hf) (modifyTid_only s tid f)

lemma Change.refl (s : Sched) (op : SchedOp) : Change s op s :=
  .of_related (SlotTable.Related.refl (Edited.refl op) _) (OnlyTasks.refl s)

lemma Change.of_spawned {caps : BitVec 64}
    {r : Option (Except String Nat) × Sched} (h : Spawned s caps r) (hop : createsTask op = true) :
    Change s op r.2 := by
  cases h with
  | failed result mem hmem => exact .inPlace (SlotTable.Related.refl (Edited.refl op) _) rfl hmem
  | created mem slot task frame hmem hslot htid _ _ _ hstack hnew =>
    exact .placed slot task (Or.inl hslot) rfl htid rfl hstack hmem hop hnew.mailbox

lemma idle_inStack {vmmTtbr0 tid : Nat} {a : Nat} :
    ¬InStack (Task.idle vmmTtbr0 tid cpu) a := fun h => Nat.not_lt_zero a h.2

lemma scheduleNext_relatedBy {R : Task → Task → Prop} (hrefl : ∀ t, R t t)
    (htrans : ∀ t u v, R t u → R u v → R t v) (s : Sched) (cpu : Cpu) (sp : Nat)
    (hcharge : ∀ t, R t (chargeTick sp t)) (hquantum : ∀ t, R t (resetQuantum t))
    (hrun : ∀ t, R t (setRunning t)) :
    SlotTable.Related R s.tasks (s.scheduleNext cpu sp).1.tasks := by
  have hs := scheduled s cpu sp
  generalize (s.scheduleNext cpu sp).1 = s' at hs ⊢
  have hcharged (cur : Slot) : SlotTable.Related R s.tasks (s.charge cur sp).tasks :=
    SlotTable.related_modify hrefl _ _ hcharge
  have hthen {u : Sched} {f : Task → Task} (slot : Slot) (hu : SlotTable.Related R s.tasks u.tasks)
      (hf : ∀ t, R t (f t)) : SlotTable.Related R s.tasks (u.modifyTask slot f).tasks :=
    hu.trans htrans (modifyTask_related u hrefl hf slot)
  cases hs with
  | inactive => exact SlotTable.Related.refl hrefl _
  | noTask => exact SlotTable.Related.refl hrefl _
  | keeps cur => exact hcharged cur
  | stays cur => exact hthen cur (hcharged cur) hrun
  | switches cur idx reset _ _ _ _ hr =>
    have hreset : SlotTable.Related R s.tasks reset.tasks := by
      rcases hr with rfl | rfl
      · exact hcharged cur
      · exact hthen cur (hcharged cur) hquantum
    exact hthen idx hreset hrun

lemma scheduleNext_edited (s : Sched) (cpu : Cpu) (sp : Nat) (op : SchedOp) :
    SlotTable.Related (Edited op) s.tasks (s.scheduleNext cpu sp).1.tasks := by
  refine scheduleNext_relatedBy (Edited.refl op) (Edited.trans op) s cpu sp (fun t => ?_)
    (fun _ => ⟨⟨rfl, rfl, rfl, rfl, rfl⟩, fun _ => rfl⟩) fun _ => ⟨⟨rfl, rfl, rfl, rfl, rfl⟩, fun _ => rfl⟩
  unfold chargeTick
  split <;> exact ⟨⟨rfl, rfl, rfl, rfl, rfl⟩, fun _ => rfl⟩

lemma scheduleNext_related (s : Sched) (cpu : Cpu) (sp : Nat) :
    SlotTable.Related SameOwner s.tasks (s.scheduleNext cpu sp).1.tasks :=
  (scheduleNext_edited s cpu sp (.scheduleNext cpu sp)).mono fun _ _ h => h.toSameOwner

lemma scheduleNext_mem (s : Sched) (cpu : Cpu) (sp : Nat) :
    (s.scheduleNext cpu sp).1.mem = s.mem ∧ (s.scheduleNext cpu sp).1.nextTid = s.nextTid := by
  have hs := scheduled s cpu sp
  generalize (s.scheduleNext cpu sp).1 = s' at hs ⊢
  cases hs with
  | inactive => exact ⟨rfl, rfl⟩
  | noTask => exact ⟨rfl, rfl⟩
  | keeps => exact ⟨rfl, rfl⟩
  | stays => exact ⟨rfl, rfl⟩
  | switches cur idx reset _ _ _ _ hr => rcases hr with rfl | rfl <;> exact ⟨rfl, rfl⟩

lemma wakeWaiters_edited (s : Sched) (tid : Nat) (op : SchedOp) :
    SlotTable.Related (Edited op) s.tasks (s.wakeWaiters tid).tasks := by
  refine SlotTable.related_map s.tasks fun _ t => ?_
  unfold wakeWaiter
  split <;> exact ⟨⟨rfl, rfl, rfl, rfl, rfl⟩, fun _ => rfl⟩

lemma exitTask_change (s : Sched) (op : SchedOp) (cpu : Cpu) (code : Int) : Change s op (s.exitTask cpu code) := by
  have hdead := modifyCurrent_related s cpu (Edited.refl op) (f := markDead code)
    fun _ => ⟨⟨rfl, rfl, rfl, rfl, rfl⟩, fun _ => rfl⟩
  have honly := modifyCurrent_only s cpu (markDead code)
  exact .inPlace (hdead.trans (Edited.trans op) (wakeWaiters_edited _ _ op)) honly.nextTid
    (honly.mem ▸ Memory.Consumes.refl s.mem)

lemma forceExit_change (s : Sched) (op : SchedOp) (tid : Nat) (code : Int) :
    Change s op (s.forceExit tid code).2 := by
  unfold forceExit
  cases s.findTid tid with
  | none => exact .refl s op
  | some slot =>
    have hdead := modifyTask_related s (Edited.refl op) (f := markDead code)
      (fun _ => ⟨⟨rfl, rfl, rfl, rfl, rfl⟩, fun _ => rfl⟩) slot
    exact .inPlace (hdead.trans (Edited.trans op) (wakeWaiters_edited _ _ op)) rfl
      (Memory.Consumes.refl _)

lemma waitForTid_change (s : Sched) (cpu : Cpu) (tid : Nat) :
    Change s (.waitForTid cpu tid) (s.waitForTid cpu tid).2 := by
  unfold waitForTid
  cases hf : s.findTid tid with
  | none => exact .refl s _
  | some slot =>
    obtain ⟨t, ht, htid⟩ := SlotTable.find_some hf
    obtain rfl : t.tid = tid := by simpa using htid
    simp only [ht]
    split
    case isTrue hd => exact .reaped cpu slot t rfl hf ht hd rfl
    case isFalse hd => exact .of_modifyCurrent s _ cpu fun _ => ⟨⟨rfl, rfl, rfl, rfl, rfl⟩, fun _ => rfl⟩

theorem step_change (s : Sched) (op : SchedOp) : Change s op (s.step op) := by
  cases op with
  | init =>
    exact .placed 0 _ (Or.inr ⟨rfl, rfl⟩) rfl rfl rfl (fun _ h => absurd h idle_inStack)
      (Memory.Consumes.refl _) rfl rfl
  | secondaryIdleInit cpu =>
    simp only [step, secondaryIdleInit]
    split
    · exact .refl s _
    · cases hf : SlotTable.free s.tasks with
      | none => exact .refl s _
      | some slot =>
        exact .placed slot _ (Or.inl (SlotTable.free_some hf)) rfl rfl rfl
          (fun _ h => absurd h idle_inStack) (Memory.Consumes.refl _) rfl rfl
  | spawn name entry => exact .of_spawned (spawn_spawned s name entry) rfl
  | spawnUserEntryWithSegs name entry caps segs =>
    exact .of_spawned (spawnUserEntryWithSegs_spawned s name entry caps segs) rfl
  | spawnUserThread name entry userSp caps ttbr0 =>
    exact .of_spawned (spawnUserThread_spawned s name entry userSp caps ttbr0) rfl
  | scheduleNext cpu sp =>
    obtain ⟨hmem, hnext⟩ := scheduleNext_mem s cpu sp
    exact .inPlace (scheduleNext_edited s cpu sp _) hnext (fun a h => by
      rw [step, hmem] at h
      exact h)
  | setTaskSyscallFilter tid filter => exact .of_modifyTid s _ tid fun _ => ⟨⟨rfl, rfl, rfl, rfl, rfl⟩, fun _ => rfl⟩
  | sendSignal tid sig =>
    simp only [step, sendSignal]
    split
    · exact .refl s _
    · exact .of_modifyTid s _ tid fun _ => ⟨⟨rfl, rfl, rfl, rfl, rfl⟩, fun _ => rfl⟩
  | setSignalHandler cpu handler mask =>
    exact .of_modifyCurrent s _ cpu fun _ => ⟨⟨rfl, rfl, rfl, rfl, rfl⟩, fun _ => rfl⟩
  | popPendingSignal cpu =>
    simp only [step, popPendingSignal]
    split
    · exact .refl s _
    · exact .of_modifyCurrent s _ cpu fun _ => ⟨⟨rfl, rfl, rfl, rfl, rfl⟩, fun _ => rfl⟩
  | forceExit tid code => exact forceExit_change s _ tid code
  | swapSignalMask cpu mask => exact .of_modifyCurrent s _ cpu fun _ => ⟨⟨rfl, rfl, rfl, rfl, rfl⟩, fun _ => rfl⟩
  | setTaskCaps tid caps => exact .of_modifyTid s _ tid fun _ => ⟨⟨rfl, rfl, rfl, rfl, rfl⟩, fun _ => rfl⟩
  | sendMessage tid msg =>
    simp only [step, sendMessage]
    split
    · exact .refl s _
    · split
      · exact .refl s _
      · exact .of_modifyTask s _ _ fun _ => ⟨⟨rfl, rfl, rfl, rfl, rfl⟩, nofun⟩
  | recvMessage cpu =>
    simp only [step, recvMessage]
    split <;> exact .of_modifyCurrent s _ cpu fun _ => ⟨⟨rfl, rfl, rfl, rfl, rfl⟩, nofun⟩
  | tryRecvMessage cpu => exact .of_modifyCurrent s _ cpu fun _ => ⟨⟨rfl, rfl, rfl, rfl, rfl⟩, nofun⟩
  | yieldCpu cpu => exact .of_modifyCurrent s _ cpu fun _ => ⟨⟨rfl, rfl, rfl, rfl, rfl⟩, fun _ => rfl⟩
  | exitTask cpu code => exact exitTask_change s _ cpu code
  | waitForTid cpu tid => exact waitForTid_change s cpu tid
  | setAffinity tid cpu => exact .of_modifyTid s _ tid fun _ => ⟨⟨rfl, rfl, rfl, rfl, rfl⟩, fun _ => rfl⟩
  | setTaskPriority tid priority => exact .of_modifyTid s _ tid fun _ => ⟨⟨rfl, rfl, rfl, rfl, rfl⟩, fun _ => rfl⟩

lemma update_eq_some {slot i : Slot} {e : Option Task} {t : Task}
    (h : Function.update tasks slot e i = some t) :
    (i = slot ∧ e = some t) ∨ (i ≠ slot ∧ tasks i = some t) := by
  by_cases hi : i = slot
  · subst hi
    rw [update_self] at h
    exact Or.inl ⟨rfl, h⟩
  · rw [update_of_ne hi] at h
    exact Or.inr ⟨hi, h⟩

lemma placed_eq_some {slot i : Slot} {task t : Task} (h : Function.update tasks slot (some task) i = some t) :
    (i = slot ∧ task = t) ∨ (i ≠ slot ∧ tasks i = some t) :=
  (update_eq_some h).imp_left fun h => ⟨h.1, some.inj h.2⟩

lemma reap_tasks {slot i : Slot} {t u : Task} (h : (s.reap slot t).tasks i = some u) :
    i ≠ slot ∧ s.tasks i = some u := by
  rcases update_eq_some h with ⟨-, he⟩ | hold
  · simp at he
  · exact hold

structure Tids (s : Sched) : Prop where
  tid_lt : ∀ i t, s.tasks i = some t → t.tid < s.nextTid
  tid_inj : ∀ i j t u, s.tasks i = some t → s.tasks j = some u → t.tid = u.tid → i = j

namespace Tids

lemma inPlace {s s' : Sched} (h : Tids s) {R : Task → Task → Prop} (hR : ∀ t u, R t u → u.tid = t.tid)
    (htasks : ∀ i u, s'.tasks i = some u → ∃ t, s.tasks i = some t ∧ R t u)
    (hnext : s'.nextTid = s.nextTid) : Tids s' where
  tid_lt i t ht := by
    obtain ⟨u, hu, hsame⟩ := htasks i t ht
    rw [hR u t hsame, hnext]
    exact h.tid_lt i u hu
  tid_inj i j t u ht hu heq := by
    obtain ⟨t', ht', hst⟩ := htasks i t ht
    obtain ⟨u', hu', hsu⟩ := htasks j u hu
    exact h.tid_inj i j t' u' ht' hu' (by rw [← hR t' t hst, ← hR u' u hsu, heq])

lemma placed {s s' : Sched} (h : Tids s) {slot : Slot} {task : Task}
    (htasks : s'.tasks = Function.update s.tasks slot (some task)) (htid : task.tid = s.nextTid)
    (hnext : s'.nextTid = s.nextTid + 1) : Tids s' where
  tid_lt i t ht := by
    rw [htasks] at ht
    rcases placed_eq_some ht with ⟨-, rfl⟩ | ⟨-, ht⟩
    · omega
    · have := h.tid_lt i t ht
      omega
  tid_inj i j t u ht hu heq := by
    rw [htasks] at ht hu
    rcases placed_eq_some ht with ⟨hi, rfl⟩ | ⟨-, ht⟩ <;>
      rcases placed_eq_some hu with ⟨hj, rfl⟩ | ⟨-, hu⟩
    · rw [hi, hj]
    · have := h.tid_lt j u hu
      omega
    · have := h.tid_lt i t ht
      omega
    · exact h.tid_inj i j t u ht hu heq

lemma step {s : Sched} (h : Tids s) (op : SchedOp) : Tids (s.step op) := by
  have hc := step_change s op
  generalize s.step op = s' at hc ⊢
  cases hc with
  | inPlace htasks hnext =>
    exact h.inPlace (fun _ _ (hs : Edited op _ _) => hs.tid) (fun _ _ hu => htasks.of_some hu) hnext
  | placed slot task _ htasks htid hnext => exact h.placed htasks htid hnext
  | reaped cpu slot t _ _ _ _ hs =>
    subst hs
    exact h.inPlace (R := Eq) (fun _ _ heq => by rw [heq])
      (fun _ u hu => ⟨u, (reap_tasks hu).2, rfl⟩) rfl

end Tids

inductive Moves (s : Sched) : SchedOp → Sched → Prop where
  | stays (op : SchedOp) (s' : Sched) (h : s'.current = s.current) : Moves s op s'
  | init : Moves s .init s.init
  | idle (cpu : Cpu) (slot : Slot) (s' : Sched) (hslot : s.tasks slot = none)
      (htask : (s'.tasks slot).isSome = true)
      (h : s'.current = Function.update s.current cpu (some slot)) :
      Moves s (.secondaryIdleInit cpu) s'
  | switch (cpu : Cpu) (sp : Nat) (cur idx : Slot) (s' : Sched) (ha : s.active = true)
      (hc : s.current cpu = some cur) (hk : (s.tasks cur).any keepsCpu = false)
      (hready : (s.tasks idx).any (anyReady cpu) = true)
      (h : s'.current = Function.update s.current cpu (some idx)) :
      Moves s (.scheduleNext cpu sp) s'

lemma spawned_current {caps : BitVec 64} {r : Option (Except String Nat) × Sched}
    (h : Spawned s caps r) : r.2.current = s.current := by
  cases h <;> rfl

lemma scheduleNext_moves (s : Sched) (cpu : Cpu) (sp : Nat) :
    Moves s (.scheduleNext cpu sp) (s.scheduleNext cpu sp).1 := by
  have hs := scheduled s cpu sp
  generalize (s.scheduleNext cpu sp).1 = s' at hs ⊢
  cases hs with
  | inactive => exact .stays _ _ rfl
  | noTask => exact .stays _ _ rfl
  | keeps => exact .stays _ _ rfl
  | stays => exact .stays _ _ rfl
  | switches cur idx reset ha hc hk hp hr =>
    obtain ⟨-, hready, -⟩ := switches_idx hp hr
    refine .switch cpu sp cur idx _ ha hc hk hready ?_
    rcases hr with rfl | rfl <;> rfl

theorem step_moves (s : Sched) (op : SchedOp) : Moves s op (s.step op) := by
  cases op with
  | init => exact .init
  | secondaryIdleInit cpu =>
    simp only [step, secondaryIdleInit]
    split
    · exact .stays _ _ rfl
    · cases hf : SlotTable.free s.tasks with
      | none => exact .stays _ _ rfl
      | some slot => exact .idle cpu slot _ (SlotTable.free_some hf) (by simp) rfl
  | spawn name entry => exact .stays _ _ (spawned_current (spawn_spawned s name entry))
  | spawnUserEntryWithSegs name entry caps segs =>
    exact .stays _ _ (spawned_current (spawnUserEntryWithSegs_spawned s name entry caps segs))
  | spawnUserThread name entry userSp caps ttbr0 =>
    exact .stays _ _ (spawned_current (spawnUserThread_spawned s name entry userSp caps ttbr0))
  | scheduleNext cpu sp => exact scheduleNext_moves s cpu sp
  | setTaskSyscallFilter tid filter => exact .stays _ _ (modifyTid_only s tid _).current
  | sendSignal tid sig =>
    refine .stays _ _ ?_
    simp only [step, sendSignal]
    split
    · rfl
    · exact (modifyTid_only s tid _).current
  | setSignalHandler cpu handler mask => exact .stays _ _ (modifyCurrent_only s cpu _).current
  | popPendingSignal cpu =>
    refine .stays _ _ ?_
    simp only [step, popPendingSignal]
    split
    · rfl
    · exact (modifyCurrent_only s cpu _).current
  | forceExit tid code =>
    refine .stays _ _ ?_
    simp only [step, forceExit]
    split <;> rfl
  | swapSignalMask cpu mask => exact .stays _ _ (modifyCurrent_only s cpu _).current
  | setTaskCaps tid caps => exact .stays _ _ (modifyTid_only s tid _).current
  | sendMessage tid msg =>
    refine .stays _ _ ?_
    simp only [step, sendMessage]
    split
    · rfl
    · split <;> rfl
  | recvMessage cpu =>
    refine .stays _ _ ?_
    simp only [step, recvMessage]
    split <;> exact (modifyCurrent_only s cpu _).current
  | tryRecvMessage cpu => exact .stays _ _ (modifyCurrent_only s cpu _).current
  | yieldCpu cpu => exact .stays _ _ (modifyCurrent_only s cpu _).current
  | exitTask cpu code => exact .stays _ _ (modifyCurrent_only s cpu (markDead code)).current
  | waitForTid cpu tid =>
    refine .stays _ _ ?_
    simp only [step, waitForTid]
    split
    · rfl
    · split
      · rfl
      · split
        · rfl
        · exact (modifyCurrent_only s cpu _).current
  | setAffinity tid cpu => exact .stays _ _ (modifyTid_only s tid _).current
  | setTaskPriority tid priority => exact .stays _ _ (modifyTid_only s tid _).current

def touchesPages : SchedOp → Bool
  | .spawn .. | .spawnUserEntryWithSegs .. | .spawnUserThread .. | .waitForTid .. => true
  | _ => false

lemma step_mem (s : Sched) (h : touchesPages op = false) : (s.step op).mem = s.mem := by
  cases op with
  | spawn | spawnUserEntryWithSegs | spawnUserThread | waitForTid => cases h
  | init => rfl
  | secondaryIdleInit cpu =>
    simp only [step, secondaryIdleInit]
    split
    · rfl
    · cases SlotTable.free s.tasks <;> rfl
  | scheduleNext cpu sp => exact (scheduleNext_mem s cpu sp).1
  | setTaskSyscallFilter tid filter => exact (modifyTid_only s tid _).mem
  | sendSignal tid sig =>
    simp only [step, sendSignal]
    split
    · rfl
    · exact (modifyTid_only s tid _).mem
  | setSignalHandler cpu handler mask => exact (modifyCurrent_only s cpu _).mem
  | popPendingSignal cpu =>
    simp only [step, popPendingSignal]
    split
    · rfl
    · exact (modifyCurrent_only s cpu _).mem
  | forceExit tid code =>
    simp only [step, forceExit]
    split <;> rfl
  | swapSignalMask cpu mask => exact (modifyCurrent_only s cpu _).mem
  | setTaskCaps tid caps => exact (modifyTid_only s tid _).mem
  | sendMessage tid msg =>
    simp only [step, sendMessage]
    split
    · rfl
    · split <;> rfl
  | recvMessage cpu =>
    simp only [step, recvMessage]
    split <;> exact (modifyCurrent_only s cpu _).mem
  | tryRecvMessage cpu => exact (modifyCurrent_only s cpu _).mem
  | yieldCpu cpu => exact (modifyCurrent_only s cpu _).mem
  | exitTask cpu code => exact (modifyCurrent_only s cpu (markDead code)).mem
  | setAffinity tid cpu => exact (modifyTid_only s tid _).mem
  | setTaskPriority tid priority => exact (modifyTid_only s tid _).mem

lemma moved_occupied {c : Cpu} {slot : Slot}
    (hc : (s.step op).current c = some slot) (hne : (s.step op).current c ≠ s.current c) :
    ((s.step op).tasks slot).isSome = true := by
  have htarget : ∀ {s' : Sched} {cpu : Cpu} {k : Slot},
      s'.current = Function.update s.current cpu (some k) → s'.current c = some slot →
      s'.current c ≠ s.current c → k = slot := by
    intro s' cpu k hs hc' hne'
    by_cases hcpu : c = cpu
    · subst hcpu
      rw [hs, update_self] at hc'
      exact some.inj hc'
    · rw [hs, update_of_ne hcpu] at hne'
      exact absurd rfl hne'
  have hm := step_moves s op
  have hch := scheduleNext_related s
  generalize hs' : s.step op = s' at hm hc hne ⊢
  cases hm with
  | stays _ _ h => exact absurd (congrFun h c) hne
  | init =>
    obtain rfl : 0 = slot := htarget rfl hc hne
    rfl
  | idle cpu k _ _ htask h =>
    obtain rfl := htarget h hc hne
    exact htask
  | switch cpu sp cur idx _ _ _ _ hready h =>
    obtain rfl := htarget h hc hne
    obtain ⟨t, ht, -⟩ := (any_eq_true _ _).mp hready
    obtain ⟨u, hu, -⟩ := (hch cpu sp).to_some ht
    subst hs'
    exact isSome_iff_exists.mpr ⟨u, hu⟩

def smallMemory : Memory where
  pages :=
    { bitmap := fun _ => true, pageBase := 0x48000000, numPages := 4096, ramTop := 0x49000000,
      base_pos := by decide, base_aligned := by decide, fits := by decide, top_le := by decide }
  table := fun _ _ => 0

def smallBoot : Sched := Sched.boot smallMemory (fun _ => TrapFrame.fresh 0 0 0) 0x41000000

end Aeglos.Proofs
