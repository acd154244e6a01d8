import Aeglos.Proofs.Mailboxes

/-!
# Blocked tasks

A task that is Blocked waits for something that has not happened yet.
-/

namespace Aeglos.Proofs

open Sched TransitionSystem Option

variable {t : Task}

/-- The mailbox is a queue, and a task is Blocked with mail in it only in `SYS_WAIT`. -/
structure RightlyBlocked (t : Task) : Prop where
  queue : ∃ xs, Queues t.mailbox xs
  blocked : t.state = .blocked → t.mailbox.count = 0 ∨ t.waitTid.isSome = true

structure BlocksNone (t u : Task) : Prop where
  mailbox : u.mailbox = t.mailbox
  waitTid : u.waitTid = t.waitTid
  state : u.state = .blocked → t.state = .blocked

lemma BlocksNone.rightlyBlocked {t u : Task} (h : BlocksNone t u) (ht : RightlyBlocked t) : RightlyBlocked u where
  queue := by
    rw [h.mailbox]
    exact ht.queue
  blocked hb := by
    rw [h.mailbox, h.waitTid]
    exact ht.blocked (h.state hb)

lemma rightlyBlocked_of_awake {xs : List Message} (hq : Queues t.mailbox xs)
    (hstate : t.state ≠ .blocked) : RightlyBlocked t :=
  ⟨⟨xs, hq⟩, fun hb => absurd hb hstate⟩

lemma rightlyBlocked_of_new (hmail : t.mailbox = .new) : RightlyBlocked t where
  queue := ⟨[], by rw [hmail]; exact new_queues⟩
  blocked _ := by
    rw [hmail]
    exact Or.inl rfl

lemma wake_state (t : Task) : (wake t).state ≠ .blocked := by
  unfold wake
  intro h
  dsimp only at h
  split at h
  case isTrue => cases h
  case isFalse hne => exact hne h

lemma rightlyBlocked_wakeWaiter (tid : Nat) (h : RightlyBlocked t) : RightlyBlocked (wakeWaiter tid t) := by
  unfold wakeWaiter
  split
  · obtain ⟨xs, hq⟩ := h.queue
    exact rightlyBlocked_of_awake hq (fun hb => by cases hb)
  · exact h

lemma rightlyBlocked_markDead (code : Int) (h : RightlyBlocked t) : RightlyBlocked (markDead code t) := by
  obtain ⟨xs, hq⟩ := h.queue
  exact rightlyBlocked_of_awake hq (fun hb => by cases hb)

lemma rightlyBlocked_block (h : RightlyBlocked t) (hnone : t.mailbox.pop.1 = none) :
    RightlyBlocked { t with mailbox := t.mailbox.pop.2, state := .blocked } := by
  obtain ⟨xs, hq⟩ := h.queue
  obtain ⟨hfront, hrest⟩ := pop_queues hq
  obtain rfl : xs = [] := List.head?_eq_none_iff.mp (hfront.symm.trans hnone)
  exact ⟨⟨[], hrest⟩, fun _ => Or.inl hrest.length.symm⟩

lemma rightlyBlocked_pop (h : RightlyBlocked t) : RightlyBlocked { t with mailbox := t.mailbox.pop.2 } := by
  obtain ⟨xs, hq⟩ := h.queue
  obtain ⟨-, hrest⟩ := pop_queues hq
  refine ⟨⟨xs.tail, hrest⟩, fun hb => (h.blocked hb).imp_left fun hzero => ?_⟩
  have hempty : t.mailbox.pop.2 = t.mailbox := by
    unfold Mailbox.pop
    rw [if_pos hzero]
  rw [hempty]
  exact hzero

lemma scheduleNext_blocksNone (s : Sched) (cpu : Cpu) (sp : Nat) :
    SlotTable.Related BlocksNone s.tasks (s.scheduleNext cpu sp).1.tasks := by
  refine scheduleNext_relatedBy (fun t => ⟨rfl, rfl, id⟩)
    (fun t u v htu huv => ⟨huv.mailbox.trans htu.mailbox, huv.waitTid.trans htu.waitTid,
      fun hb => htu.state (huv.state hb)⟩) s cpu sp (fun t => ?_) (fun t => ⟨rfl, rfl, id⟩)
    (fun t => ⟨rfl, rfl, fun hb => by cases hb⟩)
  unfold chargeTick
  split
  · exact ⟨rfl, rfl, id⟩
  · refine ⟨rfl, rfl, fun hb => ?_⟩
    dsimp only at hb
    split at hb
    case isTrue => cases hb
    case isFalse => exact hb

def AllRightlyBlocked (s : Sched) : Prop := ∀ i t, s.tasks i = some t → RightlyBlocked t

section Steps

variable {s s' : Sched} {f : Task → Task}

lemma AllRightlyBlocked.inPlace (h : AllRightlyBlocked s)
    (hrel : SlotTable.Related (fun t u => RightlyBlocked t → RightlyBlocked u) s.tasks s'.tasks) :
    AllRightlyBlocked s' := by
  intro i u hu
  obtain ⟨t, ht, hkeep⟩ := hrel.of_some hu
  exact hkeep (h i t ht)

lemma AllRightlyBlocked.blocksNone (h : AllRightlyBlocked s)
    (hrel : SlotTable.Related BlocksNone s.tasks s'.tasks) : AllRightlyBlocked s' :=
  h.inPlace (hrel.mono fun _ _ hbn ht => hbn.rightlyBlocked ht)

lemma AllRightlyBlocked.placed (h : AllRightlyBlocked s) {slot : Slot} {task : Task} (htask : RightlyBlocked task)
    (htasks : s'.tasks = Function.update s.tasks slot (some task)) : AllRightlyBlocked s' := by
  intro i u hu
  rw [htasks] at hu
  rcases placed_eq_some hu with ⟨-, rfl⟩ | ⟨-, hu⟩
  · exact htask
  · exact h i u hu

lemma AllRightlyBlocked.spawned (h : AllRightlyBlocked s) {caps : BitVec 64}
    {r : Option (Except String Nat) × Sched} (hr : Spawned s caps r) : AllRightlyBlocked r.2 := by
  cases hr with
  | failed => exact h
  | created mem slot task frame _ _ _ _ _ _ _ hnew => exact h.placed (rightlyBlocked_of_new hnew.mailbox) rfl

lemma AllRightlyBlocked.wakeWaiters (h : AllRightlyBlocked s) (tid : Nat) : AllRightlyBlocked (s.wakeWaiters tid) :=
  h.inPlace (SlotTable.related_map s.tasks fun _ _ => rightlyBlocked_wakeWaiter tid)

lemma AllRightlyBlocked.modifyTask (h : AllRightlyBlocked s) (slot : Slot)
    (hf : ∀ t, s.tasks slot = some t → RightlyBlocked t → RightlyBlocked (f t)) : AllRightlyBlocked (s.modifyTask slot f) :=
  h.inPlace (modifyTask_related_at s (fun _ => id) slot hf)

lemma AllRightlyBlocked.modifyCurrent (h : AllRightlyBlocked s) (cpu : Cpu)
    (hf : ∀ t, s.currentTask cpu = some t → RightlyBlocked t → RightlyBlocked (f t)) :
    AllRightlyBlocked (s.modifyCurrent cpu f) :=
  h.inPlace (modifyCurrent_related_at s cpu (fun _ => id) hf)

lemma AllRightlyBlocked.modifyTid (h : AllRightlyBlocked s) (tid : Nat)
    (hf : ∀ t, RightlyBlocked t → RightlyBlocked (f t)) : AllRightlyBlocked (s.modifyTid tid f).2 :=
  h.inPlace (modifyTid_related s tid (fun _ => id) hf)

lemma AllRightlyBlocked.sendMessage (h : AllRightlyBlocked s) (tid : Nat) (msg : Message) :
    AllRightlyBlocked (s.sendMessage tid msg).2 := by
  rcases sendMessage_cases s tid msg with hfail | ⟨slot, t, mailbox, ht, -, hpush, hsend⟩
  · rw [hfail]
    exact h
  · rw [hsend]
    refine h.modifyTask slot fun u hu hrightly => ?_
    obtain rfl : t = u := some.inj (ht.symm.trans hu)
    obtain ⟨xs, hq⟩ := hrightly.queue
    exact rightlyBlocked_of_awake (push_queues hq hpush) (wake_state _)

lemma AllRightlyBlocked.recvMessage (h : AllRightlyBlocked s) (cpu : Cpu) : AllRightlyBlocked (s.recvMessage cpu).2 := by
  unfold Sched.recvMessage
  cases hm : (s.currentTask cpu).bind fun t => t.mailbox.pop.1 with
  | some msg => exact h.modifyCurrent cpu fun t _ ht => rightlyBlocked_pop ht
  | none =>
    refine h.modifyCurrent cpu fun t hcur ht => rightlyBlocked_block ht ?_
    rw [hcur, bind_some] at hm
    exact hm

lemma AllRightlyBlocked.waitForTid (h : AllRightlyBlocked s) (cpu : Cpu) (tid : Nat) :
    AllRightlyBlocked (s.waitForTid cpu tid).2 := by
  unfold Sched.waitForTid
  cases s.findTid tid with
  | none => exact h
  | some slot =>
    dsimp only
    cases s.tasks slot with
    | none => exact h
    | some t =>
      dsimp only
      split
      · exact fun i u hu => h i u (reap_tasks hu).2
      · exact h.modifyCurrent cpu fun u _ hu => ⟨hu.queue, fun _ => Or.inr rfl⟩

end Steps

lemma step_allRightlyBlocked (s : Sched) (op : SchedOp) (h : AllRightlyBlocked s) : AllRightlyBlocked (s.step op) := by
  cases op with
  | init => exact h.placed (rightlyBlocked_of_new rfl) rfl
  | secondaryIdleInit cpu =>
    simp only [step, secondaryIdleInit]
    split
    · exact h
    · cases SlotTable.free s.tasks with
      | none => exact h
      | some slot => exact h.placed (rightlyBlocked_of_new rfl) rfl
  | spawn name entry => exact h.spawned (spawn_spawned s name entry)
  | spawnUserEntryWithSegs name entry caps segs =>
    exact h.spawned (spawnUserEntryWithSegs_spawned s name entry caps segs)
  | spawnUserThread name entry userSp caps ttbr0 =>
    exact h.spawned (spawnUserThread_spawned s name entry userSp caps ttbr0)
  | scheduleNext cpu sp => exact h.blocksNone (scheduleNext_blocksNone s cpu sp)
  | sendSignal tid sig =>
    simp only [step, sendSignal]
    split
    · exact h
    · refine h.modifyTid tid fun t ht => ?_
      obtain ⟨xs, hq⟩ := ht.queue
      exact rightlyBlocked_of_awake hq (wake_state _)
  | popPendingSignal cpu =>
    simp only [step, popPendingSignal]
    split
    · exact h
    · exact h.modifyCurrent cpu fun t _ ht => ⟨ht.queue, ht.blocked⟩
  | forceExit tid code =>
    simp only [step, forceExit]
    cases s.findTid tid with
    | none => exact h
    | some slot => exact (h.modifyTask slot fun t _ ht => rightlyBlocked_markDead code ht).wakeWaiters tid
  | exitTask cpu code =>
    exact (h.modifyCurrent cpu fun t _ ht => rightlyBlocked_markDead code ht).wakeWaiters (s.currentTid cpu)
  | sendMessage tid msg => exact h.sendMessage tid msg
  | recvMessage cpu => exact h.recvMessage cpu
  | tryRecvMessage cpu => exact h.modifyCurrent cpu fun t _ ht => rightlyBlocked_pop ht
  | yieldCpu cpu =>
    refine h.modifyCurrent cpu fun t _ ht => ?_
    obtain ⟨xs, hq⟩ := ht.queue
    exact rightlyBlocked_of_awake hq (fun hb => by cases hb)
  | waitForTid cpu tid => exact h.waitForTid cpu tid
  | setSignalHandler cpu | swapSignalMask cpu =>
    exact h.modifyCurrent cpu fun t _ ht => ⟨ht.queue, ht.blocked⟩
  | setTaskSyscallFilter tid | setTaskCaps tid | setAffinity tid | setTaskPriority tid =>
    exact h.modifyTid tid fun t ht => ⟨ht.queue, ht.blocked⟩

/-- In every run from boot, whatever the operations and their order on the CPUs, a Blocked
task has no mail or waits for a task. -/
theorem no_lost_wakeup (mem : Memory) (frames : Nat → TrapFrame) (vmmTtbr0 : Nat)
    (ops : List SchedOp) (i : Slot) (t : Task)
    (ht : (run Sched.step (Sched.boot mem frames vmmTtbr0) ops).tasks i = some t)
    (hblocked : t.state = .blocked) :
    t.mailbox.queued = [] ∧ t.mailbox.count = 0 ∨ ∃ target, t.waitTid = some target := by
  have hboot : AllRightlyBlocked (Sched.boot mem frames vmmTtbr0) := fun i t ht => by
    simp [Sched.boot] at ht
  have hrun : AllRightlyBlocked (run Sched.step (Sched.boot mem frames vmmTtbr0) ops) :=
    run_preserves step_allRightlyBlocked hboot ops
  rcases (hrun i t ht).blocked hblocked with hempty | hwait
  · refine Or.inl ⟨?_, hempty⟩
    rw [Mailbox.queued, hempty]
    rfl
  · exact Or.inr (isSome_iff_exists.mp hwait)

def receivingRun : List SchedOp := [.init, .spawn [] 0, .scheduleNext 0 0, .recvMessage 0]

theorem no_lost_wakeup_receiving :
    ∃ t, (run Sched.step smallBoot receivingRun).tasks 1 = some t ∧ t.state = .blocked ∧
      (t.mailbox.queued = [] ∧ t.mailbox.count = 0 ∨ ∃ target, t.waitTid = some target) := by
  have hslot : ((run Sched.step smallBoot receivingRun).tasks 1).any (fun t => t.state == .blocked) =
      true := by decide +kernel
  obtain ⟨t, ht, hstate⟩ := (any_eq_true _ _).mp hslot
  have hblocked : t.state = .blocked := beq_iff_eq.mp hstate
  refine ⟨t, ht, hblocked, ?_⟩
  rw [smallBoot] at ht
  exact no_lost_wakeup smallMemory _ _ receivingRun 1 t ht hblocked

end Aeglos.Proofs
