import Aeglos.Proofs.SchedulerSteps

/-!
# When death is final

A Dead task should stay Dead until a wait empties its slot.
-/

namespace Aeglos.Proofs

open Sched TransitionSystem Option

def DeadAt (s : Sched) (i : Slot) (tid : Nat) : Prop :=
  SlotTable.Holds s.tasks i fun t => t.tid = tid ∧ t.state = .dead

def DeadWaiter (s : Sched) (tid : Nat) : Prop :=
  ∃ i, (s.tasks i).any (fun t => isDead t && t.waitTid == some tid) = true

def OnDead (s : Sched) (cpu : Cpu) : Prop := (s.currentTask cpu).any isDead = true

def KeepsDead (s : Sched) : SchedOp → Prop
  | .init => (s.tasks 0).any isDead = false
  | .scheduleNext cpu _ => s.active = true → OnDead s cpu →
      ∃ j, s.current cpu ≠ some j ∧ (s.tasks j).any (anyReady cpu) = true
  | .recvMessage cpu => OnDead s cpu →
      ((s.currentTask cpu).bind fun t => t.mailbox.pop.1).isSome = true
  | .yieldCpu cpu => ¬OnDead s cpu
  | .exitTask cpu _ => ¬DeadWaiter s (s.currentTid cpu)
  | .forceExit tid _ => (s.findTid tid).isSome = true → ¬DeadWaiter s tid
  | .waitForTid cpu tid => OnDead s cpu → ∀ i, s.findTid tid = some i → (s.tasks i).any isDead = true
  | _ => True

instance (s : Sched) (op : SchedOp) : Decidable (KeepsDead s op) := by
  unfold KeepsDead OnDead DeadWaiter
  split <;> infer_instance

def FreedByWait (s : Sched) (op : SchedOp) (i : Slot) : Prop :=
  (∃ cpu tid, op = .waitForTid cpu tid) ∧ (s.step op).tasks i = none

section Steps

variable {s : Sched} {i : Slot} {tid : Nat} {f : Task → Task} {cpu : Cpu}

lemma deadAt_any (h : DeadAt s i tid) : (s.tasks i).any isDead = true := by
  obtain ⟨t, ht, -, hdead⟩ := h
  simp [ht, isDead, hdead]

lemma deadAt_of_any (h : (s.tasks i).any isDead = true) : ∃ tid, DeadAt s i tid := by
  obtain ⟨t, ht, hdead⟩ := (any_eq_true _ _).mp h
  exact ⟨t.tid, t, ht, rfl, by simpa [isDead] using hdead⟩

lemma onDead_slot (h : OnDead s cpu) : ∃ slot tid, s.current cpu = some slot ∧ DeadAt s slot tid := by
  unfold OnDead currentTask at h
  cases hc : s.current cpu with
  | none => simp [hc] at h
  | some slot =>
    obtain ⟨tid, hdead⟩ := deadAt_of_any (s := s) (i := slot) (by simpa [hc] using h)
    exact ⟨slot, tid, rfl, hdead⟩

lemma onDead_of_slot (hc : s.current cpu = some i) (h : DeadAt s i tid) : OnDead s cpu := by
  unfold OnDead currentTask
  rw [hc]
  exact deadAt_any h

lemma DeadAt.modifyTask (h : DeadAt s i tid) (slot : Slot)
    (htid : ∀ t, (f t).tid = t.tid) (hstate : ∀ t, t.state = .dead → (f t).state = .dead) :
    DeadAt (s.modifyTask slot f) i tid :=
  SlotTable.Holds.modify h slot fun t ht => ⟨(htid t).trans ht.1, hstate t ht.2⟩

lemma DeadAt.modifyCurrent (h : DeadAt s i tid) (cpu : Cpu)
    (htid : ∀ t, (f t).tid = t.tid) (hstate : ∀ t, t.state = .dead → (f t).state = .dead) :
    DeadAt (s.modifyCurrent cpu f) i tid := by
  unfold Sched.modifyCurrent
  split
  · exact h
  · exact h.modifyTask _ htid hstate

lemma DeadAt.modifyTid (h : DeadAt s i tid) (target : Nat)
    (htid : ∀ t, (f t).tid = t.tid) (hstate : ∀ t, t.state = .dead → (f t).state = .dead) :
    DeadAt (s.modifyTid target f).2 i tid := by
  unfold Sched.modifyTid
  split
  · exact h
  · exact h.modifyTask _ htid hstate

lemma DeadAt.of_tasks {s' : Sched} (h : DeadAt s i tid) (heq : s'.tasks = s.tasks) : DeadAt s' i tid := by
  unfold DeadAt
  rw [heq]
  exact h

lemma DeadAt.modifyTask_of_ne (h : DeadAt s i tid) {slot : Slot} (hne : i ≠ slot)
    (f : Task → Task) : DeadAt (s.modifyTask slot f) i tid := by
  obtain ⟨t, ht, hP⟩ := h
  exact ⟨t, (SlotTable.modify_of_ne _ hne f).trans ht, hP⟩

lemma DeadAt.modifyCurrent_of_ne (h : DeadAt s i tid) (hne : s.current cpu ≠ some i)
    (f : Task → Task) : DeadAt (s.modifyCurrent cpu f) i tid := by
  obtain ⟨t, ht, hP⟩ := h
  exact ⟨t, by rw [modifyCurrent_tasks, if_neg hne, ht], hP⟩

lemma not_deadAt_modifyCurrent (hc : s.current cpu = some i)
    (hf : ∀ t, (f t).state ≠ .dead) : ¬DeadAt (s.modifyCurrent cpu f) i tid := by
  rintro ⟨t, ht, -, hdead⟩
  rw [modifyCurrent_tasks, if_pos hc, map_eq_some_iff] at ht
  obtain ⟨u, -, rfl⟩ := ht
  exact hf u hdead

lemma DeadAt.charge (h : DeadAt s i tid) (cur : Slot) (sp : Nat) : DeadAt (s.charge cur sp) i tid := by
  refine SlotTable.Holds.modify h cur fun t ht => ?_
  unfold chargeTick
  split
  · exact ht
  · exact ⟨ht.1, by simp [ht.2]⟩

lemma wakeWaiters_deadAt (h : DeadAt s i tid) (target : Nat) :
    DeadAt (s.wakeWaiters target) i tid ↔
      (s.tasks i).any (fun t => isDead t && t.waitTid == some target) = false := by
  obtain ⟨t, ht, htid, hdead⟩ := h
  simp only [DeadAt, SlotTable.Holds, wakeWaiters, ht, map_some, Option.some.injEq,
    exists_eq_left', wakeWaiter, any_some, isDead, hdead, beq_self_eq_true, Bool.true_and]
  by_cases hw : t.waitTid = some target
  · simp [hw]
  · simp [hw, htid, hdead]

lemma not_deadAt_of_ready (h : (s.tasks i).any (anyReady cpu) = true) : ¬DeadAt s i tid := by
  rintro ⟨t, ht, -, hdead⟩
  simp [ht, anyReady, hdead] at h

lemma scheduleNext_deadAt (h : DeadAt s i tid) (cpu : Cpu) (sp : Nat)
    (hk : KeepsDead s (.scheduleNext cpu sp)) : DeadAt (s.scheduleNext cpu sp).1 i tid := by
  have hs := scheduled s cpu sp
  generalize (s.scheduleNext cpu sp).1 = s' at hs ⊢
  cases hs with
  | inactive => exact h
  | noTask => exact h.of_tasks rfl
  | keeps cur => exact h.charge cur sp
  | stays cur ha hc _ hp =>
    have hne : i ≠ cur := by
      rintro rfl
      obtain ⟨j, hj, hready⟩ := hk ha (onDead_of_slot hc h)
      have hji : j ≠ i := fun e => hj (e ▸ hc)
      have hnone := pickNext_none.mp hp j hji
      rw [charge_tasks_of_ne hji] at hnone
      simp [hnone] at hready
    exact (h.charge cur sp).modifyTask_of_ne hne _
  | switches cur idx reset _ _ _ hp hr =>
    obtain ⟨-, hready, -⟩ := switches_idx hp hr
    have hne : i ≠ idx := by
      rintro rfl
      exact not_deadAt_of_ready hready h
    have hreset : DeadAt reset i tid := by
      rcases hr with rfl | rfl
      · exact h.charge cur sp
      · exact (h.charge cur sp).modifyTask cur (fun _ => rfl) (fun _ ht => ht)
    exact (hreset.modifyTask_of_ne hne setRunning).of_tasks rfl

lemma scheduleNext_revives {sp : Nat} (hk : ¬KeepsDead s (.scheduleNext cpu sp)) :
    ∃ i tid, DeadAt s i tid ∧ ¬DeadAt (s.scheduleNext cpu sp).1 i tid := by
  simp only [KeepsDead, Classical.not_imp, not_exists, not_and] at hk
  obtain ⟨ha, hon, hnone⟩ := hk
  obtain ⟨cur, tid, hc, hdead⟩ := onDead_slot hon
  refine ⟨cur, tid, hdead, ?_⟩
  have hkeep : (s.tasks cur).any keepsCpu = false := by
    obtain ⟨t, ht, -, hst⟩ := hdead
    simp [ht, keepsCpu, hst]
  have hpick : pickNext (s.charge cur sp).tasks cpu cur = none := by
    refine pickNext_none.mpr fun j hj => ?_
    rw [charge_tasks_of_ne hj]
    exact Bool.eq_false_iff.mpr (hnone j fun e => hj (some.inj (e.symm.trans hc)))
  have hout : (s.scheduleNext cpu sp).1 = (s.charge cur sp).modifyTask cur setRunning := by
    simp [scheduleNext, ha, hc, hkeep, hpick]
  rw [hout]
  rintro ⟨t, ht, -, hst⟩
  rw [modifyTask_tasks, SlotTable.modify_self, map_eq_some_iff] at ht
  obtain ⟨u, -, rfl⟩ := ht
  simp [setRunning] at hst

lemma init_deadAt_iff : KeepsDead s .init ↔ ∀ i tid, DeadAt s i tid → DeadAt s.init i tid := by
  constructor
  · intro hk i tid h
    have hi : i ≠ 0 := by
      rintro rfl
      simp [KeepsDead, deadAt_any h] at hk
    obtain ⟨t, ht, hP⟩ := h
    exact ⟨t, by simp [init, hi, ht], hP⟩
  · intro h
    by_contra hk
    simp only [KeepsDead, Bool.not_eq_false] at hk
    obtain ⟨tid, hdead⟩ := deadAt_of_any hk
    obtain ⟨t, ht, -, hst⟩ := h 0 tid hdead
    obtain rfl : Task.idle s.vmmTtbr0 s.nextTid 0 = t := by simpa [init] using ht
    simp [Task.idle] at hst

lemma yieldCpu_deadAt_iff (cpu : Cpu) :
    KeepsDead s (.yieldCpu cpu) ↔ ∀ i tid, DeadAt s i tid → DeadAt (s.yieldCpu cpu) i tid := by
  constructor
  · intro hk i tid h
    exact h.modifyCurrent_of_ne (fun hc => hk (onDead_of_slot hc h)) _
  · intro h hon
    obtain ⟨slot, tid, hc, hdead⟩ := onDead_slot hon
    exact not_deadAt_modifyCurrent hc (fun t => by simp) (h slot tid hdead)

lemma recvMessage_deadAt_iff (cpu : Cpu) :
    KeepsDead s (.recvMessage cpu) ↔
      ∀ i tid, DeadAt s i tid → DeadAt (s.recvMessage cpu).2 i tid := by
  unfold recvMessage
  cases hm : (s.currentTask cpu).bind fun t => t.mailbox.pop.1 with
  | some msg =>
    have hkeep : ∀ i tid, DeadAt s i tid → DeadAt (s.modifyCurrent cpu fun t =>
        { t with mailbox := t.mailbox.pop.2 }) i tid :=
      fun i tid h => h.modifyCurrent cpu (fun _ => rfl) (fun _ ht => ht)
    exact ⟨fun _ => hkeep, fun _ _ => by rw [hm]; rfl⟩
  | none =>
    constructor
    · intro hk i tid h
      refine h.modifyCurrent_of_ne (fun hc => ?_) _
      have := hk (onDead_of_slot hc h)
      simp [hm] at this
    · intro h hon
      obtain ⟨slot, tid, hc, hdead⟩ := onDead_slot hon
      exact absurd (h slot tid hdead) (not_deadAt_modifyCurrent hc fun t => by simp)

lemma exit_deadAt_iff (dead : Sched) {target : Nat}
    (hdead : ∀ i tid, DeadAt s i tid → DeadAt dead i tid)
    (hwait : ∀ i, (dead.tasks i).map Task.waitTid = (s.tasks i).map Task.waitTid) :
    ¬DeadWaiter s target ↔ ∀ i tid, DeadAt s i tid → DeadAt (dead.wakeWaiters target) i tid := by
  have hsame : ∀ i tid, DeadAt s i tid →
      (dead.tasks i).any (fun t => isDead t && t.waitTid == some target) =
        (s.tasks i).any (fun t => isDead t && t.waitTid == some target) := by
    intro i tid h
    have hi := hwait i
    obtain ⟨u, hu, -, hust⟩ := hdead i tid h
    obtain ⟨t, ht, -, hst⟩ := h
    rw [hu, ht, map_some, map_some, Option.some.injEq] at hi
    simp [hu, ht, isDead, hust, hst, hi]
  constructor
  · intro hk i tid h
    rw [wakeWaiters_deadAt (hdead i tid h), hsame i tid h]
    exact Bool.eq_false_iff.mpr fun hw => hk ⟨i, hw⟩
  · rintro h ⟨i, hw⟩
    obtain ⟨t, ht, htw⟩ := (any_eq_true _ _).mp hw
    have hd : DeadAt s i t.tid := ⟨t, ht, rfl, by simp_all [isDead]⟩
    have hkept := (wakeWaiters_deadAt (hdead i _ hd) target).mp (h i _ hd)
    rw [hsame i _ hd, hw] at hkept
    exact absurd hkept (by decide)

lemma map_waitTid_modifyTask (slot : Slot) (hf : ∀ t, (f t).waitTid = t.waitTid)
    (i : Slot) : ((s.modifyTask slot f).tasks i).map Task.waitTid = (s.tasks i).map Task.waitTid := by
  rw [modifyTask_tasks]
  by_cases hi : i = slot
  · subst hi
    rw [SlotTable.modify_self, map_map]
    exact congrArg (Option.map · (s.tasks i)) (funext hf)
  · rw [SlotTable.modify_of_ne _ hi]

lemma exitTask_deadAt_iff (cpu : Cpu) (code : Int) :
    KeepsDead s (.exitTask cpu code) ↔
      ∀ i tid, DeadAt s i tid → DeadAt (s.exitTask cpu code) i tid := by
  refine exit_deadAt_iff (s.modifyCurrent cpu (markDead code))
    (fun i tid h => h.modifyCurrent cpu (fun _ => rfl) (fun _ _ => rfl)) fun i => ?_
  unfold Sched.modifyCurrent
  split
  · rfl
  · exact map_waitTid_modifyTask (f := markDead code) _ (fun _ => rfl) i

lemma forceExit_deadAt_iff (target : Nat) (code : Int) :
    KeepsDead s (.forceExit target code) ↔
      ∀ i tid, DeadAt s i tid → DeadAt (s.forceExit target code).2 i tid := by
  simp only [forceExit, KeepsDead]
  cases hf : s.findTid target with
  | none => exact ⟨fun _ _ _ h => h, fun _ hsome => by simp at hsome⟩
  | some slot =>
    simp only [isSome_some, forall_const]
    exact exit_deadAt_iff (s.modifyTask slot (markDead code))
      (fun i tid h => h.modifyTask slot (fun _ => rfl) (fun _ _ => rfl))
      (map_waitTid_modifyTask slot fun _ => rfl)

lemma waitForTid_deadAt_iff (cpu : Cpu) (target : Nat) :
    KeepsDead s (.waitForTid cpu target) ↔ ∀ i tid, DeadAt s i tid →
      DeadAt (s.waitForTid cpu target).2 i tid ∨ (s.waitForTid cpu target).2.tasks i = none := by
  simp only [waitForTid, KeepsDead]
  cases hf : s.findTid target with
  | none => exact ⟨fun _ _ _ h => Or.inl h, fun _ _ _ h => by simp at h⟩
  | some slot =>
    obtain ⟨t, ht, -⟩ := SlotTable.find_some hf
    simp only [ht, Option.some.injEq, forall_eq', any_some, isDead]
    by_cases hd : t.state = .dead
    · rw [if_pos hd]
      refine ⟨fun _ i tid h => ?_, fun _ _ => by simp [hd]⟩
      by_cases hi : i = slot
      · subst hi
        exact Or.inr (by simp [reap])
      · obtain ⟨u, hu, hP⟩ := h
        exact Or.inl ⟨u, by simp [reap, hi, hu], hP⟩
    · rw [if_neg hd]
      constructor
      · intro hk i tid h
        refine Or.inl (h.modifyCurrent_of_ne (fun hc => hd ?_) _)
        simpa using hk (onDead_of_slot hc h)
      · intro h hon
        obtain ⟨cur, tid, hc, hdead⟩ := onDead_slot hon
        rcases h cur tid hdead with hk | hk
        · exact absurd hk (not_deadAt_modifyCurrent hc fun t => by simp)
        · obtain ⟨u, hu, -⟩ := hdead
          rw [modifyCurrent_tasks, if_pos hc, hu] at hk
          simp at hk

lemma spawned_deadAt (h : DeadAt s i tid) {caps : BitVec 64}
    {r : Option (Except String Nat) × Sched} (hr : Spawned s caps r) : DeadAt r.2 i tid := by
  cases hr with
  | failed => exact h.of_tasks rfl
  | created mem slot task frame _ hslot => exact SlotTable.Holds.update_of_none h hslot _

end Steps

lemma keepsDead_iff_of_not_wait {s : Sched} {op : SchedOp}
    (hw : ∀ cpu tid, op ≠ .waitForTid cpu tid)
    (h : KeepsDead s op ↔ ∀ i tid, DeadAt s i tid → DeadAt (s.step op) i tid) :
    KeepsDead s op ↔ ∀ i tid, DeadAt s i tid → DeadAt (s.step op) i tid ∨ FreedByWait s op i := by
  rw [h]
  refine ⟨fun hk i tid hd => Or.inl (hk i tid hd), fun hk i tid hd => ?_⟩
  rcases hk i tid hd with hdead | ⟨⟨cpu, target, rfl⟩, -⟩
  · exact hdead
  · exact absurd rfl (hw cpu target)

theorem step_keepsDead_iff (s : Sched) (op : SchedOp) :
    KeepsDead s op ↔
      ∀ i tid, DeadAt s i tid → DeadAt (s.step op) i tid ∨ FreedByWait s op i := by
  have harmless : ∀ op', KeepsDead s op' → (∀ cpu tid, op' ≠ .waitForTid cpu tid) →
      (∀ i tid, DeadAt s i tid → DeadAt (s.step op') i tid) →
      (KeepsDead s op' ↔
        ∀ i tid, DeadAt s i tid → DeadAt (s.step op') i tid ∨ FreedByWait s op' i) :=
    fun op' hk hw hd => keepsDead_iff_of_not_wait hw ⟨fun _ => hd, fun _ => hk⟩
  cases op with
  | init => exact keepsDead_iff_of_not_wait (by simp) init_deadAt_iff
  | secondaryIdleInit cpu =>
    refine harmless _ trivial (by simp) fun i tid h => ?_
    simp only [step, secondaryIdleInit]
    split
    · exact h
    · cases hf : SlotTable.free s.tasks with
      | none => exact h
      | some slot => exact SlotTable.Holds.update_of_none h (SlotTable.free_some hf) _
  | spawn name entry =>
    exact harmless _ trivial (by simp) fun i tid h =>
      spawned_deadAt h (spawn_spawned s name entry)
  | spawnUserEntryWithSegs name entry caps segs =>
    exact harmless _ trivial (by simp) fun i tid h =>
      spawned_deadAt h (spawnUserEntryWithSegs_spawned s name entry caps segs)
  | spawnUserThread name entry userSp caps ttbr0 =>
    exact harmless _ trivial (by simp) fun i tid h =>
      spawned_deadAt h (spawnUserThread_spawned s name entry userSp caps ttbr0)
  | scheduleNext cpu sp =>
    refine keepsDead_iff_of_not_wait (by simp) ⟨fun hk i tid h => ?_, fun h => ?_⟩
    · exact scheduleNext_deadAt h cpu sp hk
    · by_contra hk
      obtain ⟨i, tid, hd, hnot⟩ := scheduleNext_revives hk
      exact hnot (h i tid hd)
  | setTaskSyscallFilter tid filter =>
    exact harmless _ trivial (by simp) fun i _ h => h.modifyTid tid (fun _ => rfl) (fun _ ht => ht)
  | sendSignal tid sig =>
    refine harmless _ trivial (by simp) fun i _ h => ?_
    simp only [step, sendSignal]
    split
    · exact h
    · exact h.modifyTid tid (fun _ => rfl) (fun _ ht => by simp [wake, ht])
  | setSignalHandler cpu handler mask =>
    exact harmless _ trivial (by simp) fun i _ h =>
      h.modifyCurrent cpu (fun _ => rfl) (fun _ ht => ht)
  | popPendingSignal cpu =>
    refine harmless _ trivial (by simp) fun i _ h => ?_
    simp only [step, popPendingSignal]
    split
    · exact h
    · exact h.modifyCurrent cpu (fun _ => rfl) (fun _ ht => ht)
  | forceExit tid code => exact keepsDead_iff_of_not_wait (by simp) (forceExit_deadAt_iff tid code)
  | swapSignalMask cpu mask =>
    exact harmless _ trivial (by simp) fun i _ h =>
      h.modifyCurrent cpu (fun _ => rfl) (fun _ ht => ht)
  | setTaskCaps tid caps =>
    exact harmless _ trivial (by simp) fun i _ h => h.modifyTid tid (fun _ => rfl) (fun _ ht => ht)
  | sendMessage tid msg =>
    refine harmless _ trivial (by simp) fun i _ h => ?_
    simp only [step, sendMessage]
    split
    · exact h
    · split
      · exact h
      · exact h.modifyTask _ (fun _ => rfl) (fun _ ht => by simp [wake, ht])
  | recvMessage cpu => exact keepsDead_iff_of_not_wait (by simp) (recvMessage_deadAt_iff cpu)
  | tryRecvMessage cpu =>
    exact harmless _ trivial (by simp) fun i _ h =>
      h.modifyCurrent cpu (fun _ => rfl) (fun _ ht => ht)
  | yieldCpu cpu => exact keepsDead_iff_of_not_wait (by simp) (yieldCpu_deadAt_iff cpu)
  | exitTask cpu code => exact keepsDead_iff_of_not_wait (by simp) (exitTask_deadAt_iff cpu code)
  | waitForTid cpu tid =>
    rw [waitForTid_deadAt_iff cpu tid]
    simp only [step, FreedByWait]
    simp
  | setAffinity tid cpu =>
    exact harmless _ trivial (by simp) fun i _ h => h.modifyTid tid (fun _ => rfl) (fun _ ht => ht)
  | setTaskPriority tid priority =>
    exact harmless _ trivial (by simp) fun i _ h => h.modifyTid tid (fun _ => rfl) (fun _ ht => ht)

/-- After the operations the task is still Dead in its slot, unless a wait among them has
found it Dead there and emptied the slot. -/
def DeadUntilFreed (s : Sched) (ops : List SchedOp) (i : Slot) (tid : Nat) : Prop :=
  DeadAt (run Sched.step s ops) i tid ∨
    ∃ pre op post, ops = pre ++ op :: post ∧ DeadAt (run Sched.step s pre) i tid ∧
      FreedByWait (run Sched.step s pre) op i

/-- Death is final in a run, from any state and for every stretch of it, exactly when every
operation meets `KeepsDead`. -/
theorem death_final_iff (s : Sched) (ops : List SchedOp) :
    Guarded Sched.step KeepsDead s ops ↔
      ∀ before during after, ops = before ++ during ++ after →
        ∀ i tid, DeadAt (run Sched.step s before) i tid →
          DeadUntilFreed (run Sched.step s before) during i tid := by
  constructor
  · rintro hg before during after rfl i tid hdead
    rw [List.append_assoc, guarded_append, guarded_append] at hg
    exact run_until (P := fun s => DeadAt s i tid) (E := fun s op => FreedByWait s op i)
      (fun s op hd hk => (step_keepsDead_iff s op).mp hk i tid hd) hdead hg.2.1
  · intro h
    rw [guarded_iff]
    rintro before op after rfl
    rw [step_keepsDead_iff]
    intro i tid hdead
    rcases h before [op] after (by simp) i tid hdead with hd | ⟨pre, op', post, heq, -, hfreed⟩
    · exact Or.inl hd
    · obtain ⟨rfl, h'⟩ | ⟨_, rfl, h'⟩ := List.cons_eq_append_iff.mp heq
      · obtain ⟨rfl, -⟩ := List.cons.inj h'
        exact Or.inr hfreed
      · simp at h'

/-- Task 1 waits for task 2, is killed while it waits, and is Ready again as soon as task 2
exits: its `wait_tid` outlived it. -/
theorem waiting_task_revived :
    let ops := [.init, .spawn [0x61] 0x1000, .spawn [0x62] 0x2000, .scheduleNext 0 0x9000,
      .waitForTid 0 2, .scheduleNext 0 0x9100, .forceExit 1 (-9)]
    let killed := run Sched.step smallBoot ops
    (killed.tasks 1).map (fun t => (t.tid, t.state)) = some (1, .dead) ∧
      ((killed.exitTask 0 0).tasks 1).map (fun t => (t.tid, t.state)) = some (1, .ready) ∧
      ((killed.exitTask 0 0).scheduleNext 0 0x9200).1.current 0 = some 1 := by
  decide +kernel

end Aeglos.Proofs
