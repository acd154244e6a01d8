import Aeglos.Proofs.SchedulerSteps

/-!
# The tasks that CPUs are on

Two properties of `CURRENT` over every interleaving of the scheduler's critical sections.
-/

namespace Aeglos.Proofs

open Sched TransitionSystem Option Function

variable {slot : Slot} {s : Sched}

def Exclusive (s : Sched) : Prop := ∀ c c' slot, s.current c = some slot → s.current c' = some slot → c = c'

def Reschedules (s : Sched) (cpu : Cpu) : Prop :=
  s.active = true ∧ ∃ cur, s.current cpu = some cur ∧ (s.tasks cur).any keepsCpu = false

/-- No CPU takes a slot that another CPU is on: the boot steps find it occupied, and
`schedule_next` does not find its task Ready for this CPU. -/
def TakesNoForeignSlot (s : Sched) : SchedOp → Prop
  | .init => ∀ c, c ≠ 0 → s.current c ≠ some 0
  | .secondaryIdleInit cpu => ∀ c slot, c ≠ cpu → s.current c = some slot → (s.tasks slot).isSome = true
  | .scheduleNext cpu _ => Reschedules s cpu → ∀ c slot, c ≠ cpu → s.current c = some slot →
      (s.tasks slot).any (anyReady cpu) = false
  | _ => True

instance (s : Sched) : DecidablePred (TakesNoForeignSlot s)
  | .init => inferInstanceAs (Decidable (∀ c, c ≠ 0 → s.current c ≠ some 0))
  | .secondaryIdleInit cpu =>
    inferInstanceAs (Decidable (∀ c slot, c ≠ cpu → s.current c = some slot →
      (s.tasks slot).isSome = true))
  | .scheduleNext cpu _ =>
    inferInstanceAs (Decidable ((s.active = true ∧ ∃ cur, s.current cpu = some cur ∧
        (s.tasks cur).any keepsCpu = false) → ∀ c slot, c ≠ cpu → s.current c = some slot →
      (s.tasks slot).any (anyReady cpu) = false))
  | .spawn .. | .spawnUserEntryWithSegs .. | .spawnUserThread .. | .setTaskSyscallFilter ..
  | .sendSignal .. | .setSignalHandler .. | .popPendingSignal .. | .forceExit .. | .swapSignalMask ..
  | .setTaskCaps .. | .sendMessage .. | .recvMessage .. | .tryRecvMessage .. | .yieldCpu ..
  | .exitTask .. | .waitForTid .. | .setAffinity .. | .setTaskPriority .. => instDecidableTrue

lemma Exclusive.update {s s' : Sched} (h : Exclusive s) {cpu : Cpu}
    (hfree : ∀ c, c ≠ cpu → s.current c ≠ some slot)
    (hs : s'.current = Function.update s.current cpu (some slot)) : Exclusive s' := by
  have hold : ∀ c, c ≠ cpu → s'.current c = s.current c := fun c hc => by
    rw [hs, update_of_ne hc]
  have hnew : s'.current cpu = some slot := by rw [hs, update_self]
  intro c c' k hc hc'
  by_cases h1 : c = cpu
  · subst h1
    obtain rfl : slot = k := some.inj (hnew.symm.trans hc)
    by_contra hne
    exact hfree c' (Ne.symm hne) (hold c' (Ne.symm hne) ▸ hc')
  · by_cases h2 : c' = cpu
    · subst h2
      obtain rfl : slot = k := some.inj (hnew.symm.trans hc')
      exact absurd (hold c h1 ▸ hc) (hfree c h1)
    · exact h c c' k (hold c h1 ▸ hc) (hold c' h2 ▸ hc')

lemma step_exclusive (s : Sched) (op : SchedOp) (h : Exclusive s) (hop : TakesNoForeignSlot s op) :
    Exclusive (s.step op) := by
  have hm := step_moves s op
  generalize hs' : s.step op = s' at hm ⊢
  cases hm with
  | stays _ _ hcur =>
    intro c c' slot hc hc'
    rw [hcur] at hc hc'
    exact h c c' slot hc hc'
  | init => exact h.update (hop ·) rfl
  | idle cpu slot _ hslot _ hcur =>
    refine h.update (fun c hc hcs => ?_) hcur
    have := hop c slot hc hcs
    simp [hslot] at this
  | switch cpu sp cur idx _ ha hc hk hready hcur =>
    refine h.update (fun c hne hcs => ?_) hcur
    have := hop ⟨ha, cur, hc, hk⟩ c idx hne hcs
    simp [hready] at this

lemma boot_exclusive (mem : Memory) (frames : Nat → TrapFrame) (vmmTtbr0 : Nat) :
    Exclusive (Sched.boot mem frames vmmTtbr0) := by
  intro c c' slot hc hc'
  simp only [Sched.boot] at hc hc'
  split_ifs at hc hc' with h1 h2
  rw [h1, h2]

/-- Mutual exclusion on tasks, from power-on: in every run in which no CPU takes a slot that
another CPU is on, no slot is ever current on two CPUs. -/
theorem running_exclusive (mem : Memory) (frames : Nat → TrapFrame) (vmmTtbr0 : Nat)
    (ops : List SchedOp)
    (hops : Guarded Sched.step TakesNoForeignSlot (Sched.boot mem frames vmmTtbr0) ops)
    (before after : List SchedOp) (hsplit : ops = before ++ after) :
    Exclusive (run Sched.step (Sched.boot mem frames vmmTtbr0) before) := by
  rw [hsplit, guarded_append] at hops
  exact run_invariant step_exclusive (boot_exclusive mem frames vmmTtbr0) hops.1

def quietRun : List SchedOp :=
  [.init, .secondaryIdleInit 1, .spawn [0x61] 0x1000, .spawn [0x62] 0x2000, .scheduleNext 0 0x9000,
    .scheduleNext 1 0x9100, .yieldCpu 0, .scheduleNext 0 0x9200]

theorem running_exclusive_quietRun :
    Guarded Sched.step TakesNoForeignSlot smallBoot quietRun ∧
      Exclusive (run Sched.step smallBoot quietRun) := by
  have hg : Guarded Sched.step TakesNoForeignSlot smallBoot quietRun := by decide +kernel
  exact ⟨hg, running_exclusive _ _ _ quietRun hg quietRun [] (by simp)⟩

/-- Task 2 yields on CPU 0. Before CPU 0 reaches `schedule_next`, CPU 1 finds it Ready and
takes it, so both CPUs are on slot 2. -/
theorem yield_window_double_run :
    let ops := [.init, .secondaryIdleInit 1, .spawn [0x61] 0x1000, .scheduleNext 0 0x9000,
      .yieldCpu 0, .scheduleNext 1 0x9100]
    (run Sched.step smallBoot ops).current 0 = some 2 ∧
      (run Sched.step smallBoot ops).current 1 = some 2 := by
  decide +kernel

/-- What every operation keeps, whatever the CPUs do: tasks have their own TIDs, below the
counter, and their own stack pages, none of them free. -/
structure TableInv (s : Sched) : Prop extends Tids s where
  stack_used : ∀ i t, s.tasks i = some t → ∀ a, InStack t a → ¬s.mem.pages.Free a
  stack_disjoint : ∀ i j t u, s.tasks i = some t → s.tasks j = some u → i ≠ j →
    ∀ a, InStack t a → ¬InStack u a

lemma InStack.congr {t u : Task} (h : SameOwner t u) {a : Nat} (ha : InStack u a) : InStack t a := by
  unfold InStack at ha ⊢
  rwa [← h.stackBase, ← h.stackSize]

lemma TableInv.inPlace {s s' : Sched} (h : TableInv s)
    (htasks : SlotTable.Related SameOwner s.tasks s'.tasks) (hnext : s'.nextTid = s.nextTid)
    (hmem : s.mem.Consumes s'.mem) : TableInv s' where
  toTids := h.toTids.inPlace (fun _ _ hs => SameOwner.tid hs) (fun _ _ hu => htasks.of_some hu) hnext
  stack_used i t ht a ha := by
    obtain ⟨u, hu, hsame⟩ := htasks.of_some ht
    exact fun hfree => h.stack_used i u hu a (ha.congr hsame) (hmem a hfree)
  stack_disjoint i j t u ht hu hne a ha hau := by
    obtain ⟨t', ht', hst⟩ := htasks.of_some ht
    obtain ⟨u', hu', hsu⟩ := htasks.of_some hu
    exact h.stack_disjoint i j t' u' ht' hu' hne a (ha.congr hst) (hau.congr hsu)

lemma TableInv.placed {s s' : Sched} (h : TableInv s) {task : Task}
    (htasks : s'.tasks = Function.update s.tasks slot (some task)) (htid : task.tid = s.nextTid)
    (hnext : s'.nextTid = s.nextTid + 1)
    (hstack : ∀ a, InStack task a → s.mem.pages.Free a ∧ ¬s'.mem.pages.Free a)
    (hmem : s.mem.Consumes s'.mem) : TableInv s' where
  toTids := h.toTids.placed htasks htid hnext
  stack_used i t ht a ha := by
    rw [htasks] at ht
    rcases placed_eq_some ht with ⟨-, rfl⟩ | ⟨-, ht⟩
    · exact (hstack a ha).2
    · exact fun hfree => h.stack_used i t ht a ha (hmem a hfree)
  stack_disjoint i j t u ht hu hne a ha hau := by
    rw [htasks] at ht hu
    rcases placed_eq_some ht with ⟨hi, rfl⟩ | ⟨-, ht⟩ <;>
      rcases placed_eq_some hu with ⟨hj, rfl⟩ | ⟨-, hu⟩
    · exact hne (hi.trans hj.symm)
    · exact h.stack_used j u hu a hau (hstack a ha).1
    · exact h.stack_used i t ht a ha (hstack a hau).1
    · exact h.stack_disjoint i j t u ht hu hne a ha hau

lemma reap_free {t : Task} {a : Nat}
    (h : (s.reap slot t).mem.pages.Free a) : s.mem.pages.Free a ∨ InStack t a := by
  unfold reap at h
  dsimp only at h
  split_ifs at h
  · rcases PageAllocator.releasePages_free h with hfree | ⟨hlo, hhi⟩
    · exact Or.inl hfree
    · have := Nat.div_mul_le_self t.stackSize pageSize
      exact Or.inr ⟨hlo, by omega⟩
  · exact Or.inl h

lemma TableInv.reap (h : TableInv s) {t : Task}
    (ht : s.tasks slot = some t) : TableInv (s.reap slot t) where
  tid_lt i u hu := h.tid_lt i u (reap_tasks hu).2
  tid_inj i j u v hu hv := h.tid_inj i j u v (reap_tasks hu).2 (reap_tasks hv).2
  stack_used i u hu a ha hfree := by
    obtain ⟨hne, hu⟩ := reap_tasks hu
    rcases reap_free hfree with hf | hin
    · exact h.stack_used i u hu a ha hf
    · exact h.stack_disjoint i slot u t hu ht hne a ha hin
  stack_disjoint i j u v hu hv hne := h.stack_disjoint i j u v (reap_tasks hu).2 (reap_tasks hv).2 hne

lemma step_tableInv (s : Sched) (op : SchedOp) (h : TableInv s) : TableInv (s.step op) := by
  have hc := step_change s op
  generalize s.step op = s' at hc ⊢
  cases hc with
  | inPlace htasks hnext hmem =>
    exact h.inPlace (htasks.mono fun _ _ hs => hs.toSameOwner) hnext hmem
  | placed slot task _ htasks htid hnext hstack hmem =>
    exact h.placed htasks htid hnext hstack hmem
  | reaped cpu slot t _ _ ht _ hs =>
    subst hs
    exact h.reap ht

lemma run_tableInv (h : TableInv s) (ops : List SchedOp) : TableInv (run Sched.step s ops) :=
  run_preserves step_tableInv h ops

lemma boot_tableInv (mem : Memory) (frames : Nat → TrapFrame) (vmmTtbr0 : Nat) :
    TableInv (Sched.boot mem frames vmmTtbr0) := by
  refine ⟨⟨?_, ?_⟩, ?_, ?_⟩ <;> simp [Sched.boot]

/-- From power-on, whatever the CPUs do, no two tasks share a TID or a page of a stack, TIDs are below the
counter, and no page of a stack is free. -/
theorem tasks_own_tids_and_stacks (mem : Memory) (frames : Nat → TrapFrame) (vmmTtbr0 : Nat) (ops : List SchedOp) :
    let s := run Sched.step (Sched.boot mem frames vmmTtbr0) ops
    ∀ i j t u, s.tasks i = some t → s.tasks j = some u → t.tid < s.nextTid ∧ (t.tid = u.tid → i = j) ∧
      ∀ a, InStack t a → ¬s.mem.pages.Free a ∧ (InStack u a → i = j) := by
  intro s i j t u ht hu
  have h : TableInv s := run_tableInv (boot_tableInv mem frames vmmTtbr0) ops
  refine ⟨h.tid_lt i t ht, h.tid_inj i j t u ht hu, fun a ha => ⟨h.stack_used i t ht a ha, fun hau => ?_⟩⟩
  by_contra hne
  exact h.stack_disjoint i j t u ht hu hne a ha hau

def switchedIn (s : Sched) (h : Cpu → Option Nat) (op : SchedOp) : Cpu → Option Nat := fun c =>
  if (s.step op).current c = s.current c then h c
  else ((s.step op).currentTask c).map Task.tid

def tracked : Sched × (Cpu → Option Nat) → SchedOp → Sched × (Cpu → Option Nat) :=
  withHistory Sched.step switchedIn

def initialised (mem : Memory) (frames : Nat → TrapFrame) (vmmTtbr0 : Nat) :
    Sched × (Cpu → Option Nat) :=
  ((Sched.boot mem frames vmmTtbr0).init, fun c => if c = 0 then some 0 else none)

def RunningIntact (p : Sched × (Cpu → Option Nat)) : Prop :=
  ∀ c slot, p.1.current c = some slot → ∃ t, p.1.tasks slot = some t ∧ p.2 c = some t.tid ∧
    ∀ a, InStack t a → ¬p.1.mem.pages.Free a

/-- The operation removes no task that a CPU is on: no wait for a Dead task that some CPU
has not left yet, and no second `init` under a CPU on slot 0. -/
def ReapsNoneRunning (s : Sched) : SchedOp → Prop
  | .init => ∀ c, s.current c ≠ some 0
  | .waitForTid _ tid => ∀ c, (s.currentTask c).any (fun t => t.tid == tid && isDead t) = false
  | _ => True

lemma step_keeps_running {op : SchedOp} (hop : ReapsNoneRunning s op) {c : Cpu}
    {t : Task} (hc : s.current c = some slot) (ht : s.tasks slot = some t) :
    ∃ u, (s.step op).tasks slot = some u ∧ u.tid = t.tid := by
  have hch := step_change s op
  generalize s.step op = s' at hch ⊢
  cases hch with
  | inPlace htasks =>
    obtain ⟨u, hu, hsame⟩ := htasks.to_some ht
    exact ⟨u, hu, hsame.tid⟩
  | placed slot' task hslot htasks =>
    have hne : slot ≠ slot' := by
      rintro rfl
      rcases hslot with hnone | ⟨rfl, rfl⟩
      · simp [ht] at hnone
      · exact hop c hc
    exact ⟨t, by rw [htasks, update_of_ne hne, ht], rfl⟩
  | reaped cpu slot' t' hop' _ ht' hdead hs =>
    have hne : slot ≠ slot' := by
      rintro rfl
      obtain rfl : t = t' := some.inj (ht.symm.trans ht')
      subst hop'
      have := hop c
      simp [currentTask, hc, ht, isDead, hdead] at this
    exact ⟨t, by simp [hs, Sched.reap, hne, ht], rfl⟩

lemma step_intact {p : Sched × (Cpu → Option Nat)} {op : SchedOp} (hinv : TableInv p.1)
    (h : RunningIntact p) (hop : ReapsNoneRunning p.1 op) : RunningIntact (tracked p op) := by
  have hinv' := step_tableInv p.1 op hinv
  intro c slot hc
  change (p.1.step op).current c = some slot at hc
  by_cases hsame : (p.1.step op).current c = p.1.current c
  · obtain ⟨t, ht, hh, -⟩ := h c slot (hsame ▸ hc)
    obtain ⟨u, hu, htid⟩ := step_keeps_running hop (hsame ▸ hc) ht
    refine ⟨u, hu, ?_, hinv'.stack_used slot u hu⟩
    change switchedIn p.1 p.2 op c = some u.tid
    rw [switchedIn, if_pos hsame, hh, htid]
  · obtain ⟨u, hu⟩ := isSome_iff_exists.mp (moved_occupied hc hsame)
    refine ⟨u, hu, ?_, hinv'.stack_used slot u hu⟩
    change switchedIn p.1 p.2 op c = some u.tid
    rw [switchedIn, if_neg hsame, currentTask, hc, bind_some, hu, map_some]

lemma reapsNoneRunning_of_intact {p : Sched × (Cpu → Option Nat)} {op : SchedOp}
    (hinv : TableInv p.1) (h : RunningIntact p) (h' : RunningIntact (tracked p op)) :
    ReapsNoneRunning p.1 op := by
  cases op with
  | init =>
    intro c hc
    obtain ⟨t, ht, hh, -⟩ := h c 0 hc
    have hsame : (p.1.step .init).current c = p.1.current c := by
      by_cases h0 : c = 0
      · subst h0
        simp [step, init, hc]
      · simp [step, init, h0]
    obtain ⟨u, hu, hh', -⟩ := h' c 0 (hsame.trans hc)
    change switchedIn p.1 p.2 .init c = some u.tid at hh'
    rw [switchedIn, if_pos hsame, hh, Option.some.injEq] at hh'
    obtain rfl : Task.idle p.1.vmmTtbr0 p.1.nextTid 0 = u := by
      simpa [tracked, step, init] using hu
    have hlt := hinv.tid_lt 0 t ht
    rw [hh'] at hlt
    exact absurd hlt (lt_irrefl _)
  | waitForTid cpu tid =>
    intro c
    rw [Bool.eq_false_iff]
    intro hany
    cases hc : p.1.current c with
    | none => simp [currentTask, hc] at hany
    | some slot =>
      obtain ⟨t, ht, -⟩ := h c slot hc
      simp only [currentTask, hc, bind_some, ht, any_some, Bool.and_eq_true, beq_iff_eq, isDead] at hany
      obtain ⟨rfl, hdead⟩ := hany
      have hfind : p.1.findTid t.tid = some slot := by
        cases hf : p.1.findTid t.tid with
        | none =>
          have := SlotTable.find_none hf ht
          simp at this
        | some k =>
          obtain ⟨u, hu, htid⟩ := SlotTable.find_some hf
          rw [hinv.tid_inj k slot u t hu ht (by simpa using htid)]
      have hstep : p.1.step (.waitForTid cpu t.tid) = p.1.reap slot t := by
        simp [step, waitForTid, hfind, ht, hdead]
      obtain ⟨u, hu, -⟩ := h' c slot (by rw [tracked, withHistory_fst, hstep]; exact hc)
      rw [tracked, withHistory_fst, hstep] at hu
      exact (reap_tasks hu).1 rfl
  | _ => trivial

lemma initialised_inv (mem : Memory) (frames : Nat → TrapFrame) (vmmTtbr0 : Nat) :
    TableInv (initialised mem frames vmmTtbr0).1 ∧ RunningIntact (initialised mem frames vmmTtbr0) := by
  have hinv : TableInv (initialised mem frames vmmTtbr0).1 :=
    step_tableInv _ .init (boot_tableInv mem frames vmmTtbr0)
  refine ⟨hinv, fun c slot hc => ?_⟩
  by_cases h0 : c = 0
  · subst h0
    obtain rfl : 0 = slot := by simpa [initialised, init] using hc
    exact ⟨_, rfl, rfl, hinv.stack_used 0 _ rfl⟩
  · simp [initialised, init, Sched.boot, h0] at hc

/-- From `init` on, the running tasks stay intact in every state of a run exactly when no
operation of the run reaps a task that a CPU is on. -/
theorem running_intact_iff (mem : Memory) (frames : Nat → TrapFrame) (vmmTtbr0 : Nat)
    (ops : List SchedOp) :
    Guarded tracked (fun p op => ReapsNoneRunning p.1 op) (initialised mem frames vmmTtbr0) ops ↔
      ∀ before after, ops = before ++ after →
        RunningIntact (run tracked (initialised mem frames vmmTtbr0) before) := by
  refine (run_iff (I := fun p => TableInv p.1 ∧ RunningIntact p) ?_ (fun _ h => h.2) ?_
    (initialised_inv mem frames vmmTtbr0)).symm
  · intro p op h hop
    exact ⟨step_tableInv p.1 op h.1, step_intact h.1 h.2 hop⟩
  · intro p op h hnext
    exact reapsNoneRunning_of_intact h.1 h.2 hnext

/-- CPU 1 waits for a task that is Dead, but whose stack CPU 0 is still on: the stack is freed. -/
theorem exiting_task_reaped : let ops := [.secondaryIdleInit 1, .spawn [0x61] 0x1000, .spawn [0x62] 0x2000,
      .scheduleNext 0 0x9000, .scheduleNext 1 0x9100, .exitTask 0 0, .waitForTid 1 2]
    let p := run tracked (initialised smallMemory (fun _ => TrapFrame.fresh 0 0 0) 0x41000000) ops
    p.1.current 0 = some 2 ∧ p.2 0 = some 2 ∧ (p.1.tasks 2).isNone = true ∧
      p.1.mem.pages.Free 0x48000000 := by
  decide +kernel

end Aeglos.Proofs
