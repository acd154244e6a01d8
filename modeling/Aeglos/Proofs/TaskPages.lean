import Aeglos.Kernel.Files
import Aeglos.Proofs.PageBlocks
import Aeglos.Proofs.RunningTasks

/-!
# What a task leaves behind

Over the life of a task a spawn takes a slot and pages, and the wait that reaps the task gives the
slot and the kernel stack back.
-/

namespace Aeglos.Proofs

open Sched TransitionSystem FreeRuns List Option Function

structure TaskLog where
  spawned : List Nat
  waited : List Nat

def TaskLog.empty : TaskLog := ⟨[], []⟩

def recordTasks (s : Sched) (log : TaskLog) : SchedOp → TaskLog
  | .spawnUserEntryWithSegs name entry caps segs =>
    match (s.spawnUserEntryWithSegs name entry caps segs).1 with
    | some (.ok tid) => { log with spawned := tid :: log.spawned }
    | _ => log
  | .spawnUserThread name entry userSp caps ttbr0 =>
    match (s.spawnUserThread name entry userSp caps ttbr0).1 with
    | .ok tid => { log with spawned := tid :: log.spawned }
    | .error _ => log
  | .waitForTid cpu tid =>
    if tid < s.nextTid ∧ (s.currentTask cpu).any (fun t => t.state != .dead) = true then
      { log with waited := tid :: log.waited }
    else log
  | _ => log

def tasksLogged : Sched × TaskLog → SchedOp → Sched × TaskLog := withHistory Sched.step recordTasks

def liveTids (s : Sched) : List Nat :=
  (List.finRange maxTasks).filterMap fun i =>
    (s.tasks i).bind fun t => if t.state = .dead then none else some t.tid

/-- The run ends with the tasks alive that it started with, and every user task spawned
meanwhile has been waited for exactly once. -/
structure Settled (s : Sched) (p : Sched × TaskLog) : Prop where
  live : (liveTids p.1).toFinset = (liveTids s).toFinset
  waited : ∀ tid ∈ p.2.spawned, p.2.waited.count tid = 1

def occupiedSlots (s : Sched) : Finset Slot := Finset.univ.filter fun i => (s.tasks i).isSome = true

/-- With the TIDs from `base` on given out during the run: no process and no kernel task is created, no thread
in a full table, and a wait finds its target Dead exactly when it was created during the run. -/
def GivesBack (base : Nat) (s : Sched) : SchedOp → Prop
  | .init | .secondaryIdleInit _ => False
  | .spawn .. | .spawnUserEntryWithSegs .. => s.mem.allocPages taskStackPages = none
  | .spawnUserThread .. => s.mem.allocPages taskStackPages = none ∨ (SlotTable.free s.tasks).isSome = true
  | .waitForTid _ tid => ∀ slot, s.findTid tid = some slot →
      ((s.tasks slot).any isDead = true ↔ base ≤ tid)
  | _ => True

def StackPage (p : PageAllocator) (t : Task) (k : Nat) : Prop := InStack t (p.pageBase + k * pageSize)

/-- The old tasks are in their slots, the new ones are threads on kernel stacks of their own, and the free
pages of the start are those of now and the new stacks. -/
structure Balanced (s₀ : Sched) (p : Sched × TaskLog) : Prop where
  table : TableInv p.1
  next : s₀.nextTid ≤ p.1.nextTid
  kept : ∀ i, (s₀.tasks i).isSome = true ↔ ∃ t, p.1.tasks i = some t ∧ t.tid < s₀.nextTid
  spawned : ∀ i t, p.1.tasks i = some t → s₀.nextTid ≤ t.tid → t.tid ∈ p.2.spawned
  gone : ∀ tid ∈ p.2.waited, s₀.nextTid ≤ tid →
    tid < p.1.nextTid ∧ ∀ i t, p.1.tasks i = some t → t.tid ≠ tid
  pageBase : p.1.mem.pages.pageBase = s₀.mem.pages.pageBase
  numPages : p.1.mem.pages.numPages = s₀.mem.pages.numPages
  onStack : ∀ i t, p.1.tasks i = some t → s₀.nextTid ≤ t.tid → t.stackSize = taskStackSize ∧
    ∃ start, t.stackBase = s₀.mem.pages.pageBase + start * pageSize ∧
      start + taskStackPages ≤ s₀.mem.pages.numPages
  bits : ∀ k, s₀.mem.pages.bitmap k = true ↔ p.1.mem.pages.bitmap k = true ∨
    ∃ i t, p.1.tasks i = some t ∧ s₀.nextTid ≤ t.tid ∧ StackPage s₀.mem.pages t k

lemma Balanced.start {s₀ : Sched} (h : TableInv s₀) : Balanced s₀ (s₀, .empty) where
  table := h
  next := le_refl _
  kept i := by
    constructor
    · intro hi
      obtain ⟨t, ht⟩ := isSome_iff_exists.mp hi
      exact ⟨t, ht, h.tid_lt i t ht⟩
    · rintro ⟨t, ht, -⟩
      exact isSome_iff_exists.mpr ⟨t, ht⟩
  spawned i t ht hle := absurd (h.tid_lt i t ht) (Nat.not_lt.mpr hle)
  gone tid htid := by simp [TaskLog.empty] at htid
  pageBase := rfl
  numPages := rfl
  onStack i t ht hle := absurd (h.tid_lt i t ht) (Nat.not_lt.mpr hle)
  bits k := by
    refine ⟨Or.inl, ?_⟩
    rintro (hk | ⟨i, t, ht, hle, -⟩)
    · exact hk
    · exact absurd (h.tid_lt i t ht) (Nat.not_lt.mpr hle)

section Steps

variable {s₀ s : Sched} {log : TaskLog}

lemma stackPage_congr {p : PageAllocator} {t t' : Task} (h : SameOwner t t') (k : Nat) :
    StackPage p t' k ↔ StackPage p t k := by
  unfold StackPage InStack
  rw [h.stackBase, h.stackSize]

lemma Balanced.inPlace (h : Balanced s₀ (s, log)) {s' : Sched}
    (htasks : SlotTable.Related SameOwner s.tasks s'.tasks) (hnext : s'.nextTid = s.nextTid)
    (hmem : s'.mem = s.mem) : Balanced s₀ (s', log) where
  table := h.table.inPlace htasks hnext (hmem ▸ Memory.Consumes.refl _)
  next := hnext ▸ h.next
  kept i := by
    rw [h.kept i]
    constructor
    · rintro ⟨t, ht, hlt⟩
      obtain ⟨u, hu, hsame⟩ := htasks.to_some ht
      exact ⟨u, hu, hsame.tid ▸ hlt⟩
    · rintro ⟨u, hu, hlt⟩
      obtain ⟨t, ht, hsame⟩ := htasks.of_some hu
      exact ⟨t, ht, hsame.tid ▸ hlt⟩
  spawned i u hu hle := by
    obtain ⟨t, ht, hsame⟩ := htasks.of_some hu
    rw [hsame.tid] at hle ⊢
    exact h.spawned i t ht hle
  gone tid htid hle := by
    obtain ⟨hlt, hnone⟩ := h.gone tid htid hle
    refine ⟨hnext ▸ hlt, fun i u hu => ?_⟩
    obtain ⟨t, ht, hsame⟩ := htasks.of_some hu
    rw [hsame.tid]
    exact hnone i t ht
  pageBase := hmem ▸ h.pageBase
  numPages := hmem ▸ h.numPages
  onStack i u hu hle := by
    obtain ⟨t, ht, hsame⟩ := htasks.of_some hu
    rw [hsame.stackSize, hsame.stackBase]
    exact h.onStack i t ht (hsame.tid ▸ hle)
  bits k := by
    rw [h.bits k]
    refine or_congr (by rw [hmem]) ⟨?_, ?_⟩
    · rintro ⟨i, t, ht, hle, hpage⟩
      obtain ⟨u, hu, hsame⟩ := htasks.to_some ht
      exact ⟨i, u, hu, hsame.tid ▸ hle, (stackPage_congr hsame k).mpr hpage⟩
    · rintro ⟨i, u, hu, hle, hpage⟩
      obtain ⟨t, ht, hsame⟩ := htasks.of_some hu
      exact ⟨i, t, ht, hsame.tid ▸ hle, (stackPage_congr hsame k).mp hpage⟩

lemma stackPage_iff {p : PageAllocator} {t : Task} {start : Nat}
    (hbase : t.stackBase = p.pageBase + start * pageSize) (hsize : t.stackSize = taskStackSize)
    (k : Nat) : StackPage p t k ↔ start ≤ k ∧ k < start + taskStackPages := by
  unfold StackPage InStack
  rw [hbase, hsize]
  simp only [taskStackSize, taskStackPages, pageSize]
  omega

lemma Balanced.thread (h : Balanced s₀ (s, log)) {mem : Memory} {base : Nat} {slot : Slot}
    {task : Task} {frame : TrapFrame} (halloc : s.mem.allocPages taskStackPages = some (base, mem))
    (hslot : s.tasks slot = none) (htid : task.tid = s.nextTid) (hbase : task.stackBase = base)
    (hsize : task.stackSize = taskStackSize) :
    Balanced s₀ ({ s with mem := mem }.install slot task frame,
      { log with spawned := s.nextTid :: log.spawned }) := by
  obtain ⟨start, haddr, -, hle, hfree, hpages⟩ :=
    PageAllocator.allocPages_some (Memory.allocPages_pages halloc)
  have hnew : s₀.nextTid ≤ task.tid := htid ▸ h.next
  have htable : TableInv ({ s with mem := mem }.install slot task frame) :=
    h.table.placed rfl htid rfl (fun a ha => fresh_stack halloc (Memory.Consumes.refl _) (by
      rw [InStack, hbase, hsize] at ha
      exact ha)) (Memory.allocPages_consumes halloc)
  have hold : ∀ i t, s.tasks i = some t → Function.update s.tasks slot (some task) i = some t := by
    intro i t ht
    rw [update_of_ne, ht]
    rintro rfl
    simp [hslot] at ht
  refine
    { table := htable
      next := Nat.le_succ_of_le h.next
      kept := fun i => ?_
      spawned := fun i t ht hle => ?_
      gone := fun tid hw hle => ?_
      pageBase := ?_
      numPages := ?_
      onStack := fun i t ht hle' => ?_
      bits := fun k => ?_ }
  · rw [h.kept i]
    constructor
    · rintro ⟨t, ht, hlt⟩
      exact ⟨t, hold i t ht, hlt⟩
    · rintro ⟨t, ht, hlt⟩
      rcases placed_eq_some ht with ⟨-, rfl⟩ | ⟨-, ht⟩
      · omega
      · exact ⟨t, ht, hlt⟩
  · rcases placed_eq_some ht with ⟨-, rfl⟩ | ⟨-, ht⟩
    · simp [htid]
    · exact mem_cons_of_mem _ (h.spawned i t ht hle)
  · obtain ⟨hlt, hnone⟩ := h.gone tid hw hle
    refine ⟨Nat.lt_succ_of_lt hlt, fun i t ht => ?_⟩
    rcases placed_eq_some ht with ⟨-, rfl⟩ | ⟨-, ht⟩
    · exact fun heq => absurd (heq.symm.trans htid) (Nat.ne_of_lt hlt)
    · exact hnone i t ht
  · exact (congrArg PageAllocator.pageBase hpages).trans h.pageBase
  · exact (congrArg PageAllocator.numPages hpages).trans h.numPages
  · rcases placed_eq_some ht with ⟨-, rfl⟩ | ⟨-, ht⟩
    · refine ⟨hsize, start, ?_, h.numPages ▸ hle⟩
      rw [hbase, haddr, h.pageBase]
    · exact h.onStack i t ht hle'
  · have hbits : mem.pages.bitmap k =
        if start ≤ k ∧ k < start + taskStackPages then false else s.mem.pages.bitmap k :=
      congrFun (congrArg PageAllocator.bitmap hpages) k
    have hmine : StackPage s₀.mem.pages task k ↔ start ≤ k ∧ k < start + taskStackPages :=
      stackPage_iff (by rw [hbase, haddr, h.pageBase]) hsize k
    rw [h.bits k]
    constructor
    · rintro (hk | ⟨i, t, ht, hle', hpage⟩)
      · by_cases hin : start ≤ k ∧ k < start + taskStackPages
        · exact Or.inr ⟨slot, task, update_self .., hnew, hmine.mpr hin⟩
        · exact Or.inl (by rw [← hk]; exact hbits.trans (if_neg hin))
      · exact Or.inr ⟨i, t, hold i t ht, hle', hpage⟩
    · rintro (hk | ⟨i, t, ht, hle', hpage⟩)
      · change mem.pages.bitmap k = true at hk
        rw [hbits] at hk
        split_ifs at hk
        exact Or.inl hk
      · rcases placed_eq_some ht with ⟨-, rfl⟩ | ⟨-, ht⟩
        · obtain ⟨hlo, hhi⟩ := hmine.mp hpage
          have hk := hfree (k - start) (by omega)
          rw [Nat.add_sub_cancel' hlo] at hk
          exact Or.inl hk
        · exact Or.inr ⟨i, t, ht, hle', hpage⟩

lemma reap_pages {s : Sched} (slot : Slot) {t : Task} {start : Nat}
    (hbase : t.stackBase = s.mem.pages.pageBase + start * pageSize) (hsize : t.stackSize = taskStackSize)
    (hle : start + taskStackPages ≤ s.mem.pages.numPages) : (s.reap slot t).mem.pages =
      { s.mem.pages with bitmap := setBlock s.mem.pages.bitmap (start, taskStackPages) true } := by
  have hpos := s.mem.pages.base_pos
  have hcount : t.stackSize / pageSize = taskStackPages := by
    rw [hsize]
    decide
  have hcond : t.stackBase ≠ 0 ∧ t.stackSize ≠ 0 := by
    rw [hbase, hsize]
    exact ⟨by omega, by decide⟩
  simp only [reap, if_pos hcond, Memory.releasePages]
  rw [hcount, hbase]
  exact releasePages_block s.mem.pages hle

lemma Balanced.reaped (h : Balanced s₀ (s, log)) {slot : Slot} {t : Task}
    (ht : s.tasks slot = some t) (hnew : s₀.nextTid ≤ t.tid) : Balanced s₀ (s.reap slot t, log) := by
  obtain ⟨hsize, start, hbase, hle⟩ := h.onStack slot t ht hnew
  have hmem := reap_pages (s := s) slot (h.pageBase ▸ hbase) hsize (h.numPages ▸ hle)
  refine
    { table := h.table.reap ht
      next := h.next
      kept := fun i => ?_
      spawned := fun i u hu hle => h.spawned i u (reap_tasks hu).2 hle
      gone := fun tid hw hle => ?_
      pageBase := (congrArg PageAllocator.pageBase hmem).trans h.pageBase
      numPages := (congrArg PageAllocator.numPages hmem).trans h.numPages
      onStack := fun i u hu hle => h.onStack i u (reap_tasks hu).2 hle
      bits := fun k => ?_ }
  · rw [h.kept i]
    constructor
    · rintro ⟨u, hu, hlt⟩
      refine ⟨u, ?_, hlt⟩
      have hne : i ≠ slot := by
        rintro rfl
        obtain rfl : u = t := some.inj (hu.symm.trans ht)
        omega
      exact (update_of_ne hne ..).trans hu
    · rintro ⟨u, hu, hlt⟩
      exact ⟨u, (reap_tasks hu).2, hlt⟩
  · obtain ⟨hlt, hnone⟩ := h.gone tid hw hle
    exact ⟨hlt, fun i u hu => hnone i u (reap_tasks hu).2⟩
  · have hbits : (s.reap slot t).mem.pages.bitmap k =
        setBlock s.mem.pages.bitmap (start, taskStackPages) true k :=
      congrFun (congrArg PageAllocator.bitmap hmem) k
    have hmine := stackPage_iff (p := s₀.mem.pages) hbase hsize k
    rw [h.bits k, hbits]
    simp only [setBlock, block, Finset.mem_Ico]
    constructor
    · rintro (hk | ⟨i, u, hu, hle', hpage⟩)
      · exact Or.inl (by simp [hk])
      · by_cases hi : i = slot
        · subst hi
          obtain rfl : u = t := some.inj (hu.symm.trans ht)
          exact Or.inl (by rw [if_pos (hmine.mp hpage)])
        · exact Or.inr ⟨i, u, (update_of_ne hi ..).trans hu, hle', hpage⟩
    · rintro (hk | ⟨i, u, hu, hle', hpage⟩)
      · split_ifs at hk with hin
        · exact Or.inr ⟨slot, t, ht, hnew, hmine.mpr hin⟩
        · exact Or.inl hk
      · exact Or.inr ⟨i, u, (reap_tasks hu).2, hle', hpage⟩

lemma Balanced.waitedFor (h : Balanced s₀ (s, log)) {tid : Nat}
    (hgone : s₀.nextTid ≤ tid → tid < s.nextTid ∧ ∀ i t, s.tasks i = some t → t.tid ≠ tid) :
    Balanced s₀ (s, { log with waited := tid :: log.waited }) where
  table := h.table
  next := h.next
  kept := h.kept
  spawned := h.spawned
  gone tid' htid hle := by
    rcases mem_cons.mp htid with rfl | hmem
    · exact hgone hle
    · exact h.gone tid' hmem hle
  pageBase := h.pageBase
  numPages := h.numPages
  onStack := h.onStack
  bits := h.bits

end Steps

lemma findTid_none {s : Sched} {tid : Nat} (h : s.findTid tid = none) (i : Slot) (t : Task)
    (ht : s.tasks i = some t) : t.tid ≠ tid := by
  have := SlotTable.find_none h ht
  simpa using this

lemma Balanced.waits {s₀ s : Sched} {log : TaskLog} (h : Balanced s₀ (s, log)) {cpu : Cpu} {tid : Nat}
    (hop : GivesBack s₀.nextTid s (.waitForTid cpu tid)) :
    Balanced s₀ ((s.waitForTid cpu tid).2, log) ∧
      (s₀.nextTid ≤ tid → ∀ i t, (s.waitForTid cpu tid).2.tasks i = some t → t.tid ≠ tid) ∧
      (s.waitForTid cpu tid).2.nextTid = s.nextTid := by
  have hch := waitForTid_change s cpu tid
  unfold waitForTid at hch ⊢
  cases hf : s.findTid tid with
  | none => exact ⟨h, fun _ => findTid_none hf, rfl⟩
  | some slot =>
    obtain ⟨t, ht, htid⟩ := SlotTable.find_some hf
    obtain rfl : t.tid = tid := beq_iff_eq.mp htid
    have hiff := hop slot hf
    rw [ht, any_some] at hiff
    simp only [ht]
    by_cases hd : t.state = .dead
    · rw [if_pos hd]
      have hnew : s₀.nextTid ≤ t.tid := hiff.mp (by simp [isDead, hd])
      refine ⟨h.reaped ht hnew, fun _ i u hu heq => ?_, rfl⟩
      obtain ⟨hne, hu⟩ := reap_tasks hu
      exact hne (h.table.tid_inj i slot u t hu ht heq)
    · rw [if_neg hd]
      have hold : ¬s₀.nextTid ≤ t.tid := fun hle => hd (by simpa [isDead] using hiff.mpr hle)
      have honly := modifyCurrent_only s cpu fun cur =>
        { cur with state := .blocked, waitTid := some t.tid }
      refine ⟨h.inPlace (modifyCurrent_related s cpu SameOwner.refl fun _ => ⟨rfl, rfl, rfl, rfl, rfl⟩)
        honly.nextTid honly.mem, fun hle => absurd hle hold, honly.nextTid⟩

lemma Balanced.quiet {s₀ s : Sched} {log : TaskLog} (h : Balanced s₀ (s, log)) {op : SchedOp}
    (hcreates : createsTask op = false) (htouch : touchesPages op = false) :
    Balanced s₀ (s.step op, log) := by
  have hch := step_change s op
  have hmem := step_mem s htouch
  generalize s.step op = s' at hch hmem ⊢
  cases hch with
  | inPlace htasks hnext => exact h.inPlace (htasks.mono fun _ _ hs => hs.toSameOwner) hnext hmem
  | placed _ _ _ _ _ _ _ _ hc _ => simp [hcreates] at hc
  | reaped cpu slot t hw =>
    subst hw
    cases htouch

lemma step_balanced (s₀ : Sched) (p : Sched × TaskLog) (op : SchedOp) (h : Balanced s₀ p)
    (hop : GivesBack s₀.nextTid p.1 op) : Balanced s₀ (tasksLogged p op) := by
  obtain ⟨s, log⟩ := p
  change Balanced s₀ (s.step op, recordTasks s log op)
  cases op with
  | init => exact hop.elim
  | secondaryIdleInit cpu => exact hop.elim
  | spawn name entry =>
    have hnone : s.mem.allocPages taskStackPages = none := hop
    have hsame : (s.spawn name entry).2 = s := by
      unfold spawn
      cases SlotTable.free s.tasks with
      | none => rfl
      | some slot => rw [hnone]
    simp only [step, hsame]
    exact h
  | spawnUserEntryWithSegs name entry caps segs =>
    have hnone : s.mem.allocPages taskStackPages = none := hop
    simp only [step, recordTasks, spawnUserEntryWithSegs, hnone]
    exact h
  | spawnUserThread name entry userSp caps ttbr0 =>
    simp only [step, recordTasks, spawnUserThread]
    cases halloc : s.mem.allocPages taskStackPages with
    | none => exact h
    | some r =>
      obtain ⟨slot, hslot⟩ := isSome_iff_exists.mp
        ((show _ ∨ _ from hop).resolve_left (by rw [halloc]; simp))
      simp only [hslot]
      exact h.thread halloc (SlotTable.free_some hslot) rfl rfl rfl
  | waitForTid cpu tid =>
    obtain ⟨hbal, hgone, hnext⟩ := h.waits hop
    simp only [step, recordTasks]
    split_ifs with hcounted
    · exact hbal.waitedFor fun hle => ⟨hnext ▸ hcounted.1, hgone hle⟩
    · exact hbal
  | scheduleNext | setTaskSyscallFilter | sendSignal | setSignalHandler | popPendingSignal | forceExit
  | swapSignalMask | setTaskCaps | sendMessage | recvMessage | tryRecvMessage | yieldCpu | exitTask
  | setAffinity | setTaskPriority => exact h.quiet rfl rfl

lemma Balanced.settled {s₀ : Sched} {p : Sched × TaskLog} (h : Balanced s₀ p) (hset : Settled s₀ p) :
    occupiedSlots p.1 = occupiedSlots s₀ ∧ ∀ k, p.1.mem.pages.bitmap k = s₀.mem.pages.bitmap k := by
  have hnone : ∀ i t, p.1.tasks i = some t → t.tid < s₀.nextTid := by
    intro i t ht
    by_contra hlt
    have hle := Nat.not_lt.mp hlt
    have hcount := hset.waited t.tid (h.spawned i t ht hle)
    have hmem : t.tid ∈ p.2.waited := count_pos_iff.mp (by omega)
    exact (h.gone t.tid hmem hle).2 i t ht rfl
  constructor
  · ext i
    simp only [occupiedSlots, Finset.mem_filter, Finset.mem_univ, true_and, h.kept i]
    constructor
    · intro hi
      obtain ⟨t, ht⟩ := isSome_iff_exists.mp hi
      exact ⟨t, ht, hnone i t ht⟩
    · rintro ⟨t, ht, -⟩
      exact isSome_iff_exists.mpr ⟨t, ht⟩
  · intro k
    rw [Bool.eq_iff_iff, h.bits k]
    refine ⟨Or.inl, ?_⟩
    rintro (hk | ⟨i, t, ht, hle, -⟩)
    · exact hk
    · exact absurd (hnone i t ht) (Nat.not_lt.mpr hle)

/-- In every run whose steps give back what they take and that ends settled, as many slots and pages are free
at the end as at the start. -/
theorem slots_and_pages_conserved (s₀ : Sched) (hinv : TableInv s₀) (ops : List SchedOp)
    (hg : Guarded tasksLogged (fun p op => GivesBack s₀.nextTid p.1 op) (s₀, .empty) ops)
    (hset : Settled s₀ (run tasksLogged (s₀, .empty) ops)) :
    (occupiedSlots (run tasksLogged (s₀, .empty) ops).1).card = (occupiedSlots s₀).card ∧
      Call.freePages (run tasksLogged (s₀, .empty) ops).1.mem.pages = Call.freePages s₀.mem.pages := by
  have hbal : Balanced s₀ (run tasksLogged (s₀, .empty) ops) :=
    run_invariant (step_balanced s₀) (Balanced.start hinv) hg
  obtain ⟨hslots, hbits⟩ := hbal.settled hset
  refine ⟨by rw [hslots], ?_⟩
  unfold Call.freePages
  rw [hbal.numPages]
  exact countP_congr fun k _ => by rw [hbits k]

instance givesBackDecidable (base : Nat) (s : Sched) : DecidablePred (GivesBack base s)
  | .init | .secondaryIdleInit _ => instDecidableFalse
  | .spawn .. | .spawnUserEntryWithSegs .. =>
    inferInstanceAs (Decidable (s.mem.allocPages taskStackPages = none))
  | .spawnUserThread .. => inferInstanceAs (Decidable (s.mem.allocPages taskStackPages = none ∨
      (SlotTable.free s.tasks).isSome = true))
  | .waitForTid _ tid => inferInstanceAs (Decidable (∀ slot, s.findTid tid = some slot →
      ((s.tasks slot).any isDead = true ↔ base ≤ tid)))
  | .scheduleNext .. | .setTaskSyscallFilter .. | .sendSignal .. | .setSignalHandler ..
  | .popPendingSignal .. | .forceExit .. | .swapSignalMask .. | .setTaskCaps .. | .sendMessage ..
  | .recvMessage .. | .tryRecvMessage .. | .yieldCpu .. | .exitTask .. | .setAffinity ..
  | .setTaskPriority .. => instDecidableTrue

def tightMemory : Memory :=
  { smallMemory with
    pages := { smallMemory.pages with numPages := 600, fits := by decide } }

def oneThread : Sched :=
  run Sched.step (Sched.boot tightMemory (fun _ => TrapFrame.fresh 0 0 0) 0x41000000)
    [.init, .spawnUserThread [0x61] 0x1000 0x5000 0 0x41000000, .scheduleNext 0 0x9000]

def exitAndWait : List SchedOp := [.scheduleNext 0 0x9100, .exitTask 0 7, .scheduleNext 0 0x9200, .waitForTid 0 2]

def newThread : SchedOp := .spawnUserThread [0x62] 0x2000 0x6000 0 0x41000000

theorem slots_and_pages_conserved_thread :
    Guarded tasksLogged (fun p op => GivesBack oneThread.nextTid p.1 op) (oneThread, .empty)
        (newThread :: exitAndWait) ∧
      (run tasksLogged (oneThread, .empty) (newThread :: exitAndWait)).2.spawned = [2] ∧
      Call.freePages (run tasksLogged (oneThread, .empty) (newThread :: exitAndWait)).1.mem.pages =
        Call.freePages oneThread.mem.pages := by
  have hinv : TableInv oneThread := run_tableInv (boot_tableInv _ _ _) _
  have hg : Guarded tasksLogged (fun p op => GivesBack oneThread.nextTid p.1 op) (oneThread, .empty)
      (newThread :: exitAndWait) := by decide +kernel
  have hset : Settled oneThread (run tasksLogged (oneThread, .empty) (newThread :: exitAndWait)) :=
    ⟨by decide +kernel, by decide +kernel⟩
  exact ⟨hg, by decide +kernel, (slots_and_pages_conserved oneThread hinv _ hg hset).2⟩

def exitedProcess : Sched × TaskLog :=
  run tasksLogged (oneThread, .empty)
    (.spawnUserEntryWithSegs [0x62] 0x2000 0 [] :: exitAndWait.dropLast)

def afterProcess : Sched × TaskLog := tasksLogged exitedProcess (.waitForTid 0 2)

lemma waitForTid_freePages {s : Sched} (log : TaskLog) (cpu : Cpu) {tid : Nat} {slot : Slot}
    (start : Nat) (hf : s.findTid tid = some slot)
    (ht : (s.tasks slot).any (fun t => isDead t && t.stackSize == taskStackSize &&
      t.stackBase == s.mem.pages.pageBase + start * pageSize) = true)
    (hle : start + taskStackPages ≤ s.mem.pages.numPages) :
    Call.freePages (tasksLogged (s, log) (.waitForTid cpu tid)).1.mem.pages =
      (List.range s.mem.pages.numPages).countP fun k => decide (start ≤ k ∧ k < start + taskStackPages) || s.mem.pages.bitmap k := by
  obtain ⟨t, hslot, hprop⟩ := (Option.any_eq_true ..).mp ht
  simp only [isDead, Bool.and_eq_true, beq_iff_eq] at hprop
  have hwait : (tasksLogged (s, log) (.waitForTid cpu tid)).1 = s.reap slot t := by
    change (s.waitForTid cpu tid).2 = _
    simp only [waitForTid, hf, hslot, if_pos hprop.1.1]
  rw [hwait, Call.freePages, reap_pages slot hprop.2 hprop.1.2 hle]
  refine List.countP_congr fun k _ => ?_
  by_cases hk : start ≤ k ∧ k < start + taskStackPages <;> simp [setBlock, block, hk]

def waitedEarly : Sched × TaskLog :=
  run tasksLogged (oneThread, .empty)
    [newThread, .waitForTid 0 2, .scheduleNext 0 0x9100, .exitTask 0 7, .scheduleNext 0 0x9200]

lemma afterProcess_log :
    (liveTids afterProcess.1).toFinset = (liveTids oneThread).toFinset ∧
      (∀ tid ∈ afterProcess.2.spawned, afterProcess.2.waited.count tid = 1) ∧
      afterProcess.2.spawned = [2] := by
  decide +kernel

lemma exitedProcess_pages :
    exitedProcess.1.findTid 2 = some 2 ∧
      (exitedProcess.1.tasks 2).any (fun t => isDead t && t.stackSize == taskStackSize &&
        t.stackBase == exitedProcess.1.mem.pages.pageBase + 256 * pageSize) = true ∧
      256 + taskStackPages ≤ exitedProcess.1.mem.pages.numPages ∧
      ((List.range exitedProcess.1.mem.pages.numPages).countP fun k =>
          decide (256 ≤ k ∧ k < 256 + taskStackPages) || exitedProcess.1.mem.pages.bitmap k) <
        Call.freePages oneThread.mem.pages := by
  decide +kernel

lemma waitedEarly_settled : Settled oneThread waitedEarly := ⟨by decide +kernel, by decide +kernel⟩

/-- A process that has been waited for leaves its user stack and its page tables, and a thread that is waited
for too early leaves its slot. -/
theorem exited_tasks_keep_pages :
    (Settled oneThread afterProcess ∧ afterProcess.2.spawned = [2] ∧
      Call.freePages afterProcess.1.mem.pages < Call.freePages oneThread.mem.pages) ∧
    (Settled oneThread waitedEarly ∧ waitedEarly.2.spawned = [2] ∧
      (occupiedSlots oneThread).card < (occupiedSlots waitedEarly.1).card) := by
  obtain ⟨hlive, hwaited, hspawned⟩ := afterProcess_log
  obtain ⟨hfind, htask, hin, hfewer⟩ := exitedProcess_pages
  refine ⟨⟨⟨hlive, hwaited⟩, hspawned, ?_⟩, ⟨waitedEarly_settled, ?_, ?_⟩⟩
  · rw [afterProcess, waitForTid_freePages exitedProcess.2 0 256 hfind htask hin]
    exact hfewer
  · decide +kernel
  · decide +kernel

end Aeglos.Proofs
