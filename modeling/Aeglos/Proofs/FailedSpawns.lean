import Aeglos.Proofs.PageBlocks
import Aeglos.Kernel.Scheduler

/-!
# Failed spawns

What the functions that create tasks leave behind when they return an error.
-/

namespace Aeglos.Proofs

open Aeglos FreeRuns

variable {count addr : Nat}

structure SameHoldings (s s' : Sched) : Prop where
  free : ∀ a, s'.mem.pages.Free a ↔ s.mem.pages.Free a
  tasks : s'.tasks = s.tasks
  nextTid : s'.nextTid = s.nextTid

lemma SameHoldings.refl (s : Sched) : SameHoldings s s := ⟨fun _ => Iff.rfl, rfl, rfl⟩

def UnchangedOnError (s : Sched) (r : Option (Except String Nat) × Sched) : Prop :=
  ∀ e, r.1 = some (.error e) → SameHoldings s r.2

lemma allocPages_taken {m m' : Memory} (h : m.allocPages count = some (addr, m')) :
    m.pages.Free addr ∧ ¬m'.pages.Free addr := by
  have hpages := Memory.allocPages_pages h
  obtain ⟨start, -, hcount, -⟩ := PageAllocator.allocPages_some hpages
  have hin : addr ≤ addr ∧ addr < addr + count * pageSize := by
    have hpos : 0 < count * pageSize := Nat.mul_pos hcount (by decide)
    omega
  obtain ⟨hfree, htaken⟩ := PageAllocator.allocPages_free hpages addr
  exact ⟨hfree hin, fun hfree' => (htaken.mp hfree').2 hin⟩

lemma not_same_of_taken {s s' : Sched} {m : Memory}
    (h : s.mem.allocPages count = some (addr, m)) (hlater : Memory.Consumes m s'.mem) : ¬SameHoldings s s' := by
  intro hsame
  obtain ⟨hfree, htaken⟩ := allocPages_taken h
  exact htaken (hlater addr ((hsame.free addr).mpr hfree))

variable {s : Sched}

lemma spawn_unchanged (name : List UInt8) (entry : Nat) {e : String} (h : (s.spawn name entry).1 = .error e) :
    SameHoldings s (s.spawn name entry).2 := by
  rw [Sched.spawn] at h ⊢
  cases hslot : SlotTable.free s.tasks with
  | none => exact SameHoldings.refl s
  | some slot =>
    cases halloc : s.mem.allocPages taskStackPages with
    | none => exact SameHoldings.refl s
    | some r =>
      rw [hslot, halloc] at h
      cases h

def stackedSegs (segs : List ProcSegment) (userStack : Nat) : List ProcSegment :=
  segs.take 17 ++ [⟨userStack, userStackSize, true, false, false⟩]

/-- Once a process has its kernel stack, it gets a user stack, and building its table either panics
or leaves a process for which there is a slot. -/
def ProcessCompletes (s : Sched) (segs : List ProcSegment) : Prop :=
  ∀ kernelStack mem, s.mem.allocPages taskStackPages = some (kernelStack, mem) →
    ∃ userStack mem', mem.allocPages userStackPages = some (userStack, mem') ∧
      ((∃ m, mem'.createProcessTable (stackedSegs segs userStack) = .error m) ∨ (SlotTable.free s.tasks).isSome)

def ThreadCompletes (s : Sched) : Prop := s.mem.allocPages taskStackPages = none ∨ (SlotTable.free s.tasks).isSome

lemma changed_of_taken {m m' : Memory} (h : s.mem.allocPages count = some (addr, m))
    (hlater : Memory.Consumes m m') (e : String) : ¬UnchangedOnError s (some (.error e), { s with mem := m' }) := by
  intro hsame
  exact not_same_of_taken h hlater (hsame e rfl)

lemma unchanged_of_not_error {r : Option (Except String Nat)} (h : ∀ e, r ≠ some (.error e)) (s' : Sched) :
    UnchangedOnError s (r, s') := fun e he => absurd he (h e)

lemma spawnUserEntryWithSegs_unchanged_iff (name : List UInt8) (entry : Nat) (caps : BitVec 64)
    (segs : List ProcSegment) :
    UnchangedOnError s (s.spawnUserEntryWithSegs name entry caps segs) ↔ ProcessCompletes s segs := by
  cases hkernel : s.mem.allocPages taskStackPages with
  | none =>
    have hr : s.spawnUserEntryWithSegs name entry caps segs = (some (.error "out of memory for kernel stack"), s) := by
      simp only [Sched.spawnUserEntryWithSegs, hkernel]
    rw [hr]
    refine iff_of_true (fun _ _ => SameHoldings.refl s) ?_
    intro kernelStack mem h
    rw [hkernel] at h
    cases h
  | some r =>
    obtain ⟨kernelStack, mem⟩ := r
    have hcompletes : ProcessCompletes s segs ↔ ∃ userStack mem',
        mem.allocPages userStackPages = some (userStack, mem') ∧
        ((∃ m, mem'.createProcessTable (stackedSegs segs userStack) = .error m) ∨
          (SlotTable.free s.tasks).isSome) := by
      constructor
      · intro h
        exact h kernelStack mem hkernel
      · intro h kernelStack' mem₁ hkernel'
        rw [hkernel] at hkernel'
        obtain ⟨rfl, rfl⟩ := Prod.mk.inj (Option.some.inj hkernel')
        exact h
    rw [hcompletes]
    cases huser : mem.allocPages userStackPages with
    | none =>
      -- the kernel stack stays allocated
      have hr : s.spawnUserEntryWithSegs name entry caps segs =
          (some (.error "out of memory for user stack"), { s with mem := mem }) := by
        simp only [Sched.spawnUserEntryWithSegs, hkernel, huser]
      rw [hr]
      refine iff_of_false (changed_of_taken hkernel (Memory.Consumes.refl mem) _) ?_
      rintro ⟨userStack, mem', h, -⟩
      cases h
    | some r =>
      obtain ⟨userStack, mem'⟩ := r
      have hstacks := Memory.allocPages_consumes huser
      have htables := Memory.createProcessTable_consumes mem' (stackedSegs segs userStack)
      cases htable : mem'.createProcessTable (stackedSegs segs userStack) with
      | error m =>
        have hr : s.spawnUserEntryWithSegs name entry caps segs = (none, { s with mem := m }) := by
          rw [stackedSegs] at htable
          simp only [Sched.spawnUserEntryWithSegs, hkernel, huser, htable]
        rw [hr]
        exact iff_of_true (unchanged_of_not_error (by simp) _) ⟨userStack, mem', rfl, Or.inl ⟨m, htable⟩⟩
      | ok r =>
        obtain ⟨ttbr0, mem''⟩ := r
        rw [htable] at htables
        cases hslot : SlotTable.free s.tasks with
        | none =>
          -- both stacks and the tables stay allocated
          have hr : s.spawnUserEntryWithSegs name entry caps segs =
              (some (.error "task pool full"), { s with mem := mem'' }) := by
            rw [stackedSegs] at htable
            simp only [Sched.spawnUserEntryWithSegs, hkernel, huser, htable, hslot]
          rw [hr]
          refine iff_of_false (changed_of_taken hkernel (Memory.Consumes.trans _ _ _ hstacks htables) _) ?_
          rintro ⟨userStack', mem₁, h, ⟨m, herror⟩ | hsome⟩
          · obtain ⟨rfl, rfl⟩ := Prod.mk.inj (Option.some.inj h)
            rw [htable] at herror
            cases herror
          · cases hsome
        | some slot =>
          refine iff_of_true ?_ ⟨userStack, mem', rfl, Or.inr rfl⟩
          rw [stackedSegs] at htable
          simp only [Sched.spawnUserEntryWithSegs, hkernel, huser, htable, hslot]
          exact unchanged_of_not_error (by simp) _

lemma spawnUserThread_unchanged_iff (name : List UInt8) (entry userSp : Nat) (caps : BitVec 64) (ttbr0 : Nat) :
    UnchangedOnError s (Prod.map some id (s.spawnUserThread name entry userSp caps ttbr0)) ↔ ThreadCompletes s := by
  rw [ThreadCompletes]
  cases hkernel : s.mem.allocPages taskStackPages with
  | none =>
    simp only [Sched.spawnUserThread, hkernel]
    exact iff_of_true (fun _ _ => SameHoldings.refl s) (Or.inl trivial)
  | some r =>
    obtain ⟨kernelStack, mem⟩ := r
    cases hslot : SlotTable.free s.tasks with
    | none =>
      simp only [Sched.spawnUserThread, hkernel, hslot]
      refine iff_of_false (changed_of_taken hkernel (Memory.Consumes.refl mem) _) ?_
      simp
    | some slot =>
      simp only [Sched.spawnUserThread, hkernel, hslot]
      exact iff_of_true (unchanged_of_not_error (by simp) _) (Or.inr rfl)

/-- A failed `spawn` changes nothing. The other two keep their promise exactly when no step can fail
after the first allocation. -/
theorem failed_spawn_unchanged_iff (s : Sched) (name : List UInt8) (entry userSp : Nat) (caps : BitVec 64)
    (segs : List ProcSegment) (ttbr0 : Nat) :
    UnchangedOnError s (Prod.map some id (s.spawn name entry)) ∧
      (UnchangedOnError s (s.spawnUserEntryWithSegs name entry caps segs) ↔ ProcessCompletes s segs) ∧
      (UnchangedOnError s (Prod.map some id (s.spawnUserThread name entry userSp caps ttbr0)) ↔ ThreadCompletes s) := by
  refine ⟨?_, spawnUserEntryWithSegs_unchanged_iff name entry caps segs,
    spawnUserThread_unchanged_iff name entry userSp caps ttbr0⟩
  intro e h
  exact spawn_unchanged name entry (Option.some.inj h)

def oneStack : Sched :=
  Sched.boot ⟨⟨fun _ => true, pageSize, 256, 257 * pageSize, by decide, by decide, by decide, by decide⟩, fun _ _ => 0⟩
    (fun _ => TrapFrame.fresh 0 0 0) 0

/-- The failed call keeps the pages of the kernel stack. -/
theorem failed_spawn_leaks :
    oneStack.mem.pages.Free pageSize ∧
      (oneStack.spawnUserEntryWithSegs [0x61] 0x1000 0 []).1 = some (.error "out of memory for user stack") ∧
      ¬(oneStack.spawnUserEntryWithSegs [0x61] 0x1000 0 []).2.mem.pages.Free pageSize := by
  decide +kernel

end Aeglos.Proofs
