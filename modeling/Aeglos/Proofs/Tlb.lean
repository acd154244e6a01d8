import Aeglos.Library.LazyCache
import Aeglos.Proofs.Pointers

/-!
# Cached translations

The TLB of a CPU may hold any EL0 translation of a table that was in its `TTBR0_EL1`.
-/

namespace Aeglos.Proofs

open Call TransitionSystem LazyCache Memory

def tlbLook (k : Kernel) (cpu : Cpu) (page : Nat) : Option (Nat × Translation) :=
  if page < 2 ^ 36 then
    ((k.sched.mem.translate (k.ttbr0 cpu) (page * 4096)).filter Translation.user).map fun tr => (page, tr)
  else none

/-- `tlbi vaae1` for every page of a range compares bits 55 to 12 of the address. -/
def flushesRange (base top page : Nat) : Bool :=
  let first := base / 4096
  decide (first + (page + 2 ^ 44 - first % 2 ^ 44) % 2 ^ 44 < wrap64 (top + 0xFFF) / 4096)

def flushesFor (page : Nat) (t : Task) : Bool :=
  flushesRange t.userVaBase t.userVaTop page ||
    (decide (t.userStackBase < t.userStackTop) && flushesRange t.userStackBase t.userStackTop page)

def clearedPages (m : Memory) (root : Nat) : List Nat → List Nat
  | [] => []
  | va :: rest =>
    if (m.unmapSlot root va).isSome then va :: clearedPages (m.unmapOnePage root va) root rest
    else clearedPages m root rest

def munmapFlushes (k : Kernel) (cpu : Cpu) (va size : Nat) : List Nat :=
  let root := k.sched.currentTaskTtbr0 cpu
  if va = 0 ∨ size = 0 ∨ root = 0 then []
  else clearedPages k.sched.mem root (Memory.rangePages va size)

def switchesTable (k : Kernel) (cpu : Cpu) (sp : Nat) : Bool :=
  decide ((k.step (.scheduleNext cpu sp)).sched.currentTtbr0 cpu ≠ k.sched.currentTtbr0 cpu)

/-- The step removes the entry from the TLB of a CPU. No other CPU is told. -/
def tlbFlush (k : Kernel) (op : KernelOp) (cpu : Cpu) (e : Nat × Translation) : Bool :=
  match op with
  | .scheduleNext c sp => decide (c = cpu) && switchesTable k c sp &&
      ((k.step op).sched.currentTask c).any (flushesFor e.1)
  | .syscall c id a _ => decide (c = cpu) && decide (accepted k c id = some .munmap) &&
      (munmapFlushes k c a.arg0 a.arg1).any fun va => va / 4096 % 2 ^ 44 == e.1
  | _ => false

def machine : Kernel × (Cpu → List (Nat × Translation)) → Act KernelOp Cpu Nat →
    Kernel × (Cpu → List (Nat × Translation)) := cacheStep Kernel.step tlbLook tlbFlush

def Agrees (k : Kernel) (cpu : Cpu) (e : Nat × Translation) : Prop :=
  k.sched.mem.translate (k.sched.currentTaskTtbr0 cpu) (e.1 * 4096) = some e.2

/-- If the step installs another table, everything that is still cached agrees with it. -/
def CleanSwitch (p : Kernel × (Cpu → List (Nat × Translation))) (act : Act KernelOp Cpu Nat) : Prop :=
  match act with
  | .act (.scheduleNext cpu sp) => switchesTable p.1 cpu sp = true →
      ∀ e ∈ (machine p act).2 cpu, Agrees (machine p act).1 cpu e
  | _ => True

/-- An EL0 translation that a table installed on the CPU has given during the run, since the
last flush of its page there. -/
def Stale (k : Kernel) (ops : List KernelOp) (cpu : Cpu) (e : Nat × Translation) : Prop :=
  May Kernel.step tlbLook tlbFlush k ops cpu e

/-- However the TLBs fill, every switch leaves them clean exactly when at every switch the stale translations
that are not flushed are also those of the next table. -/
theorem switches_clean_iff (k : Kernel) (ops : List KernelOp) :
    (∀ acts, actions acts = ops → Guarded machine CleanSwitch (k, fun _ => []) acts) ↔
      ∀ before cpu sp after, ops = before ++ .scheduleNext cpu sp :: after →
        switchesTable (run Kernel.step k before) cpu sp = true →
        ∀ e, Stale k before cpu e →
          (((run Kernel.step k before).step (.scheduleNext cpu sp)).sched.currentTask cpu).any
            (flushesFor e.1) = false →
          Agrees ((run Kernel.step k before).step (.scheduleNext cpu sp)) cpu e := by
  constructor
  · intro h before cpu sp after hops hswitch e hstale hrange
    obtain ⟨acts, hacts, hmem⟩ := cached_of_may Kernel.step tlbLook tlbFlush hstale
    have hguard := h (acts ++ .act (.scheduleNext cpu sp) :: after.map .act) (by
      rw [actions_append, hacts, actions, actions_map_act, hops])
    obtain ⟨-, hstep, -⟩ := (guarded_append ..).mp hguard
    have hkernel : (run machine (k, fun _ => []) acts).1 = run Kernel.step k before := by
      rw [machine, run_cache_fst, hacts]
    have hclean := hstep (by rw [hkernel]; exact hswitch) e (by
      refine List.mem_filter.mpr ⟨hmem, ?_⟩
      rw [hkernel]
      simp [tlbFlush, hrange])
    rw [machine, cacheStep] at hclean
    rw [← hkernel]
    exact hclean
  · rintro h acts rfl
    rw [guarded_iff]
    rintro before act after rfl
    have hkernel : (run machine (k, fun _ => []) before).1 = run Kernel.step k (actions before) :=
      run_cache_fst ..
    rcases act with op | ⟨c, page⟩
    case fill => trivial
    cases op with
    | syscall cpu id a env => trivial
    | popPendingSignal cpu => trivial
    | pageFault cpu => trivial
    | scheduleNext cpu sp =>
      intro hswitch e he
      obtain ⟨hmem, hkept⟩ := List.mem_filter.mp he
      have hstale := may_of_cached Kernel.step tlbLook tlbFlush hmem
      rw [hkernel] at hswitch hkept
      have hrange : (((run Kernel.step k (actions before)).step (.scheduleNext cpu sp)).sched.currentTask
          cpu).any (flushesFor e.1) = false := by
        simpa [tlbFlush, hswitch] using hkept
      have hagrees := h (actions before) cpu sp (actions after)
        (by rw [actions_append, actions]) hswitch e hstale hrange
      rw [← hkernel] at hagrees
      exact hagrees

def onePageTable (tbl : Nat) (i : Index) : Entry :=
  if tbl = 0x48200000 ∧ i = 0 then Memory.tableEntry 0x48201000
  else if tbl = 0x48201000 ∧ i = l1Idx 0x48100000 then Memory.tableEntry 0x48202000
  else if tbl = 0x48202000 ∧ i = l2Idx 0x48100000 then Memory.tableEntry 0x48203000
  else if tbl = 0x48203000 ∧ i = l3Idx 0x48100000 then BitVec.ofNat 64 0x48100000 ||| userRwFlags
  else 0

def twoTables : Kernel :=
  { smallKernel 0 with
    sched := { (smallKernel 0).sched with
      tasks := Function.update (smallKernel 0).sched.tasks 2
        (some (Task.newUser 2 [] 0x48400000 0x100000 0 0x48300000 0x50000000 0x50001000 0 0))
      mem := { (smallKernel 0).sched.mem with table := onePageTable }
      nextTid := 3 } }

def switchWhileCached : List (Act KernelOp Cpu Nat) := [.fill 0 0x48100, .act (.scheduleNext 0 0x8000)]

/-- A page of the first task is cached, and still is when the second task runs, whose table
does not map it. -/
theorem foreign_page_stays_cached : ¬Guarded machine CleanSwitch (twoTables, fun _ => []) switchWhileCached := by
  rintro ⟨-, hclean, -⟩
  have hcached : ((run machine (twoTables, fun _ => []) switchWhileCached).2 0).map Prod.fst = [0x48100] := by
    decide +kernel
  have hunmapped : (run machine (twoTables, fun _ => []) switchWhileCached).1.sched.mem.translate
      ((run machine (twoTables, fun _ => []) switchWhileCached).1.sched.currentTaskTtbr0 0)
      (0x48100 * 4096) = none := by
    decide +kernel
  obtain ⟨e, he, hpage⟩ := List.mem_map.mp (hcached ▸ List.mem_singleton_self 0x48100)
  have hagrees := hclean (by decide +kernel) e he
  unfold Agrees at hagrees
  rw [hpage] at hagrees
  exact absurd (hagrees.symm.trans hunmapped) (by simp)

end Aeglos.Proofs
