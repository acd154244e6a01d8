import Aeglos.Library.SlotTable
import Aeglos.Kernel.Task
import Aeglos.Kernel.Vmm

/-!
# The scheduler

`process/scheduler.rs`. Each function is one critical section under `SCHED_LOCK`, so an
interleaving of CPUs is a list of `SchedOp`.
-/

namespace Aeglos

def taskStackPages : Nat := 256
def taskStackSize : Nat := taskStackPages * pageSize
def userStackPages : Nat := 64
def userStackSize : Nat := userStackPages * pageSize

/-- The statics of the scheduler with the memory that its functions allocate from.
`current cpu = none` stands for `NO_TASK`; `frames` holds the trap frames by address. -/
structure Sched where
  tasks : Slot → Option Task
  current : Cpu → Option Slot
  currentTtbr0 : Cpu → Nat
  nextTid : Nat
  active : Bool
  totalTicks : Nat
  idleTicks : Nat
  mem : Memory
  frames : Nat → TrapFrame
  vmmTtbr0 : Nat

namespace Sched

def boot (mem : Memory) (frames : Nat → TrapFrame) (vmmTtbr0 : Nat) : Sched where
  tasks := fun _ => none
  current := fun cpu => if cpu = 0 then some 0 else none
  currentTtbr0 := fun _ => 0
  nextTid := 0
  active := false
  totalTicks := 0
  idleTicks := 0
  mem := mem
  frames := frames
  vmmTtbr0 := vmmTtbr0

def modifyTask (s : Sched) (slot : Slot) (f : Task → Task) : Sched :=
  { s with tasks := SlotTable.modify s.tasks slot f }

def findTid (s : Sched) (tid : Nat) : Option Slot := SlotTable.find (fun t => t.tid == tid) s.tasks

def modifyTid (s : Sched) (tid : Nat) (f : Task → Task) : Bool × Sched :=
  match s.findTid tid with
  | none => (false, s)
  | some slot => (true, s.modifyTask slot f)

def modifyCurrent (s : Sched) (cpu : Cpu) (f : Task → Task) : Sched :=
  match s.current cpu with
  | none => s
  | some slot => s.modifyTask slot f

def currentTask (s : Sched) (cpu : Cpu) : Option Task := (s.current cpu).bind s.tasks

def init (s : Sched) : Sched :=
  { s with
    tasks := Function.update s.tasks 0 (some (Task.idle s.vmmTtbr0 s.nextTid 0))
    nextTid := s.nextTid + 1
    current := Function.update s.current 0 (some 0) }

def secondaryIdleInit (s : Sched) (cpu : Cpu) : Sched :=
  if cpu = 0 then s
  else match SlotTable.free s.tasks with
    | none => s
    | some slot =>
      { s with
        tasks := Function.update s.tasks slot (some (Task.idle s.vmmTtbr0 s.nextTid cpu))
        nextTid := s.nextTid + 1
        current := Function.update s.current cpu (some slot) }

def install (s : Sched) (slot : Slot) (task : Task) (frame : TrapFrame) : Sched :=
  { s with
    tasks := Function.update s.tasks slot (some task)
    nextTid := s.nextTid + 1
    active := true
    frames := Function.update s.frames task.sp frame }

def spawn (s : Sched) (name : List UInt8) (entry : Nat) : Except String Nat × Sched :=
  match SlotTable.free s.tasks with
  | none => (.error "task pool full", s)
  | some slot =>
    match s.mem.allocPages taskStackPages with
    | none => (.error "out of memory for task stack", s)
    | some (stackBase, mem) =>
      (.ok s.nextTid, { s with mem := mem }.install slot
        (Task.new s.vmmTtbr0 s.nextTid name stackBase taskStackSize) (TrapFrame.fresh entry 0x5 0))

def vaRange (segs : List ProcSegment) : Nat × Nat :=
  let el0 := segs.filter fun seg => seg.el0 && seg.size > 0
  let base := el0.foldl (fun b seg => min b seg.pa) (2 ^ 64 - 1)
  let top := el0.foldl (fun t seg => max t (wrap64 (seg.pa + seg.size))) 0
  (if base = 2 ^ 64 - 1 then 0 else base, top)

def spawnUserEntryWithSegs (s : Sched) (name : List UInt8) (entry : Nat) (caps : BitVec 64)
    (segs : List ProcSegment) : Option (Except String Nat) × Sched :=
  match s.mem.allocPages taskStackPages with
  | none => (some (.error "out of memory for kernel stack"), s)
  | some (kernelStack, mem) =>
    match mem.allocPages userStackPages with
    | none => (some (.error "out of memory for user stack"), { s with mem := mem })
    | some (userStack, mem) =>
      let allSegs := segs.take 17 ++ [⟨userStack, userStackSize, true, false, false⟩]
      match mem.createProcessTable allSegs with
      | .error mem => (none, { s with mem := mem })
      | .ok (ttbr0, mem) =>
        let s := { s with mem := mem }
        match SlotTable.free s.tasks with
        | none => (some (.error "task pool full"), s)
        | some slot =>
          (some (.ok s.nextTid), s.install slot
            (Task.newUser s.nextTid name kernelStack taskStackSize caps ttbr0
              (vaRange segs).1 (vaRange segs).2 userStack (userStack + userStackSize))
            (TrapFrame.fresh entry 0 (userStack + userStackSize)))

/-- A thread shares the table of its creator, and records no address range of its own. -/
def spawnUserThread (s : Sched) (name : List UInt8) (entry userSp : Nat) (caps : BitVec 64)
    (ttbr0 : Nat) : Except String Nat × Sched :=
  match s.mem.allocPages taskStackPages with
  | none => (.error "out of memory for kernel stack", s)
  | some (kernelStack, mem) =>
    let s := { s with mem := mem }
    match SlotTable.free s.tasks with
    | none => (.error "task pool full", s)
    | some slot =>
      (.ok s.nextTid, s.install slot
        (Task.newUser s.nextTid name kernelStack taskStackSize caps ttbr0 0 0 0 0)
        (TrapFrame.fresh entry 0 userSp))

def others (start : Slot) : List Slot := (List.range 15).map fun k => Fin.ofNat maxTasks (start.val + 1 + k)

def scanFrom (tasks : Slot → Option Task) (start : Slot) (p : Task → Bool) : Option Slot :=
  (others start).find? fun i => (tasks i).any p

def pinnedReady (cpu : Cpu) (t : Task) : Bool := t.state == .ready && t.stackBase != 0 && t.cpuPin == some cpu

def migratableReady (t : Task) : Bool := t.state == .ready && t.stackBase != 0 && t.cpuPin.isNone

def anyReady (cpu : Cpu) (t : Task) : Bool := t.state == .ready && (t.cpuPin.isNone || t.cpuPin == some cpu)

def pickNext (tasks : Slot → Option Task) (cpu : Cpu) (start : Slot) : Option Slot :=
  (scanFrom tasks start (pinnedReady cpu)).or
    ((scanFrom tasks start migratableReady).or (scanFrom tasks start (anyReady cpu)))

def chargeTick (sp : Nat) (t : Task) : Task :=
  if t.ticksRemaining > 1 then
    { t with sp := sp, ticksUsed := wrap64 (t.ticksUsed + 1), ticksRemaining := t.ticksRemaining - 1 }
  else
    { t with sp := sp, ticksUsed := wrap64 (t.ticksUsed + 1),
             state := if t.state = .running then .ready else t.state }

def keepsCpu (t : Task) : Bool := decide (t.ticksRemaining > 1) && t.state == .running

def resetQuantum (t : Task) : Task := { t with ticksRemaining := max t.priority 1 }

def setRunning (t : Task) : Task := { t with state := .running, ticksRemaining := max t.priority 1 }

def switchTo (s : Sched) (cpu : Cpu) (idx : Slot) : Sched :=
  let next := (s.tasks idx).map Task.ttbr0
  { s with
    current := Function.update s.current cpu (some idx)
    tasks := SlotTable.modify s.tasks idx setRunning
    currentTtbr0 := match next with
      | none => s.currentTtbr0
      | some ttbr0 =>
        if ttbr0 ≠ 0 ∧ ttbr0 ≠ s.currentTtbr0 cpu then Function.update s.currentTtbr0 cpu ttbr0
        else s.currentTtbr0 }

def charge (s : Sched) (cur : Slot) (currentSp : Nat) : Sched :=
  { s with
    totalTicks := s.totalTicks + 1
    idleTicks := if ((s.tasks cur).map fun t => t.stackBase == 0).getD true then s.idleTicks + 1
      else s.idleTicks
    tasks := SlotTable.modify s.tasks cur (chargeTick currentSp) }

def scheduleNext (s : Sched) (cpu : Cpu) (currentSp : Nat) : Sched × Nat :=
  if !s.active then (s, currentSp)
  else match s.current cpu with
    | none => ({ s with totalTicks := s.totalTicks + 1 }, currentSp)
    | some cur =>
      let charged := s.charge cur currentSp
      if (s.tasks cur).any keepsCpu then (charged, currentSp)
      else match pickNext charged.tasks cpu cur with
        | none => (charged.modifyTask cur setRunning, currentSp)
        | some idx =>
          let expired := (s.tasks cur).any fun t => !decide (t.ticksRemaining > 1)
          let reset := if expired then charged.modifyTask cur resetQuantum else charged
          (reset.switchTo cpu idx, ((reset.tasks idx).map Task.sp).getD currentSp)

def currentTaskTtbr0 (s : Sched) (cpu : Cpu) : Nat := ((s.currentTask cpu).map Task.ttbr0).getD 0

def currentTid (s : Sched) (cpu : Cpu) : Nat := ((s.currentTask cpu).map Task.tid).getD 0

def currentCaps (s : Sched) (cpu : Cpu) : BitVec 64 := ((s.currentTask cpu).map Task.capabilities).getD 0

def currentSyscallFilter (s : Sched) (cpu : Cpu) : BitVec 64 × BitVec 64 :=
  ((s.currentTask cpu).map Task.syscallFilter).getD (allOnes64, allOnes64)

def currentSignalHandler (s : Sched) (cpu : Cpu) : Nat := ((s.currentTask cpu).map Task.signalHandler).getD 0

def getTaskCaps (s : Sched) (tid : Nat) : Option (BitVec 64) :=
  ((s.findTid tid).bind s.tasks).map Task.capabilities

def getTaskSyscallFilter (s : Sched) (tid : Nat) : Option (BitVec 64 × BitVec 64) :=
  ((s.findTid tid).bind s.tasks).map Task.syscallFilter

def setTaskCaps (s : Sched) (tid : Nat) (newCaps : BitVec 64) : Bool × Sched :=
  s.modifyTid tid fun t => { t with capabilities := newCaps }

def setTaskSyscallFilter (s : Sched) (tid : Nat) (filter : BitVec 64 × BitVec 64) : Bool × Sched :=
  s.modifyTid tid fun t => { t with syscallFilter := filter }

def wake (t : Task) : Task := { t with state := if t.state = .blocked then .ready else t.state }

def sendSignal (s : Sched) (tid sig : Nat) : Bool × Sched :=
  if sig ≥ 32 then (false, s)
  else s.modifyTid tid fun t =>
    wake { t with pendingSignals := t.pendingSignals ||| (1#32 <<< sig) }

def setSignalHandler (s : Sched) (cpu : Cpu) (handler : Nat) (mask : BitVec 32) : Sched :=
  s.modifyCurrent cpu fun t => { t with signalHandler := handler, signalMask := mask }

def deliverable (t : Task) : Option (Fin 32) :=
  (List.finRange 32).find? fun i => (t.pendingSignals &&& ~~~t.signalMask).getLsbD i.val

def popPendingSignal (s : Sched) (cpu : Cpu) : Option (Fin 32) × Sched :=
  match (s.currentTask cpu).bind deliverable with
  | none => (none, s)
  | some sig => (some sig, s.modifyCurrent cpu fun t =>
      { t with pendingSignals := t.pendingSignals &&& ~~~(1#32 <<< sig.val) })

def swapSignalMask (s : Sched) (cpu : Cpu) (newMask : BitVec 32) : BitVec 32 × Sched :=
  (((s.currentTask cpu).map Task.signalMask).getD 0,
    s.modifyCurrent cpu fun t => { t with signalMask := newMask })

def markDead (code : Int) (t : Task) : Task := { t with state := .dead, exitCode := code }

/-- Every task that waits for `tid` becomes Ready, whatever its state was. -/
def wakeWaiter (tid : Nat) (t : Task) : Task :=
  if t.waitTid = some tid then { t with waitTid := none, state := .ready } else t

def wakeWaiters (s : Sched) (tid : Nat) : Sched := { s with tasks := fun i => (s.tasks i).map (wakeWaiter tid) }

/-- The exit code, in x0 of the saved frame of every task that waits for `tid`. -/
def patchFrames (s : Sched) (tid : Nat) (code : Int) : Nat → TrapFrame := fun sp =>
  if (List.finRange maxTasks).any fun i =>
      (s.tasks i).any fun t => t.waitTid == some tid && t.sp == sp then
    { s.frames sp with regs := Function.update (s.frames sp).regs 0 (BitVec.ofInt 64 code) }
  else s.frames sp

def forceExit (s : Sched) (tid : Nat) (code : Int) : Bool × Sched :=
  match s.findTid tid with
  | none => (false, s)
  | some slot => (true, (s.modifyTask slot (markDead code)).wakeWaiters tid)

def exitTask (s : Sched) (cpu : Cpu) (code : Int) : Sched :=
  let myTid := s.currentTid cpu
  let dead := s.modifyCurrent cpu (markDead code)
  { dead.wakeWaiters myTid with frames := dead.patchFrames myTid code }

def sendMessage (s : Sched) (targetTid : Nat) (msg : Message) : Bool × Sched :=
  match s.findTid targetTid with
  | none => (false, s)
  | some slot =>
    match (s.tasks slot).bind fun t => t.mailbox.push msg with
    | none => (false, s)
    | some mailbox => (true, s.modifyTask slot fun t => wake { t with mailbox := mailbox })

def recvMessage (s : Sched) (cpu : Cpu) : Option Message × Sched :=
  match (s.currentTask cpu).bind fun t => t.mailbox.pop.1 with
  | some msg => (some msg, s.modifyCurrent cpu fun t => { t with mailbox := t.mailbox.pop.2 })
  | none => (none, s.modifyCurrent cpu fun t => { t with mailbox := t.mailbox.pop.2, state := .blocked })

def tryRecvMessage (s : Sched) (cpu : Cpu) : Option Message × Sched :=
  ((s.currentTask cpu).bind fun t => t.mailbox.pop.1,
    s.modifyCurrent cpu fun t => { t with mailbox := t.mailbox.pop.2 })

def yieldCpu (s : Sched) (cpu : Cpu) : Sched := s.modifyCurrent cpu fun t => { t with state := .ready }

def reap (s : Sched) (slot : Slot) (t : Task) : Sched :=
  { s with
    tasks := Function.update s.tasks slot none
    mem := if t.stackBase ≠ 0 ∧ t.stackSize ≠ 0 then
        s.mem.releasePages t.stackBase (t.stackSize / pageSize)
      else s.mem }

def waitForTid (s : Sched) (cpu : Cpu) (targetTid : Nat) : Option Int × Sched :=
  match s.findTid targetTid with
  | none => (some (-1), s)
  | some slot =>
    match s.tasks slot with
    | none => (some (-1), s)
    | some t =>
      if t.state = .dead then (some t.exitCode, s.reap slot t)
      else (none, s.modifyCurrent cpu fun cur =>
        { cur with state := .blocked, waitTid := some targetTid })

def setAffinity (s : Sched) (tid cpu : Nat) : Bool × Sched :=
  s.modifyTid tid fun t => { t with cpuPin := if h : cpu < maxCpus then some ⟨cpu, h⟩ else none }

def setTaskPriority (s : Sched) (tid priority : Nat) : Sched :=
  (s.modifyTid tid fun t => { t with priority := min (max priority 1) 8 }).2

end Sched

inductive SchedOp where
  | init
  | secondaryIdleInit (cpu : Cpu)
  | spawn (name : List UInt8) (entry : Nat)
  | spawnUserEntryWithSegs (name : List UInt8) (entry : Nat) (caps : BitVec 64)
      (segs : List ProcSegment)
  | spawnUserThread (name : List UInt8) (entry userSp : Nat) (caps : BitVec 64) (ttbr0 : Nat)
  | scheduleNext (cpu : Cpu) (currentSp : Nat)
  | setTaskSyscallFilter (tid : Nat) (filter : BitVec 64 × BitVec 64)
  | sendSignal (tid sig : Nat)
  | setSignalHandler (cpu : Cpu) (handler : Nat) (mask : BitVec 32)
  | popPendingSignal (cpu : Cpu)
  | forceExit (tid : Nat) (code : Int)
  | swapSignalMask (cpu : Cpu) (newMask : BitVec 32)
  | setTaskCaps (tid : Nat) (newCaps : BitVec 64)
  | sendMessage (targetTid : Nat) (msg : Message)
  | recvMessage (cpu : Cpu)
  | tryRecvMessage (cpu : Cpu)
  | yieldCpu (cpu : Cpu)
  | exitTask (cpu : Cpu) (code : Int)
  | waitForTid (cpu : Cpu) (targetTid : Nat)
  | setAffinity (tid cpu : Nat)
  | setTaskPriority (tid priority : Nat)

def Sched.step (s : Sched) : SchedOp → Sched
  | .init => s.init
  | .secondaryIdleInit cpu => s.secondaryIdleInit cpu
  | .spawn name entry => (s.spawn name entry).2
  | .spawnUserEntryWithSegs name entry caps segs =>
    (s.spawnUserEntryWithSegs name entry caps segs).2
  | .spawnUserThread name entry userSp caps ttbr0 =>
    (s.spawnUserThread name entry userSp caps ttbr0).2
  | .scheduleNext cpu currentSp => (s.scheduleNext cpu currentSp).1
  | .setTaskSyscallFilter tid filter => (s.setTaskSyscallFilter tid filter).2
  | .sendSignal tid sig => (s.sendSignal tid sig).2
  | .setSignalHandler cpu handler mask => s.setSignalHandler cpu handler mask
  | .popPendingSignal cpu => (s.popPendingSignal cpu).2
  | .forceExit tid code => (s.forceExit tid code).2
  | .swapSignalMask cpu newMask => (s.swapSignalMask cpu newMask).2
  | .setTaskCaps tid newCaps => (s.setTaskCaps tid newCaps).2
  | .sendMessage targetTid msg => (s.sendMessage targetTid msg).2
  | .recvMessage cpu => (s.recvMessage cpu).2
  | .tryRecvMessage cpu => (s.tryRecvMessage cpu).2
  | .yieldCpu cpu => s.yieldCpu cpu
  | .exitTask cpu code => s.exitTask cpu code
  | .waitForTid cpu targetTid => (s.waitForTid cpu targetTid).2
  | .setAffinity tid cpu => (s.setAffinity tid cpu).2
  | .setTaskPriority tid priority => s.setTaskPriority tid priority

end Aeglos
