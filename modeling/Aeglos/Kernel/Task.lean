import Aeglos.Kernel.Page

/-!
# Messages, mailboxes and tasks

The data of `ipc/mod.rs` and `process/task.rs`.
-/

namespace Aeglos

structure Message where
  sender : Nat
  data : Vector UInt8 32
  deriving DecidableEq

def mailboxCapacity : Nat := 8

structure Mailbox where
  buffer : Fin 8 → Option Message
  head : Fin 8
  tail : Fin 8
  count : Nat

namespace Mailbox

def new : Mailbox := ⟨fun _ => none, 0, 0, 0⟩

def push (b : Mailbox) (msg : Message) : Option Mailbox :=
  if b.count ≥ mailboxCapacity then none
  else some { b with
    buffer := Function.update b.buffer b.tail (some msg)
    tail := b.tail + 1
    count := b.count + 1 }

def pop (b : Mailbox) : Option Message × Mailbox :=
  if b.count = 0 then (none, b)
  else (b.buffer b.head, { b with
    buffer := Function.update b.buffer b.head none
    head := b.head + 1
    count := b.count - 1 })

end Mailbox

inductive TaskState where
  | ready
  | running
  | blocked
  | dead
  deriving DecidableEq, Repr

inductive TaskPrivilege where
  | kernel
  | user
  deriving DecidableEq, Repr

abbrev maxTasks : Nat := 16
abbrev maxCpus : Nat := 4

abbrev Slot := Fin maxTasks

abbrev Cpu := Fin maxCpus

structure TrapFrame where
  regs : Fin 31 → BitVec 64
  elr : BitVec 64
  spsr : BitVec 64
  spEl0 : BitVec 64

def trapFrameSize : Nat := 288

structure Task where
  tid : Nat
  name : List UInt8
  state : TaskState
  sp : Nat
  stackBase : Nat
  stackSize : Nat
  mailbox : Mailbox
  privilege : TaskPrivilege
  capabilities : BitVec 64
  ttbr0 : Nat
  exitCode : Int
  waitTid : Option Nat
  userVaBase : Nat
  userVaTop : Nat
  userStackBase : Nat
  userStackTop : Nat
  priority : Nat
  ticksRemaining : Nat
  ticksUsed : Nat
  cpuPin : Option Cpu
  syscallFilter : BitVec 64 × BitVec 64
  pendingSignals : BitVec 32
  signalMask : BitVec 32
  signalHandler : Nat

def allOnes64 : BitVec 64 := BitVec.allOnes 64

def nameBuf (name : List UInt8) : List UInt8 := name.take 15 ++ List.replicate (16 - (name.take 15).length) 0

def kernelVaOffset : Nat := 0xFFFF000000000000

def physToVirt (pa : Nat) : Nat := pa + kernelVaOffset

def frameSp (stackBase stackSize : Nat) : Nat := (physToVirt stackBase + stackSize) / 16 * 16 - trapFrameSize

namespace Task

def blank (tid : Nat) (name : List UInt8) (stackBase stackSize : Nat) : Task where
  tid := tid
  name := name
  state := .ready
  sp := frameSp stackBase stackSize
  stackBase := stackBase
  stackSize := stackSize
  mailbox := .new
  privilege := .kernel
  capabilities := allOnes64
  ttbr0 := 0
  exitCode := 0
  waitTid := none
  userVaBase := 0
  userVaTop := 0
  userStackBase := 0
  userStackTop := 0
  priority := 1
  ticksRemaining := 1
  ticksUsed := 0
  cpuPin := none
  syscallFilter := (allOnes64, allOnes64)
  pendingSignals := 0
  signalMask := 0
  signalHandler := 0

def new (vmmTtbr0 tid : Nat) (name : List UInt8) (stackBase stackSize : Nat) : Task :=
  { blank tid (nameBuf name) stackBase stackSize with ttbr0 := vmmTtbr0 }

def newUser (tid : Nat) (name : List UInt8) (kernelStackBase kernelStackSize : Nat)
    (caps : BitVec 64) (ttbr0 userVaBase userVaTop userStackBase userStackTop : Nat) : Task :=
  { blank tid (nameBuf name) kernelStackBase kernelStackSize with
    privilege := .user
    capabilities := caps
    ttbr0 := ttbr0
    userVaBase := userVaBase
    userVaTop := userVaTop
    userStackBase := userStackBase
    userStackTop := userStackTop }

def idle (vmmTtbr0 tid : Nat) (cpu : Cpu) : Task :=
  { blank tid ([0x69, 0x64, 0x6C, 0x65, 0x30 + UInt8.ofNat cpu.val] ++ List.replicate 11 0) 0 0 with
    state := .running
    sp := 0
    ttbr0 := vmmTtbr0
    cpuPin := some cpu }

end Task

def TrapFrame.fresh (entry spsr spEl0 : Nat) : TrapFrame where
  regs := fun _ => 0
  elr := BitVec.ofNat 64 entry
  spsr := BitVec.ofNat 64 spsr
  spEl0 := BitVec.ofNat 64 spEl0

end Aeglos
