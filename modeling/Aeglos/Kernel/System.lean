import Aeglos.Kernel.Scheduler
import Aeglos.Kernel.Compositor
import Aeglos.Kernel.Vfs

/-!
# The state of the kernel

The state that the syscalls work on, and the kernel's accesses to memory at EL1. `Layout` says where
the masks and filters of the task pool lie in physical memory.
-/

namespace Aeglos

open Effects

def byteOf (w : BitVec 64) (i : Nat) : UInt8 := UInt8.ofNat (w.toNat / 256 ^ i)

def setByteOf (w : BitVec 64) (i : Nat) (b : UInt8) : BitVec 64 :=
  (w &&& ~~~(0xFF#64 <<< (8 * i))) ||| (BitVec.ofNat 64 b.toNat <<< (8 * i))

namespace Memory

def wordIdx (pa : Nat) : Index := Fin.ofNat 512 (pa % 4096 / 8)

def byte (m : Memory) (pa : Nat) : UInt8 := byteOf (m.table (pageFloor pa) (wordIdx pa)) (pa % 8)

def setByte (m : Memory) (pa : Nat) (b : UInt8) : Memory :=
  m.setEntry (pageFloor pa) (wordIdx pa) (setByteOf (m.table (pageFloor pa) (wordIdx pa)) (pa % 8) b)

end Memory

inductive TaskByte where
  | caps (slot : Slot) (i : Nat)
  | filter (slot : Slot) (i : Nat)

structure Layout where
  caps : Slot → Nat
  filter : Slot → Nat

def Layout.taskByte (l : Layout) (pa : Nat) : Option TaskByte :=
  match (List.finRange maxTasks).find? fun s => decide (l.caps s ≤ pa ∧ pa < l.caps s + 8) with
  | some s => some (.caps s (pa - l.caps s))
  | none =>
    ((List.finRange maxTasks).find? fun s => decide (l.filter s ≤ pa ∧ pa < l.filter s + 16)).map fun s =>
      .filter s (pa - l.filter s)

structure Framebuffer where
  va : Nat
  w : Nat
  h : Nat
  pitch : Nat

/-- `sent` collects the frames that the network device has been given. -/
structure Kernel where
  sched : Sched
  surfaces : Fin maxSurfaces → Surface
  anyDirty : Bool
  vfs : Vfs
  fat : Fat
  config : List ConfigEntry
  netUp : Bool
  sent : List Bytes
  framebuffer : Framebuffer
  layout : Layout

namespace Kernel

def vm (k : Kernel) : Vm := ⟨k.sched.mem, k.surfaces, k.anyDirty⟩

def setVm (k : Kernel) (v : Vm) : Kernel :=
  { k with sched := { k.sched with mem := v.mem }, surfaces := v.surfaces, anyDirty := v.anyDirty }

def ttbr0 (k : Kernel) (cpu : Cpu) : Nat :=
  if k.sched.currentTtbr0 cpu = 0 then k.sched.vmmTtbr0 else k.sched.currentTtbr0 cpu

/-- The memory that TTBR1 maps: the device window and the RAM window. -/
def kernelMapped (pa : Nat) : Bool :=
  decide (0x08000000 ≤ pa ∧ pa < 0x0C000000) || decide (0x40000000 ≤ pa ∧ pa < 0x440000000)

/-- The physical address that the kernel reaches on a CPU; high addresses go through TTBR1,
low addresses through the table of the current task. -/
def physical (k : Kernel) (cpu : Cpu) (va : Nat) : Option Nat :=
  if kernelVaOffset ≤ va then
    if kernelMapped (va - kernelVaOffset) then some (va - kernelVaOffset) else none
  else if va < 2 ^ 48 then
    (k.sched.mem.translate (k.ttbr0 cpu) va).map fun tr => tr.page + va % 4096
  else none

def peek (k : Kernel) (pa : Nat) : UInt8 :=
  match k.layout.taskByte pa with
  | some (.caps slot i) => ((k.sched.tasks slot).map fun t => byteOf t.capabilities i).getD 0
  | some (.filter slot i) =>
    ((k.sched.tasks slot).map fun t =>
      if i < 8 then byteOf t.syscallFilter.1 i else byteOf t.syscallFilter.2 (i - 8)).getD 0
  | none => k.sched.mem.byte pa

def setCapsByte (i : Nat) (b : UInt8) (t : Task) : Task := { t with capabilities := setByteOf t.capabilities i b }

def setFilterByte (i : Nat) (b : UInt8) (t : Task) : Task :=
  { t with syscallFilter :=
      if i < 8 then (setByteOf t.syscallFilter.1 i b, t.syscallFilter.2)
      else (t.syscallFilter.1, setByteOf t.syscallFilter.2 (i - 8) b) }

def poke (k : Kernel) (pa : Nat) (b : UInt8) : Kernel :=
  match k.layout.taskByte pa with
  | some (.caps slot i) => { k with sched := k.sched.modifyTask slot (setCapsByte i b) }
  | some (.filter slot i) => { k with sched := k.sched.modifyTask slot (setFilterByte i b) }
  | none => { k with sched := { k.sched with mem := k.sched.mem.setByte pa b } }

end Kernel

/-- A computation of the kernel. It stops when the code panics, spins forever, or accesses
an address that is not mapped at EL1. -/
abbrev Call (α : Type) := Comp Kernel α

namespace Call

def loadByte (cpu : Cpu) (va : Nat) : Call UInt8 := do
  match (← get).physical cpu va with
  | none => stop
  | some pa => return (← get).peek pa

def load (cpu : Cpu) (va : Nat) : Nat → Call Bytes
  | 0 => return []
  | len + 1 => do
    let b ← loadByte cpu va
    return b :: (← load cpu (wrap64 (va + 1)) len)

def storeByte (cpu : Cpu) (va : Nat) (b : UInt8) : Call Unit := do
  match (← get).physical cpu va with
  | none => stop
  | some pa => modify fun k => k.poke pa b

def store (cpu : Cpu) (va : Nat) : Bytes → Call Unit
  | [] => return ()
  | b :: bs => do
    storeByte cpu va b
    store cpu (wrap64 (va + 1)) bs

def sched {α : Type} (op : SchedOp) (result : Sched → α) : Call α := do
  let s := (← get).sched
  modify fun k => { k with sched := k.sched.step op }
  return result s

def vm {α : Type} (f : Vm → α × Vm) : Call α := do
  let r := f (← get).vm
  modify fun k => k.setVm r.2
  return r.1

def vmOrStop {α : Type} (f : Vm → Option α × Vm) : Call α := do
  match ← vm f with
  | none => stop
  | some a => return a

def vfs {α : Type} (f : Vfs → α × Vfs) : Call α := do
  let r := f (← get).vfs
  modify fun k => { k with vfs := r.2 }
  return r.1

def fat {α : Type} (x : FatM α) : Call α := zoom Kernel.fat (fun f k => { k with fat := f }) x

def netHdrSize : Nat := 10
def rxBufSize : Nat := 2048

def transmit (frame : Bytes) : Call Bool := do
  if !(← get).netUp then return false
  if netHdrSize + frame.length > rxBufSize then return false
  modify fun k => { k with sent := k.sent ++ [frame] }
  return true

end Call

end Aeglos
