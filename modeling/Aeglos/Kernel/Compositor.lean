import Aeglos.Kernel.Vmm

/-!
# Surfaces, and the syscalls that map memory

`drivers/compositor.rs` and the memory syscalls of `syscall/mod.rs`. A syscall that never comes back
returns `none`.
-/

namespace Aeglos

abbrev maxSurfaces : Nat := 16

structure Surface where
  used : Bool
  owner : Nat
  x : Int
  y : Int
  w : Nat
  h : Nat
  z : Nat
  bufPa : Nat
  bufPages : Nat
  dirty : Bool

def Surface.empty : Surface := ⟨false, 0, 0, 0, 0, 0, 0, 0, 0, false⟩

structure Vm where
  mem : Memory
  surfaces : Fin maxSurfaces → Surface
  anyDirty : Bool

namespace Vm

def bufferPages (w h : Nat) : Nat := wrap64 (wrap64 (wrap64 (w * h) * 4) + 4095) / 4096

def surface (v : Vm) (id : Nat) : Option (Fin maxSurfaces) :=
  if h : id < maxSurfaces then if (v.surfaces ⟨id, h⟩).used then some ⟨id, h⟩ else none else none

def setSurface (v : Vm) (id : Fin maxSurfaces) (s : Surface) : Vm :=
  { v with surfaces := Function.update v.surfaces id s, anyDirty := true }

def create (v : Vm) (ownerTid w h z : Nat) : Option (Fin maxSurfaces) × Vm :=
  match (List.finRange maxSurfaces).find? fun i => !(v.surfaces i).used with
  | none => (none, v)
  | some slot =>
    match v.mem.allocPages (bufferPages w h) with
    | none => (none, v)
    | some (pa, mem) =>
      (some slot, { v with mem := mem }.setSurface slot
        ⟨true, ownerTid, 0, 0, w, h, z, pa, bufferPages w h, true⟩)

def destroy (v : Vm) (id : Nat) : Vm :=
  match v.surface id with
  | none => v
  | some i =>
    { v with mem := v.mem.releasePages (v.surfaces i).bufPa (v.surfaces i).bufPages }.setSurface i .empty

def bufPa (v : Vm) (id : Nat) : Nat :=
  match v.surface id with
  | none => 0
  | some i => (v.surfaces i).bufPa

def touch (v : Vm) (id : Nat) (f : Surface → Surface) : Vm :=
  match v.surface id with
  | none => v
  | some i => v.setSurface i { f (v.surfaces i) with dirty := true }

def setPos (v : Vm) (id : Nat) (x y : Int) : Vm := v.touch id fun s => { s with x := x, y := y }

def markDirty (v : Vm) (id : Nat) : Vm := v.touch id fun s => s

def dirtyAll (v : Vm) : Vm :=
  { v with
    surfaces := fun i => if (v.surfaces i).used then { v.surfaces i with dirty := true } else v.surfaces i
    anyDirty := true }

def raise (v : Vm) (id : Nat) : Vm :=
  match v.surface id with
  | none => v
  | some i =>
    let s := v.surfaces i
    (v.setSurface i { s with z := if s.z < 254 then s.z + 1 else s.z }).dirtyAll

def lower (v : Vm) (id : Nat) : Vm :=
  match v.surface id with
  | none => v
  | some i =>
    let s := v.surfaces i
    (v.setSurface i { s with z := if s.z > 0 then s.z - 1 else s.z }).dirtyAll

def resize (v : Vm) (id newW newH : Nat) : Bool × Vm :=
  match v.surface id with
  | none => (false, v)
  | some i =>
    match v.mem.allocPages (bufferPages newW newH) with
    | none => (false, v)
    | some (newPa, mem) =>
      let s := v.surfaces i
      (true, { v with mem := mem.releasePages s.bufPa s.bufPages }.setSurface i
        { s with bufPa := newPa, bufPages := bufferPages newW newH, w := newW, h := newH, dirty := true })

def composite (v : Vm) : Vm :=
  if v.anyDirty then
    { v with
      surfaces := fun i => if (v.surfaces i).used then { v.surfaces i with dirty := false } else v.surfaces i
      anyDirty := false }
  else v

end Vm

namespace Memory

def zeroPage (m : Memory) (root va : Nat) : Panics Memory :=
  match m.translate root va with
  | none => .error m
  | some tr => .ok (m.fillTable tr.page fun _ => 0)

def zeroPages (m : Memory) (root base count : Nat) : Panics Memory :=
  (List.range count).foldlM (fun m i => m.zeroPage root (base + i * 4096)) m

end Memory

namespace Vm

def returning (v : Vm) (ret : Int) : Panics Memory → Option Int × Vm
  | .ok mem => (some ret, { v with mem := mem })
  | .error mem => (none, { v with mem := mem })

/-- The allocated pages are zeroed through the low address range before they are mapped. -/
def sysMmap (v : Vm) (ttbr0 size : Nat) : Option Int × Vm :=
  if size = 0 then (some (-1), v)
  else
    let pages := wrap64 (size + 0xFFF) / 4096
    match v.mem.allocPages pages with
    | none => (some (-12), v)
    | some (pa, mem) =>
      v.returning pa (do
        let mem ← mem.zeroPages ttbr0 pa pages
        if ttbr0 ≠ 0 then mem.mapUserRw ttbr0 pa size else return mem)

def sysMunmap (v : Vm) (ttbr0 va size : Nat) : Int × Vm :=
  if va = 0 ∨ size = 0 then (-1, v)
  else if ttbr0 = 0 then (-1, v)
  else (0, { v with mem := v.mem.unmapPages ttbr0 va size })

def sysSurfCreate (v : Vm) (tid w h z : Nat) : Int × Vm :=
  match v.create tid w h z with
  | (none, v) => (-1, v)
  | (some id, v) => (id.val, v)

/-- The size that every surface is mapped with, whatever its own size is. -/
def surfSize : Nat := (1280 * 720 * 4 + 4095) / 4096 * 4096

def sysSurfMap (v : Vm) (ttbr0 id : Nat) : Option Int × Vm :=
  if v.bufPa id = 0 then (some (-1), v)
  else if ttbr0 ≠ 0 then v.returning (v.bufPa id) (v.mem.mapUserRw ttbr0 (v.bufPa id) surfSize)
  else (some (v.bufPa id), v)

def sysSurfResize (v : Vm) (id w h : Nat) : Int × Vm :=
  if (v.resize id w h).1 then (0, (v.resize id w h).2) else (-1, (v.resize id w h).2)

end Vm

inductive MapCall where
  | mmap (ttbr0 size : Nat)
  | munmap (ttbr0 va size : Nat)
  | surfCreate (tid w h z : Nat)
  | surfMap (ttbr0 id : Nat)
  | surfResize (id w h : Nat)
  | surfDestroy (id : Nat)

def Vm.step (v : Vm) : MapCall → Vm
  | .mmap ttbr0 size => (v.sysMmap ttbr0 size).2
  | .munmap ttbr0 va size => (v.sysMunmap ttbr0 va size).2
  | .surfCreate tid w h z => (v.sysSurfCreate tid w h z).2
  | .surfMap ttbr0 id => (v.sysSurfMap ttbr0 id).2
  | .surfResize id w h => (v.sysSurfResize id w h).2
  | .surfDestroy id => v.destroy id

end Aeglos
