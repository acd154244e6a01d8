import Aeglos.Library.Fallible
import Aeglos.Kernel.Page

/-!
# Page tables

`memory/vmm.rs`. A function that can reach the panic of `alloc_table` returns the memory that the
panic leaves as its error. `translate` is the hardware's walk.
-/

namespace Aeglos

abbrev Entry := BitVec 64

def pteValid : Entry := 1#64 <<< 0
def pteTable : Entry := 1#64 <<< 1
def pteAf : Entry := 1#64 <<< 10
def pteShInner : Entry := 3#64 <<< 8
def pteApRw : Entry := 0#64 <<< 6
def pteApUserRw : Entry := 1#64 <<< 6
def pteUxn : Entry := 1#64 <<< 54
def ptePxn : Entry := 1#64 <<< 53
def attrNormal : Entry := 0#64 <<< 2
def attrDevice : Entry := 1#64 <<< 2

def addrMask : Entry := 0x0000FFFFFFFFF000#64
def blockMask : Entry := 0x0000FFFFFFE00000#64

namespace Entry

def isValid (e : Entry) : Bool := e &&& pteValid != 0

def isTable (e : Entry) : Bool := e &&& pteTable != 0

def isUser (e : Entry) : Bool := e &&& pteApUserRw != 0

def addr (e : Entry) : Nat := (e &&& addrMask).toNat

end Entry

abbrev Index := Fin 512

def l0Idx (va : Nat) : Index := Fin.ofNat 512 (va / 2 ^ 39)
def l1Idx (va : Nat) : Index := Fin.ofNat 512 (va / 2 ^ 30)
def l2Idx (va : Nat) : Index := Fin.ofNat 512 (va / 2 ^ 21)
def l3Idx (va : Nat) : Index := Fin.ofNat 512 (va / 2 ^ 12)

structure ProcSegment where
  pa : Nat
  size : Nat
  el0 : Bool
  exec : Bool
  dev : Bool

structure Translation where
  page : Nat
  attrs : Entry
  deriving DecidableEq

def Entry.page (e : Entry) : Option Translation :=
  if e.isValid && e.isTable then some ⟨e.addr, e &&& ~~~addrMask⟩ else none

def Entry.blockPage (e : Entry) (i : Index) : Translation :=
  ⟨(e &&& blockMask).toNat + i.val * 4096, (e &&& ~~~blockMask) ||| pteTable⟩

structure Memory where
  pages : PageAllocator
  table : Nat → Index → Entry

/-- The result of a function that may panic; the error is the memory after the panic. -/
abbrev Panics (α : Type) := Except Memory α

namespace Memory

def allocPages (m : Memory) (count : Nat) : Option (Nat × Memory) :=
  (m.pages.allocPages count).map fun r =>
    (r.1, { pages := r.2, table := fun a i =>
      if r.1 ≤ a ∧ a < r.1 + count * pageSize then 0 else m.table a i })

def releasePages (m : Memory) (base count : Nat) : Memory := { m with pages := m.pages.releasePages base count }

def setEntry (m : Memory) (tbl : Nat) (idx : Index) (e : Entry) : Memory :=
  { m with table := Function.update m.table tbl (Function.update (m.table tbl) idx e) }

def allocTable (m : Memory) : Panics (Nat × Memory) :=
  match m.allocPages 1 with
  | none => .error m
  | some r => .ok r

def tableEntry (t : Nat) : Entry := BitVec.ofNat 64 t ||| pteValid ||| pteTable

def splitEntry (block : Entry) (i : Index) : Entry :=
  BitVec.ofNat 64 ((block &&& blockMask).toNat + i.val * 4096) &&& addrMask |||
    ((block &&& ~~~blockMask) ||| pteTable)

def fillTable (m : Memory) (tbl : Nat) (entries : Index → Entry) : Memory :=
  { m with table := Function.update m.table tbl entries }

def getOrAllocSubtable (m : Memory) (tbl : Nat) (idx : Index) : Panics (Nat × Memory) :=
  let entry := m.table tbl idx
  if !entry.isValid then do
    let (t, m) ← m.allocTable
    return (t, m.setEntry tbl idx (tableEntry t))
  else if !entry.isTable then do
    let (t, m) ← m.allocTable
    return (t, (m.fillTable t (splitEntry entry)).setEntry tbl idx (tableEntry t))
  else return (entry.addr, m)

def mergedFlags (existing flags : Entry) : Entry :=
  if existing.isValid && existing.isUser then
    (flags &&& ~~~pteUxn) ||| ((existing &&& pteUxn) &&& (flags &&& pteUxn))
  else flags

def mapOnePage (m : Memory) (root pa va : Nat) (flags : Entry) : Panics Memory := do
  let (l1, m) ← m.getOrAllocSubtable root (l0Idx va)
  let (l2, m) ← m.getOrAllocSubtable l1 (l1Idx va)
  let (l3, m) ← m.getOrAllocSubtable l2 (l2Idx va)
  let existing := m.table l3 (l3Idx va)
  return m.setEntry l3 (l3Idx va)
    ((BitVec.ofNat 64 pa &&& addrMask) ||| mergedFlags existing flags)

def pageFloor (a : Nat) : Nat := a / 4096 * 4096

def pageCount (a size : Nat) : Nat := wrap64 (size + (a - pageFloor a) + 0xFFF) / 4096

def mapPages (m : Memory) (root pa va size : Nat) (flags : Entry) : Panics Memory :=
  (List.range (pageCount pa size)).foldlM
    (fun m i => m.mapOnePage root (pageFloor pa + i * 4096) (pageFloor va + i * 4096) flags) m

def userRwFlags : Entry :=
  pteValid ||| pteTable ||| pteAf ||| pteShInner ||| pteApUserRw ||| attrNormal ||| pteUxn ||| ptePxn

def mapUserRw (m : Memory) (root pa size : Nat) : Panics Memory := m.mapPages root pa pa size userRwFlags

def segmentFlags (seg : ProcSegment) : Entry :=
  pteValid ||| pteTable ||| pteAf ||| pteShInner ||| (if seg.dev then attrDevice else attrNormal) |||
    (if seg.el0 then pteApUserRw else pteApRw) ||| (if seg.exec then 0 else pteUxn) ||| ptePxn

def createProcessTable (m : Memory) (segs : List ProcSegment) : Panics (Nat × Memory) := do
  let (root, m) ← m.allocTable
  let m ← segs.foldlM (fun m seg =>
    if seg.size = 0 then return m
    else m.mapPages root seg.pa seg.pa seg.size (segmentFlags seg)) m
  return (root, m)

/-- The level-3 slot of a virtual page as `unmap_pages` finds it. Levels 0 and 1 are only
checked to be valid, and blocks at level 2 are skipped. -/
def unmapSlot (m : Memory) (root va : Nat) : Option (Nat × Index) :=
  let e0 := m.table root (l0Idx va)
  if !e0.isValid then none else
  let e1 := m.table e0.addr (l1Idx va)
  if !e1.isValid then none else
  let e2 := m.table e1.addr (l2Idx va)
  if !e2.isValid then none else
  if !e2.isTable then none else
  if !(m.table e2.addr (l3Idx va)).isValid then none
  else some (e2.addr, l3Idx va)

def unmapOnePage (m : Memory) (root va : Nat) : Memory :=
  match m.unmapSlot root va with
  | none => m
  | some (l3, i) =>
    let cleared := m.setEntry l3 i 0
    { cleared with pages := cleared.pages.freePage (m.table l3 i).addr }

def rangePages (va size : Nat) : List Nat := (List.range (pageCount va size)).map fun i => pageFloor va + i * 4096

def unmapPages (m : Memory) (root va size : Nat) : Memory :=
  (rangePages va size).foldl (fun m page => m.unmapOnePage root page) m

def child (m : Memory) (tbl : Nat) (idx : Index) : Option Nat :=
  let e := m.table tbl idx
  if e.isValid && e.isTable then some e.addr else none

def leaf (m : Memory) (l2 va : Nat) : Option Translation :=
  let e2 := m.table l2 (l2Idx va)
  if !e2.isValid then none
  else if !e2.isTable then some (e2.blockPage (l3Idx va))
  else (m.table e2.addr (l3Idx va)).page

def translate (m : Memory) (root va : Nat) : Option Translation := do
  let l1 ← m.child root (l0Idx va)
  let l2 ← m.child l1 (l1Idx va)
  m.leaf l2 va

def Consumes (m m' : Memory) : Prop := ∀ a, m'.pages.Free a → m.pages.Free a

lemma Consumes.refl (m : Memory) : Consumes m m := fun _ h => h

lemma Consumes.trans (m₁ m₂ m₃ : Memory) (h : Consumes m₁ m₂) (h' : Consumes m₂ m₃) :
    Consumes m₁ m₃ := fun a ha => h a (h' a ha)

lemma allocPages_pages {m m' : Memory} {count addr : Nat}
    (h : m.allocPages count = some (addr, m')) :
    m.pages.allocPages count = some (addr, m'.pages) := by
  unfold allocPages at h
  obtain ⟨r, hr, heq⟩ := Option.map_eq_some_iff.mp h
  obtain ⟨rfl, rfl⟩ := Prod.mk.inj heq
  exact hr

lemma allocPages_consumes {m m' : Memory} {count addr : Nat}
    (h : m.allocPages count = some (addr, m')) : Consumes m m' := fun a ha =>
  ((PageAllocator.allocPages_free (allocPages_pages h) a).2.mp ha).1

lemma allocTable_consumes (m : Memory) : Consumes m (Fallible.left Prod.snd m.allocTable) := by
  unfold allocTable
  cases h : m.allocPages 1 with
  | none => exact Consumes.refl m
  | some r => exact allocPages_consumes h

lemma getOrAllocSubtable_consumes (m : Memory) (tbl : Nat) (idx : Index) :
    Consumes m (Fallible.left Prod.snd (m.getOrAllocSubtable tbl idx)) := by
  unfold getOrAllocSubtable
  dsimp only
  split_ifs
  · exact Fallible.left_bind Consumes.trans (allocTable_consumes m) fun _ _ => Consumes.refl _
  · exact Fallible.left_bind Consumes.trans (allocTable_consumes m) fun _ _ => Consumes.refl _
  · exact Consumes.refl m

lemma mapOnePage_consumes (m : Memory) (root pa va : Nat) (flags : Entry) :
    Consumes m (Fallible.left id (m.mapOnePage root pa va flags)) := by
  unfold mapOnePage
  refine Fallible.left_bind Consumes.trans (getOrAllocSubtable_consumes m _ _) fun r1 _ => ?_
  refine Fallible.left_bind Consumes.trans (getOrAllocSubtable_consumes r1.2 _ _) fun r2 _ => ?_
  refine Fallible.left_bind Consumes.trans (getOrAllocSubtable_consumes r2.2 _ _) fun r3 _ => ?_
  exact Consumes.refl r3.2

lemma mapPages_consumes (m : Memory) (root pa va size : Nat) (flags : Entry) :
    Consumes m (Fallible.left id (m.mapPages root pa va size flags)) :=
  Fallible.left_foldlM Consumes.trans Consumes.refl (fun _ _ => mapOnePage_consumes _ _ _ _ _) _ m

lemma createProcessTable_consumes (m : Memory) (segs : List ProcSegment) :
    Consumes m (Fallible.left Prod.snd (m.createProcessTable segs)) := by
  unfold createProcessTable
  refine Fallible.left_bind Consumes.trans (allocTable_consumes m) fun r _ => ?_
  refine Fallible.left_bind Consumes.trans (Fallible.left_foldlM Consumes.trans Consumes.refl
    (fun m seg => ?_) segs r.2) fun _ _ => Consumes.refl _
  split_ifs
  · exact Consumes.refl m
  · exact mapPages_consumes m _ _ _ _ _

end Memory

def Translation.user (t : Translation) : Bool := t.attrs.isUser

end Aeglos
