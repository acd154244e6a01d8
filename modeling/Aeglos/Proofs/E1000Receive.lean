import Aeglos.Library.Cells
import Aeglos.Library.Runs
import Aeglos.Kernel.E1000

/-!
# Received frames

The receive ring in every interleaving of the device and the calls of `recv`.
-/

namespace Aeglos.E1000

open TransitionSystem List Option Function

def deliver (room : Nat) (frame : Bytes) : Option Bytes :=
  if 0 < frame.length ∧ frame.length ≤ room then some frame else none

structure HoldsFrame (d : RxDesc) (buf : Nat → UInt8) (frame : Bytes) : Prop where
  done : d.done = true
  length : d.length = frame.length
  bytes : Cells.firsts buf frame.length = frame

structure RxRing (descs : Nat → RxDesc) (bufs : Buffers) (stored : List Bytes) (taken : Nat) : Prop where
  pending : ∀ k f, taken ≤ k → stored[k]? = some f → HoldsFrame (descs (k % 16)) (bufs (k % 16)) f
  free : ∀ k, stored.length ≤ k → k < taken + 16 → (descs (k % 16)).done = false

/-- The results of the calls are the frames in the order in which they were stored. -/
def InOrder (consumed : List (Nat × Option Bytes)) (stored : List Bytes) : Prop :=
  ∀ (k room : Nat) result, consumed[k]? = some (room, result) → ∃ f, stored[k]? = some f ∧ result = deliver room f

def RecvState.cleared : RecvState → Nat
  | .returning _ _ => 1
  | _ => 0

def RxDevice.ahead : RxDevice → Nat
  | .done => 1
  | _ => 0

def RxDevice.busy : RxDevice → Nat
  | .writing _ _ | .filled _ | .sized _ => 1
  | _ => 0

def RecvAt (stored : List Bytes) (n : Nat) : RecvState → Prop
  | .idle | .started _ => True
  | .ready _ => n < stored.length
  | .copying room len out => ∃ f, stored[n]? = some f ∧ len = f.length ∧ 0 < len ∧ len ≤ room ∧
      out = f.take out.length ∧ out.length ≤ len
  | .recycling room result | .returning room result => ∃ f, stored[n]? = some f ∧ result = deliver room f

def RxDeviceAt (descs : Nat → RxDesc) (bufs : Buffers) (n : Nat) : RxDevice → Prop
  | .idle | .done => True
  | .writing f k => k ≤ f.length ∧ Cells.firsts (bufs (n % 16)) k = f.take k
  | .filled f => Cells.firsts (bufs (n % 16)) f.length = f
  | .sized f => Cells.firsts (bufs (n % 16)) f.length = f ∧ (descs (n % 16)).length = f.length

structure Rx.Inv (s : Rx) : Prop where
  up : s.up = true
  headShadow : s.headShadow = wrap64 s.consumed.length
  tail : s.tail = wrap64 (s.consumed.length + 15)
  rdt : s.rdt = (s.consumed.length + 15) % 16
  rdh : s.rdh = (s.stored.length - s.device.ahead) % 16
  ahead : s.device.ahead ≤ s.stored.length
  le : s.consumed.length + s.recv.cleared ≤ s.stored.length
  room : s.stored.length + s.device.busy ≤ s.consumed.length + 15
  log : InOrder s.consumed s.stored
  ring : RxRing s.descs s.bufs s.stored (s.consumed.length + s.recv.cleared)
  driver : RecvAt s.stored s.consumed.length s.recv
  atDevice : RxDeviceAt s.descs s.bufs s.stored.length s.device

variable {s : Rx}

lemma RxDesc.done_cleared (len : Nat) : (RxDesc.mk len 0).done = false := by
  have hbits : ((0 : UInt8) &&& rxdStatDd != 0) = false := by decide
  exact hbits

lemma RxDesc.done_set (len : Nat) : (RxDesc.mk len (rxdStatDd ||| rxdStatEop)).done = true := by
  have hbits : ((rxdStatDd ||| rxdStatEop) &&& rxdStatDd != 0) = true := by decide
  exact hbits

lemma wrap64_mod (n : Nat) : wrap64 n % 16 = n % 16 := by
  rw [wrap64]
  omega

lemma Rx.Inv.next (h : s.Inv) : s.next = s.consumed.length % 16 := by
  rw [Rx.next, h.headShadow]
  exact wrap64_mod _

section Driver

variable {room : Nat}

lemma Rx.Inv.setRecv (h : s.Inv) (r : RecvState) (hcleared : r.cleared = s.recv.cleared)
    (hat : RecvAt s.stored s.consumed.length r) : ({ s with recv := r } : Rx).Inv :=
  { h with
    le := by
      rw [hcleared]
      exact h.le
    ring := by
      rw [hcleared]
      exact h.ring
    driver := hat }

lemma Rx.Inv.pending_of_done (h : s.Inv) (hcleared : s.recv.cleared = 0) (hdone : (s.descs s.next).done = true) :
    s.consumed.length < s.stored.length := by
  by_contra hle
  have hfree := h.ring.free s.consumed.length (by omega) (by omega)
  rw [← h.next, hdone] at hfree
  cases hfree

lemma Rx.Inv.front (h : s.Inv) (hcleared : s.recv.cleared = 0) {f : Bytes}
    (hf : s.stored[s.consumed.length]? = some f) : HoldsFrame (s.descs s.next) (s.bufs s.next) f := by
  rw [h.next]
  exact h.ring.pending s.consumed.length f (by omega) hf

lemma Rx.Inv.started (h : s.Inv) (hrecv : s.recv = .started room) : s.recvStep.Inv := by
  have hcleared : s.recv.cleared = 0 := by rw [hrecv]; rfl
  rw [Rx.recvStep, hrecv]
  dsimp only
  split_ifs with hdown hdone
  · rw [h.up] at hdown
    exact absurd hdown (by decide)
  · exact h.setRecv (.ready room) hcleared.symm (h.pending_of_done hcleared hdone)
  · exact h.setRecv .idle hcleared.symm trivial

lemma Rx.Inv.ready (h : s.Inv) (hrecv : s.recv = .ready room) : s.recvStep.Inv := by
  have hcleared : s.recv.cleared = 0 := by rw [hrecv]; rfl
  have hat := h.driver
  rw [hrecv] at hat
  have hf : s.stored[s.consumed.length]? = some s.stored[s.consumed.length] := getElem?_eq_getElem hat
  have hlength := (h.front hcleared hf).length
  rw [Rx.recvStep, hrecv]
  dsimp only
  rw [hlength]
  split_ifs with hsize
  · refine h.setRecv _ hcleared.symm ⟨_, hf, (if_neg ?_).symm⟩
    omega
  · refine h.setRecv _ hcleared.symm ⟨_, hf, rfl, by omega, by omega, rfl, Nat.zero_le _⟩

lemma Rx.Inv.copying {room len : Nat} {out : Bytes} (h : s.Inv) (hrecv : s.recv = .copying room len out) :
    s.recvStep.Inv := by
  have hcleared : s.recv.cleared = 0 := by rw [hrecv]; rfl
  have hat := h.driver
  rw [hrecv] at hat
  obtain ⟨f, hf, rfl, hpos, hroom, hout, hle⟩ := hat
  rw [Rx.recvStep, hrecv]
  dsimp only
  split_ifs with hlt
  · refine h.setRecv _ hcleared.symm ⟨f, hf, rfl, hpos, hroom, ?_, ?_⟩
    · rw [length_append]
      exact Cells.take_read (h.front hcleared hf).bytes hout hlt
    · rw [length_append]
      exact hlt
  · refine h.setRecv _ hcleared.symm ⟨f, hf, ?_⟩
    rw [deliver, if_pos ⟨hpos, hroom⟩, hout, take_of_length_le (by omega)]

lemma RxRing.clear {descs : Nat → RxDesc} {bufs : Buffers} {stored : List Bytes} {n : Nat}
    (h : RxRing descs bufs stored n) (hle : stored.length ≤ n + 15) :
    RxRing (Function.update descs (n % 16) ⟨(descs (n % 16)).length, 0⟩) bufs stored (n + 1) where
  pending k f hk hf := by
    have hlt : k < stored.length := (List.getElem?_eq_some_iff.mp hf).1
    rw [Function.update_of_ne (by omega)]
    exact h.pending k f (by omega) hf
  free k hk hlt := by
    by_cases hslot : k % 16 = n % 16
    · rw [hslot, Function.update_self]
      exact RxDesc.done_cleared _
    · rw [Function.update_of_ne hslot]
      exact h.free k hk (by omega)

lemma RxDeviceAt.status {descs : Nat → RxDesc} {bufs : Buffers} {n : Nat} {d : RxDevice}
    (h : RxDeviceAt descs bufs n d) (slot : Nat) (status : UInt8) :
    RxDeviceAt (Function.update descs slot ⟨(descs slot).length, status⟩) bufs n d := by
  have hlength : (Function.update descs slot ⟨(descs slot).length, status⟩ (n % 16)).length = (descs (n % 16)).length := by
    by_cases hslot : n % 16 = slot
    · rw [hslot, update_self]
    · rw [update_of_ne hslot]
  cases d with
  | idle => trivial
  | writing f k => exact h
  | filled f => exact h
  | sized f => exact ⟨h.1, hlength.trans h.2⟩
  | done => trivial

lemma Rx.Inv.recycling {result : Option Bytes} (h : s.Inv) (hrecv : s.recv = .recycling room result) :
    s.recvStep.Inv := by
  have hroom := h.room
  have hat := h.driver
  rw [hrecv] at hat
  obtain ⟨f, hf, hresult⟩ := hat
  have hring := h.ring
  rw [hrecv] at hring
  rw [Rx.recvStep, hrecv]
  dsimp only
  rw [h.next]
  exact
    { h with
      le := (List.getElem?_eq_some_iff.mp hf).1
      ring := hring.clear (by omega)
      driver := ⟨f, hf, hresult⟩
      atDevice := h.atDevice.status _ _ }

lemma InOrder.snoc {consumed : List (Nat × Option Bytes)} {stored : List Bytes} (h : InOrder consumed stored)
    {f : Bytes} (hf : stored[consumed.length]? = some f) :
    InOrder (consumed ++ [(room, deliver room f)]) stored := by
  intro k room' result hk
  rcases Nat.lt_trichotomy k consumed.length with hlt | rfl | hgt
  · rw [getElem?_append_left hlt] at hk
    exact h k room' result hk
  · rw [getElem?_concat_length] at hk
    obtain ⟨rfl, rfl⟩ := Prod.mk.inj (some.inj hk)
    exact ⟨f, hf, rfl⟩
  · rw [getElem?_eq_none (by simpa using hgt)] at hk
    cases hk

lemma Rx.Inv.returning {result : Option Bytes} (h : s.Inv) (hrecv : s.recv = .returning room result) :
    s.recvStep.Inv := by
  have hroom := h.room
  have hat := h.driver
  have hring := h.ring
  rw [hrecv] at hat hring
  obtain ⟨f, hf, rfl⟩ := hat
  have htail : wrap64 (s.tail + 1) = wrap64 (s.consumed.length + 1 + 15) := by
    rw [h.tail]
    simp only [wrap64]
    omega
  have hlength : (s.consumed ++ [(room, deliver room f)]).length = s.consumed.length + 1 := by simp
  rw [Rx.recvStep, hrecv]
  dsimp only
  refine { h with headShadow := ?_, tail := ?_, rdt := ?_, le := ?_, room := ?_, log := h.log.snoc hf, ring := ?_, driver := trivial }
  · dsimp only
    rw [hlength, h.headShadow]
    simp only [wrap64]
    omega
  · dsimp only
    rw [hlength, htail]
  · dsimp only
    rw [hlength, htail]
    exact wrap64_mod _
  · dsimp only
    rw [hlength]
    exact (List.getElem?_eq_some_iff.mp hf).1
  · dsimp only
    rw [hlength]
    omega
  · dsimp only
    rw [hlength]
    exact hring

lemma Rx.Inv.recvStep (h : s.Inv) : s.recvStep.Inv := by
  cases hrecv : s.recv with
  | idle =>
    rw [Rx.recvStep, hrecv]
    exact h
  | started room => exact h.started hrecv
  | ready room => exact h.ready hrecv
  | copying room len out => exact h.copying hrecv
  | recycling room result => exact h.recycling hrecv
  | returning room result => exact h.returning hrecv

end Driver

section Device

variable {stored : List Bytes} {f : Bytes}

lemma Buffers.set_self (bufs : Buffers) (slot offset : Nat) (b : UInt8) :
    bufs.set slot offset b slot = Function.update (bufs slot) offset b := update_self ..

lemma Buffers.set_of_ne (bufs : Buffers) {slot slot' : Nat} (h : slot' ≠ slot) (offset : Nat) (b : UInt8) :
    bufs.set slot offset b slot' = bufs slot' := update_of_ne h ..

lemma RxRing.write {descs descs' : Nat → RxDesc} {bufs bufs' : Buffers} {n : Nat}
    (h : RxRing descs bufs stored n) (hle : stored.length ≤ n + 15)
    (hdescs : ∀ i, i ≠ stored.length % 16 → descs' i = descs i)
    (hbufs : ∀ i, i ≠ stored.length % 16 → bufs' i = bufs i)
    (hstatus : (descs' (stored.length % 16)).status = (descs (stored.length % 16)).status) :
    RxRing descs' bufs' stored n where
  pending k f hk hf := by
    have hlt : k < stored.length := (List.getElem?_eq_some_iff.mp hf).1
    rw [hdescs _ (by omega), hbufs _ (by omega)]
    exact h.pending k f hk hf
  free k hk hlt := by
    by_cases hslot : k % 16 = stored.length % 16
    · have hfree := h.free k hk hlt
      rw [RxDesc.done, hslot] at hfree ⊢
      rw [hstatus]
      exact hfree
    · rw [hdescs _ hslot]
      exact h.free k hk hlt

lemma RxRing.store {descs : Nat → RxDesc} {bufs : Buffers} {n : Nat}
    (h : RxRing descs bufs stored n) (hn : n ≤ stored.length) (hle : stored.length ≤ n + 15)
    (hlength : (descs (stored.length % 16)).length = f.length)
    (hbytes : Cells.firsts (bufs (stored.length % 16)) f.length = f) :
    RxRing (Function.update descs (stored.length % 16)
      ⟨(descs (stored.length % 16)).length, rxdStatDd ||| rxdStatEop⟩) bufs (stored ++ [f]) n where
  pending k g hk hg := by
    rcases Nat.lt_trichotomy k stored.length with hlt | rfl | hgt
    · rw [getElem?_append_left hlt] at hg
      rw [update_of_ne (by omega)]
      exact h.pending k g hk hg
    · rw [getElem?_concat_length] at hg
      obtain rfl := some.inj hg
      rw [update_self]
      exact ⟨RxDesc.done_set _, hlength, hbytes⟩
    · rw [getElem?_eq_none (by simpa using hgt)] at hg
      cases hg
  free k hk hlt := by
    rw [length_append, length_singleton] at hk
    rw [update_of_ne (by omega)]
    exact h.free k (by omega) hlt

lemma Rx.Inv.rdh_busy (h : s.Inv) (hahead : s.device.ahead = 0) : s.rdh = s.stored.length % 16 := by
  rw [h.rdh, hahead, Nat.sub_zero]

lemma Rx.Inv.arrive (h : s.Inv) (frame : Bytes) : (s.arrive frame).Inv := by
  have hle := h.le
  have hroom := h.room
  cases hdevice : s.device with
  | idle =>
    have hrdh := h.rdh_busy (by rw [hdevice]; rfl)
    have hrdt := h.rdt
    rw [Rx.arrive, hdevice]
    dsimp only
    split_ifs with hcond
    · refine { h with rdh := ?_, ahead := ?_, room := ?_, atDevice := ⟨Nat.zero_le _, rfl⟩ }
      · exact hrdh
      · exact Nat.zero_le _
      · rw [hdevice] at hroom
        have hne := hcond.1
        simp only [RxDevice.busy] at hroom ⊢
        omega
    · exact h
  | _ =>
    rw [Rx.arrive, hdevice]
    exact h

lemma Rx.Inv.writing {k : Nat} (h : s.Inv) (hdevice : s.device = .writing f k) : s.deviceStep.Inv := by
  have hrdh := h.rdh_busy (by rw [hdevice]; rfl)
  have hroom := h.room
  have hat := h.atDevice
  rw [hdevice] at hat hroom
  obtain ⟨hk, hbytes⟩ := hat
  rw [Rx.deviceStep, hdevice]
  dsimp only
  cases hb : f[k]? with
  | none =>
    have hend : k = f.length := Nat.le_antisymm hk (List.getElem?_eq_none_iff.mp hb)
    refine { h with rdh := hrdh, ahead := Nat.zero_le _, room := hroom, atDevice := ?_ }
    rw [hend, List.take_length] at hbytes
    exact hbytes
  | some b =>
    have hlt : k < f.length := (List.getElem?_eq_some_iff.mp hb).1
    refine { h with rdh := hrdh, ahead := Nat.zero_le _, room := hroom, ring := ?_, atDevice := ⟨hlt, ?_⟩ }
    · refine h.ring.write ?_ (fun _ _ => rfl) ?_ rfl
      · simp only [RxDevice.busy] at hroom
        omega
      · intro i hi
        rw [hrdh]
        exact Buffers.set_of_ne s.bufs hi k b
    · dsimp only
      rw [hrdh, Buffers.set_self]
      exact Cells.firsts_write hbytes hb

lemma Rx.Inv.filled (h : s.Inv) (hdevice : s.device = .filled f) : s.deviceStep.Inv := by
  have hrdh := h.rdh_busy (by rw [hdevice]; rfl)
  have hroom := h.room
  have hat := h.atDevice
  rw [hdevice] at hat hroom
  rw [Rx.deviceStep, hdevice]
  dsimp only [Rx.setLength]
  rw [hrdh]
  refine { h with rdh := rfl, ahead := Nat.zero_le _, room := hroom, ring := ?_, atDevice := ⟨hat, ?_⟩ }
  · refine h.ring.write ?_ ?_ (fun _ _ => rfl) ?_
    · simp only [RxDevice.busy] at hroom
      omega
    · intro i hi
      exact update_of_ne hi ..
    · dsimp only
      rw [update_self]
  · dsimp only
    rw [update_self]

lemma InOrder.append {consumed : List (Nat × Option Bytes)} (h : InOrder consumed stored)
    (f : Bytes) : InOrder consumed (stored ++ [f]) := by
  intro k room result hk
  obtain ⟨g, hg, hresult⟩ := h k room result hk
  refine ⟨g, ?_, hresult⟩
  rw [List.getElem?_append_left (List.getElem?_eq_some_iff.mp hg).1]
  exact hg

lemma RecvAt.append {n : Nat} {r : RecvState} (h : RecvAt stored n r) (f : Bytes) :
    RecvAt (stored ++ [f]) n r := by
  have hkeep : ∀ {g}, stored[n]? = some g → (stored ++ [f])[n]? = some g := by
    intro g hg
    rw [List.getElem?_append_left (List.getElem?_eq_some_iff.mp hg).1]
    exact hg
  cases r with
  | idle => trivial
  | started room => trivial
  | ready room =>
    have hlt : n < stored.length := h
    have hlt' : n < (stored ++ [f]).length := by
      rw [List.length_append]
      omega
    exact hlt'
  | copying room len out =>
    obtain ⟨g, hg, hrest⟩ := h
    exact ⟨g, hkeep hg, hrest⟩
  | recycling room result =>
    obtain ⟨g, hg, hrest⟩ := h
    exact ⟨g, hkeep hg, hrest⟩
  | returning room result =>
    obtain ⟨g, hg, hrest⟩ := h
    exact ⟨g, hkeep hg, hrest⟩

lemma Rx.Inv.sized (h : s.Inv) (hdevice : s.device = .sized f) : s.deviceStep.Inv := by
  have hrdh := h.rdh_busy (by rw [hdevice]; rfl)
  have hroom := h.room
  have hle := h.le
  have hat := h.atDevice
  rw [hdevice] at hat hroom
  simp only [RxDevice.busy] at hroom
  have hlength : (s.stored ++ [f]).length = s.stored.length + 1 := by simp
  rw [Rx.deviceStep, hdevice]
  dsimp only [Rx.setStatus]
  rw [hrdh]
  refine { h with
    rdh := ?_, ahead := ?_, le := ?_, room := ?_, log := h.log.append f, driver := h.driver.append f,
    ring := h.ring.store hle (by omega) hat.2 hat.1, atDevice := trivial }
  · dsimp only
    rw [hlength]
    rfl
  · dsimp only
    rw [hlength]
    exact Nat.le_add_left 1 _
  · dsimp only
    rw [hlength]
    omega
  · dsimp only
    rw [hlength]
    exact hroom

lemma Rx.Inv.advance (h : s.Inv) (hdevice : s.device = .done) : s.deviceStep.Inv := by
  have hrdh := h.rdh
  have hroom := h.room
  have hahead := h.ahead
  rw [hdevice] at hrdh hroom hahead
  simp only [RxDevice.ahead] at hrdh hahead
  rw [Rx.deviceStep, hdevice]
  refine { h with rdh := ?_, ahead := Nat.zero_le _, room := hroom, atDevice := trivial }
  simp only [RxDevice.ahead, rxRingSize, Nat.sub_zero]
  omega

lemma Rx.Inv.deviceStep (h : s.Inv) : s.deviceStep.Inv := by
  cases hdevice : s.device with
  | idle =>
    rw [Rx.deviceStep, hdevice]
    exact h
  | writing f k => exact h.writing hdevice
  | filled f => exact h.filled hdevice
  | sized f => exact h.sized hdevice
  | done => exact h.advance hdevice

end Device

lemma Rx.Inv.step (h : s.Inv) (e : RxEvent) : (s.step e).Inv := by
  cases e with
  | call room =>
    rw [Rx.step]
    cases hrecv : s.recv with
    | idle => exact h.setRecv (.started room) (by rw [hrecv]; rfl) trivial
    | _ => exact h
  | driver => exact h.recvStep
  | arrive frame => exact h.arrive frame
  | device => exact h.deviceStep

lemma Rx.inv_init : Rx.init.Inv where
  up := rfl
  headShadow := rfl
  tail := rfl
  rdt := rfl
  rdh := rfl
  ahead := Nat.zero_le _
  le := Nat.zero_le _
  room := Nat.zero_le _
  log k room result h := by cases h
  ring :=
    { pending := by
        intro k f _ h
        cases h
      free := fun _ _ _ => RxDesc.done_cleared 0 }
  driver := trivial
  atDevice := trivial

lemma Rx.inv_run (events : List RxEvent) : (run Rx.step Rx.init events).Inv :=
  run_preserves (P := Rx.Inv) (fun _ e h => h.step e) Rx.inv_init events

section Calls

variable {room : Nat}

def drive (n : Nat) (s : Rx) : Rx := run Rx.step s (List.replicate n .driver)

lemma drive_succ (n : Nat) (s : Rx) : drive (n + 1) s = drive n s.recvStep := rfl

lemma recvStep_stored (s : Rx) : s.recvStep.stored = s.stored := by
  rw [Rx.recvStep]
  split
  · rfl
  · split_ifs
    · rfl
    · rfl
    · rfl
  · dsimp only
    split_ifs
    · rfl
    · rfl
  · split_ifs
    · rfl
    · rfl
  · rfl
  · rfl

lemma drive_stored (n : Nat) (s : Rx) : (drive n s).stored = s.stored := by
  induction n generalizing s with
  | zero => rfl
  | succ n ih => rw [drive_succ, ih, recvStep_stored]

lemma Rx.Inv.drive (h : s.Inv) (n : Nat) : (drive n s).Inv := by
  induction n generalizing s with
  | zero => exact h
  | succ n ih => exact ih h.recvStep

def GivesBack (s : Rx) (room : Nat) : Prop :=
  ∃ n result, (drive n s).recv = .idle ∧ (drive n s).consumed = s.consumed ++ [(room, result)]

lemma GivesBack.of_step (h : GivesBack s.recvStep room) (hconsumed : s.recvStep.consumed = s.consumed) :
    GivesBack s room := by
  obtain ⟨n, result, hidle, happend⟩ := h
  refine ⟨n + 1, result, hidle, ?_⟩
  rw [drive_succ, happend, hconsumed]

lemma givesBack_recycling {result : Option Bytes} (hrecv : s.recv = .recycling room result) :
    GivesBack s room := by
  have hstep : s.recvStep = { s.setStatus s.next 0 with recv := .returning room result } := by
    rw [Rx.recvStep, hrecv]
  refine ⟨2, result, ?_, ?_⟩
  · rw [drive_succ, drive_succ, hstep]
    rfl
  · rw [drive_succ, drive_succ, hstep]
    rfl

lemma givesBack_copying {room len : Nat} {out : Bytes} (hrecv : s.recv = .copying room len out) : GivesBack s room := by
  obtain ⟨left, hleft⟩ : ∃ left, left = len - out.length := ⟨_, rfl⟩
  induction left generalizing s out with
  | zero =>
    have hstep : s.recvStep = { s with recv := .recycling room (some out) } := by
      rw [Rx.recvStep, hrecv]
      exact if_neg (by omega)
    have hback : GivesBack s.recvStep room := by
      rw [hstep]
      exact givesBack_recycling rfl
    exact hback.of_step (by rw [hstep])
  | succ left ih =>
    have hstep : s.recvStep = { s with recv := .copying room len (out ++ [s.bufs s.next out.length]) } := by
      rw [Rx.recvStep, hrecv]
      exact if_pos (by omega)
    have hlength : (out ++ [s.bufs s.next out.length]).length = out.length + 1 := by simp
    have hback : GivesBack s.recvStep room := by
      rw [hstep]
      refine ih rfl ?_
      rw [hlength]
      omega
    exact hback.of_step (by rw [hstep])

lemma givesBack_ready (hrecv : s.recv = .ready room) : GivesBack s room := by
  by_cases hsize : (s.descs s.next).length = 0 ∨ (s.descs s.next).length > room
  · have hstep : s.recvStep = { s with recv := .recycling room none } := by
      rw [Rx.recvStep, hrecv]
      exact if_pos hsize
    have hback : GivesBack s.recvStep room := by
      rw [hstep]
      exact givesBack_recycling rfl
    exact hback.of_step (by rw [hstep])
  · have hstep : s.recvStep = { s with recv := .copying room (s.descs s.next).length [] } := by
      rw [Rx.recvStep, hrecv]
      exact if_neg hsize
    have hback : GivesBack s.recvStep room := by
      rw [hstep]
      exact givesBack_copying rfl
    exact hback.of_step (by rw [hstep])

lemma Rx.Inv.call_takes (h : s.Inv) (hrecv : s.recv = .started room) {f : Bytes}
    (hf : s.stored[s.consumed.length]? = some f) :
    ∃ n, (E1000.drive n s).recv = .idle ∧ (E1000.drive n s).consumed = s.consumed ++ [(room, deliver room f)] := by
  have hdone := (h.front (by rw [hrecv]; rfl) hf).done
  have hstep : s.recvStep = { s with recv := .ready room } := by
    rw [Rx.recvStep, hrecv]
    simp only [h.up, hdone]
    rfl
  have hback : GivesBack s.recvStep room := by
    rw [hstep]
    exact givesBack_ready rfl
  obtain ⟨n, result, hidle, happend⟩ := hback.of_step (by rw [hstep])
  refine ⟨n, hidle, ?_⟩
  -- the log says which frame the call has returned
  have hlog := (h.drive n).log s.consumed.length room result
  rw [happend, drive_stored, getElem?_concat_length] at hlog
  obtain ⟨g, hg, hresult⟩ := hlog rfl
  rw [hf] at hg
  obtain rfl := some.inj hg
  rw [happend, hresult]

end Calls

/-- The calls have returned the stored frames in order and each once, the others are in their descriptors, the
device writes to none of these, and a call takes the oldest one. -/
structure Rx.Received (s : Rx) : Prop where
  count : s.consumed.length ≤ s.stored.length
  order : InOrder s.consumed s.stored
  kept : ∀ k f, s.consumed.length + s.recv.cleared ≤ k → s.stored[k]? = some f →
    HoldsFrame (s.descs (k % rxRingSize)) (s.bufs (k % rxRingSize)) f
  apart : 0 < s.device.busy → ∀ k, s.consumed.length ≤ k → k < s.stored.length → s.rdh ≠ k % rxRingSize
  taken : ∀ room f, s.recv = .started room → s.stored[s.consumed.length]? = some f →
    ∃ n, (drive n s).recv = .idle ∧ (drive n s).consumed = s.consumed ++ [(room, deliver room f)]

/-- In every interleaving of the device and the calls of `recv`, no frame is lost, repeated,
reordered or changed. -/
theorem frames_received (events : List RxEvent) : (run Rx.step Rx.init events).Received := by
  have h := Rx.inv_run events
  generalize run Rx.step Rx.init events = s at h
  have hle := h.le
  have hroom := h.room
  refine ⟨by omega, h.log, h.ring.pending, ?_, fun room f hrecv hf => h.call_takes hrecv hf⟩
  intro hbusy k hk hlt
  have hahead : s.device.ahead = 0 := by
    cases hdevice : s.device with
    | done =>
      rw [hdevice] at hbusy
      cases hbusy
    | _ => rfl
  rw [h.rdh_busy hahead, rxRingSize]
  omega

end Aeglos.E1000
