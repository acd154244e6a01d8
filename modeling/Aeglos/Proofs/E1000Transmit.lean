import Aeglos.Proofs.E1000Receive

/-!
# Transmitted frames

The transmit ring in every interleaving of the device and the calls of `send`. The device takes
equal registers for an empty ring.
-/

namespace Aeglos.E1000

open TransitionSystem List Function

def Tx.Between (s : Tx) (slot : Nat) : Prop :=
  (slot + txRingSize - s.tdh) % txRingSize < (s.tdt + txRingSize - s.tdh) % txRingSize

structure CarriesFrame (d : TxDesc) (buf : Nat → UInt8) (frame : Bytes) : Prop where
  length : d.length = frame.length
  bytes : Cells.firsts buf frame.length = frame

/-- The frames on the wire are the first ones accepted, and the others are between the registers. -/
structure Tx.Transmits (s : Tx) : Prop where
  order : s.transmitted <+: s.accepted
  queued : ∀ (k : Nat) (f : Bytes), s.transmitted.length ≤ k → s.accepted[k]? = some f →
    s.Between (k % txRingSize) ∧ CarriesFrame (s.descs (k % txRingSize)) (s.bufs (k % txRingSize)) f

/-- A call that is about to be accepted does not make the tail register equal to the head register. -/
def Tx.LeavesGap (s : Tx) (e : TxEvent) : Prop :=
  ∀ data, e = .driver → s.send = .publishing data → wrap64 (s.tail + 1) % txRingSize ≠ s.tdh

def TxDevice.ahead : TxDevice → Nat
  | .sent | .done => 1
  | _ => 0

def SendAt (descs : Nat → TxDesc) (bufs : Buffers) (n : Nat) : SendState → Prop
  | .idle | .started _ => True
  | .copying data k => data.length ≤ rxBufSize ∧ k ≤ data.length ∧ Cells.firsts (bufs (n % 16)) k = data.take k
  | .sizing data => data.length ≤ rxBufSize ∧ Cells.firsts (bufs (n % 16)) data.length = data
  | .commanding data | .clearing data | .publishing data => CarriesFrame (descs (n % 16)) (bufs (n % 16)) data

def TxDeviceAt (accepted : List Bytes) (n : Nat) : TxDevice → Prop
  | .reading len out => ∃ f, accepted[n]? = some f ∧ len = f.length ∧ out = f.take out.length ∧ out.length ≤ len
  | _ => True

def TxRing (descs : Nat → TxDesc) (bufs : Buffers) (accepted : List Bytes) (n : Nat) : Prop :=
  ∀ (k : Nat) (f : Bytes), n ≤ k → accepted[k]? = some f → CarriesFrame (descs (k % 16)) (bufs (k % 16)) f

structure Tx.Inv (s : Tx) : Prop where
  tail : s.tail = wrap64 s.accepted.length
  tdt : s.tdt = s.accepted.length % 16
  tdh : s.tdh = (s.transmitted.length - s.device.ahead) % 16
  ahead : s.device.ahead ≤ s.transmitted.length
  room : s.accepted.length + s.device.ahead ≤ s.transmitted.length + 15
  order : s.transmitted <+: s.accepted
  ring : TxRing s.descs s.bufs s.accepted s.transmitted.length
  driver : SendAt s.descs s.bufs s.accepted.length s.send
  atDevice : TxDeviceAt s.accepted s.transmitted.length s.device

variable {s : Tx}

lemma Tx.Inv.next (h : s.Inv) : s.next = s.accepted.length % 16 := by
  rw [Tx.next, h.tail]
  exact wrap64_mod _

section Driver

variable {data : Bytes}

lemma Tx.Inv.setSend (h : s.Inv) (c : SendState) (hat : SendAt s.descs s.bufs s.accepted.length c) :
    ({ s with send := c } : Tx).Inv := { h with driver := hat }

lemma TxRing.write {descs descs' : Nat → TxDesc} {bufs bufs' : Buffers} {accepted : List Bytes} {n : Nat}
    (h : TxRing descs bufs accepted n) (hle : accepted.length ≤ n + 15)
    (hdescs : ∀ i, i ≠ accepted.length % 16 → descs' i = descs i)
    (hbufs : ∀ i, i ≠ accepted.length % 16 → bufs' i = bufs i) : TxRing descs' bufs' accepted n := by
  intro k f hk hf
  have hlt : k < accepted.length := (List.getElem?_eq_some_iff.mp hf).1
  rw [hdescs _ (by omega), hbufs _ (by omega)]
  exact h k f hk hf

lemma Tx.Inv.writeSlot (h : s.Inv) (descs : Nat → TxDesc) (bufs : Buffers) (c : SendState)
    (hdescs : ∀ i, i ≠ s.accepted.length % 16 → descs i = s.descs i)
    (hbufs : ∀ i, i ≠ s.accepted.length % 16 → bufs i = s.bufs i)
    (hat : SendAt descs bufs s.accepted.length c) : ({ s with descs := descs, bufs := bufs, send := c } : Tx).Inv := by
  have hroom := h.room
  exact { h with ring := h.ring.write (by omega) hdescs hbufs, driver := hat }

lemma Tx.Inv.started (h : s.Inv) (hsend : s.send = .started data) : s.sendStep.Inv := by
  rw [Tx.sendStep, hsend]
  dsimp only
  split_ifs with hsize
  · exact h.setSend .idle trivial
  · exact h.setSend .idle trivial
  · exact h.setSend (.copying data 0) ⟨Nat.le_of_not_lt hsize, Nat.zero_le _, rfl⟩
  · exact h.setSend .idle trivial

lemma Tx.Inv.copying {k : Nat} (h : s.Inv) (hsend : s.send = .copying data k) : s.sendStep.Inv := by
  have hat := h.driver
  rw [hsend] at hat
  obtain ⟨hsize, hk, hbytes⟩ := hat
  rw [Tx.sendStep, hsend]
  dsimp only
  cases hb : data[k]? with
  | none =>
    have hend : k = data.length := Nat.le_antisymm hk (List.getElem?_eq_none_iff.mp hb)
    rw [hend, List.take_length] at hbytes
    exact h.setSend (.sizing data) ⟨hsize, hbytes⟩
  | some b =>
    have hlt : k < data.length := (List.getElem?_eq_some_iff.mp hb).1
    rw [h.next]
    refine h.writeSlot s.descs _ (.copying data (k + 1)) (fun _ _ => rfl) ?_ ⟨hsize, hlt, ?_⟩
    · intro i hi
      exact Buffers.set_of_ne s.bufs hi k b
    · rw [Buffers.set_self]
      exact Cells.firsts_write hbytes hb

lemma Tx.Inv.sizing (h : s.Inv) (hsend : s.send = .sizing data) : s.sendStep.Inv := by
  have hat := h.driver
  rw [hsend] at hat
  obtain ⟨hsize, hbytes⟩ := hat
  rw [rxBufSize] at hsize
  have hcast : data.length % 2 ^ 16 = data.length := Nat.mod_eq_of_lt (by omega)
  rw [Tx.sendStep, hsend]
  dsimp only [Tx.setLength]
  rw [h.next, hcast]
  refine h.writeSlot _ s.bufs (.commanding data) ?_ (fun _ _ => rfl) ⟨?_, hbytes⟩
  · intro i hi
    exact update_of_ne hi ..
  · rw [update_self]

lemma Tx.Inv.rewrite {d : TxDesc} (h : s.Inv) (c : SendState)
    (hlength : d.length = (s.descs (s.accepted.length % 16)).length)
    (hcarries : CarriesFrame (s.descs (s.accepted.length % 16)) (s.bufs (s.accepted.length % 16)) data)
    (hc : c = .clearing data ∨ c = .publishing data) :
    ({ s with descs := Function.update s.descs (s.accepted.length % 16) d, send := c } : Tx).Inv := by
  have hnew : CarriesFrame (Function.update s.descs (s.accepted.length % 16) d (s.accepted.length % 16))
      (s.bufs (s.accepted.length % 16)) data := by
    rw [update_self]
    exact ⟨hlength.trans hcarries.length, hcarries.bytes⟩
  refine h.writeSlot _ s.bufs c ?_ (fun _ _ => rfl) ?_
  · intro i hi
    exact update_of_ne hi ..
  · rcases hc with rfl | rfl
    · exact hnew
    · exact hnew

lemma Tx.Inv.commanding (h : s.Inv) (hsend : s.send = .commanding data) : s.sendStep.Inv := by
  have hat := h.driver
  rw [hsend] at hat
  rw [Tx.sendStep, hsend]
  dsimp only [Tx.setCmd]
  rw [h.next]
  exact h.rewrite (.clearing data) rfl hat (Or.inl rfl)

lemma Tx.Inv.clearing (h : s.Inv) (hsend : s.send = .clearing data) : s.sendStep.Inv := by
  have hat := h.driver
  rw [hsend] at hat
  rw [Tx.sendStep, hsend]
  dsimp only [Tx.setStatus]
  rw [h.next]
  exact h.rewrite (.publishing data) rfl hat (Or.inr rfl)

lemma Tx.Inv.tail_succ (h : s.Inv) : wrap64 (s.tail + 1) = wrap64 (s.accepted.length + 1) := by
  rw [h.tail]
  simp only [wrap64]
  omega

lemma TxDeviceAt.append {accepted : List Bytes} {n : Nat} {d : TxDevice} (h : TxDeviceAt accepted n d) (f : Bytes) :
    TxDeviceAt (accepted ++ [f]) n d := by
  cases d with
  | reading len out =>
    obtain ⟨g, hg, hrest⟩ := h
    refine ⟨g, ?_, hrest⟩
    rw [List.getElem?_append_left (List.getElem?_eq_some_iff.mp hg).1]
    exact hg
  | idle => trivial
  | sent => trivial
  | done => trivial

lemma Tx.Inv.publishing (h : s.Inv) (hsend : s.send = .publishing data) (hgap : s.LeavesGap .driver) :
    s.sendStep.Inv := by
  have hat := h.driver
  rw [hsend] at hat
  have htdh := h.tdh
  have hahead := h.ahead
  have hroom := h.room
  have hne := hgap data rfl hsend
  rw [h.tail_succ, txRingSize, wrap64_mod, htdh] at hne
  have hlength : (s.accepted ++ [data]).length = s.accepted.length + 1 := by simp
  rw [Tx.sendStep, hsend]
  dsimp only
  refine { h with
    tail := ?_, tdt := ?_, room := ?_, order := h.order.trans (prefix_append ..), ring := ?_,
    driver := trivial, atDevice := h.atDevice.append data }
  · dsimp only
    rw [hlength, h.tail_succ]
  · dsimp only
    rw [hlength, h.tail_succ]
    exact wrap64_mod _
  · dsimp only
    rw [hlength]
    omega
  · intro k f hk hf
    dsimp only at hf hk ⊢
    rcases Nat.lt_trichotomy k s.accepted.length with hlt | rfl | hgt
    · rw [getElem?_append_left hlt] at hf
      exact h.ring k f hk hf
    · rw [getElem?_concat_length] at hf
      obtain rfl := Option.some.inj hf
      exact hat
    · rw [getElem?_eq_none (by rw [hlength]; omega)] at hf
      cases hf

lemma Tx.Inv.sendStep (h : s.Inv) (hgap : s.LeavesGap .driver) : s.sendStep.Inv := by
  cases hsend : s.send with
  | idle =>
    rw [Tx.sendStep, hsend]
    exact h
  | started data => exact h.started hsend
  | copying data k => exact h.copying hsend
  | sizing data => exact h.sizing hsend
  | commanding data => exact h.commanding hsend
  | clearing data => exact h.clearing hsend
  | publishing data => exact h.publishing hsend hgap

end Driver

lemma Tx.Inv.tdh_eq (h : s.Inv) (hahead : s.device.ahead = 0) : s.tdh = s.transmitted.length % 16 := by
  rw [h.tdh, hahead, Nat.sub_zero]

lemma Tx.Inv.begin (h : s.Inv) (hdevice : s.device = .idle) : s.deviceStep.Inv := by
  have htdh := h.tdh_eq (by rw [hdevice]; rfl)
  have htdt := h.tdt
  have hroom := h.room
  have hle := h.order.length_le
  rw [hdevice] at hroom
  rw [Tx.deviceStep, hdevice]
  dsimp only
  split_ifs with hne
  · have hlt : s.transmitted.length < s.accepted.length := by omega
    have hf : s.accepted[s.transmitted.length]? = some s.accepted[s.transmitted.length] := getElem?_eq_getElem hlt
    have hcarries := h.ring _ _ le_rfl hf
    refine { h with tdh := htdh, ahead := Nat.zero_le _, room := hroom, atDevice := ⟨_, hf, ?_, rfl, Nat.zero_le _⟩ }
    rw [htdh]
    exact hcarries.length
  · exact h

lemma Tx.Inv.reading {len : Nat} {out : Bytes} (h : s.Inv) (hdevice : s.device = .reading len out) :
    s.deviceStep.Inv := by
  have htdh := h.tdh_eq (by rw [hdevice]; rfl)
  have hroom := h.room
  have hat := h.atDevice
  rw [hdevice] at hroom hat
  obtain ⟨f, hf, rfl, hout, hle⟩ := hat
  have hcarries := h.ring _ _ le_rfl hf
  rw [Tx.deviceStep, hdevice]
  dsimp only
  split_ifs with hlt
  · refine { h with tdh := htdh, ahead := Nat.zero_le _, room := hroom, atDevice := ⟨f, hf, rfl, ?_, ?_⟩ }
    · rw [length_append, htdh]
      exact Cells.take_read hcarries.bytes hout hlt
    · rw [length_append]
      exact hlt
  · have hall : out = f := by
      rw [hout]
      exact take_of_length_le (by omega)
    have hlength : (s.transmitted ++ [out]).length = s.transmitted.length + 1 := by simp
    refine { h with tdh := ?_, ahead := ?_, room := ?_, order := ?_, ring := ?_, atDevice := trivial }
    · dsimp only
      rw [hlength]
      exact htdh
    · dsimp only
      rw [hlength]
      exact Nat.le_add_left 1 _
    · dsimp only
      rw [hlength]
      simp only [TxDevice.ahead] at hroom ⊢
      omega
    · obtain ⟨rest, hrest⟩ := h.order
      dsimp only
      rw [← hrest, getElem?_append_right le_rfl, Nat.sub_self] at hf
      cases rest with
      | nil => cases hf
      | cons g rest =>
        obtain rfl : g = f := Option.some.inj hf
        rw [hall, ← hrest]
        exact ⟨rest, by simp⟩
    · intro k g hk hg
      dsimp only at hk
      rw [hlength] at hk
      exact h.ring k g (by omega) hg

lemma CarriesFrame.status {descs : Nat → TxDesc} {i : Nat} {buf : Nat → UInt8} {f : Bytes}
    (h : CarriesFrame (descs i) buf f) (slot : Nat) (status : UInt8) :
    CarriesFrame (Function.update descs slot ⟨(descs slot).length, (descs slot).cmd, status⟩ i) buf f := by
  by_cases hslot : i = slot
  · rw [hslot, update_self]
    rw [hslot] at h
    exact ⟨h.length, h.bytes⟩
  · rw [update_of_ne hslot]
    exact h

lemma SendAt.status {descs : Nat → TxDesc} {bufs : Buffers} {n : Nat} {c : SendState} (h : SendAt descs bufs n c)
    (slot : Nat) (status : UInt8) :
    SendAt (Function.update descs slot ⟨(descs slot).length, (descs slot).cmd, status⟩) bufs n c := by
  cases c with
  | idle => trivial
  | started data => trivial
  | copying data k => exact h
  | sizing data => exact h
  | commanding data => exact CarriesFrame.status h slot status
  | clearing data => exact CarriesFrame.status h slot status
  | publishing data => exact CarriesFrame.status h slot status

lemma Tx.Inv.deviceStep (h : s.Inv) : s.deviceStep.Inv := by
  cases hdevice : s.device with
  | idle => exact h.begin hdevice
  | reading len out => exact h.reading hdevice
  | sent =>
    have htdh := h.tdh
    have hahead := h.ahead
    have hroom := h.room
    rw [hdevice] at htdh hahead hroom
    rw [Tx.deviceStep, hdevice]
    exact
      { h with
        tdh := htdh
        ahead := hahead
        room := hroom
        ring := fun k f hk hf => (h.ring k f hk hf).status _ _
        driver := h.driver.status _ _
        atDevice := trivial }
  | done =>
    have htdh := h.tdh
    have hahead := h.ahead
    have hroom := h.room
    rw [hdevice] at htdh hahead hroom
    simp only [TxDevice.ahead] at htdh hahead hroom
    rw [Tx.deviceStep, hdevice]
    refine { h with tdh := ?_, ahead := Nat.zero_le _, room := ?_, atDevice := trivial }
    · simp only [TxDevice.ahead, txRingSize, Nat.sub_zero]
      omega
    · simp only [TxDevice.ahead]
      omega

lemma Tx.Inv.step (h : s.Inv) {e : TxEvent} (hgap : s.LeavesGap e) : (s.step e).Inv := by
  cases e with
  | call data =>
    rw [Tx.step]
    cases hsend : s.send with
    | idle => exact h.setSend (.started data) trivial
    | _ => exact h
  | driver => exact h.sendStep hgap
  | device => exact h.deviceStep

lemma Tx.inv_init : Tx.init.Inv where
  tail := rfl
  tdt := rfl
  tdh := rfl
  ahead := Nat.zero_le _
  room := Nat.zero_le _
  order := prefix_rfl
  ring := by
    intro k f _ h
    cases h
  driver := trivial
  atDevice := trivial

lemma Tx.Inv.transmits (h : s.Inv) : s.Transmits := by
  refine ⟨h.order, ?_⟩
  intro k f hk hf
  refine ⟨?_, h.ring k f hk hf⟩
  have hlt : k < s.accepted.length := (List.getElem?_eq_some_iff.mp hf).1
  have hahead := h.ahead
  have hroom := h.room
  rw [Tx.Between, h.tdt, h.tdh, txRingSize]
  omega

lemma Tx.Inv.not_transmits (h : s.Inv) {e : TxEvent} (hgap : ¬s.LeavesGap e) : ¬(s.step e).Transmits := by
  intro htransmits
  simp only [Tx.LeavesGap, not_forall, not_not] at hgap
  obtain ⟨data, rfl, hsend, hfull⟩ := hgap
  have hstep : s.step .driver = { s with
      tail := wrap64 (s.tail + 1)
      tdt := wrap64 (s.tail + 1) % txRingSize
      send := .idle
      accepted := s.accepted ++ [data] } := by
    rw [Tx.step, Tx.sendStep, hsend]
  rw [hstep] at htransmits
  have hbetween := (htransmits.queued s.accepted.length data h.order.length_le (getElem?_concat_length ..)).1
  rw [Tx.Between] at hbetween
  dsimp only at hbetween
  rw [hfull, Nat.add_sub_cancel_left, Nat.mod_self] at hbetween
  exact absurd hbetween (Nat.not_lt_zero _)

/-- In every state of a run the accepted frames are transmitted as they should if and only if no call
of the run makes the registers equal. -/
theorem frames_transmitted_iff (events : List TxEvent) :
    (∀ before after, events = before ++ after → (run Tx.step Tx.init before).Transmits) ↔
      Guarded Tx.step Tx.LeavesGap Tx.init events := by
  refine run_iff (fun _ _ h hgap => h.step hgap) (fun _ h => h.transmits) (fun s e h htransmits => ?_) Tx.inv_init
  by_contra hgap
  exact h.not_transmits hgap htransmits

def sendByte (b : UInt8) : List TxEvent := .call [b] :: List.replicate 7 .driver

def burst : List TxEvent := sendByte 1 ++ (List.replicate 15 (sendByte 2)).flatten

theorem burst_lost :
    (run Tx.step Tx.init burst).accepted = [1] :: List.replicate 15 [2] ∧
      (run Tx.step Tx.init burst).transmitted = [] ∧
      (run Tx.step Tx.init burst).tdh = (run Tx.step Tx.init burst).tdt ∧
      ¬(run Tx.step Tx.init burst).Between 0 := by
  refine ⟨by decide +kernel, by decide +kernel, by decide +kernel, ?_⟩
  rw [Tx.Between]
  decide +kernel

end Aeglos.E1000
