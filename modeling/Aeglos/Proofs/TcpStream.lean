import Aeglos.Proofs.TcpSender

/-!
# What a TCP connection transmits

The handler of incoming segments and the timer keep the invariant of the sending side.
-/

namespace Aeglos.Tcp

open Effects List BitVec

section Segments

variable {env : Env} {s : Slot} {h : Header}

lemma Slot.Keeps.deliver {P : Sender → Prop} (hs : s.Keeps P) :
    Outcome (deliver env h) s (fun _ s' => s'.Keeps P) Slot.Transmits := by
  rw [Tcp.deliver]
  simp only [outcome_bind, outcome_get, outcome_ite, outcome_pure, outcome_modifyConn, outcome_sendSegment]
  refine ⟨fun _ => Slot.Keeps.send_empty ?_ (by decide), fun _ => hs⟩
  exact hs.congr rfl rfl

def Sender.FinAcked (h : Header) (v : Sender) : Prop :=
  h.has tcpAck ∧ v.state = .finWait1 ∧ v.nxt = h.ackNum ∧ ∃ r, v.tx = some r ∧ r.Holds []

def Sender.Acknowledged (h : Header) (v : Sender) : Prop := v.Phase ∨ v.FinAcked h

lemma Slot.Keeps.flushAcked (hs : s.Keeps (Sender.Acknowledged h)) :
    Outcome (flushTx env) s (fun _ s' => s'.Keeps (Sender.Acknowledged h)) Slot.Transmits := by
  refine (outcome_flushTx ?_ hs).mono (fun _ _ h => h) fun _ h => h.1.transmits
  rintro s s' ⟨hcore, hphase | ⟨-, -, -, r, htx, hr⟩⟩ hstep
  · have hsound : s'.Sound := Slot.Sound.sends ⟨hcore, hphase⟩ hstep
    exact ⟨hsound.1, Or.inl hsound.2⟩
  · obtain ⟨n, hn, hcur, -⟩ := hstep
    rw [TcpConn.txAvail_some htx hr] at hcur
    exact absurd hcur (by simp; omega)

def Sender.slide (acked : Nat) (v : Sender) : Sender :=
  { v with una := v.una + BitVec.ofNat 32 acked, cur := v.cur - acked, tx := v.tx.map fun r => r.discard acked }

def Sender.rewind (v : Sender) : Sender := { v with nxt := v.una, cur := 0 }

section Sliding

variable {v : Sender} {q : Bytes} {acked : Nat}

lemma Sender.Aligned.slide (halign : v.Aligned q) (hacked : acked ≤ q.length) :
    (v.slide acked).Aligned (q.drop acked) := by
  obtain ⟨done, hdone, huna, rfl⟩ := halign
  rw [List.length_drop] at hacked
  refine ⟨done + acked, ?_, ?_, ?_⟩
  · change done + acked ≤ v.accepted.length
    omega
  · change v.una + BitVec.ofNat 32 acked = v.isn + 1 + BitVec.ofNat 32 (done + acked)
    rw [huna, BitVec.ofNat_add, ← BitVec.add_assoc]
  · rw [List.drop_drop]
    rfl

lemma Sender.Points.slide (hpoints : v.Points q) (hacked : acked ≤ v.cur) :
    (v.slide acked).Points (q.drop acked) := by
  obtain ⟨hnxt, hcur⟩ := hpoints
  constructor
  · change v.nxt = v.una + BitVec.ofNat 32 acked + BitVec.ofNat 32 (v.cur - acked)
    rw [BitVec.add_assoc, ← BitVec.ofNat_add, Nat.add_sub_cancel' hacked, hnxt]
  · change v.cur - acked ≤ _
    rw [List.length_drop]
    omega

lemma Sender.PastFin.slide (hpast : v.PastFin q) (hacked : acked ≤ v.cur) :
    (v.slide acked).PastFin (q.drop acked) := by
  obtain ⟨hnxt, hcur⟩ := hpast
  constructor
  · change v.nxt = v.una + BitVec.ofNat 32 acked + BitVec.ofNat 32 (v.cur - acked + 1)
    rw [BitVec.add_assoc, ← BitVec.ofNat_add, show acked + (v.cur - acked + 1) = v.cur + 1 by omega, hnxt]
  · change v.cur - acked = _
    rw [List.length_drop]
    omega

lemma Sender.Points.inFlight (hpoints : v.Points q) (hq : q.length < 2 ^ 32) : (v.nxt - v.una).toNat = v.cur := by
  obtain ⟨hnxt, hcur⟩ := hpoints
  have hsub : v.nxt - v.una = BitVec.ofNat 32 v.cur := by
    rw [hnxt]
    bv_omega
  rw [hsub, toNat_ofNat, Nat.mod_eq_of_lt (hcur.trans_lt hq)]

lemma Sender.Aligned.length_le (halign : v.Aligned q) : q.length ≤ v.accepted.length := by
  obtain ⟨done, -, -, rfl⟩ := halign
  rw [length_drop]
  exact Nat.sub_le _ _

lemma Sender.Aligned.acknowledge (halign : v.Aligned q) (hpointer : v.Points q ∨ v.PastFin q)
    (hshort : v.accepted.length < 2 ^ 31) (hle : acked ≤ v.cur + 1) (hflight : acked ≤ (v.nxt - v.una).toNat) :
    ((v.slide acked).Aligned (q.drop acked) ∧
      ((v.slide acked).Points (q.drop acked) ∨ (v.slide acked).PastFin (q.drop acked))) ∨
    (v.nxt = v.una + BitVec.ofNat 32 acked ∧ q.drop acked = []) := by
  have hlen := halign.length_le
  rcases hpointer with hpoints | hpast
  · rw [hpoints.inFlight (by omega)] at hflight
    exact Or.inl ⟨halign.slide (hflight.trans hpoints.2), Or.inl (hpoints.slide hflight)⟩
  · have hcur := hpast.2
    by_cases hall : acked ≤ v.cur
    · exact Or.inl ⟨halign.slide (by omega), Or.inr (hpast.slide hall)⟩
    · obtain rfl : acked = v.cur + 1 := by omega
      exact Or.inr ⟨hpast.1, drop_eq_nil_of_le (by omega)⟩

lemma Sender.rewind_points : v.rewind.Points q := by
  constructor
  · change v.una = v.una + 0
    simp
  · exact Nat.zero_le _

lemma Sender.Fits.repoint {st : TcpState} (hfits : v.Fits q st)
    (hst : st ∈ exchanging) {nxt : BitVec 32} {cur : Nat}
    (hpoints : Sender.Points { v with nxt := nxt, cur := cur } q) : Sender.Fits { v with nxt := nxt, cur := cur } q st := by
  cases st with
  | established => exact ⟨hfits.1, hpoints⟩
  | finWait1 => exact ⟨hfits.1, Or.inl hpoints⟩
  | finWait2 =>
    rcases hfits with hempty | ⟨halign, -⟩
    · exact Or.inl hempty
    · exact Or.inr ⟨halign, Or.inl hpoints⟩
  | _ => exact absurd hst (by decide)

lemma Sender.Phase.rewind (hphase : v.Phase) (hst : v.state ∈ exchanging) : v.rewind.Phase := by
  rcases hphase with hidle | ⟨r, q, htx, hq, hfits⟩
  · exact Or.inl hidle
  · exact Or.inr ⟨r, q, htx, hq, hfits.repoint hst Sender.rewind_points⟩

lemma Sender.Phase.slide (hphase : v.Phase) (hst : v.state ∈ exchanging)
    (hshort : v.accepted.length < 2 ^ 31) (hack : h.has tcpAck)
    (hnum : h.ackNum = v.una + BitVec.ofNat 32 acked) (hle : acked ≤ v.cur + 1) (hflight : acked ≤ (v.nxt - v.una).toNat) :
    (v.slide acked).Acknowledged h := by
  rcases hphase with ⟨hidle, -⟩ | ⟨r, q, htx, hq, hfits⟩
  · exfalso
    revert hst hidle
    cases v.state <;> decide
  have hring : (v.slide acked).tx = some (r.discard acked) := by
    change v.tx.map _ = _
    rw [htx]
    rfl
  have hdiscard : (r.discard acked).Holds (q.drop acked) := hq.discard acked
  cases hstate : v.state with
  | established =>
    rw [hstate] at hfits
    have hlen := hfits.1.length_le
    have hcur : acked ≤ v.cur := by rwa [hfits.2.inFlight (by omega)] at hflight
    refine Or.inl (Or.inr ⟨_, _, hring, hdiscard, ?_⟩)
    rw [show (v.slide acked).state = .established from hstate]
    exact ⟨hfits.1.slide (hcur.trans hfits.2.2), hfits.2.slide hcur⟩
  | finWait1 =>
    rw [hstate] at hfits
    rcases hfits.1.acknowledge hfits.2 hshort hle hflight with hkept | ⟨hnxt, hempty⟩
    · refine Or.inl (Or.inr ⟨_, _, hring, hdiscard, ?_⟩)
      rw [show (v.slide acked).state = .finWait1 from hstate]
      exact hkept
    · rw [hempty] at hdiscard
      exact Or.inr ⟨hack, hstate, hnxt.trans hnum.symm, _, hring, hdiscard⟩
  | finWait2 =>
    rw [hstate] at hfits
    refine Or.inl (Or.inr ⟨_, _, hring, hdiscard, ?_⟩)
    rw [show (v.slide acked).state = .finWait2 from hstate]
    rcases hfits with rfl | ⟨halign, hpointer⟩
    · exact Or.inl drop_nil
    · rcases halign.acknowledge hpointer hshort hle hflight with hkept | ⟨-, hempty⟩
      · exact Or.inr hkept
      · exact Or.inl hempty
  | _ =>
    rw [hstate] at hst
    exact absurd hst (by decide)

end Sliding

structure TcpConn.AcksSent (c : TcpConn) (h : Header) : Prop where
  syn : c.state = .synSent → h.has tcpSyn → h.has tcpAck → h.ackNum = c.sndNxt
  data : c.state ∈ [TcpState.established, .finWait1, .finWait2] → h.has tcpAck → c.acked h ≤ c.sndCur + 1 →
    c.acked h ≤ c.inFlight

lemma TcpConn.una_add_acked (c : TcpConn) : c.sndUna + BitVec.ofNat 32 (c.acked h) = h.ackNum := by
  rw [TcpConn.acked, ofNat_toNat, setWidth_eq]
  bv_omega

lemma Slot.slide_sender :
    Slot.sender { s with conn := s.conn.slide (s.conn.acked h) h.ackNum } = s.sender.slide (s.conn.acked h) := by
  unfold Slot.sender Sender.slide TcpConn.slide
  rw [s.conn.una_add_acked]

lemma Slot.Sound.onDuplicateAck (hs : s.Sound) (hst : s.conn.state ∈ exchanging) :
    Outcome (onDuplicateAck env) s (fun _ s' => s'.Sound) Slot.Transmits := by
  rw [Tcp.onDuplicateAck]
  simp only [outcome_bind, outcome_get, outcome_ite, outcome_pure, outcome_modifyConn]
  refine ⟨fun _ => Slot.Sound.flushTx ⟨?_, ?_⟩, fun _ => ⟨fun _ => Slot.Sound.flushTx ?_, fun _ => ?_⟩⟩
  · exact hs.1.congr rfl id
  · exact hs.2.rewind hst
  · exact hs.congr rfl rfl
  · exact hs.congr rfl rfl

lemma Slot.Keeps.armPersist {P : Sender → Prop} (hs : s.Keeps P) :
    Slot.Keeps P { s with conn := s.conn.armPersist env } := by
  refine hs.congr ?_ rfl
  unfold TcpConn.armPersist
  split_ifs <;> rfl

lemma Slot.Sound.processAck (hs : s.Sound) (hst : s.conn.state ∈ exchanging)
    (hacks : s.conn.AcksSent h) (hack : h.has tcpAck) :
    Outcome (processAck env h) s (fun _ s' => s'.Keeps (Sender.Acknowledged h)) Slot.Transmits := by
  have hweak : ∀ s' : Slot, s'.Sound → s'.Keeps (Sender.Acknowledged h) := fun _ hs' => ⟨hs'.1, Or.inl hs'.2⟩
  rw [Tcp.processAck]
  simp only [outcome_bind, outcome_get, outcome_ite, outcome_modifyConn]
  refine ⟨fun hnew => ?_, fun _ => ⟨fun _ => ?_, fun _ => (hweak s hs).armPersist⟩⟩
  · have hslid : Slot.Keeps (Sender.Acknowledged h) { s with conn := s.conn.slide (s.conn.acked h) h.ackNum } := by
      refine ⟨hs.1.congr rfl id, ?_⟩
      rw [Slot.slide_sender]
      exact hs.2.slide hst hs.1.short hack s.conn.una_add_acked.symm hnew.2 (hacks.data hst hack hnew.2)
    exact hslid.flushAcked.mono (fun _ _ hs' => hs'.armPersist) fun _ hs' => hs'
  · exact (hs.onDuplicateAck hst).mono (fun _ s' hs' => (hweak s' hs').armPersist) fun _ hs' => hs'

lemma Sender.Phase.leave {v : Sender} (hphase : v.Phase) {st : TcpState}
    (hst : v.state = .established ∧ st = .closeWait ∨ v.state = .finWait1 ∧ st = .closing ∨
      v.state = .finWait2 ∧ st = .timeWait ∨ v.state = .finWait1 ∧ st = .finWait2) :
    Sender.Phase { v with state := st } := by
  rcases hphase with ⟨hidle, -⟩ | ⟨r, q, htx, hq, hfits⟩
  · rcases hst with ⟨h, -⟩ | ⟨h, -⟩ | ⟨h, -⟩ | ⟨h, -⟩ <;> rw [h] at hidle <;> exact absurd hidle (by decide)
  · refine Or.inr ⟨r, q, htx, hq, ?_⟩
    rcases hst with ⟨h, rfl⟩ | ⟨h, rfl⟩ | ⟨h, rfl⟩ | ⟨h, rfl⟩ <;> rw [h] at hfits
    · exact hfits
    · exact Or.inr hfits
    · exact hfits
    · exact Or.inr hfits

lemma Sender.FinAcked.leave {v : Sender} (hfin : v.FinAcked h) {st : TcpState} (hst : st = .closing ∨ st = .finWait2) :
    Sender.Phase { v with state := st } := by
  obtain ⟨-, -, -, r, htx, hr⟩ := hfin
  refine Or.inr ⟨r, [], htx, hr, ?_⟩
  rcases hst with rfl | rfl <;> exact Or.inl rfl

lemma Slot.Keeps.finReceived (hs : s.Keeps (Sender.Acknowledged h)) :
    Slot.Keeps (Sender.Acknowledged h) { s with conn := s.conn.finReceived env } := by
  obtain ⟨hcore, hsender⟩ := hs
  unfold TcpConn.finReceived
  split
  case h_1 hst =>
    refine ⟨hcore.congr rfl fun hended => absurd hended (by rw [hst]; decide), ?_⟩
    rcases hsender with hphase | ⟨-, hfw, -⟩
    · exact Or.inl (hphase.leave (Or.inl ⟨hst, rfl⟩))
    · exact absurd (hst.symm.trans hfw) (by decide)
  case h_2 hst =>
    refine ⟨hcore.congr rfl fun _ => (by decide : TcpState.closing.Ended), ?_⟩
    rcases hsender with hphase | hfin
    · exact Or.inl (hphase.leave (Or.inr (Or.inl ⟨hst, rfl⟩)))
    · exact Or.inl (hfin.leave (Or.inl rfl))
  case h_3 hst =>
    refine ⟨hcore.congr rfl fun _ => (by decide : TcpState.timeWait.Ended), ?_⟩
    rcases hsender with hphase | ⟨-, hfw, -⟩
    · exact Or.inl (hphase.leave (Or.inr (Or.inr (Or.inl ⟨hst, rfl⟩))))
    · exact absurd (hst.symm.trans hfw) (by decide)
  case h_4 => exact ⟨hcore, hsender⟩

lemma Slot.Keeps.onPeerFin (hs : s.Keeps (Sender.Acknowledged h)) :
    Outcome (onPeerFin env) s (fun _ s' => s'.Keeps (Sender.Acknowledged h)) Slot.Transmits := by
  rw [Tcp.onPeerFin]
  simp only [outcome_bind, outcome_modifyConn, outcome_sendSegment]
  apply Slot.Keeps.finReceived
  apply Slot.Keeps.send_empty _ (by decide)
  exact hs.congr rfl rfl

lemma Slot.Keeps.finConfirmed (hs : s.Keeps (Sender.Acknowledged h)) :
    Slot.Sound { s with conn := s.conn.finConfirmed h } := by
  obtain ⟨hcore, hsender⟩ := hs
  unfold TcpConn.finConfirmed
  split_ifs with hfin
  · refine ⟨hcore.congr rfl fun _ => (by decide : TcpState.finWait2.Ended), ?_⟩
    rcases hsender with hphase | hacked
    · exact hphase.leave (Or.inr (Or.inr (Or.inr ⟨hfin.1, rfl⟩)))
    · exact hacked.leave (Or.inr rfl)
  · refine ⟨hcore, ?_⟩
    rcases hsender with hphase | ⟨hack, hst, hnxt, -⟩
    · exact hphase
    · exact absurd ⟨hst, hack, hnxt.symm⟩ hfin

lemma Slot.Keeps.receiveData (hs : s.Keeps (Sender.Acknowledged h)) :
    Outcome (receiveData env h) s (fun _ s' => s'.Sound) Slot.Transmits := by
  rw [Tcp.receiveData]
  simp only [outcome_bind, outcome_ite, outcome_modifyConn]
  refine hs.deliver.mono (fun _ s₁ hs₁ => ⟨fun _ => ?_, fun _ => hs₁.finConfirmed⟩) fun _ h => h
  exact hs₁.onPeerFin.mono (fun _ s₂ hs₂ => hs₂.finConfirmed) fun _ h => h

lemma Slot.Sound.onData (hs : s.Sound) (hst : s.conn.state ∈ exchanging)
    (hacks : s.conn.AcksSent h) : Outcome (onData env h) s (fun _ s' => s'.Sound) Slot.Transmits := by
  rw [Tcp.onData]
  simp only [outcome_bind, outcome_ite]
  refine ⟨fun hack => ?_, fun _ => Slot.Keeps.receiveData ⟨hs.1, Or.inl hs.2⟩⟩
  exact (hs.processAck hst hacks hack).mono (fun _ s' hs' => hs'.receiveData) fun _ h => h

lemma Slot.Sound.establish (hs : s.Sound) (hst : s.conn.state = .synSent ∨ s.conn.state = .synRcvd)
    (hnum : h.ackNum = s.conn.sndNxt) {c : TcpConn}
    (hc : Slot.sender { s with conn := c } = { s.sender with una := h.ackNum, state := .established }) :
    Slot.Sound { s with conn := c } := by
  obtain ⟨hcore, hphase⟩ := hs
  constructor
  · refine hcore.congr rfl fun hended => absurd hended ?_
    rcases hst with h | h <;> rw [h] <;> decide
  · rw [hc]
    rcases hphase with ⟨hidle, -⟩ | ⟨r, q, htx, hq, hfits⟩
    · change s.conn.state ∈ _ at hidle
      rcases hst with h | h <;> rw [h] at hidle <;> exact absurd hidle (by decide)
    · obtain ⟨hnone, rfl, huna, hnxt, hcur⟩ := (Sender.fits_syn hst).mp hfits
      refine Or.inr ⟨r, [], htx, hq, ⟨0, Nat.zero_le _, ?_, ?_⟩, ?_, ?_⟩
      · change h.ackNum = s.stream.isn + 1 + 0
        rw [hnum, show s.conn.sndNxt = _ from hnxt]
        simp
        rfl
      · change s.stream.accepted.drop 0 = []
        rw [show s.stream.accepted = [] from hnone, drop_nil]
      · change s.conn.sndNxt = h.ackNum + BitVec.ofNat 32 s.conn.sndCur
        rw [hnum, show s.conn.sndCur = 0 from hcur]
        simp
      · change s.conn.sndCur ≤ 0
        exact hcur.le

lemma Slot.Sound.onSynRcvd (hs : s.Sound) (hst : s.conn.state = .synRcvd) :
    Outcome (onSynRcvd env h) s (fun _ s' => s'.Sound) Slot.Transmits := by
  rw [Tcp.onSynRcvd]
  simp only [outcome_bind, outcome_get, outcome_ite, outcome_pure, outcome_modifyConn]
  refine ⟨fun hack => Slot.Keeps.deliver ?_, fun _ => hs⟩
  exact hs.establish (Or.inr hst) hack.2 rfl

lemma Slot.Sound.onSynSent (hs : s.Sound) (hst : s.conn.state = .synSent) (hacks : s.conn.AcksSent h) :
    Outcome (onSynSent env h) s (fun _ s' => s'.Sound) Slot.Transmits := by
  rw [Tcp.onSynSent]
  simp only [outcome_bind, outcome_ite, outcome_pure, outcome_modifyConn, outcome_stop, outcome_sendSegment]
  refine ⟨fun hflags => ⟨fun _ => hs.1.transmits, fun _ => Slot.Keeps.send_empty ?_ (by decide)⟩, fun _ => hs⟩
  exact hs.establish (Or.inl hst) (hacks.syn hst hflags.1 hflags.2) rfl

lemma Slot.Sound.onSegment (hs : s.Sound) (hacks : ¬h.has tcpRst → s.conn.AcksSent h) :
    Outcome (onSegment env h) s (fun _ s' => s'.Sound) Slot.Transmits := by
  rw [Tcp.onSegment, outcome_ite]
  refine ⟨fun _ => hs.release (by decide), fun hrst => ?_⟩
  have hwnd : Slot.Sound { s with conn := { s.conn with sndWnd := h.wnd } } := hs.congr rfl rfl
  have hacks' : TcpConn.AcksSent { s.conn with sndWnd := h.wnd } h := ⟨(hacks hrst).syn, (hacks hrst).data⟩
  simp only [outcome_bind, outcome_modifyConn, outcome_get]
  split
  case h_1 hst => exact hwnd.onSynRcvd hst
  case h_2 hst => exact hwnd.onSynSent hst hacks'
  case h_3 hst => exact hwnd.onData (by rw [hst]; decide) hacks'
  case h_4 hst => exact hwnd.onData (by rw [hst]; decide) hacks'
  case h_5 hst => exact hwnd.onData (by rw [hst]; decide) hacks'
  case h_6 =>
    rw [onLastAck, outcome_modifyConn]
    split_ifs
    · exact hwnd.release (by decide)
    · exact hwnd
  case h_7 => exact hwnd

end Segments

section Timers

variable {env : Env} {s : Slot}

/-- No FIN is sent again in LastAck, a probe finds nothing in flight, and a FIN that is sent again follows all
of the ring. -/
structure TcpConn.TimersSafe (env : Env) (c : TcpConn) : Prop where
  lastAck : c.state = .lastAck → c.waited env lastackTimeout = true → retxMax ≤ c.retxCount
  probe : c.state ∈ [TcpState.established, .finWait1, .finWait2] → c.probes env = true → c.txAvail ≠ 0 →
    c.sndNxt = c.sndUna
  fin : c.state = .finWait1 → c.expired env = true → c.retxCount < retxMax → c.txAvail ≤ c.mss

lemma Sender.Fits.aligned {v : Sender} {q : Bytes} {st : TcpState} (hfits : v.Fits q st)
    (hst : st ∈ exchanging) : v.Aligned q ∨ st = .finWait2 ∧ q = [] := by
  cases st with
  | established | finWait1 => exact Or.inl hfits.1
  | finWait2 =>
    rcases hfits with hempty | ⟨halign, -⟩
    · exact Or.inr ⟨rfl, hempty⟩
    · exact Or.inl halign
  | _ => exact absurd hst (by decide)

lemma Sender.Phase.exchanging {v : Sender} (hphase : v.Phase)
    (hst : v.state ∈ exchanging) :
    ∃ r q, v.tx = some r ∧ r.Holds q ∧ v.Fits q v.state := by
  rcases hphase with ⟨hidle, -⟩ | hring
  · exfalso
    revert hst hidle
    cases v.state <;> decide
  · exact hring

lemma Slot.Sound.persistProbe (hs : s.Sound) (hst : s.conn.state ∈ exchanging)
    (hprobe : s.conn.txAvail ≠ 0 → s.conn.sndNxt = s.conn.sndUna) :
    (s.send env tcpAck (s.conn.txPeek 0 1)).Sound := by
  obtain ⟨r, q, htx, hq, hfits⟩ := hs.2.exchanging hst
  rw [TcpConn.txPeek_some htx hq]
  by_cases hempty : q = []
  · subst hempty
    exact hs.send_empty (by decide)
  · have hlen : 0 < q.length := length_pos_of_ne_nil hempty
    have halign : s.sender.Aligned q := by
      rcases hfits.aligned hst with h | ⟨-, h⟩
      · exact h
      · exact absurd h hempty
    have hnxt : s.conn.sndNxt = s.conn.sndUna + BitVec.ofNat 32 0 := by
      rw [hprobe (by rw [TcpConn.txAvail_some htx hq]; omega)]
      simp
    refine ⟨hs.1.send (Slot.carries_at hs.1.short halign hnxt hlen.le (absurd (by decide))) (absurd (by decide)), ?_⟩
    rw [Slot.send_sender]
    exact hs.2

lemma Slot.Sound.retransmit (hs : s.Sound) (hst : s.conn.state ∈ exchanging)
    (hfin : s.conn.state = .finWait1 → s.conn.retxCount < retxMax → s.conn.txAvail ≤ s.conn.mss) (backoff : Nat) :
    Outcome (retransmit env backoff) s (fun _ s' => s'.Sound) Slot.Transmits := by
  rw [Tcp.retransmit]
  simp only [outcome_bind, outcome_get, outcome_ite, outcome_modifyConn, outcome_stop, outcome_sendSegment,
    Slot.send_conn]
  refine ⟨fun _ => hs.release (by decide), fun hcount => ⟨fun _ => hs.1.transmits, fun _ => ?_⟩⟩
  obtain ⟨r, q, htx, hq, hfits⟩ := hs.2.exchanging hst
  let back : Slot := { s with conn := { s.conn with
    ssthresh := max (s.conn.inFlight / 2) (s.conn.mss * 2), cwnd := s.conn.mss, sndNxt := s.conn.sndUna, sndCur := 0 } }
  have hback : back.Sound := ⟨hs.1.congr rfl id, hs.2.rewind hst⟩
  have hnxt : back.conn.sndNxt = back.conn.sndUna + BitVec.ofNat 32 0 := by
    change s.conn.sndUna = s.conn.sndUna + _
    simp
  rw [TcpConn.txPeek_some htx hq, TcpConn.txAvail_some htx hq]
  have hlen : ((q.drop 0).take (min q.length s.conn.mss)).length = min q.length s.conn.mss := by
    rw [length_take, length_drop]
    omega
  constructor
  · have hended : (if s.conn.state = .finWait1 then tcpFin ||| tcpAck else tcpAck) &&& tcpFin ≠ 0 →
        s.conn.state = .finWait1 := by
      intro hflag
      by_contra hne
      rw [if_neg hne] at hflag
      exact hflag (by decide)
    have hcarries : back.stream.Carries (buildTcpHeader back.conn
        (if s.conn.state = .finWait1 then tcpFin ||| tcpAck else tcpAck)
        ((q.drop 0).take (min q.length s.conn.mss))) := by
      rcases hfits.aligned hst with halign | ⟨hst', rfl⟩
      · refine Slot.carries_at hback.1.short halign hnxt (Nat.zero_le _) fun hflag => ?_
        have hle := hfin (hended hflag) (by omega)
        rw [TcpConn.txAvail_some htx hq] at hle
        omega
      · refine Stream.carries_empty rfl ?_
        by_contra hflag
        exact absurd (hst'.symm.trans (hended hflag)) (by decide)
    have hsent : (back.send env (if s.conn.state = .finWait1 then tcpFin ||| tcpAck else tcpAck)
        ((q.drop 0).take (min q.length s.conn.mss))).Core := by
      refine hback.1.send hcarries fun hflag => ?_
      change s.conn.state.Ended
      rw [hended hflag]
      decide
    refine hsent.congr rfl ?_
    rw [Slot.send_conn]
    exact id
  · rw [Slot.sender_after_send, hlen]
    refine Or.inr ⟨r, q, htx, hq, hfits.repoint hst ⟨rfl, ?_⟩⟩
    exact Nat.min_le_left _ _

lemma Slot.Sound.onTimers (hs : s.Sound) (hst : s.conn.state ∈ exchanging)
    (hsafe : s.conn.TimersSafe env) : Outcome (onTimers env) s (fun _ s' => s'.Sound) Slot.Transmits := by
  rw [Tcp.onTimers]
  simp only [outcome_bind, outcome_get, outcome_ite, Tcp.persistProbe, outcome_sendSegment, outcome_modifyConn,
    outcome_pure]
  refine ⟨fun hprobe => ⟨fun hexpired => ?_, fun _ => ?_⟩, fun _ => ⟨fun hexpired => ?_, fun _ => hs⟩⟩
  · apply Slot.Sound.retransmit
    · exact (hs.persistProbe hst (hsafe.probe hst hprobe)).congr rfl rfl
    · rw [Slot.send_conn]
      exact hst
    · rw [Slot.send_conn]
      exact fun hfw hcount => hsafe.fin hfw hexpired hcount
  · exact (hs.persistProbe hst (hsafe.probe hst hprobe)).congr rfl rfl
  · exact hs.retransmit hst (fun hfw hcount => hsafe.fin hfw hexpired hcount) _

lemma Slot.Sound.resend {limit : BitVec 32} {flags : UInt8} (hs : s.Sound)
    (hfin : s.conn.waited env limit = true → s.conn.retxCount < retxMax → flags &&& tcpFin = 0) :
    Outcome (resend env limit flags) s (fun _ s' => s'.Sound) Slot.Transmits := by
  rw [Tcp.resend]
  simp only [outcome_bind, outcome_get, outcome_ite, outcome_sendSegment, outcome_modifyConn, outcome_pure]
  refine ⟨fun hwaited => ⟨fun _ => hs.release (by decide), fun hcount => ?_⟩, fun _ => hs⟩
  have hsent : (s.send env flags []).Sound := hs.send_empty (hfin hwaited (by omega))
  exact hsent.congr rfl rfl

lemma Slot.Sound.tickSlot (hs : s.Sound) (hsafe : s.conn.TimersSafe env) :
    Outcome (tickSlot env) s (fun _ s' => s'.Sound) Slot.Transmits := by
  have hexpire : Outcome (if s.conn.waited env timewaitTicks then modifyConn fun c => c.release .free else pure ()) s
      (fun _ s' => s'.Sound) Slot.Transmits := by
    rw [outcome_ite]
    exact ⟨fun _ => hs.release (by decide), fun _ => hs⟩
  rw [Tcp.tickSlot]
  simp only [outcome_bind, outcome_get]
  split
  case h_1 => exact hs.resend fun _ _ => by decide
  case h_2 => exact hexpire
  case h_3 => exact hexpire
  case h_4 hst =>
    refine hs.resend fun hwaited hcount => ?_
    have hmax := hsafe.lastAck hst hwaited
    omega
  case h_5 hst => exact hs.onTimers (by rw [hst]; decide) hsafe
  case h_6 hst => exact hs.onTimers (by rw [hst]; decide) hsafe
  case h_7 hst => exact hs.onTimers (by rw [hst]; decide) hsafe
  case h_8 => exact hs

end Timers

/-- Every segment sent on a connection carries the bytes written to it. -/
def Transmits (s : System) : Prop := ∀ id, (s.table.slots id).Transmits

instance (s : System) : Decidable (Transmits s) := inferInstanceAs (Decidable (∀ id, (s.table.slots id).Transmits))

def Short (s : System) (a : Env × Op) : Prop :=
  match a.2 with
  | .write n data => ∀ id : ConnId, id.val = n → (s.table.slots id).stream.accepted.length + data.length < 2 ^ 31
  | _ => True

instance (s : System) : ∀ a, Decidable (Short s a)
  | (_, .write n data) => inferInstanceAs (Decidable (∀ id : ConnId, id.val = n →
      (s.table.slots id).stream.accepted.length + data.length < 2 ^ 31))
  | (_, .connect ..) | (_, .listen _) | (_, .accept _) | (_, .awaitEstablished _) | (_, .awaitReadable _)
  | (_, .read ..) | (_, .close _) | (_, .segment ..) | (_, .tick) => instDecidableTrue

instance (c : TcpConn) (h : Header) : Decidable (c.AcksSent h) :=
  decidable_of_iff
    ((c.state = .synSent → h.has tcpSyn → h.has tcpAck → h.ackNum = c.sndNxt) ∧
      (c.state ∈ [TcpState.established, .finWait1, .finWait2] → h.has tcpAck → c.acked h ≤ c.sndCur + 1 →
        c.acked h ≤ c.inFlight))
    ⟨fun h => ⟨h.1, h.2⟩, fun h => ⟨h.1, h.2⟩⟩

instance (env : Env) (c : TcpConn) : Decidable (c.TimersSafe env) :=
  decidable_of_iff
    ((c.state = .lastAck → c.waited env lastackTimeout = true → retxMax ≤ c.retxCount) ∧
      (c.state ∈ [TcpState.established, .finWait1, .finWait2] → c.probes env = true → c.txAvail ≠ 0 →
        c.sndNxt = c.sndUna) ∧
      (c.state = .finWait1 → c.expired env = true → c.retxCount < retxMax → c.txAvail ≤ c.mss))
    ⟨fun h => ⟨h.1, h.2.1, h.2.2⟩, fun h => ⟨h.1, h.2, h.3⟩⟩

/-- A SYN is waited for before the connection is established or after it has ended, all that was accepted is
in flight when the connection is closed, the peer acknowledges only what was sent, and the timers are safe. -/
def Careful (s : System) (a : Env × Op) : Prop :=
  match a.2 with
  | .awaitEstablished id =>
    (s.table.slots id).conn.state ∈ [TcpState.established, .closed, .free, .synSent, .synRcvd]
  | .close n => ∀ id : ConnId, id.val = n →
    (s.table.slots id).conn.state ∈ [TcpState.established, .closeWait] → (s.table.slots id).conn.SentAll
  | .segment srcIp payload => ∀ id ∈ findConn s.table srcIp (parseHeader payload),
    ¬(parseHeader payload).has tcpRst → (s.table.slots id).conn.AcksSent (parseHeader payload)
  | .tick => ∀ id, (s.table.slots id).conn.TimersSafe a.1
  | _ => True

instance (s : System) : ∀ a, Decidable (Careful s a)
  | (_, .awaitEstablished id) => inferInstanceAs (Decidable ((s.table.slots id).conn.state ∈ _))
  | (_, .close n) => inferInstanceAs (Decidable (∀ id : ConnId, id.val = n →
      (s.table.slots id).conn.state ∈ [TcpState.established, .closeWait] → (s.table.slots id).conn.SentAll))
  | (_, .segment srcIp payload) => inferInstanceAs (Decidable (∀ id ∈ findConn s.table srcIp (parseHeader payload),
      ¬(parseHeader payload).has tcpRst → (s.table.slots id).conn.AcksSent (parseHeader payload)))
  | (env, .tick) => inferInstanceAs (Decidable (∀ id, (s.table.slots id).conn.TimersSafe env))
  | (_, .connect ..) | (_, .listen _) | (_, .accept _) | (_, .awaitReadable _) | (_, .read ..)
  | (_, .write ..) => instDecidableTrue

lemma sound_call {s : System} {env : Env} {op : Op} (hsound : ∀ id, (s.table.slots id).Sound)
    (hshort : Short s (env, op)) (hcareful : Careful s (env, op)) {id : ConnId} {x : SlotM Unit}
    (hcall : Calls s.table env op id x) :
    Outcome x (s.table.slots id) (fun _ s' => s'.Sound) Slot.Transmits := by
  have hid := hsound id
  cases hcall with
  | connect hfree => exact openSlot_sound (by decide) (Or.inl rfl) rfl rfl rfl
  | listen hfree =>
    exact ⟨hid.1.congr rfl fun _ => (by decide : TcpState.listen.Ended),
      Or.inl ⟨(by decide : TcpState.listen ∈ [TcpState.free, .listen, .closed]), rfl⟩⟩
  | accept _ => exact hid.congr rfl rfl
  | awaitEstablished => exact outcome_discard.mpr (hid.awaitEstablished hcareful)
  | awaitReadable => exact outcome_discard.mpr hid.awaitReadable
  | read => exact outcome_discard.mpr (hid.tcpRead _)
  | write => exact outcome_discard.mpr (hid.tcpWrite (hshort id rfl))
  | close =>
    refine hid.tcpClose fun hopen => hcareful id rfl ?_
    rcases hopen with h | h <;> rw [h] <;> decide
  | segment hlen hfound => exact hid.onSegment fun hrst => hcareful id hfound hrst
  | syn hlen hnone hfree hsyn => exact openSlot_sound (by decide) (Or.inr rfl) rfl rfl rfl
  | tick => exact hid.tickSlot (hcareful id)

lemma sound_step {s : System} {a : Env × Op} (hs : Invariant Slot.Sound Slot.Transmits s) (hshort : Short s a)
    (hcareful : Careful s a) : Invariant Slot.Sound Slot.Transmits (step s a) :=
  hs.step (fun _ h => h.1.transmits) fun _ _ hsound hcall => sound_call hsound hshort hcareful hcall

lemma sound_boot : Invariant Slot.Sound Slot.Transmits boot := by
  have hslot : ∀ id, (boot.table.slots id).Sound := by
    intro id
    refine ⟨Slot.Core.fresh rfl rfl, Or.inl ⟨?_, rfl⟩⟩
    exact (by decide : TcpState.free ∈ [TcpState.free, .listen, .closed])
  exact ⟨fun id => (hslot id).1.transmits, fun _ => hslot⟩

def quietEnv : Env := ⟨0, 1000, fun _ => false, ⟨7, []⟩⟩

/-- The peer accepts the connection with a window of two bytes, three bytes are written and the
connection is closed; then the peer acknowledges two bytes. -/
def closedEarly : List (Env × Op) :=
  [(quietEnv, .connect (.v4 1) 80 true),
   (quietEnv, .segment (.v4 1) [0, 80, 192, 0, 0, 0, 0, 7, 0, 0, 3, 233, 0x50, 0x12, 0, 2, 0, 0, 0, 0]),
   (quietEnv, .write 0 [1, 2, 3]),
   (quietEnv, .close 0),
   (quietEnv, .segment (.v4 1) [0, 80, 192, 0, 0, 0, 0, 8, 0, 0, 3, 235, 0x50, 0x10, 0, 2, 0, 0, 0, 0])]

theorem closed_early_misnumbered :
    TransitionSystem.Guarded step Short boot closedEarly ∧ ¬Transmits (TransitionSystem.run step boot closedEarly) := by
  decide +kernel

def closedInTime : List (Env × Op) :=
  [(quietEnv, .connect (.v4 1) 80 true),
   (quietEnv, .segment (.v4 1) [0, 80, 192, 0, 0, 0, 0, 7, 0, 0, 3, 233, 0x50, 0x12, 0, 3, 0, 0, 0, 0]),
   (quietEnv, .write 0 [1, 2, 3]),
   (quietEnv, .close 0),
   (quietEnv, .segment (.v4 1) [0, 80, 192, 0, 0, 0, 0, 8, 0, 0, 3, 237, 0x50, 0x10, 0, 3, 0, 0, 0, 0]),
   (quietEnv, .tick)]

/-- In every run of careful calls, whatever is sent on a connection carries the bytes written to
it, and its FIN follows the last of them. -/
theorem tcp_transmits {calls : List (Env × Op)}
    (hcalls : TransitionSystem.Guarded step (fun s a => Short s a ∧ Careful s a) boot calls) :
    Transmits (TransitionSystem.run step boot calls) := by
  have hinv : Invariant Slot.Sound Slot.Transmits (TransitionSystem.run step boot calls) :=
    TransitionSystem.run_invariant (fun s a hs ha => sound_step hs ha.1 ha.2) sound_boot hcalls
  exact hinv.always

theorem tcp_transmits_in_time :
    TransitionSystem.Guarded step (fun s a => Short s a ∧ Careful s a) boot closedInTime ∧
      Transmits (TransitionSystem.run step boot closedInTime) := by
  have hcalls : TransitionSystem.Guarded step (fun s a => Short s a ∧ Careful s a) boot closedInTime := by
    decide +kernel
  exact ⟨hcalls, tcp_transmits hcalls⟩

end Aeglos.Tcp
