import Aeglos.Proofs.TcpCalls

/-!
# The sending side of a TCP connection

A segment carries a stream when each of its payload bytes is the byte that the stream has at that
sequence number, and a FIN comes just after the last byte.
-/

namespace Aeglos.Tcp

open Effects List

def Stream.offset (st : Stream) (seq : BitVec 32) : Nat := (seq - st.isn).toNat

/-- Each payload byte with the relative sequence number `k` is the accepted byte number `k - 1`,
and a FIN follows the last accepted byte. -/
def Stream.Carries (st : Stream) (seg : Segment) : Prop :=
  (∀ i < seg.data.length, 0 < st.offset (seg.seq + BitVec.ofNat 32 i) ∧
    st.accepted[st.offset (seg.seq + BitVec.ofNat 32 i) - 1]? = seg.data[i]?) ∧
  (seg.flags &&& tcpFin ≠ 0 → st.offset (seg.seq + BitVec.ofNat 32 seg.data.length) = st.accepted.length + 1)

instance (st : Stream) (seg : Segment) : Decidable (st.Carries seg) := inferInstanceAs (Decidable (_ ∧ _))

def Slot.Transmits (s : Slot) : Prop := ∀ seg ∈ s.stream.sent, s.stream.Carries seg

instance (s : Slot) : Decidable s.Transmits := inferInstanceAs (Decidable (∀ seg ∈ s.stream.sent, s.stream.Carries seg))

section Carrying

variable {st : Stream} {seg : Segment}

lemma Stream.offset_eq {k : Nat} {seq : BitVec 32} (hseq : seq = st.isn + 1 + BitVec.ofNat 32 k)
    (hk : 1 + k < 2 ^ 32) : st.offset seq = 1 + k := by
  have hsub : seq - st.isn = BitVec.ofNat 32 (1 + k) := by
    rw [hseq, BitVec.ofNat_add]
    bv_omega
  rw [Stream.offset, hsub, BitVec.toNat_ofNat, Nat.mod_eq_of_lt hk]

lemma Stream.carries_of_slice {k : Nat} (hshort : st.accepted.length < 2 ^ 31) (hk : k ≤ st.accepted.length)
    (hseq : seg.seq = st.isn + 1 + BitVec.ofNat 32 k)
    (hdata : seg.data = (st.accepted.drop k).take seg.data.length)
    (hfin : seg.flags &&& tcpFin ≠ 0 → k + seg.data.length = st.accepted.length) : st.Carries seg := by
  have hlen : seg.data.length ≤ st.accepted.length - k := by
    have h := congrArg List.length hdata
    rw [length_take, length_drop] at h
    omega
  have hoffset : ∀ i ≤ seg.data.length, st.offset (seg.seq + BitVec.ofNat 32 i) = 1 + (k + i) := by
    intro i hi
    apply Stream.offset_eq
    · rw [hseq, BitVec.ofNat_add, BitVec.add_assoc]
    · omega
  constructor
  · intro i hi
    rw [hoffset i hi.le]
    refine ⟨by omega, ?_⟩
    have hbyte : seg.data[i]? = ((st.accepted.drop k).take seg.data.length)[i]? := by rw [← hdata]
    rw [hbyte, getElem?_take, if_pos hi, getElem?_drop, Nat.add_sub_cancel_left]
  · intro h
    rw [hoffset _ le_rfl, hfin h, Nat.add_comm]

lemma Stream.carries_empty (hdata : seg.data = []) (hfin : seg.flags &&& tcpFin = 0) : st.Carries seg := by
  constructor
  · intro i hi
    rw [hdata] at hi
    exact absurd hi (Nat.not_lt_zero i)
  · intro h
    exact absurd hfin h

end Carrying

section Invariant

variable {q : Bytes}

structure Sender where
  state : TcpState
  nxt : BitVec 32
  una : BitVec 32
  cur : Nat
  tx : Option RingBuf
  isn : BitVec 32
  accepted : Bytes

def Slot.sender (s : Slot) : Sender :=
  ⟨s.conn.state, s.conn.sndNxt, s.conn.sndUna, s.conn.sndCur, s.conn.tx, s.stream.isn, s.stream.accepted⟩

namespace Sender

/-- The queue is what the stream has from the first unacknowledged byte on. -/
def Aligned (v : Sender) (q : Bytes) : Prop :=
  ∃ done ≤ v.accepted.length, v.una = v.isn + 1 + BitVec.ofNat 32 done ∧ v.accepted.drop done = q

def Points (v : Sender) (q : Bytes) : Prop := v.nxt = v.una + BitVec.ofNat 32 v.cur ∧ v.cur ≤ q.length

def PastFin (v : Sender) (q : Bytes) : Prop := v.nxt = v.una + BitVec.ofNat 32 (v.cur + 1) ∧ v.cur = q.length

/-- How the pointers stand to the queue in each state. -/
def Fits (v : Sender) (q : Bytes) : TcpState → Prop
  | .synSent | .synRcvd => v.accepted = [] ∧ q = [] ∧ v.una = v.isn ∧ v.nxt = v.isn + 1 ∧ v.cur = 0
  | .established | .closeWait => v.Aligned q ∧ v.Points q
  | .finWait1 => v.Aligned q ∧ (v.Points q ∨ v.PastFin q)
  | .finWait2 | .closing | .timeWait | .lastAck => q = [] ∨ v.Aligned q ∧ (v.Points q ∨ v.PastFin q)
  | .free | .listen | .closed => False

def Phase (v : Sender) : Prop :=
  (v.state ∈ [TcpState.free, .listen, .closed] ∧ v.tx = none) ∨
    ∃ r q, v.tx = some r ∧ r.Holds q ∧ v.Fits q v.state

lemma Fits.pointing {v : Sender} {q : Bytes} {st : TcpState} (h : v.Fits q st) (hcur : v.cur < q.length) :
    v.Aligned q ∧ v.Points q := by
  have hne : q ≠ [] := by
    rintro rfl
    exact absurd hcur (Nat.not_lt_zero _)
  have hpast : ¬v.PastFin q := fun hp => absurd hp.2 (Nat.ne_of_lt hcur)
  cases st <;> simp_all [Fits]

lemma fits_open {v : Sender} {q : Bytes} {st : TcpState} (hst : st = .established ∨ st = .closeWait) :
    v.Fits q st ↔ v.Aligned q ∧ v.Points q := by
  rcases hst with rfl | rfl <;> rfl

lemma fits_syn {v : Sender} {q : Bytes} {st : TcpState} (hst : st = .synSent ∨ st = .synRcvd) :
    v.Fits q st ↔ v.accepted = [] ∧ q = [] ∧ v.una = v.isn ∧ v.nxt = v.isn + 1 ∧ v.cur = 0 := by
  rcases hst with rfl | rfl <;> rfl

end Sender

def TcpState.Ended (st : TcpState) : Prop := st ∉ [TcpState.synSent, .synRcvd, .established, .closeWait]

instance (st : TcpState) : Decidable st.Ended :=
  inferInstanceAs (Decidable (st ∉ [TcpState.synSent, .synRcvd, .established, .closeWait]))

def Slot.FinSent (s : Slot) : Prop := ∃ seg ∈ s.stream.sent, seg.flags &&& tcpFin ≠ 0

structure Slot.Core (s : Slot) : Prop where
  transmits : s.Transmits
  short : s.stream.accepted.length < 2 ^ 31
  ended : s.FinSent → s.conn.state.Ended

def Slot.Keeps (P : Sender → Prop) (s : Slot) : Prop := s.Core ∧ P s.sender

abbrev Slot.Sound (s : Slot) : Prop := s.Keeps Sender.Phase

variable {env : Env} {s s' : Slot} {flags : UInt8} {data : Bytes}

lemma Slot.Core.fresh (hsent : s.stream.sent = []) (haccepted : s.stream.accepted = []) : s.Core := by
  refine ⟨?_, by rw [haccepted]; decide, ?_⟩
  · intro seg hseg
    rw [hsent] at hseg
    exact absurd hseg not_mem_nil
  · rintro ⟨seg, hseg, -⟩
    rw [hsent] at hseg
    exact absurd hseg not_mem_nil

lemma Slot.Core.congr (h : s.Core) (hstream : s'.stream = s.stream)
    (hstate : s.conn.state.Ended → s'.conn.state.Ended) : s'.Core := by
  obtain ⟨hT, hshort, hended⟩ := h
  refine ⟨?_, by rw [hstream]; exact hshort, fun hfin => hstate (hended ?_)⟩
  · unfold Slot.Transmits
    rw [hstream]
    exact hT
  · unfold Slot.FinSent at hfin
    rw [hstream] at hfin
    exact hfin

lemma Slot.send_stream :
    (s.send env flags data).stream =
      if goesOut env s.conn flags data then
        { s.stream with sent := buildTcpHeader s.conn flags data :: s.stream.sent }
      else s.stream := by
  unfold Slot.send
  split_ifs <;> rfl

@[simp] lemma Slot.send_sender : (s.send env flags data).sender = s.sender := by
  unfold Slot.send
  split_ifs <;> rfl

lemma Slot.sender_after_send (c : TcpConn) :
    Slot.sender { s.send env flags data with conn := c } = Slot.sender { s with conn := c } := by
  unfold Slot.send
  split_ifs <;> rfl

lemma Slot.Core.send (h : s.Core) (hcarries : s.stream.Carries (buildTcpHeader s.conn flags data))
    (hfin : flags &&& tcpFin ≠ 0 → s.conn.state.Ended) : (s.send env flags data).Core := by
  unfold Slot.send
  split_ifs
  · refine ⟨?_, h.short, ?_⟩
    · intro seg hseg
      rcases mem_cons.mp hseg with rfl | hseg
      · exact hcarries
      · exact h.transmits seg hseg
    · rintro ⟨seg, hseg, hflag⟩
      rcases mem_cons.mp hseg with rfl | hseg
      · exact hfin hflag
      · exact h.ended ⟨seg, hseg, hflag⟩
  · exact h

lemma Slot.Core.send_empty (h : s.Core) (hfin : flags &&& tcpFin = 0) : (s.send env flags []).Core :=
  h.send (Stream.carries_empty rfl hfin) fun hne => absurd hfin hne

lemma Slot.Keeps.send_empty {P : Sender → Prop} (h : s.Keeps P) (hfin : flags &&& tcpFin = 0) :
    (s.send env flags []).Keeps P := ⟨h.1.send_empty hfin, by rw [Slot.send_sender]; exact h.2⟩

lemma Slot.Keeps.congr {P : Sender → Prop} (h : s.Keeps P) (hsender : s'.sender = s.sender)
    (hstream : s'.stream = s.stream) : s'.Keeps P := by
  have hstate : s'.conn.state = s.conn.state := congrArg Sender.state hsender
  refine ⟨h.1.congr hstream (by rw [hstate]; exact id), ?_⟩
  rw [hsender]
  exact h.2

lemma TcpConn.txAvail_some {c : TcpConn} {r : RingBuf} (htx : c.tx = some r) (hq : r.Holds q) :
    c.txAvail = q.length := by
  rw [TcpConn.txAvail, htx]
  exact hq.avail

lemma TcpConn.txPeek_some {c : TcpConn} {r : RingBuf} (htx : c.tx = some r) (hq : r.Holds q)
    (offset n : Nat) : c.txPeek offset n = (q.drop offset).take n := by
  rw [TcpConn.txPeek, htx]
  exact hq.peekFrom offset n

lemma Slot.sendNext_sender (hadv : s' = s.sendNext env data) :
    s'.sender = { s.sender with nxt := s.sender.nxt + BitVec.ofNat 32 data.length
                                cur := s.sender.cur + data.length } := by
  subst hadv
  unfold Slot.sendNext Slot.send TcpConn.advance Slot.sender
  split_ifs <;> rfl

lemma Slot.carries_at (hshort : s.stream.accepted.length < 2 ^ 31) (halign : s.sender.Aligned q)
    {cur : Nat} (hnxt : s.conn.sndNxt = s.conn.sndUna + BitVec.ofNat 32 cur) (hcur : cur ≤ q.length) {n : Nat}
    (hfin : flags &&& tcpFin ≠ 0 → q.length ≤ cur + n) :
    s.stream.Carries (buildTcpHeader s.conn flags ((q.drop cur).take n)) := by
  obtain ⟨done, hdone, huna, hq⟩ := halign
  have hlen : q.length = s.stream.accepted.length - done := by
    rw [← hq]
    exact length_drop
  change done ≤ s.stream.accepted.length at hdone
  refine Stream.carries_of_slice (k := done + cur) hshort (by omega) ?_ ?_ ?_
  · change s.conn.sndNxt = _
    rw [hnxt, show s.conn.sndUna = _ from huna, BitVec.ofNat_add, BitVec.add_assoc]
    rfl
  · change (q.drop cur).take n = (s.stream.accepted.drop (done + cur)).take ((q.drop cur).take n).length
    have hdrop : q.drop cur = s.stream.accepted.drop (done + cur) := by
      rw [← hq, drop_drop]
      rfl
    rw [hdrop, length_take, ← take_eq_take_min]
  · intro h
    have hend := hfin h
    change done + cur + ((q.drop cur).take n).length = _
    rw [length_take, length_drop]
    omega

lemma Sender.Fits.sent {v : Sender} {st : TcpState} (h : v.Fits q st) {n : Nat} (hn : 0 < n)
    (hcur : v.cur + n ≤ q.length) :
    Sender.Fits { v with nxt := v.nxt + BitVec.ofNat 32 n, cur := v.cur + n } q st := by
  obtain ⟨halign, hnxt, _⟩ := h.pointing (by omega)
  have hpoints : Sender.Points { v with nxt := v.nxt + BitVec.ofNat 32 n, cur := v.cur + n } q := by
    refine ⟨?_, hcur⟩
    change v.nxt + BitVec.ofNat 32 n = v.una + BitVec.ofNat 32 (v.cur + n)
    rw [hnxt, BitVec.ofNat_add, BitVec.add_assoc]
  cases st with
  | synSent | synRcvd =>
    obtain ⟨-, rfl, -⟩ := h
    exact absurd hcur (by simp; omega)
  | established | closeWait => exact ⟨halign, hpoints⟩
  | finWait1 => exact ⟨halign, Or.inl hpoints⟩
  | finWait2 | closing | timeWait | lastAck => exact Or.inr ⟨halign, Or.inl hpoints⟩
  | free | listen | closed => exact h

lemma Slot.Sound.sends (h : s.Sound) (hstep : Sends env s s') : s'.Sound := by
  obtain ⟨hcore, hphase⟩ := h
  obtain ⟨n, hn, hcur, rfl⟩ := hstep
  rcases hphase with ⟨-, hnone⟩ | ⟨r, q, htx, hq, hfits⟩
  · rw [TcpConn.txAvail, show s.conn.tx = none from hnone] at hcur
    exact absurd hcur (by simp; omega)
  · rw [TcpConn.txAvail_some htx hq] at hcur
    rw [TcpConn.txPeek_some htx hq]
    have hlen : ((q.drop s.conn.sndCur).take n).length = n := by
      rw [length_take, length_drop]
      omega
    have hpoint := hfits.pointing (by change s.conn.sndCur < _; omega)
    have hcarries : s.stream.Carries (buildTcpHeader s.conn tcpAck ((q.drop s.conn.sndCur).take n)) :=
      Slot.carries_at hcore.short hpoint.1 hpoint.2.1 hpoint.2.2 (absurd (by decide))
    constructor
    · have hsent : (s.send env tcpAck ((q.drop s.conn.sndCur).take n)).Core :=
        hcore.send hcarries (absurd (by decide))
      have hstate : (s.sendNext env ((q.drop s.conn.sndCur).take n)).conn.state = s.conn.state :=
        congrArg Sender.state (Slot.sendNext_sender rfl)
      refine hsent.congr rfl ?_
      rw [Slot.send_conn, hstate]
      exact id
    · rw [Slot.sendNext_sender rfl, hlen]
      exact Or.inr ⟨r, q, htx, hq, hfits.sent hn hcur⟩

lemma Slot.Sound.flushTx (h : s.Sound) : Outcome (flushTx env) s (fun _ s' => s'.Sound) Slot.Transmits :=
  (outcome_flushTx (fun _ _ hs => hs.sends) h).mono (fun _ _ h => h) fun _ h => h.1.transmits

end Invariant

section Calls

variable {env : Env} {s : Slot}

lemma Stream.Carries.append {st : Stream} {seg : Segment} (h : st.Carries seg) (hfin : seg.flags &&& tcpFin = 0)
    (data : Bytes) : Stream.Carries { st with accepted := st.accepted ++ data } seg := by
  refine ⟨fun i hi => ⟨(h.1 i hi).1, ?_⟩, fun hne => absurd hfin hne⟩
  have hbyte := (h.1 i hi).2
  rw [List.getElem?_eq_getElem hi] at hbyte ⊢
  obtain ⟨hlt, -⟩ := List.getElem?_eq_some_iff.mp hbyte
  change (st.accepted ++ data)[st.offset (seg.seq + BitVec.ofNat 32 i) - 1]? = _
  rw [List.getElem?_append_left hlt, hbyte]

lemma Slot.Sound.accept (h : s.Sound) (hstate : s.conn.state = .established ∨ s.conn.state = .closeWait)
    {r : RingBuf} (htx : s.conn.tx = some r) {data : Bytes}
    (hshort : s.stream.accepted.length + data.length < 2 ^ 31) :
    Slot.Sound { s with
      conn := { s.conn with tx := some (r.push data).2 }
      stream := { s.stream with accepted := s.stream.accepted ++ data.take (r.push data).1 } } := by
  obtain ⟨hcore, hphase⟩ := h
  have hopen : ¬s.conn.state.Ended := by
    rcases hstate with h | h <;> rw [h] <;> decide
  constructor
  · refine ⟨fun seg hseg => ?_, ?_, fun hfin => absurd (hcore.ended hfin) hopen⟩
    · have hnofin : seg.flags &&& tcpFin = 0 := by
        by_contra hne
        exact hopen (hcore.ended ⟨seg, hseg, hne⟩)
      exact (hcore.transmits seg hseg).append hnofin _
    · change (s.stream.accepted ++ data.take _).length < _
      rw [length_append, length_take]
      omega
  · rcases hphase with ⟨-, hnone⟩ | ⟨r', q, htx', hq, hfits⟩
    · exact absurd (htx.symm.trans hnone) (by simp)
    · obtain rfl : r = r' := Option.some.inj (htx.symm.trans htx')
      obtain ⟨⟨done, hdone, huna, hdrop⟩, hnxt, hcur⟩ := (Sender.fits_open hstate).mp hfits
      refine Or.inr ⟨(r.push data).2, q ++ data.take (r.push data).1, rfl, hq.push data, ?_⟩
      refine (Sender.fits_open hstate).mpr ⟨⟨done, ?_, huna, ?_⟩, hnxt, ?_⟩
      · exact hdone.trans (length_append ▸ Nat.le_add_right _ _)
      · change (s.sender.accepted ++ data.take _).drop done = _
        rw [drop_append_of_le_length hdone, hdrop]
      · exact hcur.trans (length_append ▸ Nat.le_add_right _ _)

lemma Slot.Sound.tcpWrite (h : s.Sound) {data : Bytes} (hshort : s.stream.accepted.length + data.length < 2 ^ 31) :
    Outcome (tcpWrite env data) s (fun _ s' => s'.Sound) Slot.Transmits := by
  rw [Tcp.tcpWrite]
  simp only [outcome_bind, outcome_get, outcome_ite, outcome_pure]
  refine ⟨fun _ => h, fun hstate => ?_⟩
  have hopen : s.conn.state = .established ∨ s.conn.state = .closeWait := by tauto
  cases htx : s.conn.tx with
  | none => exact h
  | some r =>
    simp only [outcome_bind, outcome_modify, outcome_pure]
    exact (h.accept hopen htx hshort).flushTx

lemma Slot.Sound.tcpRead (h : s.Sound) (n : Nat) : Outcome (tcpRead n) s (fun _ s' => s'.Sound) Slot.Transmits := by
  rw [Tcp.tcpRead]
  simp only [outcome_bind, outcome_get]
  cases s.conn.rx with
  | none => exact h
  | some rx => exact h.congr rfl rfl

lemma Slot.Sound.release (h : s.Sound) {st : TcpState} (hst : st ∈ [TcpState.free, .listen, .closed]) :
    Slot.Sound { s with conn := s.conn.release st } := by
  have hended : st.Ended := by
    revert hst
    cases st <;> decide
  exact ⟨h.1.congr rfl fun _ => hended, Or.inl ⟨hst, rfl⟩⟩

def TcpConn.SentAll (c : TcpConn) : Prop := c.sndCur = c.txAvail

instance (c : TcpConn) : Decidable c.SentAll := inferInstanceAs (Decidable (c.sndCur = c.txAvail))

lemma Slot.Sound.sendFin (h : s.Sound) (hopen : s.conn.state = .established ∨ s.conn.state = .closeWait)
    (hall : s.conn.SentAll) {next : TcpState} (hnext : next = .finWait1 ∨ next = .lastAck) :
    Outcome (sendFin env next) s (fun _ s' => s'.Sound) Slot.Transmits := by
  obtain ⟨hcore, hphase⟩ := h
  rw [Tcp.sendFin]
  simp only [outcome_bind, outcome_sendSegment, outcome_modifyConn, Slot.send_conn]
  have hended : next.Ended := by
    rcases hnext with rfl | rfl <;> decide
  rcases hphase with ⟨hidle, -⟩ | ⟨r, q, htx, hq, hfits⟩
  · change s.conn.state ∈ _ at hidle
    rcases hopen with h | h <;> rw [h] at hidle <;> exact absurd hidle (by decide)
  · obtain ⟨halign, hnxt, hcur⟩ := (Sender.fits_open hopen).mp hfits
    have hsent : s.conn.sndCur = q.length := by rw [hall, TcpConn.txAvail_some htx hq]
    -- the stream is the same as if the state had changed before the FIN
    let ending : Slot := { s with conn := { s.conn with state := next } }
    have hending : ending.Core := hcore.congr rfl fun _ => hended
    have hcarries : s.stream.Carries (buildTcpHeader s.conn (tcpFin ||| tcpAck) ((q.drop s.conn.sndCur).take 0)) :=
      Slot.carries_at hcore.short halign hnxt hcur fun _ => hsent.ge
    have hfin : (ending.send env (tcpFin ||| tcpAck) []).Core := hending.send hcarries fun _ => hended
    constructor
    · refine hfin.congr ?_ fun _ => hended
      rw [Slot.send_stream, Slot.send_stream]
      rfl
    · rw [Slot.sender_after_send]
      have hpast : s.conn.sndNxt + 1 = s.conn.sndUna + BitVec.ofNat 32 (s.conn.sndCur + 1) := by
        rw [BitVec.ofNat_add, ← BitVec.add_assoc]
        exact congrArg (· + 1) hnxt
      refine Or.inr ⟨r, q, htx, hq, ?_⟩
      rcases hnext with rfl | rfl
      · exact ⟨halign, Or.inr ⟨hpast, hsent⟩⟩
      · exact Or.inr ⟨halign, Or.inr ⟨hpast, hsent⟩⟩

lemma Slot.Sound.tcpClose (h : s.Sound)
    (hall : s.conn.state = .established ∨ s.conn.state = .closeWait → s.conn.SentAll) :
    Outcome (tcpClose env) s (fun _ s' => s'.Sound) Slot.Transmits := by
  rw [Tcp.tcpClose]
  simp only [outcome_bind, outcome_get]
  split
  case h_1 hst => exact h.sendFin (Or.inl hst) (hall (Or.inl hst)) (Or.inl rfl)
  case h_2 hst => exact h.sendFin (Or.inr hst) (hall (Or.inr hst)) (Or.inr rfl)
  case h_3 => exact h.release (by decide)

lemma openSlot_sound {c : TcpConn} {flags : UInt8} (hfin : flags &&& tcpFin = 0)
    (hstate : c.state = .synSent ∨ c.state = .synRcvd) (htx : c.tx = some RingBuf.new) (huna : c.sndUna = c.sndNxt)
    (hcur : c.sndCur = 0) : Outcome (openSlot env c flags) s (fun _ s' => s'.Sound) Slot.Transmits := by
  rw [openSlot]
  simp only [outcome_bind, outcome_set, outcome_sendSegment, outcome_modifyConn, Slot.send_conn]
  have hfresh : Slot.Core ⟨c, ⟨c.sndNxt, [], []⟩, ⟨env.peer, []⟩⟩ := Slot.Core.fresh rfl rfl
  have hsent : (Slot.send env flags [] ⟨c, ⟨c.sndNxt, [], []⟩, ⟨env.peer, []⟩⟩).Core := hfresh.send_empty hfin
  constructor
  · refine hsent.congr rfl ?_
    rw [Slot.send_conn]
    exact id
  · rw [Slot.sender_after_send]
    refine Or.inr ⟨RingBuf.new, [], htx, RingBuf.new_holds, ?_⟩
    change Sender.Fits _ [] c.state
    rcases hstate with h | h <;> rw [h] <;> exact ⟨rfl, rfl, huna, rfl, hcur⟩

lemma Slot.Sound.awaitEstablished (h : s.Sound)
    (hsyn : s.conn.state ∈ [TcpState.established, .closed, .free, .synSent, .synRcvd]) :
    Outcome (awaitEstablished env) s (fun _ s' => s'.Sound) Slot.Transmits := by
  rw [Tcp.awaitEstablished]
  simp only [outcome_bind, outcome_get, outcome_ite, outcome_pure, outcome_modifyConn, outcome_sendSegment,
    Slot.send_conn]
  refine ⟨fun _ => h, fun hne => ⟨fun _ => h, fun hne' => ⟨fun _ => ?_, fun _ => h⟩⟩⟩
  have hstate : s.conn.state = .synSent ∨ s.conn.state = .synRcvd := by
    simp only [mem_cons, not_mem_nil, or_false] at hsyn
    tauto
  obtain ⟨hcore, hphase⟩ := h
  constructor
  · have hback : Slot.Core { s with conn := { s.conn with sndNxt := s.conn.sndUna } } := hcore.congr rfl id
    have hsent : Slot.Core (Slot.send env tcpSyn [] { s with conn := { s.conn with sndNxt := s.conn.sndUna } }) :=
      hback.send_empty (by decide)
    refine hsent.congr rfl ?_
    rw [Slot.send_conn]
    exact id
  · rw [Slot.sender_after_send]
    rcases hphase with ⟨hidle, -⟩ | ⟨r, q, htx, hq, hfits⟩
    · change s.conn.state ∈ _ at hidle
      rcases hstate with h | h <;> rw [h] at hidle <;> exact absurd hidle (by decide)
    · obtain ⟨hnone, hempty, huna, -, hcur⟩ := (Sender.fits_syn hstate).mp hfits
      refine Or.inr ⟨r, q, htx, hq, (Sender.fits_syn hstate).mpr ⟨hnone, hempty, huna, ?_, hcur⟩⟩
      exact congrArg (· + 1) huna

lemma Slot.Sound.awaitReadable (h : s.Sound) :
    Outcome (awaitReadable env) s (fun _ s' => s'.Sound) Slot.Transmits := by
  rw [Tcp.awaitReadable, outcome_bind]
  refine h.flushTx.mono (fun _ s' h' => ?_) fun _ h' => h'
  simp only [outcome_bind, outcome_get, outcome_ite, outcome_pure]
  exact ⟨fun _ => h', fun _ => ⟨fun _ => h', fun _ => h'⟩⟩

end Calls

end Aeglos.Tcp
