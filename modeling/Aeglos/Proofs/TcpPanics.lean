import Aeglos.Proofs.TcpOffPath

/-!
# Segments that stop the handler

Two segments stop `tcp_handle_segment` at a slice out of range.
-/

namespace Aeglos.Tcp

open Effects

def TcpConn.FlushPanics (c : TcpConn) : Prop :=
  1460 < min (min (c.txAvail - c.sndCur) c.mss) (min c.sndWnd c.cwnd - c.sndCur)

structure TcpConn.AckSurvives (c : TcpConn) (h : Header) : Prop where
  new : c.AcksNew h → ¬(c.slide (c.acked h) h.ackNum).FlushPanics
  third : c.Duplicate h → min (c.dupAcks + 1) 255 = 3 → ¬c.fastRetransmit.FlushPanics
  later : c.Duplicate h → 3 < min (c.dupAcks + 1) 255 →
    ¬TcpConn.FlushPanics { c with cwnd := min (c.cwnd + c.mss) (2 ^ 32 - 1) }

/-- What the handler needs of a segment without RST in each state. -/
def TcpConn.SurvivesIn (c : TcpConn) (h : Header) : TcpState → Prop
  | .synSent => h.has tcpSyn ∧ h.has tcpAck → 20 ≤ h.doff
  | .established | .finWait1 | .finWait2 => h.has tcpAck → TcpConn.AckSurvives { c with sndWnd := h.wnd } h
  | _ => True

def TcpConn.Survives (c : TcpConn) (h : Header) : Prop := ¬h.has tcpRst → c.SurvivesIn h c.state

def Table.Survives (t : Table) (srcIp : IpAddr) (payload : Bytes) : Prop :=
  20 ≤ payload.length → ∀ id ∈ findConn t srcIp (parseHeader payload), (t.slots id).conn.Survives (parseHeader payload)

section Flushing

variable {env : Env} {s : Slot} {h : Header}

lemma Slot.sendNext_fits (hfits : ¬s.conn.FlushPanics) {n : Nat}
    (hn : n = min (min (s.conn.txAvail - s.conn.sndCur) s.conn.mss) (min s.conn.sndWnd s.conn.cwnd - s.conn.sndCur)) :
    ¬(s.sendNext env (s.conn.txPeek s.conn.sndCur n)).conn.FlushPanics := by
  obtain ⟨ticks, count, backoff, heq⟩ := s.conn.advance_eq env (s.conn.txPeek s.conn.sndCur n).length
  rw [show (s.sendNext env _).conn = _ from heq]
  unfold TcpConn.FlushPanics at hfits ⊢
  rw [TcpConn.txPeek_length]
  change ¬1460 < min (min (s.conn.txAvail - (s.conn.sndCur + _)) s.conn.mss) (min s.conn.sndWnd s.conn.cwnd - (s.conn.sndCur + _))
  omega

lemma returns_flushLoop (segs : Nat) (hfits : ¬s.conn.FlushPanics) : Returns (flushLoop env segs) s := by
  induction segs generalizing s with
  | zero => trivial
  | succ segs ih =>
    rw [Returns, flushLoop]
    simp only [outcome_bind, outcome_get, outcome_ite, outcome_pure, outcome_stop, outcome_sendSegment,
      outcome_modifyConn, Slot.send_conn]
    refine ⟨fun _ => trivial, fun _ => ⟨fun _ => trivial, fun _ => ⟨fun _ => trivial, fun _ =>
      ⟨fun hbig => hfits hbig, fun _ => ⟨fun _ => trivial, fun _ => ?_⟩⟩⟩⟩⟩
    exact ih (Slot.sendNext_fits hfits rfl)

lemma returns_flushTx_iff : Returns (flushTx env) s ↔ ¬s.conn.FlushPanics := by
  constructor
  · intro hret hbig
    rw [Returns, flushTx, show maxFlushSegs = 7 + 1 from rfl, flushLoop] at hret
    simp only [outcome_bind, outcome_get, outcome_ite, outcome_pure, outcome_stop] at hret
    unfold TcpConn.FlushPanics at hbig
    exact (((hret.2 (by omega)).2 (by omega)).2 (by omega)).1 hbig
  · exact returns_flushLoop _

lemma returns_onDuplicateAck_iff :
    Returns (onDuplicateAck env) s ↔
      (min (s.conn.dupAcks + 1) 255 = 3 → ¬s.conn.fastRetransmit.FlushPanics) ∧
        (3 < min (s.conn.dupAcks + 1) 255 →
          ¬TcpConn.FlushPanics { s.conn with cwnd := min (s.conn.cwnd + s.conn.mss) (2 ^ 32 - 1) }) := by
  rw [Returns, onDuplicateAck]
  simp only [outcome_bind, outcome_get, outcome_ite, outcome_pure, outcome_modifyConn]
  refine and_congr (imp_congr_right fun _ => returns_flushTx_iff) ?_
  constructor
  · exact fun hlater hd => returns_flushTx_iff.mp ((hlater (by omega)).1 hd)
  · exact fun hlater _ => ⟨fun hd => returns_flushTx_iff.mpr (hlater hd), fun _ => trivial⟩

lemma returns_processAck_iff : Returns (processAck env h) s ↔ s.conn.AckSurvives h := by
  rw [Returns, processAck]
  simp only [outcome_bind, outcome_get, outcome_ite, outcome_modifyConn]
  constructor
  · rintro ⟨hnew, hold⟩
    have hdup : s.conn.Duplicate h → _ := fun hd =>
      returns_onDuplicateAck_iff.mp ((hold fun hn => absurd hd.1 hn.1.ne').1 hd)
    exact ⟨fun hn => returns_flushTx_iff.mp (hnew hn), fun hd => (hdup hd).1, fun hd => (hdup hd).2⟩
  · intro hsurvives
    refine ⟨fun hn => returns_flushTx_iff.mpr (hsurvives.new hn), fun _ => ⟨fun hd => ?_, fun _ => trivial⟩⟩
    exact returns_onDuplicateAck_iff.mpr ⟨hsurvives.third hd, hsurvives.later hd⟩

lemma returns_deliver : Returns (deliver env h) s := by
  rw [Returns, deliver]
  simp only [outcome_bind, outcome_get, outcome_ite, outcome_pure, outcome_modifyConn, outcome_sendSegment]
  exact ⟨fun _ => trivial, fun _ => trivial⟩

lemma returns_receiveData : Returns (receiveData env h) s := by
  rw [Returns, receiveData]
  simp only [outcome_bind, outcome_ite, outcome_modifyConn, onPeerFin, outcome_sendSegment]
  exact returns_deliver.mono (fun _ _ _ => ⟨fun _ => trivial, fun _ => trivial⟩) fun _ h => h

lemma returns_onData_iff : Returns (onData env h) s ↔ (h.has tcpAck → s.conn.AckSurvives h) := by
  rw [Returns, onData]
  simp only [outcome_bind, outcome_ite]
  constructor
  · intro hret hack
    exact returns_processAck_iff.mp ((hret.1 hack).mono (fun _ _ _ => trivial) fun _ h => h)
  · intro hack
    refine ⟨fun hflag => ?_, fun _ => returns_receiveData⟩
    exact (returns_processAck_iff.mpr (hack hflag)).mono (fun _ _ _ => returns_receiveData) fun _ h => h

lemma returns_onSegment_iff : Returns (onSegment env h) s ↔ s.conn.Survives h := by
  rw [Returns, onSegment, outcome_ite, TcpConn.Survives]
  have hreset : h.has tcpRst → Outcome (modifyConn fun c => c.release .closed) s (fun _ _ => True) fun _ => False :=
    fun _ => trivial
  rw [and_iff_right hreset]
  refine imp_congr_right fun _ => ?_
  simp only [outcome_bind, outcome_modifyConn, outcome_get]
  have hin : ∀ {st}, s.conn.state = st → (s.conn.SurvivesIn h st ↔ s.conn.SurvivesIn h s.conn.state) :=
    fun hst => iff_of_eq (congrArg (s.conn.SurvivesIn h) hst.symm)
  split
  case h_1 hst =>
    refine Iff.trans (iff_of_true ?_ trivial) (hin hst)
    rw [onSynRcvd]
    simp only [outcome_bind, outcome_get, outcome_ite, outcome_pure, outcome_modifyConn]
    exact ⟨fun _ => returns_deliver, fun _ => trivial⟩
  case h_2 hst =>
    refine Iff.trans ?_ (hin hst)
    rw [onSynSent]
    simp only [outcome_bind, outcome_ite, outcome_pure, outcome_modifyConn, outcome_stop, outcome_sendSegment]
    constructor
    · exact fun hret hflags => Nat.not_lt.mp (hret.1 hflags).1
    · exact fun hdoff => ⟨fun hflags => ⟨Nat.not_lt.mpr (hdoff hflags), fun _ => trivial⟩, fun _ => trivial⟩
  case h_3 hst => exact returns_onData_iff.trans (hin hst)
  case h_4 hst => exact returns_onData_iff.trans (hin hst)
  case h_5 hst => exact returns_onData_iff.trans (hin hst)
  case h_6 hst => exact Iff.trans (iff_of_true trivial trivial) (hin hst)
  case h_7 =>
    refine iff_of_true trivial ?_
    cases hst : s.conn.state <;> trivial

lemma returns_tcpHandleSegment_iff {t : Table} {srcIp : IpAddr} {payload : Bytes} :
    Returns (tcpHandleSegment env srcIp payload) t ↔ t.Survives srcIp payload := by
  rw [Returns, tcpHandleSegment]
  simp only [outcome_bind, outcome_get, outcome_ite, outcome_pure]
  have hshort : payload.length < 20 → True := fun _ => trivial
  rw [and_iff_right hshort, Table.Survives, Nat.not_lt]
  refine imp_congr_right fun _ => ?_
  cases hfound : findConn t srcIp (parseHeader payload) with
  | none =>
    refine iff_of_true ?_ fun id hid => absurd hid (by simp)
    rw [onUnmatched]
    simp only [outcome_bind, outcome_get, outcome_ite]
    refine ⟨fun _ => ?_, fun _ => ⟨fun _ => ?_, fun _ => trivial⟩⟩
    · cases freeSlot t with
      | none => trivial
      | some id => trivial
    · cases srcIp with
      | v4 addr => trivial
      | v6 addr => trivial
  | some id =>
    have hslot : Returns (onSlot id (onSegment env (parseHeader payload))) t ↔
        (t.slots id).conn.Survives (parseHeader payload) := by
      rw [Returns, onSlot, outcome_zoom]
      exact returns_onSegment_iff
    refine Iff.trans hslot ?_
    simp only [Option.mem_def, Option.some.injEq, forall_eq']

end Flushing

end Aeglos.Tcp
