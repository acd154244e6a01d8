import Aeglos.Proofs.TcpSteps

/-!
# Segments from off the path

The handler looks at a sequence number only to take data.
-/

namespace Aeglos.Tcp

open Effects

def TcpConn.window (c : TcpConn) : Nat := (c.rx.map fun r => min r.free 65535).getD 8192

def TcpState.Live (st : TcpState) : Prop := st ∉ [TcpState.free, .listen, .closed]

/-- The segment's number is outside of the receive window; before there is one, it does not
acknowledge the SYN. -/
def TcpConn.OffPath (c : TcpConn) (h : Header) : Prop :=
  if c.state = .synSent then h.ackNum ≠ c.sndNxt else c.window ≤ (h.seq - c.rcvNxt).toNat

/-- State, sequence variables, windows, buffers and congestion variables are the same. -/
structure TcpConn.Same (c c' : TcpConn) : Prop where
  state : c'.state = c.state
  sndNxt : c'.sndNxt = c.sndNxt
  sndUna : c'.sndUna = c.sndUna
  sndCur : c'.sndCur = c.sndCur
  rcvNxt : c'.rcvNxt = c.rcvNxt
  sndWnd : c'.sndWnd = c.sndWnd
  rx : c'.rx = c.rx
  tx : c'.tx = c.tx
  cwnd : c'.cwnd = c.cwnd
  ssthresh : c'.ssthresh = c.ssthresh
  dupAcks : c'.dupAcks = c.dupAcks
  lastAckRcvd : c'.lastAckRcvd = c.lastAckRcvd

def Inert (env : Env) (srcIp : IpAddr) (payload : Bytes) (t : Table) (id : ConnId) : Prop :=
  Outcome (tcpHandleSegment env srcIp payload) t (fun _ t' => (t.slots id).conn.Same (t'.slots id).conn) fun _ => False

def TcpConn.NothingToSend (c : TcpConn) : Prop := min c.sndWnd c.cwnd ≤ c.sndCur ∨ c.txAvail ≤ c.sndCur ∨ c.mss = 0

def TcpConn.AcksNew (c : TcpConn) (h : Header) : Prop := 0 < c.acked h ∧ c.acked h ≤ c.sndCur + 1

def TcpConn.Duplicate (c : TcpConn) (h : Header) : Prop := c.acked h = 0 ∧ h.ackNum = c.lastAckRcvd ∧ h.data = []

/-- Another duplicate acknowledgement changes nothing: the count and the congestion window are at
their limits and there is nothing to send. -/
def TcpConn.Saturated (c : TcpConn) : Prop :=
  c.dupAcks = 255 ∧ min (c.cwnd + c.mss) (2 ^ 32 - 1) = c.cwnd ∧ c.NothingToSend

def TcpConn.Ignores (c : TcpConn) (h : Header) : Prop :=
  ¬h.has tcpRst ∧ h.wnd = c.sndWnd ∧
    match c.state with
    | .synSent => ¬(h.has tcpSyn ∧ h.has tcpAck)
    | .synRcvd | .lastAck => ¬(h.has tcpAck ∧ h.ackNum = c.sndNxt)
    | .established | .finWait1 | .finWait2 =>
      ¬h.has tcpFin ∧
        (h.has tcpAck → ¬c.AcksNew h ∧ (c.Duplicate h → c.Saturated) ∧
          ¬(c.state = .finWait1 ∧ h.ackNum = c.sndNxt))
    | _ => True

section Steady

variable {β : Type} {env : Env} {s : Slot} {h : Header} {E : Slot → Prop}

structure Steady (f : TcpConn → β) : Prop where
  receive : ∀ (c : TcpConn) rx next, f { c with rx := rx, rcvNxt := next } = f c
  state : ∀ (c : TcpConn) st tick, f { c with state := st, stateTick := tick } = f c

lemma TcpConn.advance_eq (env : Env) (n : Nat) (c : TcpConn) :
    ∃ ticks count backoff, c.advance env n =
      { c with sndNxt := c.sndNxt + BitVec.ofNat 32 n, sndCur := c.sndCur + n, retxTicks := ticks, retxCount := count
               retxBackoff := backoff } := by
  unfold TcpConn.advance
  split_ifs
  · exact ⟨_, _, _, rfl⟩
  · exact ⟨_, _, _, rfl⟩

lemma TcpConn.armPersist_eq (env : Env) (c : TcpConn) :
    ∃ ticks arm, c.armPersist env = { c with persistTicks := ticks, persistArm := arm } := by
  unfold TcpConn.armPersist
  split_ifs
  · exact ⟨_, _, rfl⟩
  · exact ⟨_, _, rfl⟩

lemma flushTx_keeps {f : TcpConn → β} {b : β}
    (hf : ∀ (c : TcpConn) nxt cur ticks count backoff,
      f { c with sndNxt := nxt, sndCur := cur, retxTicks := ticks, retxCount := count, retxBackoff := backoff } = f c)
    (hs : f s.conn = b) : Outcome (flushTx env) s (fun _ s' => f s'.conn = b) (fun s' => f s'.conn = b) := by
  refine outcome_flushTx ?_ hs
  rintro s₁ s₂ hs₁ ⟨n, -, -, rfl⟩
  obtain ⟨ticks, count, backoff, heq⟩ := s₁.conn.advance_eq env (s₁.conn.txPeek s₁.conn.sndCur n).length
  rw [show (s₁.sendNext env _).conn = _ from heq, hf]
  exact hs₁

variable {f : TcpConn → β} (hf : Steady f) {b : β}

include hf

lemma Steady.deliver (hs : f s.conn = b) : Outcome (deliver env h) s (fun _ s' => f s'.conn = b) E := by
  rw [Tcp.deliver]
  simp only [outcome_bind, outcome_get, outcome_ite, outcome_pure, outcome_modifyConn, outcome_sendSegment,
    Slot.send_conn]
  exact ⟨fun _ => (hf.receive s.conn _ _).trans hs, fun _ => hs⟩

lemma Steady.finReceived (c : TcpConn) : f (c.finReceived env) = f c := by
  unfold TcpConn.finReceived
  split
  · exact hf.state c _ _
  · exact hf.state c _ _
  · exact hf.state c _ _
  · rfl

lemma Steady.finConfirmed (c : TcpConn) : f (c.finConfirmed h) = f c := by
  unfold TcpConn.finConfirmed
  split_ifs
  · exact hf.state c _ _
  · rfl

lemma Steady.onPeerFin (hs : f s.conn = b) : Outcome (onPeerFin env) s (fun _ s' => f s'.conn = b) E := by
  rw [Tcp.onPeerFin]
  simp only [outcome_bind, outcome_modifyConn, outcome_sendSegment, Slot.send_conn]
  rw [hf.finReceived]
  exact (hf.receive s.conn _ _).trans hs

lemma Steady.receiveData (hs : f s.conn = b) : Outcome (receiveData env h) s (fun _ s' => f s'.conn = b) E := by
  rw [Tcp.receiveData]
  simp only [outcome_bind, outcome_ite, outcome_modifyConn, hf.finConfirmed]
  refine (hf.deliver hs).mono (fun _ s₁ hs₁ => ⟨fun _ => ?_, fun _ => hs₁⟩) fun _ h => h
  exact hf.onPeerFin hs₁

end Steady

section Ignoring

variable {env : Env} {s : Slot} {h : Header} {E : Slot → Prop}

lemma deliver_offPath (hwindow : s.conn.window ≤ (h.seq - s.conn.rcvNxt).toNat) :
    Outcome (deliver env h) s (fun _ s' => s'.conn = s.conn) E := by
  rw [deliver]
  simp only [outcome_bind, outcome_get, outcome_ite, outcome_pure, outcome_modifyConn, outcome_sendSegment,
    Slot.send_conn]
  refine ⟨fun htaken => ?_, fun _ => trivial⟩
  have hzero : s.conn.window = 0 := by
    rw [htaken.2, BitVec.sub_self] at hwindow
    exact Nat.le_zero.mp hwindow
  unfold TcpConn.window at hzero
  cases hrx : s.conn.rx with
  | none => simp [hrx] at hzero
  | some r =>
    rw [hrx] at hzero
    have hfull : r.free = 0 := by
      have hmin : min r.free 65535 = 0 := hzero
      omega
    have hpush : r.push h.data = (0, r) := by
      rw [RingBuf.push, hfull, Nat.min_zero]
      rfl
    have hnext : s.conn.rcvNxt + BitVec.ofNat 32 0 = s.conn.rcvNxt := by simp
    simp only [Option.map_some, hpush, Option.getD_some]
    rw [hnext, ← hrx]

lemma flushTx_nothing (hnothing : s.conn.NothingToSend) : Outcome (flushTx env) s (fun _ s' => s' = s) E := by
  rw [flushTx, maxFlushSegs, flushLoop]
  simp only [outcome_bind, outcome_get, outcome_ite, outcome_pure, outcome_stop]
  refine ⟨fun _ => trivial, fun hwnd => ⟨fun _ => trivial, fun hunsent => ⟨fun _ => trivial, fun hn => ?_⟩⟩⟩
  exfalso
  rcases hnothing with h | h | h <;> omega

lemma TcpConn.txPeek_length (c : TcpConn) (offset n : Nat) :
    (c.txPeek offset n).length = min n (c.txAvail - offset) := by
  unfold TcpConn.txPeek TcpConn.txAvail
  cases c.tx with
  | none => simp
  | some r => simp [RingBuf.peekFrom, RingBuf.avail]

lemma flushTx_something (hsome : ¬s.conn.NothingToSend) (hE : ∀ s', E s') :
    Outcome (flushTx env) s (fun _ s' => s.conn.sndCur < s'.conn.sndCur) E := by
  have hcan : ¬s.conn.sndCur ≥ min s.conn.sndWnd s.conn.cwnd ∧ s.conn.txAvail - s.conn.sndCur ≠ 0 ∧
      min (min (s.conn.txAvail - s.conn.sndCur) s.conn.mss) (min s.conn.sndWnd s.conn.cwnd - s.conn.sndCur) ≠ 0 := by
    unfold TcpConn.NothingToSend at hsome
    omega
  rw [flushTx, maxFlushSegs, flushLoop]
  simp only [outcome_bind, outcome_get, outcome_ite, outcome_pure, outcome_stop, outcome_sendSegment,
    outcome_modifyConn, Slot.send_conn]
  refine ⟨fun h => absurd h hcan.1, fun _ => ⟨fun h => absurd h hcan.2.1, fun _ => ⟨fun h => absurd h hcan.2.2,
    fun _ => ⟨fun _ => hE s, fun _ => ⟨fun h => ?_, fun hlen => ?_⟩⟩⟩⟩⟩
  · rw [TcpConn.txPeek_length] at h
    omega
  · refine (outcome_flushLoop (P := fun s' => s.conn.sndCur < s'.conn.sndCur) ?_ 7 ?_).mono (fun _ _ h => h)
      fun s' _ => hE s'
    · rintro s₁ s₂ hs₁ ⟨n, -, -, rfl⟩
      obtain ⟨ticks, count, backoff, heq⟩ := s₁.conn.advance_eq env (s₁.conn.txPeek s₁.conn.sndCur n).length
      rw [show (s₁.sendNext env _).conn = _ from heq]
      exact Nat.lt_add_right _ hs₁
    · obtain ⟨ticks, count, backoff, heq⟩ := s.conn.advance_eq env
        (s.conn.txPeek s.conn.sndCur (min (min (s.conn.txAvail - s.conn.sndCur) s.conn.mss)
          (min s.conn.sndWnd s.conn.cwnd - s.conn.sndCur))).length
      rw [heq]
      exact Nat.lt_add_of_pos_right (Nat.pos_of_ne_zero hlen)

lemma TcpConn.Same.persist (c : TcpConn) : c.Same (c.armPersist env) := by
  obtain ⟨ticks, arm, heq⟩ := c.armPersist_eq env
  rw [heq]
  exact ⟨rfl, rfl, rfl, rfl, rfl, rfl, rfl, rfl, rfl, rfl, rfl, rfl⟩

lemma processAck_new (hE : ∀ s', E s') (hnew : s.conn.AcksNew h) :
    Outcome (processAck env h) s (fun _ s' => s'.conn.sndUna = h.ackNum) E := by
  rw [processAck]
  simp only [outcome_bind, outcome_get, outcome_ite, outcome_modifyConn]
  refine ⟨fun _ => ?_, fun hne => absurd hnew hne⟩
  have hslid : Outcome (flushTx env) { s with conn := s.conn.slide (s.conn.acked h) h.ackNum }
      (fun _ s' => s'.conn.sndUna = h.ackNum) (fun s' => s'.conn.sndUna = h.ackNum) :=
    flushTx_keeps (fun _ _ _ _ _ _ => rfl) rfl
  refine hslid.mono (fun _ s' hs' => ?_) fun s' _ => hE s'
  rw [(TcpConn.Same.persist s'.conn).sndUna]
  exact hs'

def TcpConn.pace (c : TcpConn) : Nat × Nat × Nat := (c.dupAcks, c.cwnd, c.sndCur)

lemma Slot.saturated_eq (hcount : s.conn.dupAcks = 255) (hcwnd : min (s.conn.cwnd + s.conn.mss) (2 ^ 32 - 1) = s.conn.cwnd) :
    { s with conn := { s.conn with dupAcks := 255, cwnd := min (s.conn.cwnd + s.conn.mss) (2 ^ 32 - 1) } } = s := by
  rw [hcwnd, ← hcount]

lemma onDuplicateAck_paces (hE : ∀ s', E s') (hfree : ¬s.conn.Saturated) :
    Outcome (onDuplicateAck env) s (fun _ s' => s'.conn.pace ≠ s.conn.pace) E := by
  rw [onDuplicateAck]
  simp only [outcome_bind, outcome_get, outcome_ite, outcome_pure, outcome_modifyConn]
  by_cases hcount : s.conn.dupAcks = 255
  · -- the count stays, so the congestion window or the send pointer has to move
    have hmax : min (s.conn.dupAcks + 1) 255 = 255 := by omega
    rw [hmax]
    refine ⟨fun h => absurd h (by decide), fun _ => ⟨fun _ => ?_, fun h => absurd h (by decide)⟩⟩
    by_cases hcwnd : min (s.conn.cwnd + s.conn.mss) (2 ^ 32 - 1) = s.conn.cwnd
    · rw [Slot.saturated_eq hcount hcwnd]
      refine (flushTx_something (fun h => hfree ⟨hcount, hcwnd, h⟩) hE).mono (fun _ s' hs' heq => ?_) fun _ h => h
      exact absurd (congrArg (fun p => p.2.2) heq) (Nat.ne_of_gt hs')
    · have hkept : Outcome (flushTx env)
          { s with conn := { s.conn with dupAcks := 255, cwnd := min (s.conn.cwnd + s.conn.mss) (2 ^ 32 - 1) } }
          (fun _ s' => s'.conn.cwnd = min (s.conn.cwnd + s.conn.mss) (2 ^ 32 - 1))
          (fun s' => s'.conn.cwnd = min (s.conn.cwnd + s.conn.mss) (2 ^ 32 - 1)) :=
        flushTx_keeps (fun _ _ _ _ _ _ => rfl) rfl
      refine hkept.mono (fun _ s' hs' heq => hcwnd ?_) fun s' _ => hE s'
      exact hs'.symm.trans (congrArg (fun p => p.2.1) heq)
  · have hmoved : min (s.conn.dupAcks + 1) 255 ≠ s.conn.dupAcks := by omega
    have hkept : ∀ s₁ : Slot, s₁.conn.dupAcks = min (s.conn.dupAcks + 1) 255 →
        Outcome (flushTx env) s₁ (fun _ s' => s'.conn.pace ≠ s.conn.pace) E := by
      intro s₁ hs₁
      have hflush : Outcome (flushTx env) s₁ (fun _ s' => s'.conn.dupAcks = min (s.conn.dupAcks + 1) 255)
          (fun s' => s'.conn.dupAcks = min (s.conn.dupAcks + 1) 255) :=
        flushTx_keeps (fun _ _ _ _ _ _ => rfl) hs₁
      refine hflush.mono (fun _ s' hs' heq => hmoved ?_) fun s' _ => hE s'
      exact hs'.symm.trans (congrArg Prod.fst heq)
    refine ⟨fun _ => hkept _ rfl, fun _ => ⟨fun _ => hkept _ rfl, fun _ heq => hmoved ?_⟩⟩
    exact congrArg Prod.fst heq

lemma processAck_duplicate (hE : ∀ s', E s') (hold : ¬s.conn.AcksNew h) (hdup : s.conn.Duplicate h)
    (hfree : ¬s.conn.Saturated) : Outcome (processAck env h) s (fun _ s' => s'.conn.pace ≠ s.conn.pace) E := by
  rw [processAck]
  simp only [outcome_bind, outcome_get, outcome_ite, outcome_modifyConn]
  refine ⟨fun hnew => absurd hnew hold, fun _ => ⟨fun _ => ?_, fun hne => absurd hdup hne⟩⟩
  refine (onDuplicateAck_paces hE hfree).mono (fun _ s' hs' => ?_) fun _ h => h
  have hsame : s'.conn.Same (s'.conn.armPersist env) := TcpConn.Same.persist s'.conn
  unfold TcpConn.pace at hs' ⊢
  rwa [hsame.dupAcks, hsame.cwnd, hsame.sndCur]

lemma processAck_ignored (hold : ¬s.conn.AcksNew h) (hdup : s.conn.Duplicate h → s.conn.Saturated) :
    Outcome (processAck env h) s (fun _ s' => s'.conn = s.conn.armPersist env) E := by
  rw [processAck]
  simp only [outcome_bind, outcome_get, outcome_ite, outcome_modifyConn]
  refine ⟨fun hnew => absurd hnew hold, fun _ => ⟨fun hd => ?_, fun _ => trivial⟩⟩
  obtain ⟨hcount, hcwnd, hnothing⟩ := hdup hd
  rw [onDuplicateAck]
  simp only [outcome_bind, outcome_get, outcome_ite, outcome_pure, outcome_modifyConn]
  have hmax : min (s.conn.dupAcks + 1) 255 = 255 := by omega
  rw [hmax]
  refine ⟨fun h => absurd h (by decide), fun _ => ⟨fun _ => ?_, fun h => absurd h (by decide)⟩⟩
  rw [Slot.saturated_eq hcount hcwnd]
  exact (flushTx_nothing hnothing).mono (fun _ s' hs' => by rw [hs']) fun _ h => h

def TcpConn.standing (c : TcpConn) : TcpState × Nat := (c.state, c.sndWnd)

lemma processAck_standing :
    Outcome (processAck env h) s (fun _ s' => s'.conn.standing = s.conn.standing)
      (fun s' => s'.conn.standing = s.conn.standing) :=
  (keeps_paces fun hc => by rw [TcpConn.standing, hc.state, hc.sndWnd, TcpConn.standing]).processAck fun _ _ => rfl

lemma receiveData_fin (hfin : h.has tcpFin)
    (hst : s.conn.state ∈ exchanging) :
    Outcome (receiveData env h) s (fun _ s' => s'.conn.state ∉ exchanging) E := by
  have hdeliver : Outcome (deliver env h) s (fun _ s' => s'.conn.state = s.conn.state) E := by
    rw [deliver]
    simp only [outcome_bind, outcome_get, outcome_ite, outcome_pure, outcome_modifyConn, outcome_sendSegment,
      Slot.send_conn]
    exact ⟨fun _ => trivial, fun _ => trivial⟩
  rw [receiveData]
  simp only [outcome_bind, outcome_ite, outcome_modifyConn]
  refine hdeliver.mono (fun _ s₁ hs₁ => ⟨fun _ => ?_, fun hne => absurd hfin hne⟩) fun _ h => h
  rw [onPeerFin]
  simp only [outcome_bind, outcome_modifyConn, outcome_sendSegment, Slot.send_conn]
  have hleft : ∀ c : TcpConn, c.state ∈ exchanging →
      (c.finReceived env).state ∈ [TcpState.closeWait, .closing, .timeWait] := by
    intro c hc
    unfold TcpConn.finReceived
    cases hcs : c.state <;> rw [hcs] at hc <;> simp_all
  have hstate := hleft { s₁.conn with rcvNxt := s₁.conn.rcvNxt + 1 } (by rw [show TcpConn.state _ = _ from hs₁]; exact hst)
  generalize TcpConn.finReceived env { s₁.conn with rcvNxt := s₁.conn.rcvNxt + 1 } = c at hstate ⊢
  unfold TcpConn.finConfirmed
  split_ifs with hfw
  · rw [hfw.1] at hstate
    exact absurd hstate (by decide)
  · intro hin
    revert hstate hin
    cases c.state <;> decide

lemma receiveData_plain (hfin : ¬h.has tcpFin)
    (hwindow : s.conn.window ≤ (h.seq - s.conn.rcvNxt).toNat) :
    Outcome (receiveData env h) s (fun _ s' => s'.conn = s.conn.finConfirmed h) E := by
  rw [receiveData]
  simp only [outcome_bind, outcome_ite, outcome_modifyConn]
  refine (deliver_offPath hwindow).mono (fun _ s₁ hs₁ => ⟨fun h => absurd h hfin, fun _ => ?_⟩) fun _ h => h
  rw [hs₁]

lemma TcpConn.Same.window {c c' : TcpConn} (hsame : c.Same c') (hwindow : c.window ≤ (h.seq - c.rcvNxt).toNat) :
    c'.window ≤ (h.seq - c'.rcvNxt).toNat := by
  unfold TcpConn.window at hwindow ⊢
  rwa [hsame.rx, hsame.rcvNxt]

/-- The handler of a connection that exchanges data ignores an off-path segment without a FIN that
acknowledges nothing, and no other. -/
lemma onData_inert_iff (hst : s.conn.state ∈ exchanging)
    (hwindow : s.conn.window ≤ (h.seq - s.conn.rcvNxt).toNat) :
    Outcome (onData env h) s (fun _ s' => s.conn.Same s'.conn) (fun _ => False) ↔
      ¬h.has tcpFin ∧ (h.has tcpAck → ¬s.conn.AcksNew h ∧ (s.conn.Duplicate h → s.conn.Saturated) ∧
        ¬(s.conn.state = .finWait1 ∧ h.ackNum = s.conn.sndNxt)) := by
  rw [onData]
  simp only [outcome_bind, outcome_ite]
  constructor
  · intro hinert
    have hnofin : ¬h.has tcpFin := by
      intro hfin
      by_cases hack : h.has tcpAck
      · refine (hinert.1 hack).clash (processAck_standing.mono (fun _ s' hs' => hs') fun _ _ => trivial) fun _ s' hs' hstand => ?_
        have hstate : s'.conn.state = s.conn.state := congrArg Prod.fst hstand
        exact hs'.clash (receiveData_fin hfin (by rwa [hstate])) fun _ s'' hsame hout => hout (by rwa [hsame.state])
      · exact (hinert.2 hack).clash (receiveData_fin hfin hst) fun _ s' hsame hout => hout (by rwa [hsame.state])
    refine ⟨hnofin, fun hack => ?_⟩
    have hinert := hinert.1 hack
    have hold : ¬s.conn.AcksNew h := by
      intro hnew
      refine hinert.clash (processAck_new (fun _ => trivial) hnew) fun _ s' hs' huna => ?_
      have hsteady : Steady TcpConn.sndUna := ⟨fun _ _ _ => rfl, fun _ _ _ => rfl⟩
      refine hs'.clash (hsteady.receiveData huna) fun _ s'' hsame hnum => ?_
      have hnone : s.conn.acked h = 0 := by
        rw [TcpConn.acked, ← hnum, hsame.sndUna, BitVec.sub_self]
        rfl
      exact absurd hnew.1 (by omega)
    have hdup : s.conn.Duplicate h → s.conn.Saturated := by
      intro hd
      by_contra hfree
      refine hinert.clash (processAck_duplicate (fun _ => trivial) hold hd hfree) fun _ s' hs' hpace => ?_
      have hsteady : Steady TcpConn.pace := ⟨fun _ _ _ => rfl, fun _ _ _ => rfl⟩
      refine hs'.clash (hsteady.receiveData rfl) fun _ s'' hsame heq => hpace ?_
      rw [← heq, TcpConn.pace, hsame.dupAcks, hsame.cwnd, hsame.sndCur]
      rfl
    refine ⟨hold, hdup, fun hfw => ?_⟩
    refine hinert.clash (processAck_ignored hold hdup) fun _ s' hs' hconn => ?_
    have hsame' : s.conn.Same s'.conn := hconn ▸ TcpConn.Same.persist s.conn
    refine hs'.clash (receiveData_plain hnofin (hsame'.window hwindow)) fun _ s'' hsame hconn' => ?_
    have hleft : s''.conn.state = .finWait2 := by
      rw [hconn', TcpConn.finConfirmed, if_pos ⟨hsame'.state.trans hfw.1, hack, hfw.2.trans hsame'.sndNxt.symm⟩]
    exact absurd (hleft.symm.trans (hsame.state.trans hfw.1)) (by decide)
  · rintro ⟨hnofin, hack⟩
    refine ⟨fun hflag => ?_, fun hflag => ?_⟩
    · obtain ⟨hold, hdup, hfw⟩ := hack hflag
      refine (processAck_ignored hold hdup).mono (fun _ s' hconn => ?_) fun _ h => h
      have hsame' : s.conn.Same s'.conn := hconn ▸ TcpConn.Same.persist s.conn
      refine (receiveData_plain hnofin (hsame'.window hwindow)).mono (fun _ s'' hconn' => ?_) fun _ h => h
      have hstay : s'.conn.finConfirmed h = s'.conn := by
        rw [TcpConn.finConfirmed, if_neg]
        rintro ⟨hstate, -, hnum⟩
        exact hfw ⟨hsame'.state.symm.trans hstate, hnum.trans hsame'.sndNxt⟩
      rw [hconn', hstay]
      exact hsame'
    · refine (receiveData_plain hnofin hwindow).mono (fun _ s'' hconn' => ?_) fun _ h => h
      have hstay : s.conn.finConfirmed h = s.conn := by
        rw [TcpConn.finConfirmed, if_neg]
        rintro ⟨-, hflag', -⟩
        exact hflag hflag'
      rw [hconn', hstay]
      exact ⟨rfl, rfl, rfl, rfl, rfl, rfl, rfl, rfl, rfl, rfl, rfl, rfl⟩

lemma onSegment_sndWnd (hrst : ¬h.has tcpRst) :
    Outcome (onSegment env h) s (fun _ s' => s'.conn.sndWnd = h.wnd) fun _ => True := by
  have hsteady : Steady TcpConn.sndWnd := ⟨fun _ _ _ => rfl, fun _ _ _ => rfl⟩
  have hdata : ∀ s₁ : Slot, s₁.conn.sndWnd = h.wnd →
      Outcome (onData env h) s₁ (fun _ s' => s'.conn.sndWnd = h.wnd) fun _ => True := by
    intro s₁ hs₁
    rw [onData]
    simp only [outcome_bind, outcome_ite]
    refine ⟨fun _ => processAck_standing.mono (fun _ s' hs' => ?_) fun _ _ => trivial, fun _ => hsteady.receiveData hs₁⟩
    exact hsteady.receiveData ((congrArg Prod.snd hs').trans hs₁)
  rw [onSegment, outcome_ite]
  refine ⟨fun h => absurd h hrst, fun _ => ?_⟩
  simp only [outcome_bind, outcome_modifyConn, outcome_get]
  split
  case h_1 =>
    rw [onSynRcvd]
    simp only [outcome_bind, outcome_get, outcome_ite, outcome_pure, outcome_modifyConn]
    exact ⟨fun _ => hsteady.deliver rfl, fun _ => trivial⟩
  case h_2 =>
    rw [onSynSent]
    simp only [outcome_bind, outcome_ite, outcome_pure, outcome_modifyConn, outcome_stop, outcome_sendSegment,
      Slot.send_conn]
    exact ⟨fun _ => ⟨fun _ => trivial, fun _ => trivial⟩, fun _ => trivial⟩
  case h_3 => exact hdata _ rfl
  case h_4 => exact hdata _ rfl
  case h_5 => exact hdata _ rfl
  case h_6 =>
    rw [onLastAck, outcome_modifyConn]
    split_ifs <;> rfl
  case h_7 => rfl

lemma TcpConn.Same.refl (c : TcpConn) : c.Same c := ⟨rfl, rfl, rfl, rfl, rfl, rfl, rfl, rfl, rfl, rfl, rfl, rfl⟩

lemma onSegment_inert_iff (hlive : s.conn.state.Live) (hoff : s.conn.OffPath h) :
    Outcome (onSegment env h) s (fun _ s' => s.conn.Same s'.conn) (fun _ => False) ↔ s.conn.Ignores h := by
  by_cases hrst : h.has tcpRst
  · refine iff_of_false (fun hinert => ?_) fun hign => hign.1 hrst
    rw [onSegment, outcome_ite] at hinert
    have hclosed : TcpState.closed = s.conn.state := (hinert.1 hrst).state
    exact hlive (by rw [← hclosed]; decide)
  by_cases hwnd : h.wnd = s.conn.sndWnd
  · -- the window does not change, so the handler works on the connection as it is
    have hsame : { s with conn := { s.conn with sndWnd := h.wnd } } = s := by rw [hwnd]
    have hnotSent : s.conn.state ≠ .synSent → s.conn.window ≤ (h.seq - s.conn.rcvNxt).toNat := by
      intro hne
      rwa [TcpConn.OffPath, if_neg hne] at hoff
    have hdata : s.conn.state ∈ exchanging →
        (Outcome (onData env h) s (fun _ s' => s.conn.Same s'.conn) (fun _ => False) ↔
          ¬h.has tcpFin ∧ (h.has tcpAck → ¬s.conn.AcksNew h ∧ (s.conn.Duplicate h → s.conn.Saturated) ∧
            ¬(s.conn.state = .finWait1 ∧ h.ackNum = s.conn.sndNxt))) := by
      intro hst
      refine onData_inert_iff hst (hnotSent fun hsyn => ?_)
      rw [hsyn] at hst
      exact absurd hst (by decide)
    rw [onSegment, outcome_ite]
    simp only [outcome_bind, outcome_modifyConn, outcome_get]
    rw [hsame, TcpConn.Ignores]
    simp only [hrst, hwnd, not_false_eq_true, true_and, false_implies, true_implies]
    cases hst : s.conn.state with
    | synSent =>
      dsimp only
      rw [onSynSent]
      simp only [outcome_bind, outcome_ite, outcome_pure, outcome_modifyConn, outcome_stop, outcome_sendSegment,
        Slot.send_conn]
      refine ⟨fun hinert hflags => ?_, fun hflags => ⟨fun h => absurd h hflags, fun _ => TcpConn.Same.refl _⟩⟩
      by_cases hdoff : h.doff < 20
      · exact (hinert.1 hflags).1 hdoff
      · have hstate : TcpState.established = s.conn.state := ((hinert.1 hflags).2 hdoff).state
        exact absurd (hstate.trans hst) (by decide)
    | synRcvd =>
      dsimp only
      rw [onSynRcvd]
      simp only [outcome_bind, outcome_get, outcome_ite, outcome_pure, outcome_modifyConn]
      refine ⟨fun hinert hflags => ?_, fun hflags => ⟨fun h => absurd h hflags, fun _ => TcpConn.Same.refl _⟩⟩
      have hdeliver : Outcome (deliver env h) { s with conn := { s.conn with
          sndUna := h.ackNum, state := .established, retxCount := 0, retxBackoff := 1 } }
          (fun _ s' => s'.conn = { s.conn with
            sndUna := h.ackNum, state := .established, retxCount := 0, retxBackoff := 1 }) fun _ => True :=
        deliver_offPath (hnotSent (by rw [hst]; decide))
      refine (hinert.1 hflags).clash hdeliver fun _ s' hsame' hconn => ?_
      have hstate : TcpState.established = s.conn.state := by
        have h := hsame'.state
        rwa [hconn] at h
      exact absurd (hstate.trans hst) (by decide)
    | established | finWait1 | finWait2 =>
      rw [hst] at hdata
      exact hdata (by decide)
    | lastAck =>
      dsimp only
      rw [onLastAck, outcome_modifyConn]
      split_ifs with hflags
      · refine iff_of_false (fun hinert => ?_) fun hne => hne hflags
        have hstate : TcpState.free = s.conn.state := hinert.state
        exact absurd (hstate.trans hst) (by decide)
      · exact iff_of_true (TcpConn.Same.refl _) hflags
    | closing | closeWait | timeWait => exact iff_of_true (TcpConn.Same.refl _) trivial
    | free | listen | closed =>
      rw [hst] at hlive
      exact absurd (by decide) hlive
  · refine iff_of_false (fun hinert => ?_) fun hign => hwnd hign.2.1
    exact hinert.clash (onSegment_sndWnd hrst) fun _ s' hsame hnew => hwnd (hnew.symm.trans hsame.sndWnd)

lemma inert_iff_onSegment {t : Table} {srcIp : IpAddr} {payload : Bytes} {id : ConnId} (hlen : 20 ≤ payload.length)
    (hfound : findConn t srcIp (parseHeader payload) = some id) :
    Inert env srcIp payload t id ↔
      Outcome (onSegment env (parseHeader payload)) (t.slots id)
        (fun _ s' => (t.slots id).conn.Same s'.conn) (fun _ => False) := by
  rw [Inert, tcpHandleSegment]
  simp only [outcome_bind, outcome_get, outcome_ite, outcome_pure]
  rw [hfound]
  simp only [onSlot, outcome_zoom, Function.update_self]
  exact ⟨fun h => h.2 (by omega), fun h => ⟨fun hshort => absurd hlen (by omega), fun _ => h⟩⟩

end Ignoring

instance (st : TcpState) : Decidable st.Live :=
  inferInstanceAs (Decidable (st ∉ [TcpState.free, .listen, .closed]))

instance (c : TcpConn) (h : Header) : Decidable (c.OffPath h) :=
  inferInstanceAs (Decidable (if c.state = .synSent then h.ackNum ≠ c.sndNxt else c.window ≤ (h.seq - c.rcvNxt).toNat))

def justAccepted : Table :=
  (TransitionSystem.run step boot
    [(⟨0, 1000, fun _ => false, ⟨7, []⟩⟩, .connect (.v4 1) 80 true),
     (⟨0, 1000, fun _ => false, ⟨7, []⟩⟩,
      .segment (.v4 1) [0, 80, 192, 0, 0, 0, 0, 7, 0, 0, 3, 233, 0x50, 0x12, 0, 9, 0, 0, 0, 0])]).table

def blindReset : Bytes := [0, 80, 192, 0, 0x70, 0, 0, 0, 0, 0, 0, 0, 0x50, 0x04, 0, 9, 0, 0, 0, 0]

theorem blind_reset_not_inert :
    (justAccepted.slots 0).conn.state = .established ∧ (justAccepted.slots 0).conn.OffPath (parseHeader blindReset) ∧
      ¬Inert ⟨0, 0, fun _ => false, ⟨7, []⟩⟩ (.v4 1) blindReset justAccepted 0 := by
  have hlive : (justAccepted.slots 0).conn.state.Live := by decide +kernel
  have hoff : (justAccepted.slots 0).conn.OffPath (parseHeader blindReset) := by decide +kernel
  refine ⟨by decide +kernel, hoff, ?_⟩
  rw [inert_iff_onSegment (by decide) (by decide +kernel), onSegment_inert_iff hlive hoff]
  exact fun hign => hign.1 (by decide)

/-- Which segments outside of the receive window leave the connection that they name as it was. -/
theorem off_path_inert_iff {env : Env} {t : Table} {srcIp : IpAddr} {payload : Bytes} {id : ConnId}
    (hlen : 20 ≤ payload.length) (hfound : findConn t srcIp (parseHeader payload) = some id)
    (hlive : (t.slots id).conn.state.Live) (hoff : (t.slots id).conn.OffPath (parseHeader payload)) :
    Inert env srcIp payload t id ↔ (t.slots id).conn.Ignores (parseHeader payload) := by
  rw [inert_iff_onSegment hlen hfound, onSegment_inert_iff hlive hoff]

def strayData : Bytes := [0, 80, 192, 0, 0x70, 0, 0, 0, 0, 0, 0, 0, 0x50, 0, 0, 9, 0, 0, 0, 0, 1]

theorem off_path_inert_iff_stray_data :
    (justAccepted.slots 0).conn.OffPath (parseHeader strayData) ∧
      Inert ⟨0, 0, fun _ => false, ⟨7, []⟩⟩ (.v4 1) strayData justAccepted 0 := by
  have hlive : (justAccepted.slots 0).conn.state.Live := by decide +kernel
  have hoff : (justAccepted.slots 0).conn.OffPath (parseHeader strayData) := by decide +kernel
  have hestablished : (justAccepted.slots 0).conn.state = .established := by decide +kernel
  refine ⟨hoff, (off_path_inert_iff (by decide) (by decide +kernel) hlive hoff).mpr ⟨by decide, by decide +kernel, ?_⟩⟩
  rw [hestablished]
  exact ⟨by decide, fun hack => absurd hack (by decide)⟩

end Aeglos.Tcp
