import Aeglos.Proofs.TcpSteps

/-!
# The receiving side of a TCP connection

The bytes that a connection has delivered are those that `tcp_read` returned and those in its
receive ring.
-/

namespace Aeglos.Tcp

open Effects List

structure Receiver where
  state : TcpState
  rcvNxt : BitVec 32
  rx : Option RingBuf
  inbound : Inbound

def Slot.receiver (s : Slot) : Receiver := ⟨s.conn.state, s.conn.rcvNxt, s.conn.rx, s.inbound⟩

def Receiver.delivered (v : Receiver) : Bytes := v.inbound.read ++ (v.rx.map fun r => r.peekFrom 0 r.len).getD []

/-- The sequence number that the peer's byte `k` has. -/
def Peer.seqOf (p : Peer) (k : Nat) : BitVec 32 := p.irs + 1 + BitVec.ofNat 32 k

/-- The number of a segment's first payload byte: a SYN counts as one byte before it. -/
def Header.first (h : Header) : BitVec 32 := if h.has tcpSyn then h.seq + 1 else h.seq

/-- A SYN has the initial sequence number, the payload is cut from the stream at its sequence number, and a
FIN follows the last byte. -/
structure Peer.Genuine (p : Peer) (h : Header) : Prop where
  syn : h.has tcpSyn → h.seq = p.irs
  data : h.data ≠ [] → ∃ k, k + h.data.length ≤ p.bytes.length ∧ h.first = p.seqOf k ∧
    h.data = (p.bytes.drop k).take h.data.length
  fin : h.has tcpFin → h.first + BitVec.ofNat 32 h.data.length = p.seqOf p.bytes.length

def TcpState.Receiving (st : TcpState) : Prop := st ∈ [TcpState.synRcvd, .established, .finWait1, .finWait2]

def TcpState.Finished (st : TcpState) : Prop := st ∈ [TcpState.closeWait, .closing, .timeWait]

def Receiver.Complete (v : Receiver) : Prop :=
  v.delivered = v.inbound.peer.bytes ∧ v.rcvNxt = v.inbound.peer.seqOf v.inbound.peer.bytes.length + 1

/-- What the receiving side of a slot satisfies; `ordered` says whether FINs arrive in order. -/
structure Receiver.Follows (ordered : Prop) (v : Receiver) : Prop where
  short : v.inbound.peer.bytes.length < 2 ^ 31
  ring : ∀ r, v.rx = some r → ∃ q, r.Holds q
  delivers : v.delivered <+: v.inbound.peer.bytes
  next : v.state.Receiving → v.rcvNxt = v.inbound.peer.seqOf v.delivered.length
  fresh : v.state = .synSent → v.delivered = []
  complete : ordered → v.state.Finished → v.Complete

section Parts

variable {ordered : Prop} {v : Receiver} {r : RingBuf} {q : Bytes}

lemma Receiver.delivered_some (hrx : v.rx = some r) (hq : r.Holds q) : v.delivered = v.inbound.read ++ q := by
  rw [Receiver.delivered, hrx]
  exact congrArg _ hq.peekAll

lemma Receiver.delivered_none (hrx : v.rx = none) : v.delivered = v.inbound.read := by
  rw [Receiver.delivered, hrx]
  exact append_nil _

lemma Receiver.Follows.read_initial (h : v.Follows ordered) : v.inbound.read <+: v.inbound.peer.bytes :=
  (prefix_append _ _).trans h.delivers

lemma Peer.seqOf_inj {p : Peer} {j k : Nat} (hj : j < 2 ^ 32) (hk : k < 2 ^ 32) (h : p.seqOf j = p.seqOf k) : j = k := by
  unfold Peer.seqOf at h
  have hofNat : BitVec.ofNat 32 j = BitVec.ofNat 32 k := BitVec.add_right_inj _ |>.mp h
  have htoNat := congrArg BitVec.toNat hofNat
  rwa [BitVec.toNat_ofNat, BitVec.toNat_ofNat, Nat.mod_eq_of_lt hj, Nat.mod_eq_of_lt hk] at htoNat

lemma Receiver.Follows.released (h : v.Follows ordered) {st : TcpState} {next : BitVec 32}
    (hst : st ∈ [TcpState.free, .listen, .closed]) :
    Receiver.Follows ordered { v with state := st, rcvNxt := next, rx := none } where
  short := h.short
  ring r hr := absurd hr (by simp)
  delivers := by
    rw [Receiver.delivered_none rfl]
    exact h.read_initial
  next hrec := by
    exfalso
    revert hst hrec
    cases st <;> simp [TcpState.Receiving]
  fresh hst' := absurd hst' (by revert hst; cases st <;> simp)
  complete _ hfin := by
    exfalso
    revert hst hfin
    cases st <;> simp [TcpState.Finished]

lemma Receiver.Follows.restate (h : v.Follows ordered) {st : TcpState}
    (hrec : st.Receiving → v.state.Receiving) (hsyn : st ≠ .synSent) (hfin : ¬st.Finished) :
    Receiver.Follows ordered { v with state := st } where
  short := h.short
  ring := h.ring
  delivers := h.delivers
  next hst := h.next (hrec hst)
  fresh hst := absurd hst hsyn
  complete _ hst := absurd hst hfin

lemma Receiver.Follows.finish (h : v.Follows ordered) {st : TcpState} (hst : st.Finished)
    (hcomplete : ordered → Receiver.Complete { v with rcvNxt := v.rcvNxt + 1 }) :
    Receiver.Follows ordered { v with rcvNxt := v.rcvNxt + 1, state := st } where
  short := h.short
  ring := h.ring
  delivers := h.delivers
  next hrec := by
    exfalso
    revert hst hrec
    cases st <;> simp [TcpState.Receiving, TcpState.Finished]
  fresh hsyn := by
    subst hsyn
    exact absurd hst (by simp [TcpState.Finished])
  complete hordered _ := hcomplete hordered

lemma Receiver.Follows.read (h : v.Follows ordered) (hrx : v.rx = some r) (n : Nat) :
    Receiver.Follows ordered { v with
      rx := some (r.pop n).2, inbound := { v.inbound with read := v.inbound.read ++ (r.pop n).1 } } := by
  obtain ⟨q, hq⟩ := h.ring r hrx
  have hsame : Receiver.delivered { v with
      rx := some (r.pop n).2, inbound := { v.inbound with read := v.inbound.read ++ (r.pop n).1 } } = v.delivered := by
    rw [Receiver.delivered_some hrx hq, Receiver.delivered_some rfl (hq.discard n)]
    change v.inbound.read ++ r.peekFrom 0 n ++ q.drop n = _
    rw [hq.peekFrom, drop_zero, append_assoc, take_append_drop]
  refine ⟨h.short, ?_, ?_, ?_, ?_, ?_⟩
  · rintro r' hr'
    obtain rfl : (r.pop n).2 = r' := Option.some.inj hr'
    exact ⟨_, hq.discard n⟩
  · rw [hsame]
    exact h.delivers
  · rw [hsame]
    exact h.next
  · rw [hsame]
    exact h.fresh
  · unfold Receiver.Complete
    rw [hsame]
    exact h.complete

lemma Receiver.Follows.push (h : v.Follows ordered) (hrec : v.state.Receiving) (hrx : v.rx = some r) {data : Bytes}
    {k : Nat} (hk : k + data.length ≤ v.inbound.peer.bytes.length) (hnext : v.rcvNxt = v.inbound.peer.seqOf k)
    (hdata : data = (v.inbound.peer.bytes.drop k).take data.length) :
    Receiver.Follows ordered { v with
      rx := some (r.push data).2, rcvNxt := v.rcvNxt + BitVec.ofNat 32 (r.push data).1 } := by
  obtain ⟨q, hq⟩ := h.ring r hrx
  have hshort := h.short
  obtain ⟨rest, hrest⟩ := h.delivers
  have hlen : v.delivered.length ≤ v.inbound.peer.bytes.length := h.delivers.length_le
  have hpos : v.delivered.length = k :=
    Peer.seqOf_inj (by omega) (by omega) ((h.next hrec).symm.trans hnext)
  have hn : (r.push data).1 ≤ data.length := Nat.min_le_left _ _
  have hmore : Receiver.delivered { v with
      rx := some (r.push data).2, rcvNxt := v.rcvNxt + BitVec.ofNat 32 (r.push data).1 } =
      v.delivered ++ data.take (r.push data).1 := by
    rw [Receiver.delivered_some hrx hq, Receiver.delivered_some rfl (hq.push data), append_assoc]
  have htaken : v.delivered ++ data.take (r.push data).1 = v.inbound.peer.bytes.take (k + (r.push data).1) := by
    have hfirst : v.inbound.peer.bytes.take k = v.delivered := by
      rw [← hrest, ← hpos, take_left]
    rw [take_add, hfirst, hdata, take_take, ← hdata, Nat.min_eq_left hn]
  refine ⟨h.short, ?_, ?_, ?_, ?_, ?_⟩
  · rintro r' hr'
    obtain rfl : (r.push data).2 = r' := Option.some.inj hr'
    exact ⟨_, hq.push data⟩
  · rw [hmore, htaken]
    exact take_prefix _ _
  · intro _
    rw [hmore, length_append, length_take, Nat.min_eq_left hn, hpos]
    change v.rcvNxt + _ = _
    rw [hnext, Peer.seqOf, Peer.seqOf, BitVec.ofNat_add, ← BitVec.add_assoc]
  · intro hsyn
    exact absurd hrec (by rw [show v.state = .synSent from hsyn]; simp [TcpState.Receiving])
  · intro _ hfin
    exfalso
    revert hrec hfin
    change v.state.Receiving → v.state.Finished → False
    cases v.state <;> simp [TcpState.Receiving, TcpState.Finished]

end Parts

section Calls

variable {ordered : Prop} {env : Env} {s : Slot} {h : Header} {flags : UInt8}

abbrev Slot.Follows (ordered : Prop) (s : Slot) : Prop := s.receiver.Follows ordered

@[simp] lemma Slot.send_receiver {data : Bytes} : (s.send env flags data).receiver = s.receiver := by
  unfold Slot.send
  split_ifs <;> rfl

lemma Slot.receiver_after_send {data : Bytes} (c : TcpConn) :
    Slot.receiver { s.send env flags data with conn := c } = Slot.receiver { s with conn := c } := by
  unfold Slot.send
  split_ifs <;> rfl

lemma spares_paces : Paces (fun s s' => s'.receiver = s.receiver) (fun s s' => s'.receiver = s.receiver) where
  refl _ := rfl
  trans h h' := h'.trans h
  weaken := id
  after h h' := h'.trans h
  pace hc := by rw [Slot.receiver, hc.state, hc.rcvNxt, hc.rx]; rfl
  ack _ _ := Slot.send_receiver

lemma Slot.Follows.send {data : Bytes} (hs : s.Follows ordered) :
    (s.send env flags data).Follows ordered := by rwa [Slot.Follows, Slot.send_receiver]

lemma follows_paces : Paces (Keeping (Slot.Follows ordered) (Slot.Follows ordered))
    (Keeping (Slot.Follows ordered) (Slot.Follows ordered)) :=
  keeping_paces id (fun hc hs => by rwa [Slot.Follows, spares_paces.pace hc]) fun _ _ => Slot.Follows.send

def Receiver.take (h : Header) (v : Receiver) : Receiver :=
  if h.data ≠ [] ∧ h.seq = v.rcvNxt then
    { v with
      rx := (v.rx.map fun rx => rx.push h.data).map Prod.snd
      rcvNxt := v.rcvNxt + BitVec.ofNat 32 (((v.rx.map fun rx => rx.push h.data).map Prod.fst).getD 0) }
  else v

lemma Receiver.take_state (v : Receiver) : (v.take h).state = v.state ∧ (v.take h).inbound = v.inbound := by
  unfold Receiver.take
  split_ifs <;> exact ⟨rfl, rfl⟩

lemma Receiver.Follows.take {v : Receiver} (hv : v.Follows ordered) (hrec : v.state.Receiving)
    (hgenuine : v.inbound.peer.Genuine h) : (v.take h).Follows ordered := by
  unfold Receiver.take
  split_ifs with htake
  · obtain ⟨hdata, hseq⟩ := htake
    cases hrx : v.rx with
    | none =>
      have hsame : { v with rx := none, rcvNxt := v.rcvNxt + BitVec.ofNat 32 0 } = v := by
        rw [show v.rcvNxt + BitVec.ofNat 32 0 = v.rcvNxt by simp, ← hrx]
      exact hsame.symm ▸ hv
    | some r =>
      obtain ⟨k, hk, hfirst, hslice⟩ := hgenuine.data hdata
      have hshort := hv.short
      have hle : v.delivered.length ≤ v.inbound.peer.bytes.length := hv.delivers.length_le
      refine hv.push hrec hrx hk ?_ hslice
      by_cases hsyn : h.has tcpSyn
      · -- a SYN has a number before all of the stream
        exfalso
        have hnext := hv.next hrec
        rw [← hseq, hgenuine.syn hsyn, Peer.seqOf] at hnext
        have hzero : (BitVec.ofNat 32 (1 + v.delivered.length)).toNat = 0 := by
          have : BitVec.ofNat 32 (1 + v.delivered.length) = 0 := by
            rw [BitVec.ofNat_add]
            bv_omega
          rw [this]
          rfl
        rw [BitVec.toNat_ofNat, Nat.mod_eq_of_lt (by omega)] at hzero
        omega
      · rw [← hseq, ← hfirst, Header.first, if_neg hsyn]
  · exact hv

lemma outcome_deliver {E : Slot → Prop} :
    Outcome (deliver env h) s (fun _ s' => s'.receiver = s.receiver.take h) E := by
  rw [deliver]
  simp only [outcome_bind, outcome_get, outcome_ite, outcome_pure, outcome_modifyConn, outcome_sendSegment,
    Slot.send_receiver]
  refine ⟨fun htake => ?_, fun htake => ?_⟩
  · exact (if_pos htake).symm
  · exact (if_neg htake).symm

def TcpConn.taken (c : TcpConn) (h : Header) : Nat :=
  if h.data ≠ [] ∧ h.seq = c.rcvNxt then (c.rx.map fun rx => (rx.push h.data).1).getD 0 else 0

lemma Slot.take_rcvNxt : (s.receiver.take h).rcvNxt = s.conn.rcvNxt + BitVec.ofNat 32 (s.conn.taken h) := by
  unfold Receiver.take TcpConn.taken Slot.receiver
  dsimp only
  split_ifs
  · cases s.conn.rx with
    | none => rfl
    | some rx => rfl
  · simp

def TcpConn.FinInOrder (c : TcpConn) (h : Header) : Prop :=
  h.has tcpFin → c.state ∈ [TcpState.established, .finWait1, .finWait2] →
    h.first + BitVec.ofNat 32 h.data.length = c.rcvNxt + BitVec.ofNat 32 (c.taken h)

instance (c : TcpConn) (h : Header) : Decidable (c.FinInOrder h) :=
  inferInstanceAs (Decidable (h.has tcpFin → c.state ∈ [TcpState.established, .finWait1, .finWait2] →
    h.first + BitVec.ofNat 32 h.data.length = c.rcvNxt + BitVec.ofNat 32 (c.taken h)))

lemma Receiver.Follows.complete_of_fin {v : Receiver} (hv : v.Follows ordered) (hrec : v.state.Receiving)
    (hgenuine : v.inbound.peer.Genuine h) (hfin : h.has tcpFin)
    (horder : h.first + BitVec.ofNat 32 h.data.length = v.rcvNxt) :
    Receiver.Complete { v with rcvNxt := v.rcvNxt + 1 } := by
  have hshort := hv.short
  have hle : v.delivered.length ≤ v.inbound.peer.bytes.length := hv.delivers.length_le
  have hend : v.rcvNxt = v.inbound.peer.seqOf v.inbound.peer.bytes.length := horder.symm.trans (hgenuine.fin hfin)
  have hlen : v.delivered.length = v.inbound.peer.bytes.length :=
    Peer.seqOf_inj (by omega) (by omega) ((hv.next hrec).symm.trans hend)
  exact ⟨hv.delivers.eq_of_length hlen, congrArg (· + 1) hend⟩

lemma Slot.Follows.release (hs : s.Follows ordered) {st : TcpState} (hst : st ∈ [TcpState.free, .listen, .closed]) :
    Slot.Follows ordered { s with conn := s.conn.release st } := Receiver.Follows.released hs hst

lemma Slot.Follows.tcpRead (hs : s.Follows ordered) (n : Nat) :
    Outcome (tcpRead n) s (fun _ s' => s'.Follows ordered) (Slot.Follows ordered) := by
  rw [Tcp.tcpRead]
  simp only [outcome_bind, outcome_get]
  cases hrx : s.conn.rx with
  | none => exact hs
  | some rx => exact Receiver.Follows.read hs hrx n

lemma Slot.Follows.tcpClose (hs : s.Follows ordered) :
    Outcome (tcpClose env) s (fun _ s' => s'.Follows ordered) (Slot.Follows ordered) := by
  have hfin : ∀ st, Receiver.Follows ordered { s.receiver with state := st } →
      Outcome (sendFin env st) s (fun _ s' => s'.Follows ordered) (Slot.Follows ordered) := by
    intro st hst
    rw [sendFin]
    simp only [outcome_bind, outcome_sendSegment, outcome_modifyConn, Slot.send_conn]
    rwa [Slot.Follows, Slot.receiver_after_send]
  rw [Tcp.tcpClose]
  simp only [outcome_bind, outcome_get]
  split
  case h_1 hst =>
    refine hfin _ (Receiver.Follows.restate hs (fun _ => ?_) (by decide) (by simp [TcpState.Finished]))
    rw [show s.receiver.state = .established from hst]
    simp [TcpState.Receiving]
  case h_2 hst =>
    exact hfin _ (Receiver.Follows.restate hs (fun h => absurd h (by simp [TcpState.Receiving])) (by decide)
      (by simp [TcpState.Finished]))
  case h_3 => exact hs.release (by decide)

lemma openSlot_follows {c : TcpConn} (hshort : env.peer.bytes.length < 2 ^ 31)
    (hstate : c.state = .synSent ∨ c.state = .synRcvd ∧ c.rcvNxt = env.peer.seqOf 0) (hrx : c.rx = some RingBuf.new) :
    Outcome (openSlot env c flags) s (fun _ s' => s'.Follows ordered) (Slot.Follows ordered) := by
  rw [openSlot]
  simp only [outcome_bind, outcome_set, outcome_sendSegment, outcome_modifyConn, Slot.send_conn]
  rw [Slot.Follows, Slot.receiver_after_send]
  have hnothing : Receiver.delivered ⟨c.state, c.rcvNxt, c.rx, ⟨env.peer, []⟩⟩ = [] := by
    rw [Receiver.delivered_some hrx RingBuf.new_holds, append_nil]
  change Receiver.Follows ordered ⟨c.state, c.rcvNxt, c.rx, ⟨env.peer, []⟩⟩
  refine ⟨hshort, ?_, ?_, ?_, fun _ => hnothing, ?_⟩
  · rintro r hr
    obtain rfl : RingBuf.new = r := Option.some.inj (hrx.symm.trans hr)
    exact ⟨[], RingBuf.new_holds⟩
  · rw [hnothing]
    exact nil_prefix
  · intro hrec
    rcases hstate with hst | ⟨-, hnext⟩
    · exact absurd hrec (by rw [show Receiver.state _ = _ from hst]; simp [TcpState.Receiving])
    · rw [hnothing]
      exact hnext
  · intro _ hfin
    rcases hstate with hst | ⟨hst, -⟩ <;>
      exact absurd hfin (by rw [show Receiver.state _ = _ from hst]; simp [TcpState.Finished])

lemma Slot.Follows.onPeerFin (hs : s.Follows ordered) (hst : s.conn.state ∈ exchanging)
    (hcomplete : ordered → Receiver.Complete { s.receiver with rcvNxt := s.receiver.rcvNxt + 1 }) :
    Outcome (onPeerFin env) s (fun _ s' => s'.Follows ordered) (Slot.Follows ordered) := by
  rw [Tcp.onPeerFin]
  simp only [outcome_bind, outcome_modifyConn, outcome_sendSegment, Slot.send_conn]
  rw [Slot.Follows, Slot.receiver_after_send]
  unfold TcpConn.finReceived
  split
  case h_1 => exact Receiver.Follows.finish hs (by simp [TcpState.Finished]) hcomplete
  case h_2 => exact Receiver.Follows.finish hs (by simp [TcpState.Finished]) hcomplete
  case h_3 => exact Receiver.Follows.finish hs (by simp [TcpState.Finished]) hcomplete
  case h_4 hne₁ hne₂ hne₃ =>
    exfalso
    simp only [mem_cons, not_mem_nil, or_false] at hst
    rcases hst with h | h | h
    · exact hne₁ h
    · exact hne₂ h
    · exact hne₃ h

lemma Slot.Follows.finConfirmed (hs : s.Follows ordered) : Slot.Follows ordered { s with conn := s.conn.finConfirmed h } := by
  unfold TcpConn.finConfirmed
  split_ifs with hfin
  · change Receiver.Follows ordered { s.receiver with state := .finWait2 }
    refine Receiver.Follows.restate hs (fun _ => ?_) (by decide) (by simp [TcpState.Finished])
    rw [show s.receiver.state = .finWait1 from hfin.1]
    simp [TcpState.Receiving]
  · exact hs

lemma Slot.Follows.receiveData (hs : s.Follows ordered)
    (hst : s.conn.state ∈ exchanging) (hgenuine : s.inbound.peer.Genuine h)
    (horder : ordered → s.conn.FinInOrder h) :
    Outcome (receiveData env h) s (fun _ s' => s'.Follows ordered) (Slot.Follows ordered) := by
  have hrec : s.receiver.state.Receiving := by
    change s.conn.state.Receiving
    simp only [mem_cons, not_mem_nil, or_false] at hst
    rcases hst with h | h | h <;> rw [h] <;> simp [TcpState.Receiving]
  rw [Tcp.receiveData]
  simp only [outcome_bind, outcome_ite, outcome_modifyConn]
  refine outcome_deliver.mono (fun _ s₁ hs₁ => ?_) fun _ h => h
  have hs₁' : s₁.Follows ordered := by
    rw [Slot.Follows, hs₁]
    exact Receiver.Follows.take hs hrec hgenuine
  refine ⟨fun hfin => ?_, fun _ => hs₁'.finConfirmed⟩
  have hstate : s₁.conn.state = s.conn.state := by
    change s₁.receiver.state = _
    rw [hs₁]
    exact (s.receiver.take_state).1
  refine Outcome.mono (hs₁'.onPeerFin (by rwa [hstate]) fun hordered => ?_) (fun _ _ hs₂ => hs₂.finConfirmed)
    fun _ h => h
  refine Receiver.Follows.complete_of_fin hs₁' ?_ ?_ hfin ?_
  · rw [hs₁, (s.receiver.take_state).1]
    exact hrec
  · rw [hs₁, (s.receiver.take_state).2]
    exact hgenuine
  · rw [hs₁, Slot.take_rcvNxt]
    exact horder hordered hfin hst

lemma Slot.Follows.onData (hs : s.Follows ordered) (hst : s.conn.state ∈ exchanging)
    (hgenuine : s.inbound.peer.Genuine h) (horder : ordered → s.conn.FinInOrder h) :
    Outcome (onData env h) s (fun _ s' => s'.Follows ordered) (Slot.Follows ordered) := by
  rw [Tcp.onData]
  simp only [outcome_bind, outcome_ite]
  refine ⟨fun _ => ?_, fun _ => hs.receiveData hst hgenuine horder⟩
  refine Outcome.mono (spares_paces.processAck fun _ _ => rfl) (fun _ s' hs' => ?_) fun s' hs' => ?_
  · have hstate : s'.conn.state = s.conn.state := congrArg Receiver.state hs'
    have hnext : s'.conn.rcvNxt = s.conn.rcvNxt := congrArg Receiver.rcvNxt hs'
    have hrx : s'.conn.rx = s.conn.rx := congrArg Receiver.rx hs'
    have hinbound : s'.inbound = s.inbound := congrArg Receiver.inbound hs'
    have hfollows : s'.Follows ordered := by
      rw [Slot.Follows, hs']
      exact hs
    refine hfollows.receiveData (by rwa [hstate]) (by rwa [hinbound]) fun hordered => ?_
    have hfin := horder hordered
    unfold TcpConn.FinInOrder TcpConn.taken at hfin ⊢
    rwa [hstate, hnext, hrx]
  · rw [Slot.Follows, hs']
    exact hs

lemma Slot.Follows.onSynRcvd (hs : s.Follows ordered) (hst : s.conn.state = .synRcvd)
    (hgenuine : s.inbound.peer.Genuine h) :
    Outcome (onSynRcvd env h) s (fun _ s' => s'.Follows ordered) (Slot.Follows ordered) := by
  rw [Tcp.onSynRcvd]
  simp only [outcome_bind, outcome_get, outcome_ite, outcome_pure, outcome_modifyConn]
  refine ⟨fun _ => ?_, fun _ => hs⟩
  have hestablished : Receiver.Follows ordered { s.receiver with state := .established } := by
    refine Receiver.Follows.restate hs (fun _ => ?_) (by decide) (by simp [TcpState.Finished])
    rw [show s.receiver.state = .synRcvd from hst]
    simp [TcpState.Receiving]
  refine outcome_deliver.mono (fun _ s' hs' => ?_) fun _ h => h
  rw [Slot.Follows, hs']
  exact hestablished.take (by simp [TcpState.Receiving]) hgenuine

lemma Receiver.Follows.start {v : Receiver} (hv : v.Follows ordered) (hst : v.state = .synSent) {st : TcpState}
    (hst' : st = .synSent ∨ st = .established) :
    Receiver.Follows ordered { v with rcvNxt := v.inbound.peer.irs + 1, state := st } := by
  have hnothing : Receiver.delivered { v with rcvNxt := v.inbound.peer.irs + 1, state := st } = [] := hv.fresh hst
  refine ⟨hv.short, hv.ring, hv.delivers, fun _ => ?_, fun _ => hnothing, fun _ hfin => ?_⟩
  · rw [hnothing]
    change v.inbound.peer.irs + 1 = v.inbound.peer.irs + 1 + 0
    simp
  · rcases hst' with rfl | rfl <;> exact absurd hfin (by simp [TcpState.Finished])

lemma Slot.Follows.onSynSent (hs : s.Follows ordered) (hst : s.conn.state = .synSent)
    (hgenuine : s.inbound.peer.Genuine h) :
    Outcome (onSynSent env h) s (fun _ s' => s'.Follows ordered) (Slot.Follows ordered) := by
  rw [Tcp.onSynSent]
  simp only [outcome_bind, outcome_ite, outcome_pure, outcome_modifyConn, outcome_stop, outcome_sendSegment,
    Slot.Follows, Slot.send_receiver]
  refine ⟨fun hflags => ?_, fun _ => hs⟩
  rw [hgenuine.syn hflags.1]
  refine ⟨fun _ => ?_, fun _ => ?_⟩
  · have hkept := Receiver.Follows.start hs hst (Or.inl hst)
    exact hkept
  · exact Receiver.Follows.start hs hst (Or.inr rfl)

lemma Slot.Follows.onSegment (hs : s.Follows ordered) (hgenuine : s.inbound.peer.Genuine h)
    (horder : ordered → s.conn.FinInOrder h) :
    Outcome (onSegment env h) s (fun _ s' => s'.Follows ordered) (Slot.Follows ordered) := by
  rw [Tcp.onSegment, outcome_ite]
  refine ⟨fun _ => hs.release (by decide), fun hrst => ?_⟩
  have hwnd : Slot.Follows ordered { s with conn := { s.conn with sndWnd := h.wnd } } := hs
  simp only [outcome_bind, outcome_modifyConn, outcome_get]
  split
  case h_1 hst => exact hwnd.onSynRcvd hst hgenuine
  case h_2 hst => exact hwnd.onSynSent hst hgenuine
  case h_3 hst => exact hwnd.onData (by rw [hst]; decide) hgenuine horder
  case h_4 hst => exact hwnd.onData (by rw [hst]; decide) hgenuine horder
  case h_5 hst => exact hwnd.onData (by rw [hst]; decide) hgenuine horder
  case h_6 =>
    rw [onLastAck, outcome_modifyConn]
    split_ifs
    · exact hwnd.release (by decide)
    · exact hwnd
  case h_7 => exact hwnd

lemma Slot.Follows.tickSlot (hs : s.Follows ordered) :
    Outcome (tickSlot env) s (fun _ s' => s'.Follows ordered) (Slot.Follows ordered) :=
  (follows_paces.tickSlot (fun hs => Slot.Follows.release hs (by decide)) (fun _ _ _ => Slot.Follows.send)
    (fun _ _ _ => Slot.Follows.send) fun _ _ =>
      ⟨fun _ _ _ hs => Slot.Follows.release hs (by decide), fun _ _ _ _ _ _ => Slot.Follows.send⟩).kept hs

end Calls

end Aeglos.Tcp
