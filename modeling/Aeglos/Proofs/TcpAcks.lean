import Aeglos.Proofs.TcpStream
import Aeglos.Proofs.TcpOffPath

/-!
# Acknowledgements

An acknowledgement of bytes that were sent should move the window.
-/

namespace Aeglos.Tcp

open Effects TransitionSystem List BitVec

def Stream.Transmitted (st : Stream) (k : Nat) : Prop :=
  ∃ seg ∈ st.sent, ∃ i < seg.data.length, st.offset (seg.seq + BitVec.ofNat 32 i) = k + 1

instance (st : Stream) (k : Nat) : Decidable (st.Transmitted k) :=
  inferInstanceAs (Decidable (∃ seg ∈ st.sent, ∃ i < seg.data.length, st.offset (seg.seq + BitVec.ofNat 32 i) = k + 1))

def Stream.Occupied (st : Stream) (n : Nat) : Prop :=
  ∃ seg ∈ st.sent, (∃ i < seg.data.length, st.offset (seg.seq + BitVec.ofNat 32 i) = n) ∨
    (seg.flags &&& tcpFin ≠ 0 ∧ st.offset (seg.seq + BitVec.ofNat 32 seg.data.length) = n)

instance (st : Stream) (n : Nat) : Decidable (st.Occupied n) :=
  inferInstanceAs (Decidable (∃ seg ∈ st.sent, (∃ i < seg.data.length, st.offset (seg.seq + BitVec.ofNat 32 i) = n) ∨
    (seg.flags &&& tcpFin ≠ 0 ∧ st.offset (seg.seq + BitVec.ofNat 32 seg.data.length) = n)))

def Segment.after (seg : Segment) : BitVec 32 :=
  seg.seq + BitVec.ofNat 32 (seg.data.length + if seg.flags &&& tcpFin ≠ 0 then 1 else 0)

def TcpConn.queue (c : TcpConn) : Bytes := (c.tx.map fun r => r.peekFrom 0 r.len).getD []

/-- The segment acknowledges a number after the last one acknowledged, and none after the highest
one ever sent. -/
structure Slot.ValidAck (s : Slot) (h : Header) : Prop where
  ack : h.has tcpAck
  noReset : ¬h.has tcpRst
  after : s.stream.offset s.conn.sndUna < s.stream.offset h.ackNum
  sent : ∃ seg ∈ s.stream.sent, (seg.data ≠ [] ∨ seg.flags &&& tcpFin ≠ 0) ∧
    s.stream.offset h.ackNum ≤ s.stream.offset seg.after

def Slot.Moved (h : Header) (s s' : Slot) : Prop :=
  s'.conn.sndUna = h.ackNum ∧ s.conn.acked h ≤ s.conn.queue.length ∧
    s'.conn.queue = s.conn.queue.drop (s.conn.acked h)

def Slot.RemovedSent (s : Slot) : Prop :=
  s.conn.tx ≠ none → ∀ k, k + s.conn.queue.length < s.stream.accepted.length → s.stream.Transmitted k

/-- The peer acknowledges a number only after it was sent. -/
def Slot.Honest (s : Slot) (h : Header) : Prop :=
  h.has tcpAck → ∀ n < s.stream.offset h.ackNum, 0 < n → s.stream.Occupied n

instance (s : Slot) (h : Header) : Decidable (s.Honest h) :=
  inferInstanceAs (Decidable (h.has tcpAck → ∀ n < s.stream.offset h.ackNum, 0 < n → s.stream.Occupied n))

instance (s : Slot) (h : Header) : Decidable (s.ValidAck h) :=
  decidable_of_iff
    (h.has tcpAck ∧ ¬h.has tcpRst ∧ s.stream.offset s.conn.sndUna < s.stream.offset h.ackNum ∧
      ∃ seg ∈ s.stream.sent, (seg.data ≠ [] ∨ seg.flags &&& tcpFin ≠ 0) ∧
        s.stream.offset h.ackNum ≤ s.stream.offset seg.after)
    ⟨fun h => ⟨h.1, h.2.1, h.2.2.1, h.2.2.2⟩, fun h => ⟨h.1, h.2, h.3, h.4⟩⟩

instance (h : Header) (s s' : Slot) : Decidable (s.Moved h s') := inferInstanceAs (Decidable (_ ∧ _ ∧ _))

section Progress

variable {env : Env} {s : Slot} {h : Header}

lemma TcpConn.queue_some {c : TcpConn} {r : RingBuf} {q : Bytes} (htx : c.tx = some r) (hq : r.Holds q) :
    c.queue = q := by
  rw [TcpConn.queue, htx]
  exact hq.peekAll

lemma Slot.Core.after_le (hcore : s.Core) (hopen : ¬s.conn.state.Ended) {seg : Segment} (hseg : seg ∈ s.stream.sent)
    (hcounts : seg.data ≠ [] ∨ seg.flags &&& tcpFin ≠ 0) :
    s.stream.offset seg.after ≤ s.stream.accepted.length + 1 := by
  have hnofin : ¬seg.flags &&& tcpFin ≠ 0 := fun hfin => hopen (hcore.ended ⟨seg, hseg, hfin⟩)
  have hdata : 0 < seg.data.length := by
    rcases hcounts with h | h
    · exact List.length_pos_of_ne_nil h
    · exact absurd h hnofin
  have hshort := hcore.short
  obtain ⟨hpos, hbyte⟩ := (hcore.transmits seg hseg).1 (seg.data.length - 1) (by omega)
  set last := s.stream.offset (seg.seq + BitVec.ofNat 32 (seg.data.length - 1)) with hlast
  have hlt : last - 1 < s.stream.accepted.length := by
    rw [List.getElem?_eq_getElem (by omega : seg.data.length - 1 < seg.data.length)] at hbyte
    exact (List.getElem?_eq_some_iff.mp hbyte).1
  have hafter : seg.after - s.stream.isn = BitVec.ofNat 32 (last + 1) := by
    have hback : BitVec.ofNat 32 last = seg.seq + BitVec.ofNat 32 (seg.data.length - 1) - s.stream.isn := by
      rw [hlast, Stream.offset, ofNat_toNat, setWidth_eq]
    have hsplit : BitVec.ofNat 32 seg.data.length = BitVec.ofNat 32 (seg.data.length - 1) + BitVec.ofNat 32 1 := by
      rw [← ofNat_add, Nat.sub_add_cancel hdata]
    rw [Segment.after, if_neg hnofin, Nat.add_zero, ofNat_add, hback, hsplit]
    bv_omega
  rw [Stream.offset, hafter, toNat_ofNat, Nat.mod_eq_of_lt (by omega)]
  omega

lemma TcpConn.acked_eq_offset {st : Stream} {c : TcpConn} (hle : st.offset c.sndUna ≤ st.offset h.ackNum) :
    c.acked h = st.offset h.ackNum - st.offset c.sndUna := by
  unfold Stream.offset at hle ⊢
  unfold TcpConn.acked
  bv_omega

lemma Slot.Sound.acked_le (hs : s.Sound) (hst : s.conn.state = .established ∨ s.conn.state = .closeWait)
    (hvalid : s.ValidAck h) : 0 < s.conn.acked h ∧ s.conn.acked h ≤ s.conn.queue.length := by
  obtain ⟨hcore, hphase⟩ := hs
  have hopen : ¬s.conn.state.Ended := by
    rcases hst with h | h <;> rw [h] <;> decide
  rcases hphase with ⟨hidle, -⟩ | ⟨r, q, htx, hq, hfits⟩
  · change s.conn.state ∈ _ at hidle
    rcases hst with h | h <;> rw [h] at hidle <;> exact absurd hidle (by decide)
  · obtain ⟨⟨done, hdone, huna, hdrop⟩, -⟩ := (Sender.fits_open hst).mp hfits
    obtain ⟨seg, hseg, hcounts, hle⟩ := hvalid.sent
    have hafter := hcore.after_le hopen hseg hcounts
    have hshort := hcore.short
    have hbefore := hvalid.after
    change done ≤ s.stream.accepted.length at hdone
    have hlen : q.length = s.stream.accepted.length - done := by
      rw [← hdrop]
      exact length_drop
    have hfirst : s.stream.offset s.conn.sndUna = 1 + done := Stream.offset_eq huna (by omega)
    rw [TcpConn.acked_eq_offset hbefore.le, TcpConn.queue_some htx hq]
    omega

lemma Slot.Moved.of_eq {s' : Slot} {tx : Option RingBuf} (hle : s.conn.acked h ≤ s.conn.queue.length)
    (hring : tx = s.conn.tx.map fun r => r.discard (s.conn.acked h)) (hholds : ∃ r q, s.conn.tx = some r ∧ r.Holds q)
    (huna : s'.conn.sndUna = h.ackNum) (htx : s'.conn.tx = tx) : s.Moved h s' := by
  obtain ⟨r, q, hr, hq⟩ := hholds
  refine ⟨huna, hle, ?_⟩
  have hdiscard : s'.conn.tx = some (r.discard (s.conn.acked h)) := by
    rw [htx, hring, hr]
    rfl
  rw [TcpConn.queue_some hdiscard (hq.discard _), TcpConn.queue_some hr hq]

def TcpConn.outgoing (c : TcpConn) : BitVec 32 × Option RingBuf := (c.sndUna, c.tx)

lemma processAck_outgoing {b : BitVec 32 × Option RingBuf}
    (hnew : s.conn.AcksNew h → (h.ackNum, s.conn.tx.map fun r => r.discard (s.conn.acked h)) = b)
    (hold : ¬s.conn.AcksNew h → s.conn.outgoing = b) :
    Outcome (processAck env h) s (fun _ s' => s'.conn.outgoing = b) (fun s' => s'.conn.outgoing = b) := by
  have hpersist : ∀ c : TcpConn, (c.armPersist env).outgoing = c.outgoing := by
    intro c
    have hsame : c.Same (c.armPersist env) := TcpConn.Same.persist c
    rw [TcpConn.outgoing, hsame.sndUna, hsame.tx]
    rfl
  have hflush : ∀ s₁ : Slot, s₁.conn.outgoing = b →
      Outcome (flushTx env) s₁ (fun _ s' => s'.conn.outgoing = b) (fun s' => s'.conn.outgoing = b) :=
    fun s₁ hs₁ => flushTx_keeps (fun _ _ _ _ _ _ => rfl) hs₁
  rw [processAck]
  simp only [outcome_bind, outcome_get, outcome_ite, outcome_modifyConn, onDuplicateAck, outcome_pure, hpersist]
  exact ⟨fun h => hflush _ (hnew h), fun hne => ⟨fun _ => ⟨fun _ => hflush _ (hold hne), fun _ =>
    ⟨fun _ => hflush _ (hold hne), fun _ => hold hne⟩⟩, fun _ => hold hne⟩⟩

lemma onData_outgoing {b : BitVec 32 × Option RingBuf} (hack : h.has tcpAck)
    (hnew : s.conn.AcksNew h → (h.ackNum, s.conn.tx.map fun r => r.discard (s.conn.acked h)) = b)
    (hold : ¬s.conn.AcksNew h → s.conn.outgoing = b) :
    Outcome (onData env h) s (fun _ s' => s'.conn.outgoing = b) (fun s' => s'.conn.outgoing = b) := by
  have hsteady : Steady TcpConn.outgoing := ⟨fun _ _ _ => rfl, fun _ _ _ => rfl⟩
  rw [onData]
  simp only [outcome_bind, outcome_ite]
  refine ⟨fun _ => ?_, fun hno => absurd hack hno⟩
  exact (processAck_outgoing hnew hold).mono (fun _ s' hs' => hsteady.receiveData hs') fun _ hs' => hs'

/-- In the states that accept bytes, a valid acknowledgement moves the window exactly in
Established and up to one byte beyond the send pointer. -/
lemma Slot.Sound.moved_iff (hs : s.Sound) (hst : s.conn.state ∈ [TcpState.established, .closeWait])
    (hvalid : s.ValidAck h) :
    s.Moved h (after (Tcp.onSegment env h) s) ↔ s.conn.state = .established ∧ s.conn.acked h ≤ s.conn.sndCur + 1 := by
  have hopen : s.conn.state = .established ∨ s.conn.state = .closeWait := by
    simpa only [mem_cons, not_mem_nil, or_false] using hst
  obtain ⟨hpos, hle⟩ := hs.acked_le hopen hvalid
  have hring : ∃ r q, s.conn.tx = some r ∧ r.Holds q := by
    rcases hs.2 with ⟨hidle, -⟩ | ⟨r, q, htx, hq, -⟩
    · change s.conn.state ∈ _ at hidle
      rcases hopen with h | h <;> rw [h] at hidle <;> exact absurd hidle (by decide)
    · exact ⟨r, q, htx, hq⟩
  -- where the window stays, the acknowledged number is not that of the connection
  have hstays : ∀ s' : Slot, s'.conn.outgoing = s.conn.outgoing → ¬s.Moved h s' := by
    rintro s' hout ⟨huna, -⟩
    have hsame : s'.conn.sndUna = s.conn.sndUna := congrArg Prod.fst hout
    have hbefore := hvalid.after
    rw [← hsame, huna] at hbefore
    exact absurd hbefore (lt_irrefl _)
  have hunfold : ∀ R : Slot → Prop,
      (s.conn.state = .established → Outcome (Tcp.onData env h) { s with conn := { s.conn with sndWnd := h.wnd } }
        (fun _ s' => R s') R) →
      (s.conn.state = .closeWait → R { s with conn := { s.conn with sndWnd := h.wnd } }) →
      R (after (Tcp.onSegment env h) s) := by
    intro R hdata hwait
    refine outcome_iff_after.mp ?_
    rw [Tcp.onSegment, outcome_ite]
    refine ⟨fun hrst => absurd hrst hvalid.noReset, fun _ => ?_⟩
    simp only [outcome_bind, outcome_modifyConn, outcome_get]
    split
    case h_3 hst => exact hdata hst
    case h_7 hne _ _ _ => exact hwait (hopen.resolve_left hne)
    all_goals
      rename_i hst
      rcases hopen with hest | hwaiting
      · exact absurd (hst.symm.trans hest) (by decide)
      · exact absurd (hst.symm.trans hwaiting) (by decide)
  constructor
  · intro hmoved
    by_contra hneg
    refine hunfold (fun s' => ¬s.Moved h s') (fun hest => ?_) (fun _ => hstays _ rfl) hmoved
    have hold : ¬s.conn.AcksNew h := fun hnew => hneg ⟨hest, hnew.2⟩
    have hout : Outcome (Tcp.onData env h) { s with conn := { s.conn with sndWnd := h.wnd } }
        (fun _ s' => s'.conn.outgoing = s.conn.outgoing) (fun s' => s'.conn.outgoing = s.conn.outgoing) :=
      onData_outgoing hvalid.ack (fun hnew => absurd hnew hold) fun _ => rfl
    exact hout.mono (fun _ s' hs' => hstays s' hs') fun s' hs' => hstays s' hs'
  · rintro ⟨hest, hacked⟩
    refine hunfold (fun s' => s.Moved h s') (fun _ => ?_) fun hwait => absurd (hest.symm.trans hwait) (by decide)
    have hmoved : ∀ s' : Slot, s'.conn.outgoing = (h.ackNum, s.conn.tx.map fun r => r.discard (s.conn.acked h)) →
        s.Moved h s' := by
      intro s' hout
      exact Slot.Moved.of_eq hle rfl hring (congrArg Prod.fst hout) (congrArg Prod.snd hout)
    have hout : Outcome (Tcp.onData env h) { s with conn := { s.conn with sndWnd := h.wnd } }
        (fun _ s' => s'.conn.outgoing = (h.ackNum, s.conn.tx.map fun r => r.discard (s.conn.acked h)))
        (fun s' => s'.conn.outgoing = (h.ackNum, s.conn.tx.map fun r => r.discard (s.conn.acked h))) :=
      onData_outgoing hvalid.ack (fun _ => rfl) fun hold => absurd ⟨hpos, hacked⟩ hold
    exact hout.mono (fun _ s' hs' => hmoved s' hs') fun s' hs' => hmoved s' hs'

end Progress

section Removing

variable {env : Env} {s : Slot} {h : Header}

lemma Slot.RemovedSent.conn (hs : s.RemovedSent) {c : TcpConn} (htx : c.tx = s.conn.tx ∨ c.tx = none) :
    Slot.RemovedSent { s with conn := c } := by
  intro hsome k hk
  rcases htx with hsame | hnone
  · refine hs (by rwa [← hsame]) k ?_
    have hqueue : c.queue = s.conn.queue := by rw [TcpConn.queue, TcpConn.queue, hsame]
    rwa [← hqueue]
  · exact absurd hnone hsome

lemma Stream.Transmitted.cons {st : Stream} {k : Nat} (hk : st.Transmitted k) (seg : Segment) :
    Stream.Transmitted { st with sent := seg :: st.sent } k := by
  obtain ⟨seg', hseg', hbyte⟩ := hk
  exact ⟨seg', mem_cons_of_mem seg hseg', hbyte⟩

lemma Slot.RemovedSent.send (hs : s.RemovedSent) {flags : UInt8} {data : Bytes} :
    (s.send env flags data).RemovedSent := by
  unfold Slot.send
  split_ifs
  · exact fun hsome k hk => (hs hsome k hk).cons _
  · exact hs

lemma Slot.RemovedSent.send_conn (hs : s.RemovedSent) {flags : UInt8} {data : Bytes} {c : TcpConn}
    (htx : c.tx = s.conn.tx ∨ c.tx = none) : Slot.RemovedSent { s.send env flags data with conn := c } :=
  hs.send.conn (by rwa [Slot.send_conn])

lemma removedSent_responds :
    Responds (Keeping Slot.RemovedSent Slot.RemovedSent) (Keeping Slot.RemovedSent Slot.RemovedSent) where
  toPaces := keeping_paces id (fun hc hs => hs.conn (Or.inl hc.tx)) fun _ _ hs => hs.send
  receive _ _ _ hs := hs
  window _ hs := hs.conn (Or.inl rfl)
  move hc hs := hs.conn (Or.inl hc.tx)
  release hs := hs.conn (Or.inr rfl)
  start _ _ _ hs := hs.conn (Or.inl rfl)

lemma Slot.RemovedSent.tcpWrite (hs : s.RemovedSent) (hsound : s.Sound) (data : Bytes) :
    Outcome (tcpWrite env data) s (fun _ s' => s'.RemovedSent) Slot.RemovedSent := by
  refine (removedSent_responds.tcpWrite data fun r htx hs => ?_).kept hs
  rcases hsound.2 with ⟨-, hnone⟩ | ⟨r', q, htx', hq, -⟩
  · exact absurd (htx.symm.trans hnone) (by simp)
  · obtain rfl : r = r' := Option.some.inj (htx.symm.trans htx')
    intro _ k hk
    refine hs (by rw [htx]; simp) k ?_
    rw [TcpConn.queue_some htx hq]
    rw [TcpConn.queue_some rfl (hq.push data), length_append, length_append] at hk
    omega

lemma Slot.RemovedSent.tcpClose (hs : s.RemovedSent) :
    Outcome (tcpClose env) s (fun _ s' => s'.RemovedSent) Slot.RemovedSent := by
  rw [Tcp.tcpClose]
  simp only [outcome_bind, outcome_get]
  split
  · exact hs.send_conn (Or.inl (by rw [Slot.send_conn]))
  · exact hs.send_conn (Or.inl (by rw [Slot.send_conn]))
  · exact hs.conn (Or.inr rfl)

lemma removedSent_openSlot {c : TcpConn} {flags : UInt8} :
    Outcome (openSlot env c flags) s (fun _ s' => s'.RemovedSent) Slot.RemovedSent := by
  rw [openSlot]
  simp only [outcome_bind, outcome_set, outcome_sendSegment, outcome_modifyConn, Slot.send_conn]
  have hfresh : Slot.RemovedSent (Slot.mk c ⟨c.sndNxt, [], []⟩ ⟨env.peer, []⟩) :=
    fun _ k hk => absurd hk (Nat.not_lt_zero _)
  exact hfresh.send_conn (Or.inl rfl)

lemma Slot.Honest.transmitted (hhonest : s.Honest h) (hcore : s.Core) (hack : h.has tcpAck) {k : Nat}
    (hk : k < s.stream.accepted.length) (hacked : k + 1 < s.stream.offset h.ackNum) : s.stream.Transmitted k := by
  obtain ⟨seg, hseg, hbyte | ⟨hfin, hnum⟩⟩ := hhonest hack (k + 1) hacked (Nat.succ_pos k)
  · exact ⟨seg, hseg, hbyte⟩
  · -- the FIN comes after the last accepted byte
    have hlast := (hcore.transmits seg hseg).2 hfin
    omega

lemma Sender.Fits.cur_le {v : Sender} {q : Bytes} {st : TcpState} (hfits : v.Fits q st)
    (hst : st ∈ exchanging) : q = [] ∨ v.Aligned q ∧ v.cur ≤ q.length := by
  have hpointer : v.Points q ∨ v.PastFin q → v.cur ≤ q.length := by
    rintro (hpoints | hpast)
    · exact hpoints.2
    · exact hpast.2.le
  cases st with
  | established => exact Or.inr ⟨hfits.1, hpointer (Or.inl hfits.2)⟩
  | finWait1 => exact Or.inr ⟨hfits.1, hpointer hfits.2⟩
  | finWait2 =>
    rcases hfits with hempty | ⟨halign, h⟩
    · exact Or.inl hempty
    · exact Or.inr ⟨halign, hpointer h⟩
  | _ => exact absurd hst (by decide)

lemma Slot.RemovedSent.slide (hs : s.RemovedSent) (hsound : s.Sound) (hhonest : s.Honest h) (hack : h.has tcpAck)
    (hst : s.conn.state ∈ exchanging) (hle : s.conn.acked h ≤ s.conn.sndCur + 1) :
    Slot.RemovedSent { s with conn := s.conn.slide (s.conn.acked h) h.ackNum } := by
  obtain ⟨hcore, hphase⟩ := hsound
  obtain ⟨r, q, htx, hq, hfits⟩ := hphase.exchanging hst
  have hring : (s.conn.slide (s.conn.acked h) h.ackNum).tx = some (r.discard (s.conn.acked h)) := by
    change s.conn.tx.map _ = _
    rw [show s.conn.tx = some r from htx]
    rfl
  intro _ k hk
  change k + (s.conn.slide (s.conn.acked h) h.ackNum).queue.length < s.stream.accepted.length at hk
  change s.stream.Transmitted k
  rw [TcpConn.queue_some hring (hq.discard _), length_drop] at hk
  rcases hfits.cur_le hst with rfl | ⟨⟨done, hdone, huna, hdrop⟩, hcur⟩
  · refine hs (by rw [show s.conn.tx = some r from htx]; simp) k ?_
    rw [TcpConn.queue_some htx hq]
    rw [length_nil, Nat.zero_sub] at hk
    exact hk
  · change done ≤ s.stream.accepted.length at hdone
    change s.conn.sndCur ≤ q.length at hcur
    have hlen : q.length = s.stream.accepted.length - done := by
      rw [← hdrop]
      exact length_drop
    have hshort := hcore.short
    have hnum : h.ackNum = s.stream.isn + 1 + BitVec.ofNat 32 (done + s.conn.acked h) := by
      rw [← s.conn.una_add_acked (h := h), show s.conn.sndUna = _ from huna, BitVec.ofNat_add, ← BitVec.add_assoc]
      rfl
    refine hhonest.transmitted hcore hack (by omega) ?_
    rw [Stream.offset_eq hnum (by omega)]
    omega

lemma Slot.RemovedSent.onSegment (hs : s.RemovedSent) (hsound : s.Sound) (hhonest : s.Honest h) :
    Outcome (onSegment env h) s (fun _ s' => s'.RemovedSent) Slot.RemovedSent := by
  by_cases hrst : h.has tcpRst
  · rw [Tcp.onSegment, if_pos hrst]
    exact hs.conn (Or.inr rfl)
  · refine (removedSent_responds.onSegment hrst fun hst hack hle hwnd => ?_).kept hs
    exact hwnd.slide (hsound.congr rfl rfl) hhonest hack hst hle

lemma Slot.RemovedSent.tickSlot (hs : s.RemovedSent) :
    Outcome (tickSlot env) s (fun _ s' => s'.RemovedSent) Slot.RemovedSent :=
  (removedSent_responds.tickSlot removedSent_responds.release (fun _ _ _ hs => hs.send) (fun _ _ _ hs => hs.send)
    fun _ _ => ⟨fun _ _ _ hs => hs.conn (Or.inr rfl), fun _ _ _ _ _ _ hs => hs.send⟩).kept hs

end Removing

def HonestPeers (s : System) (a : Env × Op) : Prop :=
  match a.2 with
  | .segment srcIp payload => ∀ id ∈ findConn s.table srcIp (parseHeader payload),
    (s.table.slots id).Honest (parseHeader payload)
  | _ => True

instance (s : System) : ∀ a, Decidable (HonestPeers s a)
  | (_, .segment srcIp payload) => inferInstanceAs (Decidable (∀ id ∈ findConn s.table srcIp (parseHeader payload),
      (s.table.slots id).Honest (parseHeader payload)))
  | (_, .connect ..) | (_, .listen _) | (_, .accept _) | (_, .awaitEstablished _) | (_, .awaitReadable _)
  | (_, .read ..) | (_, .write ..) | (_, .close _) | (_, .tick) => instDecidableTrue

structure Acknowledges (t : Table) (srcIp : IpAddr) (payload : Bytes) (id : ConnId) : Prop where
  header : 20 ≤ payload.length
  found : findConn t srcIp (parseHeader payload) = some id
  writable : (t.slots id).conn.state ∈ [TcpState.established, .closeWait]
  valid : (t.slots id).ValidAck (parseHeader payload)

instance (t : Table) (srcIp : IpAddr) (payload : Bytes) (id : ConnId) : Decidable (Acknowledges t srcIp payload id) :=
  decidable_of_iff
    (20 ≤ payload.length ∧ findConn t srcIp (parseHeader payload) = some id ∧
      (t.slots id).conn.state ∈ [TcpState.established, .closeWait] ∧ (t.slots id).ValidAck (parseHeader payload))
    ⟨fun h => ⟨h.1, h.2.1, h.2.2.1, h.2.2.2⟩, fun h => ⟨h.1, h.2, h.3, h.4⟩⟩

def Progresses (env : Env) (srcIp : IpAddr) (payload : Bytes) (t : Table) (id : ConnId) : Prop :=
  (t.slots id).Moved (parseHeader payload) ((after (tcpHandleSegment env srcIp payload) t).slots id)

instance (env : Env) (srcIp : IpAddr) (payload : Bytes) (t : Table) (id : ConnId) :
    Decidable (Progresses env srcIp payload t id) :=
  inferInstanceAs (Decidable (Slot.Moved _ _ _))

lemma after_handleSegment {env : Env} {t : Table} {srcIp : IpAddr} {payload : Bytes} {id : ConnId}
    (hlen : 20 ≤ payload.length) (hfound : findConn t srcIp (parseHeader payload) = some id) :
    (after (tcpHandleSegment env srcIp payload) t).slots id = after (onSegment env (parseHeader payload)) (t.slots id) := by
  let v := after (onSegment env (parseHeader payload)) (t.slots id)
  have hslot : Outcome (tcpHandleSegment env srcIp payload) t (fun _ t' => t'.slots id = v) (fun t' => t'.slots id = v) := by
    rw [tcpHandleSegment]
    simp only [outcome_bind, outcome_get, outcome_ite, outcome_pure]
    refine ⟨fun hshort => absurd hlen (by omega), fun _ => ?_⟩
    rw [hfound]
    change Outcome (onSlot id (onSegment env (parseHeader payload))) t _ _
    rw [onSlot, outcome_zoom]
    simp only [Function.update_self]
    exact outcome_iff_after.mpr rfl
  exact (outcome_iff_after (P := fun t' : Table => t'.slots id = v)).mp hslot

abbrev Slot.Removes (s : Slot) : Prop := s.Sound ∧ s.RemovedSent

lemma removes_step {s : System} {a : Env × Op} (hs : Invariant Slot.Removes Slot.RemovedSent s) (hshort : Short s a)
    (hhonest : HonestPeers s a) (hcareful : Careful s a) : Invariant Slot.Removes Slot.RemovedSent (step s a) := by
  obtain ⟨env, op⟩ := a
  refine hs.step (fun _ h => h.2) fun id x hall hcall => ?_
  obtain ⟨hsound, hid⟩ := hall id
  have hkeeps : Outcome x (s.table.slots id) (fun _ s' => s'.Sound) Slot.Transmits :=
    sound_call (fun id => (hall id).1) hshort hcareful hcall
  have hremoved : Outcome x (s.table.slots id) (fun _ s' => s'.RemovedSent) Slot.RemovedSent := by
    cases hcall with
    | connect _ => exact removedSent_openSlot
    | listen _ => exact hid.conn (Or.inr rfl)
    | accept _ => exact hid.conn (Or.inl rfl)
    | awaitEstablished => exact outcome_discard.mpr ((removedSent_responds.awaitEstablished fun _ _ _ hs => hs.send).kept hid)
    | awaitReadable => exact outcome_discard.mpr (removedSent_responds.awaitReadable.kept hid)
    | read => exact outcome_discard.mpr ((removedSent_responds.tcpRead _).kept hid)
    | write => exact outcome_discard.mpr (hid.tcpWrite hsound _)
    | close => exact hid.tcpClose
    | segment _ hfound => exact hid.onSegment hsound (hhonest id hfound)
    | syn _ _ _ _ => exact removedSent_openSlot
    | tick => exact hid.tickSlot
  exact (hkeeps.and hremoved).mono (fun _ _ h => h) fun _ h => h.2

def rewound : List (Env × Op) :=
  [(quietEnv, .connect (.v4 1) 80 true),
   (quietEnv, .segment (.v4 1) [0, 80, 192, 0, 0, 0, 0, 7, 0, 0, 3, 233, 0x60, 0x12, 0, 3, 0, 0, 0, 0, 2, 4, 0, 1]),
   (quietEnv, .write 0 [1, 2, 3]),
   ({ quietEnv with ticks := 50 }, .tick)]

def ackOfThree : Bytes := [0, 80, 192, 0, 0, 0, 0, 8, 0, 0, 3, 236, 0x50, 0x10, 0, 3, 0, 0, 0, 0]

theorem rewound_ignores_ack :
    Guarded step (fun s a => Short s a ∧ HonestPeers s a ∧ Careful s a) boot rewound ∧
      Acknowledges (run step boot rewound).table (.v4 1) ackOfThree 0 ∧
      HonestPeers (run step boot rewound) (quietEnv, .segment (.v4 1) ackOfThree) ∧
      ¬Progresses quietEnv (.v4 1) ackOfThree (run step boot rewound).table 0 := by
  decide +kernel

/-- In every run of careful calls with honest peers, a valid acknowledgement makes progress exactly in
Established and up to one byte beyond the send pointer. -/
theorem ack_progresses_iff {calls : List (Env × Op)}
    (hcalls : Guarded step (fun s a => Short s a ∧ HonestPeers s a ∧ Careful s a) boot calls) :
    (∀ id, ((run step boot calls).table.slots id).RemovedSent) ∧
      ((run step boot calls).panicked = false → ∀ env srcIp payload id,
        Acknowledges (run step boot calls).table srcIp payload id →
          (Progresses env srcIp payload (run step boot calls).table id ↔
            ((run step boot calls).table.slots id).conn.state = .established ∧
              ((run step boot calls).table.slots id).conn.acked (parseHeader payload) ≤
                ((run step boot calls).table.slots id).conn.sndCur + 1)) := by
  have hboot : Invariant Slot.Removes Slot.RemovedSent boot := by
    have hslot : ∀ id, (boot.table.slots id).RemovedSent := fun id hsome => absurd rfl hsome
    exact ⟨hslot, fun hrun id => ⟨sound_boot.running hrun id, hslot id⟩⟩
  have hinv : Invariant Slot.Removes Slot.RemovedSent (run step boot calls) :=
    run_invariant (fun s a hs ha => removes_step hs ha.1 ha.2.1 ha.2.2) hboot hcalls
  refine ⟨hinv.always, fun hrun env srcIp payload id hack => ?_⟩
  rw [Progresses, after_handleSegment hack.header hack.found]
  exact (hinv.running hrun id).1.moved_iff hack.writable hack.valid

theorem ack_progresses_iff_in_flight :
    Guarded step (fun s a => Short s a ∧ HonestPeers s a ∧ Careful s a) boot (rewound.take 3) ∧
      Acknowledges (run step boot (rewound.take 3)).table (.v4 1) ackOfThree 0 ∧
      Progresses quietEnv (.v4 1) ackOfThree (run step boot (rewound.take 3)).table 0 := by
  have hcalls : Guarded step (fun s a => Short s a ∧ HonestPeers s a ∧ Careful s a) boot (rewound.take 3) := by
    decide +kernel
  have hack : Acknowledges (run step boot (rewound.take 3)).table (.v4 1) ackOfThree 0 := by decide +kernel
  have hiff := (ack_progresses_iff hcalls).2 (by decide +kernel) quietEnv (.v4 1) ackOfThree 0 hack
  exact ⟨hcalls, hack, hiff.mpr (by decide +kernel)⟩

end Aeglos.Tcp
