import Aeglos.Proofs.TcpCalls

/-!
# The changes that a computation makes to a slot

Most of what the module does to a connection is made of a few kinds of changes.
-/

namespace Aeglos.Tcp

open Effects

def TcpConn.key (c : TcpConn) : IpAddr × Nat × Nat := (c.remoteIp, c.remotePort, c.localPort)

structure TcpConn.Paced (c c' : TcpConn) : Prop where
  state : c'.state = c.state
  key : c'.key = c.key
  isServer : c'.isServer = c.isServer
  sndUna : c'.sndUna = c.sndUna
  rcvNxt : c'.rcvNxt = c.rcvNxt
  rx : c'.rx = c.rx
  tx : c'.tx = c.tx
  sndWnd : c'.sndWnd = c.sndWnd

lemma TcpConn.Paced.trans {c c' c'' : TcpConn} (h : c.Paced c') (h' : c'.Paced c'') : c.Paced c'' :=
  ⟨h'.state.trans h.state, h'.key.trans h.key, h'.isServer.trans h.isServer, h'.sndUna.trans h.sndUna,
    h'.rcvNxt.trans h.rcvNxt, h'.rx.trans h.rx, h'.tx.trans h.tx, h'.sndWnd.trans h.sndWnd⟩

def TcpState.followers : TcpState → List TcpState
  | .synSent | .synRcvd => [.established]
  | .established => [.closeWait]
  | .finWait1 => [.closing, .finWait2]
  | .finWait2 => [.timeWait]
  | _ => []

structure TcpConn.Moves (c c' : TcpConn) : Prop where
  state : c'.state ∈ c.state.followers
  key : c'.key = c.key
  isServer : c'.isServer = c.isServer
  tx : c'.tx = c.tx

/-- Changes that compose and contain what paces the sender; `E` is what is left of them at a panic. -/
structure Paces (R E : Slot → Slot → Prop) : Prop where
  refl : ∀ s, R s s
  trans : ∀ {s s' s''}, R s s' → R s' s'' → R s s''
  weaken : ∀ {s s'}, R s s' → E s s'
  after : ∀ {s s' s''}, R s s' → E s' s'' → E s s''
  pace : ∀ {s c}, s.conn.Paced c → R s { s with conn := c }
  ack : ∀ {s} env data, R s (s.send env tcpAck data)

lemma keeps_paces {β : Type} {f : TcpConn → β} (hf : ∀ {c c' : TcpConn}, c.Paced c' → f c' = f c) :
    Paces (fun s s' => f s'.conn = f s.conn) (fun s s' => f s'.conn = f s.conn) where
  refl _ := rfl
  trans h h' := h'.trans h
  weaken := id
  after h h' := h'.trans h
  pace hc := hf hc
  ack _ _ := congrArg f Slot.send_conn

/-- Changes that contain what a segment of the peer causes. -/
structure Responds (R E : Slot → Slot → Prop) : Prop extends Paces R E where
  receive : ∀ {s : Slot} rx next inbound, R s { s with conn := { s.conn with rx := rx, rcvNxt := next }, inbound := inbound }
  window : ∀ {s : Slot} w, R s { s with conn := { s.conn with sndWnd := w } }
  move : ∀ {s c}, s.conn.Moves c → R s { s with conn := c }
  release : ∀ {s : Slot}, R s { s with conn := s.conn.release .free }
  start : ∀ {s : Slot} rcv una, s.conn.state = .synSent →
    E s { s with conn := { s.conn with rcvNxt := rcv, sndUna := una, retxCount := 0, retxBackoff := 1 } }

def Acts {α : Type} (R E : Slot → Slot → Prop) (x : SlotM α) (s : Slot) : Prop := Outcome x s (fun _ s' => R s s') (E s)

abbrev Keeping (P Q : Slot → Prop) (s s' : Slot) : Prop := P s → Q s'

lemma keeping_paces {P Q : Slot → Prop} (hQ : ∀ {s}, P s → Q s)
    (hpace : ∀ {s c}, s.conn.Paced c → P s → P { s with conn := c }) (hack : ∀ {s} env data, P s → P (s.send env tcpAck data)) :
    Paces (Keeping P P) (Keeping P Q) where
  refl _ := id
  trans h h' hs := h' (h hs)
  weaken h hs := hQ (h hs)
  after h h' hs := h' (h hs)
  pace := hpace
  ack := hack

lemma Acts.kept {α : Type} {P Q : Slot → Prop} {x : SlotM α} {s : Slot} (hx : Acts (Keeping P P) (Keeping P Q) x s) (hs : P s) :
    Outcome x s (fun _ s' => P s') Q := Outcome.mono hx (fun _ _ h => h hs) fun _ h => h hs

section Rules

variable {α β : Type} {R E : Slot → Slot → Prop} {env : Env} {s : Slot} {h : Header}

lemma Acts.get {f : Slot → SlotM β} (hf : Acts R E (f s) s) : Acts R E (get >>= f) s := hf

lemma Acts.ite {c : Prop} [Decidable c] {x y : SlotM α} (hx : c → Acts R E x s) (hy : ¬c → Acts R E y s) :
    Acts R E (if c then x else y) s := outcome_ite.mpr ⟨hx, hy⟩

structure Slot.Probed (s s' : Slot) : Prop where
  conn : s.conn.Paced s'.conn
  sent : ∀ seg ∈ s'.stream.sent, seg ∈ s.stream.sent ∨ seg.flags = tcpAck

/-- The timeout of a segment: the connection is given up or its FIN is sent again, after a probe. -/
structure Slot.Expires (R : Slot → Slot → Prop) (env : Env) (s : Slot) : Prop where
  give : retxMax ≤ s.conn.retxCount → ∀ s', s.Probed s' → R s' { s' with conn := s'.conn.release .closed }
  fin : s.conn.state = .finWait1 → s.conn.retxCount < retxMax → ∀ s' data, s.Probed s' →
    s'.conn.sndNxt = s.conn.sndUna → R s' (s'.send env (tcpFin ||| tcpAck) data)

lemma Slot.probed_send {c : TcpConn} (hc : s.conn.Paced c) (data : Bytes) :
    s.Probed { s.send env tcpAck data with conn := c } := by
  unfold Slot.send
  split_ifs
  · exact ⟨hc, fun seg hseg => (List.mem_cons.mp hseg).elim (fun h => Or.inr (h ▸ rfl)) Or.inl⟩
  · exact ⟨hc, fun seg => Or.inl⟩

section Pacing

variable (hR : Paces R E)

include hR

lemma Paces.step {s' : Slot} {x : SlotM α} (hs' : R s s') (hx : Acts R E x s') : Outcome x s' (fun _ s'' => R s s'') (E s) :=
  Outcome.mono hx (fun _ _ => hR.trans hs') fun _ => hR.after hs'

lemma Paces.bind {x : SlotM α} {f : α → SlotM β} (hx : Acts R E x s) (hf : ∀ a s', R s s' → Acts R E (f a) s') :
    Acts R E (x >>= f) s := by
  rw [Acts, outcome_bind]
  exact Outcome.mono hx (fun a s' hs' => hR.step hs' (hf a s' hs')) fun _ => id

lemma Paces.pure (a : α) : Acts R E (pure a) s := hR.refl s

lemma Paces.tune {f : TcpConn → TcpConn} (hf : s.conn.Paced (f s.conn)) : Acts R E (modifyConn f) s := hR.pace hf

lemma Paces.flushTx : Acts R E (flushTx env) s := by
  refine Outcome.mono (outcome_flushTx (P := R s) ?_ (hR.refl s)) (fun _ _ => id) fun _ => hR.weaken
  rintro s₁ s₂ hs₁ ⟨n, -, -, rfl⟩
  apply hR.trans hs₁
  refine hR.trans (hR.ack env (s₁.conn.txPeek s₁.conn.sndCur n)) (hR.pace ?_)
  rw [Slot.send_conn]
  unfold TcpConn.advance
  split_ifs <;> exact ⟨rfl, rfl, rfl, rfl, rfl, rfl, rfl, rfl⟩

lemma Paces.tcpWrite (data : Bytes) (hwrite : ∀ tx, s.conn.tx = some tx →
      R s { s with
        conn := { s.conn with tx := some (tx.push data).2 }
        stream := { s.stream with accepted := s.stream.accepted ++ data.take (tx.push data).1 } }) :
    Acts R E (tcpWrite env data) s := by
  refine Acts.get (Acts.ite (fun _ => hR.pure 0) fun _ => ?_)
  cases htx : s.conn.tx with
  | none => exact hR.pure 0
  | some tx => exact hR.bind (hwrite tx htx) fun _ _ _ => hR.bind hR.flushTx fun _ _ _ => hR.pure _

lemma Paces.awaitReadable : Acts R E (awaitReadable env) s := by
  refine hR.bind hR.flushTx fun _ _ _ => Acts.get ?_
  exact Acts.ite (fun _ => hR.pure _) fun _ => Acts.ite (fun _ => hR.pure _) fun _ => hR.pure _

lemma Paces.awaitEstablished
    (hsyn : s.conn.state ∉ [TcpState.established, .closed, .free] → s.conn.retxTicks ≤ env.ticks → s.conn.retxCount < retxMax →
      R { s with conn := { s.conn with sndNxt := s.conn.sndUna } }
        (Slot.send env tcpSyn [] { s with conn := { s.conn with sndNxt := s.conn.sndUna } })) :
    Acts R E (awaitEstablished env) s := by
  refine Acts.get (Acts.ite (fun _ => hR.pure _) fun hest => Acts.ite (fun _ => hR.pure _) fun hend =>
    Acts.ite (fun hexp => ?_) fun _ => hR.pure _)
  have hback : R s { s with conn := { s.conn with sndNxt := s.conn.sndUna } } := hR.pace ⟨rfl, rfl, rfl, rfl, rfl, rfl, rfl, rfl⟩
  have hsent := hR.trans hback (hsyn (by simp_all) hexp.1 hexp.2)
  exact hR.trans hsent (hR.pace ⟨rfl, rfl, rfl, rfl, rfl, rfl, rfl, rfl⟩)

lemma Paces.onDuplicateAck : Acts R E (onDuplicateAck env) s := by
  refine Acts.get (hR.bind (hR.tune ⟨rfl, rfl, rfl, rfl, rfl, rfl, rfl, rfl⟩) fun _ _ _ => Acts.ite (fun _ => ?_)
    fun _ => Acts.ite (fun _ => ?_) fun _ => hR.pure ())
  · exact hR.bind (hR.tune ⟨rfl, rfl, rfl, rfl, rfl, rfl, rfl, rfl⟩) fun _ _ _ => hR.flushTx
  · exact hR.bind (hR.tune ⟨rfl, rfl, rfl, rfl, rfl, rfl, rfl, rfl⟩) fun _ _ _ => hR.flushTx

lemma Paces.processAck (hslide : 0 < s.conn.acked h → s.conn.acked h ≤ s.conn.sndCur + 1 →
      R s { s with conn := s.conn.slide (s.conn.acked h) h.ackNum }) : Acts R E (processAck env h) s := by
  have harm : ∀ s, Acts R E (modifyConn (TcpConn.armPersist env)) s := by
    refine fun s => hR.tune ?_
    unfold TcpConn.armPersist
    split_ifs <;> exact ⟨rfl, rfl, rfl, rfl, rfl, rfl, rfl, rfl⟩
  refine Acts.get (Acts.ite (fun hnew => ?_) fun _ => Acts.ite (fun _ => ?_) fun _ => harm _)
  · exact hR.bind (hslide hnew.1 hnew.2) fun _ _ _ => hR.bind hR.flushTx fun _ _ _ => harm _
  · exact hR.bind hR.onDuplicateAck fun _ _ _ => harm _

lemma Paces.resend {limit : BitVec 32} {flags : UInt8} (hrelease : R s { s with conn := s.conn.release .free })
    (hsend : s.conn.waited env limit → s.conn.retxCount < retxMax → R s (s.send env flags [])) :
    Acts R E (resend env limit flags) s := by
  refine Acts.get (Acts.ite (fun hwaited => Acts.ite (fun _ => hrelease) fun hcount => ?_) fun _ => hR.pure ())
  exact hR.bind (hsend hwaited (Nat.lt_of_not_le hcount)) fun _ _ _ => hR.tune ⟨rfl, rfl, rfl, rfl, rfl, rfl, rfl, rfl⟩

lemma Paces.retransmit (backoff : Nat) (hgive : retxMax ≤ s.conn.retxCount → R s { s with conn := s.conn.release .closed })
    (hfin : s.conn.state = .finWait1 → s.conn.retxCount < retxMax → ∀ c data, s.conn.Paced c → c.sndNxt = s.conn.sndUna →
      R { s with conn := c } (Slot.send env (tcpFin ||| tcpAck) data { s with conn := c })) :
    Acts R E (retransmit env backoff) s := by
  let back : TcpConn := { s.conn with
    ssthresh := max (s.conn.inFlight / 2) (s.conn.mss * 2), cwnd := s.conn.mss, sndNxt := s.conn.sndUna, sndCur := 0 }
  have hback : s.conn.Paced back := ⟨rfl, rfl, rfl, rfl, rfl, rfl, rfl, rfl⟩
  rw [Acts, Tcp.retransmit]
  simp only [outcome_bind, outcome_get, outcome_ite, outcome_modifyConn, outcome_stop, outcome_sendSegment]
  refine ⟨hgive, fun hcount => ⟨fun _ => hR.weaken (hR.pace hback), fun _ => ?_⟩⟩
  refine hR.trans (hR.pace hback) (hR.trans ?_ (hR.pace ⟨rfl, rfl, rfl, rfl, rfl, rfl, rfl, rfl⟩))
  split_ifs with hst
  · exact hfin hst (Nat.lt_of_not_le hcount) back _ hback rfl
  · exact hR.ack env _

lemma Paces.onTimers (hs : s.conn.expired env → s.Expires R env) : Acts R E (onTimers env) s := by
  have hsame : s.Probed s := ⟨⟨rfl, rfl, rfl, rfl, rfl, rfl, rfl, rfl⟩, fun _ => Or.inl⟩
  have hretransmit : s.conn.expired env → ∀ s', s.Probed s' → s'.conn.retxCount = s.conn.retxCount →
      Acts R E (Tcp.retransmit env s.conn.retxBackoff) s' := by
    intro hexp s' hs' hcount
    refine hR.retransmit _ (fun hmax => (hs hexp).give (hcount ▸ hmax) s' hs') fun hst hlt c data hc hnxt => ?_
    have hprobed : s.Probed { s' with conn := c } := ⟨hs'.conn.trans hc, hs'.sent⟩
    exact (hs hexp).fin (hs'.conn.state ▸ hst) (hcount ▸ hlt) _ data hprobed (hnxt.trans hs'.conn.sndUna)
  rw [Acts, Tcp.onTimers]
  simp only [outcome_bind, outcome_get, outcome_ite, outcome_pure, persistProbe, outcome_sendSegment, outcome_modifyConn,
    Slot.send_conn]
  let probing : TcpConn := { s.conn with
    retxBackoff := min (min (s.conn.retxBackoff * 2) 255) 64
    persistTicks := env.ticks + BitVec.ofNat 32 (min (persistInit * s.conn.retxBackoff) persistMax) }
  have hprobing : s.conn.Paced probing := ⟨rfl, rfl, rfl, rfl, rfl, rfl, rfl, rfl⟩
  have hprobe : R s { s.send env tcpAck (s.conn.txPeek 0 1) with conn := probing } :=
    hR.trans (hR.ack env _) (hR.pace (by rwa [Slot.send_conn]))
  refine ⟨fun _ => ⟨fun hexp => hR.step hprobe ?_, fun _ => hprobe⟩, fun _ => ⟨fun hexp => ?_, fun _ => hR.refl s⟩⟩
  · exact hretransmit hexp _ (Slot.probed_send hprobing _) rfl
  · exact hretransmit hexp s hsame rfl

lemma Paces.tickSlot (hrelease : R s { s with conn := s.conn.release .free })
    (hsyn : s.conn.state = .synRcvd → s.conn.waited env (retxInit * 10) → s.conn.retxCount < retxMax →
      R s (s.send env (tcpSyn ||| tcpAck) []))
    (hlast : s.conn.state = .lastAck → s.conn.waited env lastackTimeout → s.conn.retxCount < retxMax →
      R s (s.send env (tcpFin ||| tcpAck) []))
    (hexpires : s.conn.state ∈ exchanging → s.conn.expired env → s.Expires R env) : Acts R E (tickSlot env) s := by
  refine Acts.get ?_
  dsimp only
  cases hst : s.conn.state with
  | synRcvd => exact hR.resend hrelease (hsyn hst)
  | lastAck => exact hR.resend hrelease (hlast hst)
  | timeWait | closing => exact Acts.ite (fun _ => hrelease) fun _ => hR.pure ()
  | established | finWait1 | finWait2 => exact hR.onTimers (hexpires (by simp [hst]))
  | _ => exact hR.pure ()

end Pacing

section Responding

variable (hR : Responds R E)

include hR

lemma Responds.deliver : Acts R E (deliver env h) s :=
  Acts.get (Acts.ite (fun _ => hR.bind (hR.receive _ _ _) fun _ _ _ => hR.ack env []) fun _ => hR.pure ())

lemma Responds.onSynRcvd (hst : s.conn.state = .synRcvd) : Acts R E (onSynRcvd env h) s := by
  refine Acts.get (Acts.ite (fun _ => hR.bind ?_ fun _ _ _ => hR.deliver) fun _ => hR.pure ())
  exact hR.move ⟨by simp [hst, TcpState.followers], rfl, rfl, rfl⟩

lemma Responds.onSynSent (hst : s.conn.state = .synSent) : Acts R E (onSynSent env h) s := by
  rw [Acts, Tcp.onSynSent]
  simp only [outcome_ite, outcome_bind, outcome_modifyConn, outcome_stop, outcome_sendSegment, outcome_pure]
  refine ⟨fun _ => ⟨fun _ => hR.start _ _ hst, fun _ => hR.trans (hR.move ?_) (hR.ack env [])⟩, fun _ => hR.refl s⟩
  exact ⟨by simp [hst, TcpState.followers], rfl, rfl, rfl⟩

lemma Responds.receiveData : Acts R E (receiveData env h) s := by
  have hconfirmed : ∀ s, Acts R E (modifyConn (TcpConn.finConfirmed h)) s := by
    intro s
    change R s { s with conn := s.conn.finConfirmed h }
    unfold TcpConn.finConfirmed
    split_ifs with hst
    · exact hR.move ⟨by simp [hst.1, TcpState.followers], rfl, rfl, rfl⟩
    · exact hR.refl s
  have hreceived : ∀ s, Acts R E (modifyConn (TcpConn.finReceived env)) s := by
    intro s
    change R s { s with conn := s.conn.finReceived env }
    unfold TcpConn.finReceived
    split
    case h_4 => exact hR.refl s
    all_goals
      rename_i hst
      exact hR.move ⟨by simp [hst, TcpState.followers], rfl, rfl, rfl⟩
  refine hR.bind hR.deliver fun _ _ _ => Acts.ite (fun _ => ?_) fun _ => hconfirmed _
  refine hR.bind (hR.bind (hR.receive _ _ _) fun _ _ _ => ?_) fun _ _ _ => hconfirmed _
  exact hR.bind (hR.ack env []) fun _ _ _ => hreceived _

lemma Responds.onSegment (hrst : ¬h.has tcpRst) (hslide : s.conn.state ∈ exchanging → h.has tcpAck →
      s.conn.acked h ≤ s.conn.sndCur + 1 → R { s with conn := { s.conn with sndWnd := h.wnd } }
        { s with conn := TcpConn.slide (s.conn.acked h) h.ackNum { s.conn with sndWnd := h.wnd } }) :
    Acts R E (onSegment env h) s := by
  have hdata : s.conn.state ∈ exchanging →
      Acts R E (Tcp.onData env h) { s with conn := { s.conn with sndWnd := h.wnd } } := fun hst =>
    Acts.ite (fun hack => hR.bind (hR.processAck fun _ hle => hslide hst hack hle) fun _ _ _ => hR.receiveData)
      fun _ => hR.receiveData
  rw [Acts, Tcp.onSegment, if_neg hrst]
  simp only [outcome_bind, outcome_modifyConn, outcome_get]
  apply hR.step (hR.window h.wnd)
  cases hst : s.conn.state with
  | synRcvd => exact hR.onSynRcvd hst
  | synSent => exact hR.onSynSent hst
  | established | finWait1 | finWait2 => exact hdata (by simp [hst])
  | lastAck =>
    change R { s with conn := { s.conn with sndWnd := h.wnd } } _
    dsimp only
    split_ifs
    · exact hR.release
    · exact hR.refl _
  | _ => exact hR.pure ()

lemma Responds.tcpRead (n : Nat) : Acts R E (tcpRead n) s := by
  refine Acts.get ?_
  dsimp only
  cases s.conn.rx with
  | none => exact hR.pure _
  | some rx => exact hR.bind (hR.receive (some (rx.pop n).2) s.conn.rcvNxt _) fun _ _ _ => hR.pure _

end Responding

end Rules

end Aeglos.Tcp
