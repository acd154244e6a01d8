import Aeglos.Library.RingBuffer
import Aeglos.Library.Outcomes
import Aeglos.Library.Runs
import Aeglos.Kernel.Tcp

/-!
# What a call does to the connection table

Every call runs one computation on one slot; only the timer runs one on each.
-/

namespace Aeglos.Tcp

open Effects List Function

section Ring

def RingBuf.Holds (r : RingBuf) (q : Bytes) : Prop :=
  RingBuffer.HoldsQueue (fun i => some (r.buf i)) r.head r.tail r.len q

variable {r : RingBuf} {q : Bytes}

lemma RingBuf.new_holds : RingBuf.new.Holds [] := RingBuffer.HoldsQueue.empty _ 0

lemma RingBuf.Holds.avail (h : r.Holds q) : r.avail = q.length := h.length.symm

lemma RingBuf.Holds.pushByte (h : r.Holds q) (hroom : r.len < bufSize) (b : UInt8) :
    (r.pushByte b).Holds (q ++ [b]) := by
  have hpush := h.push hroom b
  have hbuf : (fun i => some ((r.pushByte b).buf i)) = Function.update (fun i => some (r.buf i)) r.tail (some b) := by
    funext i
    simp only [RingBuf.pushByte, update_apply]
    split_ifs <;> rfl
  unfold RingBuf.Holds
  rw [hbuf]
  exact hpush

lemma RingBuf.Holds.pushAll (data : Bytes) :
    ∀ {r : RingBuf} {q : Bytes}, r.Holds q → r.len + data.length ≤ bufSize →
      (data.foldl RingBuf.pushByte r).Holds (q ++ data) := by
  induction data with
  | nil =>
    intro r q h _
    simpa using h
  | cons b data ih =>
    intro r q h hroom
    rw [length_cons] at hroom
    have hnext := ih (h.pushByte (by omega) b) (by simp only [RingBuf.pushByte]; omega)
    simpa using hnext

lemma RingBuf.Holds.push (h : r.Holds q) (data : Bytes) :
    (r.push data).2.Holds (q ++ data.take (r.push data).1) := by
  apply RingBuf.Holds.pushAll _ h
  have hle := h.le
  simp only [length_take, RingBuf.free]
  omega

lemma RingBuf.Holds.discard (h : r.Holds q) (n : Nat) : (r.discard n).Holds (q.drop n) := by
  have hdrop : q.drop n = q.drop (min n r.len) := by
    rw [← h.length]
    rcases Nat.le_total n q.length with hn | hn
    · rw [Nat.min_eq_left hn]
    · rw [Nat.min_eq_right hn, drop_length, drop_eq_nil_of_le hn]
  rw [hdrop]
  exact RingBuffer.HoldsQueue.discard h (Nat.min_le_right n r.len)

lemma RingBuf.Holds.peekFrom (h : r.Holds q) (offset n : Nat) : r.peekFrom offset n = (q.drop offset).take n := by
  have hlen : q.length = r.len := h.length
  apply ext_getElem?
  intro i
  rw [RingBuf.peekFrom, getElem?_map, getElem?_take, getElem?_drop]
  by_cases hi : i < min n (r.len - offset)
  · have hcell := h.cells (offset + i) (by omega)
    rw [getElem?_range hi, if_pos (by omega), ← hcell]
    rfl
  · rw [getElem?_eq_none (by rw [length_range]; omega)]
    split_ifs with hn
    · rw [getElem?_eq_none (by omega)]
      rfl
    · rfl

lemma RingBuf.Holds.peekAll (h : r.Holds q) : r.peekFrom 0 r.len = q := by
  rw [h.peekFrom, drop_zero, ← h.length, take_length]

end Ring

@[simp] lemma outcome_sendSegment {env : Env} {flags : UInt8} {data : Bytes} {s : Slot} {Q : Unit → Slot → Prop}
    {E : Slot → Prop} : Outcome (sendSegment env flags data) s Q E ↔ Q () (s.send env flags data) := Iff.rfl

@[simp] lemma outcome_modifyConn {s : Slot} {Q : Unit → Slot → Prop} {E : Slot → Prop} {f : TcpConn → TcpConn} :
    Outcome (modifyConn f) s Q E ↔ Q () { s with conn := f s.conn } := Iff.rfl

section Sending

variable {env : Env} {s : Slot}

@[simp] lemma Slot.send_conn {flags : UInt8} {data : Bytes} : (s.send env flags data).conn = s.conn := by
  unfold Slot.send
  split_ifs <;> rfl

def Slot.sendNext (env : Env) (data : Bytes) (s : Slot) : Slot :=
  { s.send env tcpAck data with conn := s.conn.advance env data.length }

def Sends (env : Env) (s s' : Slot) : Prop :=
  ∃ n, 0 < n ∧ s.conn.sndCur + n ≤ s.conn.txAvail ∧ s' = s.sendNext env (s.conn.txPeek s.conn.sndCur n)

lemma outcome_flushLoop {P : Slot → Prop} (hP : ∀ s s', P s → Sends env s s' → P s') (segs : Nat) (hs : P s) :
    Outcome (flushLoop env segs) s (fun _ s' => P s') P := by
  induction segs generalizing s with
  | zero => exact hs
  | succ segs ih =>
    rw [flushLoop]
    simp only [outcome_bind, outcome_get, outcome_ite, outcome_pure, outcome_stop, outcome_sendSegment,
      outcome_modifyConn, Slot.send_conn]
    refine ⟨fun _ => hs, fun _ => ⟨fun _ => hs, fun hunsent => ⟨fun _ => hs, fun hn => ⟨fun _ => hs, fun _ =>
      ⟨fun _ => hs, fun _ => ih (hP s _ hs ⟨_, Nat.pos_of_ne_zero hn, ?_, rfl⟩)⟩⟩⟩⟩⟩
    omega

lemma outcome_flushTx {P : Slot → Prop} (hP : ∀ s s', P s → Sends env s s' → P s') (hs : P s) :
    Outcome (flushTx env) s (fun _ s' => P s') P := outcome_flushLoop hP maxFlushSegs hs

end Sending

abbrev exchanging : List TcpState := [.established, .finWait1, .finWait2]

def connecting (env : Env) (dstIp : IpAddr) (dstPort localPort : Nat) : TcpConn :=
  { TcpConn.zeroed with
    state := .synSent, remoteIp := dstIp, remotePort := dstPort, localPort := localPort
    sndNxt := env.count, sndUna := env.count, retxTicks := env.ticks + retxInit, stateTick := env.ticks
    lastAckRcvd := env.count, rx := some RingBuf.new, tx := some RingBuf.new }

inductive Calls (t : Table) (env : Env) : Op → ConnId → SlotM Unit → Prop where
  | connect {dstIp dstPort resolved id} : freeSlot t = some id →
      Calls t env (.connect dstIp dstPort resolved) id (openSlot env (connecting env dstIp dstPort t.nextPort) tcpSyn)
  | listen {port id} : freeSlot t = some id →
      Calls t env (.listen port) id
        (modifyConn fun _ => { TcpConn.zeroed with state := .listen, localPort := port, stateTick := env.ticks })
  | accept {listener id} : (t.slots id).conn.state = .established →
      Calls t env (.accept listener) id (modifyConn fun c => { c with isServer := false })
  | awaitEstablished {id} : Calls t env (.awaitEstablished id) id (discard (awaitEstablished env))
  | awaitReadable {id} : Calls t env (.awaitReadable id) id (discard (awaitReadable env))
  | read {id : ConnId} {n} : Calls t env (.read id n) id (discard (tcpRead n))
  | write {id : ConnId} {data} : Calls t env (.write id data) id (discard (tcpWrite env data))
  | close {id : ConnId} : Calls t env (.close id) id (tcpClose env)
  | segment {srcIp payload id} : 20 ≤ payload.length → findConn t srcIp (parseHeader payload) = some id →
      Calls t env (.segment srcIp payload) id (onSegment env (parseHeader payload))
  | syn {srcIp payload id} : 20 ≤ payload.length → findConn t srcIp (parseHeader payload) = none →
      freeSlot t = some id → (parseHeader payload).has tcpSyn →
      Calls t env (.segment srcIp payload) id (acceptSyn env srcIp (parseHeader payload))
  | tick {id} : Calls t env .tick id (tickSlot env)

section Keeping

variable {P E : Slot → Prop} {t : Table} {env : Env}

lemma all_update {F : Slot → Prop} {slots : ConnId → Slot} {id : ConnId} {s' : Slot} (hs' : F s')
    (hF : ∀ i, F (slots i)) (i : ConnId) : F (Function.update slots id s' i) := by
  by_cases hi : i = id
  · subst hi
    rwa [update_self]
  · rw [update_of_ne hi]
    exact hF i

lemma outcome_onSlot {α : Type} (hPE : ∀ s, P s → E s) (ht : ∀ id, P (t.slots id)) {id : ConnId} {x : SlotM α}
    (hx : Outcome x (t.slots id) (fun _ s' => P s') E) :
    Outcome (onSlot id x) t (fun _ t' => ∀ id, P (t'.slots id)) (fun t' => ∀ id, E (t'.slots id)) := by
  rw [onSlot, outcome_zoom]
  exact hx.mono (fun _ _ hs' => all_update hs' ht) fun _ hs' => all_update hs' fun i => hPE _ (ht i)

lemma outcome_onUnmatched (hPE : ∀ s, P s → E s) (ht : ∀ id, P (t.slots id)) {srcIp : IpAddr} {h : Header}
    (hsyn : ∀ id, freeSlot t = some id → h.has tcpSyn →
      Outcome (acceptSyn env srcIp h) (t.slots id) (fun _ s' => P s') E) :
    Outcome (onUnmatched env srcIp h) t (fun _ t' => ∀ id, P (t'.slots id)) (fun t' => ∀ id, E (t'.slots id)) := by
  rw [onUnmatched]
  simp only [outcome_bind, outcome_get, outcome_ite]
  refine ⟨fun hflags => ?_, fun _ => ⟨fun _ => ?_, fun _ => ht⟩⟩
  · cases hfree : freeSlot t with
    | none => exact ht
    | some id => exact outcome_onSlot hPE ht (hsyn id hfree hflags.1)
  · cases srcIp with
    | v4 addr => exact ht
    | v6 addr => exact ht

lemma outcome_tcpTick (hPE : ∀ s, P s → E s) (ht : ∀ id, P (t.slots id))
    (htick : ∀ id, Outcome (tickSlot env) (t.slots id) (fun _ s' => P s') E) :
    Outcome (tcpTick env) t (fun _ t' => ∀ id, P (t'.slots id)) (fun t' => ∀ id, E (t'.slots id)) := by
  -- the slots to come are as they were at the start
  let I : List ConnId → Table → Prop := fun ids t' =>
    ids.Nodup ∧ (∀ id, P (t'.slots id)) ∧ ∀ id ∈ ids, t'.slots id = t.slots id
  have hloop : Outcome (tcpTick env) t (fun _ t' => I [] t') (fun t' => ∀ id, E (t'.slots id)) := by
    refine outcome_forM (I := I) ?_ ⟨nodup_finRange maxConns, ht, fun _ _ => rfl⟩
    rintro id ids t' ⟨hnodup, ht', hsame⟩
    have hid : id ∉ ids := (nodup_cons.mp hnodup).1
    have hslot : Outcome (tickSlot env) (t'.slots id) (fun _ s' => P s') E := by
      rw [hsame id mem_cons_self]
      exact htick id
    rw [onSlot, outcome_zoom]
    refine hslot.mono (fun _ s' hs' => ⟨(nodup_cons.mp hnodup).2, all_update hs' ht', fun i hi => ?_⟩)
      fun _ hs' => all_update hs' fun i => hPE _ (ht' i)
    have hne : i ≠ id := fun h => hid (h ▸ hi)
    exact (update_of_ne hne _ _).trans (hsame i (mem_cons_of_mem id hi))
  exact hloop.mono (fun _ _ h => h.2.1) fun _ h => h

theorem outcome_exec (hPE : ∀ s, P s → E s) (ht : ∀ id, P (t.slots id)) {op : Op}
    (hcalls : ∀ id x, Calls t env op id x → Outcome x (t.slots id) (fun _ s' => P s') E) :
    Outcome (exec env op) t (fun _ t' => ∀ id, P (t'.slots id)) (fun t' => ∀ id, E (t'.slots id)) := by
  have hid : ∀ (n : Nat) (x : SlotM Unit),
      (∀ id : ConnId, id.val = n → Outcome x (t.slots id) (fun _ s' => P s') E) →
      Outcome (onId n x) t (fun _ t' => ∀ id, P (t'.slots id)) (fun t' => ∀ id, E (t'.slots id)) := by
    intro n x hx
    unfold onId
    split_ifs with hn
    · exact outcome_onSlot hPE ht (hx ⟨n, hn⟩ rfl)
    · exact ht
  cases op with
  | connect dstIp dstPort resolved =>
    rw [exec, outcome_discard, tcpConnect]
    simp only [outcome_bind, outcome_get]
    cases hfree : freeSlot t with
    | none => exact ht
    | some id =>
      simp only [outcome_ite, outcome_bind, outcome_set, outcome_pure]
      refine ⟨fun _ => ?_, fun _ => ht⟩
      exact outcome_onSlot hPE ht (hcalls id _ (Calls.connect hfree))
  | listen port =>
    rw [exec, outcome_discard, tcpListen]
    simp only [outcome_bind, outcome_get]
    cases hfree : freeSlot t with
    | none => exact ht
    | some id =>
      simp only [outcome_bind, outcome_pure]
      exact outcome_onSlot hPE ht (hcalls id _ (Calls.listen hfree))
  | accept listener =>
    rw [exec, outcome_discard, tcpAccept]
    simp only [outcome_bind, outcome_get]
    cases hfound : position t fun c => decide (c.state = .established ∧ c.isServer ∧
        c.acceptPort = (t.slots listener).conn.localPort) with
    | none => exact ht
    | some id =>
      simp only [outcome_bind, outcome_pure]
      have hstate := find?_some hfound
      simp only [decide_eq_true_eq] at hstate
      exact outcome_onSlot hPE ht (hcalls id _ (Calls.accept hstate.1))
  | awaitEstablished id =>
    rw [exec, outcome_discard]
    exact outcome_onSlot hPE ht (outcome_discard.mp (hcalls id _ Calls.awaitEstablished))
  | awaitReadable id =>
    rw [exec, outcome_discard]
    exact outcome_onSlot hPE ht (outcome_discard.mp (hcalls id _ Calls.awaitReadable))
  | read n k =>
    refine hid n _ fun id hn => ?_
    subst hn
    exact hcalls id _ Calls.read
  | write n data =>
    refine hid n _ fun id hn => ?_
    subst hn
    exact hcalls id _ Calls.write
  | close n =>
    refine hid n _ fun id hn => ?_
    subst hn
    exact hcalls id _ Calls.close
  | segment srcIp payload =>
    rw [exec, tcpHandleSegment]
    simp only [outcome_bind, outcome_get, outcome_ite, outcome_pure]
    refine ⟨fun _ => ht, fun hlen => ?_⟩
    cases hfound : findConn t srcIp (parseHeader payload) with
    | none =>
      exact outcome_onUnmatched hPE ht fun id hfree hsyn =>
        hcalls id _ (Calls.syn (by omega) hfound hfree hsyn)
    | some id => exact outcome_onSlot hPE ht (hcalls id _ (Calls.segment (by omega) hfound))
  | tick => exact outcome_tcpTick hPE ht fun id => hcalls id _ Calls.tick

end Keeping

/-- An invariant of the slots, and what is left of it after a panic. -/
structure Invariant (P E : Slot → Prop) (s : System) : Prop where
  always : ∀ id, E (s.table.slots id)
  running : s.panicked = false → ∀ id, P (s.table.slots id)

lemma Invariant.step {P E : Slot → Prop} (hPE : ∀ s, P s → E s) {s : System} {a : Env × Op} (hs : Invariant P E s)
    (hcalls : ∀ id x, (∀ id, P (s.table.slots id)) → Calls s.table a.1 a.2 id x →
      Outcome x (s.table.slots id) (fun _ s' => P s') E) : Invariant P E (step s a) := by
  unfold Tcp.step
  split_ifs with hpanic
  · exact hs
  · have hrun := hs.running (by simpa using hpanic)
    have hexec := outcome_exec hPE hrun fun id x hx => hcalls id x hrun hx
    unfold Outcome at hexec
    revert hexec
    cases exec a.1 a.2 s.table with
    | error t => exact fun h => ⟨h, fun hp => absurd hp (by simp)⟩
    | ok r => exact fun h => ⟨fun id => hPE _ (h id), fun _ => h⟩

end Aeglos.Tcp
