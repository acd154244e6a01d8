import Aeglos.Proofs.TcpReceiver

/-!
# What a TCP connection delivers

Segments of the peer may be lost, repeated, reordered and cut in any way.
-/

namespace Aeglos.Tcp

open Effects TransitionSystem

variable {ordered : Prop}

instance (p : Peer) (h : Header) : Decidable (p.Genuine h) :=
  decidable_of_iff
    ((h.has tcpSyn → h.seq = p.irs) ∧
      (h.data ≠ [] → ∃ k < p.bytes.length + 1, k + h.data.length ≤ p.bytes.length ∧ h.first = p.seqOf k ∧
        h.data = (p.bytes.drop k).take h.data.length) ∧
      (h.has tcpFin → h.first + BitVec.ofNat 32 h.data.length = p.seqOf p.bytes.length))
    ⟨fun ⟨hsyn, hdata, hfin⟩ => ⟨hsyn, fun hne => (hdata hne).imp fun _ hk => hk.2, hfin⟩,
      fun hg => ⟨hg.syn, fun hne => (hg.data hne).imp fun _ hk => ⟨by omega, hk⟩, hg.fin⟩⟩

/-- The peer streams are shorter than half of the sequence space, and a segment that a connection
takes, or that opens one, is the peer's. -/
def FromPeers (s : System) (a : Env × Op) : Prop :=
  a.1.peer.bytes.length < 2 ^ 31 ∧
    match a.2 with
    | .segment srcIp payload =>
      (∀ id ∈ findConn s.table srcIp (parseHeader payload),
        (s.table.slots id).inbound.peer.Genuine (parseHeader payload)) ∧
      (findConn s.table srcIp (parseHeader payload) = none → (parseHeader payload).has tcpSyn →
        a.1.peer.Genuine (parseHeader payload))
    | _ => True

def FinsInOrder (s : System) (a : Env × Op) : Prop :=
  match a.2 with
  | .segment srcIp payload => ∀ id ∈ findConn s.table srcIp (parseHeader payload),
    (s.table.slots id).conn.FinInOrder (parseHeader payload)
  | _ => True

instance (s : System) : ∀ a, Decidable (FromPeers s a)
  | (env, .segment srcIp payload) => inferInstanceAs (Decidable (env.peer.bytes.length < 2 ^ 31 ∧
      (∀ id ∈ findConn s.table srcIp (parseHeader payload),
        (s.table.slots id).inbound.peer.Genuine (parseHeader payload)) ∧
      (findConn s.table srcIp (parseHeader payload) = none → (parseHeader payload).has tcpSyn →
        env.peer.Genuine (parseHeader payload))))
  | (env, .connect ..) | (env, .listen _) | (env, .accept _) | (env, .awaitEstablished _)
  | (env, .awaitReadable _) | (env, .read ..) | (env, .write ..) | (env, .close _) | (env, .tick) =>
    inferInstanceAs (Decidable (env.peer.bytes.length < 2 ^ 31 ∧ True))

instance (s : System) : ∀ a, Decidable (FinsInOrder s a)
  | (_, .segment srcIp payload) => inferInstanceAs (Decidable (∀ id ∈ findConn s.table srcIp (parseHeader payload),
      (s.table.slots id).conn.FinInOrder (parseHeader payload)))
  | (_, .connect ..) | (_, .listen _) | (_, .accept _) | (_, .awaitEstablished _) | (_, .awaitReadable _)
  | (_, .read ..) | (_, .write ..) | (_, .close _) | (_, .tick) => instDecidableTrue

def DeliversInitial (s : System) : Prop :=
  ∀ id, (s.table.slots id).receiver.delivered <+: (s.table.slots id).inbound.peer.bytes

def FinishesComplete (s : System) : Prop :=
  ∀ id, (s.table.slots id).conn.state.Finished → (s.table.slots id).receiver.Complete

instance (v : Receiver) : Decidable v.Complete := inferInstanceAs (Decidable (_ ∧ _))

instance (st : TcpState) : Decidable st.Finished :=
  inferInstanceAs (Decidable (st ∈ [TcpState.closeWait, .closing, .timeWait]))

instance (s : System) : Decidable (FinishesComplete s) :=
  inferInstanceAs (Decidable (∀ id, (s.table.slots id).conn.state.Finished → (s.table.slots id).receiver.Complete))

lemma follows_step {s : System} {a : Env × Op}
    (hs : Invariant (Slot.Follows ordered) (Slot.Follows ordered) s) (hpeers : FromPeers s a)
    (horder : ordered → FinsInOrder s a) : Invariant (Slot.Follows ordered) (Slot.Follows ordered) (step s a) := by
  obtain ⟨env, op⟩ := a
  refine hs.step (fun _ h => h) fun id x hfollows hcall => ?_
  have hid := hfollows id
  cases hcall with
  | connect hfree => exact openSlot_follows hpeers.1 (Or.inl rfl) rfl
  | listen hfree =>
    exact Receiver.Follows.released hid (by decide : TcpState.listen ∈ [TcpState.free, .listen, .closed])
  | accept _ => exact hid
  | awaitEstablished => exact outcome_discard.mpr ((follows_paces.awaitEstablished fun _ _ _ => Slot.Follows.send).kept hid)
  | awaitReadable => exact outcome_discard.mpr (follows_paces.awaitReadable.kept hid)
  | read => exact outcome_discard.mpr (hid.tcpRead _)
  | write => exact outcome_discard.mpr ((follows_paces.tcpWrite _ fun _ _ hs => hs).kept hid)
  | close => exact hid.tcpClose
  | segment hlen hfound =>
    exact hid.onSegment (hpeers.2.1 id hfound) fun hordered => horder hordered id hfound
  | syn hlen hnone hfree hsyn =>
    refine openSlot_follows hpeers.1 (Or.inr ⟨rfl, ?_⟩) rfl
    have hseq : (parseHeader _).seq = env.peer.irs := (hpeers.2.2 hnone hsyn).syn hsyn
    change (parseHeader _).seq + 1 = env.peer.irs + 1 + 0
    rw [hseq]
    simp
  | tick => exact hid.tickSlot

lemma Receiver.follows_unused : Receiver.Follows ordered ⟨.free, 0, none, ⟨⟨0, []⟩, []⟩⟩ where
  short := by decide
  ring r hr := absurd hr (by simp)
  delivers := List.nil_prefix
  next hrec := absurd hrec (by simp [TcpState.Receiving])
  fresh _ := rfl
  complete _ hfin := absurd hfin (by simp [TcpState.Finished])

lemma follows_boot : Invariant (Slot.Follows ordered) (Slot.Follows ordered) boot :=
  ⟨fun _ => Receiver.follows_unused, fun _ _ => Receiver.follows_unused⟩

/-- What has been read and what is in the receive ring is a first part of the peer's stream. -/
theorem tcp_delivers_initial {calls : List (Env × Op)} (hcalls : Guarded step FromPeers boot calls) :
    DeliversInitial (run step boot calls) := by
  have hinv : Invariant (Slot.Follows False) (Slot.Follows False) (run step boot calls) :=
    run_invariant (fun s a hs ha => follows_step hs ha False.elim) follows_boot hcalls
  exact fun id => (hinv.always id).delivers

/-- In every run in which also the FINs arrive in order, a connection that has taken one has
delivered all that the peer sent. -/
theorem tcp_finishes_complete {calls : List (Env × Op)}
    (hcalls : Guarded step (fun s a => FromPeers s a ∧ FinsInOrder s a) boot calls) :
    FinishesComplete (run step boot calls) := by
  have hinv : Invariant (Slot.Follows True) (Slot.Follows True) (run step boot calls) :=
    run_invariant (fun s a hs ha => follows_step hs ha.1 fun _ => ha.2) follows_boot hcalls
  exact fun id hfin => (hinv.always id).complete trivial hfin

def sendingEnv : Env := ⟨0, 1000, fun _ => false, ⟨7, [1, 2]⟩⟩

def reordered : List (Env × Op) :=
  [(sendingEnv, .connect (.v4 1) 80 true),
   (sendingEnv, .segment (.v4 1) [0, 80, 192, 0, 0, 0, 0, 7, 0, 0, 3, 233, 0x50, 0x12, 0, 9, 0, 0, 0, 0]),
   (sendingEnv, .segment (.v4 1) [0, 80, 192, 0, 0, 0, 0, 9, 0, 0, 3, 233, 0x50, 0x10, 0, 9, 0, 0, 0, 0, 2]),
   (sendingEnv, .segment (.v4 1) [0, 80, 192, 0, 0, 0, 0, 8, 0, 0, 3, 233, 0x50, 0x10, 0, 9, 0, 0, 0, 0, 1]),
   (sendingEnv, .segment (.v4 1) [0, 80, 192, 0, 0, 0, 0, 8, 0, 0, 3, 233, 0x50, 0x10, 0, 9, 0, 0, 0, 0, 1]),
   (sendingEnv, .read 0 5)]

theorem tcp_delivers_initial_reordered :
    Guarded step FromPeers boot reordered ∧ DeliversInitial (run step boot reordered) := by
  have hcalls : Guarded step FromPeers boot reordered := by decide +kernel
  exact ⟨hcalls, tcp_delivers_initial hcalls⟩

def finFirst : List (Env × Op) :=
  [(sendingEnv, .connect (.v4 1) 80 true),
   (sendingEnv, .segment (.v4 1) [0, 80, 192, 0, 0, 0, 0, 7, 0, 0, 3, 233, 0x50, 0x12, 0, 9, 0, 0, 0, 0]),
   (sendingEnv, .segment (.v4 1) [0, 80, 192, 0, 0, 0, 0, 10, 0, 0, 3, 233, 0x50, 0x11, 0, 9, 0, 0, 0, 0])]

theorem fin_first_incomplete :
    Guarded step FromPeers boot finFirst ∧ ¬FinishesComplete (run step boot finFirst) := by decide +kernel

def finWithData : List (Env × Op) :=
  [(sendingEnv, .connect (.v4 1) 80 true),
   (sendingEnv, .segment (.v4 1) [0, 80, 192, 0, 0, 0, 0, 7, 0, 0, 3, 233, 0x50, 0x12, 0, 9, 0, 0, 0, 0]),
   (sendingEnv, .segment (.v4 1) [0, 80, 192, 0, 0, 0, 0, 8, 0, 0, 3, 233, 0x50, 0x11, 0, 9, 0, 0, 0, 0, 1, 2])]

theorem tcp_finishes_complete_with_data :
    Guarded step (fun s a => FromPeers s a ∧ FinsInOrder s a) boot finWithData ∧
      FinishesComplete (run step boot finWithData) := by
  have hcalls : Guarded step (fun s a => FromPeers s a ∧ FinsInOrder s a) boot finWithData := by decide +kernel
  exact ⟨hcalls, tcp_finishes_complete hcalls⟩

end Aeglos.Tcp
