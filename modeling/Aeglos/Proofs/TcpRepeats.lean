import Aeglos.Proofs.TcpStream
import Aeglos.Proofs.TcpSteps

/-!
# Sequence numbers of SYNs and FINs

A SYN or a FIN that is sent again should carry the number that it had at first.
-/

namespace Aeglos.Tcp

open Effects TransitionSystem List

def Repeats (flag : UInt8) (sent : List Segment) : Prop :=
  ∀ a ∈ sent, ∀ b ∈ sent, a.flags &&& flag ≠ 0 → b.flags &&& flag ≠ 0 → a.seq = b.seq

instance (flag : UInt8) (sent : List Segment) : Decidable (Repeats flag sent) :=
  inferInstanceAs (Decidable (∀ a ∈ sent, ∀ b ∈ sent, _ → _ → _))

/-- The SYNs, or SYN-ACKs, of a connection carry one number, and so do its FINs. -/
abbrev Stream.RepeatsNumbers (st : Stream) : Prop := Repeats tcpSyn st.sent ∧ Repeats tcpFin st.sent

/-- `tcp_tick` resends no SYN-ACK, no FIN in LastAck, and a FIN in FinWait1 only once everything before it is
acknowledged. -/
structure Slot.TickRepeats (env : Env) (s : Slot) : Prop where
  synRcvd : s.conn.state = .synRcvd → s.conn.waited env (retxInit * 10) → retxMax ≤ s.conn.retxCount
  lastAck : s.conn.state = .lastAck → s.conn.waited env lastackTimeout → retxMax ≤ s.conn.retxCount
  finWait1 : s.conn.state = .finWait1 → s.conn.expired env → s.conn.retxCount < retxMax →
    ∀ seg ∈ s.stream.sent, seg.flags &&& tcpFin ≠ 0 → seg.seq = s.conn.sndUna

/-- The call waits only for a connection that `tcp_connect` opened, and a tick resends nothing with
another number. -/
def CallRepeats (s : System) : Env × Op → Prop
  | (env, .awaitEstablished id) =>
    (s.table.slots id).conn.state ∈ [.synSent, .established, .closed, .free] ∨
      ¬((s.table.slots id).conn.retxTicks ≤ env.ticks ∧ (s.table.slots id).conn.retxCount < retxMax)
  | (env, .tick) => ∀ id, (s.table.slots id).TickRepeats env
  | _ => True

def unclosed : List TcpState := [.synSent, .synRcvd, .established, .closeWait]

structure Stream.Numbered (st : Stream) : Prop where
  syn : ∀ seg ∈ st.sent, seg.flags &&& tcpSyn ≠ 0 → seg.seq = st.isn
  fin : Repeats tcpFin st.sent

structure Slot.Numbered (s : Slot) : Prop where
  stream : s.stream.Numbered
  synSent : s.conn.state = .synSent → s.conn.sndUna = s.stream.isn
  unclosed : s.conn.state ∈ unclosed → ∀ seg ∈ s.stream.sent, seg.flags &&& tcpFin = 0

lemma Stream.Numbered.repeats {st : Stream} (h : st.Numbered) : st.RepeatsNumbers :=
  ⟨fun a ha b hb hsyn hsyn' => (h.syn a ha hsyn).trans (h.syn b hb hsyn').symm, h.fin⟩

section Slot

variable {env : Env} {s : Slot} {h : Header} {flags : UInt8}

lemma Slot.Numbered.closed (st : TcpState) (hs : s.stream.Numbered) (hst : s.conn.state = st)
    (hclosed : st ∉ Tcp.unclosed) : s.Numbered where
  stream := hs
  synSent h := absurd (by rw [← hst, h]; decide) hclosed
  unclosed h := absurd (hst ▸ h) hclosed

lemma Slot.Numbered.conn (hs : s.Numbered) {c : TcpConn} (hst : c.state = s.conn.state) (huna : c.sndUna = s.conn.sndUna) :
    Slot.Numbered { s with conn := c } :=
  ⟨hs.stream, fun h => huna.trans (hs.synSent (hst ▸ h)), fun h => hs.unclosed (hst ▸ h)⟩

lemma Stream.Numbered.send (hs : s.stream.Numbered) {data : Bytes} (hsyn : flags &&& tcpSyn ≠ 0 → s.conn.sndNxt = s.stream.isn)
    (hfin : flags &&& tcpFin ≠ 0 → ∀ seg ∈ s.stream.sent, seg.flags &&& tcpFin ≠ 0 → seg.seq = s.conn.sndNxt) :
    (s.send env flags data).stream.Numbered := by
  unfold Slot.send
  split_ifs
  · refine ⟨fun seg hseg hflag => ?_, fun a ha b hb hfa hfb => ?_⟩
    · rcases mem_cons.mp hseg with rfl | hold
      · exact hsyn hflag
      · exact hs.syn seg hold hflag
    · rcases mem_cons.mp ha with rfl | ha <;> rcases mem_cons.mp hb with rfl | hb
      · rfl
      · exact (hfin hfa b hb hfb).symm
      · exact hfin hfb a ha hfa
      · exact hs.fin a ha b hb hfa hfb
  · exact hs

lemma Slot.Numbered.send (hs : s.Numbered) {data : Bytes} (hsyn : flags &&& tcpSyn ≠ 0 → s.conn.sndNxt = s.stream.isn)
    (hfin : flags &&& tcpFin = 0) : (s.send env flags data).Numbered := by
  have hstream : (s.send env flags data).stream.Numbered := hs.stream.send hsyn fun h => absurd hfin h
  revert hstream
  unfold Slot.send
  split_ifs
  · refine fun hstream => ⟨hstream, hs.synSent, fun hst seg hseg => ?_⟩
    rcases mem_cons.mp hseg with rfl | hold
    · exact hfin
    · exact hs.unclosed hst seg hold
  · exact fun _ => hs

lemma numbered_responds :
    Responds (Keeping Slot.Numbered Slot.Numbered) (Keeping Slot.Numbered fun s => s.stream.Numbered) where
  toPaces := keeping_paces Slot.Numbered.stream (fun hc hs => hs.conn hc.state hc.sndUna)
    fun _ _ hs => hs.send (fun h => absurd h (by decide)) (by decide)
  receive _ _ _ hs := ⟨hs.stream, hs.synSent, hs.unclosed⟩
  window _ hs := hs.conn rfl rfl
  move := by
    rintro s c ⟨hst, -, -, -⟩ hs
    refine ⟨hs.stream, fun h => ?_, fun h => hs.unclosed ?_⟩
    · rw [show c.state = _ from h] at hst
      cases hold : s.conn.state <;> simp [hold, TcpState.followers] at hst
    · revert hst h
      change c.state ∈ _ → c.state ∈ _ → _
      cases s.conn.state <;> cases c.state <;> simp [TcpState.followers, unclosed]
  release hs := Slot.Numbered.closed .free hs.stream rfl (by decide)
  start _ _ _ hs := hs.stream

def NumberedActs {α : Type} (x : SlotM α) (s : Slot) : Prop :=
  Outcome x s (fun _ s' => s'.Numbered) (fun s' => s'.stream.Numbered)

lemma numbered_openSlot {c : TcpConn} (hfin : flags &&& tcpFin = 0) (huna : c.sndUna = c.sndNxt) :
    NumberedActs (openSlot env c flags) s := by
  have hfresh : Slot.Numbered ⟨c, ⟨c.sndNxt, [], []⟩, ⟨env.peer, []⟩⟩ :=
    ⟨⟨by simp, by simp [Repeats]⟩, fun _ => huna, by simp⟩
  exact (hfresh.send (fun _ => rfl) hfin).conn rfl rfl

lemma Slot.Numbered.tcpClose (hs : s.Numbered) : NumberedActs (tcpClose env) s := by
  have hsend : s.conn.state ∈ Tcp.unclosed → (s.send env (tcpFin ||| tcpAck) []).stream.Numbered := fun hst =>
    hs.stream.send (fun h => absurd h (by decide)) fun _ seg hseg hfin => absurd (hs.unclosed hst seg hseg) hfin
  rw [NumberedActs, Tcp.tcpClose]
  simp only [outcome_bind, outcome_get]
  split
  · next hst => exact Slot.Numbered.closed .finWait1 (hsend (by rw [hst]; decide)) rfl (by decide)
  · next hst => exact Slot.Numbered.closed .lastAck (hsend (by rw [hst]; decide)) rfl (by decide)
  · exact Slot.Numbered.closed .free hs.stream rfl (by decide)

lemma Slot.Numbered.onSegment (hs : s.Numbered) : NumberedActs (onSegment env h) s := by
  by_cases hrst : h.has tcpRst
  · rw [NumberedActs, Tcp.onSegment, if_pos hrst]
    exact Slot.Numbered.closed .closed hs.stream rfl (by decide)
  · refine (numbered_responds.onSegment hrst fun hst _ _ hwnd => ?_).kept hs
    refine ⟨hwnd.stream, fun h => absurd hst ?_, hwnd.unclosed⟩
    rw [show s.conn.state = _ from h]
    decide

lemma Slot.Numbered.tickSlot (hs : s.Numbered) (htick : s.TickRepeats env) : NumberedActs (tickSlot env) s := by
  refine (numbered_responds.tickSlot numbered_responds.release (fun hst hw hcount => ?_) (fun hst hw hcount => ?_)
    fun _ hexp => ⟨fun _ s' _ hs' => Slot.Numbered.closed .closed hs'.stream rfl (by decide),
      fun hst hcount s' data hprobed hnxt hs' => ?_⟩).kept hs
  · exact absurd (htick.synRcvd hst hw) (Nat.not_le.mpr hcount)
  · exact absurd (htick.lastAck hst hw) (Nat.not_le.mpr hcount)
  · refine Slot.Numbered.closed .finWait1 (hs'.stream.send (fun h => absurd h (by decide)) fun _ seg hseg hflag => ?_) ?_ (by decide)
    · have hold := (hprobed.sent seg hseg).resolve_right fun hack => absurd (hack ▸ hflag) (by decide)
      rw [hnxt]
      exact htick.finWait1 hst hexp hcount seg hold hflag
    · rw [Slot.send_conn, hprobed.conn.state, hst]

end Slot

lemma numbered_step {s : System} {a : Env × Op} (hs : Invariant Slot.Numbered (fun s => s.stream.Numbered) s)
    (ha : CallRepeats s a) : Invariant Slot.Numbered (fun s => s.stream.Numbered) (step s a) := by
  obtain ⟨env, op⟩ := a
  refine hs.step (fun _ h => h.stream) fun id x hall hcall => ?_
  have hid := hall id
  cases hcall with
  | connect _ => exact numbered_openSlot (by decide) rfl
  | listen _ => exact Slot.Numbered.closed .listen hid.stream rfl (by decide)
  | accept _ => exact hid.conn rfl rfl
  | awaitEstablished =>
    refine outcome_discard.mpr ((numbered_responds.awaitEstablished fun hst hticks hcount hback => ?_).kept hid)
    have hsyn := ha.resolve_right (not_not_intro ⟨hticks, hcount⟩)
    simp only [mem_cons, hst, or_false] at hsyn
    exact hback.send (fun _ => hid.synSent hsyn) (by decide)
  | awaitReadable => exact outcome_discard.mpr (numbered_responds.awaitReadable.kept hid)
  | read => exact outcome_discard.mpr ((numbered_responds.tcpRead _).kept hid)
  | write =>
    refine outcome_discard.mpr ((numbered_responds.tcpWrite _ fun tx _ hs' => ?_).kept hid)
    exact ⟨⟨hs'.stream.syn, hs'.stream.fin⟩, hs'.synSent, hs'.unclosed⟩
  | close => exact hid.tcpClose
  | segment _ _ => exact hid.onSegment
  | syn _ _ _ _ => exact numbered_openSlot (by decide) rfl
  | tick => exact hid.tickSlot (ha id)

def silentClient : List (Env × Op) :=
  [(quietEnv, .listen 80),
   (quietEnv, .segment (.v4 1) [0, 5, 0, 80, 0, 0, 0, 7, 0, 0, 0, 0, 0x50, 0x02, 0, 9, 0, 0, 0, 0]),
   ({ quietEnv with ticks := 500 }, .tick)]

theorem syn_ack_renumbered : ¬((run step boot silentClient).table.slots 1).stream.RepeatsNumbers := by
  decide +kernel

/-- Without such calls every SYN, SYN-ACK and FIN carries the number of its first transmission. -/
theorem repeats_first_numbers {calls : List (Env × Op)} (hcalls : Guarded step CallRepeats boot calls) (id : ConnId) :
    ((run step boot calls).table.slots id).stream.RepeatsNumbers := by
  have hboot : ∀ id, (boot.table.slots id).Numbered := fun _ =>
    Slot.Numbered.closed .free ⟨by simp [boot], by simp [boot, Repeats]⟩ rfl (by decide)
  have hinv : Invariant Slot.Numbered (fun s => s.stream.Numbered) (run step boot calls) :=
    run_invariant (fun s a => numbered_step) ⟨fun id => (hboot id).stream, fun _ => hboot⟩ hcalls
  exact (hinv.always id).repeats

theorem repeats_first_numbers_syn :
    let calls := [(quietEnv, .connect (.v4 1) 80 true), ({ quietEnv with ticks := 50 }, .awaitEstablished 0)]
    ((run step boot calls).table.slots 0).stream.sent.map Segment.seq = [1000, 1000] ∧
      ((run step boot calls).table.slots 0).stream.RepeatsNumbers := by
  intro calls
  have hcalls : Guarded step CallRepeats boot calls := ⟨trivial, Or.inl (by decide +kernel), trivial⟩
  exact ⟨by decide +kernel, repeats_first_numbers hcalls 0⟩

end Aeglos.Tcp
