import Aeglos.Proofs.TcpChecksums

/-!
# The checksums of ICMP messages

A reply verifies; the checksum of an echo request leaves out the last 14 bytes.
-/

namespace Aeglos.Net

open Effects List

inductive IcmpCall where
  | ping (resolved : Option Mac) (dstIp : Ip4)
  | request (env : Env) (srcMac : Bytes) (srcIp : Ip4) (payload : Bytes)

def IcmpCall.perform : IcmpCall → NetM Unit
  | .ping resolved dstIp => sendPing resolved dstIp
  | .request env srcMac srcIp payload => handleIcmp env srcMac srcIp payload

/-- The message verifies, and a reply repeats all of the request behind its checksum: the identifier, the
sequence number and the payload. -/
def IcmpCall.Answers : IcmpCall → Bytes → Prop
  | .ping _ _, message => onesSum message = 0xFFFF
  | .request _ _ _ payload, message => onesSum message = 0xFFFF ∧ message.drop 4 = payload.drop 4

def Emits (message : Bytes) (s s' : Stack) : Prop := s'.sent = s.sent ∨ ∃ frame, s'.sent = frame :: s.sent ∧ frame.drop 34 = message

section Messages

variable {message : Bytes} {s s' : Stack}

lemma Emits.of_sent {frame : Bytes} (h : Emits message s s') (hsent : s'.sent = frame :: s.sent) : frame.drop 34 = message := by
  rcases h with hsame | ⟨frame', hsent', hmessage⟩
  · exact absurd (hsent.symm.trans hsame) (cons_ne_self _ _)
  · obtain ⟨rfl, -⟩ := List.cons.inj (hsent.symm.trans hsent')
    exact hmessage

lemma emits_netSendFrame (dst src : Mac) (ident : Nat) (ip ip' : Ip4) (len : Nat) (hlen : message.length ≤ 2014) (hs : s'.sent = s.sent) :
    Outcome (netSendFrame (ethernet dst src 0x0800 (ipv4Header ident 1 ip ip' len ++ message))) s'
      (fun _ s' => Emits message s s') (Emits message s) := by
  rw [outcome_netSendFrame]
  · refine Or.inr ⟨_, congrArg _ hs, ?_⟩
    rw [ethernet, ← append_assoc]
    exact drop_left' (by simp [length_ipv4Header])
  · rw [length_ethernet, length_append, length_ipv4Header]
    omega

def echoReply (request : Bytes) : Bytes :=
  [0, 0] ++ (toBe (ipChecksum ([0, 0] ++ ([0, 0] ++ request.drop 4))) 2 ++ request.drop 4)

lemma emits_handleIcmp (env : Env) (srcMac : Bytes) (srcIp : Ip4) (payload : Bytes) :
    Emits (echoReply payload) s (after (handleIcmp env srcMac srcIp payload) s) := by
  refine outcome_iff_after.mp ?_
  rw [handleIcmp, outcome_ite]
  refine ⟨fun _ => Or.inl rfl, fun hlen => ?_⟩
  rw [outcome_bind, outcome_byte (by omega), outcome_ite, outcome_ite]
  refine ⟨fun _ => ?_, fun _ => ⟨fun _ => Or.inl rfl, fun _ => Or.inl rfl⟩⟩
  rw [sendIcmpEchoReply, outcome_bind, outcome_get, outcome_ite]
  refine ⟨fun _ => Or.inl rfl, fun hfits => ?_⟩
  rw [outcome_bind]
  cases hmac : array6 srcMac with
  | none => exact Or.inl rfl
  | some mac =>
    have hlen : (echoReply payload).length ≤ 2014 := by
      simp [echoReply]
      omega
    exact emits_netSendFrame mac s.mac 0 s.ip srcIp payload.length hlen rfl

lemma emits_sendPing (resolved : Option Mac) (dstIp : Ip4) :
    Emits (pingMessage (ipChecksum ((pingMessage 0).take 26))) s (after (sendPing resolved dstIp) s) := by
  refine outcome_iff_after.mp ?_
  rw [sendPing, outcome_bind, outcome_get, outcome_ite]
  refine ⟨fun _ => Or.inl rfl, fun _ => ?_⟩
  cases resolved with
  | none => exact Or.inl rfl
  | some mac =>
    rw [outcome_bind, outcome_modify]
    exact emits_netSendFrame mac s.mac 0x1234 s.ip dstIp 40 (by simp [pingMessage]) rfl

end Messages

/-- A message that is emitted is what it should be exactly if it is a reply. -/
theorem icmp_message_right_iff (call : IcmpCall) (s : Stack) (frame : Bytes) (h : (after call.perform s).sent = frame :: s.sent) :
    call.Answers (frame.drop 34) ↔ ∀ resolved dstIp, call ≠ .ping resolved dstIp := by
  cases call with
  | ping resolved dstIp =>
    rw [(emits_sendPing resolved dstIp).of_sent h]
    refine iff_of_false ?_ fun hne => hne resolved dstIp rfl
    change ¬onesSum _ = 0xFFFF
    decide +kernel
  | request env srcMac srcIp payload =>
    rw [(emits_handleIcmp env srcMac srcIp payload).of_sent h]
    refine iff_of_true ⟨onesSum_header rfl, ?_⟩ fun resolved dstIp => IcmpCall.noConfusion
    rw [echoReply, ← append_assoc]
    exact drop_left' (by simp)

theorem ping_does_not_verify : ∃ frame, (after (sendPing (some (Vector.replicate 6 0)) (Vector.replicate 4 0))
    { Stack.zeroed with up := true }).sent = frame :: Stack.zeroed.sent ∧ onesSum (frame.drop 34) ≠ 0xFFFF :=
  ⟨_, rfl, by decide +kernel⟩

def echoRequest : IcmpCall := .request ⟨0, 0, ⟨0, []⟩⟩ [0, 0, 0, 0, 0, 0] (Vector.replicate 4 0) [8, 0, 0, 0, 0, 1, 0, 2, 9]

theorem icmp_message_right_iff_reply : ∃ frame, (after echoRequest.perform Stack.zeroed).sent = frame :: Stack.zeroed.sent ∧
    echoRequest.Answers (frame.drop 34) :=
  ⟨_, rfl, (icmp_message_right_iff echoRequest Stack.zeroed _ rfl).mpr fun _ _ => IcmpCall.noConfusion⟩

end Aeglos.Net
