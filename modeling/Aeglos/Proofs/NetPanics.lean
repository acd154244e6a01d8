import Aeglos.Kernel.NetReceive
import Aeglos.Proofs.TcpPanics

/-!
# Frames that stop the receive path

For every state of the stack and every frame, `handle_frame` returns or stops at a read out of
range.
-/

namespace Aeglos.Net

open Effects Slices Option

section Reads

variable {p : Bytes} {i a n : Nat} {s : Stack} {E : Stack → Prop}

@[irreducible] def fieldAt (n : Nat) (p : Bytes) (a : Nat) : Vector UInt8 n := Vector.ofFn fun i => p.getD (a + i) 0

lemma arrayOf_eq (hn : n ≤ p.length) : arrayOf n p = some (fieldAt n p 0) := by
  rw [arrayOf, dif_pos hn, fieldAt]
  congr 2
  funext i
  rw [Nat.zero_add, List.getD_eq_getElem?_getD, List.getElem?_eq_getElem (by omega)]
  rfl

lemma fieldAt_slice (p : Bytes) (a : Nat) : fieldAt n ((p.drop a).take n) 0 = fieldAt n p a := by
  unfold fieldAt
  congr 1
  funext i
  rw [List.getD_eq_getElem?_getD, List.getD_eq_getElem?_getD, List.getElem?_take, if_pos (by omega), List.getElem?_drop]
  congr 2
  omega

lemma outcome_byte {Q : UInt8 → Stack → Prop} (hi : i < p.length) :
    Outcome (byte p i) s Q E ↔ Q (p.getD i 0) s := by
  rw [byte, outcome_index hi, List.getD_eq_getElem?_getD, List.getElem?_eq_getElem hi]
  rfl

lemma be16_eq (hi : i + 1 < p.length) : be16 p i = some (Tcp.be16 p i) := by
  rw [be16, Tcp.be16, List.getD_eq_getElem?_getD, List.getD_eq_getElem?_getD, List.getElem?_eq_getElem hi,
    List.getElem?_eq_getElem (by omega : i < p.length)]
  rfl

lemma be32_eq (hi : i + 3 < p.length) : be32 p i = some (Tcp.be32 p i) := by
  rw [be32, be16_eq (by omega), be16_eq (by omega)]
  rfl

lemma readHeader_eq (hlen : 20 ≤ p.length) : readHeader p = some (Tcp.parseHeader p) := by
  have hbyte : ∀ i < 20, p[i]? = some (p.getD i 0) := by
    intro i hi
    rw [List.getD_eq_getElem?_getD, List.getElem?_eq_getElem (by omega)]
    rfl
  unfold readHeader Tcp.parseHeader
  rw [be16_eq (by omega), be16_eq (by omega), be32_eq (by omega), be32_eq (by omega), be16_eq (by omega),
    hbyte 12 (by omega), hbyte 13 (by omega)]
  simp only [bind_eq_bind, bind_some]
  split_ifs with hdoff
  · rw [sliceFrom_eq_some hdoff]
    rfl
  · rfl

lemma outcome_word {Q : Nat → Stack → Prop} (hi : i + 1 < p.length) :
    Outcome (word p i) s Q E ↔ Q (Tcp.be16 p i) s := by
  rw [word, be16_eq hi, outcome_orStop_some]

lemma outcome_cut {Q : Bytes → Stack → Prop} {b : Nat} (hab : a ≤ b) (hb : b ≤ p.length) :
    Outcome (cut p a b) s Q E ↔ Q ((p.drop a).take (b - a)) s := outcome_slice hab hb

lemma outcome_cutFrom {Q : Bytes → Stack → Prop} (ha : a ≤ p.length) :
    Outcome (cutFrom p a) s Q E ↔ Q (p.drop a) s := outcome_sliceFrom ha

lemma outcome_arrayOf {Q : Vector UInt8 n → Stack → Prop} (hn : n ≤ p.length) :
    Outcome (orStop (arrayOf n p)) s Q E ↔ Q (fieldAt n p 0) s := by
  rw [arrayOf_eq hn, outcome_orStop_some]

lemma outcome_arrayAt {Q : Vector UInt8 n → Stack → Prop} (ha : a + n ≤ p.length) :
    Outcome (arrayAt n p a) s Q E ↔ Q (fieldAt n p a) s := by
  rw [arrayAt, outcome_bind, outcome_cut (by omega) ha, Nat.add_sub_cancel_left, outcome_arrayOf, fieldAt_slice]
  rw [List.length_take, List.length_drop]
  omega

end Reads

section Frames

variable {s : Stack} {E : Stack → Prop} {Q : Unit → Stack → Prop}

@[simp] lemma length_toBe (n width : Nat) : (toBe n width).length = width := by
  rw [toBe, List.length_reverse, length_toLe]

lemma toBe_two (v : Nat) : toBe v 2 = [UInt8.ofNat (v / 256), UInt8.ofNat v] := by
  simp [toBe, toLe]

lemma length_ethernet (dst src : Mac) (ethertype : Nat) (body : Bytes) :
    (ethernet dst src ethertype body).length = 14 + body.length := by
  simp [ethernet]
  omega

lemma length_ipv4Header (ident : Nat) (proto : UInt8) (src dst : Ip4) (len : Nat) :
    (ipv4Header ident proto src dst len).length = 20 := by
  simp [ipv4Header]

lemma length_ipv6Header (nextHeader hopLimit : UInt8) (src dst : Ip6) (len : Nat) :
    (ipv6Header nextHeader hopLimit src dst len).length = 40 := by
  simp [ipv6Header]

lemma outcome_netSendFrame {frame : Bytes} (hlen : frame.length ≤ 2048) :
    Outcome (netSendFrame frame) s Q E ↔ Q () { s with sent := frame :: s.sent } := by
  rw [netSendFrame]
  simp only [outcome_bind, outcome_ite, outcome_stop, outcome_modify]
  exact ⟨fun h => h.2 (by omega), fun h => ⟨fun hbig => absurd hbig (by omega), fun _ => h⟩⟩

end Frames

section Handlers

variable {env : Env} {s : Stack} {srcMac data payload : Bytes} {src dst : Ip6} {mac : Mac}

lemma returns_sendArpReply {ip : Ip4} : Returns (sendArpReply ip mac) s := by
  rw [Returns, sendArpReply, outcome_bind, outcome_get, outcome_netSendFrame]
  · trivial
  · simp [arpFrame, length_ethernet]

lemma returns_handleArp : Returns (handleArp payload) s := by
  rw [Returns, handleArp, outcome_ite]
  refine ⟨fun _ => trivial, fun hlen => ?_⟩
  simp (disch := omega) only [outcome_bind, outcome_word, outcome_ite, outcome_pure]
  refine ⟨fun _ => trivial, fun _ => ?_⟩
  simp (disch := omega) only [outcome_arrayAt, outcome_get, arpLearn, outcome_modify]
  exact ⟨fun _ => returns_sendArpReply, fun _ => trivial⟩

lemma returns_sendIcmpEchoReply {ip : Ip4} (hmac : 6 ≤ srcMac.length) (hlen : 8 ≤ payload.length) :
    Returns (sendIcmpEchoReply srcMac ip payload) s := by
  rw [Returns, sendIcmpEchoReply]
  simp only [outcome_bind, outcome_get, outcome_ite, outcome_pure]
  refine ⟨fun _ => trivial, fun hfits => ?_⟩
  rw [array6, outcome_arrayOf hmac, outcome_netSendFrame]
  · trivial
  · simp [length_ethernet, length_ipv4Header]
    omega

lemma returns_handleIcmp {ip : Ip4} (hmac : 6 ≤ srcMac.length) : Returns (handleIcmp env srcMac ip payload) s := by
  rw [Returns, handleIcmp, outcome_ite]
  refine ⟨fun _ => trivial, fun hlen => ?_⟩
  simp (disch := omega) only [outcome_bind, outcome_byte, outcome_ite, outcome_modify, outcome_pure]
  exact ⟨fun _ => returns_sendIcmpEchoReply hmac (by omega), fun _ => ⟨fun _ => trivial, fun _ => trivial⟩⟩

lemma parseOptionTll_isSome {opts : Bytes} {turns i : Nat} (hi : i ≤ opts.length) (hturns : opts.length < i + turns) :
    (parseOptionTll opts turns i).isSome := by
  induction turns generalizing i with
  | zero => omega
  | succ turns ih =>
    rw [parseOptionTll]
    split_ifs with hroom
    · rw [List.getElem?_eq_getElem (by omega : i < opts.length),
        List.getElem?_eq_getElem (by omega : i + 1 < opts.length), sliceFrom_eq_some hroom]
      simp only [bind_eq_bind, bind_some]
      split_ifs with hlast hfound
      · rfl
      · rw [array6, arrayOf_eq (by rw [List.length_drop]; omega)]
        rfl
      · exact ih (by omega) (by omega)
    · rfl

lemma returns_handleNa : Returns (handleNa data) s := by
  rw [Returns, handleNa, outcome_ite]
  refine ⟨fun _ => trivial, fun hlen => ?_⟩
  simp (disch := omega) only [outcome_bind, outcome_arrayAt, outcome_cutFrom]
  have hsome := parseOptionTll_isSome (Nat.zero_le _) (by omega : (data.drop 20).length < 0 + ((data.drop 20).length + 1))
  obtain ⟨found, hfound⟩ := isSome_iff_exists.mp hsome
  rw [hfound, outcome_orStop_some]
  cases found with
  | none => trivial
  | some mac => trivial

lemma length_withChecksum6 {body : Bytes} (hlen : 4 ≤ body.length) :
    (withChecksum6 src dst body).length = body.length := by
  simp [withChecksum6]
  omega

lemma returns_buildAndSendV6 {dstMac mac : Mac} {body : Bytes} :
    Returns (buildAndSendV6 src dst dstMac mac body) s := by
  rw [Returns, buildAndSendV6, outcome_ite]
  refine ⟨fun _ => trivial, fun hfits => ?_⟩
  rw [outcome_netSendFrame]
  · trivial
  · simp [length_ethernet, length_ipv6Header]
    omega

lemma returns_sendNa {ip target : Ip6} : Returns (sendNa ip mac target) s := by
  rw [Returns, sendNa, outcome_bind, outcome_get]
  exact returns_buildAndSendV6

lemma returns_handleNs {ip : Ip6} : Returns (handleNs ip mac data) s := by
  rw [Returns, handleNs, outcome_ite]
  refine ⟨fun _ => trivial, fun hlen => ?_⟩
  rw [outcome_bind, outcome_arrayAt (by omega), outcome_bind, outcome_get, outcome_ite]
  refine ⟨fun _ => trivial, fun _ => ?_⟩
  rw [ndpLearn, outcome_bind, outcome_modify]
  exact returns_sendNa

lemma returns_raOptions {turns off : Nat} (hoff : off ≤ data.length) (hturns : data.length < off + turns) :
    Returns (raOptions data turns off) s := by
  induction turns generalizing off s with
  | zero => omega
  | succ turns ih =>
    rw [Returns, raOptions, outcome_ite]
    refine ⟨fun _ => trivial, fun hroom => ?_⟩
    simp (disch := omega) only [outcome_bind, outcome_byte]
    rw [outcome_ite]
    refine ⟨fun _ => trivial, fun hopt => ?_⟩
    have hnext : ∀ s, Returns (raOptions data turns (off + (data.getD (off + 1) 0).toNat * 8)) s :=
      fun s => ih (by omega) (by omega)
    rw [outcome_ite]
    refine ⟨fun hprefix => ?_, fun _ => hnext s⟩
    simp (disch := omega) only [outcome_bind, outcome_byte, outcome_ite, outcome_arrayAt, outcome_modify]
    exact ⟨fun _ => hnext _, fun _ => hnext _⟩

lemma returns_handleRa {ip : Ip6} : Returns (handleRa ip mac data) s := by
  rw [Returns, handleRa, outcome_ite]
  refine ⟨fun _ => trivial, fun hlen => ?_⟩
  simp only [outcome_bind, outcome_modify, ndpLearn]
  exact returns_raOptions (by omega) (by omega)

lemma returns_handleEchoRequest : Returns (handleEchoRequest src dst data) s := by
  rw [Returns, handleEchoRequest, outcome_ite]
  refine ⟨fun _ => trivial, fun hlen => ?_⟩
  simp only [outcome_bind, outcome_get, outcome_ite, outcome_pure]
  refine ⟨fun _ => trivial, fun hfits => ?_⟩
  cases s.ndp.lookup src with
  | none => trivial
  | some mac =>
    simp (disch := omega) only [outcome_bind, outcome_byte]
    rw [outcome_netSendFrame]
    · trivial
    · rw [length_ethernet, List.length_append, length_ipv6Header, length_withChecksum6 (by simp)]
      simp only [List.length_append, List.length_cons, List.length_nil, List.length_drop]
      omega

lemma returns_handleIcmpv6 (hmac : 6 ≤ srcMac.length) : Returns (handleIcmpv6 env srcMac src dst data) s := by
  rw [Returns, handleIcmpv6, outcome_ite]
  refine ⟨fun _ => trivial, fun hlen => ?_⟩
  simp (disch := omega) only [outcome_bind, outcome_byte, outcome_ite, array6, outcome_arrayOf, outcome_cutFrom,
    outcome_pure]
  refine ⟨fun _ => returns_handleEchoRequest, fun _ => ⟨fun _ => ?_, fun _ => ⟨fun _ => returns_handleRa, fun _ =>
    ⟨fun _ => returns_handleNs, fun _ => ⟨fun _ => returns_handleNa, fun _ => trivial⟩⟩⟩⟩⟩
  rw [handleEchoReply, outcome_ite]
  refine ⟨fun _ => trivial, fun hreply => ?_⟩
  simp (disch := omega) only [outcome_bind, outcome_word, outcome_ite, outcome_modify, outcome_pure]
  exact ⟨fun _ => trivial, fun _ => trivial⟩

end Handlers

section Datagrams

variable {env : Env} {s : Stack} {data : Bytes}

lemma DhcpOptions.read_isSome (o : DhcpOptions) (tag : UInt8) (v : Bytes) : (o.read tag v).isSome := by
  unfold DhcpOptions.read
  split_ifs with h1 h3 h6 h51 h53 h54 h58
  · rw [array4, arrayOf_eq h1.2]
    rfl
  · rw [array4, arrayOf_eq h3.2]
    rfl
  · rw [array4, arrayOf_eq h6.2]
    rfl
  · rw [be32_eq (by omega)]
    rfl
  · rw [List.getElem?_eq_getElem (by omega : 0 < v.length)]
    rfl
  · rw [array4, arrayOf_eq h54.2]
    rfl
  · rw [be32_eq (by omega)]
    rfl
  · rfl

lemma dhcpOptions_isSome {turns i : Nat} {o : DhcpOptions} (hturns : data.length ≤ i + turns) (hpos : 0 < turns) :
    (dhcpOptions data turns i o).isSome := by
  induction turns generalizing i o with
  | zero => omega
  | succ turns ih =>
    rw [dhcpOptions]
    split_ifs with hroom
    · rw [List.getElem?_eq_getElem (by omega : i < data.length), List.getElem?_eq_getElem hroom]
      simp only [bind_eq_bind, bind_some]
      split_ifs with hend hpad hlast
      · rfl
      · obtain ⟨o', ho'⟩ := isSome_iff_exists.mp (ih (i := i + 1) (o := o) (by omega) (by omega))
        rw [ho']
        rfl
      · rfl
      · rw [slice_eq_some (by omega) (by omega)]
        obtain ⟨o', ho'⟩ := isSome_iff_exists.mp
          (o.read_isSome data[i] ((data.drop (i + 2)).take (i + 2 + data[i + 1].toNat - (i + 2))))
        simp only [bind_some, ho']
        exact ih (by omega) (by omega)
    · rfl

lemma returns_resolveMacNonblocking {dst : Ip4} : Returns (resolveMacNonblocking dst) s := by
  rw [Returns, resolveMacNonblocking, outcome_ite]
  refine ⟨fun _ => trivial, fun _ => ?_⟩
  rw [outcome_bind, outcome_get]
  dsimp only
  split
  · trivial
  · rw [outcome_bind, sendArpRequest, outcome_bind, outcome_get, outcome_netSendFrame]
    · trivial
    · simp [arpFrame, length_ethernet]

lemma returns_udpSend {dst : Ip4} {dstPort srcPort : Nat} : Returns (udpSend dst dstPort srcPort data) s := by
  rw [Returns, udpSend, outcome_bind, outcome_get, outcome_ite]
  refine ⟨fun _ => trivial, fun _ => ?_⟩
  rw [outcome_ite]
  refine ⟨fun _ => trivial, fun hfits => ?_⟩
  rw [outcome_bind]
  refine returns_resolveMacNonblocking.mono (fun mac s' _ => ?_) fun _ h => h
  dsimp only
  rw [outcome_bind, outcome_netSendFrame]
  · trivial
  · rw [length_ethernet, List.length_append, length_ipv4Header]
    simp only [List.length_append, List.length_cons, List.length_nil, length_toBe]
    omega

lemma returns_handleDhcpPacket {srcPort : Nat} : Returns (handleDhcpPacket env srcPort data) s := by
  rw [Returns, handleDhcpPacket, outcome_ite]
  refine ⟨fun _ => trivial, fun _ => ?_⟩
  rw [outcome_ite]
  refine ⟨fun _ => trivial, fun hlen => ?_⟩
  rw [outcome_bind, outcome_byte (by omega), outcome_ite]
  refine ⟨fun _ => trivial, fun _ => ?_⟩
  rw [outcome_bind, be32_eq (by omega), outcome_orStop_some, outcome_bind, outcome_get, outcome_ite]
  refine ⟨fun _ => trivial, fun _ => ?_⟩
  rw [outcome_bind, outcome_arrayAt (by omega), outcome_bind]
  obtain ⟨o, ho⟩ := isSome_iff_exists.mp
    (dhcpOptions_isSome (i := 240) (o := DhcpOptions.default) (by omega : data.length ≤ 240 + data.length) (by omega))
  rw [ho, outcome_orStop_some, outcome_bind, outcome_get, outcome_ite]
  refine ⟨fun _ => ?_, fun _ => ?_⟩
  · rw [onOffer, outcome_bind, outcome_modify, sendRequest, outcome_bind, outcome_get, outcome_discard]
    exact returns_udpSend
  · rw [outcome_ite]
    exact ⟨fun _ => trivial, fun _ => trivial⟩

lemma skipQuestionName_isSome {turns off : Nat} (hturns : data.length < off + turns) (hpos : 0 < turns) :
    (skipQuestionName data turns off).isSome := by
  induction turns generalizing off with
  | zero => omega
  | succ turns ih =>
    rw [skipQuestionName]
    split_ifs with hend
    · rfl
    · rw [List.getElem?_eq_getElem (by omega : off < data.length)]
      simp only [bind_eq_bind, bind_some]
      split_ifs
      · rfl
      · rfl
      · exact ih (by omega) (by omega)

lemma skipQuestions_isSome (qdcount off : Nat) : (skipQuestions data qdcount off).isSome := by
  induction qdcount generalizing off with
  | zero => rfl
  | succ qdcount ih =>
    obtain ⟨next, hnext⟩ := isSome_iff_exists.mp
      (skipQuestionName_isSome (by omega : data.length < off + (data.length + 1)) (Nat.succ_pos _))
    rw [skipQuestions, hnext]
    cases next with
    | none => rfl
    | some next => exact ih _

lemma skipAnswerLabels_isSome {turns off : Nat} (hturns : data.length < off + turns) (hpos : 0 < turns) :
    (skipAnswerLabels data turns off).isSome := by
  induction turns generalizing off with
  | zero => omega
  | succ turns ih =>
    rw [skipAnswerLabels]
    split_ifs with hend
    · rfl
    · rw [List.getElem?_eq_getElem (by omega : off < data.length)]
      simp only [bind_eq_bind, bind_some]
      split_ifs
      · rfl
      · exact ih (by omega) (by omega)

lemma skipAnswerName_isSome (off : Nat) : (skipAnswerName data off).isSome := by
  rw [skipAnswerName]
  split_ifs with hend
  · rfl
  · rw [List.getElem?_eq_getElem (by omega : off < data.length)]
    simp only [bind_eq_bind, bind_some]
    split_ifs
    · rfl
    · exact skipAnswerLabels_isSome (by omega) (Nat.succ_pos _)

lemma answers_isSome (ancount off : Nat) (found : Option Tcp.IpAddr) : (answers data ancount off found).isSome := by
  induction ancount generalizing off found with
  | zero => rfl
  | succ ancount ih =>
    have hname : (skipAnswerName data off).isSome := skipAnswerName_isSome off
    obtain ⟨next, hnext⟩ := isSome_iff_exists.mp hname
    rw [answers, hnext]
    cases next with
    | none => rfl
    | some off =>
      simp only [bind_eq_bind, bind_some]
      split_ifs with hheader
      · rfl
      · rw [be16_eq (by omega), be16_eq (by omega)]
        simp only [bind_some]
        split_ifs with hrecord ha haaaa
        · rfl
        · rw [slice_eq_some (by omega) (by omega), bind_some, array4, arrayOf_eq]
          · rfl
          · rw [List.length_take, List.length_drop]
            omega
        · rw [slice_eq_some (by omega) (by omega), bind_some, array16, arrayOf_eq]
          · obtain ⟨rest, hrest⟩ := isSome_iff_exists.mp (ih (off + 10 + Tcp.be16 data (off + 8))
              (some (Ip6.addr (fieldAt 16 ((data.drop (off + 10)).take _) 0))))
            rw [bind_some, hrest]
            rfl
          · rw [List.length_take, List.length_drop]
            omega
        · rw [slice_eq_some (by omega) (by omega), bind_some]
          exact ih _ _

/-- A response changes at most the address that has been found, and that to what its answers say. -/
lemma outcome_handleDnsResponse {Q : Unit → Stack → Prop} {E : Stack → Prop} (hsame : Q () s)
    (hfound : ∀ off found, skipQuestions data (Tcp.be16 data 4) 12 = some (some off) →
      answers data (Tcp.be16 data 6) off s.pendingAddr = some found → Q () { s with pendingAddr := found }) :
    Outcome (handleDnsResponse data) s Q E := by
  rw [handleDnsResponse, outcome_ite]
  refine ⟨fun _ => hsame, fun hlen => ?_⟩
  rw [outcome_bind, outcome_get, outcome_bind, outcome_word (by omega), outcome_ite]
  refine ⟨fun _ => hsame, fun _ => ?_⟩
  rw [outcome_bind, outcome_word (by omega), outcome_ite]
  refine ⟨fun _ => hsame, fun _ => ?_⟩
  rw [outcome_ite]
  refine ⟨fun _ => hsame, fun _ => ?_⟩
  rw [outcome_bind, outcome_word (by omega), outcome_bind, outcome_word (by omega), outcome_ite]
  refine ⟨fun _ => hsame, fun _ => ?_⟩
  have hquestions : (skipQuestions data (Tcp.be16 data 4) 12).isSome := skipQuestions_isSome _ _
  obtain ⟨next, hnext⟩ := isSome_iff_exists.mp hquestions
  rw [outcome_bind, hnext, outcome_orStop_some]
  cases next with
  | none => exact hsame
  | some off =>
    have hsome : (answers data (Tcp.be16 data 6) off s.pendingAddr).isSome := answers_isSome _ _ _
    obtain ⟨found, hanswers⟩ := isSome_iff_exists.mp hsome
    dsimp only
    rw [outcome_bind, hanswers, outcome_orStop_some, outcome_modify]
    exact hfound off found hnext hanswers

lemma returns_handleDnsResponse : Returns (handleDnsResponse data) s :=
  outcome_handleDnsResponse trivial fun _ _ _ _ => trivial

lemma returns_handle {srcPort : Nat} (service : Service) : Returns (service.handle env srcPort data) s := by
  cases service with
  | dhcp => exact returns_handleDhcpPacket
  | dns => exact returns_handleDnsResponse

lemma returns_runHandler {srcPort dstPort : Nat} {data : Bytes} {i : Fin 16} :
    Returns (runHandler env srcPort dstPort data i) s := by
  rw [Returns, runHandler, outcome_bind, outcome_get]
  cases s.handlers i with
  | none => trivial
  | some h =>
    dsimp only
    rw [outcome_ite]
    exact ⟨fun _ => returns_handle _, fun _ => trivial⟩

lemma returns_handleUdpDispatch_iff {payload : Bytes} :
    Returns (handleUdpDispatch env payload) s ↔ (8 ≤ payload.length → 8 ≤ Tcp.be16 payload 4) := by
  rw [Returns, handleUdpDispatch, outcome_ite]
  by_cases hlen : payload.length < 8
  · exact iff_of_true ⟨fun _ => trivial, fun h => absurd hlen h⟩ fun h => absurd hlen (by omega)
  · rw [outcome_bind, outcome_word (by omega), outcome_bind, outcome_word (by omega), outcome_bind,
      outcome_word (by omega), outcome_bind]
    constructor
    · intro hret _
      by_contra hshort
      have hcut : slice payload 8 (min (Tcp.be16 payload 4) payload.length) = none :=
        slice_eq_none_iff.mpr (by omega)
      have hstop := hret.2 hlen
      rw [cut, hcut, outcome_orStop_none] at hstop
      exact hstop
    · intro hlong
      refine ⟨fun h => absurd h hlen, fun _ => ?_⟩
      rw [outcome_cut (by have := hlong (by omega); omega) (by omega)]
      exact returns_forM (fun _ _ => returns_runHandler) _ _

end Datagrams

section Survival

def ihl (p : Bytes) : Nat := ((p.getD 0 0 &&& 0xF) * 4).toNat

def body4 (p : Bytes) : Bytes := (p.drop (ihl p)).take (Tcp.be16 p 2 - ihl p)

/-- `handle_ipv4` gets as far as to cut out the payload. -/
structure Stack.AcceptsIpv4 (s : Stack) (p : Bytes) : Prop where
  header : 20 ≤ p.length
  version : p.getD 0 0 >>> 4 = 4
  ihlFits : ihl p ≤ p.length
  lengthFits : Tcp.be16 p 2 ≤ p.length
  toUs : fieldAt 4 p 16 = s.ip ∨ fieldAt 4 p 16 = broadcastIp ∨ s.ip = unsetIp

structure Stack.AcceptsIpv6 (s : Stack) (p : Bytes) : Prop where
  header : 40 ≤ p.length
  version : p.getD 0 0 >>> 4 = 6
  lengthFits : 40 + Tcp.be16 p 4 ≤ p.length
  toUs : fieldAt 16 p 24 = s.ip6 ∨ (s.ip6g ≠ unsetIp6 ∧ fieldAt 16 p 24 = s.ip6g) ∨ (fieldAt 16 p 24)[0] = 0xFF

/-- A packet that is accepted has a length that covers its header; so has a UDP datagram in it,
and a TCP segment in it does not stop its connection. -/
structure Stack.SurvivesIpv4 (s : Stack) (p : Bytes) : Prop where
  packet : ihl p ≤ Tcp.be16 p 2
  segment : p.getD 9 0 = 6 → s.tcp.Survives (Ip4.addr (fieldAt 4 p 12)) (body4 p)
  datagram : p.getD 9 0 = 17 → 8 ≤ (body4 p).length → 8 ≤ Tcp.be16 (body4 p) 4

def Stack.Receives (s : Stack) (frame : Bytes) : Prop :=
  14 ≤ frame.length ∧
    (fieldAt 6 frame 0 = s.mac ∨ fieldAt 6 frame 0 = broadcastMac ∨ isMulticast6 (fieldAt 6 frame 0))

structure Stack.Survives (s : Stack) (frame : Bytes) : Prop where
  ipv4 : s.Receives frame → Tcp.be16 frame 12 = 0x0800 → s.AcceptsIpv4 (frame.drop 14) → s.SurvivesIpv4 (frame.drop 14)
  ipv6 : s.Receives frame → Tcp.be16 frame 12 = 0x86DD → s.AcceptsIpv6 (frame.drop 14) →
    (frame.drop 14).getD 6 0 = 6 →
      s.tcp.Survives (Ip6.addr (fieldAt 16 (frame.drop 14) 8)) (((frame.drop 14).drop 40).take (Tcp.be16 (frame.drop 14) 4))

variable {env : Env} {s : Stack} {srcMac p frame : Bytes}

lemma returns_tcpHandleSegment_iff {srcIp : Tcp.IpAddr} {t : Tcp.Table} (ht : s.tcp = t) :
    Returns (tcpHandleSegment env srcIp p) s ↔ t.Survives srcIp p := by
  rw [Returns, tcpHandleSegment, outcome_ite]
  by_cases hlen : p.length < 20
  · exact iff_of_true ⟨fun _ => trivial, fun h => absurd hlen h⟩ fun h => absurd hlen (by omega)
  · rw [outcome_bind, outcome_discard, readHeader_eq (by omega), outcome_orStop_some, outcome_bind, outcome_get, onTcp,
      outcome_zoom, ht]
    refine Iff.trans ⟨fun h => h.2 hlen, fun h => ⟨fun hshort => absurd hshort hlen, fun _ => h⟩⟩ ?_
    exact Tcp.returns_tcpHandleSegment_iff

lemma returns_unless_iff {c A B : Prop} [Decidable c] {x : NetM Unit} (hA : c → ¬A)
    (hx : ¬c → (Returns x s ↔ (A → B))) : Returns (if c then pure () else x) s ↔ (A → B) := by
  by_cases hc : c
  · rw [if_pos hc]
    exact iff_of_true trivial fun h => absurd h (hA hc)
  · rw [if_neg hc]
    exact hx hc

lemma returns_handleIpv4_iff (hmac : 6 ≤ srcMac.length) :
    Returns (handleIpv4 env srcMac p) s ↔ (s.AcceptsIpv4 p → s.SurvivesIpv4 p) := by
  rw [handleIpv4]
  refine returns_unless_iff (fun hshort h => absurd h.header (by omega)) fun hlen => ?_
  rw [Returns, outcome_bind, outcome_byte (by omega)]
  refine returns_unless_iff (fun hother h => hother h.version) fun hversion => ?_
  rw [Returns, outcome_bind, outcome_word (by omega)]
  refine returns_unless_iff (fun hfits h => ?_) fun hfits => ?_
  · have hihl := h.ihlFits
    have htotal := h.lengthFits
    unfold ihl at hihl
    omega
  rw [Returns, outcome_bind, outcome_byte (by omega), outcome_bind, outcome_arrayAt (by omega), outcome_bind,
    outcome_arrayAt (by omega), outcome_bind, outcome_get]
  refine returns_unless_iff (fun hother h => ?_) fun hother => ?_
  · rcases h.toUs with hip | hbroadcast | hunset
    · exact hother.1 hip
    · exact hother.2.1 hbroadcast
    · exact hother.2.2 hunset
  have haccepts : s.AcceptsIpv4 p := by
    refine ⟨by omega, by simpa using hversion, ?_, by omega, by tauto⟩
    unfold ihl
    omega
  rw [Returns, outcome_bind, array6, outcome_arrayOf hmac, arpLearn, outcome_bind, outcome_modify, outcome_bind]
  change Outcome (cut p (ihl p) (Tcp.be16 p 2)) _ _ _ ↔ _
  by_cases hpacket : ihl p ≤ Tcp.be16 p 2
  · rw [outcome_cut hpacket (by omega)]
    change Outcome (if p.getD 9 0 = 1 then handleIcmp env srcMac (fieldAt 4 p 12) (body4 p) else
      if p.getD 9 0 = 6 then tcpHandleSegment env (Ip4.addr (fieldAt 4 p 12)) (body4 p) else
      if p.getD 9 0 = 17 then handleUdpDispatch env (body4 p) else pure ()) _ _ _ ↔ _
    simp only [outcome_ite, outcome_pure]
    constructor
    · rintro ⟨-, hrest⟩ -
      refine ⟨hpacket, fun h6 => ?_, fun h17 => ?_⟩
      · refine (returns_tcpHandleSegment_iff ?_).mp ((hrest (by rw [h6]; decide)).1 h6)
        rfl
      · have h := (hrest (by rw [h17]; decide)).2 (by rw [h17]; decide)
        exact returns_handleUdpDispatch_iff.mp (h.1 h17)
    · intro hsurvives
      have hs := hsurvives haccepts
      exact ⟨fun _ => returns_handleIcmp hmac, fun _ => ⟨fun h6 => (returns_tcpHandleSegment_iff rfl).mpr (hs.segment h6),
        fun _ => ⟨fun h17 => returns_handleUdpDispatch_iff.mpr (hs.datagram h17), fun _ => trivial⟩⟩⟩
  · have hcut : slice p (ihl p) (Tcp.be16 p 2) = none := slice_eq_none_iff.mpr fun h => hpacket h.1
    rw [cut, hcut, outcome_orStop_none]
    exact iff_of_false id fun hsurvives => hpacket (hsurvives haccepts).packet

lemma returns_handleIpv6_iff (hmac : 6 ≤ srcMac.length) :
    Returns (handleIpv6 env srcMac p) s ↔ (s.AcceptsIpv6 p → p.getD 6 0 = 6 →
      s.tcp.Survives (Ip6.addr (fieldAt 16 p 8)) ((p.drop 40).take (Tcp.be16 p 4))) := by
  rw [handleIpv6]
  refine returns_unless_iff (fun hshort h => absurd h.header (by omega)) fun hlen => ?_
  rw [Returns, outcome_bind, outcome_byte (by omega)]
  refine returns_unless_iff (fun hother h => hother h.version) fun hversion => ?_
  rw [Returns, outcome_bind, outcome_word (by omega), outcome_bind, outcome_byte (by omega), outcome_bind,
    outcome_arrayAt (by omega), outcome_bind, outcome_arrayAt (by omega)]
  refine returns_unless_iff (fun hshort h => absurd h.lengthFits (by omega)) fun hfits => ?_
  rw [Returns, outcome_bind, outcome_cut (by omega) (by omega), outcome_bind, outcome_get, Nat.add_sub_cancel_left]
  refine returns_unless_iff (fun hother h => hother h.toUs) fun htoUs => ?_
  have haccepts : s.AcceptsIpv6 p := ⟨by omega, by simpa using hversion, by omega, not_not.mp htoUs⟩
  rw [Returns, outcome_bind, array6, outcome_arrayOf hmac, ndpLearn, outcome_bind, outcome_modify]
  simp only [outcome_ite, outcome_pure]
  constructor
  · intro hrest _ h6
    refine (returns_tcpHandleSegment_iff ?_).mp ((hrest.2 (by rw [h6]; decide)).1 h6)
    rfl
  · intro hsurvives
    exact ⟨fun _ => returns_handleIcmpv6 hmac, fun _ =>
      ⟨fun h6 => (returns_tcpHandleSegment_iff rfl).mpr (hsurvives haccepts h6), fun _ => trivial⟩⟩


def booted : Stack := after (init ⟨0, 0, ⟨0, []⟩⟩ (Vector.replicate 6 2)) Stack.zeroed

def headerless : Bytes :=
  List.replicate 6 0xFF ++ List.replicate 6 1 ++ [0x08, 0x00] ++ [0x45] ++ List.replicate 19 0

theorem headerless_stops : headerless.length ≤ 2048 ∧ ¬Returns (handleFrame ⟨0, 0, ⟨0, []⟩⟩ headerless) booted := by
  decide +kernel

/-- For every state of the stack and every frame: which frames `handle_frame` returns from. -/
theorem handle_frame_returns_iff (env : Env) (s : Stack) (frame : Bytes) :
    Returns (handleFrame env frame) s ↔ s.Survives frame := by
  have hforms : s.Survives frame ↔ (s.Receives frame →
      (Tcp.be16 frame 12 = 0x0800 → s.AcceptsIpv4 (frame.drop 14) → s.SurvivesIpv4 (frame.drop 14)) ∧
      (Tcp.be16 frame 12 = 0x86DD → s.AcceptsIpv6 (frame.drop 14) → (frame.drop 14).getD 6 0 = 6 →
        s.tcp.Survives (Ip6.addr (fieldAt 16 (frame.drop 14) 8))
          (((frame.drop 14).drop 40).take (Tcp.be16 (frame.drop 14) 4)))) :=
    ⟨fun h hrec => ⟨h.ipv4 hrec, h.ipv6 hrec⟩, fun h => ⟨fun hrec => (h hrec).1, fun hrec => (h hrec).2⟩⟩
  rw [hforms, handleFrame]
  refine returns_unless_iff (fun hshort h => absurd h.1 (by omega)) fun hlen => ?_
  rw [Returns, outcome_bind, outcome_arrayAt (by omega), outcome_bind, outcome_get]
  refine returns_unless_iff (fun hother h => hother h.2) fun htoUs => ?_
  have hreceives : s.Receives frame := ⟨by omega, not_not.mp htoUs⟩
  have hmac : 6 ≤ ((frame.drop 6).take (12 - 6)).length := by
    rw [List.length_take, List.length_drop]
    omega
  rw [Returns, outcome_bind, outcome_cut (by omega) (by omega), outcome_bind, outcome_word (by omega), outcome_bind,
    outcome_cutFrom (by omega)]
  simp only [outcome_ite, outcome_pure]
  constructor
  · intro hret _
    refine ⟨fun h4 => ?_, fun h6 => ?_⟩
    · exact (returns_handleIpv4_iff hmac).mp ((hret.2 (by rw [h4]; decide)).1 h4)
    · exact (returns_handleIpv6_iff hmac).mp (((hret.2 (by rw [h6]; decide)).2 (by rw [h6]; decide)).1 h6)
  · intro hsurvives
    have hs := hsurvives hreceives
    exact ⟨fun _ => returns_handleArp, fun _ => ⟨fun h4 => (returns_handleIpv4_iff hmac).mpr (hs.1 h4), fun _ =>
      ⟨fun h6 => (returns_handleIpv6_iff hmac).mpr (hs.2 h6), fun _ => trivial⟩⟩⟩

end Survival

end Aeglos.Net
