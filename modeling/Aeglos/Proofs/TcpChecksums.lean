import Aeglos.Kernel.TcpFrames
import Aeglos.Proofs.NetPanics

/-!
# The checksums of emitted segments

Adding words with the carry added back at the end, and folding the carries of a plain sum, both keep
the sum modulo 65535 and are zero only for zero.
-/

namespace Aeglos.Net

open Tcp Effects List

def words : Bytes → List Nat
  | a :: b :: rest => (a.toNat * 256 + b.toNat) :: words rest
  | [a] => [a.toNat * 256]
  | [] => []

def onesAdd (x y : Nat) : Nat := (x + y) % 65536 + (x + y) / 65536

def onesSum (data : Bytes) : Nat := (words data).foldl onesAdd 0

lemma sumWords_eq (sum : Nat) (data : Bytes) : sumWords sum data = sum + (words data).sum := by
  induction data using words.induct generalizing sum with
  | case1 a b rest ih => rw [sumWords, ih, words, sum_cons, Nat.add_assoc]
  | case2 a => simp [sumWords, words]
  | case3 => rfl

lemma words_append {a b : Bytes} (h : a.length % 2 = 0) : words (a ++ b) = words a ++ words b := by
  induction a using words.induct with
  | case1 x y rest ih =>
    rw [length_cons, length_cons] at h
    rw [cons_append, cons_append, words, words, ih (by omega), cons_append]
  | case2 => exact absurd h (by simp)
  | case3 => rfl

lemma words_lt (data : Bytes) : ∀ w ∈ words data, w < 65536 := by
  induction data using words.induct with
  | case1 a b rest ih =>
    rintro w (_ | ⟨_, hw⟩)
    · have ha := a.toNat_lt
      have hb := b.toNat_lt
      omega
    · exact ih w hw
  | case2 a =>
    rintro w (_ | ⟨_, hw⟩)
    · have ha := a.toNat_lt
      omega
    · exact absurd hw not_mem_nil
  | case3 => exact fun w hw => absurd hw not_mem_nil

lemma foldl_onesAdd {ws : List Nat} {acc : Nat} (hws : ∀ w ∈ ws, w < 65536) (hacc : acc ≤ 65535) :
    ws.foldl onesAdd acc ≤ 65535 ∧ ws.foldl onesAdd acc % 65535 = (acc + ws.sum) % 65535 ∧
      (0 < acc + ws.sum → 0 < ws.foldl onesAdd acc) := by
  induction ws generalizing acc with
  | nil => exact ⟨hacc, rfl, id⟩
  | cons w ws ih =>
    have hw := hws w mem_cons_self
    have hstep : onesAdd acc w ≤ 65535 ∧ onesAdd acc w % 65535 = (acc + w) % 65535 ∧ (0 < acc + w → 0 < onesAdd acc w) := by
      rw [onesAdd]
      omega
    obtain ⟨hle, hmod, hpos⟩ := ih (fun w' hw' => hws w' (mem_cons_of_mem w hw')) hstep.1
    rw [foldl_cons, sum_cons]
    exact ⟨hle, by omega, fun h => hpos (by omega)⟩

lemma onesSum_eq {data : Bytes} (hpos : 0 < (words data).sum) (hsum : (words data).sum % 65535 = 0) : onesSum data = 65535 := by
  obtain ⟨hle, hmod, hne⟩ := foldl_onesAdd (words_lt data) (Nat.zero_le 65535)
  rw [Nat.zero_add] at hmod hne
  have := hne hpos
  rw [onesSum]
  omega

lemma foldCarries_spec (sum : Nat) :
    foldCarries sum ≤ 65535 ∧ foldCarries sum ≤ sum ∧ foldCarries sum % 65535 = sum % 65535 := by
  induction sum using foldCarries.induct with
  | case1 sum h =>
    rw [foldCarries, if_pos h]
    omega
  | case2 sum h ih =>
    rw [foldCarries, if_neg h]
    omega

lemma onesComplementSum_spec (data : Bytes) (initial : Nat) : onesComplementSum data initial ≤ 65535 ∧
    0 < initial + (words data).sum + onesComplementSum data initial ∧
    (initial + (words data).sum + onesComplementSum data initial) % 65535 = 0 := by
  have h := foldCarries_spec (sumWords initial data)
  rw [sumWords_eq] at h
  rw [onesComplementSum, sumWords_eq]
  omega

section Frames

variable {src dst : Ip4} {src6 dst6 : Ip6} {seg : Segment}

lemma words_toBe {v : Nat} (h : v < 65536) : words (toBe v 2) = [v] := by
  rw [toBe_two, words, words, UInt8.toNat_ofNat', UInt8.toNat_ofNat']
  congr 1
  omega

lemma length_segmentBytes (checksum : Nat) : (segmentBytes seg checksum).length = segmentLength seg.flags seg.data := by
  simp only [segmentBytes, segmentHead, segmentTail, segmentLength, length_append, length_toBe]
  split_ifs <;> simp <;> omega

lemma words_segmentBytes {checksum : Nat} (h : checksum < 65536) :
    words (segmentBytes seg checksum) = words (segmentHead seg) ++ (checksum :: words (segmentTail seg)) := by
  rw [segmentBytes, words_append (by simp [segmentHead]), words_append (by simp), words_toBe h]
  rfl

lemma sum_segmentBytes {checksum : Nat} (h : checksum ≤ 65535) :
    (words (segmentBytes seg checksum)).sum = (words (segmentBytes seg 0)).sum + checksum := by
  rw [words_segmentBytes (by omega), words_segmentBytes (by omega)]
  simp only [sum_append, sum_cons]
  omega

/-- The header that is not sent but summed up: of IPv4, and of IPv6. -/
def pseudoHeader (src dst : Bytes) (len : Nat) : Bytes := src ++ dst ++ ([0, 6] ++ toBe len 2)
def pseudoHeader6 (src dst : Bytes) (len : Nat) : Bytes := src ++ dst ++ (toBe len 4 ++ [0, 0, 0, 6])

lemma onesSum_segment {pseudo : Bytes} {initial : Nat} (heven : pseudo.length % 2 = 0)
    (hinitial : (words pseudo).sum = initial) :
    onesSum (pseudo ++ segmentBytes seg (onesComplementSum (segmentBytes seg 0) initial)) = 65535 := by
  obtain ⟨hle, hpos, hsum⟩ := onesComplementSum_spec (segmentBytes seg 0) initial
  have htotal : (words (segmentBytes seg _)).sum = _ := sum_segmentBytes hle
  apply onesSum_eq <;> rw [words_append heven, sum_append, htotal, hinitial] <;> omega

lemma sum_ip4 (ip : Ip4) : (words ip.toList).sum = Tcp.be16 ip.toList 0 + Tcp.be16 ip.toList 2 := by
  have hlength : ip.toList.length = 4 := by simp
  revert hlength
  rcases ip.toList with _ | ⟨a, _ | ⟨b, _ | ⟨c, _ | ⟨d, _ | ⟨e, rest⟩⟩⟩⟩⟩ <;> simp [words, Tcp.be16]

lemma onesSum_tcp4 (h : segmentLength seg.flags seg.data < 65536) :
    onesSum (pseudoHeader src.toList dst.toList (segmentLength seg.flags seg.data) ++
      segmentBytes seg (tcpChecksum src dst (segmentBytes seg 0))) = 65535 := by
  have hsum : (words (pseudoHeader src.toList dst.toList (segmentLength seg.flags seg.data))).sum =
      Tcp.be16 src.toList 0 + Tcp.be16 dst.toList 0 + Tcp.be16 src.toList 2 + Tcp.be16 dst.toList 2 + 6 +
        (segmentBytes seg 0).length := by
    rw [pseudoHeader, words_append (by simp), words_append (by simp), words_append (by rfl), words_toBe h,
      length_segmentBytes, sum_append, sum_append, sum_ip4, sum_ip4]
    simp [words]
    omega
  rw [tcpChecksum]
  exact onesSum_segment (by simp [pseudoHeader]) hsum

lemma onesSum_tcp6 (h : segmentLength seg.flags seg.data < 65536) :
    onesSum (pseudoHeader6 src6.toList dst6.toList (segmentLength seg.flags seg.data) ++
      segmentBytes seg (ipv6UpperChecksum src6 dst6 6 (segmentBytes seg 0))) = 65535 := by
  have hlen : toBe (segmentLength seg.flags seg.data) 4 = [0, 0] ++ toBe (segmentLength seg.flags seg.data) 2 := by
    have hhigh : segmentLength seg.flags seg.data / 256 / 256 = 0 := by omega
    simp [toBe, toLe, hhigh]
  have hsum : (words (pseudoHeader6 src6.toList dst6.toList (segmentLength seg.flags seg.data))).sum =
      (words src6.toList).sum + (words dst6.toList).sum + segmentLength seg.flags seg.data + 6 := by
    rw [pseudoHeader6, words_append (by simp), words_append (by simp), words_append (by simp), hlen,
      words_append (by rfl), words_toBe h]
    simp [words]
    omega
  rw [ipv6UpperChecksum]
  refine onesSum_segment (by simp [pseudoHeader6]) ?_
  rw [hsum, sumWords_eq, sumWords_eq, length_segmentBytes]
  simp
  omega

lemma onesSum_header {start rest : Bytes} (heven : start.length % 2 = 0) :
    onesSum (start ++ (toBe (ipChecksum (start ++ ([0, 0] ++ rest))) 2 ++ rest)) = 65535 := by
  obtain ⟨hle, hpos, hsum⟩ := onesComplementSum_spec (start ++ ([0, 0] ++ rest)) 0
  rw [← ipChecksum, words_append heven, words_append (by rfl), sum_append, sum_append] at hpos hsum
  rw [← ipChecksum] at hle
  have hzero : (words [0, 0]).sum = 0 := rfl
  apply onesSum_eq <;> rw [words_append heven, words_append (by simp), words_toBe (by omega), sum_append,
    sum_append, sum_singleton] <;> omega

lemma onesSum_ipv4Header (ident : Nat) (proto : UInt8) (len : Nat) : onesSum (ipv4Header ident proto src dst len) = 65535 := by
  rw [ipv4Header, append_assoc, append_assoc, append_assoc _ src.toList, append_assoc _ [0, 0]]
  exact onesSum_header (by simp)

def Verifies (frame : Bytes) : Prop :=
  ((frame.drop 12).take 2 = [0x08, 0x00] ∧ onesSum ((frame.drop 14).take 20) = 0xFFFF ∧
    onesSum (pseudoHeader ((frame.drop 26).take 4) ((frame.drop 30).take 4) (frame.length - 34) ++ frame.drop 34) = 0xFFFF) ∨
  ((frame.drop 12).take 2 = [0x86, 0xDD] ∧
    onesSum (pseudoHeader6 ((frame.drop 22).take 16) ((frame.drop 38).take 16) (frame.length - 54) ++ frame.drop 54) = 0xFFFF)

lemma ethernet_type (dstMac srcMac : Mac) (ethertype : Nat) (body : Bytes) :
    ((ethernet dstMac srcMac ethertype body).drop 12).take 2 = toBe ethertype 2 := by
  have hmacs : (dstMac.toList ++ srcMac.toList).length = 12 := by simp
  rw [ethernet, append_assoc, drop_left' hmacs, take_left' (by simp)]

lemma ethernet_parts (dstMac srcMac : Mac) (ethertype : Nat) (front a b body : Bytes) {m : Nat} (ha : a.length = m)
    (hb : b.length = m) {frame : Bytes} (hframe : frame = ethernet dstMac srcMac ethertype (front ++ (a ++ b) ++ body)) :
    (frame.drop 14).take (front.length + m + m) = front ++ (a ++ b) ∧
      (frame.drop (14 + front.length)).take m = a ∧ (frame.drop (14 + front.length + m)).take m = b ∧
      frame.drop (14 + front.length + m + m) = body ∧ frame.length - (14 + front.length + m + m) = body.length := by
  have hstart : (dstMac.toList ++ srcMac.toList ++ toBe ethertype 2).length = 14 := by simp
  have hbody : frame.drop 14 = front ++ (a ++ b) ++ body := by
    rw [hframe]
    exact drop_left' hstart
  have hfirst : frame.drop (14 + front.length) = a ++ (b ++ body) := by
    rw [← drop_drop, hbody, append_assoc, drop_left, append_assoc]
  have hsecond : frame.drop (14 + front.length + m) = b ++ body := by
    rw [← drop_drop, hfirst, drop_left' ha]
  have hrest : frame.drop (14 + front.length + m + m) = body := by
    rw [← drop_drop, hsecond, drop_left' hb]
  refine ⟨?_, ?_, ?_, hrest, ?_⟩
  · rw [hbody, take_left' (by simp [ha, hb, Nat.add_assoc])]
  · rw [hfirst, take_left' ha]
  · rw [hsecond, take_left' hb]
  · rw [← hrest, length_drop]

lemma verifies_ipv4 (dstMac srcMac : Mac) (h : segmentLength seg.flags seg.data < 65536) :
    Verifies (ethernet dstMac srcMac 0x0800 (ipv4Header 0 6 src dst (segmentLength seg.flags seg.data) ++
      segmentBytes seg (tcpChecksum src dst (segmentBytes seg 0)))) := by
  obtain ⟨front, hfront, hheader⟩ : ∃ front : Bytes, front.length = 12 ∧
      ipv4Header 0 6 src dst (segmentLength seg.flags seg.data) = front ++ (src.toList ++ dst.toList) :=
    ⟨_, by simp, append_assoc _ _ _⟩
  have hparts := ethernet_parts dstMac srcMac 0x0800 front src.toList dst.toList
    (segmentBytes seg (tcpChecksum src dst (segmentBytes seg 0))) (m := 4) (by simp) (by simp) rfl
  rw [← hheader, hfront, length_segmentBytes] at hparts
  obtain ⟨hip, hsrc, hdst, hseg, hlength⟩ := hparts
  refine Or.inl ⟨ethernet_type _ _ _ _, ?_, ?_⟩
  · rw [hip]
    exact onesSum_ipv4Header 0 6 _
  · rw [hsrc, hdst, hseg, hlength]
    exact onesSum_tcp4 h

lemma verifies_ipv6 (dstMac srcMac : Mac) (h : segmentLength seg.flags seg.data < 65536) :
    Verifies (ethernet dstMac srcMac 0x86DD (ipv6Header 6 64 src6 dst6 (segmentLength seg.flags seg.data) ++
      segmentBytes seg (ipv6UpperChecksum src6 dst6 6 (segmentBytes seg 0)))) := by
  obtain ⟨front, hfront, hheader⟩ : ∃ front : Bytes, front.length = 8 ∧
      ipv6Header 6 64 src6 dst6 (segmentLength seg.flags seg.data) = front ++ (src6.toList ++ dst6.toList) :=
    ⟨_, by simp, append_assoc _ _ _⟩
  have hparts := ethernet_parts dstMac srcMac 0x86DD front src6.toList dst6.toList
    (segmentBytes seg (ipv6UpperChecksum src6 dst6 6 (segmentBytes seg 0))) (m := 16) (by simp) (by simp) rfl
  rw [← hheader, hfront, length_segmentBytes] at hparts
  obtain ⟨-, hsrc, hdst, hseg, hlength⟩ := hparts
  refine Or.inr ⟨ethernet_type _ _ _ _, ?_⟩
  rw [hsrc, hdst, hseg, hlength]
  exact onesSum_tcp6 h

end Frames

section Sending

variable {c : TcpConn} {flags : UInt8} {data frame : Bytes} {s : Stack}

def SentWell (s s' : Stack) : Prop :=
  ∀ frame ∈ s'.sent, frame ∈ s.sent ∨ (frame.drop 12).take 2 = [0x08, 0x06] ∨ Verifies frame

lemma SentWell.send {s' : Stack} (h : SentWell s s') (hframe : (frame.drop 12).take 2 = [0x08, 0x06] ∨ Verifies frame) :
    SentWell s { s' with sent := frame :: s'.sent } := by
  rintro f (_ | ⟨_, hf⟩)
  · exact Or.inr hframe
  · exact h f hf

lemma sentWell_resolveMac (dst : Ip4) :
    Outcome (resolveMacNonblocking dst) s (fun _ s' => SentWell s s') fun s' => SentWell s s' := by
  have hself : SentWell s s := fun _ hf => Or.inl hf
  rw [resolveMacNonblocking, outcome_ite]
  refine ⟨fun _ => hself, fun _ => ?_⟩
  rw [outcome_bind, outcome_get]
  dsimp only
  split
  · exact hself
  · rw [outcome_bind, sendArpRequest, outcome_bind, outcome_get, outcome_netSendFrame]
    · exact hself.send (Or.inl (ethernet_type _ _ _ _))
    · simp [arpFrame, length_ethernet]

lemma sentWell_sendSegmentFrame : SentWell s (after (sendSegmentFrame c flags data) s) := by
  have hself : SentWell s s := fun _ hf => Or.inl hf
  have hseg : segmentLength (buildTcpHeader c flags data).flags (buildTcpHeader c flags data).data =
    segmentLength flags data := rfl
  refine outcome_iff_after.mp ?_
  rw [sendSegmentFrame, outcome_bind, outcome_get]
  cases c.remoteIp with
  | v4 addr =>
    dsimp only
    rw [outcome_bind]
    refine (sentWell_resolveMac _).mono (fun mac s' hs' => ?_) fun _ => id
    rw [outcome_ite]
    refine ⟨fun _ => hs', fun hfits => ?_⟩
    rw [← hseg] at hfits ⊢
    rw [outcome_netSendFrame]
    · exact hs'.send (Or.inr (verifies_ipv4 _ _ (by omega)))
    · rw [length_ethernet, length_append, length_ipv4Header, length_segmentBytes]
      omega
  | v6 addr =>
    dsimp only
    split
    · exact hself
    · rw [outcome_ite]
      refine ⟨fun _ => hself, fun hfits => ?_⟩
      rw [← hseg] at hfits ⊢
      rw [outcome_netSendFrame]
      · exact hself.send (Or.inr (verifies_ipv6 _ _ (by omega)))
      · rw [length_ethernet, length_append, length_ipv6Header, length_segmentBytes]
        omega

/-- Every frame that a call of `send_segment` emits verifies; what comes with it is at most a request
for the address of the next hop. -/
theorem emitted_segment_verifies (h : frame ∈ (after (sendSegmentFrame c flags data) s).sent) :
    frame ∈ s.sent ∨ (frame.drop 12).take 2 = [0x08, 0x06] ∨ Verifies frame :=
  sentWell_sendSegmentFrame frame h

def synFrame : Bytes := (after (sendSegmentFrame { TcpConn.zeroed with remoteIp := .v4 0xC0000201 } tcpSyn []) Stack.zeroed).sent.headD []

theorem syn_verifies : synFrame.length = 58 ∧ Verifies synFrame := by
  refine ⟨by decide +kernel, ?_⟩
  have hmem : synFrame ∈ (after (sendSegmentFrame { TcpConn.zeroed with remoteIp := .v4 0xC0000201 } tcpSyn []) Stack.zeroed).sent := by
    decide +kernel
  rcases emitted_segment_verifies hmem with hold | harp | hverifies
  · exact absurd hold (by decide +kernel)
  · exact absurd harp (by decide +kernel)
  · exact hverifies

end Sending

end Aeglos.Net
