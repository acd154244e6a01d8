import Aeglos.Kernel.Net

/-!
# The receive path

`handle_frame` and the handlers below it. Loops over options or names have enough turns.
-/

namespace Aeglos.Net

open Effects Slices

def byte (p : Bytes) (i : Nat) : NetM UInt8 := orStop p[i]?
def word (p : Bytes) (i : Nat) : NetM Nat := orStop (be16 p i)
def cut (p : Bytes) (a b : Nat) : NetM Bytes := orStop (slice p a b)
def cutFrom (p : Bytes) (a : Nat) : NetM Bytes := orStop (sliceFrom p a)

def arrayAt (n : Nat) (p : Bytes) (a : Nat) : NetM (Vector UInt8 n) := do orStop (arrayOf n (← cut p a (a + n)))

def handleArp (payload : Bytes) : NetM Unit := do
  if payload.length < 28 then return
  let htype ← word payload 0
  let ptype ← word payload 2
  let oper ← word payload 6
  if htype ≠ 1 ∨ ptype ≠ 0x0800 then return
  let senderMac ← arrayAt 6 payload 8
  let senderIp ← arrayAt 4 payload 14
  let targetIp ← arrayAt 4 payload 24
  arpLearn senderIp senderMac
  if oper = 1 ∧ targetIp = (← get).ip then sendArpReply senderIp senderMac

/-- The request is sent back with type, code and checksum replaced. -/
def sendIcmpEchoReply (dstMac : Bytes) (dstIp : Ip4) (icmpReq : Bytes) : NetM Unit := do
  let s ← get
  if 14 + (20 + icmpReq.length) > 2048 then return
  let mac ← orStop (array6 dstMac)
  let cleared := [0, 0, 0, 0] ++ icmpReq.drop 4
  let reply := [0, 0] ++ toBe (ipChecksum cleared) 2 ++ icmpReq.drop 4
  netSendFrame (ethernet mac s.mac 0x0800 (ipv4Header 0 1 s.ip dstIp icmpReq.length ++ reply))

def handleIcmp (env : Env) (srcMac : Bytes) (srcIp : Ip4) (payload : Bytes) : NetM Unit := do
  if payload.length < 8 then return
  let kind ← byte payload 0
  if kind = 8 then sendIcmpEchoReply srcMac srcIp payload
  else if kind = 0 then modify fun s => { s with pingReply := some env.count }

def pingMessage (checksum : Nat) : Bytes :=
  [8, 0] ++ toBe checksum 2 ++ [0x00, 0x01, 0x00, 0x01] ++ (List.range 32).map UInt8.ofNat

/-- `send_ping` up to its wait; `resolved` is what `arp_resolve_blocking` returns. The checksum is that of
`tb[34..frame_total - 14]`. -/
def sendPing (resolved : Option Mac) (dstIp : Ip4) : NetM Unit := do
  let s ← get
  if !s.up then return
  match resolved with
  | none => return
  | some dstMac =>
    modify fun s => { s with pingReply := none }
    let checksum := ipChecksum ((pingMessage 0).take 26)
    netSendFrame (ethernet dstMac s.mac 0x0800 (ipv4Header 0x1234 1 s.ip dstIp 40 ++ pingMessage checksum))

def parseOptionTll (opts : Bytes) : Nat → Nat → Option (Option Mac)
  | 0, _ => none
  | turns + 1, i =>
    if i + 2 ≤ opts.length then do
      let optType ← opts[i]?
      let units ← opts[i + 1]?
      let optLen := units.toNat * 8
      if optLen = 0 ∨ i + optLen > opts.length then return none
      if optType = 2 ∧ optLen ≥ 8 then
        let mac ← array6 (← sliceFrom opts (i + 2))
        return some mac
      parseOptionTll opts turns (i + optLen)
    else some none

def handleNa (data : Bytes) : NetM Unit := do
  if data.length < 20 then return
  let target ← arrayAt 16 data 4
  let opts ← cutFrom data 20
  match ← orStop (parseOptionTll opts (opts.length + 1) 0) with
  | some mac => ndpLearn target mac
  | none => return

def sendNa (dstIp : Ip6) (dstMac : Mac) (myTarget : Ip6) : NetM Unit := do
  let s ← get
  let body := [136, 0, 0, 0, 0x60, 0, 0, 0] ++ myTarget.toList ++ [2, 1] ++ s.mac.toList
  buildAndSendV6 s.ip6 dstIp dstMac s.mac (withChecksum6 s.ip6 dstIp body)

def handleNs (srcIp : Ip6) (srcMac : Mac) (data : Bytes) : NetM Unit := do
  if data.length < 20 then return
  let target ← arrayAt 16 data 4
  let s ← get
  if target ≠ s.ip6 ∧ target ≠ s.ip6g then return
  ndpLearn srcIp srcMac
  sendNa srcIp srcMac target

def eui64 (mac : Mac) : Bytes := [mac[0] ^^^ 0x02, mac[1], mac[2], 0xFF, 0xFE, mac[3], mac[4], mac[5]]

lemma length_eui64 (mac : Mac) : (eui64 mac).length = 8 := rfl

def globalAddress (network : Ip6) (mac : Mac) : Ip6 :=
  ⟨(network.toList.take 8 ++ eui64 mac).toArray, by simp [length_eui64]⟩

def macToLinkLocal (mac : Mac) : Ip6 := globalAddress ⟨([0xFE, 0x80] ++ List.replicate 14 0 : Bytes).toArray, rfl⟩ mac

def raOptions (data : Bytes) : Nat → Nat → NetM Unit
  | 0, _ => stop
  | turns + 1, off => do
    if off + 2 > data.length then return
    let optType ← byte data off
    let units ← byte data (off + 1)
    let optLen := units.toNat * 8
    if optLen = 0 ∨ off + optLen > data.length then return
    if optType = 3 ∧ optLen ≥ 32 then
      let prefixLen ← byte data (off + 2)
      let flags ← byte data (off + 3)
      if flags &&& 0x80 ≠ 0 ∧ flags &&& 0x40 ≠ 0 ∧ prefixLen = 64 then
        let network ← arrayAt 16 data (off + 8)
        modify fun s => { s with ip6g := globalAddress network s.mac, ip6Up := true }
    raOptions data turns (off + optLen)

def handleRa (srcIp : Ip6) (srcMac : Mac) (data : Bytes) : NetM Unit := do
  if data.length < 12 then return
  modify fun s => { s with gw6 := srcIp }
  ndpLearn srcIp srcMac
  raOptions data data.length 12

def handleEchoRequest (srcIp myIp : Ip6) (data : Bytes) : NetM Unit := do
  if data.length < 8 then return
  let s ← get
  if 14 + 40 + data.length > 2048 then return
  match s.ndp.lookup srcIp with
  | none => return
  | some dstMac =>
    let code ← byte data 1
    let reply := withChecksum6 myIp srcIp ([129, code, 0, 0] ++ data.drop 4)
    netSendFrame (ethernet dstMac s.mac 0x86DD (ipv6Header 58 255 myIp srcIp data.length ++ reply))

def handleEchoReply (env : Env) (data : Bytes) : NetM Unit := do
  if data.length < 8 then return
  let id ← word data 4
  if id = ping6Id then modify fun s => { s with ping6Reply := some env.ticks }

def handleIcmpv6 (env : Env) (srcMac : Bytes) (srcIp dstIp : Ip6) (data : Bytes) : NetM Unit := do
  if data.length < 4 then return
  let msgType ← byte data 0
  if msgType = 128 then handleEchoRequest srcIp dstIp data
  else if msgType = 129 then handleEchoReply env data
  else if msgType = 134 then
    let mac ← orStop (array6 srcMac)
    handleRa srcIp mac (← cutFrom data 4)
  else if msgType = 135 then
    let mac ← orStop (array6 srcMac)
    handleNs srcIp mac (← cutFrom data 4)
  else if msgType = 136 then handleNa (← cutFrom data 4)

def retryTicks : BitVec 32 := 100

def makeXid (env : Env) : BitVec 32 := env.ticks ^^^ 0xAE010000

def dhcpMessage (xid : BitVec 32) (mac : Mac) (options : Bytes) : Bytes :=
  [1, 1, 6, 0] ++ toBe xid.toNat 4 ++ [0, 0, 0x80] ++ List.replicate 17 0 ++ mac.toList ++ List.replicate 202 0 ++
    [99, 130, 83, 99] ++ options

def sendDiscover (env : Env) : NetM Unit := do
  modify fun s => { s with dhcp := { s.dhcp with
    xid := makeXid env, state := .discovering, retryCount := 0, nextActionTick := env.ticks + retryTicks } }
  let s ← get
  discard (udpSend broadcastIp 67 68 (dhcpMessage s.dhcp.xid s.mac [53, 1, 1, 255]))

def sendRequest (offered server : Ip4) : NetM Unit := do
  let s ← get
  let options := [53, 1, 3, 50, 4] ++ offered.toList ++ [54, 4] ++ server.toList ++ [255]
  discard (udpSend broadcastIp 67 68 (dhcpMessage s.dhcp.xid s.mac options))

structure DhcpOptions where
  msgType : UInt8
  serverIp : Ip4
  leaseTime : BitVec 32
  subnet : Ip4
  gw : Ip4
  dns : Ip4
  t1 : BitVec 32

def DhcpOptions.default : DhcpOptions where
  msgType := 0
  serverIp := unsetIp
  leaseTime := 3600
  subnet := ⟨[255, 255, 255, 0].toArray, rfl⟩
  gw := unsetIp
  dns := unsetIp
  t1 := 0

def DhcpOptions.read (o : DhcpOptions) (tag : UInt8) (v : Bytes) : Option DhcpOptions :=
  if tag = 1 ∧ v.length ≥ 4 then do return { o with subnet := ← array4 v }
  else if tag = 3 ∧ v.length ≥ 4 then do return { o with gw := ← array4 v }
  else if tag = 6 ∧ v.length ≥ 4 then do return { o with dns := ← array4 v }
  else if tag = 51 ∧ v.length ≥ 4 then do return { o with leaseTime := ← be32 v 0 }
  else if tag = 53 ∧ v.length ≥ 1 then do return { o with msgType := ← v[0]? }
  else if tag = 54 ∧ v.length ≥ 4 then do return { o with serverIp := ← array4 v }
  else if tag = 58 ∧ v.length ≥ 4 then do return { o with t1 := ← be32 v 0 }
  else some o

def dhcpOptions (data : Bytes) : Nat → Nat → DhcpOptions → Option DhcpOptions
  | 0, _, _ => none
  | turns + 1, i, o =>
    if i + 1 < data.length then do
      let tag ← data[i]?
      if tag = 255 then return o
      if tag = 0 then
        let rest ← dhcpOptions data turns (i + 1) o
        return rest
      let len ← data[i + 1]?
      if i + 2 + len.toNat > data.length then return o
      let v ← slice data (i + 2) (i + 2 + len.toNat)
      dhcpOptions data turns (i + 2 + len.toNat) (← o.read tag v)
    else some o

def onOffer (env : Env) (yiaddr : Ip4) (o : DhcpOptions) : NetM Unit := do
  modify fun s => { s with dhcp := { s.dhcp with
    offeredIp := yiaddr, serverIp := o.serverIp, state := .requesting, retryCount := 0
    nextActionTick := env.ticks + retryTicks } }
  sendRequest yiaddr o.serverIp

def onAck (env : Env) (yiaddr : Ip4) (o : DhcpOptions) : NetM Unit := do
  let t1Ticks := if 0 < o.t1 then o.t1 else o.leaseTime / 2
  modify fun s =>
    { s with
      ip := yiaddr
      mask := o.subnet
      gw := if o.gw = unsetIp then yiaddr.set 3 2 else o.gw
      dhcp := { s.dhcp with
        state := .bound, leaseSecs := o.leaseTime, t1Secs := t1Ticks, boundTick := env.ticks
        nextActionTick := env.ticks + t1Ticks * 100 } }

def handleDhcpPacket (env : Env) (srcPort : Nat) (data : Bytes) : NetM Unit := do
  if srcPort ≠ 67 then return
  if data.length < 240 then return
  if (← byte data 0) ≠ 2 then return
  let xid ← orStop (be32 data 4)
  if xid ≠ (← get).dhcp.xid then return
  let yiaddr ← arrayAt 4 data 16
  let o ← orStop (dhcpOptions data data.length 240 DhcpOptions.default)
  let state := (← get).dhcp.state
  if o.msgType = 2 ∧ state = .discovering then onOffer env yiaddr o
  else if o.msgType = 5 ∧ (state = .requesting ∨ state = .renewing) then onAck env yiaddr o

def fallbackIp : Ip4 := ⟨[10, 0, 2, 15].toArray, rfl⟩
def fallbackMask : Ip4 := ⟨[255, 255, 255, 0].toArray, rfl⟩
def fallbackGw : Ip4 := ⟨[10, 0, 2, 2].toArray, rfl⟩
def maxRetries : Nat := 3

def retryLater (env : Env) : NetM Unit := modify fun s => { s with dhcp := { s.dhcp with
  retryCount := s.dhcp.retryCount + 1, nextActionTick := env.ticks + retryTicks } }

def dhcpTick (env : Env) : NetM Unit := do
  let s ← get
  if env.ticks < s.dhcp.nextActionTick then return
  match s.dhcp.state with
  | .discovering =>
    if s.dhcp.retryCount ≥ maxRetries then
      set { s with
        ip := fallbackIp, mask := fallbackMask, gw := fallbackGw
        dhcp := { s.dhcp with state := .bound, nextActionTick := env.ticks + 360000 } }
    else
      retryLater env
      sendDiscover env
  | .requesting =>
    if s.dhcp.retryCount ≥ maxRetries then sendDiscover env
    else
      retryLater env
      sendRequest s.dhcp.offeredIp s.dhcp.serverIp
  | .bound =>
    set { s with dhcp := { s.dhcp with
      state := .renewing, retryCount := 0, nextActionTick := env.ticks + retryTicks } }
    sendRequest s.ip s.dhcp.serverIp
  | .renewing =>
    if s.dhcp.retryCount ≥ maxRetries then sendDiscover env
    else
      retryLater env
      sendRequest s.ip s.dhcp.serverIp
  | .idle => return

def skipQuestionName (data : Bytes) : Nat → Nat → Option (Option Nat)
  | 0, _ => none
  | turns + 1, off =>
    if off ≥ data.length then some none
    else do
      let l ← data[off]?
      if l = 0 then return some (off + 1)
      if l ≥ 0xC0 then return some (off + 2)
      skipQuestionName data turns (off + 1 + l.toNat)

def skipQuestions (data : Bytes) : Nat → Nat → Option (Option Nat)
  | 0, off => some (some off)
  | qdcount + 1, off => do
    match ← skipQuestionName data (data.length + 1) off with
    | none => return none
    | some off => skipQuestions data qdcount (off + 4)

def skipAnswerLabels (data : Bytes) : Nat → Nat → Option (Option Nat)
  | 0, _ => none
  | turns + 1, off =>
    if off ≥ data.length then some none
    else do
      let l ← data[off]?
      if l = 0 then return some (off + 1)
      skipAnswerLabels data turns (off + 1 + l.toNat)

def skipAnswerName (data : Bytes) (off : Nat) : Option (Option Nat) :=
  if off ≥ data.length then some none
  else do
    let l ← data[off]?
    if l ≥ 0xC0 then return some (off + 2)
    skipAnswerLabels data (data.length + 1) off

def answers (data : Bytes) : Nat → Nat → Option Tcp.IpAddr → Option (Option Tcp.IpAddr)
  | 0, _, found => some found
  | ancount + 1, off, found => do
    match ← skipAnswerName data off with
    | none => return found
    | some off =>
      if off + 10 > data.length then return found
      let rtype ← be16 data off
      let rdlen ← be16 data (off + 8)
      if off + 10 + rdlen > data.length then return found
      let rdata ← slice data (off + 10) (off + 10 + rdlen)
      if rtype = 1 ∧ rdlen = 4 then
        let ip ← array4 rdata
        return some ip.addr
      if rtype = 28 ∧ rdlen = 16 ∧ found = none then
        let ip ← array16 rdata
        let rest ← answers data ancount (off + 10 + rdlen) (some ip.addr)
        return rest
      answers data ancount (off + 10 + rdlen) found

def handleDnsResponse (data : Bytes) : NetM Unit := do
  if data.length < 12 then return
  let s ← get
  if (← word data 0) ≠ s.pendingTxn then return
  let flags ← word data 2
  if flags &&& 0x8000 = 0 then return
  if flags &&& 0x000F ≠ 0 then return
  let qdcount ← word data 4
  let ancount ← word data 6
  if ancount = 0 then return
  match ← orStop (skipQuestions data qdcount 12) with
  | none => return
  | some off =>
    let found ← orStop (answers data ancount off s.pendingAddr)
    modify fun s => { s with pendingAddr := found }

def udpRegister (port : Nat) (service : Service) : NetM Bool := do
  let s ← get
  match (List.finRange 16).find? fun i => (s.handlers i).any fun h => h.port == port with
  | some i =>
    set { s with handlers := Function.update s.handlers i (some ⟨port, service⟩) }
    return true
  | none =>
    match (List.finRange 16).find? fun i => (s.handlers i).isNone with
    | some i =>
      set { s with handlers := Function.update s.handlers i (some ⟨port, service⟩) }
      return true
    | none => return false

def Service.handle (env : Env) (srcPort : Nat) (data : Bytes) : Service → NetM Unit
  | .dhcp => handleDhcpPacket env srcPort data
  | .dns => handleDnsResponse data

def runHandler (env : Env) (srcPort dstPort : Nat) (data : Bytes) (i : Fin 16) : NetM Unit := do
  match (← get).handlers i with
  | some h => if h.port = dstPort then h.service.handle env srcPort data
  | none => pure ()

def handleUdpDispatch (env : Env) (payload : Bytes) : NetM Unit := do
  if payload.length < 8 then return
  let srcPort ← word payload 0
  let dstPort ← word payload 2
  let udpLen ← word payload 4
  let data ← cut payload 8 (min udpLen payload.length)
  (List.finRange 16).forM (runHandler env srcPort dstPort data)

def dhcpInit (env : Env) : NetM Unit := do
  discard (udpRegister 68 .dhcp)
  sendDiscover env

def onTcp {α : Type} (x : Tcp.TcpM α) : NetM α := zoom Stack.tcp (fun t s => { s with tcp := t }) x

def tcpEnv (env : Env) (s : Stack) : Tcp.Env := ⟨env.ticks, env.count.setWidth 32, s.ndp.knows, env.peer⟩

def readHeader (payload : Bytes) : Option Tcp.Header := do
  let srcPort ← be16 payload 0
  let dstPort ← be16 payload 2
  let seq ← be32 payload 4
  let ackNum ← be32 payload 8
  let doff := (← payload[12]?).toNat / 16 * 4
  let flags ← payload[13]?
  let wnd ← be16 payload 14
  let data ← if doff ≤ payload.length then sliceFrom payload doff else some []
  return ⟨srcPort, dstPort, seq, ackNum, doff, flags, wnd, data, (payload.take doff).drop 20⟩

/-- `Tcp.tcpHandleSegment` goes on with the same header, read without the checks. -/
def tcpHandleSegment (env : Env) (srcIp : Tcp.IpAddr) (payload : Bytes) : NetM Unit := do
  if payload.length < 20 then return
  discard (orStop (readHeader payload) : NetM Tcp.Header)
  onTcp (Tcp.tcpHandleSegment (tcpEnv env (← get)) srcIp payload)

def handleIpv4 (env : Env) (srcMac payload : Bytes) : NetM Unit := do
  if payload.length < 20 then return
  let first ← byte payload 0
  if first >>> 4 ≠ 4 then return
  let ihl := ((first &&& 0xF) * 4).toNat
  let totalLen ← word payload 2
  if payload.length < ihl ∨ totalLen > payload.length then return
  let proto ← byte payload 9
  let srcIp ← arrayAt 4 payload 12
  let dstIp ← arrayAt 4 payload 16
  let myIp := (← get).ip
  if dstIp ≠ myIp ∧ dstIp ≠ broadcastIp ∧ myIp ≠ unsetIp then return
  arpLearn srcIp (← orStop (array6 srcMac))
  let ipPayload ← cut payload ihl totalLen
  if proto = 1 then handleIcmp env srcMac srcIp ipPayload
  else if proto = 6 then tcpHandleSegment env (Ip4.addr srcIp) ipPayload
  else if proto = 17 then handleUdpDispatch env ipPayload

def handleIpv6 (env : Env) (srcMac payload : Bytes) : NetM Unit := do
  if payload.length < 40 then return
  if (← byte payload 0) >>> 4 ≠ 6 then return
  let payloadLen ← word payload 4
  let nextHeader ← byte payload 6
  let srcIp ← arrayAt 16 payload 8
  let dstIp ← arrayAt 16 payload 24
  if payload.length < 40 + payloadLen then return
  let ipPayload ← cut payload 40 (40 + payloadLen)
  let s ← get
  if ¬(dstIp = s.ip6 ∨ (s.ip6g ≠ unsetIp6 ∧ dstIp = s.ip6g) ∨ dstIp[0] = 0xFF) then return
  ndpLearn srcIp (← orStop (array6 srcMac))
  if nextHeader = 58 then handleIcmpv6 env srcMac srcIp dstIp ipPayload
  else if nextHeader = 6 then tcpHandleSegment env (Ip6.addr srcIp) ipPayload

abbrev isMulticast6 (mac : Mac) : Prop := mac[0] = 0x33 ∧ mac[1] = 0x33

def handleFrame (env : Env) (frame : Bytes) : NetM Unit := do
  if frame.length < 14 then return
  let dstMac ← arrayAt 6 frame 0
  if ¬(dstMac = (← get).mac ∨ dstMac = broadcastMac ∨ isMulticast6 dstMac) then return
  let srcMac ← cut frame 6 12
  let ethertype ← word frame 12
  let payload ← cutFrom frame 14
  if ethertype = 0x0806 then handleArp payload
  else if ethertype = 0x0800 then handleIpv4 env srcMac payload
  else if ethertype = 0x86DD then handleIpv6 env srcMac payload

def Stack.zeroed : Stack where
  up := false
  mac := Vector.replicate 6 0
  ip := unsetIp
  mask := unsetIp
  gw := unsetIp
  ip6 := unsetIp6
  gw6 := unsetIp6
  ip6g := unsetIp6
  ip6Up := false
  arp := ⟨fun _ => ⟨unsetIp, Vector.replicate 6 0, false⟩, 0⟩
  ndp := fun _ => ⟨unsetIp6, Vector.replicate 6 0, false⟩
  dhcp := ⟨.idle, 0, unsetIp, unsetIp, 3600, 1800, 0, 0, 0⟩
  handlers := fun _ => none
  pendingTxn := 0
  pendingAddr := none
  pingReply := none
  ping6Reply := none
  tcp := Tcp.boot.table
  sent := []

def sendRs : NetM Unit := do
  let s ← get
  if s.ip6 = unsetIp6 then return
  let allRouters : Ip6 := ⟨([0xFF, 0x02] ++ List.replicate 13 0 ++ [2] : Bytes).toArray, rfl⟩
  let dstMac : Mac := ⟨[0x33, 0x33, 0x00, 0x00, 0x00, 0x02].toArray, rfl⟩
  let body := [133, 0, 0, 0, 0, 0, 0, 0, 1, 1] ++ s.mac.toList
  buildAndSendV6 s.ip6 allRouters dstMac s.mac (withChecksum6 s.ip6 allRouters body)

def init (env : Env) (mac : Mac) : NetM Unit := do
  modify fun s => { s with mac := mac, up := true, ip6 := macToLinkLocal mac }
  discard (udpRegister 68 .dhcp)
  sendDiscover env
  discard (udpRegister 5300 .dns)
  sendRs

end Aeglos.Net
