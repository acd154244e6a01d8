import Aeglos.Kernel.Bytes
import Aeglos.Library.Effects

/-!
# The TCP connections of the kernel

The state machine of `net/tcp.rs`. What a function does to one connection is a computation on its
slot, which also records what was accepted and sent, and what was delivered.
-/

namespace Aeglos.Tcp

open Effects

def maxConns : Nat := 16
def bufSize : Nat := 32 * 1024
def mssDefault : Nat := 1460

def tcpFin : UInt8 := 0x01
def tcpSyn : UInt8 := 0x02
def tcpRst : UInt8 := 0x04
def tcpAck : UInt8 := 0x10

def retxInit : BitVec 32 := 50
def retxMax : Nat := 5
def timewaitTicks : BitVec 32 := 100
def cwndInit : Nat := mssDefault * 2
def ssthreshInit : Nat := 64 * 1024
def persistInit : Nat := 100
def persistMax : Nat := 6000
def lastackTimeout : BitVec 32 := 600
def maxFlushSegs : Nat := 8

abbrev ConnId := Fin maxConns

instance : NeZero bufSize := ⟨by decide⟩

instance : NeZero maxConns := ⟨by decide⟩

structure RingBuf where
  buf : Fin bufSize → UInt8
  head : Fin bufSize
  tail : Fin bufSize
  len : Nat

namespace RingBuf

def new : RingBuf := ⟨fun _ => 0, 0, 0, 0⟩

def avail (r : RingBuf) : Nat := r.len

def free (r : RingBuf) : Nat := bufSize - r.len

def pushByte (r : RingBuf) (b : UInt8) : RingBuf :=
  { r with buf := Function.update r.buf r.tail b, tail := r.tail + 1, len := r.len + 1 }

def push (r : RingBuf) (data : Bytes) : Nat × RingBuf :=
  let n := min data.length r.free
  (n, (data.take n).foldl pushByte r)

def peekFrom (r : RingBuf) (offset n : Nat) : Bytes :=
  (List.range (min n (r.len - offset))).map fun i => r.buf (r.head + Fin.ofNat bufSize (offset + i))

def discard (r : RingBuf) (n : Nat) : RingBuf :=
  { r with head := r.head + Fin.ofNat bufSize (min n r.len), len := r.len - min n r.len }

def pop (r : RingBuf) (n : Nat) : Bytes × RingBuf := (r.peekFrom 0 n, r.discard n)

end RingBuf

inductive IpAddr where
  | v4 (addr : BitVec 32)
  | v6 (addr : BitVec 128)
deriving DecidableEq

inductive TcpState where
  | free
  | synSent
  | listen
  | synRcvd
  | established
  | finWait1
  | finWait2
  | closing
  | closeWait
  | lastAck
  | timeWait
  | closed
deriving DecidableEq

structure TcpConn where
  state : TcpState
  remoteIp : IpAddr
  remotePort : Nat
  localPort : Nat
  sndNxt : BitVec 32
  sndUna : BitVec 32
  sndCur : Nat
  rcvNxt : BitVec 32
  sndWnd : Nat
  mss : Nat
  retxTicks : BitVec 32
  retxCount : Nat
  retxBackoff : Nat
  stateTick : BitVec 32
  cwnd : Nat
  ssthresh : Nat
  dupAcks : Nat
  lastAckRcvd : BitVec 32
  persistTicks : BitVec 32
  persistArm : Bool
  isServer : Bool
  acceptPort : Nat
  rx : Option RingBuf
  tx : Option RingBuf

def TcpConn.zeroed : TcpConn where
  state := .free
  remoteIp := .v4 0
  remotePort := 0
  localPort := 0
  sndNxt := 0
  sndUna := 0
  sndCur := 0
  rcvNxt := 0
  sndWnd := 8192
  mss := mssDefault
  retxTicks := 0
  retxCount := 0
  retxBackoff := 1
  stateTick := 0
  cwnd := cwndInit
  ssthresh := ssthreshInit
  dupAcks := 0
  lastAckRcvd := 0
  persistTicks := 0
  persistArm := false
  isServer := false
  acceptPort := 0
  rx := none
  tx := none

def TcpConn.txAvail (c : TcpConn) : Nat := (c.tx.map RingBuf.avail).getD 0

def TcpConn.txPeek (c : TcpConn) (offset n : Nat) : Bytes := (c.tx.map fun t => t.peekFrom offset n).getD []

structure Segment where
  srcPort : Nat
  dstPort : Nat
  seq : BitVec 32
  ack : BitVec 32
  flags : UInt8
  wnd : Nat
  data : Bytes

structure Stream where
  isn : BitVec 32
  accepted : Bytes
  sent : List Segment

structure Peer where
  irs : BitVec 32
  bytes : Bytes

structure Inbound where
  peer : Peer
  read : Bytes

structure Slot where
  conn : TcpConn
  stream : Stream
  inbound : Inbound

/-- What a call sees of its surroundings: the timer ticks, the low half of the timer counter and
the IPv6 neighbours with a known address. The code does not see `peer`, which is at the other end
of a connection that the call opens. -/
structure Env where
  ticks : BitVec 32
  count : BitVec 32
  neighbour : BitVec 128 → Bool
  peer : Peer

abbrev SlotM := Comp Slot

def modifyConn (f : TcpConn → TcpConn) : SlotM Unit := modify fun s => { s with conn := f s.conn }

def TcpConn.release (c : TcpConn) (state : TcpState) : TcpConn := { c with rx := none, tx := none, state := state }

def buildTcpHeader (c : TcpConn) (flags : UInt8) (data : Bytes) : Segment where
  srcPort := c.localPort
  dstPort := c.remotePort
  seq := c.sndNxt
  ack := c.rcvNxt
  flags := flags
  wnd := (c.rx.map fun r => min r.free 65535).getD 8192
  data := data

def framing (env : Env) : IpAddr → Option Nat
  | .v4 _ => some (14 + 20)
  | .v6 addr => if env.neighbour addr then some (14 + 40) else none

def segmentLength (flags : UInt8) (data : Bytes) : Nat :=
  20 + (if flags &&& tcpSyn ≠ 0 then 4 else 0) + data.length

def goesOut (env : Env) (c : TcpConn) (flags : UInt8) (data : Bytes) : Bool :=
  (framing env c.remoteIp).any fun below => decide (below + segmentLength flags data ≤ 2048)

def Slot.send (env : Env) (flags : UInt8) (data : Bytes) (s : Slot) : Slot :=
  if goesOut env s.conn flags data then
    { s with stream := { s.stream with sent := buildTcpHeader s.conn flags data :: s.stream.sent } }
  else s

def sendSegment (env : Env) (flags : UInt8) (data : Bytes) : SlotM Unit := modify (Slot.send env flags data)

def TcpConn.advance (env : Env) (n : Nat) (c : TcpConn) : TcpConn :=
  let moved := { c with sndNxt := c.sndNxt + BitVec.ofNat 32 n, sndCur := c.sndCur + n }
  if c.sndCur = 0 ∧ c.sndUna = c.sndNxt then
    { moved with retxTicks := env.ticks + retxInit, retxCount := 0, retxBackoff := 1 }
  else moved

def flushLoop (env : Env) : Nat → SlotM Unit
  | 0 => pure ()
  | segs + 1 => do
    let c := (← get).conn
    let effWnd := min c.sndWnd c.cwnd
    if c.sndCur ≥ effWnd then return
    let unsent := c.txAvail - c.sndCur
    if unsent = 0 then return
    let sendN := min (min unsent c.mss) (effWnd - c.sndCur)
    if sendN = 0 then return
    -- the segment buffer has 1460 bytes, whatever the peer's segment size
    if sendN > 1460 then stop
    let seg := c.txPeek c.sndCur sendN
    if seg.length = 0 then return
    sendSegment env tcpAck seg
    modifyConn (TcpConn.advance env seg.length)
    flushLoop env segs

def flushTx (env : Env) : SlotM Unit := flushLoop env maxFlushSegs

def tcpWrite (env : Env) (data : Bytes) : SlotM Nat := do
  let c := (← get).conn
  if c.state ≠ .established ∧ c.state ≠ .closeWait then return 0
  match c.tx with
  | none => return 0
  | some tx =>
    let pushed := tx.push data
    modify fun s =>
      { s with
        conn := { s.conn with tx := some pushed.2 }
        stream := { s.stream with accepted := s.stream.accepted ++ data.take pushed.1 } }
    flushTx env
    return pushed.1

def tcpRead (n : Nat) : SlotM Bytes := do
  let c := (← get).conn
  match c.rx with
  | none => return []
  | some rx =>
    modify fun s =>
      { s with
        conn := { s.conn with rx := some (rx.pop n).2 }
        inbound := { s.inbound with read := s.inbound.read ++ (rx.pop n).1 } }
    return (rx.pop n).1

def sendFin (env : Env) (next : TcpState) : SlotM Unit := do
  sendSegment env (tcpFin ||| tcpAck) []
  modifyConn fun c => { c with sndNxt := c.sndNxt + 1, state := next, stateTick := env.ticks }

def tcpClose (env : Env) : SlotM Unit := do
  let c := (← get).conn
  match c.state with
  | .established => sendFin env .finWait1
  | .closeWait => sendFin env .lastAck
  | _ => modifyConn fun c => c.release .free

/-- A slot is taken for a connection, which starts a stream; the first segment counts as one byte. -/
def openSlot (env : Env) (c : TcpConn) (flags : UInt8) : SlotM Unit := do
  set (Slot.mk c ⟨c.sndNxt, [], []⟩ ⟨env.peer, []⟩)
  sendSegment env flags []
  modifyConn fun c => { c with sndNxt := c.sndNxt + 1 }

/-- What `tcp_wait_established` does between two polls: a SYN whose timer has expired is sent
again. The result is what the function returns, if it does before its deadline. -/
def awaitEstablished (env : Env) : SlotM (Option Bool) := do
  let c := (← get).conn
  if c.state = .established then return some true
  if c.state = .closed ∨ c.state = .free then return some false
  if c.retxTicks ≤ env.ticks ∧ c.retxCount < retxMax then
    modifyConn fun c => { c with sndNxt := c.sndUna }
    sendSegment env tcpSyn []
    modifyConn fun c =>
      let backoff := min (min (c.retxBackoff * 2) 255) 16
      { c with
        sndNxt := c.sndUna + 1, retxCount := c.retxCount + 1, retxBackoff := backoff
        retxTicks := env.ticks + retxInit * BitVec.ofNat 32 backoff }
  return none

def awaitReadable (env : Env) : SlotM (Option Bool) := do
  flushTx env
  let c := (← get).conn
  if (c.rx.map RingBuf.avail).getD 0 > 0 then return some true
  if c.state ∈ [.closed, .free, .closeWait, .closing, .finWait2, .timeWait] then return some false
  return none

structure Header where
  srcPort : Nat
  dstPort : Nat
  seq : BitVec 32
  ackNum : BitVec 32
  doff : Nat
  flags : UInt8
  wnd : Nat
  data : Bytes
  options : Bytes

def be16 (p : Bytes) (i : Nat) : Nat := (p.getD i 0).toNat * 256 + (p.getD (i + 1) 0).toNat

def be32 (p : Bytes) (i : Nat) : BitVec 32 := BitVec.ofNat 32 (be16 p i * 65536 + be16 p (i + 2))

def parseHeader (payload : Bytes) : Header :=
  let doff := (payload.getD 12 0).toNat / 16 * 4
  { srcPort := be16 payload 0
    dstPort := be16 payload 2
    seq := be32 payload 4
    ackNum := be32 payload 8
    doff := doff
    flags := payload.getD 13 0
    wnd := be16 payload 14
    data := if doff ≤ payload.length then payload.drop doff else []
    options := (payload.take doff).drop 20 }

def Header.has (h : Header) (flag : UInt8) : Prop := h.flags &&& flag ≠ 0

instance (h : Header) (flag : UInt8) : Decidable (h.has flag) := inferInstanceAs (Decidable (h.flags &&& flag ≠ 0))

/-- The option loop: the peer's segment size, or `mss` if it names none. Each turn passes a byte
at least, so the number of bytes is enough turns. -/
def optionMss : Nat → Nat → Bytes → Nat
  | turns + 1, mss, kind :: len :: rest =>
    if kind = 0 then mss
    else if kind = 1 then optionMss turns mss (len :: rest)
    else if kind = 2 ∧ 2 ≤ rest.length then optionMss turns (be16 rest 0) (rest.drop 2)
    else optionMss turns mss (rest.drop len.toNat)
  | _, mss, _ => mss

def deliver (env : Env) (h : Header) : SlotM Unit := do
  let c := (← get).conn
  if h.data ≠ [] ∧ h.seq = c.rcvNxt then
    let pushed := c.rx.map fun rx => rx.push h.data
    modifyConn fun c =>
      { c with rx := pushed.map Prod.snd, rcvNxt := c.rcvNxt + BitVec.ofNat 32 ((pushed.map Prod.fst).getD 0) }
    sendSegment env tcpAck []

def onSynRcvd (env : Env) (h : Header) : SlotM Unit := do
  let c := (← get).conn
  if h.has tcpAck ∧ h.ackNum = c.sndNxt then
    modifyConn fun c =>
      { c with sndUna := h.ackNum, state := .established, retxCount := 0, retxBackoff := 1 }
    deliver env h

def onSynSent (env : Env) (h : Header) : SlotM Unit := do
  if h.has tcpSyn ∧ h.has tcpAck then
    modifyConn fun c =>
      { c with rcvNxt := h.seq + 1, sndUna := h.ackNum, retxCount := 0, retxBackoff := 1 }
    -- the options are a slice from byte 20 to the data offset
    if h.doff < 20 then stop
    modifyConn fun c =>
      { c with mss := optionMss h.options.length c.mss h.options, state := .established }
    sendSegment env tcpAck []

def TcpConn.acked (c : TcpConn) (h : Header) : Nat := (h.ackNum - c.sndUna).toNat

def TcpConn.slide (acked : Nat) (ackNum : BitVec 32) (c : TcpConn) : TcpConn :=
  let grown :=
    if c.cwnd < c.ssthresh then min acked c.mss
    else max (min (c.mss * acked) (2 ^ 32 - 1) / max c.cwnd 1) 1
  { c with
    cwnd := min (c.cwnd + grown) (2 ^ 32 - 1)
    sndUna := ackNum
    tx := c.tx.map fun tx => tx.discard acked
    sndCur := c.sndCur - acked
    retxCount := 0
    retxBackoff := 1
    dupAcks := 0
    lastAckRcvd := ackNum
    persistArm := if c.sndWnd > 0 then false else c.persistArm }

def TcpConn.inFlight (c : TcpConn) : Nat := (c.sndNxt - c.sndUna).toNat

def TcpConn.fastRetransmit (c : TcpConn) : TcpConn :=
  let ssthresh := max (c.inFlight / 2) (c.mss * 2)
  { c with
    ssthresh := ssthresh, cwnd := min (ssthresh + c.mss * 3) (2 ^ 32 - 1), sndNxt := c.sndUna, sndCur := 0 }

def onDuplicateAck (env : Env) : SlotM Unit := do
  let dupAcks := min ((← get).conn.dupAcks + 1) 255
  modifyConn fun c => { c with dupAcks := dupAcks }
  if dupAcks = 3 then
    modifyConn TcpConn.fastRetransmit
    flushTx env
  else if dupAcks > 3 then
    modifyConn fun c => { c with cwnd := min (c.cwnd + c.mss) (2 ^ 32 - 1) }
    flushTx env

def TcpConn.armPersist (env : Env) (c : TcpConn) : TcpConn :=
  if c.sndWnd = 0 ∧ c.persistArm = false then
    { c with persistTicks := env.ticks + BitVec.ofNat 32 persistInit, persistArm := true }
  else c

def processAck (env : Env) (h : Header) : SlotM Unit := do
  let c := (← get).conn
  let acked := c.acked h
  if 0 < acked ∧ acked ≤ c.sndCur + 1 then
    modifyConn (TcpConn.slide acked h.ackNum)
    flushTx env
  else if acked = 0 ∧ h.ackNum = c.lastAckRcvd ∧ h.data = [] then
    onDuplicateAck env
  modifyConn (TcpConn.armPersist env)

def TcpConn.finReceived (env : Env) (c : TcpConn) : TcpConn :=
  match c.state with
  | .established => { c with state := .closeWait }
  | .finWait1 => { c with state := .closing }
  | .finWait2 => { c with state := .timeWait, stateTick := env.ticks }
  | _ => c

def onPeerFin (env : Env) : SlotM Unit := do
  modifyConn fun c => { c with rcvNxt := c.rcvNxt + 1 }
  sendSegment env tcpAck []
  modifyConn (TcpConn.finReceived env)

def TcpConn.finConfirmed (h : Header) (c : TcpConn) : TcpConn :=
  if c.state = .finWait1 ∧ h.has tcpAck ∧ h.ackNum = c.sndNxt then { c with state := .finWait2 } else c

def receiveData (env : Env) (h : Header) : SlotM Unit := do
  deliver env h
  if h.has tcpFin then onPeerFin env
  modifyConn (TcpConn.finConfirmed h)

def onData (env : Env) (h : Header) : SlotM Unit := do
  if h.has tcpAck then processAck env h
  receiveData env h

def onLastAck (h : Header) : SlotM Unit :=
  modifyConn fun c => if h.has tcpAck ∧ h.ackNum = c.sndNxt then c.release .free else c

def onSegment (env : Env) (h : Header) : SlotM Unit := do
  if h.has tcpRst then
    modifyConn fun c => c.release .closed
  else
    modifyConn fun c => { c with sndWnd := h.wnd }
    match (← get).conn.state with
    | .synRcvd => onSynRcvd env h
    | .synSent => onSynSent env h
    | .established | .finWait1 | .finWait2 => onData env h
    | .lastAck => onLastAck h
    | _ => pure ()

def TcpConn.waited (env : Env) (limit : BitVec 32) (c : TcpConn) : Bool := decide (limit ≤ env.ticks - c.stateTick)

def resend (env : Env) (limit : BitVec 32) (flags : UInt8) : SlotM Unit := do
  let c := (← get).conn
  if c.waited env limit then
    if c.retxCount ≥ retxMax then modifyConn fun c => c.release .free
    else
      sendSegment env flags []
      modifyConn fun c => { c with retxCount := c.retxCount + 1, stateTick := env.ticks }

def TcpConn.probes (env : Env) (c : TcpConn) : Bool := c.persistArm && decide (c.persistTicks ≤ env.ticks)

def persistProbe (env : Env) : SlotM Unit := do
  let c := (← get).conn
  sendSegment env tcpAck (c.txPeek 0 1)
  modifyConn fun c =>
    { c with
      retxBackoff := min (min (c.retxBackoff * 2) 255) 64
      persistTicks := env.ticks + BitVec.ofNat 32 (min (persistInit * c.retxBackoff) persistMax) }

def TcpConn.expired (env : Env) (c : TcpConn) : Bool := decide (0 < c.inFlight ∧ c.retxTicks ≤ env.ticks)

/-- The timeout: slow start, from the first unacknowledged byte. `backoff` is the one that
`tcp_tick` read at its start. -/
def retransmit (env : Env) (backoff : Nat) : SlotM Unit := do
  let c := (← get).conn
  if c.retxCount ≥ retxMax then modifyConn fun c => c.release .closed
  else
    modifyConn fun c =>
      { c with ssthresh := max (c.inFlight / 2) (c.mss * 2), cwnd := c.mss, sndNxt := c.sndUna, sndCur := 0 }
    let avail := min c.txAvail c.mss
    if avail > 1460 then stop
    let seg := c.txPeek 0 avail
    sendSegment env (if c.state = .finWait1 then tcpFin ||| tcpAck else tcpAck) seg
    let backoff := min (min (backoff * 2) 255) 16
    modifyConn fun c =>
      { c with
        sndNxt := c.sndNxt + BitVec.ofNat 32 seg.length, sndCur := seg.length, retxCount := c.retxCount + 1
        retxBackoff := backoff, retxTicks := env.ticks + retxInit * BitVec.ofNat 32 backoff }

def onTimers (env : Env) : SlotM Unit := do
  let c := (← get).conn
  if c.probes env then persistProbe env
  if c.expired env then retransmit env c.retxBackoff

def tickSlot (env : Env) : SlotM Unit := do
  let c := (← get).conn
  match c.state with
  | .synRcvd => resend env (retxInit * 10) (tcpSyn ||| tcpAck)
  | .timeWait | .closing => if c.waited env timewaitTicks then modifyConn fun c => c.release .free
  | .lastAck => resend env lastackTimeout (tcpFin ||| tcpAck)
  | .established | .finWait1 | .finWait2 => onTimers env
  | _ => pure ()

structure Reset where
  dstIp : BitVec 32
  dstPort : Nat
  srcPort : Nat
  seq : BitVec 32

structure Table where
  slots : ConnId → Slot
  nextPort : Nat
  resets : List Reset

abbrev TcpM := Comp Table

def onSlot {α : Type} (id : ConnId) (x : SlotM α) : TcpM α :=
  zoom (fun t => t.slots id) (fun s t => { t with slots := Function.update t.slots id s }) x

def position (t : Table) (p : TcpConn → Bool) : Option ConnId :=
  (List.finRange maxConns).find? fun id => p (t.slots id).conn

def freeSlot (t : Table) : Option ConnId := position t fun c => decide (c.state = .free)

def tcpConnect (env : Env) (dstIp : IpAddr) (dstPort : Nat) (resolved : Bool) : TcpM (Option ConnId) := do
  let t ← get
  match freeSlot t with
  | none => return none
  | some id =>
    if resolved then
      set { t with nextPort := if t.nextPort ≥ 65535 then 49152 else t.nextPort + 1 }
      let c := { TcpConn.zeroed with
        state := .synSent, remoteIp := dstIp, remotePort := dstPort, localPort := t.nextPort
        sndNxt := env.count, sndUna := env.count, retxTicks := env.ticks + retxInit, stateTick := env.ticks
        lastAckRcvd := env.count, rx := some RingBuf.new, tx := some RingBuf.new }
      onSlot id (openSlot env c tcpSyn)
      return some id
    else return none

def tcpListen (env : Env) (localPort : Nat) : TcpM (Option ConnId) := do
  match freeSlot (← get) with
  | none => return none
  | some id =>
    onSlot id (modifyConn fun _ =>
      { TcpConn.zeroed with state := .listen, localPort := localPort, stateTick := env.ticks })
    return some id

def tcpAccept (listener : ConnId) : TcpM (Option ConnId) := do
  let t ← get
  let port := (t.slots listener).conn.localPort
  match position t fun c => decide (c.state = .established ∧ c.isServer ∧ c.acceptPort = port) with
  | none => return none
  | some id =>
    onSlot id (modifyConn fun c => { c with isServer := false })
    return some id

def findConn (t : Table) (srcIp : IpAddr) (h : Header) : Option ConnId :=
  position t fun c => decide (c.state ≠ .free ∧ c.remoteIp = srcIp ∧ c.remotePort = h.srcPort ∧
    c.localPort = h.dstPort)

def sendRstRaw (dstIp : IpAddr) (dstPort srcPort : Nat) (seq : BitVec 32) : TcpM Unit :=
  match dstIp with
  | .v4 addr => modify fun t => { t with resets := ⟨addr, dstPort, srcPort, seq⟩ :: t.resets }
  | .v6 _ => pure ()

def acceptSyn (env : Env) (srcIp : IpAddr) (h : Header) : SlotM Unit :=
  let isn := env.count ^^^ (BitVec.ofNat 32 h.dstPort <<< 16)
  openSlot env
    { TcpConn.zeroed with
      state := .synRcvd, remoteIp := srcIp, remotePort := h.srcPort, localPort := h.dstPort, sndNxt := isn
      sndUna := isn, rcvNxt := h.seq + 1, sndWnd := h.wnd, retxTicks := env.ticks + retxInit
      stateTick := env.ticks, lastAckRcvd := isn, isServer := true, acceptPort := h.dstPort
      rx := some RingBuf.new, tx := some RingBuf.new }
    (tcpSyn ||| tcpAck)

def onUnmatched (env : Env) (srcIp : IpAddr) (h : Header) : TcpM Unit := do
  let t ← get
  let listening := position t fun c => decide (c.state = .listen ∧ c.localPort = h.dstPort)
  if h.has tcpSyn ∧ ¬h.has tcpRst ∧ ¬h.has tcpAck ∧ listening.isSome then
    match freeSlot t with
    | some id => onSlot id (acceptSyn env srcIp h)
    | none => pure ()
  else if ¬h.has tcpRst then sendRstRaw srcIp h.srcPort h.dstPort h.ackNum

def tcpHandleSegment (env : Env) (srcIp : IpAddr) (payload : Bytes) : TcpM Unit := do
  if payload.length < 20 then return
  let h := parseHeader payload
  match findConn (← get) srcIp h with
  | some id => onSlot id (onSegment env h)
  | none => onUnmatched env srcIp h

def tcpTick (env : Env) : TcpM Unit := (List.finRange maxConns).forM fun id => onSlot id (tickSlot env)

def onId (id : Nat) (x : SlotM Unit) : TcpM Unit := if h : id < maxConns then onSlot ⟨id, h⟩ x else pure ()

/-- The ways into the module. A loop that waits is the turns it makes between two polls. -/
inductive Op where
  | connect (dstIp : IpAddr) (dstPort : Nat) (resolved : Bool)
  | listen (port : Nat)
  | accept (listener : ConnId)
  | awaitEstablished (id : ConnId)
  | awaitReadable (id : ConnId)
  | read (id n : Nat)
  | write (id : Nat) (data : Bytes)
  | close (id : Nat)
  | segment (srcIp : IpAddr) (payload : Bytes)
  | tick

def exec (env : Env) : Op → TcpM Unit
  | .connect dstIp dstPort resolved => discard (tcpConnect env dstIp dstPort resolved)
  | .listen port => discard (tcpListen env port)
  | .accept listener => discard (tcpAccept listener)
  | .awaitEstablished id => discard (onSlot id (awaitEstablished env))
  | .awaitReadable id => discard (onSlot id (awaitReadable env))
  | .read id n => onId id (discard (tcpRead n))
  | .write id data => onId id (discard (tcpWrite env data))
  | .close id => onId id (tcpClose env)
  | .segment srcIp payload => tcpHandleSegment env srcIp payload
  | .tick => tcpTick env

structure System where
  table : Table
  panicked : Bool

def step (s : System) (a : Env × Op) : System :=
  if s.panicked then s
  else match exec a.1 a.2 s.table with
    | .ok r => ⟨r.2, false⟩
    | .error t => ⟨t, true⟩

def boot : System := ⟨⟨fun _ => ⟨TcpConn.zeroed, ⟨0, [], []⟩, ⟨⟨0, []⟩, []⟩⟩, 49152, []⟩, false⟩

end Aeglos.Tcp
