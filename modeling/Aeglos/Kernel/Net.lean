import Aeglos.Library.Slices
import Aeglos.Kernel.Tcp

/-!
# The state of the network stack

The statics of `net/`, and the frames that the stack sends outside of TCP connections. An access out
of range stops the computation.
-/

namespace Aeglos.Net

open Effects Slices

abbrev Mac := Vector UInt8 6
abbrev Ip4 := Vector UInt8 4
abbrev Ip6 := Vector UInt8 16

def broadcastMac : Mac := Vector.replicate 6 0xFF
def broadcastIp : Ip4 := Vector.replicate 4 255
def unsetIp : Ip4 := Vector.replicate 4 0
def unsetIp6 : Ip6 := Vector.replicate 16 0

def arrayOf (n : Nat) (s : Bytes) : Option (Vector UInt8 n) :=
  if h : n ≤ s.length then some (Vector.ofFn fun i => s.get ⟨i.val, by omega⟩) else none

def array4 : Bytes → Option Ip4 := arrayOf 4
def array6 : Bytes → Option Mac := arrayOf 6
def array16 : Bytes → Option Ip6 := arrayOf 16

def be16 (p : Bytes) (i : Nat) : Option Nat := do
  let a ← p[i]?
  let b ← p[i + 1]?
  return a.toNat * 256 + b.toNat

def be32 (p : Bytes) (i : Nat) : Option (BitVec 32) := do
  let a ← be16 p i
  let b ← be16 p (i + 2)
  return BitVec.ofNat 32 (a * 65536 + b)

def toBe (n width : Nat) : Bytes := (toLe n width).reverse

def Ip4.addr (ip : Ip4) : Tcp.IpAddr := .v4 (BitVec.ofNat 32 (fromLe ip.toList.reverse))
def Ip6.bits (ip : Ip6) : BitVec 128 := BitVec.ofNat 128 (fromLe ip.toList.reverse)
def Ip6.addr (ip : Ip6) : Tcp.IpAddr := .v6 ip.bits

structure ArpEntry where
  ip : Ip4
  mac : Mac
  valid : Bool

structure ArpCache where
  table : Fin 16 → ArpEntry
  cursor : Nat

structure NdpEntry where
  ip : Ip6
  mac : Mac
  valid : Bool

abbrev NdpCache := Fin 16 → NdpEntry

inductive DhcpState where
  | idle
  | discovering
  | requesting
  | bound
  | renewing
deriving DecidableEq

structure DhcpClient where
  state : DhcpState
  xid : BitVec 32
  offeredIp : Ip4
  serverIp : Ip4
  leaseSecs : BitVec 32
  t1Secs : BitVec 32
  boundTick : BitVec 32
  retryCount : Nat
  nextActionTick : BitVec 32

inductive Service where
  | dhcp
  | dns
deriving DecidableEq

structure UdpHandler where
  port : Nat
  service : Service

/-- `sent` holds the frames given to the driver, except for those of TCP segments, latest first. -/
structure Stack where
  up : Bool
  mac : Mac
  ip : Ip4
  mask : Ip4
  gw : Ip4
  ip6 : Ip6
  gw6 : Ip6
  ip6g : Ip6
  ip6Up : Bool
  arp : ArpCache
  ndp : NdpCache
  dhcp : DhcpClient
  handlers : Fin 16 → Option UdpHandler
  pendingTxn : Nat
  pendingAddr : Option Tcp.IpAddr
  pingReply : Option (BitVec 64)
  ping6Reply : Option (BitVec 32)
  tcp : Tcp.Table
  sent : List Bytes

def ping6Id : Nat := 0xAE60

/-- What a call sees of its surroundings; the code does not see `peer`. -/
structure Env where
  ticks : BitVec 32
  count : BitVec 64
  peer : Tcp.Peer

abbrev NetM := Comp Stack

def ArpCache.find (c : ArpCache) (ip : Ip4) : Option (Fin 16) :=
  (List.finRange 16).find? fun i => (c.table i).valid && decide ((c.table i).ip = ip)

lemma cacheSlot_lt (n : Nat) : n % 16 < 16 := Nat.mod_lt n (by decide)

def cacheSlot (n : Nat) : Fin 16 := ⟨n % 16, cacheSlot_lt n⟩

def ArpCache.learn (c : ArpCache) (ip : Ip4) (mac : Mac) : ArpCache :=
  match c.find ip with
  | some i => { c with table := Function.update c.table i { c.table i with mac := mac } }
  | none => ⟨Function.update c.table (cacheSlot c.cursor) ⟨ip, mac, true⟩, c.cursor + 1⟩

def ArpCache.lookup (c : ArpCache) (ip : Ip4) : Option Mac := (c.find ip).map fun i => (c.table i).mac

def NdpCache.find (c : NdpCache) (ip : Ip6) : Option (Fin 16) :=
  (List.finRange 16).find? fun i => (c i).valid && decide ((c i).ip = ip)

/-- An entry of the address is refreshed; otherwise the first free slot is taken, or slot 0. -/
def NdpCache.learn (c : NdpCache) (ip : Ip6) (mac : Mac) : NdpCache :=
  if ip = unsetIp6 then c
  else match c.find ip with
    | some i => Function.update c i { c i with mac := mac }
    | none =>
      let i := ((List.finRange 16).find? fun i => !(c i).valid).getD (cacheSlot 0)
      Function.update c i ⟨ip, mac, true⟩

def NdpCache.lookup (c : NdpCache) (ip : Ip6) : Option Mac := (c.find ip).map fun i => (c i).mac

def NdpCache.knows (c : NdpCache) (addr : BitVec 128) : Bool :=
  (List.finRange 16).any fun i => (c i).valid && decide (Ip6.bits (c i).ip = addr)

def arpLearn (ip : Ip4) (mac : Mac) : NetM Unit := modify fun s => { s with arp := s.arp.learn ip mac }
def ndpLearn (ip : Ip6) (mac : Mac) : NetM Unit := modify fun s => { s with ndp := s.ndp.learn ip mac }

def sumWords : Nat → Bytes → Nat
  | sum, a :: b :: rest => sumWords (sum + (a.toNat * 256 + b.toNat)) rest
  | sum, [a] => sum + a.toNat * 256
  | sum, [] => sum

def foldCarries (sum : Nat) : Nat :=
  if sum / 65536 = 0 then sum else foldCarries (sum % 65536 + sum / 65536)
termination_by sum
decreasing_by omega

def onesComplementSum (data : Bytes) (initial : Nat) : Nat := 65535 - foldCarries (sumWords initial data)

def ipChecksum (data : Bytes) : Nat := onesComplementSum data 0

def ipv6UpperChecksum (src dst : Ip6) (nextHeader : UInt8) (data : Bytes) : Nat :=
  let addresses := sumWords (sumWords 0 src.toList) dst.toList
  onesComplementSum data (addresses + data.length / 65536 % 65536 + data.length % 65536 + nextHeader.toNat)

def netSendFrame (frame : Bytes) : NetM Unit := do
  if frame.length > 2048 then stop
  modify fun s => { s with sent := frame :: s.sent }

def ethernet (dst src : Mac) (ethertype : Nat) (body : Bytes) : Bytes :=
  dst.toList ++ src.toList ++ toBe ethertype 2 ++ body

def ipv4Header (ident : Nat) (proto : UInt8) (src dst : Ip4) (len : Nat) : Bytes :=
  let start := [0x45, 0x00] ++ toBe (20 + len) 2 ++ toBe ident 2 ++ [0x40, 0x00, 64, proto]
  let checksum := ipChecksum (start ++ [0, 0] ++ src.toList ++ dst.toList)
  start ++ toBe checksum 2 ++ src.toList ++ dst.toList

def ipv6Header (nextHeader hopLimit : UInt8) (src dst : Ip6) (len : Nat) : Bytes :=
  [0x60, 0, 0, 0] ++ toBe len 2 ++ [nextHeader, hopLimit] ++ src.toList ++ dst.toList

def arpFrame (dst : Mac) (s : Stack) (oper : Nat) (targetMac : Mac) (targetIp : Ip4) : Bytes :=
  ethernet dst s.mac 0x0806
    ([0x00, 0x01, 0x08, 0x00, 6, 4] ++ toBe oper 2 ++ s.mac.toList ++ s.ip.toList ++ targetMac.toList ++ targetIp.toList)

def sendArpRequest (targetIp : Ip4) : NetM Unit := do
  netSendFrame (arpFrame broadcastMac (← get) 1 (Vector.replicate 6 0) targetIp)

def sendArpReply (targetIp : Ip4) (targetMac : Mac) : NetM Unit := do
  netSendFrame (arpFrame targetMac (← get) 2 targetMac targetIp)

def resolveMacNonblocking (dstIp : Ip4) : NetM Mac := do
  if dstIp = broadcastIp then return broadcastMac
  let s ← get
  let same := decide (dstIp.zipWith (· &&& ·) s.mask = s.ip.zipWith (· &&& ·) s.mask)
  let look := if same || decide (s.ip = unsetIp) then dstIp else s.gw
  match s.arp.lookup look with
  | some mac => return mac
  | none =>
    sendArpRequest look
    return broadcastMac

def udpSend (dstIp : Ip4) (dstPort srcPort : Nat) (data : Bytes) : NetM Bool := do
  let s ← get
  if s.up = false then return false
  if 14 + 20 + 8 + data.length > 2048 then return false
  let dstMac ← resolveMacNonblocking dstIp
  let datagram := toBe srcPort 2 ++ toBe dstPort 2 ++ toBe (8 + data.length) 2 ++ [0, 0] ++ data
  netSendFrame (ethernet dstMac s.mac 0x0800 (ipv4Header 1 17 s.ip dstIp (8 + data.length) ++ datagram))
  return true

def buildAndSendV6 (srcIp dstIp : Ip6) (dstMac srcMac : Mac) (body : Bytes) : NetM Unit := do
  if 14 + 40 + body.length > 2048 then return
  netSendFrame (ethernet dstMac srcMac 0x86DD (ipv6Header 58 255 srcIp dstIp body.length ++ body))

def withChecksum6 (src dst : Ip6) (body : Bytes) : Bytes :=
  body.take 2 ++ toBe (ipv6UpperChecksum src dst 58 body) 2 ++ body.drop 4

end Aeglos.Net
