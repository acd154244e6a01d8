import Aeglos.Kernel.Net

/-!
# The frames of TCP segments

The bytes that `send_segment` hands to the driver.
-/

namespace Aeglos.Net

open Tcp

def Ip4.ofBits (addr : BitVec 32) : Ip4 := Vector.ofFn fun i => UInt8.ofNat (addr.toNat / 256 ^ (3 - i.val))
def Ip6.ofBits (addr : BitVec 128) : Ip6 := Vector.ofFn fun i => UInt8.ofNat (addr.toNat / 256 ^ (15 - i.val))

def segmentHead (seg : Segment) : Bytes :=
  let optionsLen := if seg.flags &&& tcpSyn ≠ 0 then 4 else 0
  toBe seg.srcPort 2 ++ toBe seg.dstPort 2 ++ toBe seg.seq.toNat 4 ++ toBe seg.ack.toNat 4 ++
    [UInt8.ofNat ((20 + optionsLen) / 4 * 16), seg.flags] ++ toBe seg.wnd 2

def segmentTail (seg : Segment) : Bytes :=
  [0, 0] ++ (if seg.flags &&& tcpSyn ≠ 0 then [2, 4] ++ toBe mssDefault 2 else []) ++ seg.data

def segmentBytes (seg : Segment) (checksum : Nat) : Bytes := segmentHead seg ++ (toBe checksum 2 ++ segmentTail seg)

/-- The addresses are added in alternation. -/
def tcpChecksum (src dst : Ip4) (data : Bytes) : Nat :=
  onesComplementSum data (Tcp.be16 src.toList 0 + Tcp.be16 dst.toList 0 + Tcp.be16 src.toList 2 +
    Tcp.be16 dst.toList 2 + 6 + data.length)

def sendSegmentFrame (c : TcpConn) (flags : UInt8) (data : Bytes) : NetM Unit := do
  let seg := buildTcpHeader c flags data
  let tcpLen := segmentLength flags data
  let s ← get
  match c.remoteIp with
  | .v4 addr =>
    let dst := Ip4.ofBits addr
    let dstMac ← resolveMacNonblocking dst
    if 14 + (20 + tcpLen) > 2048 then return
    netSendFrame (ethernet dstMac s.mac 0x0800 (ipv4Header 0 6 s.ip dst tcpLen ++
      segmentBytes seg (tcpChecksum s.ip dst (segmentBytes seg 0))))
  | .v6 addr =>
    let src := if s.ip6g ≠ unsetIp6 then s.ip6g else s.ip6
    let dst := Ip6.ofBits addr
    match s.ndp.lookup dst with
    | none => return
    | some dstMac =>
      if 14 + 40 + tcpLen > 2048 then return
      netSendFrame (ethernet dstMac s.mac 0x86DD (ipv6Header 6 64 src dst tcpLen ++
        segmentBytes seg (ipv6UpperChecksum src dst 6 (segmentBytes seg 0))))

end Aeglos.Net
