import Aeglos.Kernel.NetReceive
import Aeglos.Kernel.Page

/-!
# The resolver

`net/dns.rs`. A call of `dns_resolve` is cut at its polls, where calls and packets interleave.
-/

namespace Aeglos.Net

open Effects Slices

def cacheSize : Nat := 16

/-- `name` is the part of the array that is in use. -/
structure DnsEntry where
  name : Bytes
  addr : Tcp.IpAddr
  ttlEnd : Nat

def dnsEmpty : DnsEntry := ⟨[], unsetIp.addr, 0⟩

abbrev DnsCache := Fin cacheSize → DnsEntry

def lookupFrom (name : Bytes) (now : Nat) : List (Fin cacheSize) → DnsCache → Option Tcp.IpAddr × DnsCache
  | [], cache => (none, cache)
  | i :: rest, cache =>
    if (cache i).ttlEnd = 0 then lookupFrom name now rest cache
    else if (cache i).ttlEnd < now then
      lookupFrom name now rest (Function.update cache i { cache i with ttlEnd := 0 })
    else if (cache i).name = name then (some (cache i).addr, cache)
    else lookupFrom name now rest cache

def cacheLookup (name : Bytes) (now : Nat) : DnsCache → Option Tcp.IpAddr × DnsCache :=
  lookupFrom name now (List.finRange cacheSize)

def saturate32 (n : Nat) : Nat := min n (2 ^ 32 - 1)

def insertedEntry (name : Bytes) (addr : Tcp.IpAddr) (ttlSecs now : Nat) : DnsEntry :=
  ⟨name.take 63, addr, saturate32 (now + saturate32 (ttlSecs * 100))⟩

def queryLabels : Nat → List Bytes → Bytes
  | _, [] => []
  | off, label :: rest =>
    let lb := label.take 63
    if off + 1 + lb.length ≥ 480 then []
    else UInt8.ofNat lb.length :: lb ++ queryLabels (off + 1 + lb.length) rest

def buildDnsQuery (name : Bytes) (txnId qtype : Nat) : Bytes :=
  toBe txnId 2 ++ [0x01, 0x00, 0x00, 0x01, 0x00, 0x00, 0x00, 0x00, 0x00, 0x00] ++
    queryLabels 12 (name.splitOn 46) ++ [0] ++ toBe qtype 2 ++ [0x00, 0x01]

def dottedFrom : Bytes → Bytes → Nat → Bool → Option Bytes
  | [], octets, cur, hasDigit =>
    if hasDigit = false ∨ octets.length ≠ 3 then none else some (octets ++ [UInt8.ofNat cur])
  | b :: rest, octets, cur, hasDigit =>
    if b = 46 then
      if hasDigit = false ∨ octets.length ≥ 3 then none
      else dottedFrom rest (octets ++ [UInt8.ofNat cur]) 0 false
    else if b ≥ 48 ∧ b ≤ 57 then
      if cur * 10 + (b - 48).toNat > 255 then none else dottedFrom rest octets (cur * 10 + (b - 48).toNat) true
    else none

def parseDottedIp (s : Bytes) : Option Ip4 := (dottedFrom s [] 0 false).bind array4

/-- The statics of the resolver, the calls that wait for an answer, and the history: the names and
packets of the queries, the responses that have arrived, and the results. Nothing reads the history. -/
structure Resolver where
  stack : Stack
  cache : DnsCache
  cursor : Nat
  waiting : Nat → Option Bytes
  queries : List (Bytes × Bytes)
  received : List Bytes
  results : List (Bytes × Tcp.IpAddr)

namespace Resolver

def start (stack : Stack) : Resolver := ⟨stack, fun _ => dnsEmpty, 0, fun _ => none, [], [], []⟩

def answer (r : Resolver) (name : Bytes) (addr : Tcp.IpAddr) : Resolver := { r with results := (name, addr) :: r.results }

def cacheInsert (r : Resolver) (name : Bytes) (addr : Tcp.IpAddr) (ttlSecs now : Nat) : Resolver :=
  { r with
    cache := Function.update r.cache ⟨r.cursor % cacheSize, Nat.mod_lt _ (by decide)⟩ (insertedEntry name addr ttlSecs now)
    cursor := wrap64 (r.cursor + 1) }

def sendQuery (r : Resolver) (name : Bytes) (count : Nat) : Resolver :=
  { r with
    stack := { r.stack with pendingTxn := count % 65536, pendingAddr := none }
    queries := (name, buildDnsQuery name (count % 65536) 1) :: r.queries }

def wait (r : Resolver) (tid : Nat) (name : Bytes) : Resolver :=
  { r with waiting := Function.update r.waiting tid (some name) }

def leave (r : Resolver) (tid : Nat) : Resolver := { r with waiting := Function.update r.waiting tid none }

def takeAddr (r : Resolver) : Resolver := { r with stack := { r.stack with pendingAddr := none } }

def call (r : Resolver) (tid : Nat) (name : Bytes) (now count : Nat) : Resolver :=
  match parseDottedIp name with
  | some ip => r.answer name ip.addr
  | none =>
    match cacheLookup name (now % 2 ^ 32) r.cache with
    | (some addr, cache) => { r with cache := cache }.answer name addr
    | (none, cache) => ({ r with cache := cache }.sendQuery name count).wait tid name

def arrive (r : Resolver) (data : Bytes) : Resolver :=
  { r with stack := after (handleDnsResponse data) r.stack, received := data :: r.received }

def poll (r : Resolver) (tid : Nat) (name : Bytes) (now : Nat) : Resolver :=
  match r.stack.pendingAddr with
  | some addr => ((r.takeAddr.cacheInsert name addr 300 (now % 2 ^ 32)).answer name addr).leave tid
  | none => r

end Resolver

inductive DnsAction where
  | call (tid : Nat) (name : Bytes) (now count : Nat)
  | arrive (data : Bytes)
  | poll (tid now : Nat)
  | expire (tid : Nat)

namespace Resolver

/-- A task that waits does not call again, and only a task that waits polls. -/
def step (r : Resolver) : DnsAction → Resolver
  | .call tid name now count => if (r.waiting tid).isSome then r else r.call tid name now count
  | .arrive data => r.arrive data
  | .poll tid now =>
    match r.waiting tid with
    | some name => r.poll tid name now
    | none => r
  | .expire tid => r.leave tid

end Resolver

end Aeglos.Net
