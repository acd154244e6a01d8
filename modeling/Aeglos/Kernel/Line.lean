import Aeglos.Kernel.Tcp

/-!
# A connection as its clients see it

The calls of `net/tcp.rs` on one connection. What the network and the clock do is an input: one
`Arrival` for each poll.
-/

namespace Aeglos.Net

open Tcp

/-- What happens up to the next call: accepted bytes, a new state, a reset that drops the buffers,
and whether a wait has gone on for longer than its limit. -/
structure Arrival where
  data : Bytes
  state : Option TcpState
  reset : Bool
  expired : Bool

/-- `writes` are the numbers of bytes that the next calls of `tcp_write` take, `sent` what has been
written. -/
structure Line where
  rx : Option Bytes
  state : TcpState
  arrivals : List Arrival
  writes : List Nat
  sent : List Bytes

def Line.readable (l : Line) : Bytes := l.rx.getD []

def Line.take (l : Line) (a : Arrival) (rest : List Arrival) : Line :=
  { l with
    rx := if a.reset then none else l.rx.map (· ++ a.data)
    state := a.state.getD l.state
    arrivals := rest }

def Line.arrive (l : Line) : Line :=
  match l.arrivals with
  | [] => l
  | a :: rest => l.take a rest

def peerClosed : List TcpState := [.closed, .free, .closeWait, .closing, .finWait2, .timeWait]

def waitLoop : List Arrival → Line → Bool × Line
  | [], l => (decide (l.readable ≠ []), l)
  | a :: rest, l =>
    let l := l.take a rest
    if l.readable ≠ [] then (true, l)
    else if l.state ∈ peerClosed ∨ a.expired then (false, l)
    else waitLoop rest l

def tcpWaitReadable (l : Line) : Bool × Line := waitLoop l.arrivals l

def tcpReadable (l : Line) : Nat × Line := (l.arrive.readable.length, l.arrive)

def tcpState (l : Line) : TcpState × Line := (l.arrive.state, l.arrive)

def tcpRead (n : Nat) (l : Line) : Bytes × Line :=
  let l := l.arrive
  (l.readable.take n, { l with rx := l.rx.map (List.drop n) })

def tcpWrite (data : Bytes) (l : Line) : Nat × Line :=
  (l.writes.headD 0, { l with writes := l.writes.tail, sent := l.sent ++ [data] })

structure Opening where
  resolved : Bool
  connected : Bool
  established : Bool
  line : Line

end Aeglos.Net
