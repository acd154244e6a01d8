import Aeglos.Kernel.Bytes
import Aeglos.Kernel.Page

/-!
# The network card

`drivers/e1000.rs`: the driver and the device take turns in any order. A step is one access to
shared memory or to a register.
-/

namespace Aeglos.E1000

def txRingSize : Nat := 16
def rxRingSize : Nat := 16
def rxBufSize : Nat := 2048

def txdCmdEop : UInt8 := 0x1
def txdCmdIfcs : UInt8 := 0x2
def txdCmdRs : UInt8 := 0x8
def txdStatDd : UInt8 := 0x1

def rxdStatDd : UInt8 := 0x1
def rxdStatEop : UInt8 := 0x2

abbrev Buffers := Nat → Nat → UInt8

def Buffers.set (bufs : Buffers) (slot offset : Nat) (b : UInt8) : Buffers :=
  Function.update bufs slot (Function.update (bufs slot) offset b)

structure RxDesc where
  length : Nat
  status : UInt8

def RxDesc.done (d : RxDesc) : Bool := d.status &&& rxdStatDd != 0

/-- Where a call of `recv` is; `room` is the size of the caller's buffer. The result of a frame that
does not fit is `none`. -/
inductive RecvState where
  | idle
  | started (room : Nat)
  | ready (room : Nat)
  | copying (room len : Nat) (out : Bytes)
  | recycling (room : Nat) (result : Option Bytes)
  | returning (room : Nat) (result : Option Bytes)

inductive RxDevice where
  | idle
  | writing (frame : Bytes) (k : Nat)
  | filled (frame : Bytes)
  | sized (frame : Bytes)
  | done

/-- `stored` are the frames whose done bit the device has set, and `consumed` the calls that have
given a descriptor back, with the size of their buffer and their result. Neither is ever read. -/
structure Rx where
  up : Bool
  descs : Nat → RxDesc
  bufs : Buffers
  rdh : Nat
  rdt : Nat
  headShadow : Nat
  tail : Nat
  recv : RecvState
  device : RxDevice
  stored : List Bytes
  consumed : List (Nat × Option Bytes)

namespace Rx

def init : Rx where
  up := true
  descs := fun _ => ⟨0, 0⟩
  bufs := fun _ _ => 0
  rdh := 0
  rdt := rxRingSize - 1
  headShadow := 0
  tail := rxRingSize - 1
  recv := .idle
  device := .idle
  stored := []
  consumed := []

def setStatus (s : Rx) (slot : Nat) (status : UInt8) : Rx :=
  { s with descs := Function.update s.descs slot ⟨(s.descs slot).length, status⟩ }

def setLength (s : Rx) (slot len : Nat) : Rx :=
  { s with descs := Function.update s.descs slot ⟨len, (s.descs slot).status⟩ }

def next (s : Rx) : Nat := s.headShadow % rxRingSize

def recvStep (s : Rx) : Rx :=
  match s.recv with
  | .idle => s
  | .started room =>
    if !s.up then { s with recv := .idle }
    else if (s.descs s.next).done then { s with recv := .ready room }
    else { s with recv := .idle }
  | .ready room =>
    let len := (s.descs s.next).length
    if len = 0 ∨ len > room then { s with recv := .recycling room none }
    else { s with recv := .copying room len [] }
  | .copying room len out =>
    if out.length < len then { s with recv := .copying room len (out ++ [s.bufs s.next out.length]) }
    else { s with recv := .recycling room (some out) }
  | .recycling room result => { s.setStatus s.next 0 with recv := .returning room result }
  | .returning room result =>
    let tail := wrap64 (s.tail + 1)
    { s with
      headShadow := wrap64 (s.headShadow + 1)
      tail := tail
      rdt := tail % rxRingSize
      recv := .idle
      consumed := s.consumed ++ [(room, result)] }

def arrive (s : Rx) (frame : Bytes) : Rx :=
  match s.device with
  | .idle => if s.rdh ≠ s.rdt ∧ frame.length ≤ rxBufSize then { s with device := .writing frame 0 } else s
  | _ => s

def deviceStep (s : Rx) : Rx :=
  match s.device with
  | .idle => s
  | .writing frame k =>
    match frame[k]? with
    | some b => { s with bufs := s.bufs.set s.rdh k b, device := .writing frame (k + 1) }
    | none => { s with device := .filled frame }
  | .filled frame => { s.setLength s.rdh frame.length with device := .sized frame }
  | .sized frame =>
    { s.setStatus s.rdh (rxdStatDd ||| rxdStatEop) with device := .done, stored := s.stored ++ [frame] }
  | .done => { s with rdh := (s.rdh + 1) % rxRingSize, device := .idle }

end Rx

inductive RxEvent where
  | call (room : Nat)
  | driver
  | arrive (frame : Bytes)
  | device

def Rx.step (s : Rx) : RxEvent → Rx
  | .call room =>
    match s.recv with
    | .idle => { s with recv := .started room }
    | _ => s
  | .driver => s.recvStep
  | .arrive frame => s.arrive frame
  | .device => s.deviceStep

structure TxDesc where
  length : Nat
  cmd : UInt8
  status : UInt8

def TxDesc.done (d : TxDesc) : Bool := d.status &&& txdStatDd != 0

inductive SendState where
  | idle
  | started (data : Bytes)
  | copying (data : Bytes) (k : Nat)
  | sizing (data : Bytes)
  | commanding (data : Bytes)
  | clearing (data : Bytes)
  | publishing (data : Bytes)

inductive TxDevice where
  | idle
  | reading (len : Nat) (out : Bytes)
  | sent
  | done

/-- `accepted` are the frames for which `send` has returned true, `transmitted` those that the device
has put on the wire. Neither is ever read. -/
structure Tx where
  up : Bool
  descs : Nat → TxDesc
  bufs : Buffers
  tdh : Nat
  tdt : Nat
  tail : Nat
  send : SendState
  device : TxDevice
  accepted : List Bytes
  transmitted : List Bytes

namespace Tx

def init : Tx where
  up := true
  descs := fun _ => ⟨0, 0, txdStatDd⟩
  bufs := fun _ _ => 0
  tdh := 0
  tdt := 0
  tail := 0
  send := .idle
  device := .idle
  accepted := []
  transmitted := []

def next (s : Tx) : Nat := s.tail % txRingSize

def setLength (s : Tx) (slot len : Nat) : Tx :=
  { s with descs := Function.update s.descs slot ⟨len, (s.descs slot).cmd, (s.descs slot).status⟩ }

def setCmd (s : Tx) (slot : Nat) (cmd : UInt8) : Tx :=
  { s with descs := Function.update s.descs slot ⟨(s.descs slot).length, cmd, (s.descs slot).status⟩ }

def setStatus (s : Tx) (slot : Nat) (status : UInt8) : Tx :=
  { s with descs := Function.update s.descs slot ⟨(s.descs slot).length, (s.descs slot).cmd, status⟩ }

def sendStep (s : Tx) : Tx :=
  match s.send with
  | .idle => s
  | .started data =>
    if data.length > rxBufSize then { s with send := .idle }
    else if !s.up then { s with send := .idle }
    else if (s.descs s.next).done then { s with send := .copying data 0 }
    else { s with send := .idle }
  | .copying data k =>
    match data[k]? with
    | some b => { s with bufs := s.bufs.set s.next k b, send := .copying data (k + 1) }
    | none => { s with send := .sizing data }
  | .sizing data => { s.setLength s.next (data.length % 2 ^ 16) with send := .commanding data }
  | .commanding data => { s.setCmd s.next (txdCmdEop ||| txdCmdIfcs ||| txdCmdRs) with send := .clearing data }
  | .clearing data => { s.setStatus s.next 0 with send := .publishing data }
  | .publishing data =>
    let tail := wrap64 (s.tail + 1)
    { s with
      tail := tail
      tdt := tail % txRingSize
      send := .idle
      accepted := s.accepted ++ [data] }

def deviceStep (s : Tx) : Tx :=
  match s.device with
  | .idle => if s.tdh ≠ s.tdt then { s with device := .reading (s.descs s.tdh).length [] } else s
  | .reading len out =>
    if out.length < len then { s with device := .reading len (out ++ [s.bufs s.tdh out.length]) }
    else { s with device := .sent, transmitted := s.transmitted ++ [out] }
  | .sent => { s.setStatus s.tdh txdStatDd with device := .done }
  | .done => { s with tdh := (s.tdh + 1) % txRingSize, device := .idle }

end Tx

inductive TxEvent where
  | call (data : Bytes)
  | driver
  | device

def Tx.step (s : Tx) : TxEvent → Tx
  | .call data =>
    match s.send with
    | .idle => { s with send := .started data }
    | _ => s
  | .driver => s.sendStep
  | .device => s.deviceStep

end Aeglos.E1000
