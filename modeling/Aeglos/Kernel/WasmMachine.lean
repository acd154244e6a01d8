import Aeglos.Kernel.WasmBinary

/-!
# The state of the WebAssembly interpreter

The memory, the operand stack and the kernel around them. A ghost trace records what happens; its
last event says why a computation ended.
-/

namespace Aeglos.Wasm

open Effects

abbrev Value := BitVec 64

def wasmPageSize : Nat := 65536
def wasmMaxPages : Nat := 64
def kernelPagesPerWasmPage : Nat := 16
def maxStackDepth : Nat := 4096
def maxCallDepth : Nat := 256

structure LinearMemory where
  base : Nat
  pages : Nat
  capPages : Nat

namespace LinearMemory

def capacity (minPages : Nat) : Nat := min (max minPages 1) wasmMaxPages

def new (base minPages : Nat) : LinearMemory := ⟨base, min minPages (capacity minPages), capacity minPages⟩

def grow (m : LinearMemory) (delta : Nat) : BitVec 32 × LinearMemory :=
  if m.pages + delta > m.capPages then (-1, m) else (BitVec.ofNat 32 m.pages, { m with pages := m.pages + delta })

def check (m : LinearMemory) (addr : BitVec 32) (size : Nat) : Bool :=
  decide (min (addr.toNat + size) (2 ^ 64 - 1) ≤ m.pages * wasmPageSize)

end LinearMemory

structure TableEntry where
  funcIdx : Nat
  valid : Bool

/-- The host imports that the interpreter knows. Those with one body share a name. -/
inductive HostImport where
  | log
  | sendIpc
  | recvIpc
  | abort
  | argsGet
  | sizesGet
  | fdWrite
  | fdRead
  | procExit
  | clockTimeGet
  | fdClose
  | badFd
  | fdFdstatGet
  | fileOpen
  | fileRead
  | fileWrite
  | fileClose
  | yield
  | aiInfer
  | httpGet
  | randomGet
  | pollOneoff
  | schedYield
  | sock
  | unknown
  deriving DecidableEq

inductive Event where
  | access (addr len pages : Nat)
  | resized (pages : Nat)
  | depth (n : Nat)
  | frames (n : Nat)
  | call (callee : Nat)
  | imported (host : HostImport) (args : List Value)
  | uart (text : Bytes)
  | sent (tid : Nat)
  | received (msg : Message)
  | halted (h : Halt)

inductive HttpResult where
  | ok (body : Bytes)
  | dnsError
  | tcpError
  | httpError
  | timeout
  | bufferTooSmall

/-- The kernel functions that the interpreter calls, on a kernel state of type `η`. A call that
never returns stops. `boxed` is the address of a heap copy of some bytes. -/
structure Host (η : Type) where
  allocPages (count : Nat) : Comp η (Option Nat)
  currentTid : η → Nat
  totalTicks : η → Nat
  counter : Comp η (BitVec 64)
  boxed (bytes : Bytes) : Comp η Nat
  peek (ptr len : Nat) : Comp η Bytes
  sendMessage (tid : Nat) (msg : Message) : Comp η Bool
  recvMessage : Comp η (Option Message)
  yieldCpu : Comp η Unit
  openFile (path : Bytes) : Comp η (Option Nat)
  read (fd len : Nat) : Comp η (Option Bytes)
  write (fd : Nat) (data : Bytes) : Comp η (Option Nat)
  close (fd : Nat) : Comp η Unit
  httpGet (host path : Bytes) (port len : Nat) : Comp η HttpResult
  read_length : ∀ {fd len h bytes h'}, read fd len h = .ok (some bytes, h') → bytes.length ≤ len
  body_length : ∀ {host path port len h body h'},
    httpGet host path port len h = .ok (.ok body, h') → body.length ≤ len

/-- The interpreter, the bytes of physical memory, the kernel, and the trace with the latest
event first. The top of the operand stack is the head of the list. -/
structure Machine (η : Type) where
  mem : LinearMemory
  globals : List Value
  table : List TableEntry
  stack : List Value
  ram : Nat → UInt8
  kernel : η
  trace : List Event

abbrev Exec (η α : Type) := Comp (Machine η) α

section Primitives

variable {η α : Type}

def emit (e : Event) : Exec η Unit := modify fun s => { s with trace := e :: s.trace }

def halt (h : Halt) : Exec η α := do
  emit (.halted h)
  stop

def fail (e : WasmError) : Exec η α := halt (.error e)

def trap (text : String) : Exec η α := fail (.trap text)

def panic : Exec η α := halt .panic

def hosted (x : Comp η α) : Exec η α := zoom Machine.kernel (fun k s => { s with kernel := k }) x

def orFail (o : Option α) (e : WasmError) : Exec η α :=
  match o with
  | none => fail e
  | some a => return a

def push (v : Value) : Exec η Unit := do
  let s ← get
  if s.stack.length ≥ maxStackDepth then fail .stackOverflow
  else
    set { s with stack := v :: s.stack }
    emit (.depth (s.stack.length + 1))

def pushAll : List Value → Exec η Unit
  | [] => return ()
  | v :: vs => do
    push v
    pushAll vs

def pop : Exec η Value := do
  let s ← get
  match s.stack with
  | [] => trap "stack underflow"
  | v :: rest =>
    set { s with stack := rest }
    return v

def pop2 : Exec η (Value × Value) := do
  let b ← pop
  let a ← pop
  return (b, a)

def stackFrom (start : Nat) : Exec η (List Value) := do
  let s ← get
  if start ≤ s.stack.length then return (s.stack.take (s.stack.length - start)).reverse else panic

def truncate (len : Nat) : Exec η Unit := modify fun s => { s with stack := s.stack.drop (s.stack.length - len) }

def popN (n : Nat) : Exec η (List Value) := do
  let s ← get
  if s.stack.length < n then trap "pop_n underflow"
  else
    let vals ← stackFrom (s.stack.length - n)
    truncate (s.stack.length - n)
    return vals

def trimStack (baseSp keep : Nat) : Exec η Unit := do
  let s ← get
  if s.stack.length < baseSp then trap "trim_stack underflow"
  else if keep > 0 ∧ s.stack.length ≥ keep then
    let top ← stackFrom (s.stack.length - keep)
    truncate baseSp
    pushAll top
  else truncate baseSp

def bytesAt (ram : Nat → UInt8) (addr len : Nat) : Bytes := (List.range len).map fun i => ram (addr + i)

def LinearMemory.bytes (m : LinearMemory) (ram : Nat → UInt8) (addr : BitVec 32) (len : Nat) : Option Bytes :=
  if m.check addr len then some (bytesAt ram (m.base + addr.toNat) len) else none

def readBytes (addr : BitVec 32) (len : Nat) : Exec η (Option Bytes) := do
  let s ← get
  if s.mem.check addr len then
    emit (.access (s.mem.base + addr.toNat) len s.mem.pages)
  return s.mem.bytes s.ram addr len

def loadLe (width : Nat) (addr : BitVec 32) : Exec η (Option Value) := do
  return (← readBytes addr width).map fun bytes => BitVec.ofNat 64 (fromLe bytes)

def writeBytes (addr : BitVec 32) (data : Bytes) : Exec η Bool := do
  let s ← get
  if s.mem.check addr data.length then
    let dst := s.mem.base + addr.toNat
    emit (.access dst data.length s.mem.pages)
    modify fun s => { s with ram := fun a =>
      if dst ≤ a ∧ a < dst + data.length then data.getD (a - dst) 0 else s.ram a }
    return true
  else return false

def storeLe (width : Nat) (addr : BitVec 32) (v : Value) : Exec η Bool := writeBytes addr (toLe v.toNat width)

def memoryGrow (delta : Nat) : Exec η (BitVec 32) := do
  let s ← get
  let (old, mem) := s.mem.grow delta
  set { s with mem := mem }
  emit (.resized mem.pages)
  return old

end Primitives

end Aeglos.Wasm
