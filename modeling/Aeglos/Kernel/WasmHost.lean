import Aeglos.Kernel.WasmMachine

/-!
# Host imports

`call_host` and `dispatch_host_import` of `wasm/interp.rs`. A missing argument reads as zero.
Arithmetic on `u32` wraps around.
-/

namespace Aeglos.Wasm

open Effects

def hostImports : List (String × String × HostImport) :=
  [("aeglos", "log", .log), ("aeglos", "send_ipc", .sendIpc), ("aeglos", "recv_ipc", .recvIpc),
    ("env", "abort", .abort), ("env", "__assert_fail", .abort),
    ("wasi_snapshot_preview1", "args_get", .argsGet),
    ("wasi_snapshot_preview1", "args_sizes_get", .sizesGet),
    ("wasi_snapshot_preview1", "environ_get", .argsGet),
    ("wasi_snapshot_preview1", "environ_sizes_get", .sizesGet),
    ("wasi_snapshot_preview1", "fd_write", .fdWrite), ("wasi_snapshot_preview1", "fd_read", .fdRead),
    ("wasi_snapshot_preview1", "proc_exit", .procExit),
    ("wasi_snapshot_preview1", "clock_time_get", .clockTimeGet),
    ("wasi_snapshot_preview1", "fd_close", .fdClose), ("wasi_snapshot_preview1", "fd_seek", .badFd),
    ("wasi_snapshot_preview1", "fd_fdstat_get", .fdFdstatGet),
    ("wasi_snapshot_preview1", "fd_prestat_get", .badFd),
    ("wasi_snapshot_preview1", "fd_prestat_dir_name", .badFd),
    ("wasi_snapshot_preview1", "path_open", .badFd),
    ("aeglos", "file_open", .fileOpen), ("aeglos", "file_read", .fileRead),
    ("aeglos", "file_write", .fileWrite), ("aeglos", "file_close", .fileClose),
    ("aeglos", "yield", .yield), ("aeglos", "ai_infer", .aiInfer), ("aeglos", "http_get", .httpGet),
    ("wasi_snapshot_preview1", "random_get", .randomGet),
    ("wasi_snapshot_preview1", "poll_oneoff", .pollOneoff),
    ("wasi_snapshot_preview1", "sched_yield", .schedYield),
    ("wasi_snapshot_preview1", "sock_accept", .sock), ("wasi_snapshot_preview1", "sock_recv", .sock),
    ("wasi_snapshot_preview1", "sock_send", .sock), ("wasi_snapshot_preview1", "sock_shutdown", .sock)]

def HostImport.ofNames (module name : Bytes) : HostImport :=
  ((hostImports.find? fun e => ascii e.1 = module ∧ ascii e.2.1 = name).map fun e => e.2.2).getD .unknown

def arg (args : List Value) (i : Nat) : Value := args.getD i 0

def arg32 (args : List Value) (i : Nat) : BitVec 32 := (arg args i).setWidth 32

def ofI32 (n : Int) : Value := (BitVec.ofInt 32 n).signExtend 64

def uartText (bytes : Bytes) : Bytes := bytes.flatMap fun b => if b = 10 then [13, 10] else [b]

def parseDigits : Bytes → Nat → Option Nat
  | [], n => some n
  | b :: bs, n =>
    if 48 ≤ b ∧ b ≤ 57 then
      let n := n * 10 + (b.toNat - 48)
      if n < 65536 then parseDigits bs n else none
    else none

def parseU16 (s : Bytes) : Option Nat :=
  match s with
  | [] => none
  | b :: bs => if b = 43 then (if bs = [] then none else parseDigits bs 0) else parseDigits (b :: bs) 0

structure Url where
  https : Bool
  host : Bytes
  port : Nat
  path : Bytes

def parseUrl (url : Bytes) : Option Url :=
  let split (https : Bool) (rest : Bytes) : Option Url :=
    let authority := rest.takeWhile (· ≠ 47)
    let path := if rest.contains 47 then rest.dropWhile (· ≠ 47) else [47]
    match rfind 58 authority with
    | some idx => (parseU16 (authority.drop (idx + 1))).map fun port => ⟨https, authority.take idx, port, path⟩
    | none => some ⟨https, authority, if https then 443 else 80, path⟩
  if (ascii "https://").isPrefixOf url then split true (url.drop 8)
  else if (ascii "http://").isPrefixOf url then split false (url.drop 7)
  else none

section Imports

variable {η : Type} (host : Host η) (args : List Value)

def hostLog : Exec η (List Value) := do
  match ← readBytes (arg32 args 0) (arg32 args 1).toNat with
  | some bytes =>
    emit (.uart (uartText bytes))
    return []
  | none => return []

def hostSendIpc : Exec η (List Value) := do
  let tid := (arg args 0).toNat
  let ptr := arg32 args 1
  match ← readBytes ptr 32 with
  | none => fail (.memoryFault ptr)
  | some bytes =>
    let msg : Message := ⟨host.currentTid (← get).kernel, payload bytes⟩
    if ← hosted (host.sendMessage tid msg) then
      emit (.sent tid)
      return [0]
    else return [-1]

/-- The mailbox is emptied of a message even if the message cannot be stored. -/
def hostRecvIpc : Exec η (List Value) := do
  match ← hosted host.recvMessage with
  | some msg =>
    emit (.received msg)
    if ← writeBytes (arg32 args 0) msg.data.toList then return [0] else return [-1]
  | none => return [-1]

def hostSizesGet : Exec η (List Value) := do
  let _ ← storeLe 4 (arg32 args 0) 0
  let _ ← storeLe 4 (arg32 args 1) 0
  return [0]

def fdWriteLoop (iovs : BitVec 32) : Nat → BitVec 32 → BitVec 32 → Exec η (BitVec 32)
  | 0, _, total => return total
  | n + 1, i, total => do
    let iov := iovs + i * 8
    let ptr := ((← loadLe 4 iov).getD 0).setWidth 32
    let len : BitVec 32 := ((← loadLe 4 (iov + 4)).getD 0).setWidth 32
    match ← readBytes ptr len.toNat with
    | some bytes =>
      emit (.uart (uartText bytes))
      fdWriteLoop iovs n (i + 1) (total + len)
    | none => fdWriteLoop iovs n (i + 1) total

def hostFdWrite : Exec η (List Value) := do
  let fd := arg32 args 0
  let count := if fd = 1 ∨ fd = 2 then (arg32 args 2).toNat else 0
  let total ← fdWriteLoop (arg32 args 1) count 0 0
  let _ ← storeLe 4 (arg32 args 3) (total.setWidth 64)
  return [0]

def hostFdRead : Exec η (List Value) := do
  let _ ← storeLe 4 (arg32 args 3) 0
  return [8]

def hostClockTimeGet : Exec η (List Value) := do
  let ptr := arg32 args 2
  let nanos : Value := BitVec.ofNat 64 (host.totalTicks (← get).kernel) * 10000000
  let _ ← storeLe 4 ptr nanos
  let _ ← storeLe 4 (ptr + 4) (nanos >>> 32)
  return [0]

def hostFdFdstatGet : Exec η (List Value) := if (arg32 args 0).toNat < 3 then return [0] else return [8]

def hostFileOpen : Exec η (List Value) := do
  match ← readBytes (arg32 args 0) (arg32 args 1).toNat with
  | none => return [ofI32 (-1)]
  | some bytes =>
    match ← hosted (host.openFile (strOrEmpty bytes)) with
    | some fd => return [ofI32 fd]
    | none => return [ofI32 (-1)]

def sliceTo (bytes : Bytes) (len : Nat) : Exec η Bytes := if bytes.length ≤ len then return bytes else panic

def hostFileRead : Exec η (List Value) := do
  let fd := (arg args 0).toNat
  let cap := min (arg32 args 2).toNat 4096
  match ← hosted (host.read fd cap) with
  | none => return [ofI32 (-1)]
  | some [] => return [0]
  | some bytes =>
    let slice ← sliceTo bytes cap
    if ← writeBytes (arg32 args 1) slice then return [ofI32 bytes.length] else return [ofI32 (-1)]

def hostFileWrite : Exec η (List Value) := do
  match ← readBytes (arg32 args 1) (arg32 args 2).toNat with
  | none => return [ofI32 (-1)]
  | some bytes =>
    match ← hosted (host.write (arg args 0).toNat bytes) with
    | some n => return [ofI32 n]
    | none => return [ofI32 (-1)]

def awaitReply (outPtr : BitVec 32) (outMax : Nat) : Nat → Exec η Value
  | 0 => halt .unfinished
  | fuel + 1 => do
    match ← hosted host.recvMessage with
    | some reply =>
      emit (.received reply)
      if reply.sender = Call.numenorTid then
        let ptr := reply.word 1
        let len := reply.word 2
        if ptr ≠ 0 ∧ len > 0 then
          let n := min len outMax
          let bytes ← hosted (host.peek ptr n)
          if ← writeBytes outPtr bytes then return ofI32 n else return ofI32 (-1)
        else return 0
      else awaitReply outPtr outMax fuel
    | none =>
      hosted host.yieldCpu
      awaitReply outPtr outMax fuel

def hostAiInfer (fuel : Nat) : Exec η (List Value) := do
  match ← readBytes (arg32 args 0) (arg32 args 1).toNat with
  | none => return [ofI32 (-1)]
  | some prompt =>
    let ptr ← hosted (host.boxed prompt)
    let msg : Message :=
      ⟨host.currentTid (← get).kernel, payload (toLe 2 8 ++ toLe ptr 8 ++ toLe prompt.length 8)⟩
    if ← hosted (host.sendMessage Call.numenorTid msg) then
      emit (.sent Call.numenorTid)
      return [← awaitReply host (arg32 args 2) (arg args 3).toNat fuel]
    else return [ofI32 (-1)]

def hostHttpGet : Exec η (List Value) := do
  match ← readBytes (arg32 args 0) (arg32 args 1).toNat with
  | none => return [ofI32 (-1)]
  | some bytes =>
    match parseUrl (strOrEmpty bytes) with
    | none => return [ofI32 (-1)]
    | some url =>
      if url.https then return [ofI32 (-6)]
      else
        let cap := min (arg32 args 3).toNat 8192
        match ← hosted (host.httpGet url.host url.path url.port cap) with
        | .ok body =>
          let slice ← sliceTo body cap
          if ← writeBytes (arg32 args 2) slice then return [ofI32 body.length] else return [ofI32 (-1)]
        | .dnsError => return [ofI32 (-1)]
        | .tcpError => return [ofI32 (-2)]
        | .httpError => return [ofI32 (-3)]
        | .timeout => return [ofI32 (-4)]
        | .bufferTooSmall => return [ofI32 (-5)]

def randomBytes : Nat → BitVec 64 → Bytes
  | 0, _ => []
  | n + 1, seed =>
    let seed := seed * 6364136223846793005 + 1442695040888963407
    UInt8.ofBitVec ((seed >>> 56).setWidth 8) :: randomBytes n seed

def hostRandomGet : Exec η (List Value) := do
  let seed ← hosted host.counter
  let cap := min (arg32 args 1).toNat 65536
  if ← writeBytes (arg32 args 0) (randomBytes cap seed) then return [0] else return [8]

def hostPollOneoff : Exec η (List Value) := do
  let _ ← storeLe 4 (arg32 args 3) 0
  return [0]

def runImport (fuel : Nat) (module name : Bytes) : HostImport → Exec η (List Value)
  | .log => hostLog args
  | .sendIpc => hostSendIpc host args
  | .recvIpc => hostRecvIpc host args
  | .abort => trap "wasm abort"
  | .argsGet => return [0]
  | .sizesGet => hostSizesGet args
  | .fdWrite => hostFdWrite args
  | .fdRead => hostFdRead args
  | .procExit => trap "proc_exit"
  | .clockTimeGet => hostClockTimeGet host args
  | .fdClose => do
    hosted (host.close (arg args 0).toNat)
    return [0]
  | .badFd => return [8]
  | .fdFdstatGet => hostFdFdstatGet args
  | .fileOpen => hostFileOpen host args
  | .fileRead => hostFileRead host args
  | .fileWrite => hostFileWrite host args
  | .fileClose => do
    hosted (host.close (arg args 0).toNat)
    return []
  | .yield => do
    hosted host.yieldCpu
    return []
  | .aiInfer => hostAiInfer host args fuel
  | .httpGet => hostHttpGet host args
  | .randomGet => hostRandomGet host args
  | .pollOneoff => hostPollOneoff args
  | .schedYield => do
    hosted host.yieldCpu
    return [0]
  | .sock => return [58]
  | .unknown => do
    emit (.uart (ascii "[wasm] unknown import: " ++ module ++ ascii "::" ++ name ++ [13, 10]))
    return [0]

def dispatchHostImport (fuel : Nat) (module name : Bytes) : Exec η (List Value) := do
  emit (.imported (HostImport.ofNames module name) args)
  runImport host args fuel module name (HostImport.ofNames module name)

def callHost (m : WasmModule) (fuel importIdx : Nat) : Exec η (List Value) :=
  match m.importedFuncs[importIdx]? with
  | some i => dispatchHostImport host args fuel i.1.module i.1.name
  | none => trap "unknown host import"

end Imports

end Aeglos.Wasm
