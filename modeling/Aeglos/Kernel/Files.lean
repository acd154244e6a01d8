import Aeglos.Kernel.System

/-!
# File and configuration syscalls

The syscalls of `fs/mod.rs` and `config.rs`, and the atomic file syscalls of `syscall/mod.rs`. A
`Reply` is x0 and the bytes that are stored through pointer arguments.
-/

namespace Aeglos

open Effects

structure Reply where
  ret : Int
  out : List (Nat × Bytes)

def Reply.value (ret : Int) : Reply := ⟨ret, []⟩

inductive HostCall where
  | sendIpc (tid : Nat) (data : Bytes)
  | recvIpc
  | fileOpen (path : Bytes)
  | fileRead (fd len : Nat)
  | fileWrite (fd : Nat) (data : Bytes)
  | fileClose (fd : Nat)
  | yield
  | aiInfer (prompt len outMax : Nat) (polls : List (Option Message))
  | httpGet (frames : List Bytes)

/-- What the devices, the network stack, the heap and the interpreter contribute to one
syscall. `polls` are the messages that other CPUs deliver while the call polls its mailbox,
and `ioBuffer` is what a failed disk read leaves in the I/O buffer. -/
structure Env where
  received : Option Bytes
  ioBuffer : Bytes
  typed : Bytes
  events : List Bytes
  rtc : Nat
  ip : Bytes
  mac : Bytes
  random : Nat
  heapPtr : Nat
  heapHole : Bytes
  polls : List (Option Message)
  spoken : Bool
  frames : List Bytes
  netRet : Int
  netData : Bytes
  dns : Option Bytes
  host : List HostCall
  hostRet : Int

def payload (bytes : Bytes) : Vector UInt8 32 := Vector.ofFn fun i => bytes.getD i.val 0

def Message.word (m : Message) (i : Nat) : Nat := fromLe ((m.data.toList.drop (8 * i)).take 8)

namespace Call

def loadStr (cpu : Cpu) (ptr len : Nat) : Call Bytes := strOrEmpty <$> load cpu ptr len

def loadOptional (cpu : Cpu) (ptr len : Nat) : Call Bytes :=
  if ptr ≠ 0 ∧ len > 0 then load cpu ptr len else return []

def freePages (p : PageAllocator) : Nat := (List.range p.numPages).countP p.bitmap

def listTasks (s : Sched) (max : Nat) : List (Nat × BitVec 64 × Bytes) :=
  (((List.finRange maxTasks).filterMap s.tasks).map fun t => (t.tid, t.capabilities, t.name)).take max

def procInfo (s : Sched) (env : Env) : ProcInfo where
  totalTicks := s.totalTicks
  idleTicks := s.idleTicks
  freePages := freePages s.mem.pages
  totalPages := s.mem.pages.numPages
  ip := env.ip
  mac := env.mac
  tasks := listTasks s 16

def vfsAlloc (fd : VfsFd) : Call Int := do
  match ← vfs fun v => v.vfsAlloc fd with
  | some i => return i.val
  | none => return -1

def opened : Option VfsFd → Call Int
  | some fd => vfsAlloc fd
  | none => return -1

def arrive (myTid : Nat) : Option Message → Call Unit
  | some msg => sched (.sendMessage myTid msg) fun _ => ()
  | none => return ()

def memPoll (cpu : Cpu) (myTid : Nat) : List (Option Message) → Call (Option VfsFd)
  | [] => return none
  | arrival :: rest => do
    arrive myTid arrival
    match ← sched (.tryRecvMessage cpu) fun s => (s.tryRecvMessage cpu).1 with
    | some msg =>
      if msg.word 0 = 101 then
        return some (.inline ((msg.data.toList.drop 16).take (min (msg.word 1) 16)) 0 false)
      else memPoll cpu myTid rest
    | none => memPoll cpu myTid rest

def memKey (path : Bytes) : Bytes :=
  let key := trimSlashes path
  if (ascii "mem/").isPrefixOf key then key.drop 4
  else if (ascii "mem").isPrefixOf key then key.drop 3
  else []

def memOpen (cpu : Cpu) (env : Env) (pathPtr : Nat) (path : Bytes) : Call (Option VfsFd) := do
  let key := memKey path
  if key = [] then return none
  let myTid := (← get).sched.currentTid cpu
  let keyPtr := wrap64 (pathPtr + (path.length - key.length))
  let req : Message := ⟨myTid, payload (toLe 101 8 ++ toLe keyPtr 8 ++ toLe key.length 8)⟩
  if !(← sched (.sendMessage 2 req) fun s => (s.sendMessage 2 req).1) then return none
  memPoll cpu myTid env.polls

def sysOpen (cpu : Cpu) (env : Env) (pathPtr pathLen : Nat) : Call Int := do
  if pathPtr = 0 ∨ pathLen = 0 then return -1
  let path ← loadStr cpu pathPtr pathLen
  if path = [] then return -1
  match route path with
  | .proc => opened ((procInfo (← get).sched env).procOpen path)
  | .mem => opened (← memOpen cpu env pathPtr path)
  | .fat32 => opened ((← fat (Fat.openRead path)).map .fat32)

def sysReadFd (fd bufPtr len : Nat) : Call Reply := do
  if bufPtr = 0 ∨ len = 0 then return .value (-1)
  match (← get).vfs.fd fd with
  | some (_, .fat32 file) =>
    match ← fat (Fat.read file.val len) with
    | some bytes => return ⟨bytes.length, [(bufPtr, bytes)]⟩
    | none => return .value (-1)
  | some (i, .inline content pos writable) =>
    let bytes := (content.drop pos).take len
    if bytes = [] then return .value 0
    vfs fun v => ((), v.setFd i (some (.inline content (pos + bytes.length) writable)))
    return ⟨bytes.length, [(bufPtr, bytes)]⟩
  | some (_, .pipe id false) =>
    let bytes ← vfs fun v => (((v.pipes id).readBytes len).1, v.setPipe id ((v.pipes id).readBytes len).2)
    return ⟨bytes.length, [(bufPtr, bytes)]⟩
  | some (_, .pipe _ true) => return .value (-1)
  | none => return .value (-1)

def sysWriteFd (cpu : Cpu) (fd bufPtr len : Nat) : Call Int := do
  if bufPtr = 0 ∨ len = 0 then return -1
  match (← get).vfs.fd fd with
  | some (_, .fat32 file) =>
    let f := (← get).fat.openFiles file
    -- the buffer is read only when the file can be written
    if !f.used || !f.writable then return -1
    let bytes ← load cpu bufPtr len
    match ← fat (Fat.write file.val bytes) with
    | some n => return n
    | none => return -1
  | some (_, .inline _ _ writable) => return if writable then len else -1
  | some (_, .pipe id true) =>
    let bytes ← load cpu bufPtr (min len (pipeCap - ((← get).vfs.pipes id).count))
    let n ← vfs fun v => (((v.pipes id).writeBytes bytes).1, v.setPipe id ((v.pipes id).writeBytes bytes).2)
    return n
  | some (_, .pipe _ false) => return -1
  | none => return -1

def closePipe (writeEnd : Bool) (p : PipeBuf) : PipeBuf :=
  if writeEnd then { p with openWrite := false } else { p with openRead := false }

def sysClose (fd : Nat) : Call Int := do
  match (← get).vfs.fd fd with
  | some (i, .fat32 file) =>
    vfs fun v => ((), v.setFd i none)
    fat (Fat.close file.val)
    return 0
  | some (i, .inline _ _ _) =>
    vfs fun v => ((), v.setFd i none)
    return 0
  | some (i, .pipe id writeEnd) =>
    vfs fun v => ((), (v.setFd i none).setPipe id (closePipe writeEnd (v.pipes id)))
    return 0
  | none => return -1

/-- Nothing is written for paths below `/mem`: such a file only counts the bytes. -/
def sysCreate (cpu : Cpu) (pathPtr pathLen : Nat) : Call Int := do
  if pathPtr = 0 ∨ pathLen = 0 then return -1
  let path ← loadStr cpu pathPtr pathLen
  if path = [] then return -1
  match route path with
  | .proc => return -1
  | .mem => vfsAlloc (.inline [] 0 true)
  | .fat32 => opened ((← fat (Fat.openWrite path)).map .fat32)

def listing (outPtr : Nat) (entries : List (Bytes × Bool × Nat)) : List (Nat × Bytes) :=
  entries.zipIdx.flatMap fun e => (dirEntryBytes e.1.1 e.1.2.1 e.1.2.2).map fun run =>
    (wrap64 (outPtr + e.2 * dirEntrySize + run.1), run.2)

def sysReaddir (cpu : Cpu) (pathPtr pathLen outPtr : Nat) : Call Reply := do
  if pathPtr = 0 ∨ outPtr = 0 then return .value (-1)
  let path ← loadStr cpu pathPtr pathLen
  match route path with
  | .proc =>
    let entries := (procReaddir path).map fun e => (e.1, e.2, 0)
    return ⟨entries.length, listing outPtr entries⟩
  | .mem => return .value 0
  | .fat32 =>
    let entries := (← fat (Fat.readdir path 64)).map fun info => (info.name, info.isDir, info.size)
    return ⟨entries.length, listing outPtr entries⟩

def openPipe (v : Vfs) : Option (Fin vfsMaxFd × Fin vfsMaxFd) × Vfs :=
  match (List.finRange maxPipes).find? fun i => !(v.pipes i).openRead && !(v.pipes i).openWrite with
  | none => (none, v)
  | some id =>
    let fresh := { v.pipes id with readPos := 0, writePos := 0, count := 0 }
    let closed := v.setPipe id { fresh with openRead := false, openWrite := false }
    let opened := v.setPipe id { fresh with openRead := true, openWrite := true }
    match opened.vfsAlloc (.pipe id false) with
    | (none, _) => (none, closed)
    | (some rfd, v) =>
      match v.vfsAlloc (.pipe id true) with
      | (none, _) => (none, closed)
      | (some wfd, v) => (some (rfd, wfd), v)

def sysPipe (outPtr : Nat) : Call Reply := do
  if outPtr = 0 then return .value (-1)
  match ← vfs openPipe with
  | none => return .value (-1)
  | some (rfd, wfd) => return ⟨0, [(outPtr, toLe rfd.val 4), (wrap64 (outPtr + 4), toLe wfd.val 4)]⟩

def sysConfigGet (cpu : Cpu) (keyPtr keyLen outPtr outLen : Nat) : Call Reply := do
  if keyPtr = 0 ∨ keyLen = 0 then return .value (-1)
  let key ← loadStr cpu keyPtr keyLen
  match Config.configGet (← get).config key with
  | none => return .value (-1)
  | some v =>
    if outPtr ≠ 0 ∧ outLen > 0 then return ⟨(v.take outLen).length, [(outPtr, v.take outLen)]⟩
    else return .value v.length

def replaceFile (tmp path data : Bytes) : FatM Bool := do
  match ← Fat.openWrite tmp with
  | none => return false
  | some fd =>
    let _ ← Fat.write fd.val data
    Fat.close fd.val
    Fat.rename tmp path

def sysConfigSet (cpu : Cpu) (keyPtr keyLen valPtr valLen : Nat) : Call Int := do
  if keyPtr = 0 ∨ keyLen = 0 then return -1
  let key ← loadStr cpu keyPtr keyLen
  let val ← strOrEmpty <$> loadOptional cpu valPtr valLen
  match Config.configSet (← get).config key val with
  | none => return -1
  | some table =>
    modify fun k => { k with config := table }
    let _ ← fat (replaceFile (ascii "/config.t") (ascii "/config") (Config.serialise 4096 table))
    return 0

/-- A slice of a `str` that ends inside a character panics. -/
def charBoundary (s : Bytes) (i : Nat) : Bool := i ≥ s.length || !isContinuation (s.getD i 0)

def sysAtomicWrite (cpu : Cpu) (pathPtr pathLen dataPtr dataLen : Nat) : Call Int := do
  if pathPtr = 0 ∨ pathLen = 0 ∨ dataPtr = 0 then return -1
  let path ← load cpu pathPtr pathLen
  if !utf8Valid path then return -1
  let base := trimSlashes path
  let cut := min ((rfind 46 base).getD base.length) 7
  if !charBoundary base cut then stop
  let tmp := 47 :: base.take cut ++ ascii ".t"
  match ← fat (Fat.openWrite tmp) with
  | none => return -1
  | some fd =>
    let data ← load cpu dataPtr dataLen
    let _ ← fat (Fat.write fd.val data)
    fat (Fat.close fd.val)
    return if ← fat (Fat.rename tmp path) then 0 else -1

def sysUnlink (cpu : Cpu) (pathPtr pathLen : Nat) : Call Int := do
  if pathPtr = 0 ∨ pathLen = 0 then return -1
  let path ← load cpu pathPtr pathLen
  if !utf8Valid path then return -1
  return if ← fat (Fat.unlink path) then 0 else -1

def sysRename (cpu : Cpu) (srcPtr srcLen dstPtr dstLen : Nat) : Call Int := do
  if srcPtr = 0 ∨ srcLen = 0 ∨ dstPtr = 0 ∨ dstLen = 0 then return -1
  let src ← load cpu srcPtr srcLen
  let dst ← load cpu dstPtr dstLen
  if !utf8Valid src || !utf8Valid dst then return -1
  return if ← fat (Fat.rename src dst) then 0 else -1

end Call

end Aeglos
