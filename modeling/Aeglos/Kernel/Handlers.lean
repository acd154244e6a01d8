import Aeglos.Kernel.Elf

/-!
# The other syscalls

The handlers of `syscall/mod.rs` that do not work on files.
-/

namespace Aeglos

open Effects

def isize (n : Nat) : Int := (BitVec.ofNat 64 n).toInt

def i32 (n : Nat) : Int := (BitVec.ofNat 32 n).toInt

def sized (n : Nat) (bytes : Bytes) : Bytes := (bytes ++ List.replicate n 0).take n

def Message.bytes (m : Message) : Bytes := toLe m.sender 8 ++ m.data.toList

def messageSize : Nat := 40

namespace Cap

def send : BitVec 64 := 1#64 <<< 0
def recv : BitVec 64 := 1#64 <<< 1
def blk : BitVec 64 := 1#64 <<< 2
def ai : BitVec 64 := 1#64 <<< 3
def log : BitVec 64 := 1#64 <<< 4
def mem : BitVec 64 := 1#64 <<< 5
def net : BitVec 64 := 1#64 <<< 6
def all : BitVec 64 := allOnes64

end Cap

namespace Call

def numenorTid : Nat := 1

def mayMessage (caps : BitVec 64) (target : Nat) : Bool :=
  caps == Cap.all ||
    match target with
    | 0 => false
    | 1 => caps &&& Cap.ai != 0
    | _ => caps &&& Cap.send != 0

def sysSend (cpu : Cpu) (targetTid msgPtr : Nat) : Call Int := do
  if msgPtr = 0 then return -1
  let raw ← load cpu msgPtr messageSize
  let s := (← get).sched
  if !mayMessage (s.currentCaps cpu) targetTid then return -13
  let msg : Message := ⟨s.currentTid cpu, payload (raw.drop 8)⟩
  if ← sched (.sendMessage targetTid msg) fun s => (s.sendMessage targetTid msg).1 then
    return 0
  else return -2

def deliver (msgPtr : Nat) : Option Message → Reply
  | some msg => ⟨0, [(msgPtr, msg.bytes)]⟩
  | none => .value 1

def sysRecv (cpu : Cpu) (msgPtr : Nat) : Call Reply := do
  if msgPtr = 0 then return .value (-1)
  return deliver msgPtr (← sched (.recvMessage cpu) fun s => (s.recvMessage cpu).1)

def sysTryRecv (cpu : Cpu) (msgPtr : Nat) : Call Reply := do
  if msgPtr = 0 then return .value (-1)
  return deliver msgPtr (← sched (.tryRecvMessage cpu) fun s => (s.tryRecvMessage cpu).1)

def sysYield (cpu : Cpu) : Call Int := sched (.yieldCpu cpu) fun _ => 0

def sysExit (cpu : Cpu) (code : Int) : Call Int := sched (.exitTask cpu code) fun _ => 0

def sysWait (cpu : Cpu) (targetTid : Nat) : Call Int :=
  sched (.waitForTid cpu targetTid) fun s => (((s.waitForTid cpu targetTid).1).getD 0)

def sysAiCall (cpu : Cpu) (op arg1 arg2 : Nat) : Call Int := do
  let msg : Message := ⟨(← get).sched.currentTid cpu, payload (toLe op 8 ++ toLe arg1 8 ++ toLe arg2 8)⟩
  if ← sched (.sendMessage numenorTid msg) fun s => (s.sendMessage numenorTid msg).1 then
    return 0
  else return -1

def sysSigaction (cpu : Cpu) (handlerVa mask : Nat) : Call Int :=
  sched (.setSignalHandler cpu handlerVa (BitVec.ofNat 32 mask)) fun _ => 0

def sigkill : Nat := 1

def sysKill (tid sig : Nat) : Call Int := do
  if sig ≥ 32 then return -1
  if sig = sigkill then sched (.forceExit tid (-1)) fun _ => 0
  else sched (.sendSignal tid sig) fun s => if (s.sendSignal tid sig).1 then 0 else -1

def sysSigmask (cpu : Cpu) (newMask : Nat) : Call Int :=
  sched (.swapSignalMask cpu (BitVec.ofNat 32 newMask)) fun s =>
    (s.swapSignalMask cpu (BitVec.ofNat 32 newMask)).1.toNat

def spawned : Except String Nat → Int
  | .ok tid => tid
  | .error _ => -1

def sysClone (cpu : Cpu) (entryVa stackTop : Nat) (caps : BitVec 64) : Call Int := do
  if entryVa = 0 then return -1
  let s := (← get).sched
  let effectiveCaps := caps &&& s.currentCaps cpu
  let parentTtbr0 := s.currentTaskTtbr0 cpu
  if parentTtbr0 = 0 then return -1
  sched (.spawnUserThread (ascii "thread") entryVa stackTop effectiveCaps parentTtbr0) fun s =>
    spawned (s.spawnUserThread (ascii "thread") entryVa stackTop effectiveCaps parentTtbr0).1

def sysExec (cpu : Cpu) (env : Env) (pathPtr pathLen : Nat) (caps : BitVec 64) : Call Int := do
  if pathPtr = 0 ∨ pathLen = 0 then return -1
  let path ← loadStr cpu pathPtr pathLen
  if path = [] then return -1
  let effectiveCaps := caps &&& (← get).sched.currentCaps cpu
  match ← fat (Fat.readFileAlloc path (env.heapPtr != 0)) with
  | none => return -1
  | some [] => return -1
  | some bytes => return spawned (← spawnElf cpu env (ascii "user") bytes effectiveCaps)

def taskRecord (r : Nat × BitVec 64 × Bytes) : Bytes :=
  toLe r.1 8 ++ toLe r.2.1.toNat 8 ++ sized 16 r.2.2 ++ toLe 0 8

def taskRecordSize : Nat := 40

def records (outPtr size : Nat) (entries : List Bytes) : List (Nat × Bytes) :=
  entries.zipIdx.map fun e => (wrap64 (outPtr + e.2 * size), e.1)

def sysListTasks (outPtr maxEntries : Nat) : Call Reply := do
  if outPtr = 0 ∨ maxEntries = 0 then return .value 0
  let tasks := (listTasks (← get).sched maxEntries).map taskRecord
  return ⟨tasks.length, records outPtr taskRecordSize tasks⟩

def sysCapGrant (cpu : Cpu) (tid : Nat) (capBits : BitVec 64) : Call Int := do
  let s := (← get).sched
  let safeBits := capBits &&& s.currentCaps cpu
  match s.getTaskCaps tid with
  | none => return -1
  | some existing =>
    sched (.setTaskCaps tid (existing ||| safeBits)) fun s =>
      (if (s.setTaskCaps tid (existing ||| safeBits)).1 then 0 else -1)

def sysCapRevoke (tid : Nat) (capBits : BitVec 64) : Call Int := do
  match (← get).sched.getTaskCaps tid with
  | none => return -1
  | some existing =>
    sched (.setTaskCaps tid (existing &&& ~~~capBits)) fun s =>
      (if (s.setTaskCaps tid (existing &&& ~~~capBits)).1 then 0 else -1)

def sysCapQuery (tid : Nat) : Call Int := do
  match (← get).sched.getTaskCaps tid with
  | none => return -1
  | some caps => return caps.toInt

def sysFilterSet (tid : Nat) (lo hi : BitVec 64) : Call Int :=
  sched (.setTaskSyscallFilter tid (lo, hi)) fun s =>
    (if (s.setTaskSyscallFilter tid (lo, hi)).1 then 0 else -1)

def sysFilterGet (tid outPtr : Nat) : Call Reply := do
  if outPtr = 0 then return .value (-1)
  match (← get).sched.getTaskSyscallFilter tid with
  | none => return .value (-1)
  | some f =>
    return ⟨0, [(outPtr, toLe f.1.toNat 8), (wrap64 (outPtr + 8), toLe f.2.toNat 8)]⟩

/-- The physical address that a device is given for a pointer: no table is walked. -/
def toDmaAddr (va : Nat) : Nat := if kernelVaOffset ≤ va then va - kernelVaOffset else va

def dmaRead (va len : Nat) : Call Bytes := do
  let k ← get
  return (List.range len).map fun i => k.peek (toDmaAddr va + i)

def ioSectors : Nat := 2048

/-- The bytes that `read_sectors` copies out, in requests of at most `ioSectors` sectors.
A request that leaves the disk fails and copies what the I/O buffer still holds. -/
def sectorBytes (f : Fat) (stale : Bytes) (sector count : Nat) : Bytes :=
  (List.range count).flatMap fun i =>
    let request := i / ioSectors * ioSectors
    if sector + min count (request + ioSectors) ≤ f.capacity then (f.disk (sector + i)).slice 0 sectorSize
    else (List.range sectorSize).map fun j => stale.getD ((i - request) * sectorSize + j) 0

def sysBlkRead (env : Env) (sector bufPtr len : Nat) : Call Reply := do
  if bufPtr = 0 ∨ len = 0 then return .value (-1)
  let f := (← get).fat
  if len ≥ sectorSize ∧ !f.present then stop
  return ⟨isize len, [(bufPtr, sectorBytes f env.ioBuffer sector (len / sectorSize))]⟩

def sectorOf (bytes : Bytes) : Sector := fun i => bytes.getD i.val 0

/-- The sector cache of the file system is not told about this write. -/
def sysBlkWrite (sector bufPtr : Nat) : Call Int := do
  if bufPtr = 0 then return -1
  let bytes ← dmaRead bufPtr sectorSize
  fat (Fat.writeBlock sector (sectorOf bytes))
  return 0

def sysLog (cpu : Cpu) (ptr len : Nat) : Call Int := do
  if ptr = 0 ∨ len = 0 then return -1
  let _ ← load cpu ptr len
  return 0

def sysMalloc (env : Env) : Call Int := return isize env.heapPtr

structure AllocHeader where
  blockPtr : Nat
  layoutSize : Nat

def headerSize : Nat := 32
def headerMagic : Nat := 0xDEADBEEFCAFEBABE

def allocHeader (cpu : Cpu) (ptr : Nat) : Call (Option AllocHeader) := do
  let raw ← load cpu (wrapSub ptr headerSize) headerSize
  if fromLe (raw.drop 24) ≠ headerMagic then return none
  return some ⟨fromLe (raw.take 8), fromLe ((raw.drop 8).take 8)⟩

/-- Freeing a block turns its first 16 bytes into a hole of the free list. -/
def holeStore (env : Env) (h : AllocHeader) : List (Nat × Bytes) := [(h.blockPtr, sized 16 env.heapHole)]

def sysFree (cpu : Cpu) (env : Env) (ptr : Nat) : Call Reply := do
  if ptr = 0 then return .value 0
  match ← allocHeader cpu ptr with
  | none => return .value 0
  | some h => return ⟨0, holeStore env h⟩

def sysRealloc (cpu : Cpu) (env : Env) (ptr size : Nat) : Call Reply := do
  if ptr = 0 then return .value (isize env.heapPtr)
  if size = 0 then return ⟨0, (← sysFree cpu env ptr).out⟩
  match ← allocHeader cpu ptr with
  | none => return .value 0
  | some h =>
    if env.heapPtr = 0 then return .value 0
    -- the old contents are copied before the old block is freed
    let _ ← load cpu ptr (min (wrapSub h.layoutSize headerSize) size)
    return ⟨isize env.heapPtr, holeStore env h⟩

def kreadMax : Nat := 4096

/-- The destination is any address that the kernel can reach. -/
def sysKread (cpu : Cpu) (kPtr uPtr len : Nat) : Call Reply := do
  if kPtr < kernelVaOffset ∨ uPtr = 0 ∨ len = 0 then return .value (-1)
  let n := min len kreadMax
  return ⟨n, [(uPtr, ← load cpu kPtr n)]⟩

def sysMmap (cpu : Cpu) (size : Nat) : Call Int := do
  let ttbr0 := (← get).sched.currentTaskTtbr0 cpu
  vmOrStop fun v => v.sysMmap ttbr0 size

def sysMunmap (cpu : Cpu) (va size : Nat) : Call Int := do
  let ttbr0 := (← get).sched.currentTaskTtbr0 cpu
  vm fun v => v.sysMunmap ttbr0 va size

def sysSurfCreate (cpu : Cpu) (w h z : Nat) : Call Int := do
  let tid := (← get).sched.currentTid cpu
  vm fun v => v.sysSurfCreate tid w h z

def sysSurfMap (cpu : Cpu) (id : Nat) : Call Int := do
  let ttbr0 := (← get).sched.currentTaskTtbr0 cpu
  vmOrStop fun v => v.sysSurfMap ttbr0 id

def storeU32 (ptr n : Nat) : List (Nat × Bytes) := if ptr = 0 then [] else [(ptr, toLe n 4)]

def sysFbInfo (wPtr hPtr pPtr : Nat) : Call Reply := do
  let fb := (← get).framebuffer
  return ⟨0, storeU32 wPtr fb.w ++ storeU32 hPtr fb.h ++ storeU32 pPtr fb.pitch⟩

def mapFramebuffer (fb : Framebuffer) (ttbr0 : Nat) (v : Vm) : Option Int × Vm :=
  let pa := fb.va - kernelVaOffset
  if ttbr0 ≠ 0 then v.returning pa (v.mem.mapUserRw ttbr0 pa (Fat.wrap32 (fb.pitch * fb.h)))
  else (some pa, v)

def sysFbMap (cpu : Cpu) : Call Int := do
  let fb := (← get).framebuffer
  if fb.va = 0 ∨ fb.w = 0 then return -1
  let ttbr0 := (← get).sched.currentTaskTtbr0 cpu
  vmOrStop (mapFramebuffer fb ttbr0)

def inputEventSize : Nat := 8

def sysInputPoll (env : Env) (outPtr maxEvents : Nat) : Call Reply := do
  if outPtr = 0 ∨ maxEvents = 0 then return .value 0
  let events := (env.events.take maxEvents).map (sized inputEventSize)
  return ⟨events.length, records outPtr inputEventSize events⟩

def statsBytes (s : Sched) : Bytes :=
  let cpuPct := if s.totalTicks > 0 then (s.totalTicks - s.idleTicks) * 100 / s.totalTicks else 0
  toLe (ProcInfo.megabytes (freePages s.mem.pages)) 4 ++ toLe (ProcInfo.megabytes s.mem.pages.numPages) 4 ++
    toLe cpuPct 4 ++ toLe ((List.finRange maxTasks).filterMap s.tasks).length 4

def sysGetStats (outPtr : Nat) : Call Reply := do
  if outPtr = 0 then return .value (-1)
  return ⟨0, [(outPtr, statsBytes (← get).sched)]⟩

/-- Echo a line into the buffer: a backspace takes one byte back. A call that still waits
for the end of the line has stored what was typed so far. -/
def typeLine (ptr maxLen : Nat) : Nat → Bytes → Nat × List (Nat × Bytes)
  | count, [] => (count, [])
  | count, b :: rest =>
    if b = 127 ∨ b = 8 then typeLine ptr maxLen (count - 1) rest
    else
      let store := if count < maxLen then [(wrap64 (ptr + count), [b])] else []
      let count := if count < maxLen then count + 1 else count
      if b = 13 ∨ b = 10 then (count, store)
      else ((typeLine ptr maxLen count rest).1, store ++ (typeLine ptr maxLen count rest).2)

def sysConsoleGets (env : Env) (ptr maxLen : Nat) : Call Reply := do
  if ptr = 0 ∨ maxLen = 0 then return .value (-1)
  let line := typeLine ptr maxLen 0 env.typed
  return ⟨line.1, line.2⟩

def sysConsoleGetc (env : Env) : Call Int :=
  match env.typed with
  | [] => stop
  | b :: _ => return b.toNat

def sysSpeak (cpu : Cpu) (env : Env) (ptr len : Nat) : Call Int := do
  if ptr ≠ 0 ∧ len > 0 then
    if !env.spoken then return -1
    let _ ← load cpu ptr len
    return 0
  else return -1

def transmitAll (frames : List Bytes) : Call Unit :=
  frames.forM fun frame => do
    let _ ← transmit frame

/-- A frame is sent without a check of `CAP_NET`. -/
def sysNetSend (cpu : Cpu) (bufPtr bufLen : Nat) : Call Int := do
  if bufPtr = 0 ∨ bufLen = 0 then return -1
  let pkt ← load cpu bufPtr bufLen
  return if ← transmit pkt then 0 else -1

def sysNetRecv (env : Env) (bufPtr bufLen : Nat) : Call Reply := do
  if bufPtr = 0 ∨ bufLen = 0 then return .value (-1)
  if !(← get).netUp then return .value (-1)
  match env.received with
  | none => return .value (-1)
  | some pkt => return ⟨(pkt.take bufLen).length, [(bufPtr, pkt.take bufLen)]⟩

def sysGetIp (env : Env) : Call Int := return fromLe (sized 4 env.ip).reverse

def netCall (env : Env) : Call Int := do
  transmitAll env.frames
  return env.netRet

def sysPing (env : Env) : Call Int := netCall env

def webRequest (cpu : Cpu) (env : Env) (urlPtr urlLen bufPtr bufLen : Nat) : Call Reply := do
  if urlPtr = 0 ∨ urlLen = 0 ∨ bufPtr = 0 ∨ bufLen = 0 then return .value (-1)
  let _ ← loadStr cpu urlPtr urlLen
  transmitAll env.frames
  return ⟨env.netRet, [(bufPtr, env.netData.take bufLen)]⟩

def sysHttpGet (cpu : Cpu) (env : Env) (urlPtr urlLen bufPtr bufLen : Nat) : Call Reply :=
  webRequest cpu env urlPtr urlLen bufPtr bufLen

def sysHttpsGet (cpu : Cpu) (env : Env) (urlPtr urlLen bufPtr bufLen : Nat) : Call Reply :=
  webRequest cpu env urlPtr urlLen bufPtr bufLen

def sysHttpsPost (cpu : Cpu) (env : Env) (urlPtr urlLen bodyPtr bodyLen bufPtr bufLen : Nat) :
    Call Reply := do
  if urlPtr = 0 ∨ urlLen = 0 ∨ bufPtr = 0 ∨ bufLen = 0 then return .value (-1)
  let _ ← loadStr cpu urlPtr urlLen
  let _ ← loadOptional cpu bodyPtr bodyLen
  transmitAll env.frames
  return ⟨env.netRet, [(bufPtr, env.netData.take bufLen)]⟩

def sysDnsResolve (cpu : Cpu) (env : Env) (namePtr nameLen outPtr : Nat) : Call Reply := do
  if namePtr = 0 ∨ nameLen = 0 then return .value (-1)
  let _ ← loadStr cpu namePtr nameLen
  transmitAll env.frames
  match env.dns with
  | none => return .value (-1)
  | some ip => return ⟨0, if outPtr = 0 then [] else [(outPtr, sized 4 ip)]⟩

def sysTcpWrite (cpu : Cpu) (env : Env) (bufPtr len : Nat) : Call Int := do
  if bufPtr = 0 ∨ len = 0 then return -1
  let _ ← load cpu bufPtr len
  netCall env

def sysTcpRead (env : Env) (bufPtr len : Nat) : Call Reply := do
  if bufPtr = 0 ∨ len = 0 then return .value (-1)
  return ⟨(env.netData.take len).length, [(bufPtr, env.netData.take len)]⟩

def sysTcpClose (env : Env) : Call Int := do
  transmitAll env.frames
  return 0

/-- Wait for the answer of the inference task. Messages of other tasks are dropped. -/
def awaitNumenor (cpu : Cpu) (myTid outMax : Nat) : List (Option Message) → Call Unit
  | [] => stop
  | arrival :: rest => do
    arrive myTid arrival
    match ← sched (.recvMessage cpu) fun s => (s.recvMessage cpu).1 with
    | some msg =>
      if msg.sender = numenorTid then
        let _ ← loadOptional cpu (msg.word 1) (min (msg.word 2) outMax)
      else awaitNumenor cpu myTid outMax rest
    | none =>
      sched (.yieldCpu cpu) fun _ => ()
      awaitNumenor cpu myTid outMax rest

/-- A host import. The files are reached without the descriptor table and, like the network,
without a check of the capabilities of the task. -/
def hostCall (cpu : Cpu) : HostCall → Call Unit
  | .sendIpc tid data => do
    let msg : Message := ⟨(← get).sched.currentTid cpu, payload data⟩
    sched (.sendMessage tid msg) fun _ => ()
  | .recvIpc => sched (.recvMessage cpu) fun _ => ()
  | .fileOpen path => do
    let _ ← fat (Fat.openRead (strOrEmpty path))
  | .fileRead fd len => do
    let _ ← fat (Fat.read fd (min len 4096))
  | .fileWrite fd data => do
    let _ ← fat (Fat.write fd data)
  | .fileClose fd => fat (Fat.close fd)
  | .yield => sched (.yieldCpu cpu) fun _ => ()
  | .aiInfer prompt len outMax polls => do
    let myTid := (← get).sched.currentTid cpu
    let msg : Message := ⟨myTid, payload (toLe 2 8 ++ toLe prompt 8 ++ toLe len 8)⟩
    if ← sched (.sendMessage numenorTid msg) fun s => (s.sendMessage numenorTid msg).1 then
      awaitNumenor cpu myTid outMax polls
  | .httpGet frames => transmitAll frames

def runModule (cpu : Cpu) (env : Env) : Call Int := do
  env.host.forM (hostCall cpu)
  return env.hostRet

def sysWasmLoad (cpu : Cpu) (env : Env) (wasmPtr wasmLen : Nat) : Call Int := do
  if wasmPtr = 0 ∨ wasmLen = 0 then return -1
  let _ ← load cpu wasmPtr wasmLen
  runModule cpu env

def sysWasmExec (cpu : Cpu) (env : Env) (pathPtr pathLen : Nat) : Call Int := do
  if pathPtr = 0 ∨ pathLen = 0 then return -1
  let path ← loadStr cpu pathPtr pathLen
  if path = [] then return -1
  match ← fat (Fat.readFileAlloc path (env.heapPtr != 0)) with
  | none => return -2
  | some [] => return -2
  | some _ => runModule cpu env

end Call

end Aeglos
