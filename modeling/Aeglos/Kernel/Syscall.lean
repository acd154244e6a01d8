import Aeglos.Kernel.Handlers

/-!
# The dispatcher

`dispatch` of `syscall/mod.rs`: the syscall behind a number, its capability, and its handler.
-/

namespace Aeglos

open Effects

/-- The syscalls that the dispatcher reaches. Number 50 is also `SYS_SET_PRIORITY`, but the
arm of `SYS_HTTPS_POST` comes first. -/
inductive Syscall where
  | send | recv | yield | exit | wait | aiCall
  | blkRead | blkWrite | log
  | malloc | free | realloc | alignedAlloc
  | exec | netSend | netRecv
  | open | readFd | writeFd | close | readdir
  | wasmLoad | mmap | munmap | kread
  | fbInfo | fbMap | fbFlush | inputPoll
  | tryRecv | getRtc | getStats | getIp | ping
  | httpGet | httpsGet | httpsPost | dnsResolve
  | create | pipe
  | surfCreate | surfDestroy | surfMap | surfFlush | surfMove
  | wasmExec | capGrant | capRevoke | capQuery | listTasks
  | tcpConnect | tcpListen | tcpAccept | tcpWrite | tcpRead | tcpWaitReadable | tcpClose
  | surfResize | surfRaise | surfLower | surfDirty
  | speak | filterSet | filterGet
  | configGet | configSet | atomicWrite | unlink | rename
  | sigaction | kill | sigreturn | sigmask | clone
  | consoleGets | consoleGetc
  deriving DecidableEq

namespace Syscall

def ofNumber : Nat → Option Syscall
  | 1 => some send | 2 => some recv | 3 => some yield | 4 => some exit | 5 => some aiCall
  | 6 => some blkRead | 7 => some blkWrite | 8 => some log
  | 9 => some malloc | 10 => some free | 11 => some realloc | 12 => some alignedAlloc
  | 13 => some exec | 14 => some netSend | 15 => some netRecv
  | 16 => some «open» | 17 => some readFd | 18 => some writeFd | 19 => some close | 20 => some readdir
  | 21 => some wait | 22 => some wasmLoad | 23 => some mmap | 24 => some munmap | 25 => some kread
  | 26 => some fbInfo | 27 => some fbMap | 28 => some fbFlush | 29 => some inputPoll
  | 30 => some tryRecv | 31 => some getRtc | 32 => some getStats | 33 => some getIp | 34 => some ping
  | 35 => some httpGet | 36 => some httpsGet | 37 => some dnsResolve | 38 => some create
  | 40 => some surfCreate | 41 => some surfDestroy | 42 => some surfMap | 43 => some surfFlush
  | 44 => some surfMove | 45 => some pipe | 50 => some httpsPost | 51 => some wasmExec
  | 52 => some capGrant | 53 => some capRevoke | 54 => some capQuery | 55 => some listTasks
  | 60 => some tcpConnect | 61 => some tcpListen | 62 => some tcpAccept | 63 => some tcpWrite
  | 64 => some tcpRead | 65 => some tcpWaitReadable | 66 => some tcpClose
  | 67 => some surfResize | 68 => some surfRaise | 69 => some surfLower | 70 => some surfDirty
  | 71 => some speak | 72 => some filterSet | 73 => some filterGet
  | 74 => some configGet | 75 => some configSet | 76 => some atomicWrite | 77 => some unlink
  | 78 => some rename | 79 => some sigaction | 80 => some kill | 81 => some sigreturn
  | 82 => some sigmask | 83 => some clone | 99 => some consoleGets | 100 => some consoleGetc
  | _ => none

def required : Syscall → Option (BitVec 64)
  | send | kill => some Cap.send
  | recv | tryRecv => some Cap.recv
  | aiCall => some Cap.ai
  | blkRead | blkWrite | configSet | atomicWrite | unlink | rename => some Cap.blk
  | log | listTasks | consoleGets | consoleGetc => some Cap.log
  | malloc | free | realloc | alignedAlloc | exec | wasmLoad | wasmExec | mmap | munmap | clone =>
    some Cap.mem
  | tcpConnect | tcpListen | tcpAccept | tcpWrite | tcpRead | tcpWaitReadable | tcpClose => some Cap.net
  | capGrant | capRevoke | filterSet => some Cap.all
  | _ => none

end Syscall

structure Args where
  arg0 : Nat
  arg1 : Nat
  arg2 : Nat
  arg3 : Nat
  arg4 : Nat
  arg5 : Nat

/-- One of the 128 syscalls of the filter is allowed when its bit is set; the numbers beyond
are not filtered. -/
def passesFilter (filter : BitVec 64 × BitVec 64) (id : Nat) : Bool :=
  if id < 64 then filter.1.getLsbD id else if id < 128 then filter.2.getLsbD (id - 64) else true

def denied (caps : BitVec 64) : Option (BitVec 64) → Bool
  | none => false
  | some cap => caps &&& cap == 0

namespace Call

def plain (x : Call Int) : Call Reply := Reply.value <$> x

def surf (f : Vm → Vm) : Call Int := vm fun v => (0, f v)

open Fat (wrap32)

def handle (cpu : Cpu) (a : Args) (env : Env) : Syscall → Call Reply
  | .send => plain <| sysSend cpu a.arg0 a.arg1
  | .recv => sysRecv cpu a.arg0
  | .yield => plain <| sysYield cpu
  | .exit => plain <| sysExit cpu (i32 a.arg0)
  | .wait => plain <| sysWait cpu a.arg0
  | .aiCall => plain <| sysAiCall cpu a.arg0 a.arg1 a.arg2
  | .blkRead => sysBlkRead env a.arg0 a.arg1 a.arg2
  | .blkWrite => plain <| sysBlkWrite a.arg0 a.arg1
  | .log => plain <| sysLog cpu a.arg0 a.arg1
  | .malloc => plain <| sysMalloc env
  | .free => sysFree cpu env a.arg0
  | .realloc => sysRealloc cpu env a.arg0 a.arg1
  | .alignedAlloc => plain <| sysMalloc env
  | .exec => plain <| sysExec cpu env a.arg0 a.arg1 (BitVec.ofNat 64 a.arg2)
  | .netSend => plain <| sysNetSend cpu a.arg0 a.arg1
  | .netRecv => sysNetRecv env a.arg0 a.arg1
  | .open => plain <| sysOpen cpu env a.arg0 a.arg1
  | .readFd => sysReadFd a.arg0 a.arg1 a.arg2
  | .writeFd => plain <| sysWriteFd cpu a.arg0 a.arg1 a.arg2
  | .close => plain <| sysClose a.arg0
  | .readdir => sysReaddir cpu a.arg0 a.arg1 a.arg2
  | .wasmLoad => plain <| sysWasmLoad cpu env a.arg0 a.arg1
  | .mmap => plain <| sysMmap cpu a.arg1
  | .munmap => plain <| sysMunmap cpu a.arg0 a.arg1
  | .kread => sysKread cpu a.arg0 a.arg1 a.arg2
  | .fbInfo => sysFbInfo a.arg0 a.arg1 a.arg2
  | .fbMap => plain <| sysFbMap cpu
  | .fbFlush => plain <| return 0
  | .inputPoll => sysInputPoll env a.arg0 a.arg1
  | .tryRecv => sysTryRecv cpu a.arg0
  | .getRtc => plain <| return wrap32 env.rtc
  | .getStats => sysGetStats a.arg0
  | .getIp => plain <| sysGetIp env
  | .ping => plain <| sysPing env
  | .httpGet => sysHttpGet cpu env a.arg0 a.arg1 a.arg2 a.arg3
  | .httpsGet => sysHttpsGet cpu env a.arg0 a.arg1 a.arg2 a.arg3
  | .httpsPost => sysHttpsPost cpu env a.arg0 a.arg1 a.arg2 a.arg3 a.arg4 a.arg5
  | .dnsResolve => sysDnsResolve cpu env a.arg0 a.arg1 a.arg2
  | .create => plain <| sysCreate cpu a.arg0 a.arg1
  | .pipe => sysPipe a.arg0
  | .surfCreate => plain <| sysSurfCreate cpu (wrap32 a.arg0) (wrap32 a.arg1) (a.arg2 % 256)
  | .surfDestroy => plain <| surf fun v => v.destroy a.arg0
  | .surfMap => plain <| sysSurfMap cpu a.arg0
  | .surfFlush => plain <| surf Vm.composite
  | .surfMove => plain <| surf fun v => v.setPos a.arg0 (i32 a.arg1) (i32 a.arg2)
  | .wasmExec => plain <| sysWasmExec cpu env a.arg0 a.arg1
  | .capGrant => plain <| sysCapGrant cpu a.arg0 (BitVec.ofNat 64 a.arg1)
  | .capRevoke => plain <| sysCapRevoke a.arg0 (BitVec.ofNat 64 a.arg1)
  | .capQuery => plain <| sysCapQuery a.arg0
  | .listTasks => sysListTasks a.arg0 a.arg1
  | .tcpConnect | .tcpListen | .tcpAccept | .tcpWaitReadable => plain <| netCall env
  | .tcpWrite => plain <| sysTcpWrite cpu env a.arg1 a.arg2
  | .tcpRead => sysTcpRead env a.arg1 a.arg2
  | .tcpClose => plain <| sysTcpClose env
  | .surfResize => plain <| vm fun v => v.sysSurfResize a.arg0 (wrap32 a.arg1) (wrap32 a.arg2)
  | .surfRaise => plain <| surf fun v => v.raise a.arg0
  | .surfLower => plain <| surf fun v => v.lower a.arg0
  | .surfDirty => plain <| surf fun v => v.markDirty a.arg0
  | .speak => plain <| sysSpeak cpu env a.arg0 a.arg1
  | .filterSet => plain <| sysFilterSet a.arg0 (BitVec.ofNat 64 a.arg1) (BitVec.ofNat 64 a.arg2)
  | .filterGet => sysFilterGet a.arg0 a.arg1
  | .configGet => sysConfigGet cpu a.arg0 a.arg1 a.arg2 a.arg3
  | .configSet => plain <| sysConfigSet cpu a.arg0 a.arg1 a.arg2 a.arg3
  | .atomicWrite => plain <| sysAtomicWrite cpu a.arg0 a.arg1 a.arg2 a.arg3
  | .unlink => plain <| sysUnlink cpu a.arg0 a.arg1
  | .rename => plain <| sysRename cpu a.arg0 a.arg1 a.arg2 a.arg3
  | .sigaction => plain <| sysSigaction cpu a.arg0 a.arg1
  | .kill => plain <| sysKill a.arg0 (wrap32 a.arg1)
  | .sigreturn => plain <| return 0
  | .sigmask => plain <| sysSigmask cpu a.arg0
  | .clone => plain <| sysClone cpu a.arg0 a.arg1 (BitVec.ofNat 64 a.arg2)
  | .consoleGets => sysConsoleGets env a.arg0 a.arg1
  | .consoleGetc => plain <| sysConsoleGetc env

def dispatch (cpu : Cpu) (id : Nat) (a : Args) (env : Env) : Call Reply := do
  let s := (← get).sched
  if !passesFilter (s.currentSyscallFilter cpu) id then return .value (-1)
  match Syscall.ofNumber id with
  | none => return .value (-1)
  | some call =>
    if denied (s.currentCaps cpu) call.required then return .value (-13)
    handle cpu a env call

end Call

def Reply.stores (r : Reply) : List (Nat × UInt8) :=
  r.out.flatMap fun run => run.2.zipIdx.map fun b => (wrap64 (run.1 + b.2), b.1)

namespace Kernel

/-- The stores up to the first one that the kernel cannot reach: that one is an EL1 data
abort, and the call never returns. -/
def reached (k : Kernel) (cpu : Cpu) (stores : List (Nat × UInt8)) : List (Nat × UInt8) :=
  stores.takeWhile fun s => (k.physical cpu s.1).isSome

/-- Carry the stores out. Their addresses are resolved before the first of them. -/
def commit (k : Kernel) (cpu : Cpu) (stores : List (Nat × UInt8)) : Kernel :=
  (k.reached cpu stores).foldl (fun k' s => (k.physical cpu s.1).elim k' fun pa => k'.poke pa s.2) k

def syscall (k : Kernel) (cpu : Cpu) (id : Nat) (a : Args) (env : Env) : Kernel :=
  match Call.dispatch cpu id a env k with
  | .error k' => k'
  | .ok (r, k') => k'.commit cpu r.stores

def written (k : Kernel) (cpu : Cpu) (id : Nat) (a : Args) (env : Env) : List Nat :=
  match Call.dispatch cpu id a env k with
  | .error _ => []
  | .ok (r, k') => (k'.reached cpu r.stores).map Prod.fst

end Kernel

inductive KernelOp where
  | syscall (cpu : Cpu) (id : Nat) (args : Args) (env : Env)
  | popPendingSignal (cpu : Cpu)
  | scheduleNext (cpu : Cpu) (currentSp : Nat)
  | pageFault (cpu : Cpu)

def Kernel.step (k : Kernel) : KernelOp → Kernel
  | .syscall cpu id a env => k.syscall cpu id a env
  | .popPendingSignal cpu => { k with sched := k.sched.step (.popPendingSignal cpu) }
  | .scheduleNext cpu sp => { k with sched := k.sched.step (.scheduleNext cpu sp) }
  | .pageFault cpu => { k with sched := k.sched.step (.exitTask cpu (-11)) }

end Aeglos
