import Aeglos.Kernel.Syscall
import Aeglos.Proofs.FileReads

/-!
# What a syscall can do

Every syscall acts on the kernel by the steps of `Acts`.
-/

namespace Aeglos.Proofs

open Effects Call

inductive Kind where
  | spawn
  | rights
  | store
  | memory
  | disk
  | network
  deriving DecidableEq

@[grind] def spawns : SchedOp → Bool
  | .init | .secondaryIdleInit _ | .spawn _ _ | .spawnUserEntryWithSegs _ _ _ _
  | .spawnUserThread _ _ _ _ _ => true
  | _ => false

@[grind] def setsRights : SchedOp → Bool
  | .setTaskCaps _ _ | .setTaskSyscallFilter _ _ => true
  | _ => false

@[grind] def isQuiet : SchedOp → Bool
  | .scheduleNext _ _ => false
  | op => !spawns op && !setsRights op

inductive Acts (K : Kind → Bool) (k : Kernel) : Kernel → Prop where
  | quiet (op : SchedOp) (h : isQuiet op = true) : Acts K k { k with sched := k.sched.step op }
  | vfs (v : Vfs) : Acts K k { k with vfs := v }
  | reads (f : Fat) (h : Reads k.fat f) : Acts K k { k with fat := f }
  | config (table : List ConfigEntry) : Acts K k { k with config := table }
  | spawn (op : SchedOp) (hK : K .spawn = true) (h : spawns op = true) :
      Acts K k { k with sched := k.sched.step op }
  | rights (op : SchedOp) (hK : K .rights = true) (h : setsRights op = true) :
      Acts K k { k with sched := k.sched.step op }
  | store (pa : Nat) (b : UInt8) (hK : K .store = true) : Acts K k (k.poke pa b)
  | memory (v : Vm) (hK : K .memory = true) : Acts K k (k.setVm v)
  | disk (f : Fat) (hK : K .disk = true) : Acts K k { k with fat := f }
  | network (frame : Bytes) (hK : K .network = true) : Acts K k { k with sent := k.sent ++ [frame] }

attribute [grind ←] Acts.store Acts.network Acts.config

section Primitives

variable {R : Kernel → Kernel → Prop} {K : Kind → Bool} {α : Type} {op : SchedOp}

@[grind .] lemma within_loadByte (cpu : Cpu) (va : Nat) : Within R (loadByte cpu va) := by
  grind [loadByte]

@[grind .] lemma within_load (cpu : Cpu) (va len : Nat) : Within R (load cpu va len) := by
  induction len generalizing va with grind [load]

@[grind .] lemma within_loadStr (cpu : Cpu) (ptr len : Nat) : Within R (loadStr cpu ptr len) :=
  within_map (within_load cpu ptr len)

@[grind .] lemma within_loadOptional (cpu : Cpu) (ptr len : Nat) : Within R (loadOptional cpu ptr len) := by
  grind [loadOptional]

lemma within_schedOp (h : ∀ k : Kernel, R k { k with sched := k.sched.step op })
    (result : Sched → α) : Within R (sched op result) :=
  within_bind within_get fun _ => within_bind (within_modify h) fun _ => within_pure _

@[grind ←] lemma within_quiet (h : isQuiet op = true) (result : Sched → α) :
    Within (Acts K) (sched op result) := within_schedOp (fun _ => .quiet op h) result

@[grind ←] lemma within_spawns (hK : K .spawn = true) (h : spawns op = true)
    (result : Sched → α) : Within (Acts K) (sched op result) := within_schedOp (fun _ => .spawn op hK h) result

@[grind ←] lemma within_setsRights (hK : K .rights = true) (h : setsRights op = true)
    (result : Sched → α) : Within (Acts K) (sched op result) := within_schedOp (fun _ => .rights op hK h) result

@[grind .] lemma within_vfs (f : Vfs → α × Vfs) : Within (Acts K) (vfs f) := fun k =>
  .single (.vfs (f k.vfs).2)

@[grind ←] lemma within_vm (hK : K .memory = true) (f : Vm → α × Vm) : Within (Acts K) (vm f) := fun k =>
  .single (.memory (f k.vm).2 hK)

@[grind ←] lemma within_vmOrStop (hK : K .memory = true) (f : Vm → Option α × Vm) :
    Within (Acts K) (vmOrStop f) := by
  grind [vmOrStop]

lemma fat_reads_at {x : FatM α} {k : Kernel} (h : Relation.ReflTransGen Reads k.fat (after x k.fat)) :
    Relation.ReflTransGen (Acts K) k (after (fat x) k) := by
  unfold fat
  rw [after_zoom]
  exact .single (.reads _ (.of_steps h))

@[grind ←] lemma within_fat_reads {x : FatM α} (h : Within Reads x) : Within (Acts K) (fat x) :=
  fun k => fat_reads_at (h k.fat)

@[grind ←] lemma within_fat (hK : K .disk = true) (x : FatM α) : Within (Acts K) (fat x) := by
  intro k
  unfold fat
  rw [after_zoom]
  exact .single (.disk _ hK)

@[grind ←] lemma within_transmit (hK : K .network = true) (frame : Bytes) : Within (Acts K) (transmit frame) := by
  grind [transmit]

@[grind ←] lemma within_transmitAll (hK : K .network = true) (frames : List Bytes) :
    Within (Acts K) (transmitAll frames) := by
  grind [transmitAll]

@[grind ←] lemma within_store (hK : K .store = true) (cpu : Cpu) (va : Nat) (bytes : Bytes) :
    Within (Acts K) (store cpu va bytes) := by
  induction bytes generalizing va with grind [store, storeByte]

end Primitives

def stringArg (k : Kernel) (cpu : Cpu) (ptr len : Nat) : Bytes :=
  match loadStr cpu ptr len k with
  | .ok r => r.1
  | .error _ => []

def writableFd (k : Kernel) (fd : Nat) : Bool :=
  match k.vfs.fd fd with
  | some (_, .fat32 file) => (k.fat.openFiles file).used && (k.fat.openFiles file).writable
  | _ => false

def writesFiles : HostCall → Bool
  | .fileWrite _ _ | .fileClose _ => true
  | _ => false

def sendsHttp : HostCall → Bool
  | .httpGet _ => true
  | _ => false

def writesDisk (k : Kernel) (cpu : Cpu) (a : Args) (env : Env) : Syscall → Bool
  | .blkWrite | .configSet | .atomicWrite | .unlink | .rename => true
  | .writeFd | .close => writableFd k a.arg0
  | .create => decide (route (stringArg k cpu a.arg0 a.arg1) = .fat32)
  | .wasmLoad | .wasmExec => env.host.any writesFiles
  | _ => false

def sendsFrames (env : Env) : Syscall → Bool
  | .netSend | .ping | .httpGet | .httpsGet | .httpsPost | .dnsResolve
  | .tcpConnect | .tcpListen | .tcpAccept | .tcpWrite | .tcpWaitReadable | .tcpClose => true
  | .wasmLoad | .wasmExec => env.host.any sendsHttp
  | _ => false

def footprint (k : Kernel) (cpu : Cpu) (a : Args) (env : Env) (call : Syscall) : Kind → Bool
  | .spawn => call = .exec || call = .clone
  | .rights => call = .capGrant || call = .capRevoke || call = .filterSet
  | .store => call = .exec
  | .memory => match call with
    | .mmap | .munmap | .fbMap | .surfCreate | .surfDestroy | .surfMap | .surfFlush | .surfMove
    | .surfResize | .surfRaise | .surfLower | .surfDirty => true
    | _ => false
  | .disk => writesDisk k cpu a env call
  | .network => sendsFrames env call

section Handlers

variable {K : Kind → Bool} (cpu : Cpu) (env : Env)

@[grind .] lemma within_arrive (myTid : Nat) (arrival : Option Message) :
    Within (Acts K) (arrive myTid arrival) := by
  cases arrival with grind [arrive]

@[grind .] lemma within_awaitNumenor (myTid outMax : Nat) (polls : List (Option Message)) :
    Within (Acts K) (awaitNumenor cpu myTid outMax polls) := by
  induction polls with grind [awaitNumenor]

lemma within_hostCall {call : HostCall} (hdisk : writesFiles call = true → K .disk = true)
    (hnet : sendsHttp call = true → K .network = true) : Within (Acts K) (hostCall cpu call) := by
  cases call with grind [hostCall, writesFiles, sendsHttp]

@[grind ←] lemma within_runModule (hdisk : env.host.any writesFiles = true → K .disk = true)
    (hnet : env.host.any sendsHttp = true → K .network = true) : Within (Acts K) (runModule cpu env) := by
  refine within_bind (within_forM fun call hcall => within_hostCall cpu ?_ ?_) fun _ => within_pure _
  · exact fun h => hdisk (List.any_eq_true.mpr ⟨call, hcall, h⟩)
  · exact fun h => hnet (List.any_eq_true.mpr ⟨call, hcall, h⟩)

@[grind .] lemma within_vfsAlloc (fd : VfsFd) : Within (Acts K) (Call.vfsAlloc fd) := by
  grind [Call.vfsAlloc]

@[grind .] lemma within_memPoll (myTid : Nat) (polls : List (Option Message)) :
    Within (Acts K) (memPoll cpu myTid polls) := by
  induction polls with grind [memPoll]

@[grind .] lemma within_opened (r : Option VfsFd) : Within (Acts K) (opened r) := by
  cases r with grind [opened]

lemma sysWriteFd_acts {k : Kernel} {fd : Nat} (hdisk : writableFd k fd = true → K .disk = true)
    (bufPtr len : Nat) : Relation.ReflTransGen (Acts K) k (after (sysWriteFd cpu fd bufPtr len) k) := by
  unfold sysWriteFd
  split
  · exact .refl
  refine within_get_at ?_
  split
  case h_1 i file hfd =>
    refine within_get_at ?_
    dsimp only
    split
    · exact .refl
    case isFalse hw =>
      have hK := hdisk (by simpa [writableFd, hfd] using hw)
      refine within_bind (within_load _ _ _) (fun bytes => within_bind (within_fat hK _) fun r => ?_) k
      cases r with
      | none => exact within_pure _
      | some n => exact within_pure _
  · exact .refl
  · exact within_bind within_get (fun _ => within_bind (within_load _ _ _) fun _ =>
      within_bind (within_vfs _) fun _ => within_pure _) k
  · exact .refl
  · exact .refl

lemma fat_file_val {f : Fat} {file i : Fin maxOpen} (h : f.file file.val = some i) :
    i = file ∧ (f.openFiles file).used = true := by
  unfold Fat.file at h
  split_ifs at h with hlt hused
  exact ⟨(Option.some.inj h).symm, hused⟩

lemma sysClose_acts {k : Kernel} {fd : Nat} (hdisk : writableFd k fd = true → K .disk = true) :
    Relation.ReflTransGen (Acts K) k (after (sysClose fd) k) := by
  unfold sysClose
  refine within_get_at ?_
  split
  case h_1 i file hfd =>
    refine within_bind_at (within_vfs _ k) fun _ k' hk => ?_
    refine within_bind_at ?_ fun _ _ _ => .refl
    have hfat : k'.fat = k.fat := by
      cases hk
      rfl
    by_cases hw : writableFd k fd = true
    · exact within_fat (hdisk hw) _ k'
    · refine fat_reads_at (close_reads fun j hj => ?_)
      obtain ⟨rfl, hused⟩ := fat_file_val hj
      rw [hfat] at hused ⊢
      simpa [writableFd, hfd, hused] using hw
  · exact within_bind (within_vfs _) (fun _ => within_pure _) k
  · exact within_bind (within_vfs _) (fun _ => within_pure _) k
  · exact .refl

lemma sysCreate_acts {k : Kernel} {pathPtr pathLen : Nat}
    (hdisk : route (stringArg k cpu pathPtr pathLen) = .fat32 → K .disk = true) :
    Relation.ReflTransGen (Acts K) k (after (sysCreate cpu pathPtr pathLen) k) := by
  unfold sysCreate
  split
  · exact .refl
  refine within_bind_at (within_loadStr _ _ _ k) fun path k' hpath => ?_
  split
  · exact .refl
  cases hroute : route path with
  | proc => exact .refl
  | mem => exact within_vfsAlloc _ k'
  | fat32 =>
    have hK := hdisk (by rw [stringArg, hpath, hroute])
    exact within_bind (within_fat hK _) (fun _ => within_opened _) k'

@[grind .] lemma within_memOpen (pathPtr : Nat) (path : Bytes) : Within (Acts K) (memOpen cpu env pathPtr path) := by
  grind [memOpen]

@[grind ←] lemma within_sysConfigSet (hK : K .disk = true) (keyPtr keyLen valPtr valLen : Nat) :
    Within (Acts K) (sysConfigSet cpu keyPtr keyLen valPtr valLen) := by
  refine within_ite (within_pure _) (within_bind (within_loadStr _ _ _) fun key =>
    within_bind (within_map (within_loadOptional _ _ _)) fun val => within_bind within_get fun k => ?_)
  cases Config.configSet k.config key val with
  | none => exact within_pure _
  | some table =>
    exact within_bind (within_modify fun _ => .config table) fun _ =>
      within_bind (within_fat hK _) fun _ => within_pure _

@[grind ←] lemma within_sysAtomicWrite (hK : K .disk = true) (pathPtr pathLen dataPtr dataLen : Nat) :
    Within (Acts K) (sysAtomicWrite cpu pathPtr pathLen dataPtr dataLen) := by
  refine within_ite (within_pure _) (within_bind (within_load _ _ _) fun path =>
    within_ite (within_pure _) (within_ite within_stop_bind
      (within_bind (within_fat hK _) fun r => ?_)))
  cases r with
  | none => exact within_pure _
  | some fd =>
    exact within_bind (within_load _ _ _) fun _ => within_bind (within_fat hK _) fun _ =>
      within_bind (within_fat hK _) fun _ => within_bind (within_fat hK _) fun _ => within_pure _

end Handlers

section Exec

variable {R : Kernel → Kernel → Prop} (cpu : Cpu) (bytes : Bytes) (elfPtr slide : Nat)

@[grind .] lemma within_segmentBytes (off len : Nat) : Within R (segmentBytes cpu bytes elfPtr off len) := by
  induction len generalizing off with grind [segmentBytes]

lemma within_loadSegments {h : Elf.Header} {is : List Nat}
    (hstore : ∀ i ∈ is, ∀ p, Elf.phdr bytes (Elf.phOffset h i) = some (some p) → p.memsz ≠ 0 →
      Within R (loadSegment cpu bytes elfPtr slide p)) (segs : List ProcSegment) :
    Within R (loadSegments cpu bytes elfPtr slide h is segs) := by
  induction is generalizing segs with
  | nil => exact within_pure _
  | cons i is ih =>
    have hrest := ih fun j hj => hstore j (List.mem_cons_of_mem i hj)
    unfold loadSegments
    refine within_ite (within_pure _) ?_
    split
    · exact within_stop
    · exact hrest _
    case h_3 p hp =>
      intro k
      refine within_ite_at (fun _ => hrest _ k) fun hsize => ?_
      exact within_ite (within_pure _)
        (within_bind (hstore i List.mem_cons_self p hp hsize) fun _ => hrest _) k

lemma within_spawnElf (env : Env) (name : Bytes) (caps : BitVec 64)
    (hstore : ∀ slide, Elf.loadSlide bytes (Elf.header bytes) env.random = some slide →
      ∀ i < (Elf.header bytes).phnum, ∀ p,
        Elf.phdr bytes (Elf.phOffset (Elf.header bytes) i) = some (some p) → p.memsz ≠ 0 →
        Within R (loadSegment cpu bytes env.heapPtr slide p))
    (hspawn : ∀ entry segs (k : Kernel),
      R k { k with sched := k.sched.step (.spawnUserEntryWithSegs name entry caps segs) }) :
    Within R (spawnElf cpu env name bytes caps) := by
  unfold spawnElf
  cases Elf.headerError bytes with
  | some e => exact within_pure _
  | none =>
    dsimp only
    cases hslide : Elf.loadSlide bytes (Elf.header bytes) env.random with
    | none => exact within_stop
    | some slide =>
      refine within_bind (within_loadSegments _ _ _ _
        (fun i hi => hstore slide hslide i (List.mem_range.mp hi)) _) fun r => ?_
      cases r with
      | error e => exact within_pure _
      | ok segs =>
        refine within_bind (within_schedOp (hspawn _ _) _) fun r => ?_
        cases r with
        | none => exact within_stop
        | some r => exact within_pure _

lemma within_loadSegment {K : Kind → Bool} (hK : K .store = true) (p : Elf.Phdr) :
    Within (Acts K) (loadSegment cpu bytes elfPtr slide p) := by
  grind [loadSegment]

@[grind ←] lemma within_sysExec {K : Kind → Bool} (hspawn : K .spawn = true) (hstore : K .store = true)
    (env : Env) (pathPtr pathLen : Nat) (caps : BitVec 64) :
    Within (Acts K) (sysExec cpu env pathPtr pathLen caps) := by
  refine within_ite (within_pure _) (within_bind (within_loadStr _ _ _) fun path =>
    within_ite (within_pure _) (within_bind within_get fun _ =>
      within_bind (within_fat_reads (within_readFileAlloc _ _)) fun r => ?_))
  match r with
  | none => exact within_pure _
  | some [] => exact within_pure _
  | some (_ :: _) =>
    exact within_bind (within_spawnElf _ _ _ _ _ (fun _ _ _ _ p _ _ => within_loadSegment _ _ _ _ hstore p)
      fun _ _ _ => .spawn _ hspawn rfl) fun _ => within_pure _

end Exec

@[grind ←] lemma within_plain {R : Kernel → Kernel → Prop} {x : Call Int} (h : Within R x) :
    Within R (plain x) := within_map h

lemma after_plain (x : Call Int) (k : Kernel) : after (plain x) k = after x k := by
  unfold plain
  rw [map_eq_pure_bind]
  change Fallible.left Prod.snd ((x k) >>= fun r => pure (Reply.value r.1, r.2)) = _
  unfold after
  cases x k with
  | error e => rfl
  | ok r => rfl

section Groups

variable {k : Kernel} {cpu : Cpu} {a : Args} {env : Env} {call : Syscall}

lemma within_taskCalls (h : call ∈ [.send, .recv, .tryRecv, .yield, .exit, .wait, .aiCall, .sigaction, .kill,
    .sigreturn, .sigmask, .clone]) : Within (Acts (footprint k cpu a env call)) (handle cpu a env call) := by
  fin_cases h <;> grind [handle, footprint, sysSend, sysRecv, sysTryRecv, sysYield, sysExit, sysWait, sysAiCall,
    sysSigaction, sysKill, sysSigmask, sysClone]

lemma within_rightsCalls (h : call ∈ [.capGrant, .capRevoke, .capQuery, .filterSet, .filterGet, .listTasks,
    .getStats]) : Within (Acts (footprint k cpu a env call)) (handle cpu a env call) := by
  fin_cases h <;> grind [handle, footprint, sysCapGrant, sysCapRevoke, sysCapQuery, sysFilterSet, sysFilterGet,
    sysListTasks, sysGetStats]

lemma within_heapCalls (h : call ∈ [.blkRead, .blkWrite, .log, .malloc, .free, .realloc, .alignedAlloc, .kread]) :
    Within (Acts (footprint k cpu a env call)) (handle cpu a env call) := by
  fin_cases h <;> grind [handle, footprint, writesDisk, sysBlkRead, sysBlkWrite, dmaRead, sysLog, sysMalloc,
    sysFree, sysRealloc, allocHeader, sysKread]

lemma within_displayCalls (h : call ∈ [.mmap, .munmap, .fbInfo, .fbMap, .fbFlush, .surfCreate, .surfDestroy,
    .surfMap, .surfFlush, .surfMove, .surfResize, .surfRaise, .surfLower, .surfDirty]) :
    Within (Acts (footprint k cpu a env call)) (handle cpu a env call) := by
  fin_cases h <;> grind [handle, footprint, sysMmap, sysMunmap, sysFbInfo, sysFbMap, sysSurfCreate, sysSurfMap, surf]

lemma within_netCalls (h : call ∈ [.netSend, .netRecv, .ping, .httpGet, .httpsGet, .httpsPost, .dnsResolve,
    .tcpConnect, .tcpListen, .tcpAccept, .tcpWrite, .tcpRead, .tcpWaitReadable, .tcpClose]) :
    Within (Acts (footprint k cpu a env call)) (handle cpu a env call) := by
  fin_cases h <;>
  · simp only [handle, sysNetSend, sysNetRecv, netCall, sysPing, sysHttpGet, sysHttpsGet, webRequest, sysHttpsPost,
      sysDnsResolve, sysTcpWrite, sysTcpRead, sysTcpClose]
    grind [footprint, sendsFrames]

end Groups

theorem handle_acts (k : Kernel) (cpu : Cpu) (a : Args) (env : Env) (call : Syscall) :
    Relation.ReflTransGen (Acts (footprint k cpu a env call)) k (after (handle cpu a env call) k) := by
  have hplain {K : Kind → Bool} {x : Call Int} (h : Relation.ReflTransGen (Acts K) k (after x k)) :
      Relation.ReflTransGen (Acts K) k (after (plain x) k) := (after_plain x k).symm ▸ h
  cases call with
  | writeFd => exact hplain (sysWriteFd_acts cpu (fun h => h) _ _)
  | close => exact hplain (sysClose_acts (fun h => h))
  | create => exact hplain (sysCreate_acts cpu (fun h => decide_eq_true h))
  | send | recv | tryRecv | yield | exit | wait | aiCall | sigaction | kill | sigreturn | sigmask | clone =>
    exact within_taskCalls (by simp) k
  | capGrant | capRevoke | capQuery | filterSet | filterGet | listTasks | getStats =>
    exact within_rightsCalls (by simp) k
  | blkRead | blkWrite | log | malloc | free | realloc | alignedAlloc | kread => exact within_heapCalls (by simp) k
  | mmap | munmap | fbInfo | fbMap | fbFlush | surfCreate | surfDestroy | surfMap | surfFlush | surfMove
  | surfResize | surfRaise | surfLower | surfDirty => exact within_displayCalls (by simp) k
  | inputPoll | getRtc | getIp | speak | consoleGets | consoleGetc =>
    refine (?_ : Within _ _) k
    grind [handle, sysInputPoll, sysGetIp, sysSpeak, sysConsoleGets, sysConsoleGetc]
  | netSend | netRecv | ping | httpGet | httpsGet | httpsPost | dnsResolve | tcpConnect | tcpListen | tcpAccept
  | tcpWrite | tcpRead | tcpWaitReadable | tcpClose => exact within_netCalls (by simp) k
  | exec | wasmLoad | wasmExec =>
    refine (?_ : Within _ _) k
    simp only [handle, sysWasmLoad, sysWasmExec]
    grind [footprint, writesDisk, sendsFrames]
  | «open» | readFd | readdir | pipe =>
    refine (?_ : Within _ _) k
    simp only [handle, sysOpen, sysReadFd, sysReaddir, sysPipe]
    grind
  | configGet | configSet | atomicWrite | unlink | rename =>
    refine (?_ : Within _ _) k
    simp only [handle, sysConfigGet, sysUnlink, sysRename]
    grind [footprint, writesDisk]

end Aeglos.Proofs
