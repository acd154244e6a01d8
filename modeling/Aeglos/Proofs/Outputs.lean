import Aeglos.Proofs.Footprints

/-!
# Where the syscalls store their results

`destinations` is the table of the addresses that each syscall stores to.
-/

namespace Aeglos.Proofs

open Effects Call

def cells (ptr len : Nat) : List Nat := (List.range len).map fun i => wrap64 (ptr + i)

def loaded (k : Kernel) (cpu : Cpu) (ptr len : Nat) : Option Bytes :=
  match load cpu ptr len k with
  | .ok r => some r.1
  | .error _ => none

def readable (k : Kernel) (cpu : Cpu) (ptr len : Nat) : Bool := (loaded k cpu ptr len).isSome

def waiting (k : Kernel) (cpu : Cpu) : Option Message := (k.sched.currentTask cpu).bind fun t => t.mailbox.pop.1

def headerAt (k : Kernel) (cpu : Cpu) (ptr : Nat) : Option AllocHeader :=
  match loaded k cpu (wrapSub ptr headerSize) headerSize with
  | none => none
  | some raw =>
    if fromLe (raw.drop 24) = headerMagic then some ⟨fromLe (raw.take 8), fromLe ((raw.drop 8).take 8)⟩
    else none

def yields (k : Kernel) (fd len : Nat) : Nat :=
  match k.vfs.fd fd with
  | some (_, .fat32 file) =>
    match Fat.read file.val len k.fat with
    | .ok (some bytes, _) => bytes.length
    | _ => 0
  | some (_, .inline content pos _) => min len (content.length - pos)
  | some (_, .pipe id false) => min len (k.vfs.pipes id).count
  | _ => 0

def names (k : Kernel) (path : Bytes) : List Bytes :=
  match route path with
  | .proc => (procReaddir path).map Prod.fst
  | .mem => []
  | .fat32 =>
    match Fat.readdir path 64 k.fat with
    | .ok (infos, _) => infos.map Fat.DirInfo.name
    | .error _ => []

def entryCells (ptr : Nat) (name : Bytes) : List Nat :=
  cells ptr (min nameMax name.length + 1) ++ cells (ptr + 256) 3 ++ cells (ptr + 260) 4

def lineCells (ptr maxLen : Nat) : Nat → Bytes → List Nat
  | _, [] => []
  | count, b :: rest =>
    if b = 127 ∨ b = 8 then lineCells ptr maxLen (count - 1) rest
    else
      (if count < maxLen then [wrap64 (ptr + count)] else []) ++
        if b = 13 ∨ b = 10 then []
        else lineCells ptr maxLen (if count < maxLen then count + 1 else count) rest

def webCells (k : Kernel) (cpu : Cpu) (env : Env) (urlPtr urlLen bufPtr bufLen : Nat) : List Nat :=
  if urlPtr = 0 ∨ urlLen = 0 ∨ bufPtr = 0 ∨ bufLen = 0 then []
  else if readable k cpu urlPtr urlLen then cells bufPtr (min bufLen env.netData.length) else []

def destinations (k : Kernel) (cpu : Cpu) (a : Args) (env : Env) : Syscall → List Nat
  | .recv | .tryRecv => if a.arg0 = 0 ∨ (waiting k cpu).isNone then [] else cells a.arg0 messageSize
  | .blkRead =>
    if a.arg1 = 0 ∨ a.arg2 = 0 ∨ sectorSize ≤ a.arg2 ∧ k.fat.present = false then []
    else cells a.arg1 (a.arg2 / sectorSize * sectorSize)
  | .free =>
    if a.arg0 = 0 then []
    else match headerAt k cpu a.arg0 with
      | none => []
      | some h => cells h.blockPtr 16
  | .realloc =>
    if a.arg0 = 0 then []
    else match headerAt k cpu a.arg0 with
      | none => []
      | some h =>
        if a.arg1 = 0 ∨ env.heapPtr ≠ 0 ∧
            readable k cpu a.arg0 (min (wrapSub h.layoutSize headerSize) a.arg1) then
          cells h.blockPtr 16
        else []
  | .netRecv =>
    if a.arg0 = 0 ∨ a.arg1 = 0 ∨ k.netUp = false then []
    else match env.received with
      | none => []
      | some pkt => cells a.arg0 (min a.arg1 pkt.length)
  | .readFd => if a.arg1 = 0 ∨ a.arg2 = 0 then [] else cells a.arg1 (yields k a.arg0 a.arg2)
  | .readdir =>
    if a.arg0 = 0 ∨ a.arg2 = 0 then []
    else match loaded k cpu a.arg0 a.arg1 with
      | none => []
      | some path =>
        (names k (strOrEmpty path)).zipIdx.flatMap fun e => entryCells (a.arg2 + e.2 * dirEntrySize) e.1
  | .kread =>
    if a.arg0 < kernelVaOffset ∨ a.arg1 = 0 ∨ a.arg2 = 0 then []
    else if readable k cpu a.arg0 (min a.arg2 kreadMax) then cells a.arg1 (min a.arg2 kreadMax) else []
  | .fbInfo => [a.arg0, a.arg1, a.arg2].flatMap fun ptr => if ptr = 0 then [] else cells ptr 4
  | .inputPoll =>
    if a.arg0 = 0 ∨ a.arg1 = 0 then [] else cells a.arg0 (min a.arg1 env.events.length * inputEventSize)
  | .getStats => if a.arg0 = 0 then [] else cells a.arg0 16
  | .httpGet | .httpsGet => webCells k cpu env a.arg0 a.arg1 a.arg2 a.arg3
  | .httpsPost =>
    if a.arg2 ≠ 0 ∧ a.arg3 > 0 ∧ !readable k cpu a.arg2 a.arg3 then []
    else webCells k cpu env a.arg0 a.arg1 a.arg4 a.arg5
  | .dnsResolve =>
    if a.arg0 = 0 ∨ a.arg1 = 0 ∨ a.arg2 = 0 ∨ env.dns = none then []
    else if readable k cpu a.arg0 a.arg1 then cells a.arg2 4 else []
  | .pipe => if a.arg0 = 0 ∨ (openPipe k.vfs).1 = none then [] else cells a.arg0 8
  | .listTasks =>
    if a.arg0 = 0 ∨ a.arg1 = 0 then []
    else cells a.arg0 (min a.arg1 ((List.finRange maxTasks).filterMap k.sched.tasks).length * taskRecordSize)
  | .tcpRead => if a.arg1 = 0 ∨ a.arg2 = 0 then [] else cells a.arg1 (min a.arg2 env.netData.length)
  | .filterGet =>
    if a.arg1 = 0 ∨ (k.sched.getTaskSyscallFilter a.arg0).isNone then [] else cells a.arg1 16
  | .configGet =>
    if a.arg0 = 0 ∨ a.arg1 = 0 ∨ a.arg2 = 0 ∨ a.arg3 = 0 then []
    else match loaded k cpu a.arg0 a.arg1 with
      | none => []
      | some key =>
        match Config.configGet k.config (strOrEmpty key) with
        | none => []
        | some v => cells a.arg2 (min a.arg3 v.length)
  | .consoleGets => if a.arg0 = 0 ∨ a.arg1 = 0 then [] else lineCells a.arg0 a.arg1 0 env.typed
  | _ => []

def outputs (x : Call Reply) (k : Kernel) : List Nat :=
  match x k with
  | .ok (r, _) => r.stores.map Prod.fst
  | .error _ => []

lemma wrap64_idem (n : Nat) : wrap64 (wrap64 n) = wrap64 n := Nat.mod_mod _ _

lemma wrap64_wrap64 (m n : Nat) : wrap64 (wrap64 m + n) = wrap64 (m + n) := Nat.mod_add_mod ..

lemma cells_wrap64 (ptr len : Nat) : cells (wrap64 ptr) len = cells ptr len := by
  unfold cells
  simp only [wrap64_wrap64]

lemma cells_zero (ptr : Nat) : cells ptr 0 = [] := rfl

lemma cells_append (ptr m n : Nat) : cells ptr m ++ cells (ptr + m) n = cells ptr (m + n) := by
  unfold cells
  rw [List.range_add, List.map_append, List.map_map]
  simp [Function.comp_def, Nat.add_assoc]

lemma stores_addresses (r : Reply) :
    r.stores.map Prod.fst = r.out.flatMap fun run => cells run.1 run.2.length := by
  unfold Reply.stores cells
  rw [List.map_flatMap]
  congr 1
  funext run
  have hidx : run.2.zipIdx.map Prod.snd = List.range run.2.length := by
    rw [List.zipIdx_map_snd, List.range_eq_range']
  rw [List.map_map, ← hidx, List.map_map]
  rfl

section Rules

variable {α : Type} {k : Kernel}

lemma outputs_pure (r : Reply) (k : Kernel) :
    outputs (pure r) k = r.out.flatMap fun run => cells run.1 run.2.length := stores_addresses r

lemma outputs_value (ret : Int) (k : Kernel) : outputs (pure (.value ret)) k = [] := rfl

lemma outputs_ite {c : Prop} [Decidable c] (x y : Call Reply) (k : Kernel) :
    outputs (if c then x else y) k = if c then outputs x k else outputs y k := by
  split_ifs <;> rfl

lemma outputs_get (f : Kernel → Call Reply) (k : Kernel) : outputs (get >>= f) k = outputs (f k) k := rfl

lemma outputs_bind_ok {x : Call α} {f : α → Call Reply} {a : α} {k' : Kernel} (h : x k = .ok (a, k')) :
    outputs (x >>= f) k = outputs (f a) k' := by
  unfold outputs
  change (match (x k) >>= fun r => f r.1 r.2 with
    | .ok (r, _) => r.stores.map Prod.fst
    | .error _ => []) = _
  rw [h]
  rfl

lemma outputs_bind_error {x : Call α} {f : α → Call Reply} {k' : Kernel} (h : x k = .error k') :
    outputs (x >>= f) k = [] := by
  unfold outputs
  change (match (x k) >>= fun r => f r.1 r.2 with
    | .ok (r, _) => r.stores.map Prod.fst
    | .error _ => []) = _
  rw [h]
  rfl

lemma outputs_stop_bind (f : α → Call Reply) (k : Kernel) : outputs (stop >>= f) k = [] := rfl

lemma outputs_plain (x : Call Int) (k : Kernel) : outputs (plain x) k = [] := by
  unfold plain
  rw [map_eq_pure_bind]
  cases h : x k with
  | error e => exact outputs_bind_error h
  | ok r => exact outputs_bind_ok h

lemma load_eq (k : Kernel) (cpu : Cpu) (ptr len : Nat) :
    load cpu ptr len k = match loaded k cpu ptr len with
      | some bytes => .ok (bytes, k)
      | none => .error k := by
  have hsame : after (load cpu ptr len) k = k := (within_load cpu ptr len).no_step k
  unfold loaded
  unfold after at hsame
  cases h : load cpu ptr len k with
  | error e =>
    rw [h] at hsame
    exact congrArg Except.error hsame
  | ok r =>
    rw [h] at hsame
    exact congrArg (fun s => Except.ok (r.1, s)) hsame

lemma load_length {cpu : Cpu} {ptr len : Nat} {bytes : Bytes} {k k' : Kernel}
    (h : load cpu ptr len k = .ok (bytes, k')) : bytes.length = len := by
  induction len generalizing ptr bytes k with
  | zero =>
    cases h
    rfl
  | succ len ih =>
    obtain ⟨b, k₁, -, h⟩ := bind_ok h
    obtain ⟨bs, k₂, hbs, h⟩ := bind_ok h
    cases h
    simp [ih hbs]

lemma loaded_length {cpu : Cpu} {ptr len : Nat} {bytes : Bytes} (h : loaded k cpu ptr len = some bytes) :
    bytes.length = len := by
  have hload := load_eq k cpu ptr len
  rw [h] at hload
  exact load_length hload

lemma outputs_load (cpu : Cpu) (ptr len : Nat) (f : Bytes → Call Reply) (k : Kernel) :
    outputs (load cpu ptr len >>= f) k = match loaded k cpu ptr len with
      | some bytes => outputs (f bytes) k
      | none => [] := by
  have h := load_eq k cpu ptr len
  cases hl : loaded k cpu ptr len with
  | none =>
    rw [hl] at h
    exact outputs_bind_error h
  | some bytes =>
    rw [hl] at h
    exact outputs_bind_ok h

lemma outputs_loadStr (cpu : Cpu) (ptr len : Nat) (f : Bytes → Call Reply) (k : Kernel) :
    outputs (loadStr cpu ptr len >>= f) k = match loaded k cpu ptr len with
      | some bytes => outputs (f (strOrEmpty bytes)) k
      | none => [] := by
  unfold loadStr
  rw [map_eq_pure_bind, bind_assoc]
  simp only [pure_bind]
  exact outputs_load cpu ptr len _ k

end Rules

lemma sized_length (n : Nat) (bytes : Bytes) : (sized n bytes).length = n := by simp [sized]

lemma message_length (m : Message) : m.bytes.length = messageSize := by
  simp [Message.bytes, messageSize]

section Calls

variable (k : Kernel) (cpu : Cpu) (a : Args) (env : Env)

lemma recvMessage_waiting : (k.sched.recvMessage cpu).1 = waiting k cpu := by
  unfold Sched.recvMessage waiting
  split
  case h_1 msg h => exact h.symm
  case h_2 h => exact h.symm

lemma outputs_deliver (msgPtr : Nat) (r : Option Message) (k' : Kernel) :
    outputs (pure (deliver msgPtr r)) k' = if r.isNone then [] else cells msgPtr messageSize := by
  cases r with
  | none => rfl
  | some msg => simp [outputs_pure, deliver, message_length]

lemma outputs_receive {x : Call (Option Message)} {k' : Kernel} (hx : x k = .ok (waiting k cpu, k')) :
    outputs (if a.arg0 = 0 then pure (.value (-1)) else return deliver a.arg0 (← x)) k =
      destinations k cpu a env .recv := by
  unfold destinations
  dsimp only
  rw [outputs_ite, outputs_value, outputs_bind_ok hx, outputs_deliver]
  split_ifs <;> simp_all

lemma sectorBytes_length (f : Fat) (stale : Bytes) (sector count : Nat) :
    (sectorBytes f stale sector count).length = count * sectorSize := by
  unfold sectorBytes
  rw [List.length_flatMap]
  have hconst : (List.range count).map (fun i =>
      (if sector + min count (i / ioSectors * ioSectors + ioSectors) ≤ f.capacity then
        (f.disk (sector + i)).slice 0 sectorSize
      else (List.range sectorSize).map fun j =>
        stale.getD ((i - i / ioSectors * ioSectors) * sectorSize + j) 0).length) =
      List.replicate count sectorSize := by
    rw [List.eq_replicate_iff]
    refine ⟨by simp, fun n hn => ?_⟩
    obtain ⟨i, -, rfl⟩ := List.mem_map.mp hn
    split <;> simp
  rw [hconst]
  simp

lemma outputs_sysBlkRead : outputs (sysBlkRead env a.arg0 a.arg1 a.arg2) k = destinations k cpu a env .blkRead := by
  unfold destinations
  dsimp only
  unfold sysBlkRead
  rw [outputs_ite, outputs_value, outputs_get]
  dsimp only
  rw [outputs_ite, outputs_stop_bind, outputs_pure]
  simp only [List.flatMap_cons, List.flatMap_nil, List.append_nil, sectorBytes_length]
  split_ifs <;> simp_all

lemma outputs_allocHeader (ptr : Nat) (f : Option AllocHeader → Call Reply)
    (hnone : outputs (f none) k = []) :
    outputs (allocHeader cpu ptr >>= f) k = match headerAt k cpu ptr with
      | none => []
      | some h => outputs (f (some h)) k := by
  unfold allocHeader headerAt
  rw [bind_assoc, outputs_load]
  cases loaded k cpu (wrapSub ptr headerSize) headerSize with
  | none => rfl
  | some raw =>
    dsimp only
    by_cases hm : fromLe (raw.drop 24) = headerMagic
    · simp [hm]
    · simp [hm, hnone]

lemma outputs_sysFree : outputs (sysFree cpu env a.arg0) k = destinations k cpu a env .free := by
  unfold destinations
  dsimp only
  unfold sysFree
  rw [outputs_ite, outputs_value, outputs_allocHeader]
  · simp [outputs_pure, holeStore, sized_length]
  · rfl

lemma outputs_sysRealloc : outputs (sysRealloc cpu env a.arg0 a.arg1) k = destinations k cpu a env .realloc := by
  unfold destinations
  dsimp only
  unfold sysRealloc
  rw [outputs_ite, outputs_value, outputs_ite, outputs_allocHeader _ _ _ _ rfl]
  by_cases hsize : a.arg1 = 0
  · have hfree : outputs (do return (⟨0, (← sysFree cpu env a.arg0).out⟩ : Reply)) k =
        outputs (sysFree cpu env a.arg0) k := by
      cases h : sysFree cpu env a.arg0 k with
      | error e => rw [outputs_bind_error h, outputs, h]
      | ok r =>
        rw [outputs_bind_ok h, outputs_pure, outputs, h]
        exact (stores_addresses r.1).symm
    simp only [hsize, if_true, true_or]
    rw [hfree, outputs_sysFree]
    unfold destinations
    dsimp only
    split_ifs <;> rfl
  · simp only [hsize, if_false, false_or]
    cases headerAt k cpu a.arg0 with
    | none => rfl
    | some h =>
      simp only [outputs_ite, outputs_load, outputs_pure, holeStore, readable, List.flatMap_cons,
        List.flatMap_nil, List.append_nil, sized_length]
      obtain hl | ⟨bytes, hl⟩ := Option.eq_none_or_eq_some
        (loaded k cpu a.arg0 (min (wrapSub h.layoutSize headerSize) a.arg1))
      · simp [hl, Reply.value]
      · by_cases hp : env.heapPtr = 0 <;> simp [hl, hp, Reply.value]

lemma outputs_sysNetRecv : outputs (sysNetRecv env a.arg0 a.arg1) k = destinations k cpu a env .netRecv := by
  unfold destinations
  dsimp only
  unfold sysNetRecv
  rw [outputs_ite, outputs_value, outputs_get, outputs_ite, outputs_value]
  cases env.received with
  | none =>
    rw [outputs_value]
    split_ifs <;> rfl
  | some pkt =>
    simp only [outputs_pure, List.flatMap_cons, List.flatMap_nil, List.append_nil, List.length_take]
    split_ifs <;> simp_all

lemma outputs_fat_ok {α : Type} {x : FatM α} {r : α} {f : Fat} (h : x k.fat = .ok (r, f))
    (g : α → Call Reply) : outputs (fat x >>= g) k = outputs (g r) { k with fat := f } := by
  refine outputs_bind_ok ?_
  unfold fat zoom
  rw [h]

lemma outputs_fat_error {α : Type} {x : FatM α} {f : Fat} (h : x k.fat = .error f)
    (g : α → Call Reply) : outputs (fat x >>= g) k = [] := by
  have hstop : fat x k = .error { k with fat := f } := by
    unfold fat zoom
    rw [h]
  exact outputs_bind_error hstop

lemma outputs_sysReadFd : outputs (sysReadFd a.arg0 a.arg1 a.arg2) k = destinations k cpu a env .readFd := by
  unfold destinations
  dsimp only
  unfold sysReadFd yields
  rw [outputs_ite, outputs_value, outputs_get]
  congr 1
  cases hfd : k.vfs.fd a.arg0 with
  | none => rfl
  | some p =>
    obtain ⟨i, file | ⟨content, pos, writable⟩ | ⟨id, writeEnd⟩⟩ := p
    · dsimp only
      cases hread : Fat.read file.val a.arg2 k.fat with
      | error f => exact outputs_fat_error k hread _
      | ok r =>
        obtain ⟨r, f⟩ := r
        refine (outputs_fat_ok k hread _).trans ?_
        cases r with
        | none => rfl
        | some bytes => simp [outputs_pure]
    · have hlen : ((content.drop pos).take a.arg2).length = min a.arg2 (content.length - pos) := by simp
      dsimp only
      rw [← hlen, outputs_ite, outputs_value]
      split_ifs with hempty
      · rw [hempty]
        rfl
      · exact (outputs_bind_ok rfl).trans (by simp [outputs_pure])
    · cases writeEnd with
      | true => rfl
      | false => exact (outputs_bind_ok rfl).trans (by simp [outputs_pure, PipeBuf.readBytes])

lemma listing_cells (outPtr : Nat) (entries : List (Bytes × Bool × Nat)) :
    (listing outPtr entries).flatMap (fun run => cells run.1 run.2.length) =
      (entries.map Prod.fst).zipIdx.flatMap fun e => entryCells (outPtr + e.2 * dirEntrySize) e.1 := by
  unfold listing
  rw [List.flatMap_assoc, List.zipIdx_map, List.flatMap_map]
  congr 1
  funext e
  simp [dirEntryBytes, entryCells, cells_wrap64]

lemma outputs_sysReaddir : outputs (sysReaddir cpu a.arg0 a.arg1 a.arg2) k = destinations k cpu a env .readdir := by
  unfold destinations
  dsimp only
  unfold sysReaddir
  rw [outputs_ite, outputs_value, outputs_loadStr]
  congr 1
  cases loaded k cpu a.arg0 a.arg1 with
  | none => rfl
  | some path =>
    dsimp only
    unfold names
    cases route (strOrEmpty path) with
    | proc =>
      dsimp only
      rw [outputs_pure, listing_cells, List.map_map]
      rfl
    | mem => rfl
    | fat32 =>
      dsimp only
      cases hread : Fat.readdir (strOrEmpty path) 64 k.fat with
      | error f => exact outputs_fat_error k hread _
      | ok r =>
        refine (outputs_fat_ok k hread _).trans ?_
        rw [outputs_pure, listing_cells, List.map_map]
        rfl

lemma outputs_sysKread : outputs (sysKread cpu a.arg0 a.arg1 a.arg2) k = destinations k cpu a env .kread := by
  unfold destinations
  dsimp only
  unfold sysKread readable
  rw [outputs_ite, outputs_value]
  dsimp only
  rw [outputs_load]
  congr 1
  obtain hl | ⟨bytes, hl⟩ := Option.eq_none_or_eq_some (loaded k cpu a.arg0 (min a.arg2 kreadMax))
  · simp [hl]
  · simp [hl, outputs_pure, loaded_length hl]

lemma outputs_sysFbInfo : outputs (sysFbInfo a.arg0 a.arg1 a.arg2) k = destinations k cpu a env .fbInfo := by
  unfold destinations
  dsimp only
  have hcells (ptr n : Nat) : (storeU32 ptr n).flatMap (fun run => cells run.1 run.2.length) =
      if ptr = 0 then [] else cells ptr 4 := by
    unfold storeU32
    split_ifs
    · rfl
    · simp
  unfold sysFbInfo
  rw [outputs_get]
  dsimp only
  rw [outputs_pure]
  simp [List.flatMap_append, hcells]

lemma records_cells (outPtr size : Nat) {entries : List Bytes} (h : ∀ e ∈ entries, e.length = size) :
    (records outPtr size entries).flatMap (fun run => cells run.1 run.2.length) =
      cells outPtr (entries.length * size) := by
  have hshift : ∀ n, ((entries.zipIdx n).map fun e => (wrap64 (outPtr + e.2 * size), e.1)).flatMap
      (fun run => cells run.1 run.2.length) = cells (outPtr + n * size) (entries.length * size) := by
    induction entries with
    | nil => exact fun n => by simp [cells_zero]
    | cons e es ih =>
      intro n
      have hrest := ih (fun e he => h e (List.mem_cons_of_mem _ he)) (n + 1)
      rw [List.zipIdx_cons, List.map_cons, List.flatMap_cons, hrest]
      simp only [cells_wrap64, h e List.mem_cons_self, List.length_cons, Nat.add_mul, Nat.one_mul]
      rw [← Nat.add_assoc, cells_append, Nat.add_comm size]
  simpa [records] using hshift 0

lemma outputs_sysInputPoll : outputs (sysInputPoll env a.arg0 a.arg1) k = destinations k cpu a env .inputPoll := by
  unfold destinations
  dsimp only
  unfold sysInputPoll
  rw [outputs_ite, outputs_value]
  dsimp only
  rw [outputs_pure, records_cells]
  · simp
  · intro e he
    obtain ⟨ev, -, rfl⟩ := List.mem_map.mp he
    exact sized_length _ _

lemma taskRecord_length (r : Nat × BitVec 64 × Bytes) : (taskRecord r).length = taskRecordSize := by
  simp [taskRecord, sized_length, taskRecordSize]

lemma outputs_sysListTasks : outputs (sysListTasks a.arg0 a.arg1) k = destinations k cpu a env .listTasks := by
  unfold destinations
  dsimp only
  unfold sysListTasks
  rw [outputs_ite, outputs_value, outputs_get]
  dsimp only
  rw [outputs_pure, records_cells]
  · simp [listTasks]
  · intro e he
    obtain ⟨r, -, rfl⟩ := List.mem_map.mp he
    exact taskRecord_length r

lemma outputs_sysGetStats (outPtr : Nat) :
    outputs (sysGetStats outPtr) k = if outPtr = 0 then [] else cells outPtr 16 := by
  unfold sysGetStats
  rw [outputs_ite, outputs_value, outputs_get, outputs_pure]
  simp [statsBytes]

lemma transmitAll_total (frames : List Bytes) : Total (transmitAll frames) := by
  refine total_forM (fun frame => total_bind ?_ fun _ => total_pure _) frames
  unfold transmit
  exact total_bind total_get fun _ => total_ite (total_pure _) (total_ite (total_pure _)
    (total_bind (total_modify _) fun _ => total_pure _))

lemma outputs_transmitAll (frames : List Bytes) (r : Reply) :
    outputs (transmitAll frames >>= fun _ => pure r) k =
      r.out.flatMap fun run => cells run.1 run.2.length := by
  obtain ⟨_, k', h⟩ := transmitAll_total frames k
  rw [outputs_bind_ok h, outputs_pure]

lemma outputs_webRequest (urlPtr urlLen bufPtr bufLen : Nat) :
    outputs (webRequest cpu env urlPtr urlLen bufPtr bufLen) k =
      webCells k cpu env urlPtr urlLen bufPtr bufLen := by
  unfold webRequest webCells readable
  rw [outputs_ite, outputs_value, outputs_loadStr]
  congr 1
  obtain hl | ⟨url, hl⟩ := Option.eq_none_or_eq_some (loaded k cpu urlPtr urlLen)
  · simp [hl]
  · simp only [hl, outputs_transmitAll]
    simp

lemma outputs_loadOptional (ptr len : Nat) (f : Bytes → Call Reply) :
    outputs (loadOptional cpu ptr len >>= f) k =
      if ptr ≠ 0 ∧ len > 0 then
        match loaded k cpu ptr len with
        | some bytes => outputs (f bytes) k
        | none => []
      else outputs (f []) k := by
  unfold loadOptional
  split_ifs
  · exact outputs_load cpu ptr len f k
  · rw [pure_bind]

lemma outputs_sysHttpsPost : outputs (sysHttpsPost cpu env a.arg0 a.arg1 a.arg2 a.arg3 a.arg4 a.arg5) k = destinations k cpu a env .httpsPost := by
  unfold destinations
  dsimp only
  unfold sysHttpsPost webCells readable
  rw [outputs_ite, outputs_value, outputs_loadStr]
  obtain hl | ⟨url, hl⟩ := Option.eq_none_or_eq_some (loaded k cpu a.arg0 a.arg1)
  · simp [hl]
  · simp only [hl, outputs_loadOptional, outputs_transmitAll]
    obtain hb | ⟨body, hb⟩ := Option.eq_none_or_eq_some (loaded k cpu a.arg2 a.arg3)
    · by_cases hbody : a.arg2 ≠ 0 ∧ a.arg3 > 0
      · simp [hb, hbody]
      · simp only [hb, hbody, if_false, ← and_assoc, false_and]
        simp
    · simp [hb]

lemma outputs_sysDnsResolve : outputs (sysDnsResolve cpu env a.arg0 a.arg1 a.arg2) k = destinations k cpu a env .dnsResolve := by
  unfold destinations
  dsimp only
  unfold sysDnsResolve readable
  rw [outputs_ite, outputs_value, outputs_loadStr]
  obtain hl | ⟨name, hl⟩ := Option.eq_none_or_eq_some (loaded k cpu a.arg0 a.arg1)
  · simp [hl]
  · rw [hl]
    cases hdns : env.dns with
    | none =>
      simp only [outputs_transmitAll]
      simp [Reply.value]
    | some ip =>
      simp only [outputs_transmitAll]
      by_cases hp : a.arg2 = 0 <;> simp [hp, sized_length]

lemma outputs_sysPipe : outputs (sysPipe a.arg0) k = destinations k cpu a env .pipe := by
  unfold destinations
  dsimp only
  unfold sysPipe
  rw [outputs_ite, outputs_value, outputs_bind_ok (a := (openPipe k.vfs).1) rfl]
  cases (openPipe k.vfs).1 with
  | none => simp [outputs_value]
  | some p => simp [outputs_pure, cells_wrap64, cells_append]

lemma outputs_sysTcpRead (bufPtr len : Nat) :
    outputs (sysTcpRead env bufPtr len) k =
      if bufPtr = 0 ∨ len = 0 then [] else cells bufPtr (min len env.netData.length) := by
  unfold sysTcpRead
  rw [outputs_ite, outputs_value, outputs_pure]
  simp

lemma outputs_sysFilterGet : outputs (sysFilterGet a.arg0 a.arg1) k = destinations k cpu a env .filterGet := by
  unfold destinations
  dsimp only
  unfold sysFilterGet
  rw [outputs_ite, outputs_value, outputs_get]
  cases k.sched.getTaskSyscallFilter a.arg0 with
  | none => simp [outputs_value]
  | some f => simp [outputs_pure, cells_wrap64, cells_append]

lemma outputs_sysConfigGet : outputs (sysConfigGet cpu a.arg0 a.arg1 a.arg2 a.arg3) k = destinations k cpu a env .configGet := by
  unfold destinations
  dsimp only
  unfold sysConfigGet
  rw [outputs_ite, outputs_value, outputs_loadStr]
  cases loaded k cpu a.arg0 a.arg1 with
  | none => simp
  | some key =>
    dsimp only
    rw [outputs_get]
    cases Config.configGet k.config (strOrEmpty key) with
    | none => simp [outputs_value]
    | some v =>
      dsimp only
      rw [outputs_ite, outputs_pure, outputs_value]
      by_cases hp : a.arg2 = 0
      · simp [hp]
      · by_cases hl : a.arg3 = 0 <;> simp [hp, hl, Nat.pos_iff_ne_zero]

lemma typeLine_cells (ptr maxLen count : Nat) (typed : Bytes) :
    (typeLine ptr maxLen count typed).2.flatMap (fun run => cells run.1 run.2.length) =
      lineCells ptr maxLen count typed := by
  induction typed generalizing count with
  | nil => rfl
  | cons b rest ih =>
    have hone : cells (wrap64 (ptr + count)) 1 = [wrap64 (ptr + count)] := by
      rw [cells_wrap64]
      rfl
    unfold typeLine lineCells
    split_ifs <;> simp [ih, hone]

lemma outputs_sysConsoleGets : outputs (sysConsoleGets env a.arg0 a.arg1) k = destinations k cpu a env .consoleGets := by
  unfold destinations
  dsimp only
  unfold sysConsoleGets
  rw [outputs_ite, outputs_value]
  dsimp only
  rw [outputs_pure, typeLine_cells]

end Calls

theorem handle_outputs (k : Kernel) (cpu : Cpu) (a : Args) (env : Env) (call : Syscall) :
    outputs (handle cpu a env call) k = destinations k cpu a env call := by
  cases call with
  | recv => exact outputs_receive k cpu a env (by rw [← recvMessage_waiting]; rfl)
  | tryRecv => exact outputs_receive k cpu a env rfl
  | blkRead => exact outputs_sysBlkRead k cpu a env
  | free => exact outputs_sysFree k cpu a env
  | realloc => exact outputs_sysRealloc k cpu a env
  | netRecv => exact outputs_sysNetRecv k cpu a env
  | readFd => exact outputs_sysReadFd k cpu a env
  | readdir => exact outputs_sysReaddir k cpu a env
  | kread => exact outputs_sysKread k cpu a env
  | fbInfo => exact outputs_sysFbInfo k cpu a env
  | inputPoll => exact outputs_sysInputPoll k cpu a env
  | getStats => exact outputs_sysGetStats k a.arg0
  | httpGet => exact outputs_webRequest k cpu env a.arg0 a.arg1 a.arg2 a.arg3
  | httpsGet => exact outputs_webRequest k cpu env a.arg0 a.arg1 a.arg2 a.arg3
  | httpsPost => exact outputs_sysHttpsPost k cpu a env
  | dnsResolve => exact outputs_sysDnsResolve k cpu a env
  | pipe => exact outputs_sysPipe k cpu a env
  | listTasks => exact outputs_sysListTasks k cpu a env
  | tcpRead => exact outputs_sysTcpRead k env a.arg1 a.arg2
  | filterGet => exact outputs_sysFilterGet k cpu a env
  | configGet => exact outputs_sysConfigGet k cpu a env
  | consoleGets => exact outputs_sysConsoleGets k cpu a env
  | _ => exact outputs_plain _ k

end Aeglos.Proofs
