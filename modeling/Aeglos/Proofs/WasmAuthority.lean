import Aeglos.Proofs.Pointers
import Aeglos.Proofs.WasmPanics

/-!
# The authority of a WebAssembly module

The host imports call the kernel without asking for the capabilities of the task that runs the
module.
-/

namespace Aeglos.Proofs

open Effects Wasm

variable {η : Type} {caps : BitVec 64} {args : List Value}

def HasCap (caps cap : BitVec 64) : Prop := caps &&& cap ≠ 0

/-- What a task with the capabilities `caps` could do by a syscall: write to the serial port,
send a message to a task, receive a message. -/
def Permitted (caps : BitVec 64) : Event → Prop
  | .uart text => text = [] ∨ HasCap caps Cap.log
  | .sent tid => tid ≠ 0 ∧ HasCap caps Cap.send ∧ (tid = Call.numenorTid → HasCap caps Cap.ai)
  | .received _ => HasCap caps Cap.recv
  | _ => True

def Allowed (caps : BitVec 64) (args : List Value) : HostImport → Prop
  | .log => arg32 args 1 = 0 ∨ HasCap caps Cap.log
  | .fdWrite => ¬(arg32 args 0 = 1 ∨ arg32 args 0 = 2) ∨ arg32 args 2 = 0 ∨ HasCap caps Cap.log
  | .unknown => HasCap caps Cap.log
  | .sendIpc => (arg args 0).toNat ≠ 0 ∧ HasCap caps Cap.send ∧
      ((arg args 0).toNat = Call.numenorTid → HasCap caps Cap.ai)
  | .recvIpc => HasCap caps Cap.recv
  | .aiInfer => HasCap caps Cap.send ∧ HasCap caps Cap.ai ∧ HasCap caps Cap.recv
  | _ => True

lemma permitted_of_causes {i : HostImport} {e : Event}
    (hallowed : Allowed caps args i) (h : Causes i args e) : Permitted caps e := by
  cases e with
  | uart text =>
    rcases h with rfl | ⟨rfl, htext⟩ | ⟨rfl, hfd, hlen⟩
    · exact Or.inr hallowed
    · exact hallowed.imp htext id
    · rcases hallowed with hn | hzero | hlog
      · exact absurd hfd hn
      · exact absurd hzero hlen
      · exact Or.inr hlog
  | sent tid =>
    rcases h with ⟨rfl, rfl⟩ | ⟨rfl, rfl⟩
    · exact hallowed
    · exact ⟨by decide, hallowed.1, fun _ => hallowed.2.1⟩
  | received msg =>
    rcases h with rfl | rfl
    · exact hallowed
    · exact hallowed.2.2
  | _ => exact h.elim

def AuthorityInv (caps : BitVec 64) (s : Machine η) : Prop :=
  (∀ i args, Event.imported i args ∈ s.trace → Allowed caps args i) → ∀ e ∈ s.trace, Permitted caps e

def Keeps (caps : BitVec 64) (s s' : Machine η) : Prop :=
  (∀ e ∈ s.trace, e ∈ s'.trace) ∧ (AuthorityInv caps s → AuthorityInv caps s')

def Stays (caps : BitVec 64) (s s' : Machine η) : Prop :=
  ∃ new, s'.trace = new ++ s.trace ∧ ∀ e ∈ new, Permitted caps e

section Steps

variable {caps : BitVec 64} {m : WasmModule} {s s' : Machine η}

lemma Stays.keeps (h : Stays caps s s') : Keeps caps s s' := by
  obtain ⟨new, heq, hnew⟩ := h
  unfold Keeps AuthorityInv
  rw [heq]
  refine ⟨fun e he => List.mem_append_right _ he, fun hinv hall e he => ?_⟩
  rcases List.mem_append.mp he with he | he
  · exact hnew e he
  · exact hinv (fun i args hi => hall i args (List.mem_append_right _ hi)) e he

lemma Stays.of_event {e : Event} (he : Permitted caps e) : Stays caps s { s with trace := e :: s.trace } :=
  ⟨[e], rfl, List.forall_mem_singleton.mpr he⟩

lemma Micro.stays (h : Micro m s s') : Stays caps s s' := by
  have hnone : ∀ e ∈ ([] : List Event), Permitted caps e := fun e he => absurd he List.not_mem_nil
  cases h with
  | shrink k => exact ⟨[], rfl, hnone⟩
  | push v hlt => exact ⟨[_], rfl, List.forall_mem_singleton.mpr trivial⟩
  | globals gs => exact ⟨[], rfl, hnone⟩
  | access addr len ram hcheck hram => exact ⟨[_], rfl, List.forall_mem_singleton.mpr trivial⟩
  | resize pages hle hcap => exact ⟨[_], rfl, List.forall_mem_singleton.mpr trivial⟩
  | frames n hn => exact .of_event trivial
  | call callee hcallee => exact .of_event trivial
  | kernel k => exact ⟨[], rfl, hnone⟩

lemma Halts.stays (h : Halts m s s') : Stays caps s s' := by
  cases h with
  | halted r hne => exact .of_event trivial
  | missing callee hcallee => exact ⟨[_, _], rfl, List.forall_mem_cons.mpr ⟨trivial, List.forall_mem_singleton.mpr trivial⟩⟩
  | hung k => exact ⟨[], rfl, fun e he => absurd he List.not_mem_nil⟩

lemma WasmStep.mem (h : WasmStep m s s') {e : Event} (he : e ∈ s.trace) : e ∈ s'.trace := by
  rcases h with h | ⟨e', -, rfl⟩
  · have hstays : Stays 0 s s' := h.stays
    exact hstays.keeps.1 e he
  · exact List.mem_cons_of_mem _ he

lemma keeps_of_refused {i : HostImport} {args : List Value} (hi : Event.imported i args ∈ s.trace)
    (hn : ¬Allowed caps args i) (h : WasmStep m s s') : Keeps caps s s' :=
  ⟨fun _ he => h.mem he, fun _ hall => absurd (hall i args (h.mem hi)) hn⟩

end Steps

lemma proceeds_dispatch_stays (host : Host η) (m : WasmModule) (fuel : Nat)
    {module name : Bytes} (hallowed : Allowed caps args (HostImport.ofNames module name)) :
    Proceeds (Stays caps) (Halts m) (dispatchHostImport host args fuel module name) := by
  refine proceeds_bind (proceeds_modify fun s => .of_event trivial) fun _ => ?_
  exact proceeds_runImport (fun s s' h => h.stays) fuel module name fun e he s =>
    .of_event (permitted_of_causes hallowed he)

lemma proceeds_dispatch_keeps (host : Host η) (m : WasmModule) (args : List Value) (fuel : Nat)
    (module name : Bytes) : Proceeds (Keeps caps) (Halts m) (dispatchHostImport host args fuel module name) := by
  by_cases hallowed : Allowed caps args (HostImport.ofNames module name)
  · exact proceeds_mono (fun s s' h => h.keeps) (proceeds_dispatch_stays host m fuel hallowed)
  · intro s
    have hfirst : Keeps caps s { s with trace := .imported (HostImport.ofNames module name) args :: s.trace } :=
      ⟨fun e he => List.mem_cons_of_mem _ he, fun _ hall => absurd (hall _ args List.mem_cons_self) hallowed⟩
    refine proceeds_bind_at (proceedsAt_ok rfl (.single hfirst)) fun _ s' hs' => ?_
    obtain ⟨-, rfl⟩ := Prod.mk.inj (Except.ok.inj hs')
    exact (proceeds_runImport_step host m fuel args module name _ _).mono_of
      (fun s s' hi hact => hact.mem hi) (fun s s' hi hact => keeps_of_refused hi hallowed hact) List.mem_cons_self

lemma runExport_permitted (host : Host η) (m : WasmModule) (fuel idx : Nat) (args : List Value)
    (ram : Nat → UInt8) (kernel : η)
    (hall : ∀ i args', Event.imported i args' ∈ (runExport host m fuel idx args ⟨ram, kernel, []⟩).2.trace →
      Allowed caps args' i) :
    ∀ e ∈ (runExport host m fuel idx args ⟨ram, kernel, []⟩).2.trace, Permitted caps e := by
  have hR : ∀ s s' : Machine η, Micro m s s' → Keeps caps s s' := fun s s' h => h.stays.keeps
  have hhost : ∀ fuel args idx, Proceeds (Keeps caps) (Halts m) (callHost host args m fuel idx) :=
    proceeds_callHost hR fun fuel args module name => proceeds_dispatch_keeps host m args fuel module name
  rcases runExport_by hR hhost fuel idx args ⟨ram, kernel, []⟩ with
    ⟨h, -, -, htrace, -⟩ | ⟨base, k, s, -, hsteps, hend⟩
  · rw [htrace]
    exact fun e he => absurd he List.not_mem_nil
  · have hinv : AuthorityInv caps s := by
      clear hend hall
      induction hsteps with
      | refl =>
        intro _ e he
        obtain rfl := List.mem_singleton.mp he
        exact trivial
      | tail _ hstep ih => exact hstep.2 ih
    rcases hend with ⟨vals, hr⟩ | ⟨s', hlast, hr⟩
    · rw [hr] at hall ⊢
      exact hinv hall
    · rw [hr] at hall ⊢
      exact (hlast.stays.keeps.2 hinv) hall

def busyHost : Host Unit := { idleHost with
  sendMessage := fun _ _ => pure true
  recvMessage := pure (some ⟨Call.numenorTid, payload []⟩) }

def wideMachine : Machine Unit := ⟨⟨0, 2 ^ 48, 2 ^ 48⟩, [], [], [], fun _ => 1, (), []⟩

section Refused

variable {s : Machine Unit} {α β : Type} {args : List Value} {caps : BitVec 64}

lemma mem_after {x : Exec Unit α} (hx : Proceeds (WasmStep {}) (Halts {}) x) {e : Event} (he : e ∈ s.trace) :
    e ∈ (after x s).trace := by
  have hhalts : ∀ s s' : Machine Unit, e ∈ s.trace → Halts {} s s' → e ∈ s'.trace := by
    intro s s' he h
    have hstays : Stays 0 s s' := h.stays
    exact hstays.keeps.1 e he
  exact (hx s).invariant (P := fun s => e ∈ s.trace) (fun _ _ he h => h.mem he) hhalts he

lemma mem_after_bind {x : Exec Unit α} {f : α → Exec Unit β} (hf : ∀ a, Proceeds (WasmStep {}) (Halts {}) (f a))
    {e : Event} (he : e ∈ (after x s).trace) : e ∈ (after (x >>= f) s).trace := by
  cases hx : x s with
  | error s' =>
    rw [after, hx] at he
    rw [after_bind_error hx]
    exact he
  | ok r =>
    rw [after_ok hx] at he
    rw [after_bind_ok hx]
    exact mem_after (hf r.1) he

lemma readBytes_wide (hmem : s.mem = wideMachine.mem) (addr : BitVec 32) (len : Nat) :
    readBytes addr len s = .ok (some (bytesAt s.ram (s.mem.base + addr.toNat) len),
      { s with trace := .access (s.mem.base + addr.toNat) len s.mem.pages :: s.trace }) := by
  have hcheck : s.mem.check addr len = true := by
    rw [hmem]
    refine decide_eq_true ?_
    have := addr.isLt
    simp only [wideMachine, wasmPageSize]
    omega
  unfold readBytes
  rw [bind_of_ok (rfl : (get : Exec Unit (Machine Unit)) s = .ok (s, s)), if_pos hcheck]
  unfold LinearMemory.bytes
  rw [if_pos hcheck]
  rfl

lemma uartText_ne_nil {bytes : Bytes} (h : bytes.length ≠ 0) : uartText bytes ≠ [] := by
  cases bytes with
  | nil => exact absurd rfl h
  | cons b bytes =>
    simp only [uartText, List.flatMap_cons, ne_eq, List.append_eq_nil_iff, not_and_or]
    split_ifs <;> simp

lemma toNat_ne_zero {a : BitVec 32} (h : a ≠ 0) : a.toNat ≠ 0 := fun hz => h (BitVec.eq_of_toNat_eq hz)

def calling (i : HostImport) (args : List Value) : Machine Unit := { wideMachine with trace := [.imported i args] }

lemma refused_log (h : arg32 args 1 ≠ 0) : ∃ text, text ≠ [] ∧
    Event.uart text ∈ (after (hostLog args) (calling .log args)).trace := by
  have hread := readBytes_wide (s := calling .log args) rfl (arg32 args 0) (arg32 args 1).toNat
  refine ⟨uartText (bytesAt (fun _ => 1) (0 + (arg32 args 0).toNat) (arg32 args 1).toNat), uartText_ne_nil ?_, ?_⟩
  · rw [bytesAt, List.length_map, List.length_range]
    exact toNat_ne_zero h
  · unfold hostLog
    rw [after_bind_ok hread]
    exact List.mem_cons_self

lemma refused_sendIpc :
    Event.sent (arg args 0).toNat ∈ (after (hostSendIpc busyHost args) (calling .sendIpc args)).trace := by
  have hread := readBytes_wide (s := calling .sendIpc args) rfl (arg32 args 1) 32
  unfold hostSendIpc
  dsimp only
  rw [after_bind_ok hread]
  exact List.mem_cons_self

lemma refused_recvIpc : ∃ msg,
    Event.received msg ∈ (after (hostRecvIpc busyHost args) (calling .recvIpc args)).trace := by
  refine ⟨⟨Call.numenorTid, payload []⟩, ?_⟩
  unfold hostRecvIpc
  rw [after_bind_ok (rfl : hosted busyHost.recvMessage (calling .recvIpc args) = .ok (some _, calling .recvIpc args))]
  refine mem_after_bind (fun _ => ?_) List.mem_cons_self
  exact proceeds_mono (fun _ _ h => Or.inl h)
    (proceeds_bind (proceeds_writeBytes (fun _ _ h => h) _ _) fun _ => proceeds_ite (proceeds_pure _) (proceeds_pure _))

lemma refused_aiInfer (args : List Value) : Event.sent Call.numenorTid ∈
      (after (hostAiInfer busyHost args 1) (calling .aiInfer args)).trace ∧
    ∃ msg, Event.received msg ∈ (after (hostAiInfer busyHost args 1) (calling .aiInfer args)).trace := by
  have hread := readBytes_wide (s := calling .aiInfer args) rfl (arg32 args 0) (arg32 args 1).toNat
  have hR : ∀ s s' : Machine Unit, Micro {} s s' → WasmStep {} s s' := fun _ _ h => Or.inl h
  have hawait : ∀ fuel, Proceeds (WasmStep {}) (Halts {})
      (awaitReply busyHost (arg32 args 2) (arg args 3).toNat fuel) :=
    proceeds_awaitReply hR (fun msg s => Or.inr ⟨.received msg, trivial, rfl⟩) _ _
  unfold hostAiInfer
  rw [after_bind_ok hread]
  constructor
  · change _ ∈ (after (emit (.sent Call.numenorTid) >>= fun _ =>
      awaitReply busyHost (arg32 args 2) (arg args 3).toNat 1 >>= fun v => pure [v]) _).trace
    exact mem_after_bind (fun _ => proceeds_bind (hawait 1) fun _ => proceeds_pure _) List.mem_cons_self
  · refine ⟨⟨Call.numenorTid, payload []⟩, ?_⟩
    change _ ∈ (after (awaitReply busyHost (arg32 args 2) (arg args 3).toNat 1 >>= fun v => pure [v]) _).trace
    refine mem_after_bind (fun _ => proceeds_pure _) ?_
    exact List.mem_cons_self

lemma loadLe_wide (hmem : s.mem = wideMachine.mem) (hram : s.ram = wideMachine.ram) (addr : BitVec 32) :
    loadLe 4 addr s = .ok (some 0x01010101#64,
      { s with trace := .access (s.mem.base + addr.toNat) 4 s.mem.pages :: s.trace }) := by
  have hbytes : bytesAt wideMachine.ram (s.mem.base + addr.toNat) 4 = [1, 1, 1, 1] := rfl
  have hvalue : BitVec.ofNat 64 (fromLe [1, 1, 1, 1]) = 0x01010101#64 := by decide
  unfold loadLe
  rw [bind_of_ok (readBytes_wide hmem addr 4), hram, hbytes, ← hvalue]
  rfl

lemma refused_fdWriteLoop (hmem : s.mem = wideMachine.mem) (hram : s.ram = wideMachine.ram) (iovs : BitVec 32)
    (n : Nat) (i total : BitVec 32) :
    ∃ text, text ≠ [] ∧ Event.uart text ∈ (after (fdWriteLoop iovs (n + 1) i total) s).trace := by
  have hR : ∀ s s' : Machine Unit, Micro {} s s' → WasmStep {} s s' := fun _ _ h => Or.inl h
  unfold fdWriteLoop
  dsimp only
  rw [after_bind_ok (loadLe_wide hmem hram _), after_bind_ok (loadLe_wide ?_ ?_ _), after_bind_ok (readBytes_wide ?_ _ _)]
  · refine ⟨_, uartText_ne_nil ?_, mem_after_bind (fun _ => ?_) List.mem_cons_self⟩
    · rw [bytesAt, List.length_map, List.length_range]
      decide
    · exact proceeds_fdWriteLoop hR (fun text s => Or.inr ⟨.uart text, trivial, rfl⟩) _ _ _ _
  all_goals assumption

lemma refused_fdWrite (hfd : arg32 args 0 = 1 ∨ arg32 args 0 = 2) (hlen : arg32 args 2 ≠ 0) : ∃ text, text ≠ [] ∧
    Event.uart text ∈ (after (hostFdWrite args) (calling .fdWrite args)).trace := by
  obtain ⟨n, hn⟩ := Nat.exists_eq_succ_of_ne_zero (toNat_ne_zero hlen)
  obtain ⟨text, hne, hmem⟩ := refused_fdWriteLoop (s := calling .fdWrite args) rfl rfl (arg32 args 1) n 0 0
  refine ⟨text, hne, ?_⟩
  unfold hostFdWrite
  dsimp only
  rw [if_pos hfd, hn]
  refine mem_after_bind (fun _ => ?_) hmem
  exact proceeds_mono (fun _ _ h => Or.inl h)
    (proceeds_bind (proceeds_storeLe (fun _ _ h => h) _ _ _) fun _ => proceeds_pure _)

end Refused

lemma refused_effect (module name : Bytes) {i : HostImport}
    (h : ∀ e ∈ (after (runImport busyHost args 1 module name i) (calling i args)).trace, Permitted caps e) :
    Allowed caps args i := by
  have huart : ∀ text, text ≠ [] → Permitted caps (.uart text) → HasCap caps Cap.log :=
    fun text hne hp => hp.resolve_left hne
  cases i with
  | log =>
    refine or_iff_not_imp_left.mpr fun hlen => ?_
    obtain ⟨text, hne, hmem⟩ := refused_log hlen
    exact huart text hne (h _ hmem)
  | fdWrite =>
    refine or_iff_not_imp_left.mpr fun hfd => or_iff_not_imp_left.mpr fun hlen => ?_
    obtain ⟨text, hne, hmem⟩ := refused_fdWrite (not_not.mp hfd) hlen
    exact huart text hne (h _ hmem)
  | unknown =>
    have hmem : Event.uart (ascii "[wasm] unknown import: " ++ module ++ ascii "::" ++ name ++ [13, 10]) ∈
        (after (runImport busyHost args 1 module name .unknown) (calling .unknown args)).trace :=
      List.mem_cons_self
    exact huart _ (by simp) (h _ hmem)
  | sendIpc => exact h _ refused_sendIpc
  | recvIpc =>
    obtain ⟨msg, hmem⟩ : ∃ msg, Event.received msg ∈
      (after (hostRecvIpc busyHost args) (calling .recvIpc args)).trace := refused_recvIpc
    exact h _ hmem
  | aiInfer =>
    obtain ⟨hsent, msg, hmem⟩ := refused_aiInfer args
    exact ⟨(h _ hsent).2.1, (h _ hsent).2.2 rfl, h _ hmem⟩
  | _ => exact trivial

lemma sysWasmLoad_world (host : Host η) (fuel : Nat) (bytes : Bytes) (w : World η) :
    (sysWasmLoad host fuel bytes w).2 = w ∨
      ∃ m idx args, (sysWasmLoad host fuel bytes w).2 = (runExport host m fuel idx args w).2 := by
  unfold sysWasmLoad
  split
  case h_1 => exact Or.inl rfl
  case h_2 => exact Or.inl rfl
  case h_3 m _ =>
    cases m.findExport (ascii "main") with
    | none => exact Or.inl rfl
    | some idx =>
      refine Or.inr ⟨m, idx, [], ?_⟩
      dsimp only
      split <;> simp only [*]

lemma sysWasmExec_world (host : Host η) (fuel : Nat) (bytes : Bytes) (w : World η) :
    (sysWasmExec host fuel bytes w).2 = w ∨
      ∃ m idx args, (sysWasmExec host fuel bytes w).2 = (runExport host m fuel idx args w).2 := by
  unfold sysWasmExec
  split
  case h_1 => exact Or.inl rfl
  case h_2 => exact Or.inl rfl
  case h_3 =>
    split
    case h_1 => exact Or.inl rfl
    case h_2 => exact Or.inl rfl
    case h_3 m _ =>
      cases m.findExport (ascii "_start") with
      | some idx => exact Or.inr ⟨m, idx, [], rfl⟩
      | none =>
        cases m.findExport (ascii "main") with
        | some idx => exact Or.inr ⟨m, idx, [0, 0], rfl⟩
        | none => exact Or.inl rfl

/-- A call of an import is within the capabilities `caps` exactly if it is allowed, and a module stays within
them if all imports that it calls are allowed. -/
theorem wasm_authority_iff (caps : BitVec 64) :
    (∀ args module name, (∀ (η : Type) (host : Host η) (s : Machine η) (fuel : Nat),
        ∀ e ∈ (after (dispatchHostImport host args fuel module name) s).trace, e ∈ s.trace ∨ Permitted caps e) ↔
      Allowed caps args (HostImport.ofNames module name)) ∧
    ∀ (η : Type) (host : Host η) (fuel : Nat) (bytes : Bytes) (ram : Nat → UInt8) (kernel : η) (w : World η),
      w = (sysWasmLoad host fuel bytes ⟨ram, kernel, []⟩).2 ∨ w = (sysWasmExec host fuel bytes ⟨ram, kernel, []⟩).2 →
      (∀ i args, Event.imported i args ∈ w.trace → Allowed caps args i) → ∀ e ∈ w.trace, Permitted caps e := by
  refine ⟨fun args module name => ⟨fun h => ?_, fun hallowed η host s fuel => ?_⟩, ?_⟩
  · refine refused_effect module name fun e he => ?_
    exact (h Unit busyHost wideMachine 1 e he).resolve_left List.not_mem_nil
  · have hstays : ∀ s₁ s₂ : Machine η, (∀ e ∈ s₁.trace, e ∈ s.trace ∨ Permitted caps e) → Stays caps s₁ s₂ →
        ∀ e ∈ s₂.trace, e ∈ s.trace ∨ Permitted caps e := by
      rintro s₁ s₂ hs₁ ⟨new, heq, hnew⟩ e he
      rw [heq] at he
      exact (List.mem_append.mp he).elim (fun he => Or.inr (hnew e he)) (hs₁ e)
    exact (proceeds_dispatch_stays host {} fuel hallowed s).invariant
      (P := fun s' => ∀ e ∈ s'.trace, e ∈ s.trace ∨ Permitted caps e) hstays
      (fun s₁ s₂ hs₁ h => hstays s₁ s₂ hs₁ h.stays) fun e he => Or.inl he
  · intro η host fuel bytes ram kernel w hw hall
    have hidle : ∀ e ∈ ([] : List Event), Permitted caps e := fun e he => absurd he List.not_mem_nil
    have hcases : w = ⟨ram, kernel, []⟩ ∨ ∃ m idx args, w = (runExport host m fuel idx args ⟨ram, kernel, []⟩).2 := by
      rcases hw with rfl | rfl
      · exact sysWasmLoad_world host fuel bytes _
      · exact sysWasmExec_world host fuel bytes _
    rcases hcases with rfl | ⟨m, idx, args, rfl⟩
    · exact hidle
    · exact runExport_permitted host m fuel idx args ram kernel hall

lemma readLoop_length {fd : Fin maxOpen} {fuel want : Nat} {f f' : Fat} {bytes : Bytes}
    (h : Fat.readLoop fd fuel want f = .ok (bytes, f')) : bytes.length ≤ want := by
  induction fuel generalizing want f bytes with
  | zero =>
    obtain ⟨rfl, -⟩ := Prod.mk.inj (Except.ok.inj h)
    exact Nat.zero_le _
  | succ fuel ih =>
    unfold Fat.readLoop at h
    obtain ⟨f₀, _, -, h⟩ := bind_ok h
    dsimp only at h
    by_cases hstop : want = 0 ∨ (f₀.openFiles fd).curCluster < 2 ∨ Fat.isEoc (f₀.openFiles fd).curCluster = true
    · have hnil : bytes = [] := by
        rcases hstop with hzero | heoc
        · rw [if_pos hzero] at h
          exact (Prod.mk.inj (Except.ok.inj h)).1.symm
        · rw [if_pos heoc, ite_self] at h
          exact (Prod.mk.inj (Except.ok.inj h)).1.symm
      rw [hnil]
      exact Nat.zero_le _
    · rw [not_or] at hstop
      rw [if_neg hstop.1, if_neg hstop.2] at h
      obtain ⟨sec, _, -, h⟩ := bind_ok h
      obtain ⟨_, s₂, -, h⟩ := bind_ok h
      -- both branches go on with the rest of the buffer
      have hrest : ∃ rest s₃, Fat.readLoop fd fuel (want - min want (sectorSize - (f₀.filePosition (f₀.openFiles fd)).2)) s₃ =
          .ok (rest, f') ∧
          bytes = sec.slice (f₀.filePosition (f₀.openFiles fd)).2
            (min want (sectorSize - (f₀.filePosition (f₀.openFiles fd)).2)) ++ rest := by
        split_ifs at h
        · obtain ⟨_, _, -, h⟩ := bind_ok h
          obtain ⟨_, s₃, -, h⟩ := bind_ok h
          obtain ⟨rest, _, hrest, h⟩ := bind_ok h
          obtain ⟨rfl, rfl⟩ := Prod.mk.inj (Except.ok.inj h)
          exact ⟨rest, s₃, hrest, rfl⟩
        · obtain ⟨rest, _, hrest, h⟩ := bind_ok h
          obtain ⟨rfl, rfl⟩ := Prod.mk.inj (Except.ok.inj h)
          exact ⟨rest, s₂, hrest, rfl⟩
      obtain ⟨rest, s₃, hrest, rfl⟩ := hrest
      have hlen := ih hrest
      rw [List.length_append, Sector.slice, List.length_map, List.length_range]
      omega

lemma read_length {fd len : Nat} {f f' : Fat} {bytes : Bytes} (h : Fat.read fd len f = .ok (some bytes, f')) :
    bytes.length ≤ len := by
  unfold Fat.read at h
  obtain ⟨f₀, _, -, h⟩ := bind_ok h
  cases hfd : f₀.file fd with
  | none =>
    rw [hfd] at h
    cases h
  | some i =>
    rw [hfd] at h
    obtain ⟨f₁, _, -, h⟩ := bind_ok h
    obtain ⟨data, _, hloop, h⟩ := bind_ok h
    obtain ⟨heq, -⟩ := Prod.mk.inj (Except.ok.inj h)
    rw [← Option.some.inj heq]
    exact (readLoop_length hloop).trans (min_le_left _ _)

/-- The functions of the kernel model that the imports call on a CPU. The network and the heap
answer as in `env`. -/
def kernelHost (cpu : Cpu) (env : Env) : Host Kernel where
  allocPages count := do
    let k ← get
    match k.sched.mem.allocPages count with
    | none => return none
    | some (base, mem) =>
      set { k with sched := { k.sched with mem := mem } }
      return some base
  currentTid k := k.sched.currentTid cpu
  totalTicks k := k.sched.totalTicks
  counter := return BitVec.ofNat 64 env.random
  boxed _ := return env.heapPtr
  peek ptr len := Call.load cpu ptr len
  sendMessage tid msg := Call.sched (.sendMessage tid msg) fun s => (s.sendMessage tid msg).1
  recvMessage := Call.sched (.recvMessage cpu) fun s => (s.recvMessage cpu).1
  yieldCpu := Call.sched (.yieldCpu cpu) fun _ => ()
  openFile path := do return (← Call.fat (Fat.openRead path)).map Fin.val
  read fd len := Call.fat (Fat.read fd len)
  write fd data := Call.fat (Fat.write fd data)
  close fd := Call.fat (Fat.close fd)
  httpGet _ _ _ len := do
    Call.transmitAll env.frames
    if env.netRet < 0 then return .tcpError else return .ok (env.netData.take len)
  read_length h := by
    obtain ⟨f', hread, -⟩ := zoom_ok h
    exact read_length hread
  body_length h := by
    obtain ⟨_, _, -, h⟩ := bind_ok h
    split_ifs at h
    · cases h
    · obtain ⟨heq, -⟩ := Prod.mk.inj (Except.ok.inj h)
      rw [← HttpResult.ok.inj heq, List.length_take]
      exact min_le_left _ _

def sendToIdle : Bytes :=
  [0x00, 0x61, 0x73, 0x6D, 0x01, 0x00, 0x00, 0x00] ++
    [0x01, 0x0A, 0x02, 0x60, 0x02, 0x7F, 0x7F, 0x01, 0x7F, 0x60, 0x00, 0x00] ++
    [0x02, 0x13, 0x01, 0x06] ++ ascii "aeglos" ++ [0x08] ++ ascii "send_ipc" ++ [0x00, 0x00] ++
    [0x03, 0x02, 0x01, 0x01] ++ [0x07, 0x08, 0x01, 0x04] ++ ascii "main" ++ [0x00, 0x01] ++
    [0x0A, 0x0B, 0x01, 0x09, 0x00, 0x41, 0x00, 0x41, 0x00, 0x10, 0x00, 0x1A, 0x0B]

def sentToIdle : World Kernel :=
  (sysWasmLoad (kernelHost 0 quietEnv) 8 sendToIdle ⟨fun _ => 0, smallKernel Cap.mem, []⟩).2

def deliveries : Event → Option Nat
  | .sent tid => some tid
  | _ => none

/-- A task without the capability to send has a message delivered to the idle task. -/
theorem message_reaches_idle :
    (smallKernel Cap.mem).sched.currentCaps 0 = Cap.mem ∧
      ((smallKernel Cap.mem).sched.tasks 0).map (fun t => (t.tid, t.mailbox.count)) = some (0, 0) ∧
      (sentToIdle.kernel.sched.tasks 0).map (fun t => (t.tid, t.mailbox.count)) = some (0, 1) ∧
      ¬∀ e ∈ sentToIdle.trace, Permitted Cap.mem e := by
  have hsent : sentToIdle.trace.filterMap deliveries = [0] := by decide +kernel
  refine ⟨by decide +kernel, by decide +kernel, by decide +kernel, fun h => ?_⟩
  have hmem : 0 ∈ sentToIdle.trace.filterMap deliveries := by
    rw [hsent]
    exact List.mem_cons_self
  obtain ⟨e, he, hd⟩ := List.mem_filterMap.mp hmem
  cases e with
  | sent tid =>
    obtain rfl := Option.some.inj hd
    exact (h _ he).1 rfl
  | _ => cases hd

end Aeglos.Proofs
