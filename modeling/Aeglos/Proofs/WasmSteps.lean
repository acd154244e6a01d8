import Aeglos.Kernel.WasmInterp

/-!
# The steps of the WebAssembly interpreter

Everything that the interpreter does outside of its host imports is a sequence of a few elementary
steps.
-/

namespace Aeglos.Proofs

open Effects Wasm List

variable {η α : Type}

def Callable (m : WasmModule) (callee : Nat) : Prop := callee < m.importFuncCount ∨ ∃ body, bodyOf m callee = some body

inductive Micro (m : WasmModule) : Machine η → Machine η → Prop
  | shrink (s : Machine η) (k : Nat) : Micro m s { s with stack := s.stack.drop k }
  | push (s : Machine η) (v : Value) (h : s.stack.length < maxStackDepth) :
    Micro m s { s with stack := v :: s.stack, trace := .depth (s.stack.length + 1) :: s.trace }
  | globals (s : Machine η) (gs : List Value) : Micro m s { s with globals := gs }
  | access (s : Machine η) (addr : BitVec 32) (len : Nat) (ram : Nat → UInt8) (h : s.mem.check addr len = true)
    (hram : ∀ a, ¬(s.mem.base + addr.toNat ≤ a ∧ a < s.mem.base + addr.toNat + len) → ram a = s.ram a) :
    Micro m s { s with ram := ram, trace := .access (s.mem.base + addr.toNat) len s.mem.pages :: s.trace }
  | resize (s : Machine η) (pages : Nat) (hle : s.mem.pages ≤ pages)
    (hcap : pages = s.mem.pages ∨ pages ≤ s.mem.capPages) :
    Micro m s { s with mem := { s.mem with pages := pages }, trace := .resized pages :: s.trace }
  | frames (s : Machine η) (n : Nat) (h : n ≤ maxCallDepth + 1) : Micro m s { s with trace := .frames n :: s.trace }
  | call (s : Machine η) (callee : Nat) (h : Callable m callee) : Micro m s { s with trace := .call callee :: s.trace }
  | kernel (s : Machine η) (k : η) : Micro m s { s with kernel := k }

def Covers (m : WasmModule) (R : Machine η → Machine η → Prop) : Prop := ∀ s s', Micro m s s' → R s s'

/-- How a run stops: with an error or without rounds left, at a call of a function without a
body, or in a host function that never returns. -/
inductive Halts (m : WasmModule) : Machine η → Machine η → Prop
  | halted (s : Machine η) (h : Halt) (hne : h ≠ .panic) : Halts m s { s with trace := .halted h :: s.trace }
  | missing (s : Machine η) (callee : Nat) (h : ¬Callable m callee) :
    Halts m s { s with trace := .halted .panic :: .call callee :: s.trace }
  | hung (s : Machine η) (k : η) : Halts m s { s with kernel := k }

section Primitives

variable {m : WasmModule} {R : Machine η → Machine η → Prop} (hR : Covers m R)

lemma proceeds_halt {h : Halt} (hne : h ≠ .panic) : Proceeds R (Halts m) (halt h : Exec η α) :=
  fun s => proceedsAt_error rfl (.halted s h hne)

@[grind .] lemma proceeds_fail (e : WasmError) : Proceeds R (Halts m) (fail e : Exec η α) := proceeds_halt (by simp)

@[grind .] lemma proceeds_trap (text : String) : Proceeds R (Halts m) (trap text : Exec η α) := proceeds_fail _

@[grind .] lemma proceeds_orFail (o : Option α) (e : WasmError) : Proceeds R (Halts m) (orFail o e : Exec η α) := by
  cases o with grind [orFail]

lemma proceeds_orFail_bind {β : Type} {o : Option α} {e : WasmError} {f : α → Exec η β}
    (hf : ∀ a, o = some a → Proceeds R (Halts m) (f a)) : Proceeds R (Halts m) (orFail o e >>= f) := by
  cases o with
  | none => exact fun s => proceeds_bind_at (proceeds_fail e s) fun a s' h => by cases h
  | some a => exact hf a rfl

include hR

@[grind ←] lemma proceeds_hosted (x : Comp η α) : Proceeds R (Halts m) (hosted x) := by
  intro s
  cases hx : x s.kernel with
  | error k =>
    refine proceedsAt_error ?_ (.hung s k)
    rw [hosted, zoom, hx]
  | ok r =>
    have hok : hosted x s = .ok (r.1, { s with kernel := r.2 }) := by rw [hosted, zoom, hx]
    exact proceedsAt_ok hok (.single (hR _ _ (.kernel s r.2)))

@[grind ←] lemma proceeds_push (v : Value) : Proceeds R (Halts m) (push v : Exec η Unit) := by
  intro s
  refine proceeds_get_at (proceeds_ite_at (fun _ => proceeds_fail _ s) fun h => ?_)
  exact proceedsAt_ok rfl (.single (hR _ _ (.push s v (Nat.not_le.mp h))))

@[grind ←] lemma proceeds_pushAll (vs : List Value) : Proceeds R (Halts m) (pushAll vs : Exec η Unit) := by
  induction vs with grind [pushAll]

@[grind ←] lemma proceeds_pop : Proceeds R (Halts m) (pop : Exec η Value) := by
  intro s
  refine proceeds_get_at ?_
  cases h : s.stack with
  | nil => exact proceeds_trap _ s
  | cons v rest =>
    have hstep : Micro m s { s with stack := s.stack.drop 1 } := .shrink s 1
    rw [h] at hstep
    exact proceedsAt_ok rfl (.single (hR _ _ hstep))

@[grind ←] lemma proceeds_pop2 : Proceeds R (Halts m) (pop2 : Exec η (Value × Value)) := by
  grind [pop2]

@[grind ←] lemma proceeds_truncate (len : Nat) : Proceeds R (Halts m) (truncate len : Exec η Unit) :=
  proceeds_modify fun s => hR _ _ (.shrink s _)

omit hR in
lemma proceeds_stackFrom_bind {start : Nat} {f : List Value → Exec η α} {s : Machine η}
    (h : start ≤ s.stack.length) (hf : ∀ vals, Proceeds R (Halts m) (f vals)) :
    ProceedsAt R (Halts m) (stackFrom start >>= f) s := by
  refine proceeds_bind_at ?_ fun vals s' _ => hf vals s'
  refine proceeds_get_at (proceeds_ite_at (fun _ => proceeds_pure _ s) fun hn => absurd h hn)

@[grind ←] lemma proceeds_popN (n : Nat) : Proceeds R (Halts m) (popN n : Exec η (List Value)) := by
  intro s
  refine proceeds_get_at (proceeds_ite_at (fun _ => proceeds_trap _ s) fun _ => ?_)
  exact proceeds_stackFrom_bind (Nat.sub_le _ _) fun vals =>
    proceeds_bind (proceeds_truncate hR _) fun _ => proceeds_pure _

@[grind ←] lemma proceeds_trimStack (baseSp keep : Nat) : Proceeds R (Halts m) (trimStack baseSp keep : Exec η Unit) := by
  intro s
  refine proceeds_get_at (proceeds_ite_at (fun _ => proceeds_trap _ s) fun _ => ?_)
  refine proceeds_ite_at (fun _ => ?_) fun _ => proceeds_truncate hR _ s
  exact proceeds_stackFrom_bind (Nat.sub_le _ _) fun vals =>
    proceeds_bind (proceeds_truncate hR _) fun _ => proceeds_pushAll hR vals

@[grind ←] lemma proceeds_readBytes (addr : BitVec 32) (len : Nat) : Proceeds R (Halts m) (readBytes addr len : Exec η (Option Bytes)) := by
  intro s
  refine proceeds_get_at (proceeds_ite_at (fun h => ?_) fun _ => proceeds_pure _ s)
  exact proceedsAt_ok rfl (.single (hR _ _ (.access s addr len s.ram h fun _ _ => rfl)))

@[grind ←] lemma proceeds_loadLe (width : Nat) (addr : BitVec 32) : Proceeds R (Halts m) (loadLe width addr : Exec η (Option Value)) := by
  grind [loadLe]

@[grind ←] lemma proceeds_writeBytes (addr : BitVec 32) (data : Bytes) : Proceeds R (Halts m) (writeBytes addr data : Exec η Bool) := by
  intro s
  refine proceeds_get_at (proceeds_ite_at (fun h => ?_) fun _ => proceeds_pure _ s)
  exact proceedsAt_ok rfl (.single (hR _ _ (.access s addr data.length _ h fun a ha => if_neg ha)))

@[grind ←] lemma proceeds_storeLe (width : Nat) (addr : BitVec 32) (v : Value) :
    Proceeds R (Halts m) (storeLe width addr v : Exec η Bool) := proceeds_writeBytes hR _ _

@[grind ←] lemma proceeds_memoryGrow (delta : Nat) : Proceeds R (Halts m) (memoryGrow delta : Exec η (BitVec 32)) := by
  intro s
  refine proceeds_get_at ?_
  unfold LinearMemory.grow
  split_ifs with h
  · exact proceedsAt_ok rfl (.single (hR _ _ (.resize s s.mem.pages le_rfl (Or.inl rfl))))
  · exact proceedsAt_ok rfl
      (.single (hR _ _ (.resize s (s.mem.pages + delta) (Nat.le_add_right _ _) (Or.inr (Nat.not_lt.mp h)))))

@[grind ←] lemma proceeds_applyData (segs : List DataSegment) : Proceeds R (Halts m) (applyData segs : Exec η Unit) := by
  induction segs with grind [applyData]

end Primitives

section Instructions

variable {m : WasmModule} {R : Machine η → Machine η → Prop} (hR : Covers m R) {code : Bytes}

@[grind .] lemma proceeds_immediate (read : Bytes → Nat → Option (α × Nat)) (text : String) (pc : Nat) :
    Proceeds R (Halts m) (immediate code read text pc : Exec η (α × Nat)) := by
  grind [immediate]

include hR

@[grind ←] lemma proceeds_memEa (pc : Nat) : Proceeds R (Halts m) (memEa code pc : Exec η (BitVec 32 × Nat)) := by
  grind [memEa]

omit hR in
@[grind .] lemma proceeds_skipMemarg (pc : Nat) : Proceeds R (Halts m) (skipMemarg code pc : Exec η Nat) := by
  grind [skipMemarg]

omit hR in
@[grind .] lemma proceeds_parseBlocktype (pc : Nat) : Proceeds R (Halts m) (parseBlocktype m code pc : Exec η (Nat × Nat)) := by
  grind [parseBlocktype]

@[grind ←] lemma proceeds_collectResults (funcIdx baseSp : Nat) :
    Proceeds R (Halts m) (collectResults m funcIdx baseSp : Exec η (List Value)) := by
  refine proceeds_bind (proceeds_orFail _ _) fun ft s => ?_
  refine proceeds_get_at (proceeds_ite_at (fun _ => proceeds_trap _ s) fun _ => ?_)
  exact proceeds_stackFrom_bind (Nat.sub_le _ _) fun vals =>
    proceeds_bind (proceeds_truncate hR _) fun _ => proceeds_pure _

@[grind ←] lemma proceeds_doBr (c : Cursor) (depth : Nat) : Proceeds R (Halts m) (doBr c depth : Exec η Cursor) := by
  grind [doBr]

omit hR in
@[grind .] lemma proceeds_brTargets (n pc : Nat) : Proceeds R (Halts m) (brTargets code n pc : Exec η (List Nat × Nat)) := by
  induction n generalizing pc with grind [brTargets]

omit hR in
lemma brTargets_length {n pc : Nat} {s s' : Machine η} {r : List Nat × Nat}
    (h : brTargets code n pc s = .ok (r, s')) : r.1.length = n := by
  induction n generalizing pc s r s' with
  | zero =>
    obtain ⟨rfl, -⟩ := Prod.mk.inj (Except.ok.inj h)
    rfl
  | succ n ih =>
    obtain ⟨_, s₁, -, h⟩ := bind_ok h
    obtain ⟨rest, s₂, hrest, h⟩ := bind_ok h
    obtain ⟨rfl, -⟩ := Prod.mk.inj (Except.ok.inj h)
    exact congrArg Nat.succ (ih hrest)

omit hR in
@[grind ←] lemma proceeds_brTarget {targets : List Nat} (h : targets.length ≠ 0) (idx : Nat) :
    Proceeds R (Halts m) (brTarget targets idx : Exec η Nat) := by
  unfold brTarget
  have hlt : (if idx < targets.length - 1 then idx else targets.length - 1) < targets.length := by
    split_ifs <;> omega
  rw [getElem?_eq_getElem hlt]
  exact proceeds_pure _

omit hR in
@[grind .] lemma proceeds_pushLabel (c : Cursor) (kind : LabelKind) (arity target endPc : Nat) :
    Proceeds R (Halts m) (pushLabel c kind arity target endPc : Exec η Cursor) := by
  grind [pushLabel]

omit hR in
@[grind .] lemma proceeds_endOf (pc : Nat) : Proceeds R (Halts m) (endOf code pc : Exec η Nat) := proceeds_orFail _ _

@[grind ←] lemma proceeds_execIf (c : Cursor) : Proceeds R (Halts m) (execIf m code c : Exec η Cursor) := by
  grind [execIf]

@[grind ←] lemma proceeds_execCallIndirect (c : Cursor) :
    Proceeds R (Halts m) (execCallIndirect m code c : Exec η (Cursor × StepResult)) := by
  refine proceeds_bind (proceeds_immediate _ _ _) fun _ => proceeds_bind (proceeds_immediate _ _ _) fun _ =>
    proceeds_bind (proceeds_pop hR) fun _ => ?_
  grind

omit hR in
@[grind .] lemma proceeds_setLocal (c : Cursor) (pc idx : Nat) (v : Value) (text : String) :
    Proceeds R (Halts m) (setLocal c pc idx v text : Exec η Cursor) := by
  grind [setLocal]

@[grind ←] lemma proceeds_execInstr (c : Cursor) (instr : Instr) : Proceeds R (Halts m) (execInstr m code c instr : Exec η Cursor) := by
  cases instr with
  | brTable =>
    refine proceeds_bind (proceeds_immediate _ _ _) fun r s => ?_
    refine proceeds_bind_at (proceeds_brTargets _ _ s) fun t s' ht => ?_
    have hne : t.1.length ≠ 0 := by
      rw [brTargets_length ht]
      exact Nat.succ_ne_zero _
    exact proceeds_bind (proceeds_pop hR) (fun _ => proceeds_bind (proceeds_brTarget hne _) fun _ => proceeds_doBr hR _ _) s'
  | globalSet =>
    refine proceeds_bind (proceeds_immediate _ _ _) fun _ => proceeds_bind (proceeds_pop hR) fun v s => ?_
    exact proceeds_get_at (proceeds_ite_at (fun _ => proceedsAt_ok rfl (.single (hR _ _ (.globals s _)))) fun _ => proceeds_trap _ s)
  | _ => grind [execInstr]

@[grind ←] lemma proceeds_stepOnce (funcIdx baseSp : Nat) (c : Cursor) :
    Proceeds R (Halts m) (stepOnce m code funcIdx baseSp c : Exec η (Cursor × Option StepResult)) := by
  grind [stepOnce]

@[grind ←] lemma proceeds_stepFrame (funcIdx baseSp fuel : Nat) (c : Cursor) :
    Proceeds R (Halts m) (stepFrame m code funcIdx baseSp fuel c : Exec η (Cursor × StepResult)) := by
  induction fuel generalizing c with
  | zero => exact proceeds_halt (by simp)
  | succ fuel ih => grind [stepFrame]

end Instructions

/-- What an import can do outside of the interpreter: write to the serial port, deliver a
message or take one out of the mailbox. -/
def Causes (i : HostImport) (args : List Value) : Event → Prop
  | .uart text => i = .unknown ∨ i = .log ∧ (arg32 args 1 = 0 → text = []) ∨
      i = .fdWrite ∧ (arg32 args 0 = 1 ∨ arg32 args 0 = 2) ∧ arg32 args 2 ≠ 0
  | .sent tid => i = .sendIpc ∧ tid = (arg args 0).toNat ∨ i = .aiInfer ∧ tid = Call.numenorTid
  | .received _ => i = .recvIpc ∨ i = .aiInfer
  | _ => False

section Imports

variable {m : WasmModule} {host : Host η} {R : Machine η → Machine η → Prop} (hR : Covers m R)
  {args : List Value}

lemma readBytes_length {addr : BitVec 32} {len : Nat} {bytes : Bytes} {s s' : Machine η}
    (h : readBytes addr len s = .ok (some bytes, s')) : bytes.length = len := by
  obtain ⟨_, s₁, hget, h⟩ := bind_ok h
  obtain ⟨rfl, rfl⟩ := Prod.mk.inj (Except.ok.inj hget)
  have hbytes : s.mem.bytes s.ram addr len = some bytes := by
    split_ifs at h with hcheck
    · exact (Prod.mk.inj (Except.ok.inj h)).1
    · exact (Prod.mk.inj (Except.ok.inj h)).1
  unfold LinearMemory.bytes at hbytes
  split_ifs at hbytes
  obtain rfl := Option.some.inj hbytes
  simp [bytesAt]

lemma proceeds_sliceTo {bytes : Bytes} {len : Nat} (h : bytes.length ≤ len) :
    Proceeds R (Halts m) (sliceTo bytes len : Exec η Bytes) := by
  unfold sliceTo
  rw [if_pos h]
  exact proceeds_pure _

@[grind ←] lemma proceeds_emit {H : Machine η → Machine η → Prop} {e : Event}
    (h : ∀ s, R s { s with trace := e :: s.trace }) : Proceeds R H (emit e) := proceeds_modify h

include hR

lemma proceeds_hostLog (heffect : ∀ e, Causes .log args e → ∀ s, R s { s with trace := e :: s.trace }) :
    Proceeds R (Halts m) (hostLog args : Exec η (List Value)) := by
  intro s
  refine proceeds_bind_at (proceeds_readBytes hR _ _ s) fun r s' hr => ?_
  cases r with
  | none => exact proceedsAt_ok rfl .refl
  | some bytes =>
    refine proceedsAt_ok rfl (.single (heffect (.uart (uartText bytes)) (Or.inr (Or.inl ⟨rfl, fun hzero => ?_⟩)) s'))
    rw [hzero] at hr
    rw [length_eq_zero_iff.mp (readBytes_length hr)]
    rfl

lemma proceeds_fdWriteLoop (heffect : ∀ text s, R s { s with trace := .uart text :: s.trace }) (iovs : BitVec 32)
    (n : Nat) (i total : BitVec 32) : Proceeds R (Halts m) (fdWriteLoop iovs n i total : Exec η (BitVec 32)) := by
  have htext (text : Bytes) := proceeds_emit (H := Halts m) (heffect text)
  induction n generalizing i total with
  | zero => exact proceeds_pure _
  | succ n ih =>
    refine proceeds_bind (proceeds_loadLe hR _ _) fun _ => proceeds_bind (proceeds_loadLe hR _ _) fun _ =>
      proceeds_bind (proceeds_readBytes hR _ _) fun r => ?_
    cases r with
    | none => exact ih _ _
    | some bytes => exact proceeds_bind (htext _) fun _ => ih _ _

lemma proceeds_hostFdWrite (heffect : ∀ e, Causes .fdWrite args e → ∀ s, R s { s with trace := e :: s.trace }) :
    Proceeds R (Halts m) (hostFdWrite args : Exec η (List Value)) := by
  refine proceeds_bind ?_ fun _ => proceeds_bind (proceeds_storeLe hR _ _ _) fun _ => proceeds_pure _
  by_cases hfd : arg32 args 0 = 1 ∨ arg32 args 0 = 2
  · by_cases hlen : arg32 args 2 = 0
    · rw [if_pos hfd, hlen]
      exact proceeds_pure _
    · exact proceeds_fdWriteLoop hR
        (fun text s => heffect (.uart text) (Or.inr (Or.inr ⟨rfl, hfd, hlen⟩)) s) _ _ _ _
  · rw [if_neg hfd]
    exact proceeds_pure _

lemma proceeds_hostFileRead : Proceeds R (Halts m) (hostFileRead host args) := by
  intro s
  refine proceeds_bind_at (proceeds_hosted hR _ s) fun r s' hr => ?_
  match r with
  | none => exact proceedsAt_ok rfl .refl
  | some [] => exact proceedsAt_ok rfl .refl
  | some (b :: bytes) =>
    obtain ⟨k, hk, -⟩ := zoom_ok hr
    exact proceeds_bind (proceeds_sliceTo (host.read_length hk)) (fun slice => by grind) s'

lemma proceeds_awaitReply (heffect : ∀ msg s, R s { s with trace := .received msg :: s.trace }) (outPtr : BitVec 32)
    (outMax fuel : Nat) : Proceeds R (Halts m) (awaitReply host outPtr outMax fuel) := by
  have hreceived (msg : Message) := proceeds_emit (H := Halts m) (heffect msg)
  induction fuel with
  | zero => exact proceeds_halt (by simp)
  | succ fuel ih => grind [awaitReply]

lemma proceeds_hostAiInfer (fuel : Nat)
    (heffect : ∀ e, Causes .aiInfer args e → ∀ s, R s { s with trace := e :: s.trace }) :
    Proceeds R (Halts m) (hostAiInfer host args fuel) := by
  refine proceeds_bind (proceeds_readBytes hR _ _) fun r => ?_
  cases r with
  | none => exact proceeds_pure _
  | some prompt =>
    refine proceeds_bind (proceeds_hosted hR _) fun ptr => proceeds_bind proceeds_get fun _ =>
      proceeds_bind (proceeds_hosted hR _) fun ok => proceeds_ite ?_ (proceeds_pure _)
    refine proceeds_bind (proceeds_modify fun s => heffect (.sent _) (Or.inr ⟨rfl, rfl⟩) s) fun _ => ?_
    exact proceeds_bind (proceeds_awaitReply hR (fun msg s => heffect (.received msg) (Or.inr rfl) s) _ _ _) fun _ =>
      proceeds_pure _

lemma proceeds_hostHttpGet : Proceeds R (Halts m) (hostHttpGet host args) := by
  refine proceeds_bind (proceeds_readBytes hR _ _) fun r => ?_
  cases r with
  | none => exact proceeds_pure _
  | some bytes =>
    dsimp only
    cases parseUrl (strOrEmpty bytes) with
    | none => exact proceeds_pure _
    | some url =>
      refine proceeds_ite (proceeds_pure _) fun s => ?_
      refine proceeds_bind_at (proceeds_hosted hR _ s) fun r s' hr => ?_
      cases r with
      | ok body =>
        obtain ⟨k, hk, -⟩ := zoom_ok hr
        exact proceeds_bind (proceeds_sliceTo (host.body_length hk)) (fun slice => by grind) s'
      | _ => exact proceedsAt_ok rfl .refl

lemma proceeds_runImport (fuel : Nat) (module name : Bytes) {i : HostImport}
    (heffect : ∀ e, Causes i args e → ∀ s, R s { s with trace := e :: s.trace }) :
    Proceeds R (Halts m) (runImport host args fuel module name i) := by
  have hemit (e : Event) (he : Causes i args e) := proceeds_emit (H := Halts m) (heffect e he)
  cases i with
  | log => exact proceeds_hostLog hR heffect
  | sendIpc =>
    have hsent := hemit (.sent _) (Or.inl ⟨rfl, rfl⟩)
    simp only [runImport, hostSendIpc]
    grind
  | recvIpc =>
    have hreceived (msg : Message) := hemit (.received msg) (Or.inl rfl)
    simp only [runImport, hostRecvIpc]
    grind
  | fdWrite => exact proceeds_hostFdWrite hR heffect
  | fileRead => exact proceeds_hostFileRead hR
  | aiInfer => exact proceeds_hostAiInfer hR fuel heffect
  | httpGet => exact proceeds_hostHttpGet hR
  | unknown => exact proceeds_bind (hemit (.uart _) (Or.inl rfl)) fun _ => proceeds_pure _
  | _ =>
    simp only [runImport, hostSizesGet, hostFdRead, hostFdFdstatGet, hostPollOneoff, hostClockTimeGet,
      hostFileOpen, hostFileWrite, hostRandomGet]
    grind

lemma proceeds_callHost
    (hdispatch : ∀ fuel args module name, Proceeds R (Halts m) (dispatchHostImport host args fuel module name))
    (fuel : Nat) (args : List Value) (idx : Nat) : Proceeds R (Halts m) (callHost host args m fuel idx) := by
  unfold callHost
  cases m.importedFuncs[idx]? with
  | none => exact proceeds_trap _
  | some i => exact hdispatch _ _ _ _

end Imports

/-! ## Calls

What a call does is described by any relation that allows the elementary steps and what the
imports of the module do. -/

section Calls

variable {m : WasmModule} {host : Host η} {R : Machine η → Machine η → Prop} (hR : Covers m R)
  (hhost : ∀ fuel args idx, Proceeds R (Halts m) (callHost host args m fuel idx))

include hR hhost

lemma proceeds_callLoop (fuel rounds : Nat) (frames : List Frame)
    (hbody : ∀ frame ∈ frames, ∃ body, bodyOf m frame.funcIdx = some body) :
    Proceeds R (Halts m) (callLoop host m fuel rounds frames) := by
  induction rounds generalizing frames with
  | zero => exact proceeds_halt (by simp)
  | succ rounds ih =>
    cases frames with
    | nil => exact proceeds_pure _
    | cons frame rest =>
      obtain ⟨⟨body, hframe⟩, hrest⟩ := forall_mem_cons.mp hbody
      unfold callLoop
      by_cases hdepth : (frame :: rest).length > maxCallDepth
      · rw [if_pos hdepth]
        exact proceeds_fail _
      rw [if_neg hdepth, hframe]
      refine proceeds_bind (proceeds_stepFrame hR _ _ _ _) fun r => ?_
      obtain ⟨c, result⟩ := r
      have hgo : ∀ f ∈ { frame with cursor := c } :: rest, ∃ body, bodyOf m f.funcIdx = some body :=
        forall_mem_cons.mpr ⟨⟨body, hframe⟩, hrest⟩
      cases result with
      | return_ vals =>
        exact proceeds_bind (proceeds_truncate hR _) fun _ =>
          proceeds_bind (proceeds_pushAll hR _) fun _ => ih rest hrest
      | call callee args =>
        dsimp only
        by_cases himport : callee < m.importFuncCount
        · simp only [if_pos himport]
          refine proceeds_bind (proceeds_modify fun s => hR _ _ (.call s callee (Or.inl himport))) fun _ => ?_
          exact proceeds_bind (hhost _ _ _) fun _ => proceeds_bind (proceeds_pushAll hR _) fun _ => ih _ hgo
        · simp only [if_neg himport]
          cases hcallee : bodyOf m callee with
          | none =>
            intro s
            refine proceedsAt_error rfl (.missing s callee ?_)
            rintro (h | ⟨body, h⟩)
            · exact himport h
            · cases hcallee.symm.trans h
          | some body' =>
            refine proceeds_bind (proceeds_modify fun s => hR _ _ (.call s callee (Or.inr ⟨body', hcallee⟩))) fun _ => ?_
            refine proceeds_bind (proceeds_orFail _ _) fun ft => proceeds_bind proceeds_get fun s => ?_
            have hlen : rest.length + 2 ≤ maxCallDepth + 1 := by
              simp only [length_cons] at hdepth
              omega
            refine proceeds_bind (proceeds_modify fun s => hR _ _ (.frames s _ hlen)) fun _ => ?_
            exact ih _ (forall_mem_cons.mpr ⟨⟨body', hcallee⟩, hgo⟩)

lemma proceeds_call (fuel funcIdx : Nat) (args : List Value) : Proceeds R (Halts m) (call host m fuel funcIdx args) := by
  refine proceeds_ite (hhost _ _ _) ?_
  refine proceeds_orFail_bind fun body hbody => proceeds_orFail_bind fun ft _ => ?_
  refine proceeds_bind proceeds_get fun s₀ => proceeds_bind (proceeds_pushAll hR _) fun _ =>
    proceeds_bind proceeds_get fun _ => proceeds_ite (proceeds_trap _) ?_
  refine proceeds_bind (proceeds_truncate hR _) fun _ => ?_
  refine proceeds_bind (proceeds_modify fun s => hR _ _ (.frames s 1 (by decide))) fun _ => ?_
  refine proceeds_bind (proceeds_callLoop hR hhost _ _ _ ?_) fun _ => ?_
  · rintro frame hframe
    obtain rfl := mem_singleton.mp hframe
    exact ⟨body, hbody⟩
  · refine fun s => proceeds_get_at (proceeds_ite_at (fun _ => proceeds_trap _ s) fun _ => ?_)
    exact proceeds_stackFrom_bind (Nat.sub_le _ _) fun _ => proceeds_bind (proceeds_truncate hR _) fun _ => proceeds_pure _

lemma proceeds_instantiate (fuel : Nat) : Proceeds R (Halts m) (instantiate host m fuel) := by
  refine proceeds_bind (proceeds_applyData hR _) fun _ => ?_
  cases m.start with
  | none => exact proceeds_pure _
  | some start => exact proceeds_bind (proceeds_call hR hhost _ _ _) fun _ => proceeds_pure _

/-- A run of an export does nothing, or it starts from a new interpreter, goes by the steps
of `R`, and returns or stops. -/
def RunBy (R : Machine η → Machine η → Prop) (host : Host η) (m : WasmModule) (w : World η)
    (r : Except Halt (List Value) × World η) : Prop :=
  (∃ h, h ≠ .panic ∧ r.1 = .error h ∧ r.2.trace = w.trace ∧ r.2.ram = w.ram) ∨
    ∃ base k s, host.allocPages (LinearMemory.capacity (minPages m) * kernelPagesPerWasmPage) w.kernel =
        .ok (some base, k) ∧
      Relation.ReflTransGen R (initial m base w.ram k w.trace) s ∧
      ((∃ vals, r = (.ok vals, s.world)) ∨ ∃ s', Halts m s s' ∧ r = (.error (haltReason s'.trace), s'.world))

lemma runExport_by (fuel idx : Nat) (args : List Value) (w : World η) :
    RunBy R host m w (runExport host m fuel idx args w) := by
  unfold runExport
  cases halloc : host.allocPages (LinearMemory.capacity (minPages m) * kernelPagesPerWasmPage) w.kernel with
  | error k => exact Or.inl ⟨_, by simp, rfl, rfl, rfl⟩
  | ok r =>
    obtain ⟨base, k⟩ := r
    cases base with
    | none => exact Or.inl ⟨_, by simp, rfl, rfl, rfl⟩
    | some base =>
      have hrun : Proceeds R (Halts m) (do instantiate host m fuel; call host m fuel idx args) :=
        proceeds_bind (proceeds_instantiate hR hhost fuel) fun _ => proceeds_call hR hhost fuel idx args
      have hs := hrun (initial m base w.ram k w.trace)
      unfold ProceedsAt at hs
      dsimp only
      revert hs
      cases (do instantiate host m fuel; call host m fuel idx args) (initial m base w.ram k w.trace) with
      | error s' =>
        rintro ⟨s, hsteps, hlast⟩
        exact Or.inr ⟨base, k, s, halloc, hsteps, Or.inr ⟨s', hlast, rfl⟩⟩
      | ok r =>
        intro hsteps
        exact Or.inr ⟨base, k, r.2, halloc, hsteps, Or.inl ⟨r.1, rfl⟩⟩

end Calls

def External : Event → Prop
  | .imported _ _ => True
  | .uart _ => True
  | .sent _ => True
  | .received _ => True
  | _ => False

lemma external_of_causes {i : HostImport} {args : List Value} {e : Event} (h : Causes i args e) : External e := by
  cases e <;> trivial

def WasmStep (m : WasmModule) (s s' : Machine η) : Prop :=
  Micro m s s' ∨ ∃ e, External e ∧ s' = { s with trace := e :: s.trace }

lemma callExport_by {R : Machine η → Machine η → Prop} {host : Host η} {m : WasmModule}
    (hR : Covers m R) (hhost : ∀ fuel args idx, Proceeds R (Halts m) (callHost host args m fuel idx))
    (fuel : Nat) (name : Bytes) (args : List Value) (w : World η) :
    RunBy R host m w (callExport host m fuel name args w) := by
  unfold callExport
  cases m.findExport name with
  | none => exact Or.inl ⟨_, by simp, rfl, rfl, rfl⟩
  | some idx => exact runExport_by hR hhost fuel idx args w

lemma proceeds_runImport_step (host : Host η) (m : WasmModule) (fuel : Nat) (args : List Value) (module name : Bytes)
    (i : HostImport) : Proceeds (WasmStep m) (Halts m) (runImport host args fuel module name i) :=
  proceeds_runImport (fun _ _ h => Or.inl h) fuel module name fun e he _ => Or.inr ⟨e, external_of_causes he, rfl⟩

lemma proceeds_callHost_step (host : Host η) (m : WasmModule) (fuel : Nat) (args : List Value) (idx : Nat) :
    Proceeds (WasmStep m) (Halts m) (callHost host args m fuel idx) := by
  refine proceeds_callHost (fun _ _ h => Or.inl h) (fun fuel args module name => ?_) fuel args idx
  exact proceeds_bind (proceeds_modify fun s => Or.inr ⟨.imported _ _, trivial, rfl⟩) fun _ =>
    proceeds_runImport_step host m fuel args module name _

lemma callExport_step (host : Host η) (m : WasmModule) (fuel : Nat) (name : Bytes) (args : List Value) (w : World η) :
    RunBy (WasmStep m) host m w (callExport host m fuel name args w) :=
  callExport_by (fun _ _ h => Or.inl h) (proceeds_callHost_step host m) fuel name args w

end Aeglos.Proofs
