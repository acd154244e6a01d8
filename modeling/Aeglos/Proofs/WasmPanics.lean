import Aeglos.Proofs.WasmSteps

/-!
# Panics of the WebAssembly runtime

The interpreter panics when a function is called that has a type but no body.
-/

namespace Aeglos.Proofs

open Effects Wasm List Option

variable {α β η : Type} {f : α → Parse β} {p : Parser}

lemma lebU32Loop_bounds {data : Bytes} {rounds shift i j : Nat} {result v : BitVec 32}
    (h : lebU32Loop data rounds result shift i = some (v, j)) : i < j ∧ j ≤ data.length := by
  induction rounds generalizing result shift i with grind [lebU32Loop]

lemma lebSignedLoop_bounds {data : Bytes} {width limit rounds shift i j : Nat} {result v : BitVec width}
    (h : lebSignedLoop data width limit rounds result shift i = some (v, j)) : i < j ∧ j ≤ data.length := by
  induction rounds generalizing result shift i with grind [lebSignedLoop]

def Bounded (read : Bytes → Nat → Option (α × Nat)) : Prop :=
  ∀ {data pos v n}, read data pos = some (v, n) → 0 < n ∧ pos + n ≤ data.length

lemma bounded_readLeb128U32 : Bounded readLeb128U32 := by
  intro data pos v n h
  obtain ⟨⟨w, j⟩, hloop, heq⟩ := map_eq_some_iff.mp h
  obtain ⟨-, rfl⟩ := Prod.mk.inj heq
  have := lebU32Loop_bounds hloop
  dsimp only
  omega

lemma bounded_readLeb128I32 : Bounded readLeb128I32 := by
  intro data pos v n h
  obtain ⟨⟨w, j⟩, hloop, heq⟩ := map_eq_some_iff.mp h
  obtain ⟨-, rfl⟩ := Prod.mk.inj heq
  have := lebSignedLoop_bounds hloop
  dsimp only
  omega

lemma bounded_readLeb128I64 : Bounded readLeb128I64 := by
  intro data pos v n h
  obtain ⟨⟨w, j⟩, hloop, heq⟩ := map_eq_some_iff.mp h
  obtain ⟨-, rfl⟩ := Prod.mk.inj heq
  have := lebSignedLoop_bounds hloop
  dsimp only
  omega

/-- From a position in the data, the parser fails with an error, or returns at a position in
the data that is not before the first. -/
def Orderly (x : Parse α) : Prop := ∀ p : Parser, p.pos ≤ p.data.length →
  (∃ e, x p = .error (.error e)) ∨
    ∃ a p', x p = .ok (a, p') ∧ p.pos ≤ p'.pos ∧ p'.pos ≤ p'.data.length ∧ p'.data = p.data

@[grind .] lemma orderly_pure (a : α) : Orderly (pure a : Parse α) := fun p hp => Or.inr ⟨a, p, rfl, le_rfl, hp, rfl⟩

@[grind .] lemma orderly_invalid : Orderly (Parse.invalid : Parse α) := fun _ _ => Or.inl ⟨_, rfl⟩

lemma parse_bind_error {x : Parse α} {h : Halt} (hx : x p = .error h) : (x >>= f) p = .error h := by
  change (x p >>= fun r => f r.1 r.2) = _
  rw [hx]
  rfl

lemma parse_bind_ok {x : Parse α} {p p' : Parser} {a : α} (hx : x p = .ok (a, p')) : (x >>= f) p = f a p' := by
  change (x p >>= fun r => f r.1 r.2) = _
  rw [hx]
  rfl

lemma orderly_ite {c : Prop} [Decidable c] {x y : Parse α} (hx : Orderly x) (hy : Orderly y) :
    Orderly (if c then x else y) := by
  grind

@[grind ←] lemma orderly_bind {x : Parse α} (hx : Orderly x) (hf : ∀ a, Orderly (f a)) : Orderly (x >>= f) := by
  intro p hp
  rcases hx p hp with ⟨e, he⟩ | ⟨a, p₁, hok, hle, hin, hdata⟩
  · exact Or.inl ⟨e, parse_bind_error he⟩
  · rw [parse_bind_ok hok]
    rcases hf a p₁ hin with ⟨e, he⟩ | ⟨b, p₂, hok₂, hle₂, hin₂, hdata₂⟩
    · exact Or.inl ⟨e, he⟩
    · exact Or.inr ⟨b, p₂, hok₂, hle.trans hle₂, hin₂, hdata₂.trans hdata⟩

lemma orderly_ofLeb {read : Bytes → Nat → Option (α × Nat)} (h : Bounded read) : Orderly (Parse.ofLeb read) := by
  intro p hp
  unfold Parse.ofLeb
  rw [parse_bind_ok (rfl : (get : Parse Parser) p = .ok (p, p))]
  cases hread : read p.data p.pos with
  | none => exact Or.inl ⟨_, rfl⟩
  | some r =>
    obtain ⟨v, n⟩ := r
    exact Or.inr ⟨v, { p with pos := p.pos + n }, rfl, Nat.le_add_right _ _, (h hread).2, rfl⟩

@[grind .] lemma orderly_u32Leb : Orderly Parse.u32Leb := orderly_ofLeb bounded_readLeb128U32

lemma byte_ok {p p' : Parser} {b : UInt8} (h : Parse.byte p = .ok (b, p')) : p'.pos = p.pos + 1 := by
  unfold Parse.byte at h
  rw [parse_bind_ok (rfl : (get : Parse Parser) p = .ok (p, p))] at h
  cases hb : p.data[p.pos]? with
  | none =>
    rw [hb] at h
    cases h
  | some c =>
    rw [hb] at h
    obtain ⟨-, rfl⟩ := Prod.mk.inj (Except.ok.inj h)
    rfl

@[grind .] lemma orderly_byte : Orderly Parse.byte := by
  intro p hp
  unfold Parse.byte
  rw [parse_bind_ok (rfl : (get : Parse Parser) p = .ok (p, p))]
  cases hb : p.data[p.pos]? with
  | none => exact Or.inl ⟨_, rfl⟩
  | some b =>
    have hlt := (List.getElem?_eq_some_iff.mp hb).1
    exact Or.inr ⟨b, { p with pos := p.pos + 1 }, rfl, Nat.le_succ _, hlt, rfl⟩

lemma slice_ok {lo hi : Nat} (hle : lo ≤ hi) (hin : hi ≤ p.data.length) :
    Parse.slice lo hi p = .ok ((p.data.take hi).drop lo, p) := by
  unfold Parse.slice
  rw [parse_bind_ok (rfl : (get : Parse Parser) p = .ok (p, p)), if_pos ⟨hle, hin⟩]
  rfl

@[grind .] lemma orderly_bytes (n : Nat) : Orderly (Parse.bytes n) := by
  intro p hp
  unfold Parse.bytes
  rw [parse_bind_ok (rfl : (get : Parse Parser) p = .ok (p, p))]
  by_cases hlong : p.pos + n > p.data.length
  · rw [if_pos hlong]
    exact Or.inl ⟨_, rfl⟩
  · rw [if_neg hlong, parse_bind_ok (slice_ok (Nat.le_add_right _ _) (Nat.not_lt.mp hlong))]
    exact Or.inr ⟨_, { p with pos := p.pos + n }, rfl, Nat.le_add_right _ _, Nat.not_lt.mp hlong, rfl⟩

@[grind .] lemma orderly_name : Orderly Parse.name := by
  grind [Parse.name]

@[grind .] lemma orderly_valType : Orderly Parse.valType := by
  grind [Parse.valType]

@[grind ←] lemma orderly_repeated {item : Parse α} (h : Orderly item) (n : Nat) : Orderly (Parse.repeated item n) := by
  induction n with grind [Parse.repeated]

@[grind ←] lemma orderly_vec {item : Parse α} (h : Orderly item) : Orderly (Parse.vec item) := by
  grind [Parse.vec]

@[grind .] lemma orderly_constOperand (op : UInt8) : Orderly (Parse.constOperand op) := by
  have hi32 : Orderly Parse.i32Leb := orderly_ofLeb bounded_readLeb128I32
  have hi64 : Orderly Parse.i64Leb := orderly_ofLeb bounded_readLeb128I64
  grind [Parse.constOperand]

@[grind .] lemma orderly_constExpr : Orderly Parse.constExpr := by
  grind [Parse.constExpr]

@[grind .] lemma orderly_limits : Orderly Parse.limits := by
  grind [Parse.limits]

@[grind .] lemma orderly_funcType : Orderly Parse.funcType := by
  grind [Parse.funcType, Parse.vecValTypes]

@[grind .] lemma orderly_importKind : Orderly Parse.importKind := by
  grind [Parse.importKind]

@[grind .] lemma orderly_import : Orderly Parse.import_ := by
  grind [Parse.import_]

@[grind .] lemma orderly_table : Orderly Parse.table := by
  grind [Parse.table]

@[grind .] lemma orderly_global : Orderly Parse.global := by
  grind [Parse.global]

@[grind .] lemma orderly_exportKind : Orderly Parse.exportKind := by
  grind [Parse.exportKind]

@[grind .] lemma orderly_export : Orderly Parse.export_ := by
  grind [Parse.export_]

@[grind .] lemma orderly_elemSegment : Orderly Parse.elemSegment := by
  grind [Parse.elemSegment]

lemma orderly_funcBody : Orderly Parse.funcBody := by
  have hgroup : Orderly Parse.localGroup := by grind [Parse.localGroup]
  refine orderly_bind (orderly_vec hgroup) fun locals p hp => ?_
  rw [parse_bind_ok (rfl : (get : Parse Parser) p = .ok (p, p)), parse_bind_ok (slice_ok hp le_rfl)]
  exact Or.inr ⟨_, p, rfl, le_rfl, hp, rfl⟩

@[grind .] lemma orderly_sizedBody : Orderly Parse.sizedBody := by
  refine orderly_bind orderly_u32Leb fun size => orderly_bind (orderly_bytes size) fun body p hp => ?_
  rcases orderly_funcBody (.new body) (Nat.zero_le _) with ⟨e, he⟩ | ⟨f, p', hok, -⟩
  · refine Or.inl ⟨e, ?_⟩
    rw [he]
    rfl
  · refine Or.inr ⟨f, p, ?_, le_rfl, hp, rfl⟩
    rw [hok]
    rfl

@[grind .] lemma orderly_dataSegment : Orderly Parse.dataSegment := by
  grind [Parse.dataSegment]

lemma orderly_section (id : UInt8) (m : WasmModule) : Orderly (Parse.section_ id m) := by
  unfold Parse.section_
  repeat' apply orderly_ite
  all_goals grind

lemma nextSection_spec (hp : p.pos ≤ p.data.length) :
    (∃ e, Parse.nextSection p = .error (.error e)) ∨
      ∃ r p', Parse.nextSection p = .ok (r, p') ∧ p.pos < p'.pos ∧ p'.pos ≤ p'.data.length ∧ p'.data = p.data := by
  unfold Parse.nextSection
  rcases orderly_byte p hp with ⟨e, he⟩ | ⟨id, p₁, hid, -, hin₁, hdata₁⟩
  · exact Or.inl ⟨e, parse_bind_error he⟩
  rw [parse_bind_ok hid]
  rcases orderly_u32Leb p₁ hin₁ with ⟨e, he⟩ | ⟨len, p₂, hlen, hle₂, hin₂, hdata₂⟩
  · exact Or.inl ⟨e, parse_bind_error he⟩
  rw [parse_bind_ok hlen, parse_bind_ok (rfl : (get : Parse Parser) p₂ = .ok (p₂, p₂))]
  have hpos := byte_ok hid
  by_cases hshort : p₂.remaining < len
  · rw [if_pos hshort]
    exact Or.inl ⟨_, rfl⟩
  · have hfits : p₂.pos + len ≤ p₂.data.length := by
      unfold Parser.remaining at hshort
      rw [if_pos hin₂] at hshort
      omega
    rw [if_neg hshort, parse_bind_ok (slice_ok (Nat.le_add_right _ _) hfits)]
    refine Or.inr ⟨_, { p₂ with pos := p₂.pos + len }, rfl, ?_, hfits, hdata₂.trans hdata₁⟩
    change p.pos < p₂.pos + len
    omega

lemma loadSections_returns {rounds : Nat} (m : WasmModule) (hp : p.pos ≤ p.data.length)
    (hrounds : p.data.length - p.pos < rounds) :
    (∃ m', loadSections rounds p m = .ok m') ∨ ∃ e, loadSections rounds p m = .error (.error e) := by
  induction rounds generalizing p m with
  | zero => omega
  | succ rounds ih =>
    unfold loadSections
    by_cases heof : p.eof = true
    · rw [if_pos heof]
      exact Or.inl ⟨m, rfl⟩
    rw [if_neg heof]
    rcases nextSection_spec hp with ⟨e, he⟩ | ⟨⟨id, data⟩, p', hok, hlt, hin, hdata⟩
    · rw [he]
      exact Or.inr ⟨e, rfl⟩
    rw [hok]
    change (∃ m', (Parse.section_ id m (.new data) >>= fun r => loadSections rounds p' r.1) = .ok m') ∨
      ∃ e, (Parse.section_ id m (.new data) >>= fun r => loadSections rounds p' r.1) = .error (.error e)
    rcases orderly_section id m (.new data) (Nat.zero_le _) with ⟨e, he⟩ | ⟨m', p'', hok', -⟩
    · rw [he]
      exact Or.inr ⟨e, rfl⟩
    · rw [hok']
      refine ih m' hin ?_
      rw [hdata] at hin ⊢
      omega

lemma load_returns (bytes : Bytes) : (∃ m, load bytes = .ok m) ∨ ∃ e, load bytes = .error (.error e) := by
  unfold load
  split_ifs with hheader
  · have hlen : bytes.length ≥ 8 := (of_decide_eq_true hheader).1
    refine loadSections_returns {} (Nat.zero_le _) ?_
    change (bytes.drop 8).length - 0 < bytes.length
    rw [length_drop]
    omega
  · exact Or.inr ⟨_, rfl⟩

lemma validateLoop_returns {data : Bytes} {rounds pos : Nat} (hrounds : data.length - pos < rounds) :
    ∃ r, validateLoop data rounds pos = .ok r := by
  induction rounds generalizing pos with
  | zero => omega
  | succ rounds ih =>
    unfold validateLoop
    split
    case h_1 => exact ⟨none, rfl⟩
    case h_2 id hid =>
      have hlt := (List.getElem?_eq_some_iff.mp hid).1
      split_ifs with hrange
      · exact ⟨_, rfl⟩
      · split
        case h_1 => exact ⟨_, rfl⟩
        case h_2 len n hleb =>
          split_ifs with hlong
          · exact ⟨_, rfl⟩
          · exact ih (by omega)

lemma validate_returns (bytes : Bytes) : ∃ r, validate bytes = .ok r := by
  unfold validate
  split_ifs with hshort hmagic hversion
  · exact ⟨_, rfl⟩
  · exact ⟨_, rfl⟩
  · exact ⟨_, rfl⟩
  · exact validateLoop_returns (by omega)

/-- A running interpreter has not halted, and every function it called is imported or has a
body. -/
def Running (m : WasmModule) (s : Machine η) : Prop :=
  (∀ h, Event.halted h ∉ s.trace) ∧ ∀ callee, Event.call callee ∈ s.trace → Callable m callee

section Steps

variable {m : WasmModule} {s s' : Machine η}

lemma Running.event (h : Running m s) {e : Event} (hhalted : ∀ r, e ≠ .halted r)
    (hcall : ∀ callee, e = .call callee → Callable m callee) : Running m { s with trace := e :: s.trace } := by
  constructor
  · intro r hr
    rcases mem_cons.mp hr with heq | hr
    · exact hhalted r heq.symm
    · exact h.1 r hr
  · intro callee hc
    rcases mem_cons.mp hc with heq | hc
    · exact hcall callee heq.symm
    · exact h.2 callee hc

lemma Running.act (h : Running m s) (hact : WasmStep m s s') : Running m s' := by
  rcases hact with hstep | ⟨e, he, rfl⟩
  · cases hstep with
    | shrink k => exact h
    | push v hlt => exact h.event (e := .depth _) (by simp) (by simp)
    | globals gs => exact h
    | access addr len ram hcheck hram => exact h.event (e := .access _ _ _) (by simp) (by simp)
    | resize pages hle hcap => exact h.event (e := .resized _) (by simp) (by simp)
    | frames n hn => exact h.event (by simp) (by simp)
    | call callee hcallee =>
      refine h.event (by simp) fun c hc => ?_
      obtain rfl := Event.call.inj hc
      exact hcallee
    | kernel k => exact h
  · refine h.event ?_ ?_
    · rintro r rfl
      exact he
    · rintro callee rfl
      exact he.elim

lemma Running.run (h : Running m s) (hrun : Relation.ReflTransGen (WasmStep m) s s') : Running m s' := by
  induction hrun with
  | refl => exact h
  | tail _ hact ih => exact ih.act hact

lemma Running.halts (h : Running m s) (hlast : Halts m s s') :
    haltReason s'.trace ≠ .panic ↔ ∀ callee, Event.call callee ∈ s'.trace → Callable m callee := by
  cases hlast with
  | halted r hne => exact ⟨fun _ callee hc => h.2 callee (mem_of_ne_of_mem (by simp) hc), fun _ => hne⟩
  | missing callee hcallee =>
    refine ⟨fun hn => absurd rfl hn, fun hall => absurd (hall callee ?_) hcallee⟩
    exact mem_cons_of_mem _ mem_cons_self
  | hung k =>
    refine ⟨fun _ => h.2, fun _ heq => ?_⟩
    unfold haltReason at heq
    split at heq
    case h_1 r rest htrace =>
      change s.trace = _ at htrace
      exact h.1 r (by rw [htrace]; exact mem_cons_self)
    case h_2 => cases heq

end Steps

lemma initial_running (m : WasmModule) (base : Nat) (ram : Nat → UInt8) (k : η) :
    Running m (initial m base ram k []) := by
  constructor
  · intro h hh
    cases mem_singleton.mp hh
  · intro callee hc
    cases mem_singleton.mp hc

/-- `validate` and `load` return. A run of an export is without a panic exactly if every function that it
calls is imported or has a body. -/
theorem wasm_panic_iff (bytes : Bytes) (host : Host η) (fuel : Nat) (name : Bytes) (args : List Value)
    (ram : Nat → UInt8) (kernel : η) :
    (∃ r, validate bytes = .ok r) ∧
      ((∃ e, load bytes = .error (.error e)) ∨
        ∃ m, load bytes = .ok m ∧
          ((callExport host m fuel name args ⟨ram, kernel, []⟩).1 ≠ .error .panic ↔
            ∀ callee, Event.call callee ∈ (callExport host m fuel name args ⟨ram, kernel, []⟩).2.trace →
              Callable m callee)) := by
  refine ⟨validate_returns bytes, (load_returns bytes).symm.imp id ?_⟩
  rintro ⟨m, hm⟩
  refine ⟨m, hm, ?_⟩
  rcases callExport_step host m fuel name args ⟨ram, kernel, []⟩ with
    ⟨h, hne, hr, htrace, -⟩ | ⟨base, k, s, -, hsteps, hend⟩
  · rw [hr, htrace]
    exact ⟨fun _ callee hc => absurd hc not_mem_nil, fun _ heq => hne (Except.error.inj heq)⟩
  · have hrun := (initial_running m base ram k).run hsteps
    rcases hend with ⟨vals, hr⟩ | ⟨s', hlast, hr⟩
    · rw [hr]
      exact ⟨fun _ => hrun.2, fun _ heq => by cases heq⟩
    · rw [hr]
      refine Iff.trans ?_ (hrun.halts hlast)
      exact ⟨fun hn heq => hn (congrArg Except.error heq), fun hn heq => hn (Except.error.inj heq)⟩

def idleHost : Host Unit where
  allocPages _ := pure (some 0x48000000)
  currentTid _ := 2
  totalTicks _ := 0
  counter := pure 0
  boxed _ := pure 0
  peek _ len := pure (List.replicate len 0)
  sendMessage _ _ := pure false
  recvMessage := pure none
  yieldCpu := pure ()
  openFile _ := pure none
  read _ _ := pure none
  write _ _ := pure none
  close _ := pure ()
  httpGet _ _ _ _ := pure .dnsError
  read_length h := by cases h
  body_length h := by cases h

def missingBody : Bytes :=
  [0x00, 0x61, 0x73, 0x6D, 0x01, 0x00, 0x00, 0x00] ++ [0x01, 0x04, 0x01, 0x60, 0x00, 0x00] ++
    [0x03, 0x03, 0x02, 0x00, 0x00] ++ [0x07, 0x08, 0x01, 0x04, 0x6D, 0x61, 0x69, 0x6E, 0x00, 0x00] ++
    [0x0A, 0x06, 0x01, 0x04, 0x00, 0x10, 0x01, 0x0B]

/-- The module passes `validate` and `load`, and its `main` brings the kernel down. -/
theorem missing_body_panics :
    validate missingBody = .ok none ∧
      (sysWasmLoad idleHost 4 missingBody ⟨fun _ => 0, (), []⟩).1 = .error .panic := by
  refine ⟨by decide +kernel, by decide +kernel⟩

end Aeglos.Proofs
