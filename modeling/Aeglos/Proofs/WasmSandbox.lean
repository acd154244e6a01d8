import Aeglos.Proofs.WasmSteps

/-!
# The sandbox of a WebAssembly module

Memory accesses, the operand stack and the frames along every run of an export.
-/

namespace Aeglos.Proofs

open Effects Wasm List

variable {η : Type}

def InSandbox (base cap : Nat) : Event → Prop
  | .access addr len pages => base ≤ addr ∧ addr + len ≤ base + pages * wasmPageSize ∧ pages ≤ cap
  | .resized pages => pages ≤ cap
  | .depth n => n ≤ 4096
  | .frames n => n ≤ 257
  | _ => True

def pagesOf : Event → Option Nat
  | .access _ _ pages => some pages
  | .resized pages => some pages
  | _ => none

/-- Every event respects the limits, and the sizes never decrease; the trace has the latest
event first. -/
structure Sandboxed (base cap : Nat) (trace : List Event) : Prop where
  events : ∀ e ∈ trace, InSandbox base cap e
  growing : (trace.filterMap pagesOf).Pairwise (· ≥ ·)

structure SandboxInv (base cap : Nat) (ram : Nat → UInt8) (s : Machine η) : Prop where
  base_eq : s.mem.base = base
  cap_eq : s.mem.capPages = cap
  pages_le : s.mem.pages ≤ cap
  stack_le : s.stack.length ≤ 4096
  sandboxed : Sandboxed base cap s.trace
  sizes_le : ∀ p ∈ s.trace.filterMap pagesOf, p ≤ s.mem.pages
  outside : ∀ a, ¬(base ≤ a ∧ a < base + cap * wasmPageSize) → s.ram a = ram a

section Steps

variable {m : WasmModule} {base cap : Nat} {ram : Nat → UInt8} {s s' : Machine η}

lemma SandboxInv.event (h : SandboxInv base cap ram s) {e : Event} (he : InSandbox base cap e)
    (hp : pagesOf e = none) : SandboxInv base cap ram { s with trace := e :: s.trace } :=
  { h with
    sandboxed := ⟨forall_mem_cons.mpr ⟨he, h.sandboxed.events⟩, by
      rw [filterMap_cons_none hp]
      exact h.sandboxed.growing⟩
    sizes_le := by
      rw [filterMap_cons_none hp]
      exact h.sizes_le }

lemma Sandboxed.sized (h : Sandboxed base cap s.trace) {e : Event} (he : InSandbox base cap e) {p : Nat}
    (hp : pagesOf e = some p) (hle : ∀ q ∈ s.trace.filterMap pagesOf, q ≤ p) : Sandboxed base cap (e :: s.trace) := by
  refine ⟨forall_mem_cons.mpr ⟨he, h.events⟩, ?_⟩
  rw [filterMap_cons_some hp, pairwise_cons]
  exact ⟨hle, h.growing⟩

lemma check_iff {mem : LinearMemory} {addr : BitVec 32} {len : Nat} (hpages : mem.pages ≤ 64)
    (h : mem.check addr len = true) : addr.toNat + len ≤ mem.pages * wasmPageSize := by
  have hle : min (addr.toNat + len) (2 ^ 64 - 1) ≤ mem.pages * wasmPageSize := of_decide_eq_true h
  simp only [wasmPageSize] at hle ⊢
  omega

lemma SandboxInv.access (h : SandboxInv base cap ram s) (hcap : cap ≤ 64) {addr : BitVec 32} {len : Nat}
    {ram' : Nat → UInt8} (hcheck : s.mem.check addr len = true)
    (hram : ∀ a, ¬(s.mem.base + addr.toNat ≤ a ∧ a < s.mem.base + addr.toNat + len) → ram' a = s.ram a) :
    SandboxInv base cap ram { s with ram := ram', trace := .access (s.mem.base + addr.toNat) len s.mem.pages :: s.trace } := by
  have hin := check_iff (h.pages_le.trans hcap) hcheck
  have hfits : s.mem.pages * wasmPageSize ≤ cap * wasmPageSize := Nat.mul_le_mul_right _ h.pages_le
  have hbase := h.base_eq
  refine { h with sandboxed := ?_, sizes_le := ?_, outside := fun a ha => ?_ }
  · refine h.sandboxed.sized ⟨?_, ?_, h.pages_le⟩ rfl h.sizes_le
    · omega
    · omega
  · rw [filterMap_cons_some (f := pagesOf) rfl]
    exact forall_mem_cons.mpr ⟨le_rfl, h.sizes_le⟩
  · rw [← h.outside a ha]
    refine hram a fun hwritten => ha ?_
    omega

lemma SandboxInv.resize (h : SandboxInv base cap ram s) {pages : Nat} (hle : s.mem.pages ≤ pages)
    (hcap : pages = s.mem.pages ∨ pages ≤ s.mem.capPages) :
    SandboxInv base cap ram { s with mem := { s.mem with pages := pages }, trace := .resized pages :: s.trace } := by
  have hpages : pages ≤ cap := by
    rcases hcap with rfl | hcap
    · exact h.pages_le
    · exact h.cap_eq ▸ hcap
  have hsizes : ∀ q ∈ s.trace.filterMap pagesOf, q ≤ pages := fun q hq => (h.sizes_le q hq).trans hle
  refine { h with pages_le := hpages, sandboxed := h.sandboxed.sized hpages rfl hsizes, sizes_le := ?_ }
  rw [filterMap_cons_some (f := pagesOf) rfl]
  exact forall_mem_cons.mpr ⟨le_rfl, hsizes⟩

lemma SandboxInv.micro (h : SandboxInv base cap ram s) (hcap : cap ≤ 64) (hstep : Micro m s s') :
    SandboxInv base cap ram s' := by
  cases hstep with
  | shrink k =>
    have hle : (s.stack.drop k).length ≤ s.stack.length := (drop_sublist k s.stack).length_le
    exact { h with stack_le := hle.trans h.stack_le }
  | push v hlt => exact { h.event (e := .depth _) hlt rfl with stack_le := hlt }
  | globals gs => exact { h with }
  | access addr len ram' hcheck hram => exact h.access hcap hcheck hram
  | resize pages hle hpages => exact h.resize hle hpages
  | frames n hn => exact h.event hn rfl
  | call callee _ => exact h.event trivial rfl
  | kernel k => exact { h with }

lemma SandboxInv.halts (h : SandboxInv base cap ram s) (hstep : Halts m s s') : SandboxInv base cap ram s' := by
  cases hstep with
  | halted r _ => exact h.event trivial rfl
  | missing callee _ => exact (h.event (e := .call callee) trivial rfl).event trivial rfl
  | hung k => exact { h with }

lemma SandboxInv.act (h : SandboxInv base cap ram s) (hcap : cap ≤ 64) (hact : WasmStep m s s') :
    SandboxInv base cap ram s' := by
  rcases hact with hstep | ⟨e, he, rfl⟩
  · exact h.micro hcap hstep
  · cases e <;> first | exact he.elim | exact h.event trivial rfl

end Steps

lemma capacity_le (n : Nat) : LinearMemory.capacity n ≤ 64 := min_le_right _ _

lemma initial_sandbox (m : WasmModule) (base : Nat) (ram : Nat → UInt8) (k : η) :
    SandboxInv base (LinearMemory.capacity (minPages m)) ram (initial m base ram k []) := by
  have hpages : (LinearMemory.new base (minPages m)).pages = LinearMemory.capacity (minPages m) := by
    simp only [LinearMemory.new, LinearMemory.capacity, minPages]
    omega
  refine ⟨rfl, rfl, hpages.le, Nat.zero_le _, ⟨?_, ?_⟩, ?_, fun a ha => if_neg ha⟩
  · intro e he
    obtain rfl := mem_singleton.mp he
    exact ⟨le_rfl, by rw [hpages], hpages.le⟩
  · exact pairwise_singleton _ _
  · intro p hp
    obtain rfl := mem_singleton.mp hp
    exact le_rfl

/-- In every run of an export, no memory is allocated and nothing happens, or linear memory is touched only
below its current size and inside its allocation of at most 64 pages, its size never decreases, the stack
holds at most 4096 values and there are at most 257 frames. -/
theorem wasm_sandbox (host : Host η) (m : WasmModule) (fuel : Nat) (name : Bytes) (args : List Value)
    (ram : Nat → UInt8) (kernel : η) :
    let w := (callExport host m fuel name args ⟨ram, kernel, []⟩).2
    let cap := LinearMemory.capacity (minPages m)
    w.trace = [] ∧ w.ram = ram ∨
      ∃ base k, host.allocPages (cap * kernelPagesPerWasmPage) kernel = .ok (some base, k) ∧ cap ≤ 64 ∧
        Sandboxed base cap w.trace ∧ ∀ a, ¬(base ≤ a ∧ a < base + cap * wasmPageSize) → w.ram a = ram a := by
  rcases callExport_step host m fuel name args ⟨ram, kernel, []⟩ with
    ⟨h, -, -, hidle⟩ | ⟨base, k, s, halloc, hsteps, hend⟩
  · exact Or.inl hidle
  · have hinv : SandboxInv base (LinearMemory.capacity (minPages m)) ram s := by
      clear hend
      induction hsteps with
      | refl => exact initial_sandbox m base ram k
      | tail _ hact ih => exact ih.act (capacity_le _) hact
    dsimp only
    rcases hend with ⟨vals, hr⟩ | ⟨s', hlast, hr⟩
    · rw [hr]
      exact Or.inr ⟨base, k, halloc, capacity_le _, hinv.sandboxed, hinv.outside⟩
    · rw [hr]
      have hinv' := hinv.halts hlast
      exact Or.inr ⟨base, k, halloc, capacity_le _, hinv'.sandboxed, hinv'.outside⟩

end Aeglos.Proofs
