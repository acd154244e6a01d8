import Aeglos.Proofs.PageHoldings

/-!
# Pixel buffers of surfaces

The buffers of surfaces are disjoint in every run.
-/

namespace Aeglos.Proofs

open TransitionSystem

inductive SurfaceOp where
  | create (ownerTid : Nat) (w h : UInt32) (z : UInt8)
  | resize (id : Nat) (w h : UInt32)
  | destroy (id : Nat)

def surfaceStep (v : Vm) : SurfaceOp → Vm
  | .create ownerTid w h z => (v.create ownerTid w.toNat h.toNat z.toNat).2
  | .resize id w h => (v.resize id w.toNat h.toNat).2
  | .destroy id => v.destroy id

def noSurfaces (mem : Memory) : Vm := ⟨mem, fun _ => .empty, false⟩

def InBuffer (s : Surface) (a : Nat) : Prop := s.used = true ∧ s.bufPa ≤ a ∧ a < s.bufPa + s.bufPages * 4096

def LargeEnough (s : Surface) : Prop := s.used = true → s.w * s.h * 4 ≤ s.bufPages * 4096

structure BuffersOk (v : Vm) : Prop where
  large : ∀ i, LargeEnough (v.surfaces i)
  apart : ∀ i j a, InBuffer (v.surfaces i) a → InBuffer (v.surfaces j) a → i = j

/-- A call that succeeds asks for a number of bytes that fits in 64 bits. -/
def AsksLittle (v : Vm) : SurfaceOp → Prop
  | .create ownerTid w h z => (v.create ownerTid w.toNat h.toNat z.toNat).1 ≠ none → w.toNat * h.toNat * 4 < 2 ^ 64
  | .resize id w h => (v.resize id w.toNat h.toNat).1 = true → w.toNat * h.toNat * 4 < 2 ^ 64
  | .destroy _ => True

lemma bufferPages_iff {w h : UInt32} (hpos : 0 < Vm.bufferPages w.toNat h.toNat) :
    w.toNat * h.toNat * 4 ≤ Vm.bufferPages w.toNat h.toNat * 4096 ↔ w.toNat * h.toNat * 4 < 2 ^ 64 := by
  have hpixels : w.toNat * h.toNat < 2 ^ 32 * 2 ^ 32 := Nat.mul_lt_mul'' w.toNat_lt h.toNat_lt
  unfold Vm.bufferPages wrap64 at *
  omega

/-- The buffers are disjoint, and none of their pages is free. -/
structure BuffersHeld (v : Vm) : Prop where
  apart : ∀ i j a, InBuffer (v.surfaces i) a → InBuffer (v.surfaces j) a → i = j
  taken : ∀ i a, InBuffer (v.surfaces i) a → ¬v.mem.pages.Free a

variable {v : Vm} {i : Fin maxSurfaces} {s : Surface} {mem : Memory}

lemma not_inBuffer_empty (a : Nat) : ¬InBuffer .empty a := fun h => Bool.false_ne_true h.1

lemma setSurface_self : ({ v with mem := mem }.setSurface i s).surfaces i = s := Function.update_self ..

lemma setSurface_of_ne {j : Fin maxSurfaces} (h : j ≠ i) :
    ({ v with mem := mem }.setSurface i s).surfaces j = v.surfaces j := Function.update_of_ne h ..

lemma BuffersHeld.put (h : BuffersHeld v) (hself : ∀ a, InBuffer s a → ¬mem.pages.Free a ∧ ∀ j ≠ i, ¬InBuffer (v.surfaces j) a)
    (hothers : ∀ j ≠ i, ∀ a, InBuffer (v.surfaces j) a → ¬mem.pages.Free a) :
    BuffersHeld ({ v with mem := mem }.setSurface i s) := by
  constructor
  · intro j k a hj hk
    by_cases hji : j = i
    · by_cases hki : k = i
      · rw [hji, hki]
      · rw [hji, setSurface_self] at hj
        rw [setSurface_of_ne hki] at hk
        exact absurd hk ((hself a hj).2 k hki)
    · rw [setSurface_of_ne hji] at hj
      by_cases hki : k = i
      · rw [hki, setSurface_self] at hk
        exact absurd hj ((hself a hk).2 j hji)
      · rw [setSurface_of_ne hki] at hk
        exact h.apart j k a hj hk
  · intro j a hj
    by_cases hji : j = i
    · rw [hji, setSurface_self] at hj
      exact (hself a hj).1
    · rw [setSurface_of_ne hji] at hj
      exact hothers j hji a hj

lemma large_put (h : ∀ j, LargeEnough (v.surfaces j)) :
    (∀ j, LargeEnough (({ v with mem := mem }.setSurface i s).surfaces j)) ↔ LargeEnough s := by
  constructor
  · intro hall
    have hi := hall i
    rwa [setSurface_self] at hi
  · intro hs j
    by_cases hji : j = i
    · rwa [hji, setSurface_self]
    · rw [setSurface_of_ne hji]
      exact h j

lemma allocPages_block {m m' : Memory} {n pa : Nat} (h : m.allocPages n = some (pa, m')) :
    0 < n ∧ ∀ a, (pa ≤ a ∧ a < pa + n * 4096 → m.pages.Free a ∧ ¬m'.pages.Free a) ∧ (m'.pages.Free a → m.pages.Free a) := by
  have hpages := Memory.allocPages_pages h
  obtain ⟨start, -, hpos, -⟩ := PageAllocator.allocPages_some hpages
  refine ⟨hpos, fun a => ?_⟩
  obtain ⟨hin, hfree⟩ := PageAllocator.allocPages_free hpages a
  exact ⟨fun ha => ⟨hin ha, fun h => (hfree.mp h).2 ha⟩, fun h => (hfree.mp h).1⟩

lemma BuffersHeld.step (h : BuffersHeld v) (op : SurfaceOp) : BuffersHeld (surfaceStep v op) := by
  cases op with
  | create ownerTid w hh z =>
    rw [surfaceStep, Vm.create]
    cases (List.finRange maxSurfaces).find? fun i => !(v.surfaces i).used with
    | none => exact h
    | some slot =>
      cases halloc : v.mem.allocPages (Vm.bufferPages w.toNat hh.toNat) with
      | none => exact h
      | some r =>
        obtain ⟨-, hblock⟩ := allocPages_block halloc
        refine h.put (fun a ha => ?_) fun j _ a hj hfree => h.taken j a hj ((hblock a).2 hfree)
        obtain ⟨hold, hnew⟩ := (hblock a).1 ha.2
        exact ⟨hnew, fun j _ hj => h.taken j a hj hold⟩
  | resize id w hh =>
    rw [surfaceStep, Vm.resize]
    cases hid : v.surface id with
    | none => exact h
    | some i =>
      have hused := (surface_some hid).2
      cases halloc : v.mem.allocPages (Vm.bufferPages w.toNat hh.toNat) with
      | none => exact h
      | some r =>
        obtain ⟨-, hblock⟩ := allocPages_block halloc
        refine h.put (fun a ha => ?_) fun j hj a hcovers hfree => ?_
        · obtain ⟨hold, hnew⟩ := (hblock a).1 ha.2
          refine ⟨fun hfree => ?_, fun j _ hj => h.taken j a hj hold⟩
          rcases PageAllocator.releasePages_free hfree with hfree | hin
          · exact hnew hfree
          · exact h.taken i a ⟨hused, hin⟩ hold
        · rcases PageAllocator.releasePages_free hfree with hfree | hin
          · exact h.taken j a hcovers ((hblock a).2 hfree)
          · exact hj (h.apart j i a hcovers ⟨hused, hin⟩)
  | destroy id =>
    rw [surfaceStep, Vm.destroy]
    cases hid : v.surface id with
    | none => exact h
    | some i =>
      refine h.put (fun a ha => absurd ha (not_inBuffer_empty a)) fun j hj a hcovers hfree => ?_
      rcases PageAllocator.releasePages_free hfree with hfree | hin
      · exact h.taken j a hcovers hfree
      · exact hj (h.apart j i a hcovers ⟨(surface_some hid).2, hin⟩)

lemma large_step_iff (h : ∀ j, LargeEnough (v.surfaces j)) (op : SurfaceOp) :
    (∀ j, LargeEnough ((surfaceStep v op).surfaces j)) ↔ AsksLittle v op := by
  cases op with
  | create ownerTid w hh z =>
    rw [surfaceStep, AsksLittle, Vm.create]
    cases (List.finRange maxSurfaces).find? fun i => !(v.surfaces i).used with
    | none => exact iff_of_true h fun hsome => absurd rfl hsome
    | some slot =>
      cases halloc : v.mem.allocPages (Vm.bufferPages w.toNat hh.toNat) with
      | none => exact iff_of_true h fun hsome => absurd rfl hsome
      | some r =>
        refine (large_put h).trans ?_
        rw [← bufferPages_iff (allocPages_block halloc).1]
        exact ⟨fun hl _ => hl rfl, fun hl _ => hl (Option.some_ne_none slot)⟩
  | resize id w hh =>
    rw [surfaceStep, AsksLittle, Vm.resize]
    cases hid : v.surface id with
    | none => exact iff_of_true h fun hsome => absurd hsome Bool.false_ne_true
    | some i =>
      cases halloc : v.mem.allocPages (Vm.bufferPages w.toNat hh.toNat) with
      | none => exact iff_of_true h fun hsome => absurd hsome Bool.false_ne_true
      | some r =>
        refine (large_put h).trans ?_
        rw [← bufferPages_iff (allocPages_block halloc).1]
        exact ⟨fun hl _ => hl (surface_some hid).2, fun hl _ => hl rfl⟩
  | destroy id =>
    refine iff_of_true ?_ trivial
    rw [surfaceStep, Vm.destroy]
    cases v.surface id with
    | none => exact h
    | some i => exact (large_put h).mpr fun hused => absurd hused Bool.false_ne_true

/-- The buffers are large enough and disjoint in every state of a run exactly if every successful call asks
for a number of bytes that fits in 64 bits. -/
theorem surface_buffers_iff (mem : Memory) (ops : List SurfaceOp) :
    (∀ before after, ops = before ++ after → BuffersOk (run surfaceStep (noSurfaces mem) before)) ↔
      Guarded surfaceStep AsksLittle (noSurfaces mem) ops := by
  refine run_iff (I := fun v => BuffersHeld v ∧ ∀ i, LargeEnough (v.surfaces i)) ?_ ?_ ?_ ?_
  · intro v op h hlittle
    exact ⟨h.1.step op, (large_step_iff h.2 op).mpr hlittle⟩
  · exact fun v h => ⟨h.2, h.1.apart⟩
  · intro v op h hok
    exact (large_step_iff h.2 op).mp hok.large
  · exact ⟨⟨fun _ _ a h => absurd h (not_inBuffer_empty a), fun _ a h => absurd h (not_inBuffer_empty a)⟩,
      fun _ h => absurd h Bool.false_ne_true⟩

/-- Whatever is asked for, the buffers are disjoint and keep their pages in every run. -/
theorem surface_buffers_held (mem : Memory) (ops : List SurfaceOp) :
    BuffersHeld (run surfaceStep (noSurfaces mem) ops) := by
  refine run_preserves (fun _ op h => h.step op) ⟨?_, ?_⟩ ops
  · exact fun _ _ a h => absurd h (not_inBuffer_empty a)
  · exact fun _ a h => absurd h (not_inBuffer_empty a)

/-- The surface has 2^62 + 1 pixels, and its buffer one page. -/
theorem huge_surface_in_one_page :
    let v := surfaceStep (noSurfaces smallMemory) (.create 0 2147549185 2147418113 0)
    (v.surfaces 0).used = true ∧ (v.surfaces 0).bufPages = 1 ∧ ¬BuffersOk v := by
  refine ⟨by decide +kernel, by decide +kernel, fun h => ?_⟩
  have hlarge := h.large 0 (by decide +kernel)
  revert hlarge
  decide +kernel

end Aeglos.Proofs
