import Aeglos.Kernel.AllocSteps
import Aeglos.Proofs.PageBlocks

/-!
# Concurrent allocation

Two calls of `alloc_pages` at once may settle on the same block.
-/

namespace Aeglos

open FreeRuns List Function

namespace AllocPhase

def run : AllocPhase → Finset Nat
  | .scanning i consecutive _ => Finset.Ico (i - consecutive) i
  | _ => ∅

def settled (count : Nat) : AllocPhase → Finset Nat
  | .marking startIdx _ => block (startIdx, count)
  | .done (some startIdx) => block (startIdx, count)
  | _ => ∅

def unmarked (count : Nat) : AllocPhase → Finset Nat
  | .marking startIdx k => Finset.Ico (startIdx + k) (startIdx + count)
  | _ => ∅

end AllocPhase

namespace Proofs

open AllocCalls TransitionSystem

section Alone

variable (a : AllocCalls) (c : Cpu)

def marked (a : AllocCalls) (startIdx m : Nat) : AllocCalls :=
  { a with bitmap := { a.bitmap with
    bytes := (List.range m).foldl (fun bytes k => PageBitmap.markUsed bytes (startIdx + k)) a.bitmap.bytes } }

lemma marking_steps (startIdx : Nat) {m : Nat} (hm : m ≤ a.count c) :
    run AllocCalls.step (a.goto c (.marking startIdx 0)) (List.replicate m c) =
      (marked a startIdx m).goto c (.marking startIdx m) := by
  induction m with
  | zero => rfl
  | succ m ih =>
    have hlt : m < a.count c := hm
    rw [replicate_succ', run_append, ih (by omega)]
    simp only [run, AllocCalls.step, AllocCalls.goto, update_self, marked, if_pos hlt,
      update_idem, range_succ, foldl_append, foldl_cons, foldl_nil]

lemma scanning_steps {i left consecutive startIdx : Nat} (hleft : i + left = a.bitmap.numPages) :
    ∃ n, run AllocCalls.step (a.goto c (.scanning i consecutive startIdx)) (List.replicate n c) =
      match PageAllocator.scan (PageBitmap.isFree a.bitmap.bytes) (a.count c) left i consecutive startIdx with
      | some start => a.goto c (.marking start 0)
      | none => a.goto c (.done none) := by
  -- one step, and then the steps `n` from the phase that it leads to
  have hnext {x y : AllocPhase} {r : AllocCalls} (hstep : (a.goto c x).step c = a.goto c y)
      (hrest : ∃ n, run AllocCalls.step (a.goto c y) (List.replicate n c) = r) :
      ∃ n, run AllocCalls.step (a.goto c x) (List.replicate n c) = r := by
    obtain ⟨n, hn⟩ := hrest
    refine ⟨n + 1, ?_⟩
    rw [replicate_succ, run, hstep]
    exact hn
  induction left generalizing i consecutive startIdx with
  | zero =>
    have hend : ¬i < a.bitmap.numPages := by omega
    refine hnext ?_ ⟨0, rfl⟩
    simp only [AllocCalls.step, AllocCalls.goto, update_self, if_neg hend, update_idem]
  | succ left ih =>
    have hin : i < a.bitmap.numPages := by omega
    simp only [PageAllocator.scan]
    by_cases hfree : PageBitmap.isFree a.bitmap.bytes i = true
    · rw [if_pos hfree]
      by_cases hcount : consecutive + 1 = a.count c
      · rw [if_pos hcount]
        refine hnext ?_ ⟨0, rfl⟩
        simp only [AllocCalls.step, AllocCalls.goto, update_self, if_pos hin, if_pos hfree,
          if_pos hcount, update_idem]
      · rw [if_neg hcount]
        refine hnext ?_ (ih (by omega))
        simp only [AllocCalls.step, AllocCalls.goto, update_self, if_pos hin, if_pos hfree,
          if_neg hcount, update_idem]
    · rw [if_neg hfree]
      refine hnext ?_ (ih (by omega))
      simp only [AllocCalls.step, AllocCalls.goto, update_self, if_pos hin, if_neg hfree, update_idem]

end Alone

theorem alone_allocPages (bitmap : PageBitmap) (count : Cpu → Nat) (c : Cpu) :
    ∃ n, let a := run AllocCalls.step (begin bitmap count) (List.replicate n c)
      a.returned c = (bitmap.allocPages (count c)).map Prod.fst ∧
        a.bitmap = ((bitmap.allocPages (count c)).map Prod.snd).getD bitmap := by
  by_cases hzero : count c = 0
  · refine ⟨0, ?_⟩
    simp [AllocCalls.returned, begin, hzero, PageBitmap.allocPages]
  have hbegin : begin bitmap count = (begin bitmap count).goto c (.scanning 0 0 0) := by
    simp [begin, AllocCalls.goto, hzero]
  have hscans : ∃ n, run AllocCalls.step ((begin bitmap count).goto c (.scanning 0 0 0))
        (List.replicate n c) =
      match PageAllocator.scan (PageBitmap.isFree bitmap.bytes) (count c) bitmap.numPages 0 0 0 with
      | some start => (begin bitmap count).goto c (.marking start 0)
      | none => (begin bitmap count).goto c (.done none) :=
    scanning_steps (begin bitmap count) c (Nat.zero_add _)
  rw [← hbegin] at hscans
  obtain ⟨n, hn⟩ := hscans
  unfold PageBitmap.allocPages
  rw [if_neg hzero]
  cases hscan : PageAllocator.scan (PageBitmap.isFree bitmap.bytes) (count c) bitmap.numPages 0 0 0 with
  | none =>
    rw [hscan] at hn
    refine ⟨n, ?_⟩
    simp only [hn, AllocCalls.returned, AllocCalls.goto, update_self]
    exact ⟨rfl, rfl⟩
  | some start =>
    rw [hscan] at hn
    have hmarks := marking_steps (begin bitmap count) c start (le_refl _)
    refine ⟨n + ((begin bitmap count).count c + 1), ?_⟩
    simp only [replicate_add, run_append, hn, hmarks, replicate_one, run_cons, run_nil]
    simp only [AllocCalls.step, AllocCalls.goto, update_self, marked, Nat.lt_irrefl, if_false,
      update_idem, AllocCalls.returned]
    exact ⟨rfl, rfl⟩

/-- A read that finds its page free finds no block of another call there that is settled and not yet marked;
if it completes a block, no other call runs through a page of it. -/
def ReadsApart (a : AllocCalls) (c : Cpu) : Prop :=
  match a.phase c with
  | .scanning i consecutive _ => i < a.bitmap.numPages → PageBitmap.isFree a.bitmap.bytes i = true →
      ∀ d, d ≠ c → i ∉ (a.phase d).unmarked (a.count d) ∧
        (consecutive + 1 = a.count c → Disjoint (Finset.Ico (i - consecutive) (i + 1)) (a.phase d).run)
  | _ => True

def BlocksDisjoint (a : AllocCalls) : Prop :=
  ∀ c d base base', c ≠ d → a.returned c = some base → a.returned d = some base' →
    Apart (base, a.count c) (base', a.count d)

def PhaseOk (bytes : Nat → BitVec 8) (count : Nat) : AllocPhase → Prop
  | .scanning i consecutive startIdx =>
    consecutive ≤ i ∧ consecutive < count ∧ (0 < consecutive → startIdx = i - consecutive)
  | .marking startIdx k => 0 < count ∧
      ∀ p, startIdx ≤ p → p < startIdx + k → PageBitmap.isFree bytes p = false
  | .done (some startIdx) => 0 < count ∧
      ∀ p, startIdx ≤ p → p < startIdx + count → PageBitmap.isFree bytes p = false
  | .done none => True

/-- No call has settled on a page that another call has settled on or is running through. -/
structure CallsApart (a : AllocCalls) : Prop where
  ok : ∀ c, PhaseOk a.bitmap.bytes (a.count c) (a.phase c)
  settled : ∀ c d, c ≠ d →
    Disjoint ((a.phase c).settled (a.count c)) ((a.phase d).settled (a.count d))
  run : ∀ c d, c ≠ d → Disjoint (a.phase c).run ((a.phase d).settled (a.count d))

section Steps

variable {a : AllocCalls} {c : Cpu} {phase : AllocPhase}

lemma CallsApart.goto (h : CallsApart a)
    (hok : PhaseOk a.bitmap.bytes (a.count c) phase)
    (hsettled : ∀ d, d ≠ c → Disjoint (phase.settled (a.count c)) ((a.phase d).settled (a.count d)))
    (hrun : ∀ d, d ≠ c → Disjoint phase.run ((a.phase d).settled (a.count d)))
    (hruns : ∀ d, d ≠ c → Disjoint (a.phase d).run (phase.settled (a.count c))) :
    CallsApart (a.goto c phase) := by
  have hself : (a.goto c phase).phase c = phase := update_self ..
  have hother : ∀ d, d ≠ c → (a.goto c phase).phase d = a.phase d := fun d hd =>
    update_of_ne hd ..
  have hcount : (a.goto c phase).count = a.count := rfl
  refine ⟨fun d => ?_, fun d e hne => ?_, fun d e hne => ?_⟩
  · by_cases hd : d = c
    · subst hd
      rw [hself]
      exact hok
    · rw [hother d hd]
      exact h.ok d
  · rw [hcount]
    by_cases hd : d = c
    · subst hd
      rw [hself, hother e hne.symm]
      exact hsettled e hne.symm
    · by_cases he : e = c
      · subst he
        rw [hself, hother d hd]
        exact (hsettled d hd).symm
      · rw [hother d hd, hother e he]
        exact h.settled d e hne
  · rw [hcount]
    by_cases hd : d = c
    · subst hd
      rw [hself, hother e hne.symm]
      exact hrun e hne.symm
    · by_cases he : e = c
      · subst he
        rw [hself, hother d hd]
        exact hruns d hd
      · rw [hother d hd, hother e he]
        exact h.run d e hne

lemma PhaseOk.not_settled {bytes : Nat → BitVec 8} {count p : Nat}
    (h : PhaseOk bytes count phase) (hfree : PageBitmap.isFree bytes p = true)
    (hp : p ∉ phase.unmarked count) : p ∉ phase.settled count := by
  intro hmem
  cases phase with
  | scanning => simp [AllocPhase.settled] at hmem
  | marking startIdx k =>
    simp only [AllocPhase.settled, AllocPhase.unmarked, block, Finset.mem_Ico] at hmem hp
    have hused := h.2 p hmem.1 (by omega)
    simp [hfree] at hused
  | done result =>
    cases result with
    | none => simp [AllocPhase.settled] at hmem
    | some startIdx =>
      simp only [AllocPhase.settled, block, Finset.mem_Ico] at hmem
      have hused := h.2 p hmem.1 hmem.2
      simp [hfree] at hused

lemma PhaseOk.markUsed {bytes : Nat → BitVec 8} {count : Nat}
    (h : PhaseOk bytes count phase) (i : Nat) : PhaseOk (PageBitmap.markUsed bytes i) count phase := by
  have hused : ∀ p, PageBitmap.isFree bytes p = false →
      PageBitmap.isFree (PageBitmap.markUsed bytes i) p = false := by
    intro p hp
    rw [isFree_markUsed]
    split
    · rfl
    · exact hp
  cases phase with
  | scanning => exact h
  | marking startIdx k => exact ⟨h.1, fun p hlo hhi => hused p (h.2 p hlo hhi)⟩
  | done result =>
    cases result with
    | none => trivial
    | some startIdx => exact ⟨h.1, fun p hlo hhi => hused p (h.2 p hlo hhi)⟩

lemma CallsApart.scan (h : CallsApart a) {i consecutive startIdx : Nat}
    (hphase : a.phase c = .scanning i consecutive startIdx) (hread : ReadsApart a c) :
    CallsApart (a.step c) := by
  have hnone : ∀ t : Finset Nat, Disjoint ∅ t := Finset.disjoint_empty_left
  have hnone' : ∀ t : Finset Nat, Disjoint t ∅ := Finset.disjoint_empty_right
  have hok := h.ok c
  have hrun := fun d (hd : d ≠ c) => h.run c d hd.symm
  rw [hphase] at hok hrun
  simp only [ReadsApart, hphase] at hread
  obtain ⟨hle, hlt, hstart⟩ := hok
  simp only [AllocCalls.step, hphase]
  split
  case isFalse =>
    have hok : PhaseOk a.bitmap.bytes (a.count c) (.done none) := trivial
    exact h.goto hok (fun _ _ => hnone _) (fun _ _ => hnone _) fun _ _ => hnone' _
  case isTrue hi =>
    by_cases hfree : PageBitmap.isFree a.bitmap.bytes i = true
    · -- the run that includes the page just read meets no settled block
      have hrun' : ∀ d, d ≠ c →
          Disjoint (Finset.Ico (i - consecutive) (i + 1)) ((a.phase d).settled (a.count d)) := by
        intro d hd
        rw [Finset.disjoint_left]
        intro p hp
        by_cases hpi : p = i
        · subst hpi
          exact (h.ok d).not_settled hfree (hread hi hfree d hd).1
        · refine Finset.disjoint_left.mp (hrun d hd) ?_
          simp only [AllocPhase.run, Finset.mem_Ico] at hp ⊢
          omega
      have hbegin : (if consecutive = 0 then i else startIdx) = i - consecutive := by
        split
        case isTrue h0 => omega
        case isFalse h0 => exact hstart (Nat.pos_of_ne_zero h0)
      rw [if_pos hfree, hbegin]
      by_cases hcount : consecutive + 1 = a.count c
      · have hblock : (AllocPhase.marking (i - consecutive) 0).settled (a.count c) =
            Finset.Ico (i - consecutive) (i + 1) := by
          simp only [AllocPhase.settled, block, ← hcount]
          congr 1
          omega
        rw [if_pos hcount]
        refine h.goto ⟨by omega, fun p hlo hhi => absurd hlo (by omega)⟩ (fun d hd => ?_)
          (fun _ _ => hnone _) fun d hd => ?_
        · rw [hblock]
          exact hrun' d hd
        · rw [hblock]
          exact ((hread hi hfree d hd).2 hcount).symm
      · have hext : (AllocPhase.scanning (i + 1) (consecutive + 1) (i - consecutive)).run =
            Finset.Ico (i - consecutive) (i + 1) := by
          simp only [AllocPhase.run]
          congr 1
          omega
        rw [if_neg hcount]
        refine h.goto ⟨by omega, by omega, fun _ => by omega⟩ (fun _ _ => hnone _) (fun d hd => ?_)
          fun _ _ => hnone' _
        rw [hext]
        exact hrun' d hd
    · rw [if_neg hfree]
      refine h.goto ⟨Nat.zero_le _, by omega, fun h0 => absurd h0 (by omega)⟩ (fun _ _ => hnone _)
        (fun d _ => ?_) fun _ _ => hnone' _
      simp [AllocPhase.run]

lemma CallsApart.mark (h : CallsApart a) {startIdx k : Nat} (hphase : a.phase c = .marking startIdx k) :
    CallsApart (a.step c) := by
  have hok := h.ok c
  have hset := fun d (hd : d ≠ c) => h.settled c d hd.symm
  have hruns := fun d (hd : d ≠ c) => h.run d c hd
  rw [hphase] at hok hset hruns
  simp only [AllocCalls.step, hphase]
  by_cases hk : k < a.count c
  · rw [if_pos hk]
    have hmarked : CallsApart { a with bitmap := { a.bitmap with
        bytes := PageBitmap.markUsed a.bitmap.bytes (startIdx + k) } } :=
      ⟨fun d => (h.ok d).markUsed _, h.settled, h.run⟩
    refine hmarked.goto ⟨hok.1, fun p hlo hhi => ?_⟩ hset (fun _ _ => Finset.disjoint_empty_left _) hruns
    dsimp only
    rw [isFree_markUsed]
    split
    · rfl
    · exact hok.2 p hlo (by omega)
  · rw [if_neg hk]
    have hdone : PhaseOk a.bitmap.bytes (a.count c) (.done (some startIdx)) :=
      ⟨hok.1, fun p hlo hhi => hok.2 p hlo (by omega)⟩
    exact h.goto hdone hset (fun _ _ => Finset.disjoint_empty_left _) hruns

end Steps

lemma step_callsApart (a : AllocCalls) (c : Cpu) (h : CallsApart a) (hread : ReadsApart a c) :
    CallsApart (a.step c) := by
  cases hphase : a.phase c with
  | scanning => exact h.scan hphase hread
  | marking => exact h.mark hphase
  | done =>
    simp only [AllocCalls.step, hphase]
    exact h

lemma begin_callsApart (bitmap : PageBitmap) (count : Cpu → Nat) : CallsApart (begin bitmap count) := by
  have hphase : ∀ c, (begin bitmap count).phase c = .done none ∨
      0 < count c ∧ (begin bitmap count).phase c = .scanning 0 0 0 := by
    intro c
    unfold begin
    dsimp only
    split
    case isTrue => exact Or.inl rfl
    case isFalse h0 => exact Or.inr ⟨Nat.pos_of_ne_zero h0, rfl⟩
  have hsettled : ∀ c, ((begin bitmap count).phase c).settled (count c) = ∅ := by
    intro c
    rcases hphase c with h | ⟨-, h⟩ <;> rw [h] <;> rfl
  refine ⟨fun c => ?_, fun c d _ => ?_, fun c d _ => ?_⟩
  · rcases hphase c with h | ⟨hpos, h⟩ <;> rw [h]
    · trivial
    · exact ⟨le_refl 0, hpos, fun h0 => absurd h0 (by omega)⟩
  · change Disjoint _ (((begin bitmap count).phase d).settled (count d))
    rw [hsettled d]
    exact Finset.disjoint_empty_right _
  · change Disjoint _ (((begin bitmap count).phase d).settled (count d))
    rw [hsettled d]
    exact Finset.disjoint_empty_right _

lemma returned_settled {a : AllocCalls} {c : Cpu} {base : Nat} (h : CallsApart a)
    (hr : a.returned c = some base) : ∃ startIdx, base = a.bitmap.pageBase + startIdx * pageSize ∧
      0 < a.count c ∧ (a.phase c).settled (a.count c) = block (startIdx, a.count c) := by
  have hok := h.ok c
  unfold AllocCalls.returned at hr
  cases hphase : a.phase c with
  | scanning => simp [hphase] at hr
  | marking => simp [hphase] at hr
  | done result =>
    rw [hphase] at hr hok
    obtain ⟨startIdx, rfl, rfl⟩ := Option.map_eq_some_iff.mp hr
    exact ⟨startIdx, rfl, hok.1, rfl⟩

lemma CallsApart.blocksDisjoint {a : AllocCalls} (h : CallsApart a) : BlocksDisjoint a := by
  intro c d base base' hne hc hd
  obtain ⟨start, rfl, hpos, hblock⟩ := returned_settled h hc
  obtain ⟨start', rfl, hpos', hblock'⟩ := returned_settled h hd
  have hdisj := h.settled c d hne
  rw [hblock, hblock'] at hdisj
  exact apart_of_disjoint (x := (start, a.count c)) (y := (start', a.count d)) a.bitmap.pageBase hpos
    hpos' hdisj

theorem concurrent_blocks_disjoint (bitmap : PageBitmap) (count : Cpu → Nat) (schedule : List Cpu)
    (h : Guarded AllocCalls.step ReadsApart (begin bitmap count) schedule) :
    BlocksDisjoint (run AllocCalls.step (begin bitmap count) schedule) :=
  (run_invariant step_callsApart (begin_callsApart bitmap count) h).blocksDisjoint

instance readsApartDecidable (a : AllocCalls) (c : Cpu) : Decidable (ReadsApart a c) := by
  unfold ReadsApart
  split <;> infer_instance

def twoPages : PageBitmap := ⟨fun i => if i = 0 then 3 else 0, 0x48000000, 2, 0x48002000⟩

def onePageEach : Cpu → Nat := fun c => if c = 0 ∨ c = 1 then 1 else 0

theorem concurrent_blocks_disjoint_two :
    Guarded AllocCalls.step ReadsApart (begin twoPages onePageEach) [0, 0, 1, 0, 1, 1, 1] ∧
      BlocksDisjoint (run AllocCalls.step (begin twoPages onePageEach) [0, 0, 1, 0, 1, 1, 1]) := by
  have hg : Guarded AllocCalls.step ReadsApart (begin twoPages onePageEach) [0, 0, 1, 0, 1, 1, 1] := by
    decide +kernel
  exact ⟨hg, concurrent_blocks_disjoint _ _ _ hg⟩

/-- CPU 1 reads the bit of page 0 after CPU 0 has read it and before CPU 0 has cleared it:
both calls return page 0. -/
theorem same_block_twice : let a := run AllocCalls.step (begin twoPages onePageEach) [0, 1, 0, 0, 1, 1]
    a.returned 0 = some 0x48000000 ∧ a.returned 1 = some 0x48000000 ∧ ¬BlocksDisjoint a := by
  intro a
  have h0 : a.returned 0 = some 0x48000000 := by decide +kernel
  have h1 : a.returned 1 = some 0x48000000 := by decide +kernel
  refine ⟨h0, h1, fun h => ?_⟩
  have hapart := h 0 1 _ _ (by decide) h0 h1
  have hcounts : a.count 0 = 1 ∧ a.count 1 = 1 := by decide +kernel
  rw [hcounts.1, hcounts.2] at hapart
  simp [Apart, pageSize] at hapart

end Proofs

end Aeglos
