import Aeglos.Proofs.Rights

/-!
# Confinement of rights

What tasks can gain in capabilities, and when masks and filters stay as they are.
-/

namespace Aeglos.Proofs

open Effects Call TransitionSystem Option BitVec

variable {k : Kernel} {op : KernelOp} {cpu : Cpu}

def SubMask (a b : BitVec 64) : Prop := ∀ i, a.getLsbD i = true → b.getLsbD i = true

namespace SubMask

variable {a b c : BitVec 64}

lemma iff_and : SubMask a b ↔ a &&& b = a := by
  constructor
  · intro h
    ext i hi
    have hbit := h i
    rw [getLsbD_eq_getElem hi, getLsbD_eq_getElem hi] at hbit
    rw [getElem_and]
    cases ha : a[i] with
    | false => rfl
    | true => rw [hbit ha]; rfl
  · intro h i hi
    rw [← h, getLsbD_and] at hi
    exact (Bool.and_eq_true_iff.mp hi).2

instance (a b : BitVec 64) : Decidable (SubMask a b) := decidable_of_iff _ iff_and.symm

lemma refl (a : BitVec 64) : SubMask a a := fun _ h => h

lemma trans (h₁ : SubMask a b) (h₂ : SubMask b c) : SubMask a c := fun i h => h₂ i (h₁ i h)

lemma and_right (a b : BitVec 64) : SubMask (a &&& b) b := fun i h => by
  rw [getLsbD_and] at h
  exact (Bool.and_eq_true_iff.mp h).2

lemma and_left (a b : BitVec 64) : SubMask (a &&& b) a := fun i h => by
  rw [getLsbD_and] at h
  exact (Bool.and_eq_true_iff.mp h).1

lemma left_or (a b : BitVec 64) : SubMask a (a ||| b) := fun i h => by
  rw [getLsbD_or, h, Bool.true_or]

lemma right_or (a b : BitVec 64) : SubMask b (a ||| b) := fun i h => by
  rw [getLsbD_or, h, Bool.or_true]

lemma or (h₁ : SubMask a c) (h₂ : SubMask b c) : SubMask (a ||| b) c := fun i h => by
  rw [getLsbD_or] at h
  rcases Bool.or_eq_true_iff.mp h with ha | hb
  · exact h₁ i ha
  · exact h₂ i hb

end SubMask

def ByMember (k : Kernel) (S : Set Nat) : KernelOp → Prop
  | .syscall cpu _ _ _ => ∃ t, k.sched.currentTask cpu = some t ∧ t.tid ∈ S
  | _ => False

def grow (k : Kernel) (S : Set Nat) (op : KernelOp) : Set Nat :=
  S ∪ {tid | ByMember k S op ∧ k.sched.nextTid ≤ tid ∧ tid < (k.step op).sched.nextTid}

def following : Kernel × Set Nat → KernelOp → Kernel × Set Nat := withHistory Kernel.step grow

def GrantsByMembers (p : Kernel × Set Nat) (op : KernelOp) : Prop :=
  match op with
  | .syscall cpu id _ _ => accepted p.1 cpu id = some .capGrant → ByMember p.1 p.2 op
  | _ => True

structure Below (M : BitVec 64) (p : Kernel × Set Nat) : Prop where
  tids : Tids p.1.sched
  live : ∀ tid ∈ p.2, tid < p.1.sched.nextTid
  caps : ∀ slot t, p.1.sched.tasks slot = some t → t.tid ∈ p.2 → SubMask t.capabilities M

/-- No task outside the set has gained a capability beyond the mask since the state `k`. -/
structure NoGain (M : BitVec 64) (k : Kernel) (p : Kernel × Set Nat) : Prop where
  nextTid : k.sched.nextTid ≤ p.1.sched.nextTid
  caps : ∀ i t j t', k.sched.tasks i = some t → p.1.sched.tasks j = some t' → t'.tid = t.tid →
    t'.tid ∉ p.2 → SubMask t'.capabilities (t.capabilities ||| M)

def watchCaps : Watch := ⟨true, false⟩

section Step

variable {M : BitVec 64} {p : Kernel × Set Nat} {op : KernelOp}

lemma memberCaps (h : Below M p) {cpu : Cpu} {id : Nat} {a : Args} {env : Env}
    (hm : ByMember p.1 p.2 (.syscall cpu id a env)) : SubMask (p.1.sched.currentCaps cpu) M := by
  obtain ⟨t, ht, hS⟩ := hm
  unfold Sched.currentCaps
  rw [ht]
  unfold Sched.currentTask at ht
  obtain ⟨slot, -, hslot⟩ := bind_eq_some_iff.mp ht
  exact h.caps slot t hslot hS

lemma changedBy_caps (h : Below M p) (hgrant : GrantsByMembers p op) {t t' : Task}
    (hc : ChangedBy watchCaps p.1 op t t') :
    t'.tid = t.tid ∧ SubMask t'.capabilities (t.capabilities ||| M) := by
  cases op with
  | syscall cpu id a env =>
    have hr : RightsBy watchCaps p.1 cpu id a t t' := hc
    refine ⟨hr.tid, ?_⟩
    rcases hr.caps rfl with heq | ⟨hacc, -, heq⟩ | ⟨-, -, heq⟩
    · rw [heq]
      exact .left_or _ _
    · have hM := memberCaps h (hgrant hacc)
      rw [heq]
      exact .or (.left_or _ _) ((SubMask.and_right _ _).trans (hM.trans (.right_or _ _)))
    · rw [heq]
      exact (SubMask.and_left _ _).trans (.left_or _ _)
  | popPendingSignal cpu | scheduleNext cpu sp | pageFault cpu =>
    have hu : Unchanged watchCaps t t' := hc
    rw [hu.caps rfl]
    exact ⟨hu.tid, .left_or _ _⟩

lemma createdBy_caps (h : Below M p) {t' : Task} (hc : CreatedBy watchCaps p.1 op t') :
    p.1.sched.nextTid ≤ t'.tid ∧ t'.tid < (p.1.step op).sched.nextTid ∧
      (ByMember p.1 p.2 op → SubMask t'.capabilities M) := by
  cases op with
  | syscall cpu id a env =>
    obtain ⟨-, hnew⟩ := hc
    refine ⟨hnew.fresh, hnew.counted, fun hm => ?_⟩
    rw [hnew.caps rfl]
    exact (SubMask.and_right _ _).trans (memberCaps h hm)
  | popPendingSignal cpu | scheduleNext cpu sp | pageFault cpu => exact hc.elim

lemma mem_following {tid : Nat} (hlt : tid < p.1.sched.nextTid) : tid ∈ (following p op).2 ↔ tid ∈ p.2 := by
  change tid ∈ p.2 ∪ _ ↔ _
  constructor
  · rintro (hold | ⟨-, hge, -⟩)
    · exact hold
    · omega
  · exact Or.inl

lemma step_below (h : Below M p) (hgrant : GrantsByMembers p op) (hclear : Clear watchCaps p.1 op) :
    Below M (following p op) := by
  have htids := TidsKept.of_kernelStep p.1 op
  refine ⟨htids.tids h.tids, ?_, fun slot t' ht' hmem => ?_⟩
  · rintro tid (hold | ⟨-, -, hlt⟩)
    · exact (h.live tid hold).trans_le htids.nextTid
    · exact hlt
  · rcases step_rights hclear ht' with ⟨t, ht, hc⟩ | hc
    · obtain ⟨htid, hsub⟩ := changedBy_caps h hgrant hc
      have hold : t.tid ∈ p.2 := by
        rw [htid] at hmem
        exact (mem_following (h.tids.tid_lt slot t ht)).mp hmem
      have hM := h.caps slot t ht hold
      exact hsub.trans (.or hM (.refl M))
    · obtain ⟨hfresh, -, hcaps⟩ := createdBy_caps h hc
      rcases hmem with hold | ⟨hm, -, -⟩
      · have := h.live _ hold
        omega
      · exact hcaps hm

lemma step_noGain {k : Kernel} (hk : Tids k.sched) (h : Below M p) (hgain : NoGain M k p)
    (hgrant : GrantsByMembers p op) (hclear : Clear watchCaps p.1 op) :
    NoGain M k (following p op) := by
  refine ⟨hgain.nextTid.trans (TidsKept.of_kernelStep p.1 op).nextTid, ?_⟩
  intro i t j v ht hv htid hout
  rcases step_rights hclear hv with ⟨u, hu, hc⟩ | hc
  · obtain ⟨hsame, hsub⟩ := changedBy_caps h hgrant hc
    have hold : u.tid ∉ p.2 := by
      rw [hsame] at hout
      exact fun hmem => hout (Or.inl hmem)
    have hbefore := hgain.caps i t j u ht hu (hsame.symm.trans htid) hold
    exact hsub.trans (.or hbefore (.right_or _ _))
  · obtain ⟨hfresh, -, -⟩ := createdBy_caps h hc
    have hlt := hk.tid_lt i t ht
    have hle := hgain.nextTid
    omega

end Step

lemma smallKernel_tasks {caps : BitVec 64} {slot : Slot} {t : Task}
    (h : (smallKernel caps).sched.tasks slot = some t) :
    slot = 0 ∧ t.tid = 0 ∨ slot = 1 ∧ t.tid = 1 ∧ t.capabilities = caps := by
  rcases placed_eq_some h with ⟨rfl, rfl⟩ | ⟨-, h⟩
  · exact Or.inr ⟨rfl, rfl, rfl⟩
  · rcases placed_eq_some h with ⟨rfl, rfl⟩ | ⟨-, h⟩
    · exact Or.inl ⟨rfl, rfl⟩
    · cases h

lemma smallKernel_tids (caps : BitVec 64) : Tids (smallKernel caps).sched := by
  constructor
  · intro i t h
    change t.tid < 2
    rcases smallKernel_tasks h with ⟨-, ht⟩ | ⟨-, ht, -⟩ <;> omega
  · intro i j t u hi hj heq
    rcases smallKernel_tasks hi with ⟨rfl, ht⟩ | ⟨rfl, ht, -⟩ <;>
      rcases smallKernel_tasks hj with ⟨rfl, hu⟩ | ⟨rfl, hu, -⟩ <;> first | rfl | omega

lemma smallKernel_below (caps : BitVec 64) : Below caps (smallKernel caps, {1}) := by
  refine ⟨smallKernel_tids caps, ?_, fun slot t h htid => ?_⟩
  · rintro tid rfl
    exact Nat.lt_succ_self 1
  · have htid' : t.tid = 1 := htid
    rcases smallKernel_tasks h with ⟨-, ht⟩ | ⟨-, -, hcaps⟩
    · omega
    · rw [hcaps]
      exact .refl caps

lemma storesClear_of_nil {w : Watch} {id : Nat} {a : Args} {env : Env}
    (ht : targets k cpu id a env = []) (hexec : accepted k cpu id ≠ some .exec) :
    StoresClear w k cpu id a env :=
  ⟨fun va hva => by simp [ht] at hva, fun h => absurd h hexec⟩

def grantAndClone : List KernelOp :=
  [.syscall 0 52 ⟨1, 2 ^ 64 - 1, 0, 0, 0, 0⟩ quietEnv, .syscall 0 83 ⟨0x1000, 0x2000, 2 ^ 64 - 1, 0, 0, 0⟩ quietEnv]

def watchRights : Watch := ⟨true, true⟩

def changesRights : Syscall → Bool
  | .capGrant | .capRevoke | .filterSet => true
  | _ => false

/-- A call that would set masks or filters, and that the filter lets through, comes from a
task without any capability. -/
def RightsCallsPowerless (k : Kernel) : KernelOp → Prop
  | .syscall cpu id _ _ => (Syscall.ofNumber id).any changesRights = true →
      passesFilter (k.sched.currentSyscallFilter cpu) id = true → k.sched.currentCaps cpu = 0
  | _ => True

lemma denied_powerless {call : Syscall} (h : changesRights call = true) : denied 0 call.required = true := by
  cases call <;> first | rfl | cases h

lemma dispatch_powerless {id : Nat} {a : Args} {env : Env}
    (hcall : (Syscall.ofNumber id).any changesRights = true)
    (hf : passesFilter (k.sched.currentSyscallFilter cpu) id = true) (hcaps : k.sched.currentCaps cpu = 0) :
    dispatch cpu id a env k = .ok (.value (-13), k) := by
  change (if (!passesFilter (k.sched.currentSyscallFilter cpu) id) = true then _ else _ : Call Reply) k = _
  rw [if_neg (by simp [hf])]
  obtain ⟨call, hid, hc⟩ := (any_eq_true _ _).mp hcall
  rw [hid]
  dsimp only
  rw [hcaps, if_pos (denied_powerless hc)]
  rfl

lemma accepted_powerless {id : Nat} {a : Args} {env : Env} {call : Syscall}
    (h : RightsCallsPowerless k (.syscall cpu id a env)) (hacc : accepted k cpu id = some call) :
    changesRights call = false := by
  unfold accepted at hacc
  split at hacc
  case isFalse => cases hacc
  case isTrue hf =>
    obtain ⟨hid, hden⟩ := filter_eq_some_iff.mp hacc
    by_contra hc
    rw [Bool.not_eq_false] at hc
    have hcaps := h (by rw [hid]; exact hc) hf
    rw [hcaps, denied_powerless hc] at hden
    cases hden

lemma changedBy_powerless (h : RightsCallsPowerless k op) {t t' : Task}
    (hc : ChangedBy watchRights k op t t') : SameRights t t' := by
  cases op with
  | syscall cpu id a env =>
    have hr : RightsBy watchRights k cpu id a t t' := hc
    have hno {call : Syscall} (hcall : changesRights call = true) : accepted k cpu id ≠ some call :=
      fun hacc => by simp [accepted_powerless h hacc] at hcall
    refine ⟨hr.tid, ?_, ?_⟩
    · rcases hr.caps rfl with heq | ⟨hacc, -⟩ | ⟨hacc, -⟩
      · exact heq
      · exact absurd hacc (hno rfl)
      · exact absurd hacc (hno rfl)
    · rcases hr.filter rfl with heq | ⟨hacc, -⟩
      · exact heq
      · exact absurd hacc (hno rfl)
  | popPendingSignal cpu | scheduleNext cpu sp | pageFault cpu =>
    have hu : Unchanged watchRights t t' := hc
    exact ⟨hu.tid, hu.caps rfl, hu.filter rfl⟩

structure RightsSince (k k' : Kernel) : Prop where
  tids : Tids k'.sched
  nextTid : k.sched.nextTid ≤ k'.sched.nextTid
  rights : ∀ i t j t', k.sched.tasks i = some t → k'.sched.tasks j = some t' → t'.tid = t.tid →
    SameRights t t'

lemma createdBy_fresh {w : Watch} {t' : Task} (h : CreatedBy w k op t') : k.sched.nextTid ≤ t'.tid := by
  cases op with
  | syscall cpu id a env => exact h.2.fresh
  | popPendingSignal cpu | scheduleNext cpu sp | pageFault cpu => exact h.elim

lemma step_rightsSince {k k' : Kernel} (hk : Tids k.sched) (h : RightsSince k k')
    (hp : RightsCallsPowerless k' op) (hclear : Clear watchRights k' op) :
    RightsSince k (k'.step op) := by
  have htids := TidsKept.of_kernelStep k' op
  refine ⟨htids.tids h.tids, h.nextTid.trans htids.nextTid, fun i t j v ht hv htid => ?_⟩
  rcases step_rights hclear hv with ⟨u, hu, hc⟩ | hc
  · have hsame := changedBy_powerless hp hc
    exact .trans t u v (h.rights i t j u ht hu (hsame.tid.symm.trans htid)) hsame
  · have hfresh := createdBy_fresh hc
    have hlt := hk.tid_lt i t ht
    have hle := h.nextTid
    omega

def revokeIdle : KernelOp := .syscall 0 53 ⟨0, 2 ^ 64 - 1, 0, 0, 0, 0⟩ quietEnv

def watchFilter : Watch := ⟨false, true⟩

def LeavesFilter (tid : Nat) (k : Kernel) : KernelOp → Prop
  | .syscall cpu id a _ => accepted k cpu id = some .filterSet → a.arg0 ≠ tid
  | _ => True

structure FilterHeld (tid : Nat) (F : BitVec 64 × BitVec 64) (k : Kernel) : Prop where
  tids : Tids k.sched
  counted : tid < k.sched.nextTid
  filter : ∀ slot t, k.sched.tasks slot = some t → t.tid = tid → t.syscallFilter = F

lemma step_filterHeld {tid : Nat} {F : BitVec 64 × BitVec 64} (h : FilterHeld tid F k)
    (hleaves : LeavesFilter tid k op) (hclear : Clear watchFilter k op) :
    FilterHeld tid F (k.step op) := by
  have htids := TidsKept.of_kernelStep k op
  refine ⟨htids.tids h.tids, h.counted.trans_le htids.nextTid, fun slot t' ht' htid => ?_⟩
  rcases step_rights hclear ht' with ⟨t, ht, hc⟩ | hc
  · cases op with
    | syscall cpu id a env =>
      have hr : RightsBy watchFilter k cpu id a t t' := hc
      have htid' : t.tid = tid := hr.tid.symm.trans htid
      rcases hr.filter rfl with heq | ⟨hacc, hset⟩
      · rw [heq, h.filter slot t ht htid']
      · exact absurd (hset.symm.trans htid') (hleaves hacc)
    | popPendingSignal cpu | scheduleNext cpu sp | pageFault cpu =>
      have hu : Unchanged watchFilter t t' := hc
      rw [hu.filter rfl, h.filter slot t ht (hu.tid.symm.trans htid)]
  · have hfresh := createdBy_fresh hc
    have hcounted := h.counted
    omega

lemma dispatch_filtered {id : Nat} (a : Args) (env : Env)
    (hf : passesFilter (k.sched.currentSyscallFilter cpu) id = false) :
    dispatch cpu id a env k = .ok (.value (-1), k) := by
  change (if (!passesFilter (k.sched.currentSyscallFilter cpu) id) = true then _ else _ : Call Reply) k = _
  rw [if_pos (by simp [hf])]
  rfl

def noYieldFilter : BitVec 64 × BitVec 64 := (allOnes64 ^^^ 8#64, allOnes64)

def noYield : Kernel :=
  { smallKernel Cap.mem with
    sched := (smallKernel Cap.mem).sched.modifyTask 1 fun t => { t with syscallFilter := noYieldFilter } }

lemma noYield_held : FilterHeld 1 noYieldFilter noYield := by
  have hset (t : Task) : Unchanged ⟨false, false⟩ t { t with syscallFilter := noYieldFilter } :=
    ⟨rfl, Bool.noConfusion, Bool.noConfusion⟩
  have hsame : TasksKept (Unchanged ⟨false, false⟩) (smallKernel Cap.mem).sched noYield.sched :=
    .of_related (modifyTask_related _ Unchanged.refl hset 1)
  refine ⟨(smallKernel_tids Cap.mem).inPlace (fun _ _ h => Unchanged.tid h) hsame rfl,
    Nat.lt_succ_self 1, fun slot t ht htid => ?_⟩
  obtain ⟨u, hu, hkept⟩ := hsame slot t ht
  rcases smallKernel_tasks hu with ⟨-, hu0⟩ | ⟨rfl, -, -⟩
  · have := hkept.tid
    omega
  · obtain rfl := some.inj ht
    rfl

def cloneAndSwitch : List KernelOp := [.syscall 0 83 ⟨0x1000, 0x2000, 0, 0, 0, 0⟩ quietEnv, .scheduleNext 0 0x8000]

end Aeglos.Proofs
