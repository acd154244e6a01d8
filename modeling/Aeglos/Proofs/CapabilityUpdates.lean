import Aeglos.Kernel.CapCalls
import Aeglos.Proofs.Footprints
import Aeglos.Proofs.SchedulerSteps

/-!
# Concurrent capability updates

The mask of a task is read and written under separate locks.
-/

namespace Aeglos.Proofs

open Sched TransitionSystem Transactions Effects Call List Option Function

lemma sysCapGrant_atomic (cpu : Cpu) (tid : Nat) (capBits : BitVec 64) (k : Kernel) :
    sysCapGrant cpu tid capBits k =
      .ok ((((CapCall.grant cpu capBits).transaction tid).atomic k.sched).1,
        { k with sched := (((CapCall.grant cpu capBits).transaction tid).atomic k.sched).2 }) := by
  rw [sysCapGrant, get_bind_apply]
  simp only [Transaction.atomic, CapCall.transaction, map_cons, map_nil]
  cases k.sched.getTaskCaps tid with
  | none => rfl
  | some existing => rfl

lemma sysCapRevoke_atomic (tid : Nat) (capBits : BitVec 64) (k : Kernel) :
    sysCapRevoke tid capBits k =
      .ok ((((CapCall.revoke capBits).transaction tid).atomic k.sched).1,
        { k with sched := (((CapCall.revoke capBits).transaction tid).atomic k.sched).2 }) := by
  rw [sysCapRevoke, get_bind_apply]
  simp only [Transaction.atomic, CapCall.transaction, map_cons, map_nil]
  cases k.sched.getTaskCaps tid with
  | none => rfl
  | some existing => rfl

lemma findTid_modifyTid {f : Task → Task} (hf : ∀ t, (f t).tid = t.tid) (s : Sched) (tid other : Nat) :
    (s.modifyTid tid f).2.findTid other = s.findTid other := by
  unfold modifyTid
  split
  · rfl
  · exact SlotTable.find_modify (fun t => by rw [hf]) s.tasks _

lemma getTaskCaps_storeCaps {s : Sched} {tid : Nat} {caps : BitVec 64}
    (h : s.getTaskCaps tid = some caps) (newCaps : BitVec 64) :
    (storeCaps tid newCaps s).1 = 0 ∧ (storeCaps tid newCaps s).2.getTaskCaps tid = some newCaps := by
  unfold getTaskCaps at h ⊢
  rw [map_eq_some_iff] at h
  obtain ⟨t, ht, -⟩ := h
  obtain ⟨slot, hslot, ht⟩ := bind_eq_some_iff.mp ht
  have hfind : (storeCaps tid newCaps s).2.findTid tid = some slot :=
    (findTid_modifyTid (f := fun t => { t with capabilities := newCaps }) (fun _ => rfl) s tid tid).trans
      hslot
  have hset : s.setTaskCaps tid newCaps =
      (true, s.modifyTask slot fun t => { t with capabilities := newCaps }) := by
    rw [setTaskCaps, modifyTid, hslot]
  have hnew : (storeCaps tid newCaps s).2.tasks slot = some { t with capabilities := newCaps } := by
    rw [storeCaps, hset]
    change SlotTable.modify s.tasks slot _ slot = _
    rw [SlotTable.modify_self, ht]
    rfl
  rw [hfind, bind_some, hnew]
  refine ⟨?_, rfl⟩
  rw [storeCaps, hset]
  rfl

section Runs

variable {n : Nat} (tid : Nat) (calls : Fin n → CapCall) {i : Fin n} {s : Sched}

def capTransactions : Fin n → Transaction Sched (Option (BitVec 64)) Int := fun i => (calls i).transaction tid

abbrev CapRun (n : Nat) := Shared (Fin n) Sched (Option (BitVec 64)) Int

/-- The grant `j` has set the bit: it was asked to, and its caller held the bit. -/
def GrantsBit (m : CapRun n) (j : Fin n) (bit : Nat) : Prop :=
  ∃ cpu capBits grantorCaps, calls j = .grant cpu capBits ∧
    (m.progress j).values.head? = some (some grantorCaps) ∧
    (capBits &&& grantorCaps).getLsbD bit = true

def RevokedClear (m : CapRun n) : Prop :=
  ∀ i capBits bit caps, calls i = .revoke capBits → capBits.getLsbD bit = true →
    (m.progress i).result = some 0 → (∀ j ∈ m.finished, ¬GrantsBit calls m j bit) →
    m.state.getTaskCaps tid = some caps → caps.getLsbD bit = false

def MaskOfSomeOrder (s : Sched) (m : CapRun n) : Prop :=
  ∃ order : List (Fin n), order.Perm (List.finRange n) ∧
    m.state.getTaskCaps tid = (serially (capTransactions tid calls) s order).getTaskCaps tid

def newMask (s : Sched) (mask : BitVec 64) : CapCall → BitVec 64
  | .grant cpu capBits => mask ||| (capBits &&& s.currentCaps cpu)
  | .revoke capBits => mask &&& ~~~capBits

variable {tid calls}

lemma finish_caps {m : CapRun n} {mask : BitVec 64}
    (hmask : m.state.getTaskCaps tid = some mask)
    (hread : (m.progress i).values = (capTransactions tid calls i).reads.map (· m.state)) :
    (lastSection (capTransactions tid calls) m i).state.getTaskCaps tid =
      some (newMask m.state mask (calls i)) := by
  simp only [lastSection, hread]
  unfold capTransactions CapCall.transaction
  cases calls i with
  | grant cpu capBits =>
    simp only [map_cons, map_nil, hmask, CapCall.finishGrant]
    exact (getTaskCaps_storeCaps hmask _).2
  | revoke capBits =>
    simp only [map_cons, map_nil, hmask, CapCall.finishRevoke]
    exact (getTaskCaps_storeCaps hmask _).2

lemma live_finish {m : CapRun n}
    (hlive : (m.state.getTaskCaps tid).isSome = true) :
    ((lastSection (capTransactions tid calls) m i).state.getTaskCaps tid).isSome = true := by
  obtain ⟨mask, hmask⟩ := isSome_iff_exists.mp hlive
  have hstore (caps : BitVec 64) : ((storeCaps tid caps m.state).2.getTaskCaps tid).isSome = true := by
    rw [(getTaskCaps_storeCaps hmask caps).2]
    rfl
  simp only [lastSection]
  unfold capTransactions CapCall.transaction
  cases calls i with
  | grant cpu capBits =>
    dsimp only
    unfold CapCall.finishGrant
    split
    · exact hstore _
    · exact hlive
  | revoke capBits =>
    dsimp only
    unfold CapCall.finishRevoke
    split
    · exact hstore _
    · exact hlive

structure CapInv (tid : Nat) (calls : Fin n → CapCall) (s : Sched) (m : CapRun n) : Prop extends
    Serial (capTransactions tid calls) s m where
  live : (m.state.getTaskCaps tid).isSome = true
  clear : RevokedClear tid calls m

lemma grantsBit_congr {m m' : CapRun n} {j : Fin n} {bit : Nat}
    (h : m'.progress j = m.progress j) : GrantsBit calls m' j bit ↔ GrantsBit calls m j bit := by
  simp only [GrantsBit, h]

lemma progress_finished {m : CapRun n} {i j : Fin n} {p : Progress (Option (BitVec 64)) Int}
    (h : Serial (capTransactions tid calls) s m) (hj : j ∈ m.finished)
    (hi : (m.progress i).result = none) : Function.update m.progress i p j = m.progress j := by
  refine update_of_ne (fun hji => ?_) ..
  subst hji
  have hsome := (h.finished j).mp hj
  rw [hi] at hsome
  cases hsome

lemma read_clear {m : CapRun n} (h : CapInv tid calls s m)
    (hnone : (m.progress i).result = none) (look : Sched → Option (BitVec 64)) :
    RevokedClear tid calls (readSection m i look) := by
  intro k capBits bit caps hcall hbit hres hgrants hcaps
  have hki : k ≠ i := by
    rintro rfl
    simp [readSection] at hres
  have hkeep : (readSection m i look).progress k = m.progress k := update_of_ne hki ..
  rw [hkeep] at hres
  refine h.clear k capBits bit caps hcall hbit hres (fun j hj hgrant => hgrants j hj ?_) hcaps
  exact (grantsBit_congr (progress_finished h.toSerial hj hnone)).mpr hgrant

lemma finish_clear {m : CapRun n} (h : CapInv tid calls s m)
    (hnone : (m.progress i).result = none)
    (hread : (m.progress i).values = (capTransactions tid calls i).reads.map (· m.state)) :
    RevokedClear tid calls (lastSection (capTransactions tid calls) m i) := by
  intro k capBits bit caps hcall hbit hres hgrants hcaps
  obtain ⟨mask, hmask⟩ := isSome_iff_exists.mp h.live
  obtain rfl := some.inj (hcaps.symm.trans (finish_caps hmask hread))
  by_cases hki : k = i
  · subst hki
    simp [hcall, newMask, hbit]
  -- the bit was clear before, and this call does not set it
  have hkeep : (lastSection (capTransactions tid calls) m i).progress k = m.progress k :=
    update_of_ne hki ..
  rw [hkeep] at hres
  have hold : mask.getLsbD bit = false := by
    refine h.clear k capBits bit mask hcall hbit hres (fun j hj hgrant => ?_) hmask
    exact hgrants j (mem_append_left [i] hj)
      ((grantsBit_congr (progress_finished h.toSerial hj hnone)).mpr hgrant)
  cases hi : calls i with
  | revoke bits => simp [newMask, hold]
  | grant cpu bits =>
    have hsafe : (bits &&& m.state.currentCaps cpu).getLsbD bit = false := by
      by_contra hset
      refine hgrants i (mem_append_right _ (mem_singleton_self i))
        ⟨cpu, bits, m.state.currentCaps cpu, hi, ?_, by simpa using hset⟩
      simp [lastSection, hread, capTransactions, hi, CapCall.transaction]
    simp only [newMask, BitVec.getLsbD_or, hold, hsafe, Bool.or_self]

lemma advance_capInv (m : CapRun n) (i : Fin n) (h : CapInv tid calls s m)
    (hu : Undisturbed (capTransactions tid calls) m i) :
    CapInv tid calls s (advance (capTransactions tid calls) m i) := by
  have hserial := advance_serial _ m i h.toSerial hu
  have hstep := advanced (capTransactions tid calls) m i
  generalize advance (capTransactions tid calls) m i = m' at hstep hserial ⊢
  cases hstep with
  | idle => exact h
  | reads look hnone => exact ⟨hserial, h.live, read_clear h hnone look⟩
  | finishes hnone hlen => exact ⟨hserial, live_finish h.live, finish_clear h hnone (hu hnone hlen)⟩

end Runs

theorem capability_updates_serializable {n : Nat} (tid : Nat) (calls : Fin n → CapCall) (s : Sched)
    (turns : List (Fin n)) (hlive : (s.getTaskCaps tid).isSome = true)
    (hguard : Guarded (advance (capTransactions tid calls)) (Undisturbed (capTransactions tid calls))
      (Shared.start s) turns)
    (hdone : ∀ i, ((run (advance (capTransactions tid calls)) (Shared.start s) turns).progress
      i).result.isSome = true) :
    MaskOfSomeOrder tid calls s (run (advance (capTransactions tid calls)) (Shared.start s) turns) ∧
      RevokedClear tid calls (run (advance (capTransactions tid calls)) (Shared.start s) turns) := by
  have hstart : CapInv tid calls s (Shared.start s) :=
    ⟨start_serial _ s, hlive, fun k _ _ _ _ _ hres => by cases hres⟩
  have hrun := run_invariant advance_capInv hstart hguard
  refine ⟨⟨_, ?_, congrArg (·.getTaskCaps tid) hrun.state⟩, hrun.clear⟩
  refine (perm_ext_iff_of_nodup hrun.nodup (nodup_finRange n)).mpr fun i => ?_
  exact ⟨fun _ => mem_finRange i, fun _ => (hrun.finished i).mpr (hdone i)⟩

def revokeAndGrant : Fin 2 → CapCall
  | 0 => .revoke 1
  | 1 => .grant 0 2

def oneTask : Sched := run Sched.step smallBoot [.init, .spawn [0x61] 0x1000]

instance undisturbedDecidable (m : CapRun 2) (i : Fin 2) :
    Decidable (Undisturbed (capTransactions 1 revokeAndGrant) m i) :=
  inferInstanceAs (Decidable ((m.progress i).result = none →
    (capTransactions 1 revokeAndGrant i).reads.length ≤ (m.progress i).values.length →
      (m.progress i).values = (capTransactions 1 revokeAndGrant i).reads.map (· m.state)))

theorem capability_updates_in_turn :
    MaskOfSomeOrder 1 revokeAndGrant oneTask
        (run (advance (capTransactions 1 revokeAndGrant)) (Shared.start oneTask) [1, 0, 0, 1, 1]) ∧
      RevokedClear 1 revokeAndGrant
        (run (advance (capTransactions 1 revokeAndGrant)) (Shared.start oneTask) [1, 0, 0, 1, 1]) :=
  capability_updates_serializable 1 revokeAndGrant oneTask [1, 0, 0, 1, 1] (by decide +kernel)
    (by decide +kernel) (by decide +kernel)

def overlapping : CapRun 2 :=
  run (advance (capTransactions 1 revokeAndGrant)) (Shared.start oneTask) [0, 1, 1, 0, 1]

lemma overlapping_caps : overlapping.state.getTaskCaps 1 = some allOnes64 := by decide +kernel

/-- The grant stores the mask from before the revocation, so the revoked bit is set again. -/
theorem revocation_lost :
    (∀ i, (overlapping.progress i).result = some 0) ∧
      ¬MaskOfSomeOrder 1 revokeAndGrant oneTask overlapping ∧
      ¬RevokedClear 1 revokeAndGrant overlapping := by
  refine ⟨by decide +kernel, ?_, fun h => ?_⟩
  · rintro ⟨order, hperm, hmask⟩
    have horder : order = [0, 1] ∨ order = [1, 0] := by
      have hlist : (List.finRange 2).permutations' = [[0, 1], [1, 0]] := by decide
      have hmem := mem_permutations'.mpr hperm
      rw [hlist] at hmem
      simpa using hmem
    rw [overlapping_caps] at hmask
    rcases horder with rfl | rfl
    · exact absurd hmask (by decide +kernel)
    · exact absurd hmask (by decide +kernel)
  · have hbit := h 0 1 0 allOnes64 rfl (by decide) (by decide +kernel) (fun j _ hgrant => ?_)
      overlapping_caps
    · exact absurd hbit (by decide)
    · obtain ⟨cpu, capBits, grantorCaps, hcall, -, hset⟩ := hgrant
      fin_cases j
      · cases hcall
      · cases hcall
        simp at hset

end Aeglos.Proofs
