import Aeglos.Proofs.SchedulerSteps

/-!
# The choice of the next task

`schedule_next` looks through the slots after the outgoing one three times.
-/

namespace Aeglos.Proofs

open Sched TransitionSystem List Option Function

variable {tasks : Slot → Option Task} {c : Cpu} {t : Task} {start k : Slot}

def Eligible (c : Cpu) (t : Task) : Prop := t.state = .ready ∧ (t.cpuPin = none ∨ t.cpuPin = some c)

/-- The class of an eligible task: real tasks of this CPU, real tasks of no CPU, the rest. -/
def choiceClass (c : Cpu) (t : Task) : Nat :=
  if t.stackBase ≠ 0 ∧ t.cpuPin = some c then 0
  else if t.stackBase ≠ 0 ∧ t.cpuPin = none then 1
  else 2

def stepsAfter (start j : Slot) : Nat := (j - start).val

def FirstOfBest (tasks : Slot → Option Task) (c : Cpu) (start k : Slot) (t : Task) : Prop :=
  ∀ j u, j ≠ start → tasks j = some u → Eligible c u →
    choiceClass c t < choiceClass c u ∨
      choiceClass c t = choiceClass c u ∧ stepsAfter start k ≤ stepsAfter start j

lemma stepsAfter_others (start : Slot) {i : Nat} (hi : i < 15) :
    stepsAfter start (Fin.ofNat maxTasks (start.val + 1 + i)) = i + 1 := by
  have hlt : start.val < 16 := start.isLt
  simp only [stepsAfter, Fin.sub_def, Fin.ofNat]
  change (16 - start.val + (start.val + 1 + i) % 16) % 16 = i + 1
  omega

lemma slot_of_steps {start j : Slot} (hj : j ≠ start) : ∃ i < 15, j = Fin.ofNat maxTasks (start.val + 1 + i) := by
  obtain ⟨i, hi, rfl⟩ := mem_map.mp (mem_others.mpr hj)
  exact ⟨i, mem_range.mp hi, rfl⟩

lemma scanFrom_first {start k j : Slot} {p : Task → Bool}
    (h : scanFrom tasks start p = some k) (hj : j ≠ start) (hp : (tasks j).any p = true) :
    stepsAfter start k ≤ stepsAfter start j := by
  simp only [scanFrom, others, find?_map, map_eq_some_iff] at h
  obtain ⟨i, hfind, rfl⟩ := h
  obtain ⟨-, hi, hbefore⟩ := find?_range_eq_some.mp hfind
  obtain ⟨i', hi', rfl⟩ := slot_of_steps hj
  rw [stepsAfter_others start (mem_range.mp hi), stepsAfter_others start hi']
  by_contra hlt
  have hmiss := hbefore i' (by omega)
  simp only [comp_apply, hp] at hmiss
  cases hmiss

lemma any_at {j : Slot} {u : Task} (hu : tasks j = some u) (p : Task → Bool) : (tasks j).any p = p u := by
  rw [hu]
  rfl

lemma scanFrom_none {start j : Slot} {u : Task} {p : Task → Bool}
    (h : scanFrom tasks start p = none) (hj : j ≠ start) (hu : tasks j = some u) : p u ≠ true := by
  have hmiss := find?_eq_none.mp h j (mem_others.mpr hj)
  rwa [any_at hu] at hmiss

lemma anyReady_iff : anyReady c t = true ↔ Eligible c t := by
  simp [anyReady, Eligible]

lemma pinnedReady_iff : pinnedReady c t = true ↔ Eligible c t ∧ choiceClass c t = 0 := by
  unfold pinnedReady Eligible choiceClass
  by_cases hb : t.stackBase = 0 <;> by_cases hp : t.cpuPin = some c <;> simp [hb, hp]
  intro _ _
  split <;> decide

lemma migratableReady_iff : migratableReady t = true ↔ Eligible c t ∧ choiceClass c t = 1 := by
  unfold migratableReady Eligible choiceClass
  by_cases hb : t.stackBase = 0 <;> by_cases hp : t.cpuPin = none <;> simp [hb, hp]
  intro _ _
  split <;> decide

lemma choiceClass_le (c : Cpu) (t : Task) : choiceClass c t ≤ 2 := by
  unfold choiceClass
  split
  · decide
  · split <;> decide

lemma pickNext_first
    (h : pickNext tasks c start = some k) :
    ∃ t, tasks k = some t ∧ Eligible c t ∧ FirstOfBest tasks c start k t := by
  obtain ⟨-, hany⟩ := pickNext_some h
  obtain ⟨t, ht, hready⟩ := (any_eq_true _ _).mp hany
  refine ⟨t, ht, anyReady_iff.mp hready, fun j u hj hu helig => ?_⟩
  unfold pickNext at h
  rcases or_eq_some_iff.mp h with h1 | ⟨hno1, h23⟩
  · have hclass := (pinnedReady_iff.mp ((any_at ht _).symm.trans (scanFrom_some h1).2)).2
    rcases Nat.eq_zero_or_pos (choiceClass c u) with hu0 | hpos
    · refine Or.inr ⟨hclass.trans hu0.symm, scanFrom_first h1 hj ?_⟩
      exact (any_at hu _).trans (pinnedReady_iff.mpr ⟨helig, hu0⟩)
    · exact Or.inl (hclass ▸ hpos)
  -- no task of the first class is left, so the others are at least in the second
  have hclass0 : ∀ {v : Task} {i : Slot}, i ≠ start → tasks i = some v → Eligible c v →
      choiceClass c v ≠ 0 := fun hi hv hve hzero =>
    scanFrom_none hno1 hi hv (pinnedReady_iff.mpr ⟨hve, hzero⟩)
  rcases or_eq_some_iff.mp h23 with h2 | ⟨hno2, h3⟩
  · have hclass := (migratableReady_iff (c := c)).mp ((any_at ht _).symm.trans (scanFrom_some h2).2)
    have hu0 := hclass0 hj hu helig
    rcases Nat.lt_or_ge 1 (choiceClass c u) with hlt | hle
    · exact Or.inl (hclass.2 ▸ hlt)
    · have hu1 : choiceClass c u = 1 := by omega
      refine Or.inr ⟨hclass.2.trans hu1.symm, scanFrom_first h2 hj ?_⟩
      exact (any_at hu _).trans (migratableReady_iff.mpr ⟨helig, hu1⟩)
  have hclass2 : ∀ {v : Task} {i : Slot}, i ≠ start → tasks i = some v → Eligible c v →
      choiceClass c v = 2 := by
    intro v i hi hv hve
    have hle := choiceClass_le c v
    have hv0 := hclass0 hi hv hve
    have hv1 : choiceClass c v ≠ 1 := fun hone =>
      scanFrom_none hno2 hi hv (migratableReady_iff.mpr ⟨hve, hone⟩)
    omega
  refine Or.inr ⟨?_, scanFrom_first h3 hj ((any_at hu _).trans (anyReady_iff.mpr helig))⟩
  rw [hclass2 hj hu helig]
  exact hclass2 (scanFrom_some h3).1 ht (anyReady_iff.mp hready)

structure Switched (s s' : Sched) (start k : Slot) (t : Task) : Prop where
  running : ∃ t', s'.tasks k = some t' ∧ t'.state = .running ∧
    t'.ticksRemaining = max t.priority 1 ∧ t'.priority = t.priority
  others : ∀ j, j ≠ start → j ≠ k → s'.tasks j = s.tasks j

lemma switchTo_switched {s reset : Sched} {sp : Nat}
    (h : pickNext (s.charge start sp).tasks c start = some k)
    (hr : reset = s.charge start sp ∨ reset = (s.charge start sp).modifyTask start resetQuantum)
    (ht : s.tasks k = some t) : Switched s (reset.switchTo c k) start k t where
  running := by
    obtain ⟨-, -, hk⟩ := switches_idx h hr
    refine ⟨setRunning t, ?_, rfl, rfl, rfl⟩
    change SlotTable.modify reset.tasks k setRunning k = some (setRunning t)
    rw [SlotTable.modify_self, hk, ht]
    rfl
  others j hj hjk := by
    change SlotTable.modify reset.tasks k setRunning j = s.tasks j
    rw [SlotTable.modify_of_ne _ hjk]
    rcases hr with rfl | rfl
    · exact charge_tasks_of_ne hj sp
    · exact (SlotTable.modify_of_ne _ hj _).trans (charge_tasks_of_ne hj sp)

lemma firstOfBest_charge {s : Sched} {sp : Nat}
    (h : FirstOfBest (s.charge start sp).tasks c start k t) : FirstOfBest s.tasks c start k t :=
  fun j u hj hu helig => h j u hj ((charge_tasks_of_ne hj sp).trans hu) helig

/-- Round robin: the first task after `start` in the best class comes next, in a fresh quantum. -/
theorem round_robin_choice (s : Sched) (c : Cpu) (sp : Nat) (start k : Slot)
    (hactive : s.active = true) (hstart : s.current c = some start)
    (hchanged : (s.scheduleNext c sp).1.current c = some k) (hne : k ≠ start) :
    ∃ t, s.tasks k = some t ∧ Eligible c t ∧ FirstOfBest s.tasks c start k t ∧
      Switched s (s.scheduleNext c sp).1 start k t := by
  have hs := scheduled s c sp
  generalize (s.scheduleNext c sp).1 = s' at hs hchanged ⊢
  have hstays : s.current c ≠ some k := fun hcur => hne (some.inj (hcur.symm.trans hstart))
  cases hs with
  | inactive h => exact absurd (h.symm.trans hactive) (by decide)
  | noTask _ h => exact absurd (h.symm.trans hstart) (by simp)
  | keeps cur => exact absurd hchanged hstays
  | stays cur => exact absurd hchanged hstays
  | switches cur idx reset _ hc _ hpick hr =>
    obtain rfl : cur = start := some.inj (hc.symm.trans hstart)
    obtain rfl : idx = k := by
      have hcurrent : (reset.switchTo c idx).current c = some idx := update_self ..
      exact some.inj (hcurrent.symm.trans hchanged)
    obtain ⟨hidx, -, -⟩ := switches_idx hpick hr
    obtain ⟨t, ht, helig, hfirst⟩ := pickNext_first hpick
    rw [charge_tasks_of_ne hidx] at ht
    exact ⟨t, ht, helig, firstOfBest_charge hfirst, switchTo_switched hpick hr ht⟩

def startedRun : List SchedOp := [.init, .spawn [0x61] 0x1000]

theorem round_robin_choice_started :
    ∃ t, (run Sched.step smallBoot startedRun).tasks 1 = some t ∧ Eligible 0 t ∧
      FirstOfBest (run Sched.step smallBoot startedRun).tasks 0 0 1 t ∧
      Switched (run Sched.step smallBoot startedRun)
        ((run Sched.step smallBoot startedRun).scheduleNext 0 0x9000).1 0 1 t :=
  round_robin_choice (run Sched.step smallBoot startedRun) 0 0x9000 0 1 (by decide +kernel)
    (by decide +kernel) (by decide +kernel) (by decide)

def isIdle (t : Task) : Bool := t.stackBase == 0

def realFor (c : Cpu) (t : Task) : Bool := !isIdle t && (t.cpuPin.isNone || t.cpuPin == some c)

/-- The task could use the CPU: it is Ready or the CPU was on it. With `elsewhere`, tasks
that another CPU is on count as well. -/
def Wanting (elsewhere : Bool) (c : Cpu) (start i : Slot) (t : Task) : Prop :=
  realFor c t = true ∧ (t.state = .ready ∨ t.state = .running ∧ (i = start ∨ elsewhere = true))

def IdleForNothing (s : Sched) (c : Cpu) (sp : Nat) (start : Slot) (elsewhere : Bool) : Prop :=
  ((s.scheduleNext c sp).1.currentTask c).any isIdle = true →
    ∀ i t, s.tasks i = some t → ¬Wanting elsewhere c start i t

def OtherReady (s : Sched) (c : Cpu) (start : Slot) (p : Task → Bool) : Prop :=
  ∃ j t, j ≠ start ∧ s.tasks j = some t ∧ Eligible c t ∧ p t = true

def KeepsTurn (s : Sched) (cur : Task) : Prop := s.active = false ∨ keepsCpu cur = true

def GoesIdle (s : Sched) (c : Cpu) (start : Slot) (cur : Task) : Prop :=
  KeepsTurn s cur ∧ isIdle cur = true ∨
    ¬KeepsTurn s cur ∧ ¬OtherReady s c start (fun t => !isIdle t) ∧
      (isIdle cur = true ∨ OtherReady s c start isIdle)

lemma choiceClass_idle (h : Eligible c t) : choiceClass c t = 2 ↔ isIdle t = true := by
  unfold choiceClass isIdle
  rcases h.2 with hp | hp <;> by_cases hb : t.stackBase = 0 <;> simp [hp, hb]

lemma isIdle_chargeTick (sp : Nat) (t : Task) : isIdle (chargeTick sp t) = isIdle t := by
  unfold chargeTick
  split <;> rfl

section AfterCall

variable {s : Sched} {c : Cpu} {sp : Nat} {start : Slot} {cur : Task}

lemma charge_cur (hcur : s.tasks start = some cur) :
    (s.charge start sp).tasks start = some (chargeTick sp cur) := by
  change SlotTable.modify s.tasks start (chargeTick sp) start = _
  rw [SlotTable.modify_self, hcur]
  rfl

lemma keepsTurn_of_any (hcur : s.tasks start = some cur) (h : (s.tasks start).any keepsCpu = true) :
    KeepsTurn s cur := Or.inr ((any_at hcur _).symm.trans h)

lemma not_keepsTurn (hcur : s.tasks start = some cur) (hactive : s.active = true)
    (h : (s.tasks start).any keepsCpu = false) : ¬KeepsTurn s cur := by
  rintro (hoff | hkeep)
  · exact absurd (hoff.symm.trans hactive) (by decide)
  · exact absurd (hkeep.symm.trans ((any_at hcur _).symm.trans h)) (by decide)

lemma idle_after_iff (hc : s.current c = some start) (hcur : s.tasks start = some cur) :
    ((s.scheduleNext c sp).1.currentTask c).any isIdle = true ↔ GoesIdle s c start cur := by
  have hs := scheduled s c sp
  generalize (s.scheduleNext c sp).1 = s' at hs ⊢
  -- the task that is current afterwards decides, and so does whether it keeps the CPU
  have hkept : ∀ {u : Task}, KeepsTurn s cur → s'.currentTask c = some u → isIdle u = isIdle cur →
      ((s'.currentTask c).any isIdle = true ↔ GoesIdle s c start cur) := by
    intro u hkeep hu hidle
    rw [hu, Option.any_some, hidle]
    exact ⟨fun h => Or.inl ⟨hkeep, h⟩, fun h => h.elim (·.2) fun h' => absurd hkeep h'.1⟩
  cases hs with
  | inactive h =>
    refine hkept (u := cur) (Or.inl h) ?_ rfl
    rw [currentTask, hc, Option.bind_some, hcur]
  | noTask _ h => exact absurd (h.symm.trans hc) (by simp)
  | keeps cur' _ hc' h =>
    obtain rfl : cur' = start := Option.some.inj (hc'.symm.trans hc)
    refine hkept (keepsTurn_of_any hcur h) ?_ (isIdle_chargeTick sp cur)
    change (s.current c).bind (s.charge cur' sp).tasks = _
    rw [hc, Option.bind_some, charge_cur hcur]
  | stays cur' ha hc' hk hpick =>
    obtain rfl : cur' = start := Option.some.inj (hc'.symm.trans hc)
    have hnone : ∀ p, ¬OtherReady s c cur' p := by
      rintro p ⟨j, t, hj, ht, helig, -⟩
      have hmiss := pickNext_none.mp hpick j hj
      rw [charge_tasks_of_ne hj, any_at ht, anyReady_iff.mpr helig] at hmiss
      cases hmiss
    have hnow : ((s.charge cur' sp).modifyTask cur' setRunning).currentTask c =
        some (setRunning (chargeTick sp cur)) := by
      change (s.current c).bind (SlotTable.modify (s.charge cur' sp).tasks cur' setRunning) = _
      rw [hc, Option.bind_some, SlotTable.modify_self, charge_cur hcur]
      rfl
    have hidle : isIdle (setRunning (chargeTick sp cur)) = isIdle cur := isIdle_chargeTick sp cur
    rw [hnow, Option.any_some, hidle]
    refine ⟨fun h => Or.inr ⟨not_keepsTurn hcur ha hk, hnone _, Or.inl h⟩, ?_⟩
    rintro (⟨hkeep, -⟩ | ⟨-, -, h | h⟩)
    · exact absurd hkeep (not_keepsTurn hcur ha hk)
    · exact h
    · exact absurd h (hnone _)
  | switches cur' idx reset ha hc' hk hpick hr =>
    obtain rfl : cur' = start := Option.some.inj (hc'.symm.trans hc)
    obtain ⟨hidx, -, hreset⟩ := switches_idx hpick hr
    obtain ⟨t, ht, helig, hfirst⟩ := pickNext_first hpick
    rw [charge_tasks_of_ne hidx] at ht
    have hnow : (reset.switchTo c idx).currentTask c = some (setRunning t) := by
      change (Function.update reset.current c (some idx) c).bind
        (SlotTable.modify reset.tasks idx setRunning) = _
      rw [update_self, Option.bind_some, SlotTable.modify_self, hreset, ht]
      rfl
    have hidle : isIdle (setRunning t) = isIdle t := rfl
    rw [hnow, Option.any_some, hidle]
    constructor
    · intro h
      refine Or.inr ⟨not_keepsTurn hcur ha hk, ?_, Or.inr ⟨idx, t, hidx, ht, helig, h⟩⟩
      rintro ⟨j, u, hj, hu, hue, hreal⟩
      have htwo := (choiceClass_idle helig).mpr h
      have hle := choiceClass_le c u
      have hu2 : choiceClass c u = 2 := by
        rcases firstOfBest_charge hfirst j u hj hu hue with hlt | ⟨heq, -⟩ <;> omega
      have hbusy : isIdle u = false := by simpa using hreal
      exact absurd (hbusy.symm.trans ((choiceClass_idle hue).mp hu2)) (by decide)
    · rintro (⟨hkeep, -⟩ | ⟨-, hnoReal, -⟩)
      · exact absurd hkeep (not_keepsTurn hcur ha hk)
      · by_contra hreal
        exact hnoReal ⟨idx, t, hidx, ht, helig, by simpa using hreal⟩

end AfterCall

/-- A task that wants the CPU goes without it: an idle stub has it or gets it, or the task is on another CPU.
-/
def Neglects (s : Sched) (c : Cpu) (start : Slot) (cur : Task) (elsewhere : Bool) : Prop :=
  KeepsTurn s cur ∧ isIdle cur = true ∧
      (∃ j t, j ≠ start ∧ s.tasks j = some t ∧ Wanting elsewhere c start j t) ∨
    ¬KeepsTurn s cur ∧ ¬OtherReady s c start (fun t => !isIdle t) ∧
      (OtherReady s c start isIdle ∧ Wanting elsewhere c start start cur ∨
        (isIdle cur = true ∨ OtherReady s c start isIdle) ∧ elsewhere = true ∧
          ∃ j t, j ≠ start ∧ s.tasks j = some t ∧ realFor c t = true ∧ t.state = .running)

lemma realFor_busy (h : realFor c t = true) : isIdle t = false := by
  simp only [realFor, Bool.and_eq_true, Bool.not_eq_true'] at h
  exact h.1

lemma realFor_eligible (hreal : realFor c t = true) (hready : t.state = .ready) : Eligible c t := by
  simp only [realFor, Bool.and_eq_true, Bool.or_eq_true, isNone_iff_eq_none, beq_iff_eq] at hreal
  exact ⟨hready, hreal.2⟩

theorem idle_choice_iff (s : Sched) (c : Cpu) (sp : Nat) (start : Slot) (cur : Task)
    (elsewhere : Bool) (hc : s.current c = some start) (hcur : s.tasks start = some cur) :
    IdleForNothing s c sp start elsewhere ↔ ¬Neglects s c start cur elsewhere := by
  rw [IdleForNothing, idle_after_iff hc hcur]
  constructor
  · rintro h (⟨hkeep, hidle, j, t, -, ht, hw⟩ | ⟨hkeep, hnone, hcase⟩)
    · exact h (Or.inl ⟨hkeep, hidle⟩) j t ht hw
    · rcases hcase with ⟨hstub, hw⟩ | ⟨hgoes, helse, j, t, -, ht, hreal, hrun⟩
      · exact h (Or.inr ⟨hkeep, hnone, Or.inr hstub⟩) start cur hcur hw
      · exact h (Or.inr ⟨hkeep, hnone, hgoes⟩) j t ht ⟨hreal, Or.inr ⟨hrun, Or.inr helse⟩⟩
  · intro h hgoes i t ht hw
    refine h ?_
    by_cases hi : i = start
    · -- the outgoing task is no idle stub, so another slot holds the one it makes way for
      subst hi
      obtain rfl : t = cur := some.inj (ht.symm.trans hcur)
      rcases hgoes with ⟨-, hidle⟩ | ⟨hkeep, hnone, hidle | hstub⟩
      · exact absurd ((realFor_busy hw.1).symm.trans hidle) (by decide)
      · exact absurd ((realFor_busy hw.1).symm.trans hidle) (by decide)
      · exact Or.inr ⟨hkeep, hnone, Or.inl ⟨hstub, hw⟩⟩
    · rcases hgoes with ⟨hkeep, hidle⟩ | ⟨hkeep, hnone, hstub⟩
      · exact Or.inl ⟨hkeep, hidle, i, t, hi, ht, hw⟩
      · obtain ⟨hreal, hready | ⟨hrun, hwhere⟩⟩ := hw
        · have hbusy := realFor_busy hreal
          exact absurd ⟨i, t, hi, ht, realFor_eligible hreal hready, by simp [hbusy]⟩ hnone
        · have helse : elsewhere = true := hwhere.resolve_left hi
          exact Or.inr ⟨hkeep, hnone, Or.inr ⟨hstub, helse, i, t, hi, ht, hreal, hrun⟩⟩

def runningRun : List SchedOp := startedRun ++ [.scheduleNext 0 0x9000]

theorem idle_choice_started :
    ∃ cur, (run Sched.step smallBoot startedRun).tasks 0 = some cur ∧ ∀ elsewhere,
      (IdleForNothing (run Sched.step smallBoot startedRun) 0 0x9000 0 elsewhere ↔
        ¬Neglects (run Sched.step smallBoot startedRun) 0 0 cur elsewhere) := by
  have hslot : ((run Sched.step smallBoot startedRun).tasks 0).isSome = true := by decide +kernel
  obtain ⟨cur, hcur⟩ := isSome_iff_exists.mp hslot
  exact ⟨cur, hcur, fun elsewhere => idle_choice_iff _ 0 0x9000 0 cur elsewhere (by decide +kernel) hcur⟩

/-- The only task has used up its quantum of one tick. It is Ready and stays so, while the
CPU goes to the idle stub. -/
theorem lone_task_makes_way :
    ((run Sched.step smallBoot runningRun).current 0 = some 1 ∧
      ((run Sched.step smallBoot runningRun).tasks 1).any (realFor 0) = true) ∧
    ¬IdleForNothing (run Sched.step smallBoot runningRun) 0 0x9100 1 false := by
  have hslot : ((run Sched.step smallBoot runningRun).tasks 1).any
      (fun t => realFor 0 t && t.state == .running) = true := by decide +kernel
  obtain ⟨t, ht, hrun⟩ := (any_eq_true _ _).mp hslot
  obtain ⟨hreal, hstate⟩ := Bool.and_eq_true_iff.mp hrun
  refine ⟨⟨by decide +kernel, (any_at ht _).trans hreal⟩, fun h => ?_⟩
  have hidle : (((run Sched.step smallBoot runningRun).scheduleNext 0 0x9100).1.currentTask 0).any
      isIdle = true := by decide +kernel
  exact h hidle 1 t ht ⟨hreal, Or.inr ⟨beq_iff_eq.mp hstate, Or.inl rfl⟩⟩

end Aeglos.Proofs
