import Mathlib.Tactic

/-!
# Runs of a transition system

A step function, driven by a list of actions. A run is guarded by `C` when each step is taken from a
state in which `C` allows it.
-/

namespace TransitionSystem

section

variable {σ α : Type} (step : σ → α → σ) {C : σ → α → Prop} {P : σ → Prop}

def run : σ → List α → σ
  | s, [] => s
  | s, a :: as => run (step s a) as

/-- Each action of the list is allowed by `C` in the state it is taken from. -/
def Guarded (C : σ → α → Prop) : σ → List α → Prop
  | _, [] => True
  | s, a :: as => C s a ∧ Guarded C (step s a) as

instance Guarded.decidable (C : σ → α → Prop) [∀ s a, Decidable (C s a)] :
    ∀ s as, Decidable (Guarded step C s as)
  | _, [] => instDecidableTrue
  | s, a :: as =>
    letI := Guarded.decidable C (step s a) as
    inferInstanceAs (Decidable (C s a ∧ Guarded step C (step s a) as))

@[simp] lemma run_nil (s : σ) : run step s [] = s := rfl

@[simp] lemma run_cons (s : σ) (a : α) (as : List α) : run step s (a :: as) = run step (step s a) as := rfl

@[simp] lemma guarded_nil (C : σ → α → Prop) (s : σ) : Guarded step C s [] := trivial

@[simp] lemma guarded_cons (C : σ → α → Prop) (s : σ) (a : α) (as : List α) :
    Guarded step C s (a :: as) ↔ C s a ∧ Guarded step C (step s a) as := Iff.rfl

lemma run_append (s : σ) (as bs : List α) : run step s (as ++ bs) = run step (run step s as) bs := by
  induction as generalizing s with
  | nil => rfl
  | cons a as ih => exact ih (step s a)

lemma guarded_append (C : σ → α → Prop) (s : σ) (as bs : List α) :
    Guarded step C s (as ++ bs) ↔ Guarded step C s as ∧ Guarded step C (run step s as) bs := by
  induction as generalizing s with
  | nil => simp
  | cons a as ih => simp only [List.cons_append, guarded_cons, run_cons, ih, and_assoc]

lemma guarded_iff (C : σ → α → Prop) (s : σ) (as : List α) :
    Guarded step C s as ↔
      ∀ before a after, as = before ++ a :: after → C (run step s before) a := by
  constructor
  · rintro hg before a after rfl
    exact ((guarded_append step C s before (a :: after)).mp hg).2.1
  · intro h
    induction as generalizing s with
    | nil => trivial
    | cons a as ih =>
      refine ⟨h [] a as rfl, ih (step s a) ?_⟩
      rintro before b after rfl
      exact h (a :: before) b after rfl

variable {step}

/-- The invariant rule: what holds at the start and is kept by every allowed step holds
in every state that a guarded run reaches. -/
theorem run_invariant
    (hstep : ∀ s a, P s → C s a → P (step s a)) {s : σ} {as : List α}
    (hs : P s) (hg : Guarded step C s as) : P (run step s as) := by
  induction as generalizing s with
  | nil => exact hs
  | cons a as ih => exact ih (hstep s a hs hg.1) hg.2

theorem run_preserves (hstep : ∀ s a, P s → P (step s a)) {s : σ} (hs : P s) (as : List α) :
    P (run step s as) := by
  induction as generalizing s with
  | nil => exact hs
  | cons a as ih => exact ih (hstep s a hs)

/-- The exactness rule: `P` holds in every state of a run exactly if the run is guarded, if the allowed
steps keep an invariant that implies `P`, and every other step ends `P`. -/
theorem run_iff {I P : σ → Prop} (hstep : ∀ s a, I s → C s a → I (step s a)) (hP : ∀ s, I s → P s)
    (hend : ∀ s a, I s → P (step s a) → C s a) {s : σ} {as : List α} (hs : I s) :
    (∀ before after, as = before ++ after → P (run step s before)) ↔ Guarded step C s as := by
  induction as generalizing s with
  | nil =>
    refine iff_of_true (fun before after h => ?_) trivial
    obtain ⟨rfl, -⟩ := List.append_eq_nil_iff.mp h.symm
    exact hP s hs
  | cons a as ih =>
    constructor
    · intro h
      have hC : C s a := hend s a hs (h [a] as rfl)
      exact ⟨hC, (ih (hstep s a hs hC)).mp fun before after hsplit => h (a :: before) after (congrArg (a :: ·) hsplit)⟩
    · rintro ⟨hC, hg⟩ before after hsplit
      cases before with
      | nil => exact hP s hs
      | cons b before =>
        obtain ⟨rfl, rfl⟩ := List.cons.inj hsplit
        exact (ih (hstep s a hs hC)).mpr hg before after rfl

/-- The until rule: if every allowed step either keeps `P` or is an `E` step, a guarded
run from `P` either ends in `P` or contains an `E` step taken from a state with `P`. -/
theorem run_until {E : σ → α → Prop}
    (hstep : ∀ s a, P s → C s a → P (step s a) ∨ E s a) {s : σ} {as : List α}
    (hs : P s) (hg : Guarded step C s as) :
    P (run step s as) ∨
      ∃ before a after, as = before ++ a :: after ∧ P (run step s before) ∧
        E (run step s before) a := by
  induction as generalizing s with
  | nil => exact Or.inl hs
  | cons a as ih =>
    rcases hstep s a hs hg.1 with hP | hE
    · rcases ih hP hg.2 with hend | ⟨before, b, after, rfl, hb, hE⟩
      · exact Or.inl hend
      · exact Or.inr ⟨a :: before, b, after, rfl, hb, hE⟩
    · exact Or.inr ⟨[], a, as, rfl, hs, hE⟩

end

section History

variable {σ α γ : Type} (step : σ → α → σ) (record : σ → γ → α → γ)

/-- The system with a history component that `record` updates at every step. The
component observes the run and never influences it. -/
def withHistory : σ × γ → α → σ × γ := fun p a => (step p.1 a, record p.1 p.2 a)

@[simp] lemma withHistory_fst (p : σ × γ) (a : α) : (withHistory step record p a).1 = step p.1 a := rfl

@[simp] lemma withHistory_snd (p : σ × γ) (a : α) : (withHistory step record p a).2 = record p.1 p.2 a := rfl

lemma run_withHistory_fst (p : σ × γ) (as : List α) :
    (run (withHistory step record) p as).1 = run step p.1 as := by
  induction as generalizing p with
  | nil => rfl
  | cons a as ih => exact ih _

end History

end TransitionSystem
