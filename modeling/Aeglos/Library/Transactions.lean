import Aeglos.Library.Runs

/-!
# Reads and a write under separate locks

A call reads shared state in some critical sections and writes it in a last one. Calls interleave
section by section.
-/

namespace Transactions

open TransitionSystem List

/-- The sections of a call: the reads, in order, and what it then does with their values. -/
structure Transaction (σ ρ α : Type) where
  reads : List (σ → ρ)
  finish : List ρ → σ → α × σ

structure Progress (ρ α : Type) where
  values : List ρ
  result : Option α

/-- The shared state, how far each call has come, and the calls that have finished. -/
structure Shared (ι σ ρ α : Type) where
  state : σ
  progress : ι → Progress ρ α
  finished : List ι

section

variable {ι σ ρ α : Type} [DecidableEq ι]

/-- All sections of a call without a break. -/
def Transaction.atomic (t : Transaction σ ρ α) (s : σ) : α × σ := t.finish (t.reads.map (· s)) s

def Shared.start (s : σ) : Shared ι σ ρ α := ⟨s, fun _ => ⟨[], none⟩, []⟩

variable (calls : ι → Transaction σ ρ α)

def readSection (m : Shared ι σ ρ α) (i : ι) (look : σ → ρ) : Shared ι σ ρ α where
  state := m.state
  progress := Function.update m.progress i ⟨(m.progress i).values ++ [look m.state], none⟩
  finished := m.finished

def lastSection (m : Shared ι σ ρ α) (i : ι) : Shared ι σ ρ α where
  state := ((calls i).finish (m.progress i).values m.state).2
  progress := Function.update m.progress i
    ⟨(m.progress i).values, some ((calls i).finish (m.progress i).values m.state).1⟩
  finished := m.finished ++ [i]

def advance (m : Shared ι σ ρ α) (i : ι) : Shared ι σ ρ α :=
  if (m.progress i).result.isSome then m
  else match (calls i).reads[(m.progress i).values.length]? with
    | some look => readSection m i look
    | none => lastSection calls m i

/-- If the last section comes next, what the call has read is still so. -/
def Undisturbed (m : Shared ι σ ρ α) (i : ι) : Prop :=
  (m.progress i).result = none → (calls i).reads.length ≤ (m.progress i).values.length →
    (m.progress i).values = (calls i).reads.map (· m.state)

def serially (s : σ) (order : List ι) : σ := order.foldl (fun s i => ((calls i).atomic s).2) s

/-- What one step of a call is. -/
inductive Advanced (m : Shared ι σ ρ α) (i : ι) : Shared ι σ ρ α → Prop where
  | idle (h : (m.progress i).result.isSome = true) : Advanced m i m
  | reads (look : σ → ρ) (h : (m.progress i).result = none) : Advanced m i (readSection m i look)
  | finishes (h : (m.progress i).result = none)
      (hlen : (calls i).reads.length ≤ (m.progress i).values.length) :
      Advanced m i (lastSection calls m i)

lemma advanced (m : Shared ι σ ρ α) (i : ι) : Advanced calls m i (advance calls m i) := by
  unfold advance
  by_cases hr : (m.progress i).result.isSome = true
  · rw [if_pos hr]
    exact .idle hr
  · rw [if_neg hr]
    have hnone : (m.progress i).result = none := by simpa using hr
    cases hread : (calls i).reads[(m.progress i).values.length]? with
    | some look => exact .reads look hnone
    | none => exact .finishes hnone (getElem?_eq_none_iff.mp hread)

/-- The state is that of the finished calls one after the other. -/
structure Serial (s : σ) (m : Shared ι σ ρ α) : Prop where
  state : m.state = serially calls s m.finished
  nodup : m.finished.Nodup
  finished : ∀ i, i ∈ m.finished ↔ (m.progress i).result.isSome = true

omit [DecidableEq ι] in
lemma start_serial (s : σ) : Serial calls s (Shared.start s) := ⟨rfl, nodup_nil, by simp [Shared.start]⟩

lemma advance_serial {s : σ} (m : Shared ι σ ρ α) (i : ι) (h : Serial calls s m)
    (hu : Undisturbed calls m i) : Serial calls s (advance calls m i) := by
  have hstep := advanced calls m i
  generalize advance calls m i = m' at hstep ⊢
  cases hstep with
  | idle => exact h
  | reads look hnone =>
    refine ⟨h.state, h.nodup, fun j => ?_⟩
    rw [readSection, h.finished j]
    by_cases hj : j = i
    · subst hj
      simp [hnone]
    · simp [Function.update_of_ne hj]
  | finishes hnone hlen =>
    have hnew : i ∉ m.finished := fun hi => by
      have hsome := (h.finished i).mp hi
      rw [hnone] at hsome
      cases hsome
    refine ⟨?_, ?_, fun j => ?_⟩
    · change ((calls i).finish (m.progress i).values m.state).2 = serially calls s (m.finished ++ [i])
      rw [hu hnone hlen, serially, foldl_append, h.state]
      rfl
    · exact nodup_append.mpr ⟨h.nodup, nodup_singleton i, by
        intro a ha b hb hab
        rw [mem_singleton.mp hb] at hab
        exact hnew (hab ▸ ha)⟩
    · by_cases hj : j = i
      · subst hj
        simp [lastSection]
      · simp [lastSection, h.finished j, hj]

end

end Transactions
