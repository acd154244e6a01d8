import Mathlib.Tactic

/-!
# Computations that leave a state when they fail

`left` is the state after a computation `Except σ α`, whether it returns or fails.
-/

namespace Fallible

variable {σ α β : Type}

/-- The state that a computation leaves behind; `state` reads it off a returned value. -/
def left (state : α → σ) : Except σ α → σ
  | .ok a => state a
  | .error s => s

@[simp] lemma left_ok (state : α → σ) (a : α) : left state (.ok a) = state a := rfl

@[simp] lemma left_error (state : α → σ) (s : σ) : left state (.error s) = s := rfl

lemma bind_eq_ok {x : Except σ α} {f : α → Except σ β} {b : β} (h : x >>= f = .ok b) :
    ∃ a, x = .ok a ∧ f a = .ok b := by
  cases x with
  | error s => cases h
  | ok a => exact ⟨a, rfl, h⟩

lemma foldlM_append_of_ok {f : σ → α → Except σ σ} {as bs : List α} {s t : σ}
    (h : as.foldlM f s = .ok t) : (as ++ bs).foldlM f s = bs.foldlM f t := by
  rw [List.foldlM_append, h]
  rfl

section Rules

variable {R : σ → σ → Prop} (htrans : ∀ s t u, R s t → R t u → R s u)
include htrans

lemma left_bind {s : σ} {x : Except σ α} {f : α → Except σ β} {sa : α → σ} {sb : β → σ}
    (hx : R s (left sa x)) (hf : ∀ a, x = .ok a → R (sa a) (left sb (f a))) :
    R s (left sb (x >>= f)) := by
  cases x with
  | error e => exact hx
  | ok a => exact htrans _ _ _ hx (hf a rfl)

lemma left_foldlM (hrefl : ∀ s, R s s) {f : σ → α → Except σ σ}
    (hf : ∀ s a, R s (left id (f s a))) (as : List α) (s : σ) :
    R s (left id (as.foldlM f s)) := by
  induction as generalizing s with
  | nil => exact hrefl s
  | cons a as ih =>
    rw [List.foldlM_cons]
    exact left_bind htrans (hf s a) fun t _ => ih t

end Rules

section Invariants

variable {P : σ → Prop}

lemma invariant_bind {x : Except σ σ} {f : σ → Except σ σ} (hx : P (left id x))
    (hf : ∀ s, P s → P (left id (f s))) : P (left id (x >>= f)) := by
  cases x with
  | error e => exact hx
  | ok s => exact hf s hx

lemma invariant_foldlM {f : σ → α → Except σ σ} {as : List α}
    (hf : ∀ s, ∀ a ∈ as, P s → P (left id (f s a))) {s : σ} (hs : P s) :
    P (left id (as.foldlM f s)) := by
  induction as generalizing s with
  | nil => exact hs
  | cons a as ih =>
    rw [List.foldlM_cons]
    exact invariant_bind (hf s a List.mem_cons_self hs)
      fun t ht => ih (fun u b hb => hf u b (List.mem_cons_of_mem a hb)) ht

end Invariants

end Fallible
