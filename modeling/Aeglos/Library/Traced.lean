import Mathlib.Tactic

/-!
# Computations that leave a trace

A computation emits events, and returns a value or fails. It is clean when it returns and every
event satisfies the predicate.
-/

/-- The events of a run in order, and what it returns; `none` if it fails. -/
structure Traced (ε α : Type) where
  events : List ε
  result : Option α

namespace Traced

variable {ε α β : Type}

protected def bind (x : Traced ε α) (f : α → Traced ε β) : Traced ε β :=
  match x.result with
  | none => ⟨x.events, none⟩
  | some a => ⟨x.events ++ (f a).events, (f a).result⟩

instance : Monad (Traced ε) where
  pure a := ⟨[], some a⟩
  bind := Traced.bind

def emit (e : ε) : Traced ε Unit := ⟨[e], some ()⟩

def fail : Traced ε α := ⟨[], none⟩

def ofOption : Option α → Traced ε α
  | none => fail
  | some a => pure a

@[simp] lemma result_pure (a : α) : (pure a : Traced ε α).result = some a := rfl

@[simp] lemma result_emit (e : ε) : (emit e).result = some () := rfl

@[simp] lemma result_bind (x : Traced ε α) (f : α → Traced ε β) :
    (x >>= f).result = x.result.bind fun a => (f a).result := by
  change (Traced.bind x f).result = _
  unfold Traced.bind
  cases x.result <;> rfl

def Clean (P : ε → Prop) (x : Traced ε α) : Prop := (∃ a, x.result = some a) ∧ ∀ e ∈ x.events, P e

variable {P : ε → Prop}

@[simp] lemma clean_pure (a : α) : Clean P (pure a : Traced ε α) :=
  ⟨⟨a, rfl⟩, fun _ h => absurd h List.not_mem_nil⟩

@[simp] lemma clean_emit (e : ε) : Clean P (emit e) ↔ P e := by simp [Clean, emit]

@[simp] lemma not_clean_fail : ¬Clean P (fail : Traced ε α) := by simp [Clean, fail]

lemma clean_ofOption (o : Option α) : Clean P (ofOption o : Traced ε α) ↔ ∃ a, o = some a := by
  cases o with
  | none => simp [ofOption]
  | some a => simp [ofOption]

lemma clean_bind (x : Traced ε α) (f : α → Traced ε β) :
    Clean P (x >>= f) ↔ Clean P x ∧ ∀ a, x.result = some a → Clean P (f a) := by
  change Clean P (Traced.bind x f) ↔ _
  unfold Traced.bind Clean
  cases x.result with
  | none => simp
  | some a =>
    simp only [List.mem_append, Option.some.injEq, exists_eq', true_and, forall_eq']
    constructor
    · rintro ⟨hr, he⟩
      exact ⟨fun e h => he e (Or.inl h), hr, fun e h => he e (Or.inr h)⟩
    · rintro ⟨he, hr, he'⟩
      exact ⟨hr, fun e h => h.elim (he e) (he' e)⟩

@[simp] lemma clean_pure_bind (a : α) (f : α → Traced ε β) : Clean P (pure a >>= f) ↔ Clean P (f a) := Iff.rfl

lemma clean_bind_unit (x : Traced ε Unit) (f : Unit → Traced ε β) :
    Clean P (x >>= f) ↔ Clean P x ∧ Clean P (f ()) := by
  rw [clean_bind]
  refine and_congr_right fun hx => ?_
  obtain ⟨a, ha⟩ := hx.1
  exact ⟨fun h => h () ha, fun h _ _ => h⟩

lemma clean_ite {c : Prop} [Decidable c] {x y : Traced ε α} :
    Clean P (if c then x else y) ↔ (c → Clean P x) ∧ (¬c → Clean P y) := by
  split_ifs with h <;> simp [h]

end Traced
