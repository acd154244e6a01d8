import Aeglos.Library.Effects

/-!
# What a computation ends in

`Outcome x s Q E`: from `s`, the computation returns with `Q`, or it stops in a state with `E`.
-/

namespace Effects

variable {σ τ α β : Type} {Q Q' : α → σ → Prop} {E E' : σ → Prop} {x : Comp σ α} {s s s' : σ} {f : α → Comp σ β}

def Outcome (x : Comp σ α) (s : σ) (Q : α → σ → Prop) (E : σ → Prop) : Prop :=
  match x s with
  | .ok r => Q r.1 r.2
  | .error s' => E s'

lemma outcome_of_ok {a : α} (h : x s = .ok (a, s')) : Outcome x s Q E ↔ Q a s' := by
  unfold Outcome
  rw [h]

lemma outcome_of_error (h : x s = .error s') : Outcome x s Q E ↔ E s' := by
  unfold Outcome
  rw [h]

@[simp] lemma outcome_pure (a : α) (s : σ) : Outcome (pure a) s Q E ↔ Q a s := Iff.rfl

@[simp] lemma outcome_stop (s : σ) : Outcome (stop : Comp σ α) s Q E ↔ E s := Iff.rfl

@[simp] lemma outcome_get {Q : σ → σ → Prop} (s : σ) : Outcome (get : Comp σ σ) s Q E ↔ Q s s := Iff.rfl

@[simp] lemma outcome_set {Q : PUnit → σ → Prop} (s s' : σ) : Outcome (set s' : Comp σ PUnit) s Q E ↔ Q () s' :=
  Iff.rfl

@[simp] lemma outcome_modify {Q : PUnit → σ → Prop} (f : σ → σ) (s : σ) :
    Outcome (modify f : Comp σ PUnit) s Q E ↔ Q () (f s) := Iff.rfl

@[simp] lemma outcome_modifyGet (f : σ → α × σ) (s : σ) :
    Outcome (modifyGet f : Comp σ α) s Q E ↔ Q (f s).1 (f s).2 := Iff.rfl

@[simp] lemma outcome_bind (x : Comp σ α) (f : α → Comp σ β) (s : σ) {Q : β → σ → Prop} :
    Outcome (x >>= f) s Q E ↔ Outcome x s (fun a s' => Outcome (f a) s' Q E) E := by
  cases h : x s with
  | error s' =>
    have hbind : (x >>= f) s = .error s' := by
      change ((x s) >>= fun r => f r.1 r.2) = _
      rw [h]
      rfl
    rw [outcome_of_error h, outcome_of_error hbind]
  | ok r =>
    have hx : x s = .ok (r.1, r.2) := h
    rw [outcome_of_ok hx]
    unfold Outcome
    rw [bind_of_ok hx]

@[simp] lemma outcome_map (x : Comp σ α) (f : α → β) (s : σ) {Q : β → σ → Prop} :
    Outcome (f <$> x) s Q E ↔ Outcome x s (fun a s' => Q (f a) s') E := by
  rw [map_eq_pure_bind]
  exact outcome_bind x _ s

lemma outcome_discard {Q : Unit → σ → Prop} :
    Outcome (discard x) s Q E ↔ Outcome x s (fun _ s' => Q () s') E := outcome_map x (fun _ => ()) s

lemma outcome_ite {c : Prop} [Decidable c] {x y : Comp σ α} :
    Outcome (if c then x else y) s Q E ↔ (c → Outcome x s Q E) ∧ (¬c → Outcome y s Q E) := by
  split_ifs with h <;> simp [h]

lemma Outcome.mono (h : Outcome x s Q E) (hQ : ∀ a s', Q a s' → Q' a s')
    (hE : ∀ s', E s' → E' s') : Outcome x s Q' E' := by
  unfold Outcome at h ⊢
  revert h
  cases x s with
  | error s' => exact hE s'
  | ok r => exact hQ r.1 r.2

lemma outcome_iff_after {P : σ → Prop} : Outcome x s (fun _ s' => P s') P ↔ P (after x s) := by
  unfold Outcome after
  cases x s with
  | error s' => rfl
  | ok r => rfl

lemma Outcome.and (h : Outcome x s Q E) (h' : Outcome x s Q' E') :
    Outcome x s (fun a s' => Q a s' ∧ Q' a s') (fun s' => E s' ∧ E' s') := by
  unfold Outcome at h h' ⊢
  revert h h'
  cases x s with
  | error s' => exact And.intro
  | ok r => exact And.intro

lemma Outcome.exists_ok (h : Outcome x s Q fun _ => False) : ∃ a s', x s = .ok (a, s') ∧ Q a s' := by
  unfold Outcome at h
  revert h
  cases x s with
  | error s' => exact False.elim
  | ok r => exact fun h => ⟨r.1, r.2, rfl, h⟩

lemma Outcome.false (h : Outcome x s (fun _ _ => False) fun _ => False) : False := by
  unfold Outcome at h
  revert h
  cases x s with
  | error s' => exact id
  | ok r => exact id

lemma Outcome.clash (h : Outcome x s Q fun _ => False) (h' : Outcome x s Q' fun _ => True)
    (hQ : ∀ a s', Q a s' → Q' a s' → False) : False :=
  ((h.and h').mono (fun a s' hs' => hQ a s' hs'.1 hs'.2) fun _ hs' => hs'.1).false

lemma outcome_zoom {read : τ → σ} {write : σ → τ → τ} {t : τ} {Q : α → τ → Prop} {E : τ → Prop} :
    Outcome (zoom read write x) t Q E ↔
      Outcome x (read t) (fun a s => Q a (write s t)) (fun s => E (write s t)) := by
  unfold Outcome zoom
  cases x (read t) with
  | error s => rfl
  | ok r => rfl

/-- The rule for a loop over a list, with an invariant that may speak of the elements to come. -/
lemma outcome_forM {f : α → Comp σ PUnit} {I : List α → σ → Prop}
    (hf : ∀ a as s, I (a :: as) s → Outcome (f a) s (fun _ s' => I as s') E) {as : List α} (hs : I as s) :
    Outcome (as.forM f) s (fun _ s' => I [] s') E := by
  induction as generalizing s with
  | nil => exact hs
  | cons a as ih =>
    refine (outcome_bind (f a) (fun _ => as.forM f) s).mpr ?_
    exact (hf a as s hs).mono (fun _ _ h => ih h) fun _ h => h

def Returns (x : Comp σ α) (s : σ) : Prop := Outcome x s (fun _ _ => True) fun _ => False

instance (x : Comp σ α) (s : σ) : Decidable (Returns x s) :=
  match h : x s with
  | .ok _ => isTrue ((outcome_of_ok h).mpr trivial)
  | .error _ => isFalse fun hret => (outcome_of_error h).mp hret

lemma returns_bind_iff (hf : ∀ a s', Returns (f a) s') : Returns (x >>= f) s ↔ Returns x s := by
  unfold Returns
  rw [outcome_bind]
  exact ⟨fun h => h.mono (fun _ _ _ => trivial) fun _ h => h, fun h => h.mono (fun a s' _ => hf a s') fun _ h => h⟩

lemma returns_bind_of_ok {a : α} (h : x s = .ok (a, s')) : Returns (x >>= f) s ↔ Returns (f a) s' := by
  unfold Returns
  rw [outcome_bind, outcome_of_ok h]

lemma not_returns_bind_of_error (h : x s = .error s') : ¬Returns (x >>= f) s := by
  unfold Returns
  rw [outcome_bind, outcome_of_error h]
  exact id

lemma returns_forM {f : α → Comp σ PUnit} (hf : ∀ a s, Returns (f a) s) (as : List α) (s : σ) :
    Returns (as.forM f) s :=
  outcome_forM (I := fun _ _ => True) (fun a _ s _ => hf a s) trivial

section Fuel

variable {x : Nat → Comp σ α} {f : Nat → α → Comp σ β}

/-- What the computation returns with some fuel, it returns with more of it. -/
def Steady (x : Nat → Comp σ α) : Prop := ∀ ⦃n m s r⦄, n ≤ m → x n s = .ok r → x m s = .ok r

lemma steady_const (x : Comp σ α) : Steady fun _ => x := fun _ _ _ _ _ h => h

lemma steady_bind (hx : Steady x) (hf : ∀ a, Steady fun n => f n a) : Steady fun n => x n >>= f n := by
  intro n m s r hle h
  obtain ⟨a, s₁, hxs, hfs⟩ := bind_ok h
  exact (bind_of_ok (hx hle hxs)).trans (hf a hle hfs)

lemma Steady.unique (hx : Steady x) {n m : Nat} {s : σ} {r r' : α × σ} (h : x n s = .ok r) (h' : x m s = .ok r') : r = r' :=
  Except.ok.inj ((hx (le_max_left n m) h).symm.trans (hx (le_max_right n m) h'))

lemma ends_bind_iff (hx : Steady x) (hf : ∀ a, Steady fun n => f n a) {s : σ} :
    (∃ n, Returns (x n >>= f n) s) ↔
      (∃ n, Returns (x n) s) ∧ ∀ n a s', x n s = .ok (a, s') → ∃ m, Returns (f m a) s' := by
  constructor
  · rintro ⟨n, h⟩
    obtain ⟨b, s₂, hok, -⟩ := h.exists_ok
    obtain ⟨a, s₁, hxs, hfs⟩ := bind_ok hok
    refine ⟨⟨n, (outcome_of_ok hxs).mpr trivial⟩, fun m a' s' hxs' => ⟨n, ?_⟩⟩
    obtain ⟨rfl, rfl⟩ := Prod.mk.inj (hx.unique hxs hxs')
    exact (outcome_of_ok hfs).mpr trivial
  · rintro ⟨⟨n, h⟩, hrest⟩
    obtain ⟨a, s₁, hxs, -⟩ := h.exists_ok
    obtain ⟨m, hm⟩ := hrest n a s₁ hxs
    obtain ⟨b, s₂, hfs, -⟩ := hm.exists_ok
    refine ⟨max n m, ?_⟩
    rw [returns_bind_of_ok (hx (le_max_left n m) hxs)]
    exact (outcome_of_ok (hf a (le_max_right n m) hfs)).mpr trivial

end Fuel

end Effects
