import Aeglos.Library.Fallible

/-!
# Stateful computations that may stop for good

A computation returns a value, or stops for good; `after` is the state that it leaves. `Within R`
says that it acts only by `R`-steps.
-/

namespace Effects

variable {σ τ α β : Type}

abbrev Comp (σ α : Type) := StateT σ (Except σ) α

def stop : Comp σ α := fun s => .error s

def after (x : Comp σ α) (s : σ) : σ := Fallible.left Prod.snd (x s)

def zoom (read : τ → σ) (write : σ → τ → τ) (x : Comp σ α) : Comp τ α := fun t =>
  match x (read t) with
  | .ok (a, s) => .ok (a, write s t)
  | .error s => .error (write s t)

def Within (R : σ → σ → Prop) (x : Comp σ α) : Prop := ∀ s, Relation.ReflTransGen R s (after x s)

lemma get_bind_apply (f : σ → Comp σ α) (s : σ) : (get >>= f) s = f s s := rfl

lemma after_get_bind (f : σ → Comp σ α) (s : σ) : after (get >>= f) s = after (f s) s := rfl

lemma after_ok {x : Comp σ α} {s s' : σ} {a : α} (h : x s = .ok (a, s')) : after x s = s' := by
  rw [after, h]
  rfl

lemma after_zoom (read : τ → σ) (write : σ → τ → τ) (x : Comp σ α) (t : τ) :
    after (zoom read write x) t = write (after x (read t)) t := by
  unfold after zoom
  cases x (read t) with
  | error s => rfl
  | ok r => rfl

lemma zoom_ok {read : τ → σ} {write : σ → τ → τ} {x : Comp σ α} {a : α} {t t' : τ}
    (h : zoom read write x t = .ok (a, t')) : ∃ s', x (read t) = .ok (a, s') ∧ t' = write s' t := by
  unfold zoom at h
  split at h
  case h_1 b s' hx =>
    obtain ⟨rfl, rfl⟩ := Prod.mk.inj (Except.ok.inj h)
    exact ⟨s', hx, rfl⟩
  case h_2 => cases h

lemma bind_ok {x : Comp σ α} {f : α → Comp σ β} {s s₂ : σ} {b : β}
    (h : (x >>= f) s = .ok (b, s₂)) : ∃ a s₁, x s = .ok (a, s₁) ∧ f a s₁ = .ok (b, s₂) := by
  change ((x s) >>= fun r => f r.1 r.2) = _ at h
  cases hx : x s with
  | error e =>
    rw [hx] at h
    exact absurd h (by simp [bind, Except.bind])
  | ok r =>
    rw [hx] at h
    exact ⟨r.1, r.2, rfl, h⟩

lemma bind_of_ok {x : Comp σ α} {f : α → Comp σ β} {s s₁ : σ} {a : α} (h : x s = .ok (a, s₁)) :
    (x >>= f) s = f a s₁ := by
  change ((x s) >>= fun r => f r.1 r.2) = _
  rw [h]
  rfl

lemma after_bind_ok {x : Comp σ α} {f : α → Comp σ β} {s s₁ : σ} {a : α} (h : x s = .ok (a, s₁)) :
    after (x >>= f) s = after (f a) s₁ := by
  change Fallible.left Prod.snd (x s >>= fun r => f r.1 r.2) = _
  rw [h]
  rfl

lemma after_bind_error {x : Comp σ α} {f : α → Comp σ β} {s s₁ : σ} (h : x s = .error s₁) :
    after (x >>= f) s = s₁ := by
  change Fallible.left Prod.snd (x s >>= fun r => f r.1 r.2) = _
  rw [h]
  rfl

section Rules

variable {R : σ → σ → Prop} {f : α → Comp σ β} {x : Comp σ α}

@[grind .] lemma within_pure (a : α) : Within R (pure a : Comp σ α) := fun _ => .refl

@[grind .] lemma within_stop : Within R (stop : Comp σ α) := fun _ => .refl

@[grind ←] lemma within_stop_bind : Within R (stop >>= f) := fun _ => .refl

@[grind .] lemma within_get : Within R (get : Comp σ σ) := fun _ => .refl

@[grind ←] lemma within_modify {f : σ → σ} (h : ∀ s, R s (f s)) : Within R (modify f : Comp σ Unit) :=
  fun s => .single (h s)

lemma within_bind_at {s : σ}
    (hx : Relation.ReflTransGen R s (after x s))
    (hf : ∀ a s', x s = .ok (a, s') → Relation.ReflTransGen R s' (after (f a) s')) :
    Relation.ReflTransGen R s (after (x >>= f) s) := by
  change Relation.ReflTransGen R s (Fallible.left Prod.snd ((x s) >>= fun r => f r.1 r.2))
  unfold after at hx
  cases h : x s with
  | error e =>
    rw [h] at hx
    exact hx
  | ok r =>
    rw [h] at hx
    exact hx.trans (hf r.1 r.2 h)

@[grind ←] lemma within_bind (hx : Within R x) (hf : ∀ a, Within R (f a)) :
    Within R (x >>= f) := fun s => within_bind_at (hx s) fun a s' _ => hf a s'

lemma within_get_at {f : σ → Comp σ β} {s : σ} (hf : Relation.ReflTransGen R s (after (f s) s)) :
    Relation.ReflTransGen R s (after (get >>= f) s) := hf

@[grind ←] lemma within_map {f : α → β} (hx : Within R x) : Within R (f <$> x) := by
  rw [map_eq_pure_bind]
  exact within_bind hx fun _ => within_pure _

lemma within_ite {c : Prop} [Decidable c] {x y : Comp σ α} (hx : Within R x) (hy : Within R y) :
    Within R (if c then x else y) := by
  split_ifs
  · exact hx
  · exact hy

lemma within_ite_at {c : Prop} [Decidable c] {x y : Comp σ α} {s : σ}
    (hx : c → Relation.ReflTransGen R s (after x s)) (hy : ¬c → Relation.ReflTransGen R s (after y s)) :
    Relation.ReflTransGen R s (after (if c then x else y) s) := by
  split_ifs with h
  · exact hx h
  · exact hy h

@[grind ←] lemma within_forM {f : α → Comp σ PUnit} {as : List α} (hf : ∀ a ∈ as, Within R (f a)) :
    Within R (as.forM f) := by
  induction as with
  | nil => exact within_pure _
  | cons a as ih =>
    exact within_bind (hf a List.mem_cons_self) fun _ => ih fun b hb => hf b (List.mem_cons_of_mem a hb)

end Rules

lemma Within.no_step {x : Comp σ α} (h : Within (fun _ _ => False) x) (s : σ) : after x s = s := by
  have hs := h s
  generalize after x s = s' at hs ⊢
  cases hs with
  | refl => rfl
  | tail _ hf => exact hf.elim

/-- From `s` the computation acts by `R`-steps and, if it stops, by an `H`-step at last. -/
def ProceedsAt (R H : σ → σ → Prop) (x : Comp σ α) (s : σ) : Prop :=
  match x s with
  | .ok r => Relation.ReflTransGen R s r.2
  | .error s' => ∃ s₁, Relation.ReflTransGen R s s₁ ∧ H s₁ s'

def Proceeds (R H : σ → σ → Prop) (x : Comp σ α) : Prop := ∀ s, ProceedsAt R H x s

section Proceeds

variable {R H : σ → σ → Prop} {x : Comp σ α} {s : σ}

lemma proceedsAt_ok {s s' : σ} {a : α} (h : x s = .ok (a, s')) (hs : Relation.ReflTransGen R s s') :
    ProceedsAt R H x s := by
  unfold ProceedsAt
  rw [h]
  exact hs

lemma proceedsAt_error {s s' : σ} (h : x s = .error s') (hs : H s s') : ProceedsAt R H x s := by
  unfold ProceedsAt
  rw [h]
  exact ⟨s, .refl, hs⟩

@[grind .] lemma proceeds_pure (a : α) : Proceeds R H (pure a : Comp σ α) := fun _ => proceedsAt_ok rfl .refl

@[grind .] lemma proceeds_get : Proceeds R H (get : Comp σ σ) := fun _ => proceedsAt_ok rfl .refl

@[grind ←] lemma proceeds_modify {f : σ → σ} (h : ∀ s, R s (f s)) : Proceeds R H (modify f : Comp σ Unit) :=
  fun s => proceedsAt_ok rfl (.single (h s))

lemma proceeds_bind_at {f : α → Comp σ β} (hx : ProceedsAt R H x s)
    (hf : ∀ a s', x s = .ok (a, s') → ProceedsAt R H (f a) s') : ProceedsAt R H (x >>= f) s := by
  cases h : x s with
  | error s' =>
    have hbind : (x >>= f) s = .error s' := by
      change ((x s) >>= fun r => f r.1 r.2) = _
      rw [h]
      rfl
    unfold ProceedsAt at hx ⊢
    rw [h] at hx
    rw [hbind]
    exact hx
  | ok r =>
    obtain ⟨a, s₁⟩ := r
    have hrest := hf a s₁ h
    unfold ProceedsAt at hx hrest ⊢
    rw [h] at hx
    rw [bind_of_ok h]
    cases hfa : f a s₁ with
    | error s' =>
      rw [hfa] at hrest
      obtain ⟨s₂, hsteps, hlast⟩ := hrest
      exact ⟨s₂, hx.trans hsteps, hlast⟩
    | ok r =>
      rw [hfa] at hrest
      exact hx.trans hrest

@[grind ←] lemma proceeds_bind {f : α → Comp σ β} (hx : Proceeds R H x) (hf : ∀ a, Proceeds R H (f a)) :
    Proceeds R H (x >>= f) := fun s => proceeds_bind_at (hx s) fun a s' _ => hf a s'

lemma proceeds_get_at {f : σ → Comp σ β} (hf : ProceedsAt R H (f s) s) : ProceedsAt R H (get >>= f) s := hf

lemma proceeds_ite {c : Prop} [Decidable c] {x y : Comp σ α} (hx : Proceeds R H x) (hy : Proceeds R H y) :
    Proceeds R H (if c then x else y) := by
  split_ifs
  · exact hx
  · exact hy

lemma proceeds_ite_at {c : Prop} [Decidable c] {x y : Comp σ α} (hx : c → ProceedsAt R H x s)
    (hy : ¬c → ProceedsAt R H y s) : ProceedsAt R H (if c then x else y) s := by
  split_ifs with h
  · exact hx h
  · exact hy h

lemma proceeds_mono {R' : σ → σ → Prop} (h : ∀ s s', R s s' → R' s s') (hx : Proceeds R H x) :
    Proceeds R' H x := by
  intro s
  have hs := hx s
  unfold ProceedsAt at hs ⊢
  revert hs
  cases x s with
  | error s' =>
    intro hs
    obtain ⟨s₁, hsteps, hlast⟩ := hs
    exact ⟨s₁, Relation.ReflTransGen.mono h _ _ hsteps, hlast⟩
  | ok r => exact fun hs => Relation.ReflTransGen.mono h _ _ hs

lemma ProceedsAt.mono_of {R' : σ → σ → Prop} (hx : ProceedsAt R H x s) {P : σ → Prop}
    (hP : ∀ s s', P s → R s s' → P s') (h : ∀ s s', P s → R s s' → R' s s') (hs : P s) : ProceedsAt R' H x s := by
  have hrun : ∀ s', Relation.ReflTransGen R s s' → P s' ∧ Relation.ReflTransGen R' s s' := by
    intro s' hsteps
    induction hsteps with
    | refl => exact ⟨hs, .refl⟩
    | tail _ hstep ih => exact ⟨hP _ _ ih.1 hstep, ih.2.tail (h _ _ ih.1 hstep)⟩
  unfold ProceedsAt at hx ⊢
  revert hx
  cases x s with
  | error s' =>
    rintro ⟨s₁, hsteps, hlast⟩
    exact ⟨s₁, (hrun s₁ hsteps).2, hlast⟩
  | ok r => exact fun hsteps => (hrun _ hsteps).2

lemma ProceedsAt.invariant (hx : ProceedsAt R H x s) {P : σ → Prop}
    (hR : ∀ s s', P s → R s s' → P s') (hH : ∀ s s', P s → H s s' → P s') (hs : P s) : P (after x s) := by
  have hrun : ∀ s', Relation.ReflTransGen R s s' → P s' := by
    intro s' h
    induction h with
    | refl => exact hs
    | tail _ hstep ih => exact hR _ _ ih hstep
  unfold ProceedsAt at hx
  unfold after
  cases h : x s with
  | error s' =>
    rw [h] at hx
    obtain ⟨s₁, hsteps, hlast⟩ := hx
    exact hH _ _ (hrun s₁ hsteps) hlast
  | ok r =>
    rw [h] at hx
    exact hrun _ hx

end Proceeds

def Total (x : Comp σ α) : Prop := ∀ s, ∃ a s', x s = .ok (a, s')

@[grind .] lemma total_pure (a : α) : Total (pure a : Comp σ α) := fun s => ⟨a, s, rfl⟩

@[grind .] lemma total_get : Total (get : Comp σ σ) := fun s => ⟨s, s, rfl⟩

@[grind .] lemma total_modify (f : σ → σ) : Total (modify f : Comp σ Unit) := fun s => ⟨(), f s, rfl⟩

@[grind ←] lemma total_bind {x : Comp σ α} {f : α → Comp σ β} (hx : Total x) (hf : ∀ a, Total (f a)) :
    Total (x >>= f) := by
  intro s
  obtain ⟨a, s₁, hx⟩ := hx s
  obtain ⟨b, s₂, hf⟩ := hf a s₁
  refine ⟨b, s₂, ?_⟩
  change ((x s) >>= fun r => f r.1 r.2) = _
  rw [hx]
  exact hf

lemma total_ite {c : Prop} [Decidable c] {x y : Comp σ α} (hx : Total x) (hy : Total y) :
    Total (if c then x else y) := by
  split_ifs
  · exact hx
  · exact hy

@[grind ←] lemma total_forM {f : α → Comp σ PUnit} (hf : ∀ a, Total (f a)) (as : List α) : Total (as.forM f) := by
  induction as with
  | nil => exact total_pure _
  | cons a as ih => exact total_bind (hf a) fun _ => ih

end Effects
