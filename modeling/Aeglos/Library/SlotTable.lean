import Mathlib.Tactic

/-!
# Tables of optional entries

A fixed number of slots, each empty or holding an entry. The searches take the first slot in index
order.
-/

namespace SlotTable

open List Option Function

variable {n : Nat} {α : Type}
variable {R : α → α → Prop} {t t t' : Fin n → Option α} {i : Fin n} {f : α → α} {p : α → Bool}

def find (p : α → Bool) (t : Fin n → Option α) : Option (Fin n) := (List.finRange n).find? fun i => (t i).any p

def free (t : Fin n → Option α) : Option (Fin n) := (List.finRange n).find? fun i => (t i).isNone

def modify (t : Fin n → Option α) (i : Fin n) (f : α → α) : Fin n → Option α := Function.update t i ((t i).map f)

lemma find_some (h : find p t = some i) : ∃ a, t i = some a ∧ p a = true := by
  have hi := find?_some h
  cases ha : t i with
  | none => simp [ha] at hi
  | some a => exact ⟨a, rfl, by simpa [ha] using hi⟩

lemma find_none (h : find p t = none) {a : α} (ha : t i = some a) : p a = false := by
  have hall := find?_eq_none.mp h i (mem_finRange i)
  simpa [ha] using hall

lemma free_some (h : free t = some i) : t i = none := by
  simpa using find?_some h

lemma modify_self (t : Fin n → Option α) (i : Fin n) (f : α → α) : modify t i f i = (t i).map f := by
  simp [modify]

lemma modify_of_ne (t : Fin n → Option α) {i j : Fin n} (h : j ≠ i) (f : α → α) : modify t i f j = t j := by
  simp [modify, h]

lemma find_modify (hf : ∀ a, p (f a) = p a) (t : Fin n → Option α)
    (i : Fin n) : find p (modify t i f) = find p t := by
  have hsame : ∀ j, (modify t i f j).any p = (t j).any p := by
    intro j
    by_cases hj : j = i
    · subst hj
      rw [modify_self]
      cases t j with
      | none => rfl
      | some a => exact hf a
    · rw [modify_of_ne t hj]
  unfold find
  simp only [hsame]

def Holds (t : Fin n → Option α) (i : Fin n) (P : α → Prop) : Prop := ∃ a, t i = some a ∧ P a

/-- The tables have the same slots occupied, by entries that are related by `R`. -/
def Related (R : α → α → Prop) (t t' : Fin n → Option α) : Prop :=
  ∀ i, (t i = none ∧ t' i = none) ∨ ∃ a b, t i = some a ∧ t' i = some b ∧ R a b

lemma Holds.modify {P : α → Prop} (h : Holds t i P)
    (j : Fin n) (hf : ∀ a, P a → P (f a)) : Holds (SlotTable.modify t j f) i P := by
  obtain ⟨a, ha, hP⟩ := h
  by_cases hij : i = j
  · subst hij
    exact ⟨f a, by rw [modify_self, ha, map_some], hf a hP⟩
  · exact ⟨a, by rw [modify_of_ne t hij, ha], hP⟩

lemma Holds.update_of_none {i j : Fin n} {P : α → Prop}
    (h : Holds t i P) (hj : t j = none) (e : Option α) : Holds (Function.update t j e) i P := by
  obtain ⟨a, ha, hP⟩ := h
  have hij : i ≠ j := by
    rintro rfl
    simp [ha] at hj
  exact ⟨a, by rw [update_of_ne hij, ha], hP⟩

lemma Related.mono {R R' : α → α → Prop} (hR : ∀ a b, R a b → R' a b) (h : Related R t t') : Related R' t t' := by
  intro i
  rcases h i with hnone | ⟨a, b, ha, hb, hab⟩
  · exact Or.inl hnone
  · exact Or.inr ⟨a, b, ha, hb, hR a b hab⟩

lemma Related.refl (hR : ∀ a, R a a) (t : Fin n → Option α) : Related R t t := by
  intro i
  cases ha : t i with
  | none => exact Or.inl ⟨rfl, rfl⟩
  | some a => exact Or.inr ⟨a, a, rfl, rfl, hR a⟩

lemma Related.trans (hR : ∀ a b c, R a b → R b c → R a c)
    {t u v : Fin n → Option α} (h₁ : Related R t u) (h₂ : Related R u v) : Related R t v := by
  intro i
  rcases h₁ i with ⟨ht, hu⟩ | ⟨a, b, ht, hu, hab⟩
  · rcases h₂ i with ⟨-, hv⟩ | ⟨b, c, hu', -, -⟩
    · exact Or.inl ⟨ht, hv⟩
    · simp [hu] at hu'
  · rcases h₂ i with ⟨hu', -⟩ | ⟨b', c, hu', hv, hbc⟩
    · simp [hu] at hu'
    · obtain rfl : b = b' := some.inj (hu.symm.trans hu')
      exact Or.inr ⟨a, c, ht, hv, hR a b c hab hbc⟩

lemma related_map (t : Fin n → Option α) {f : Fin n → α → α}
    (hf : ∀ i a, R a (f i a)) : Related R t fun i => (t i).map (f i) := by
  intro i
  cases ha : t i with
  | none => exact Or.inl ⟨rfl, by simp [ha]⟩
  | some a => exact Or.inr ⟨a, f i a, rfl, by simp [ha], hf i a⟩

lemma related_modify_at (hR : ∀ a, R a a) (t : Fin n → Option α) (j : Fin n)
    (hf : ∀ a, t j = some a → R a (f a)) : Related R t (modify t j f) := by
  intro i
  by_cases hij : i = j
  · subst hij
    rw [modify_self]
    cases ha : t i with
    | none => exact Or.inl ⟨rfl, rfl⟩
    | some a => exact Or.inr ⟨a, f a, rfl, rfl, hf a ha⟩
  · rw [modify_of_ne t hij]
    exact Related.refl hR t i

lemma related_modify (hR : ∀ a, R a a) (t : Fin n → Option α) (j : Fin n)
    (hf : ∀ a, R a (f a)) : Related R t (modify t j f) :=
  related_modify_at hR t j fun a _ => hf a

lemma Related.of_some (h : Related R t t') {b : α} (hb : t' i = some b) : ∃ a, t i = some a ∧ R a b := by
  rcases h i with ⟨-, hn⟩ | ⟨a, b', ha, hb', hR⟩
  · simp [hb] at hn
  · obtain rfl : b = b' := some.inj (hb.symm.trans hb')
    exact ⟨a, ha, hR⟩

lemma Related.to_some (h : Related R t t') {a : α} (ha : t i = some a) : ∃ b, t' i = some b ∧ R a b := by
  rcases h i with ⟨hn, -⟩ | ⟨a', b, ha', hb, hR⟩
  · simp [ha] at hn
  · obtain rfl : a = a' := some.inj (ha.symm.trans ha')
    exact ⟨b, hb, hR⟩

section Bindings

variable {κ μ : Type} [DecidableEq κ] {t : Fin n → Option (κ × μ)} {log : List (κ × μ)} {k : κ} {i : Fin n}

/-- Bind a key in the slot that has it, or else in the slot `fallback`. -/
def bind (t : Fin n → Option (κ × μ)) (fallback : Fin n) (k : κ) (a : μ) : Fin n → Option (κ × μ) :=
  Function.update t ((find (fun b => decide (b.1 = k)) t).getD fallback) (some (k, a))

/-- No key is bound twice, and each is bound as in its latest entry in the log, which is the first one. -/
structure BindsLatest (t : Fin n → Option (κ × μ)) (log : List (κ × μ)) : Prop where
  unique : ∀ i j k a b, t i = some (k, a) → t j = some (k, b) → i = j
  latest : ∀ i k a, t i = some (k, a) → log.find? (fun b => decide (b.1 = k)) = some (k, a)

lemma bindsLatest_empty : BindsLatest (fun _ : Fin n => (none : Option (κ × μ))) [] where
  unique _ _ _ _ _ h := nomatch h
  latest _ _ _ h := nomatch h

lemma BindsLatest.slot_eq (h : BindsLatest t log) (fallback : Fin n) {j : Fin n} {a : μ} (hj : t j = some (k, a)) :
    (find (fun b => decide (b.1 = k)) t).getD fallback = j := by
  cases hfind : find (fun b => decide (b.1 = k)) t with
  | none => exact absurd (find_none hfind hj) (by simp)
  | some i =>
    obtain ⟨b, hb, hkey⟩ := find_some hfind
    obtain rfl : b.1 = k := of_decide_eq_true hkey
    exact h.unique i j b.1 b.2 a hb hj

lemma BindsLatest.read (h : BindsLatest t log) {fallback : Fin n} {k' : κ} {a a' : μ} (hi : bind t fallback k a i = some (k', a')) :
    i = (find (fun b => decide (b.1 = k)) t).getD fallback ∧ k' = k ∧ a' = a ∨ k' ≠ k ∧ t i = some (k', a') := by
  unfold SlotTable.bind at hi
  by_cases hs : i = (find (fun b => decide (b.1 = k)) t).getD fallback
  · rw [← hs, update_self] at hi
    obtain ⟨rfl, rfl⟩ := Prod.mk.inj (some.inj hi)
    exact Or.inl ⟨hs, rfl, rfl⟩
  · rw [update_of_ne hs] at hi
    refine Or.inr ⟨?_, hi⟩
    rintro rfl
    exact hs (h.slot_eq fallback hi).symm

lemma BindsLatest.bind (h : BindsLatest t log) (fallback : Fin n) (k : κ) (a : μ) :
    BindsLatest (bind t fallback k a) ((k, a) :: log) where
  unique i j k' a' b hi hj := by
    rcases h.read hi with ⟨his, rfl, -⟩ | ⟨hne, hi⟩
    · rcases h.read hj with ⟨hjs, -, -⟩ | ⟨hne, -⟩
      · exact his.trans hjs.symm
      · exact absurd rfl hne
    · rcases h.read hj with ⟨-, hk, -⟩ | ⟨-, hj⟩
      · exact absurd hk hne
      · exact h.unique i j k' a' b hi hj
  latest i k' a' hi := by
    rcases h.read hi with ⟨-, rfl, rfl⟩ | ⟨hne, hi⟩
    · exact find?_cons_of_pos (decide_eq_true rfl)
    · rw [find?_cons_of_neg (by simpa using hne.symm)]
      exact h.latest i k' a' hi

lemma bind_keeps {fallback : Fin n} {k' : κ} {a : μ} (a' : μ) (hi : t i = some (k, a))
    (hfallback : find (fun b => decide (b.1 = k')) t = none → fallback ≠ i) : ∃ b, bind t fallback k' a' i = some (k, b) := by
  unfold SlotTable.bind
  cases hfind : find (fun b => decide (b.1 = k')) t with
  | none => exact ⟨a, by rw [getD_none, update_of_ne (hfallback hfind).symm, hi]⟩
  | some j =>
    rw [getD_some]
    by_cases hij : i = j
    · obtain ⟨b, hb, hkey⟩ := find_some hfind
      obtain rfl := some.inj (hi.symm.trans (hij ▸ hb))
      exact ⟨a', by rw [hij, update_self, ← of_decide_eq_true hkey]⟩
    · exact ⟨a, by rw [update_of_ne hij, hi]⟩

end Bindings

end SlotTable
