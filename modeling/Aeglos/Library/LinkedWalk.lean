import Mathlib.Tactic

/-!
# Walks in a linked structure

`child` gives the node behind a slot. `walk` follows a list of slots from a root.
-/

namespace LinkedWalk

variable {ν ι : Type}

def walk (child : ν → ι → Option ν) (r : ν) (p : List ι) : Option ν := p.foldlM child r

@[simp] lemma walk_nil (child : ν → ι → Option ν) (r : ν) : walk child r [] = some r := rfl

lemma walk_concat (child : ν → ι → Option ν) (r : ν) (p : List ι) (i : ι) :
    walk child r (p ++ [i]) = (walk child r p).bind (child · i) := by
  unfold walk
  rw [List.foldlM_append]
  simp

lemma walk_concat_eq_some {child : ν → ι → Option ν} {r t : ν} {p : List ι} {i : ι} :
    walk child r (p ++ [i]) = some t ↔ ∃ u, walk child r p = some u ∧ child u i = some t := by
  rw [walk_concat, Option.bind_eq_some_iff]

variable {child child' : ν → ι → Option ν} {r : ν}

lemma walk_congr (h : ∀ q t i, walk child r q = some t → child' t i = child t i) (p : List ι) :
    walk child' r p = walk child r p := by
  induction p using List.reverseRecOn with
  | nil => rfl
  | append_singleton p i ih =>
    rw [walk_concat, walk_concat, ih]
    cases ht : walk child r p with
    | none => rfl
    | some t => exact h p t i ht

lemma walk_mono
    (h : ∀ q t i u, walk child r q = some t → child t i = some u → child' t i = some u)
    {p : List ι} {t : ν} (ht : walk child r p = some t) : walk child' r p = some t := by
  induction p using List.reverseRecOn generalizing t with
  | nil => exact ht
  | append_singleton p i ih =>
    obtain ⟨u, hu, hi⟩ := walk_concat_eq_some.mp ht
    exact walk_concat_eq_some.mpr ⟨u, ih hu, h p u i t hu hi⟩

/-- After linking a node `n` without children into slot `i` of `s`, a walk is an old one or
ends in `n` through that slot. -/
lemma walk_link {s n : ν} {i : ι}
    (h : ∀ q t j, walk child r q = some t →
      child' t j = child t j ∨ (t = s ∧ j = i ∧ child' t j = some n))
    (hn : ∀ j, child' n j = none) {p : List ι} {t : ν} (ht : walk child' r p = some t) :
    walk child r p = some t ∨ (t = n ∧ ∃ q, p = q ++ [i] ∧ walk child r q = some s) := by
  induction p using List.reverseRecOn generalizing t with
  | nil => exact Or.inl ht
  | append_singleton p j ih =>
    obtain ⟨u, hu, hj⟩ := walk_concat_eq_some.mp ht
    rcases ih hu with hold | ⟨rfl, -⟩
    · rcases h p u j hold with hsame | ⟨rfl, rfl, hnew⟩
      · exact Or.inl (walk_concat_eq_some.mpr ⟨u, hold, hsame ▸ hj⟩)
      · exact Or.inr ⟨Option.some.inj (hj.symm.trans hnew), p, rfl, hold⟩
    · simp [hn j] at hj

end LinkedWalk
