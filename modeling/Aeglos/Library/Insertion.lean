import Mathlib.Data.List.Induction
import Mathlib.Data.List.Sort

/-!
# Insertion from the end

Each new element moves forward from the end, past the elements with a smaller key.
-/

namespace Insertion

open List

variable {β κ : Type*} [LinearOrder κ] (key : β → κ)

/-- Exchange the element at a place with the one before it as long as that has a smaller key. -/
def bubbleUp (l : List β) : Nat → List β
  | 0 => l
  | k + 1 =>
    match l[k]?, l[k + 1]? with
    | some a, some b => if key a < key b then bubbleUp ((l.set k b).set (k + 1) a) k else l
    | _, _ => l

abbrev Descending (l : List β) : Prop := l.Pairwise fun a b => key b ≤ key a

abbrev place (b : β) (l : List β) : List β := l.orderedInsert (fun x y => key y < key x) b

variable {key} {a b : β} {l : List β}

lemma place_of_le (h : ∀ x ∈ l, key b ≤ key x) : place key b l = l ++ [b] := by
  induction l with
  | nil => rfl
  | cons x l ih =>
    rw [place, orderedInsert_cons, if_neg (not_lt.mpr (h x mem_cons_self)), cons_append]
    exact congrArg (x :: ·) (ih fun y hy => h y (mem_cons_of_mem x hy))

lemma place_concat_of_lt (h : key a < key b) (l : List β) : place key b (l ++ [a]) = place key b l ++ [a] := by
  induction l with
  | nil => exact orderedInsert_cons_of_le _ [] h
  | cons x l ih =>
    simp only [place, cons_append, orderedInsert_cons]
    split_ifs
    · rfl
    · exact congrArg (x :: ·) ih

lemma descending_concat_iff : Descending key (l ++ [a]) ↔ Descending key l ∧ ∀ x ∈ l, key a ≤ key x := by
  simp [Descending, pairwise_append]

lemma place_concat_of_le (hl : Descending key (l ++ [a])) (h : key b ≤ key a) :
    place key b (l ++ [a]) = l ++ [a, b] := by
  rw [place_of_le, append_assoc]
  · rfl
  · intro x hx
    rcases mem_append.mp hx with hx | hx
    · exact h.trans ((descending_concat_iff.mp hl).2 x hx)
    · rwa [mem_singleton.mp hx]

lemma bubbleUp_append (hl : Descending key l) (t : List β) :
    bubbleUp key (l ++ b :: t) l.length = place key b l ++ t := by
  induction l using List.reverseRecOn generalizing t with
  | nil => rfl
  | append_singleton l a ih =>
    have hcur : (l ++ [a] ++ b :: t)[l.length]? = some a := by simp
    have hnext : (l ++ [a] ++ b :: t)[l.length + 1]? = some b := by simp
    have hswap : ((l ++ [a] ++ b :: t).set l.length b).set (l.length + 1) a = l ++ b :: (a :: t) := by simp
    rw [length_append, length_singleton, bubbleUp, hcur, hnext]
    dsimp only
    by_cases h : key a < key b
    · rw [if_pos h, hswap, ih (descending_concat_iff.mp hl).1, place_concat_of_lt h, append_assoc]
      rfl
    · rw [if_neg h, place_concat_of_le hl (not_lt.mp h)]
      simp

lemma descending_place (hl : Descending key l) : Descending key (place key b l) := by
  induction l with
  | nil => exact pairwise_singleton ..
  | cons x l ih =>
    obtain ⟨hx, hl'⟩ := pairwise_cons.mp hl
    simp only [place, orderedInsert_cons]
    split_ifs with h
    · refine pairwise_cons.mpr ⟨?_, hl⟩
      intro y hy
      rcases mem_cons.mp hy with rfl | hy
      · exact h.le
      · exact (hx y hy).trans h.le
    · refine pairwise_cons.mpr ⟨?_, ih hl'⟩
      intro y hy
      rcases (mem_orderedInsert ..).mp hy with rfl | hy
      · exact not_lt.mp h
      · exact hx y hy

lemma filter_place (hl : Descending key l) (c : κ) :
    ((place key b l).filter fun x => key x = c) = (l ++ [b]).filter fun x => key x = c := by
  induction l using List.reverseRecOn with
  | nil => rfl
  | append_singleton l a ih =>
    by_cases h : key a < key b
    · rw [place_concat_of_lt h, filter_append, ih (descending_concat_iff.mp hl).1, ← filter_append]
      simp only [filter_append, append_assoc, append_cancel_left_eq]
      by_cases hc : key a = c
      · have hne : key b ≠ c := fun hb => h.ne (hc.trans hb.symm)
        simp [hne]
      · simp [hc]
    · rw [place_concat_of_le hl (not_lt.mp h), append_assoc]
      rfl

lemma take_place (n : Nat) (l : List β) : (place key b l).take n = (place key b (l.take n)).take n := by
  induction l generalizing n with
  | nil => simp
  | cons x l ih =>
    cases n with
    | zero => simp
    | succ n =>
      simp only [place, take_succ_cons, orderedInsert_cons]
      split_ifs
      · cases n <;> simp [take_take]
      · rw [take_succ_cons, take_succ_cons]
        exact congrArg (x :: ·) (ih n)

variable (key) in
def sorted (l : List β) : List β := l.foldl (fun l b => place key b l) []

lemma sorted_concat (l : List β) (b : β) : sorted key (l ++ [b]) = place key b (sorted key l) := by
  rw [sorted, foldl_append]
  rfl

lemma descending_sorted (l : List β) : Descending key (sorted key l) := by
  induction l using List.reverseRecOn with
  | nil => exact List.Pairwise.nil
  | append_singleton l b ih =>
    rw [sorted_concat]
    exact descending_place ih

lemma perm_sorted (l : List β) : (sorted key l).Perm l := by
  induction l using List.reverseRecOn with
  | nil => rfl
  | append_singleton l b ih =>
    rw [sorted_concat]
    exact (perm_orderedInsert ..).trans ((ih.cons b).trans (perm_append_singleton b l).symm)

lemma filter_sorted (l : List β) (c : κ) :
    ((sorted key l).filter fun x => key x = c) = l.filter fun x => key x = c := by
  induction l using List.reverseRecOn with
  | nil => rfl
  | append_singleton l b ih => rw [sorted_concat, filter_place (descending_sorted l), filter_append, ih, filter_append]

end Insertion
