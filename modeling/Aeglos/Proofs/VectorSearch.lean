import Aeglos.Services.SemanticService

/-!
# The results of the similarity search

The search returns the first eight of all candidates, sorted.
-/

namespace Aeglos.Semantic

open Insertion List

variable {α : Type*} [LinearOrder α]

lemma addResult_eq {results : List (VecResult α)} (hsorted : Descending VecResult.similarity results)
    (hlength : results.length ≤ maxVecResults) (c : VecResult α) :
    addResult results c = (place VecResult.similarity c results).take maxVecResults := by
  rw [addResult]
  by_cases hlt : results.length < maxVecResults
  · have hin : (place VecResult.similarity c results).length ≤ maxVecResults := by
      rwa [place, orderedInsert_length]
    rw [if_pos hlt, bubbleUp_append hsorted, append_nil, take_of_length_le hin]
  rw [if_neg hlt]
  -- The results are full: the weakest one is the last.
  obtain ⟨better, weakest, rfl⟩ : ∃ better weakest, results = better ++ [weakest] := by
    rcases eq_nil_or_concat results with rfl | ⟨better, weakest, h⟩
    · exact absurd (Nat.zero_lt_succ 7) hlt
    · exact ⟨better, weakest, by rwa [concat_eq_append] at h⟩
  have hfull : better.length = maxVecResults - 1 := by
    rw [length_append, length_singleton] at hlt hlength
    omega
  have hlast : (better ++ [weakest])[maxVecResults - 1]? = some weakest := by
    rw [← hfull, getElem?_concat_length]
  have hset : (better ++ [weakest]).set (maxVecResults - 1) c = better ++ [c] := by
    simp [← hfull]
  have hcount : maxVecResults = better.length + 1 := by
    rw [hfull]
    rfl
  rw [hlast]
  dsimp only
  by_cases hweak : weakest.similarity < c.similarity
  · rw [if_pos hweak, hset, place_concat_of_lt hweak, ← hfull, bubbleUp_append (descending_concat_iff.mp hsorted).1,
      append_nil, hcount]
    exact (take_left' (orderedInsert_length ..)).symm
  · rw [if_neg hweak, place_concat_of_le hsorted (not_lt.mp hweak), hcount]
    simp [take_append]

lemma foldl_addResult (cs : List (VecResult α)) :
    cs.foldl addResult [] = (sorted VecResult.similarity cs).take maxVecResults := by
  induction cs using List.reverseRecOn with
  | nil => rfl
  | append_singleton cs c ih =>
    have hsorted : Descending VecResult.similarity ((sorted VecResult.similarity cs).take maxVecResults) :=
      (descending_sorted cs).sublist (take_sublist ..)
    rw [foldl_append, ih, sorted_concat, take_place]
    exact addResult_eq hsorted (length_take_le ..) c

def candidates (cosineSimilarity : Bytes → Option α) (threshold : α) (s : Store) : List (VecResult α) :=
  (usedEntries s.disk).filterMap (candidate cosineSimilarity threshold s)

lemma searchByVector_eq (cosineSimilarity : Bytes → Option α) (threshold : α) (s : Store) :
    searchByVector cosineSimilarity threshold s =
      (sorted VecResult.similarity (candidates cosineSimilarity threshold s)).take maxVecResults := by
  rw [searchByVector, ← foldl_addResult, candidates, foldl_filterMap]
  congr 1
  funext results e
  cases candidate cosineSimilarity threshold s e <;> rfl

/-- The search returns the best candidates, at most eight, in descending order, and equal ones in the order of
the index. -/
theorem searchByVector_best (cosineSimilarity : Bytes → Option α) (threshold : α) (s : Store) :
    ∃ rest, (searchByVector cosineSimilarity threshold s ++ rest).Perm (candidates cosineSimilarity threshold s) ∧
      (searchByVector cosineSimilarity threshold s).length = min 8 (candidates cosineSimilarity threshold s).length ∧
      (searchByVector cosineSimilarity threshold s).Pairwise (fun a b => b.similarity ≤ a.similarity) ∧
      (∀ a ∈ searchByVector cosineSimilarity threshold s, ∀ b ∈ rest, b.similarity ≤ a.similarity) ∧
      ∀ sim, ((searchByVector cosineSimilarity threshold s ++ rest).filter fun c => c.similarity = sim) =
        (candidates cosineSimilarity threshold s).filter fun c => c.similarity = sim := by
  rw [searchByVector_eq]
  generalize candidates cosineSimilarity threshold s = cs
  have hsorted : Descending VecResult.similarity (sorted VecResult.similarity cs) := descending_sorted cs
  rw [← take_append_drop maxVecResults (sorted VecResult.similarity cs)] at hsorted
  obtain ⟨hbest, -, hrest⟩ := pairwise_append.mp hsorted
  refine ⟨(sorted VecResult.similarity cs).drop maxVecResults, ?_, ?_, hbest, hrest, ?_⟩
  · rw [take_append_drop]
    exact perm_sorted cs
  · rw [length_take, (perm_sorted cs).length_eq]
    rfl
  · intro sim
    rw [take_append_drop, filter_sorted]

end Aeglos.Semantic
