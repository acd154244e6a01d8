import Aeglos.Library.Runs

/-!
# A cache that fills itself at any time

Each client `c` has a cache. At any time a lookup `look s c v` that succeeds may be cached. An
action removes the entries that `flush` names.
-/

namespace LazyCache

open TransitionSystem

variable {σ α γ ν ε : Type}

inductive Act (α γ ν : Type) where
  | act (a : α)
  | fill (c : γ) (v : ν)

def actions : List (Act α γ ν) → List α
  | [] => []
  | .act a :: acts => a :: actions acts
  | .fill _ _ :: acts => actions acts

lemma actions_append (as bs : List (Act α γ ν)) : actions (as ++ bs) = actions as ++ actions bs := by
  induction as with
  | nil => rfl
  | cons a as ih => cases a <;> simp [actions, ih]

lemma actions_map_act (as : List α) : actions (as.map (.act : α → Act α γ ν)) = as := by
  induction as with
  | nil => rfl
  | cons a as ih => simp [actions, ih]

variable (step : σ → α → σ) (look : σ → γ → ν → Option ε) (flush : σ → α → γ → ε → Bool)

def cacheStep [DecidableEq γ] (p : σ × (γ → List ε)) : Act α γ ν → σ × (γ → List ε)
  | .act a => (step p.1 a, fun c => (p.2 c).filter fun e => !flush p.1 a c e)
  | .fill c v =>
    match look p.1 c v with
    | none => p
    | some e => (p.1, Function.update p.2 c (e :: p.2 c))

/-- What the caches may hold before the first action. -/
def mayInit (s : σ) (c : γ) (e : ε) : Prop := ∃ v, look s c v = some e

/-- What they may hold after one more action. -/
def mayStep (s : σ) (M : γ → ε → Prop) (a : α) (c : γ) (e : ε) : Prop :=
  (M c e ∧ flush s a c e = false) ∨ mayInit look (step s a) c e

def May (s : σ) (as : List α) : γ → ε → Prop :=
  (run (withHistory step (mayStep step look flush)) (s, mayInit look s) as).2

lemma may_concat (s : σ) (as : List α) (a : α) :
    May step look flush s (as ++ [a]) =
      mayStep step look flush (run step s as) (May step look flush s as) a := by
  unfold May
  rw [run_append, run_cons, run_nil, withHistory_snd, run_withHistory_fst]

lemma may_of_look {s : σ} {as : List α} {c : γ} {v : ν} {e : ε} (h : look (run step s as) c v = some e) :
    May step look flush s as c e := by
  induction as using List.reverseRecOn with
  | nil => exact ⟨v, h⟩
  | append_singleton as a ih =>
    rw [may_concat]
    rw [run_append] at h
    exact Or.inr ⟨v, h⟩

section Caches

variable [DecidableEq γ]

lemma fill_fst (p : σ × (γ → List ε)) (c : γ) (v : ν) : (cacheStep step look flush p (.fill c v)).1 = p.1 := by
  rw [cacheStep]
  cases look p.1 c v with
  | none => rfl
  | some e => rfl

lemma mem_fill {p : σ × (γ → List ε)} {c c' : γ} {v : ν} {e : ε} :
    e ∈ (cacheStep step look flush p (.fill c v)).2 c' ↔
      e ∈ p.2 c' ∨ (c' = c ∧ look p.1 c v = some e) := by
  rw [cacheStep]
  cases look p.1 c v with
  | none => simp
  | some e' =>
    by_cases hc : c' = c
    · subst hc
      simp [or_comm, eq_comm]
    · simp [hc]

lemma run_cache_fst (p : σ × (γ → List ε)) (acts : List (Act α γ ν)) :
    (run (cacheStep step look flush) p acts).1 = run step p.1 (actions acts) := by
  induction acts generalizing p with
  | nil => rfl
  | cons act acts ih =>
    rw [run_cons, ih]
    cases act with
    | act a => rfl
    | fill c v =>
      rw [fill_fst]
      rfl

lemma may_of_cached {s : σ} {acts : List (Act α γ ν)} {c : γ} {e : ε}
    (h : e ∈ (run (cacheStep step look flush) (s, fun _ => []) acts).2 c) :
    May step look flush s (actions acts) c e := by
  induction acts using List.reverseRecOn with
  | nil => cases h
  | append_singleton acts act ih =>
    rw [run_append, run_cons, run_nil] at h
    cases act with
    | act a =>
      rw [actions_append, show actions [(.act a : Act α γ ν)] = [a] from rfl, may_concat]
      obtain ⟨hmem, hkept⟩ := List.mem_filter.mp h
      rw [run_cache_fst] at hkept
      exact Or.inl ⟨ih hmem, by simpa using hkept⟩
    | fill c' v =>
      rw [actions_append, show actions [(.fill c' v : Act α γ ν)] = [] from rfl, List.append_nil]
      rcases (mem_fill step look flush).mp h with hold | ⟨rfl, hlook⟩
      · exact ih hold
      · rw [run_cache_fst] at hlook
        exact may_of_look step look flush hlook

lemma cached_of_may {s : σ} {as : List α} {c : γ} {e : ε} (h : May step look flush s as c e) :
    ∃ acts : List (Act α γ ν), actions acts = as ∧
      e ∈ (run (cacheStep step look flush) (s, fun _ => []) acts).2 c := by
  have hfill : ∀ acts : List (Act α γ ν), ∀ v, look (run step s (actions acts)) c v = some e →
      e ∈ (run (cacheStep step look flush) (s, fun _ => []) (acts ++ [.fill c v])).2 c := by
    intro acts v hv
    rw [run_append, run_cons, run_nil]
    rw [← run_cache_fst step look flush (s, fun _ => [])] at hv
    exact (mem_fill step look flush).mpr (Or.inr ⟨rfl, hv⟩)
  induction as using List.reverseRecOn with
  | nil =>
    obtain ⟨v, hv⟩ := h
    exact ⟨[.fill c v], rfl, hfill [] v hv⟩
  | append_singleton as a ih =>
    rw [may_concat] at h
    rcases h with ⟨hold, hkept⟩ | ⟨v, hv⟩
    · obtain ⟨acts, rfl, hmem⟩ := ih hold
      refine ⟨acts ++ [.act a], actions_append _ _, ?_⟩
      rw [run_append, run_cons, run_nil]
      refine List.mem_filter.mpr ⟨hmem, ?_⟩
      rw [run_cache_fst, hkept]
      rfl
    · have hacts := actions_map_act (γ := γ) (ν := ν) (as ++ [a])
      refine ⟨(as ++ [a]).map .act ++ [.fill c v], ?_, hfill _ v ?_⟩
      · rw [actions_append, hacts]
        exact List.append_nil _
      · rw [hacts, run_append]
        exact hv

end Caches

end LazyCache
