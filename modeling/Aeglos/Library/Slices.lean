import Aeglos.Library.Outcomes

/-!
# Reads with bounds checks

A read out of range gives nothing, and a computation stops at it.
-/

namespace Slices

variable {α : Type} {p : List α} {a b i : Nat}

def slice (p : List α) (a b : Nat) : Option (List α) :=
  if a ≤ b ∧ b ≤ p.length then some ((p.drop a).take (b - a)) else none

lemma slice_eq_some (hab : a ≤ b) (hb : b ≤ p.length) : slice p a b = some ((p.drop a).take (b - a)) :=
  if_pos ⟨hab, hb⟩

lemma slice_eq_none_iff : slice p a b = none ↔ ¬(a ≤ b ∧ b ≤ p.length) := by
  unfold slice
  split_ifs with h
  · simp [h]
  · simp [h]

lemma length_slice {s : List α} (h : slice p a b = some s) : s.length = b - a := by
  unfold slice at h
  split_ifs at h with hab
  obtain rfl := Option.some.inj h
  rw [List.length_take, List.length_drop]
  omega

def sliceFrom (p : List α) (a : Nat) : Option (List α) := slice p a p.length

lemma sliceFrom_eq_some (ha : a ≤ p.length) : sliceFrom p a = some (p.drop a) := by
  rw [sliceFrom, slice_eq_some ha le_rfl, ← List.length_drop, List.take_length]

/-- The length of `buf[a..b]` in a buffer of `len` elements. -/
def extent (len a b : Nat) : Option Nat := if a ≤ b ∧ b ≤ len then some (b - a) else none

lemma extent_eq_some {len : Nat} (hab : a ≤ b) (hb : b ≤ len) : extent len a b = some (b - a) := if_pos ⟨hab, hb⟩

/-- `copy_from_slice` into a slice of `room` elements. -/
def copied (room : Nat) (src : List α) : Option (List α) := if src.length = room then some src else none

def overwrite (buf : List α) (a : Nat) (src : List α) : Option (List α) :=
  if a + src.length ≤ buf.length then some (buf.take a ++ src ++ buf.drop (a + src.length)) else none

lemma overwrite_eq_some {buf src : List α} (h : a + src.length ≤ buf.length) :
    ∃ buf', overwrite buf a src = some buf' ∧ buf'.length = buf.length := by
  refine ⟨_, if_pos h, ?_⟩
  simp only [List.length_append, List.length_take, List.length_drop]
  omega

def overwriteIf (c : Prop) [Decidable c] (buf : List α) (a : Nat) (src : List α) : Option (List α) :=
  if c then overwrite buf a src else some buf

lemma overwriteIf_eq_some {c : Prop} [Decidable c] {buf src : List α} (h : c → a + src.length ≤ buf.length) :
    ∃ buf', overwriteIf c buf a src = some buf' ∧ buf'.length = buf.length := by
  unfold overwriteIf
  split_ifs with hc
  · exact overwrite_eq_some (h hc)
  · exact ⟨buf, rfl, rfl⟩

def checked (width n : Nat) : Option Nat := if n < 2 ^ width then some n else none

lemma checked_eq_some {width n : Nat} (h : n < 2 ^ width) : checked width n = some n := if_pos h

def checkedSub (a b : Nat) : Option Nat := if b ≤ a then some (a - b) else none

lemma checkedSub_eq_some (h : b ≤ a) : checkedSub a b = some (a - b) := if_pos h

section Loops

variable {β : Type}

/-- A loop over a list succeeds when each of its steps does, with an invariant that may speak of the
elements to come. -/
lemma foldlM_eq_some {f : β → α → Option β} {P : List α → β → Prop}
    (hf : ∀ a as b, P (a :: as) b → ∃ b', f b a = some b' ∧ P as b') {as : List α} {b : β} (h : P as b) :
    ∃ b', as.foldlM f b = some b' ∧ P [] b' := by
  induction as generalizing b with
  | nil => exact ⟨b, rfl, h⟩
  | cons a as ih =>
    obtain ⟨b', hb', hP⟩ := hf a as b h
    rw [List.foldlM_cons, hb']
    exact ih hP

lemma mapM_eq_some {f : α → Option β} {as : List α} (h : ∀ a ∈ as, ∃ b, f a = some b) :
    ∃ bs, as.mapM f = some bs ∧ bs.length = as.length := by
  induction as with
  | nil => exact ⟨[], rfl, rfl⟩
  | cons a as ih =>
    obtain ⟨b, hb⟩ := h a List.mem_cons_self
    obtain ⟨bs, hbs, hlength⟩ := ih fun a' ha' => h a' (List.mem_cons_of_mem a ha')
    refine ⟨b :: bs, ?_, by rw [List.length_cons, List.length_cons, hlength]⟩
    rw [List.mapM_cons, hb, hbs]
    rfl

end Loops

end Slices

namespace Effects

variable {σ α : Type} {Q : α → σ → Prop} {E : σ → Prop} {s : σ}

def orStop : Option α → Comp σ α
  | some a => pure a
  | none => stop

@[simp] lemma outcome_orStop_some (a : α) : Outcome (orStop (some a)) s Q E ↔ Q a s := Iff.rfl

@[simp] lemma outcome_orStop_none : Outcome (orStop (none : Option α)) s Q E ↔ E s := Iff.rfl

lemma outcome_index {p : List α} {i : Nat} (hi : i < p.length) : Outcome (orStop p[i]?) s Q E ↔ Q p[i] s := by
  rw [List.getElem?_eq_getElem hi, outcome_orStop_some]

lemma outcome_slice {p : List α} {Q : List α → σ → Prop} {a b : Nat} (hab : a ≤ b) (hb : b ≤ p.length) :
    Outcome (orStop (Slices.slice p a b)) s Q E ↔ Q ((p.drop a).take (b - a)) s := by
  rw [Slices.slice_eq_some hab hb, outcome_orStop_some]

lemma outcome_sliceFrom {p : List α} {Q : List α → σ → Prop} {a : Nat} (ha : a ≤ p.length) :
    Outcome (orStop (Slices.sliceFrom p a)) s Q E ↔ Q (p.drop a) s := by
  rw [Slices.sliceFrom_eq_some ha, outcome_orStop_some]

end Effects
