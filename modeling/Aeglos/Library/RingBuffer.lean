import Mathlib.Algebra.Group.Fin.Basic
import Mathlib.Tactic

/-!
# Ring buffers

A circular buffer of `n` cells with a read index, a write index and a count, and its queue.
-/

namespace RingBuffer

open List Function

variable {α : Type} {n : Nat} [NeZero n]

def contents (buffer : Fin n → Option α) (head : Fin n) (count : Nat) : List α :=
  (List.range count).filterMap fun k => buffer (head + Fin.ofNat n k)

structure HoldsQueue (buffer : Fin n → Option α) (head tail : Fin n) (count : Nat) (xs : List α) :
    Prop where
  length : xs.length = count
  le : count ≤ n
  tail : tail = head + Fin.ofNat n count
  cells : ∀ k, k < count → buffer (head + Fin.ofNat n k) = xs[k]?

lemma ofNat_succ (k : Nat) : Fin.ofNat n (k + 1) = 1 + Fin.ofNat n k := by
  apply Fin.ext
  simp [Fin.val_add, Nat.add_comm]

lemma ofNat_add (k l : Nat) : Fin.ofNat n (k + l) = Fin.ofNat n k + Fin.ofNat n l := by
  apply Fin.ext
  simp [Fin.val_add]

lemma offset_ne (head : Fin n) {k l : Nat} (hk : k < n) (hl : l < n) (hne : k ≠ l) :
    head + Fin.ofNat n k ≠ head + Fin.ofNat n l := by
  intro h
  have hval := congrArg Fin.val (add_left_cancel h)
  simp only [Fin.val_ofNat, Nat.mod_eq_of_lt hk, Nat.mod_eq_of_lt hl] at hval
  exact hne hval

variable {buffer : Fin n → Option α} {head tail : Fin n} {count : Nat} {xs : List α}

lemma HoldsQueue.empty (buffer : Fin n → Option α) (head : Fin n) :
    HoldsQueue buffer head head 0 [] where
  length := rfl
  le := Nat.zero_le n
  tail := by simp
  cells k hk := absurd hk (Nat.not_lt_zero k)

lemma HoldsQueue.contents_eq (h : HoldsQueue buffer head tail count xs) : contents buffer head count = xs := by
  have hcells : ∀ k ∈ List.range count, buffer (head + Fin.ofNat n k) = xs[k]? :=
    fun k hk => h.cells k (mem_range.mp hk)
  rw [contents, filterMap_congr hcells, ← h.length]
  clear h hcells
  induction xs using List.reverseRecOn with
  | nil => rfl
  | append_singleton xs x ih =>
    have hold : ∀ k ∈ List.range xs.length, (xs ++ [x])[k]? = xs[k]? := fun k hk =>
      getElem?_append_left (mem_range.mp hk)
    rw [length_append, length_singleton, range_succ, filterMap_append, filterMap_congr hold, ih]
    simp

lemma HoldsQueue.push (h : HoldsQueue buffer head tail count xs) (hlt : count < n) (x : α) :
    HoldsQueue (Function.update buffer tail (some x)) head (tail + 1) (count + 1) (xs ++ [x]) where
  length := by simp [h.length]
  le := hlt
  tail := by rw [h.tail, ofNat_succ, add_assoc, add_comm (Fin.ofNat n count)]
  cells k hk := by
    by_cases he : k = count
    · subst he
      rw [← h.tail, update_self, ← h.length, getElem?_concat_length]
    · have hk' : k < count := by omega
      have hne : head + Fin.ofNat n k ≠ tail := by
        rw [h.tail]
        exact offset_ne head (by omega) hlt he
      rw [update_of_ne hne, h.cells k hk', getElem?_append_left (h.length ▸ hk')]

lemma HoldsQueue.front {x : α} (h : HoldsQueue buffer head tail count (x :: xs)) : buffer head = some x := by
  have hpos : 0 < count := by
    rw [← h.length]
    exact Nat.succ_pos _
  have hcell := h.cells 0 hpos
  simpa using hcell

lemma HoldsQueue.pop {x : α} (h : HoldsQueue buffer head tail count (x :: xs)) :
    HoldsQueue (Function.update buffer head none) (head + 1) tail (count - 1) xs := by
  have hlen : xs.length + 1 = count := h.length
  have hle := h.le
  refine
    { length := by omega
      le := by omega
      tail := ?_
      cells := fun k hk => ?_ }
  · rw [h.tail, ← hlen, ofNat_succ, Nat.add_sub_cancel, add_assoc]
  · have hnext : head + 1 + Fin.ofNat n k = head + Fin.ofNat n (k + 1) := by
      rw [ofNat_succ, add_assoc]
    have hne : head + Fin.ofNat n (k + 1) ≠ head := by
      have hoff := offset_ne head (k := k + 1) (l := 0) (by omega) (by omega) (by omega)
      simpa using hoff
    rw [hnext, update_of_ne hne, h.cells (k + 1) (by omega), getElem?_cons_succ]

lemma HoldsQueue.discard (h : HoldsQueue buffer head tail count xs) {k : Nat} (hk : k ≤ count) :
    HoldsQueue buffer (head + Fin.ofNat n k) tail (count - k) (xs.drop k) where
  length := by rw [length_drop, h.length]
  le := (Nat.sub_le count k).trans h.le
  tail := by rw [h.tail, add_assoc, ← ofNat_add, Nat.add_sub_cancel' hk]
  cells i hi := by
    rw [add_assoc, ← ofNat_add, h.cells (k + i) (by omega), getElem?_drop]

end RingBuffer
