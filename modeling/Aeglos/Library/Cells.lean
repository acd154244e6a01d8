import Mathlib.Tactic

/-!
# Cells written and read one after the other

A region of memory as a function from offsets to cells, and its first `n` cells as a list.
-/

namespace Cells

open List

variable {α : Type}

def firsts (cells : Nat → α) (n : Nat) : List α := (List.range n).map cells

lemma firsts_succ (cells : Nat → α) (n : Nat) : firsts cells (n + 1) = firsts cells n ++ [cells n] := by
  simp [firsts, range_succ]

lemma firsts_take (cells : Nat → α) {m n : Nat} (h : m ≤ n) : (firsts cells n).take m = firsts cells m := by
  rw [firsts, firsts, ← map_take, take_range, Nat.min_eq_left h]

lemma firsts_update (cells : Nat → α) {m n : Nat} (h : n ≤ m) (a : α) :
    firsts (Function.update cells m a) n = firsts cells n := by
  refine map_congr_left ?_
  intro k hk
  have hne : k ≠ m := by
    have := mem_range.mp hk
    omega
  exact Function.update_of_ne hne a cells

lemma firsts_write {cells : Nat → α} {xs : List α} {n : Nat} {a : α} (h : firsts cells n = xs.take n)
    (ha : xs[n]? = some a) : firsts (Function.update cells n a) (n + 1) = xs.take (n + 1) := by
  rw [firsts_succ, firsts_update cells le_rfl, Function.update_self, h, take_add_one, ha]
  rfl

lemma take_read {cells : Nat → α} {xs out : List α} (h : firsts cells xs.length = xs)
    (hout : out = xs.take out.length) (hlt : out.length < xs.length) :
    out ++ [cells out.length] = xs.take (out.length + 1) := by
  have hnext : firsts cells (out.length + 1) = xs.take (out.length + 1) := by
    rw [← firsts_take cells hlt, h]
  have hfirst : firsts cells out.length = xs.take out.length := by
    rw [← firsts_take cells hlt.le, h]
  rw [← hnext, firsts_succ, hfirst, ← hout]

end Cells
