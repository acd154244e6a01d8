import Mathlib.Tactic

/-!
# Disks and the writes made to them

A program that stops half way has made a first part of its writes.
-/

namespace WriteLog

variable {β : Type}

def apply (disk : Nat → β) (writes : List (Nat × β)) : Nat → β :=
  writes.foldl (fun disk w => Function.update disk w.1 w.2) disk

@[simp] lemma apply_cons (disk : Nat → β) (w : Nat × β) (writes : List (Nat × β)) :
    apply disk (w :: writes) = apply (Function.update disk w.1 w.2) writes := rfl

lemma apply_append (disk : Nat → β) (writes writes' : List (Nat × β)) :
    apply disk (writes ++ writes') = apply (apply disk writes) writes' := List.foldl_append ..

lemma apply_of_not_mem {disk : Nat → β} {writes : List (Nat × β)} {n : Nat} (h : ∀ w ∈ writes, w.1 ≠ n) :
    apply disk writes n = disk n := by
  induction writes generalizing disk with
  | nil => rfl
  | cons w writes ih =>
    rw [apply_cons, ih fun w' hw' => h w' (List.mem_cons_of_mem w hw')]
    exact Function.update_of_ne (h w List.mem_cons_self).symm ..

end WriteLog
