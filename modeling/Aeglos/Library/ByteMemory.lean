import Mathlib.Tactic

/-!
# Byte-addressed memory

A memory of one byte for each 64-bit address. Addresses wrap around; the lemmas about
ranges are for ranges that do not.
-/

namespace ByteMemory

open List

variable {bytes : List UInt8}

abbrev Mem := BitVec 64 → UInt8

def window (m : Mem) (a : BitVec 64) (n : Nat) : List UInt8 :=
  (List.range n).map fun i => m (a + BitVec.ofNat 64 i)

def store (m : Mem) (a : BitVec 64) (bytes : List UInt8) : Mem := fun x =>
  bytes.getD (x - a).toNat (m x)

def copy (m : Mem) (src dst : BitVec 64) (n : Nat) : Mem := store m dst (window m src n)

@[simp] lemma window_length (m : Mem) (a : BitVec 64) (n : Nat) : (window m a n).length = n := by
  simp [window]

lemma window_congr {m m' : Mem} {a : BitVec 64} {n : Nat}
    (h : ∀ i < n, m' (a + BitVec.ofNat 64 i) = m (a + BitVec.ofNat 64 i)) :
    window m' a n = window m a n :=
  map_congr_left fun i hi => h i (mem_range.mp hi)

lemma take_window (m : Mem) (a : BitVec 64) {k n : Nat} (h : k ≤ n) : (window m a n).take k = window m a k := by
  rw [window, ← map_take, take_range, min_eq_left h]
  rfl

lemma window_part (m : Mem) (a : BitVec 64) {k n total : Nat} (h : k + n ≤ total) :
    window m (a + BitVec.ofNat 64 k) n = ((window m a total).drop k).take n := by
  refine ext_getElem? fun i => ?_
  by_cases hi : i < n
  · have haddr : a + BitVec.ofNat 64 k + BitVec.ofNat 64 i = a + BitVec.ofNat 64 (k + i) := by
      rw [BitVec.ofNat_add, BitVec.add_assoc]
    have hin : k + i < total := by omega
    rw [getElem?_take_of_lt hi, getElem?_drop]
    simp only [window, getElem?_map, getElem?_range hi, getElem?_range hin, Option.map_some, haddr]
  · rw [getElem?_eq_none (by simp; omega), getElem?_eq_none (by simp; omega)]

lemma toNat_add_of_lt {a : BitVec 64} {i : Nat} (h : a.toNat + i < 2 ^ 64) :
    (a + BitVec.ofNat 64 i).toNat = a.toNat + i := by
  rw [BitVec.toNat_add, BitVec.toNat_ofNat]
  omega

lemma store_outside (m : Mem) {a x : BitVec 64}
    (hfit : a.toNat + bytes.length ≤ 2 ^ 64)
    (hx : x.toNat < a.toNat ∨ a.toNat + bytes.length ≤ x.toNat) : store m a bytes x = m x := by
  have hfar : bytes.length ≤ (x - a).toNat := by
    have hxlt := x.isLt
    rw [BitVec.toNat_sub]
    omega
  rw [store, getD_eq_getElem?_getD, getElem?_eq_none hfar]
  rfl

lemma store_inside (m : Mem) (a : BitVec 64) {i : Nat} {b : UInt8}
    (hi : i < 2 ^ 64) (hb : bytes[i]? = some b) :
    store m a bytes (a + BitVec.ofNat 64 i) = b := by
  have hdist : (a + BitVec.ofNat 64 i - a).toNat = i := by
    rw [BitVec.add_comm, BitVec.add_sub_cancel, BitVec.toNat_ofNat, Nat.mod_eq_of_lt hi]
  rw [store, hdist, getD_eq_getElem?_getD, hb]
  rfl

lemma window_store (m : Mem) (a : BitVec 64) {n : Nat}
    (hfit : a.toNat + bytes.length ≤ 2 ^ 64) (h : n ≤ bytes.length) :
    window (store m a bytes) a n = bytes.take n := by
  refine ext_getElem? fun i => ?_
  by_cases hi : i < n
  · have hget : bytes[i]? = some (bytes.get ⟨i, by omega⟩) := getElem?_eq_getElem (by omega)
    simp only [window, getElem?_map, getElem?_range hi, Option.map_some]
    rw [store_inside m a (by omega) hget, getElem?_take_of_lt hi, hget]
  · rw [getElem?_eq_none (by simp; omega), getElem?_eq_none (by simp; omega)]

end ByteMemory
