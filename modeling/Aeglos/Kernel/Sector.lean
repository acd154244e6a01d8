import Aeglos.Kernel.Bytes

/-!
# Sectors
-/

namespace Aeglos

abbrev sectorSize : Nat := 512

abbrev Sector := Fin sectorSize → UInt8

namespace Sector

def zero : Sector := fun _ => 0

def byteAt (s : Sector) (off : Nat) : UInt8 := if h : off < sectorSize then s ⟨off, h⟩ else 0

def slice (s : Sector) (off len : Nat) : Bytes := (List.range len).map fun k => s.byteAt (off + k)

def patch (s : Sector) (off : Nat) (bytes : Bytes) : Sector := fun i =>
  if off ≤ i.val ∧ i.val < off + bytes.length then bytes.getD (i.val - off) 0 else s i

def u16at (s : Sector) (off : Nat) : Nat := fromLe (s.slice off 2)

def u32at (s : Sector) (off : Nat) : Nat := fromLe (s.slice off 4)

section Lemmas

variable (s : Sector) {off off' len k : Nat} {bytes : Bytes}

@[simp] lemma length_slice : (s.slice off len).length = len := by
  simp [slice]

lemma slice_congr {t : Sector} (h : ∀ k < len, s.byteAt (off + k) = t.byteAt (off + k)) :
    s.slice off len = t.slice off len :=
  List.map_congr_left fun k hk => h k (List.mem_range.mp hk)

lemma byteAt_patch_of_lt (h : off' < off) : (s.patch off bytes).byteAt off' = s.byteAt off' := by
  rw [byteAt, byteAt]
  split_ifs with hin
  · exact if_neg (by dsimp only; omega)
  · rfl

lemma byteAt_patch_of_ge (h : off + bytes.length ≤ off') : (s.patch off bytes).byteAt off' = s.byteAt off' := by
  rw [byteAt, byteAt]
  split_ifs with hin
  · exact if_neg (by dsimp only; omega)
  · rfl

lemma byteAt_patch_self (hk : k < bytes.length) (hin : off + k < sectorSize) :
    (s.patch off bytes).byteAt (off + k) = bytes.get ⟨k, hk⟩ := by
  rw [byteAt, dif_pos hin, patch, if_pos (by dsimp only; omega)]
  dsimp only
  rw [Nat.add_sub_cancel_left, List.getD_eq_getElem?_getD, List.getElem?_eq_getElem hk]
  rfl

lemma slice_patch_of_disjoint (h : off' + len ≤ off ∨ off + bytes.length ≤ off') :
    (s.patch off bytes).slice off' len = s.slice off' len := by
  refine slice_congr _ ?_
  intro k hk
  rcases h with h | h
  · exact byteAt_patch_of_lt s (by omega)
  · exact byteAt_patch_of_ge s (by omega)

lemma slice_patch_inside (hk : k + len ≤ bytes.length) (hin : off + bytes.length ≤ sectorSize) :
    (s.patch off bytes).slice (off + k) len = (bytes.drop k).take len := by
  refine List.ext_getElem (by simp; omega) ?_
  intro j hj hj'
  have hlt : j < len := by rwa [length_slice] at hj
  simp only [slice, List.getElem_map, List.getElem_range, List.getElem_take, List.getElem_drop, Nat.add_assoc]
  exact byteAt_patch_self s (by omega) (by omega)

lemma slice_patch_self (hin : off + bytes.length ≤ sectorSize) : (s.patch off bytes).slice off bytes.length = bytes := by
  have hinside := slice_patch_inside s (k := 0) (Nat.le_of_eq (Nat.zero_add bytes.length)) hin
  rwa [Nat.add_zero, List.drop_zero, List.take_length] at hinside

end Lemmas

end Sector

end Aeglos
