import Aeglos.Kernel.Vmm

/-!
# Page-table descriptors, bit by bit

Which bits the masks have, and the address and flags of a composed descriptor.
-/

namespace Aeglos.Proofs

lemma addrMask_getLsbD (i : Nat) : addrMask.getLsbD i = decide (12 ≤ i ∧ i < 48) := by
  by_cases hi : i < 64
  · have h : ∀ k : Fin 64, addrMask.getLsbD k.val = decide (12 ≤ k.val ∧ k.val < 48) := by decide
    exact h ⟨i, hi⟩
  · rw [BitVec.getLsbD_of_ge _ _ (by omega)]
    simp
    omega

lemma blockMask_getLsbD (i : Nat) : blockMask.getLsbD i = decide (21 ≤ i ∧ i < 48) := by
  by_cases hi : i < 64
  · have h : ∀ k : Fin 64, blockMask.getLsbD k.val = decide (21 ≤ k.val ∧ k.val < 48) := by decide
    exact h ⟨i, hi⟩
  · rw [BitVec.getLsbD_of_ge _ _ (by omega)]
    simp
    omega

lemma testBit_of_aligned {n k i : Nat} (h : n % 2 ^ k = 0) (hi : i < k) : n.testBit i = false := by
  obtain ⟨c, rfl⟩ := Nat.dvd_of_mod_eq_zero h
  rw [Nat.testBit_two_pow_mul]
  simp
  omega

lemma ofNat_and_addrMask {n : Nat} (ha : n % 4096 = 0) (hn : n < 2 ^ 48) :
    BitVec.ofNat 64 n &&& addrMask = BitVec.ofNat 64 n := by
  apply BitVec.eq_of_getLsbD_eq
  intro i hi
  rw [BitVec.getLsbD_and, addrMask_getLsbD, BitVec.getLsbD_ofNat]
  by_cases hlo : i < 12
  · rw [testBit_of_aligned (k := 12) ha hlo]
    simp
  · by_cases hhi : i < 48
    · simp [hhi]
      omega
    · rw [Nat.testBit_lt_two_pow (lt_of_lt_of_le hn (Nat.pow_le_pow_right (by decide) (by omega)))]
      simp

lemma and_shift_ne_zero (e : Entry) {k : Nat} (hk : k < 64) : (e &&& (1#64 <<< k) != 0) = e.getLsbD k := by
  have h : (1#64 <<< k : Entry) = BitVec.twoPow 64 k := by simp [BitVec.twoPow]
  rw [h, BitVec.and_twoPow]
  cases hb : e.getLsbD k with
  | false => simp
  | true =>
    have hne : BitVec.twoPow 64 k ≠ 0 := by
      intro h0
      have := congrArg (BitVec.getLsbD · k) h0
      simp [hk] at this
    simpa using hne

lemma isValid_eq (e : Entry) : e.isValid = e.getLsbD 0 := and_shift_ne_zero e (by decide)

lemma isTable_eq (e : Entry) : e.isTable = e.getLsbD 1 := and_shift_ne_zero e (by decide)

lemma isUser_eq (e : Entry) : e.isUser = e.getLsbD 6 := and_shift_ne_zero e (by decide)

lemma isValid_zero : Entry.isValid 0#64 = false := by decide

def IsFlags (flags : Entry) : Prop := ∀ i, 12 ≤ i → i < 48 → flags.getLsbD i = false

structure DescribesPage (e : Entry) (page : Nat) (flags : Entry) : Prop where
  addr : e.addr = page
  attrs : e &&& ~~~addrMask = flags
  valid : e.isValid = flags.isValid
  table : e.isTable = flags.isTable

lemma describesPage {n : Nat} (ha : n % 4096 = 0) (hn : n < 2 ^ 48) {flags : Entry}
    (hf : IsFlags flags) : DescribesPage (BitVec.ofNat 64 n &&& addrMask ||| flags) n flags := by
  have hbit : ∀ i, (BitVec.ofNat 64 n &&& addrMask ||| flags).getLsbD i =
      if 12 ≤ i ∧ i < 48 then n.testBit i else flags.getLsbD i := by
    intro i
    rw [BitVec.getLsbD_or, BitVec.getLsbD_and, addrMask_getLsbD, BitVec.getLsbD_ofNat]
    by_cases hi : 12 ≤ i ∧ i < 48
    · have h64 : i < 64 := by omega
      rw [hf i hi.1 hi.2]
      simp [hi, h64]
    · simp [hi]
  constructor
  · have h : (BitVec.ofNat 64 n &&& addrMask ||| flags) &&& addrMask = BitVec.ofNat 64 n := by
      refine Eq.trans ?_ (ofNat_and_addrMask ha hn)
      apply BitVec.eq_of_getLsbD_eq
      intro i hi
      rw [BitVec.getLsbD_and, hbit, BitVec.getLsbD_and, addrMask_getLsbD, BitVec.getLsbD_ofNat]
      by_cases hm : 12 ≤ i ∧ i < 48
      · simp [hm, hi]
      · simp [hm]
    rw [Entry.addr, h, BitVec.toNat_ofNat, Nat.mod_eq_of_lt (by omega)]
  · apply BitVec.eq_of_getLsbD_eq
    intro i hi
    rw [BitVec.getLsbD_and, hbit, BitVec.getLsbD_not, addrMask_getLsbD]
    by_cases hm : 12 ≤ i ∧ i < 48
    · rw [hf i hm.1 hm.2]
      simp [hm]
    · simp [hm, hi]
  · rw [isValid_eq, isValid_eq, hbit, if_neg (by omega)]
  · rw [isTable_eq, isTable_eq, hbit, if_neg (by omega)]

lemma tableEntry_describes {n : Nat} (ha : n % 4096 = 0) (hn : n < 2 ^ 48) :
    (Memory.tableEntry n).isValid = true ∧ (Memory.tableEntry n).isTable = true ∧
      (Memory.tableEntry n).addr = n := by
  have hflags : IsFlags (pteValid ||| pteTable) := by
    intro i h1 h2
    have : ∀ k : Fin 64, 12 ≤ k.val → (pteValid ||| pteTable).getLsbD k.val = false := by decide
    exact this ⟨i, by omega⟩ h1
  have hd := describesPage ha hn hflags
  rw [ofNat_and_addrMask ha hn, ← BitVec.or_assoc] at hd
  exact ⟨hd.valid.trans (by decide), hd.table.trans (by decide), hd.addr⟩

lemma mergedFlags_getLsbD (existing flags : Entry) {i : Nat} (hi : i ≠ 54) :
    (Memory.mergedFlags existing flags).getLsbD i = flags.getLsbD i := by
  have huxn : ∀ j, pteUxn.getLsbD j = decide (j = 54) := by
    intro j
    by_cases hj : j < 64
    · have h : ∀ k : Fin 64, pteUxn.getLsbD k.val = decide (k.val = 54) := by decide
      exact h ⟨j, hj⟩
    · rw [BitVec.getLsbD_of_ge _ _ (by omega)]
      simp
      omega
  unfold Memory.mergedFlags
  split
  · rw [BitVec.getLsbD_or, BitVec.getLsbD_and, BitVec.getLsbD_not, BitVec.getLsbD_and,
      BitVec.getLsbD_and, BitVec.getLsbD_and, huxn]
    by_cases h64 : i < 64
    · simp [hi, h64]
    · simp [hi, h64, BitVec.getLsbD_of_ge flags i (by omega)]
  · rfl

lemma mergedFlags_isFlags (existing : Entry) {flags : Entry} (hf : IsFlags flags) :
    IsFlags (Memory.mergedFlags existing flags) := fun i h1 h2 => by
  rw [mergedFlags_getLsbD _ _ (by omega)]
  exact hf i h1 h2

lemma and_toNat_aligned (e mask : Entry) {k : Nat} (hk : mask.toNat % 2 ^ k = 0) :
    (e &&& mask).toNat % 2 ^ k = 0 := by
  rw [BitVec.toNat_and, Nat.and_mod_two_pow, hk, Nat.and_zero]

lemma and_toNat_le (e mask : Entry) : (e &&& mask).toNat ≤ mask.toNat := by
  rw [BitVec.toNat_and]
  exact Nat.and_le_right

def IsBlock (e : Entry) : Prop := ∀ i, 12 ≤ i → i < 21 → e.getLsbD i = false

lemma splitEntry_describes {e : Entry} (he : IsBlock e) (i : Index) :
    DescribesPage (Memory.splitEntry e i) ((e &&& blockMask).toNat + i.val * 4096)
      ((e &&& ~~~blockMask) ||| pteTable) := by
  have hal := and_toNat_aligned e blockMask (k := 21) (by decide)
  have hle := and_toNat_le e blockMask
  have hmask : blockMask.toNat = 2 ^ 48 - 2 ^ 21 := by decide
  have hi := i.isLt
  refine describesPage (by omega) (by omega) fun j h1 h2 => ?_
  rw [BitVec.getLsbD_or, BitVec.getLsbD_and, BitVec.getLsbD_not, blockMask_getLsbD]
  have htable : pteTable.getLsbD j = false := by
    have : ∀ k : Fin 64, 12 ≤ k.val → pteTable.getLsbD k.val = false := by decide
    exact this ⟨j, by omega⟩ h1
  by_cases hj : j < 21
  · simp [he j h1 hj, htable]
  · have h21 : 21 ≤ j := by omega
    simp [h21, h2, htable]

lemma splitFlags_isValid (e : Entry) : Entry.isValid ((e &&& ~~~blockMask) ||| pteTable) = e.isValid := by
  have h : pteTable.getLsbD 0 = false := by decide
  rw [isValid_eq, isValid_eq, BitVec.getLsbD_or, BitVec.getLsbD_and, BitVec.getLsbD_not, blockMask_getLsbD, h]
  simp

lemma splitFlags_isTable (e : Entry) : Entry.isTable ((e &&& ~~~blockMask) ||| pteTable) = true := by
  have h : pteTable.getLsbD 1 = true := by decide
  rw [isTable_eq, BitVec.getLsbD_or, h, Bool.or_true]

lemma userRwFlags_isFlags : IsFlags Memory.userRwFlags := by
  intro i h1 h2
  have : ∀ k : Fin 64, 12 ≤ k.val → k.val < 48 → Memory.userRwFlags.getLsbD k.val = false := by decide
  exact this ⟨i, by omega⟩ h1 h2

end Aeglos.Proofs
