import Aeglos.Kernel.Heap

/-!
# Blocks, headers and user pointers

A user pointer of the heap shim lies in its block behind its header.
-/

namespace Aeglos.HeapShim

open ByteMemory List BitVec

lemma twoPow_pred {k : Nat} (hk : k < 64) : BitVec.twoPow 64 k - 1 = BitVec.ofNat 64 (2 ^ k - 1) := by
  have hlt : 2 ^ k < 2 ^ 64 := Nat.pow_lt_pow_right (by decide) hk
  have hpos : 0 < 2 ^ k := Nat.two_pow_pos k
  refine eq_of_toNat_eq ?_
  rw [toNat_sub, toNat_twoPow_of_lt hk, toNat_ofNat]
  change (2 ^ 64 - 1 + 2 ^ k) % 2 ^ 64 = (2 ^ k - 1) % 2 ^ 64
  omega

lemma toNat_and_not_pred (y : BitVec 64) {k : Nat} (hk : k < 64) :
    (y &&& ~~~(BitVec.twoPow 64 k - 1)).toNat = y.toNat / 2 ^ k * 2 ^ k := by
  refine Nat.eq_of_testBit_eq fun i => ?_
  rw [twoPow_pred hk, Nat.testBit_mul_two_pow, Nat.testBit_div_two_pow]
  change (y &&& ~~~BitVec.ofNat 64 (2 ^ k - 1)).getLsbD i = _
  rw [getLsbD_and, getLsbD_not, getLsbD_ofNat, Nat.testBit_two_pow_sub_one]
  by_cases hi : k ≤ i
  · have hsum : i - k + k = i := by omega
    have hnot : ¬i < k := by omega
    rw [hsum, testBit_toNat]
    by_cases hw : i < 64
    · simp [hi, hnot, hw]
    · simp [hi, hw, getLsbD_of_ge y i (by omega)]
  · have hlow : i < k := by omega
    simp [hi, hlow]

lemma isPowerOfTwo_iff {a : BitVec 64} : isPowerOfTwo a = true ↔ ∃ k < 64, a = BitVec.twoPow 64 k := by
  simp [isPowerOfTwo]

lemma userAddr_spec {block : BitVec 64} {k : Nat} (hk : k < 64)
    (hfit : block.toNat + 32 + 2 ^ k ≤ 2 ^ 64) :
    2 ^ k ∣ (userAddr block (BitVec.twoPow 64 k)).toNat ∧
      block.toNat + 32 ≤ (userAddr block (BitVec.twoPow 64 k)).toNat ∧
      (userAddr block (BitVec.twoPow 64 k)).toNat < block.toNat + 32 + 2 ^ k := by
  have hpos : 0 < 2 ^ k := Nat.two_pow_pos k
  have hsum : (block + headerSize + (BitVec.twoPow 64 k - 1)).toNat = block.toNat + 32 + (2 ^ k - 1) := by
    rw [twoPow_pred hk, toNat_add, toNat_add, toNat_ofNat]
    change ((block.toNat + 32) % 2 ^ 64 + (2 ^ k - 1) % 2 ^ 64) % 2 ^ 64 = _
    omega
  rw [userAddr, toNat_and_not_pred _ hk, hsum]
  have hdiv := Nat.div_add_mod (block.toNat + 32 + (2 ^ k - 1)) (2 ^ k)
  have hmod := Nat.mod_lt (block.toNat + 32 + (2 ^ k - 1)) hpos
  rw [Nat.mul_comm] at hdiv
  exact ⟨Dvd.intro_left _ rfl, by omega, by omega⟩

variable (A : Allocator)

def granted (size align : BitVec 64) (h : Heap) : Block :=
  ⟨(A.alloc h (allocSize size (minAlign align))).1, allocSize size (minAlign align)⟩

/-- The header and the user's region, in unbounded arithmetic, lie in the block. -/
structure InBlock (b : Block) (p : BitVec 64) (size : Nat) : Prop where
  header : b.addr.toNat + 32 ≤ p.toNat
  region : p.toNat + size ≤ b.top

def AllocInBounds (size align : BitVec 64) (h : Heap) : Prop :=
  (cAlignedAlloc A size align h).1 = 0 ∨
    max align.toNat 16 ∣ (cAlignedAlloc A size align h).1.toNat ∧
      InBlock (granted A size align h) (cAlignedAlloc A size align h).1 size.toNat

variable {A}

lemma minAlign_toNat (align : BitVec 64) : (minAlign align).toNat = max align.toNat 16 := by
  unfold minAlign
  split
  case isTrue hlt =>
    have hlt' : align.toNat < 16 := hlt
    change 16 = max align.toNat 16
    omega
  case isFalse hge =>
    have hge' : ¬align.toNat < 16 := hge
    omega

lemma allocSize_toNat (size align : BitVec 64) :
    (allocSize size align).toNat = (size.toNat + 32 + align.toNat) % 2 ^ 64 := by
  rw [allocSize, toNat_add, toNat_add]
  change ((size.toNat + 32) % 2 ^ 64 + align.toNat) % 2 ^ 64 = _
  omega

lemma cAlignedAlloc_ne_zero {size align : BitVec 64} {h : Heap}
    (hne : (cAlignedAlloc A size align h).1 ≠ 0) :
    ∃ k < 64, minAlign align = BitVec.twoPow 64 k ∧ (granted A size align h).addr ≠ 0 ∧
      cAlignedAlloc A size align h =
        (userAddr (granted A size align h).addr (BitVec.twoPow 64 k),
          { h with
            mem := store (A.alloc h (allocSize size (minAlign align))).2
              (userAddr (granted A size align h).addr (BitVec.twoPow 64 k) - headerSize)
              (headerBytes (granted A size align h).addr (granted A size align h).size 16)
            blocks := granted A size align h :: h.blocks }) := by
  unfold cAlignedAlloc at hne ⊢
  dsimp only at hne ⊢
  by_cases hpow : isPowerOfTwo (minAlign align) = true
  · obtain ⟨k, hk, halign⟩ := isPowerOfTwo_iff.mp hpow
    rw [if_neg (by simp [hpow])] at hne ⊢
    by_cases hnull : (A.alloc h (allocSize size (minAlign align))).1 = 0
    · rw [if_pos hnull] at hne
      exact absurd rfl hne
    · refine ⟨k, hk, halign, hnull, ?_⟩
      rw [if_neg hnull, granted, halign]
  · rw [if_pos (by simpa using hpow)] at hne
    exact absurd rfl hne

lemma directMapEnd_lt : directMapEnd + 64 < 2 ^ 64 := by decide

lemma granted_size (size align : BitVec 64) (h : Heap) :
    (granted A size align h).size.toNat = (size.toNat + 32 + max align.toNat 16) % 2 ^ 64 := by
  rw [← minAlign_toNat]
  exact allocSize_toNat size (minAlign align)

section Results

variable {size align : BitVec 64} {h : Heap}

lemma granted_mapped (hne : (cAlignedAlloc A size align h).1 ≠ 0) :
    (granted A size align h).top ≤ directMapEnd := by
  obtain ⟨k, -, -, hblock, -⟩ := cAlignedAlloc_ne_zero hne
  exact A.fits h _ hblock

lemma alloc_inBlock (hne : (cAlignedAlloc A size align h).1 ≠ 0)
    (hlt : size.toNat + 32 + max align.toNat 16 < 2 ^ 64) :
    max align.toNat 16 ∣ (cAlignedAlloc A size align h).1.toNat ∧
      InBlock (granted A size align h) (cAlignedAlloc A size align h).1 size.toNat := by
  have hmapped := granted_mapped hne
  have hsize := granted_size (A := A) size align h
  have hend := directMapEnd_lt
  obtain ⟨k, hk, halign, hblock, heq⟩ := cAlignedAlloc_ne_zero hne
  have hmax : max align.toNat 16 = 2 ^ k := by
    rw [← minAlign_toNat, halign, toNat_twoPow_of_lt hk]
  rw [Nat.mod_eq_of_lt hlt, hmax] at hsize
  rw [Block.top, hsize] at hmapped
  have hroom : (granted A size align h).addr.toNat + 32 + 2 ^ k ≤ 2 ^ 64 := by omega
  obtain ⟨hdvd, habove, hbelow⟩ := userAddr_spec hk hroom
  have hptr : (cAlignedAlloc A size align h).1 =
      userAddr (granted A size align h).addr (BitVec.twoPow 64 k) := congrArg Prod.fst heq
  rw [hptr, hmax]
  refine ⟨hdvd, habove, ?_⟩
  rw [Block.top, hsize]
  omega

lemma not_inBlock_of_wrap {p : BitVec 64} (hk : max align.toNat 16 ≤ 2 ^ 63)
    (hwrap : 2 ^ 64 ≤ size.toNat + 32 + max align.toNat 16) :
    ¬InBlock (granted A size align h) p size.toNat := by
  rintro ⟨hheader, hregion⟩
  have hsize := granted_size (A := A) size align h
  have hlt := size.isLt
  rw [Block.top, hsize] at hregion
  omega

end Results

/-- A pointer is in its block exactly if the size of the layout has not wrapped around. -/
theorem alloc_in_bounds_iff (A : Allocator) (size align : BitVec 64) (h : Heap) :
    AllocInBounds A size align h ↔
      (cAlignedAlloc A size align h).1 = 0 ∨ size.toNat + 32 + max align.toNat 16 < 2 ^ 64 := by
  by_cases hnull : (cAlignedAlloc A size align h).1 = 0
  · simp [AllocInBounds, hnull]
  unfold AllocInBounds
  rw [or_iff_right hnull, or_iff_right hnull]
  refine ⟨fun hin => ?_, alloc_inBlock hnull⟩
  by_contra hwrap
  obtain ⟨k, hk, halign, -, -⟩ := cAlignedAlloc_ne_zero hnull
  have hmax : max align.toNat 16 ≤ 2 ^ 63 := by
    rw [← minAlign_toNat, halign, toNat_twoPow_of_lt hk]
    exact Nat.pow_le_pow_right (by decide) (by omega)
  exact not_inBlock_of_wrap hmax (by omega) hin.2

def Vacant (h : Heap) (addr size : BitVec 64) : Prop :=
  addr.toNat % 16 = 0 ∧ addr.toNat + size.toNat ≤ directMapEnd ∧
    ∀ b ∈ h.blocks, (Block.mk addr size).Apart b

instance (h : Heap) (addr size : BitVec 64) : Decidable (Vacant h addr size) :=
  inferInstanceAs (Decidable (addr.toNat % 16 = 0 ∧ addr.toNat + size.toNat ≤ directMapEnd ∧
    ∀ b ∈ h.blocks, (Block.mk addr size).Apart b))

def place (pick : Heap → BitVec 64) (h : Heap) (size : BitVec 64) : BitVec 64 :=
  if Vacant h (pick h) size then pick h else 0

lemma place_vacant {pick : Heap → BitVec 64} {h : Heap} {size : BitVec 64}
    (hne : place pick h size ≠ 0) : Vacant h (place pick h size) size := by
  unfold place at hne ⊢
  by_cases hv : Vacant h (pick h) size
  · rw [if_pos hv]
    exact hv
  · rw [if_neg hv] at hne
    exact absurd rfl hne

def placing (pick : Heap → BitVec 64) : Allocator where
  alloc h size := (place pick h size, h.mem)
  dealloc h _ := h.mem
  aligned h size := by
    by_cases hne : place pick h size = 0
    · rw [hne]
      rfl
    · exact (place_vacant hne).1
  fits _ _ hne := (place_vacant hne).2.1
  apart _ _ hne := (place_vacant hne).2.2
  alloc_keeps _ _ _ _ _ _ := rfl
  dealloc_keeps _ _ _ _ _ _ := rfl

def emptyHeap : Heap := ⟨fun _ => 0, [], []⟩

/-- The layout of a request for 2^64 - 40 bytes has 8 bytes. The allocator has a block of
that size, and the pointer is 24 bytes behind its end. -/
theorem huge_request_escapes :
    (cAlignedAlloc (placing fun _ => 0xFFFF000080000000) 0xFFFFFFFFFFFFFFD8 16 emptyHeap).1 =
        0xFFFF000080000020 ∧
      (granted (placing fun _ => 0xFFFF000080000000) 0xFFFFFFFFFFFFFFD8 16 emptyHeap).size = 8 ∧
      ¬AllocInBounds (placing fun _ => 0xFFFF000080000000) 0xFFFFFFFFFFFFFFD8 16 emptyHeap := by
  have hptr : (cAlignedAlloc (placing fun _ => 0xFFFF000080000000) 0xFFFFFFFFFFFFFFD8 16
      emptyHeap).1 = 0xFFFF000080000020 := by decide +kernel
  have hsize : (granted (placing fun _ => 0xFFFF000080000000) 0xFFFFFFFFFFFFFFD8 16 emptyHeap).size =
      8 := by decide +kernel
  refine ⟨hptr, hsize, ?_⟩
  rintro (hnull | ⟨-, hin⟩)
  · rw [hptr] at hnull
    exact absurd hnull (by decide)
  · exact not_inBlock_of_wrap (by decide) (by decide) hin

/-- A pointer that the shim has given out for `size` bytes, with its block. -/
structure Live (h : Heap) (p : BitVec 64) (size : Nat) (b : Block) : Prop extends InBlock b p size where
  taken : b ∈ h.blocks
  mapped : b.top ≤ directMapEnd
  recorded : window h.mem (p - headerSize) 32 = headerBytes b.addr b.size 16

section Pointers

variable {h h' : Heap} {p : BitVec 64} {size : Nat} {b : Block}

lemma sub_header (hp : 32 ≤ p.toNat) : (p - headerSize).toNat = p.toNat - 32 := by
  have hlt := p.isLt
  rw [toNat_sub]
  change (2 ^ 64 - 32 + p.toNat) % 2 ^ 64 = _
  omega

lemma InBlock.header_addr (hp : InBlock b p size) : (p - headerSize).toNat = p.toNat - 32 :=
  sub_header (by have := hp.header; omega)

lemma length_headerBytes (blockPtr layoutSize layoutAlign : BitVec 64) :
    (headerBytes blockPtr layoutSize layoutAlign).length = 32 := by simp [headerBytes]

lemma window_of_holds {m m' : Mem} {a : BitVec 64} {n : Nat} (hsame : ∀ x, b.Holds x → m' x = m x)
    (hlow : b.addr.toNat ≤ a.toNat) (htop : a.toNat + n ≤ b.top) (hmap : b.top ≤ directMapEnd) :
    window m' a n = window m a n := by
  have hend := directMapEnd_lt
  refine window_congr fun i hi => hsame _ ?_
  have haddr := toNat_add_of_lt (a := a) (i := i) (by omega)
  exact ⟨by omega, by omega⟩

lemma Live.congr (hl : Live h p size b) (hsame : ∀ x, b.Holds x → h'.mem x = h.mem x)
    (htaken : b ∈ h'.blocks) : Live h' p size b where
  toInBlock := hl.toInBlock
  taken := htaken
  mapped := hl.mapped
  recorded := by
    have haddr := hl.header_addr
    have hheader := hl.header
    have hregion := hl.region
    rw [window_of_holds hsame (by omega) (by omega) hl.mapped]
    exact hl.recorded

lemma Live.field (hl : Live h p size b) {k : Nat} (hk : k + 8 ≤ 32) :
    (loadField p k h).1 = BitVec.ofNat 64 (fromLe (((headerBytes b.addr b.size 16).drop k).take 8)) := by
  rw [loadField, window_part h.mem (p - headerSize) hk, hl.recorded]

lemma ofNat_fromLe_toLe (w : BitVec 64) : BitVec.ofNat 64 (fromLe (toLe w.toNat 8)) = w := by
  have hlt := w.isLt
  rw [fromLe_toLe, Nat.mod_eq_of_lt (by omega), ofNat_toNat, setWidth_eq]

lemma take_toLe (n : Nat) (rest : Bytes) : (toLe n 8 ++ rest).take 8 = toLe n 8 := take_left' (length_toLe n 8)

lemma drop_toLe (n k : Nat) (rest : Bytes) : (toLe n 8 ++ rest).drop (8 + k) = rest.drop k := by
  rw [drop_append, drop_eq_nil_of_le (by simp), nil_append, length_toLe, Nat.add_sub_cancel_left]

lemma Live.blockPtr (hl : Live h p size b) : (loadField p 0 h).1 = b.addr := by
  rw [hl.field (by decide), headerBytes, drop_zero, take_toLe, ofNat_fromLe_toLe]

lemma Live.layoutSize (hl : Live h p size b) : (loadField p 8 h).1 = b.size := by
  rw [hl.field (by decide), headerBytes, drop_toLe _ 0, drop_zero, take_toLe, ofNat_fromLe_toLe]

lemma Live.magic (hl : Live h p size b) : (loadField p 24 h).1 = magic := by
  rw [hl.field (by decide), headerBytes, drop_toLe _ 16, drop_toLe _ 8, drop_toLe _ 0, drop_zero,
    take_of_length_le (by simp), ofNat_fromLe_toLe]

end Pointers

end Aeglos.HeapShim
