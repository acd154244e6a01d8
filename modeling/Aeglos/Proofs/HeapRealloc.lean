import Aeglos.Proofs.HeapShim

/-!
# Reallocation

`c_realloc` takes a new block, copies, and frees the old one.
-/

namespace Aeglos.HeapShim

open ByteMemory List

variable {A : Allocator} {h : Heap} {p n : BitVec 64} {size : Nat} {b : Block}

lemma store_apart {c : Block} {m : Mem} {a x : BitVec 64} {bytes : List UInt8} (hapart : c.Apart b)
    (hmapped : c.top ≤ directMapEnd) (hlow : c.addr.toNat ≤ a.toNat)
    (htop : a.toNat + bytes.length ≤ c.top) (hx : b.Holds x) : store m a bytes x = m x := by
  have hend := directMapEnd_lt
  obtain ⟨hxlow, hxtop⟩ := hx
  refine store_outside m (by omega) ?_
  rcases hapart with hbelow | habove
  · exact Or.inr (by omega)
  · exact Or.inl (by omega)

section Allocation

variable {request align : BitVec 64}

lemma alloc_blocks (hne : (cAlignedAlloc A request align h).1 ≠ 0) :
    (cAlignedAlloc A request align h).2.blocks = granted A request align h :: h.blocks := by
  obtain ⟨k, -, -, -, heq⟩ := cAlignedAlloc_ne_zero hne
  rw [heq]

lemma alloc_mem (hne : (cAlignedAlloc A request align h).1 ≠ 0) :
    (cAlignedAlloc A request align h).2.mem =
      store (A.alloc h (allocSize request (minAlign align))).2
        ((cAlignedAlloc A request align h).1 - headerSize)
        (headerBytes (granted A request align h).addr (granted A request align h).size 16) := by
  obtain ⟨k, -, -, -, heq⟩ := cAlignedAlloc_ne_zero hne
  rw [heq]

lemma alloc_reads : (cAlignedAlloc A request align h).2.reads = h.reads := by
  unfold cAlignedAlloc
  dsimp only
  split
  · rfl
  · split <;> rfl

lemma granted_apart (hne : (cAlignedAlloc A request align h).1 ≠ 0) (hb : b ∈ h.blocks) :
    (granted A request align h).Apart b := by
  obtain ⟨k, -, -, hblock, -⟩ := cAlignedAlloc_ne_zero hne
  exact A.apart h _ hblock b hb

lemma alloc_live (hne : (cAlignedAlloc A request align h).1 ≠ 0)
    (hlt : request.toNat + 32 + max align.toNat 16 < 2 ^ 64) :
    Live (cAlignedAlloc A request align h).2 (cAlignedAlloc A request align h).1 request.toNat
      (granted A request align h) := by
  have hin := (alloc_inBlock hne hlt).2
  have hmapped := granted_mapped hne
  have hend := directMapEnd_lt
  have haddr := hin.header_addr
  have hregion := hin.region
  have hlen := length_headerBytes (granted A request align h).addr (granted A request align h).size 16
  refine ⟨hin, ?_, hmapped, ?_⟩
  · rw [alloc_blocks hne]
    exact mem_cons_self
  · rw [alloc_mem hne, window_store _ _ (by omega) (by omega), take_of_length_le (by omega)]

lemma alloc_keeps (hne : (cAlignedAlloc A request align h).1 ≠ 0)
    (hlt : request.toNat + 32 + max align.toNat 16 < 2 ^ 64) (hb : b ∈ h.blocks)
    {x : BitVec 64} (hx : b.Holds x) : (cAlignedAlloc A request align h).2.mem x = h.mem x := by
  have hin := (alloc_inBlock hne hlt).2
  have haddr := hin.header_addr
  have hheader := hin.header
  have hregion := hin.region
  have hlen := length_headerBytes (granted A request align h).addr (granted A request align h).size 16
  rw [alloc_mem hne, store_apart (granted_apart hne hb) (granted_mapped hne) (by omega) (by omega) hx]
  exact A.alloc_keeps h _ b hb x hx

lemma malloc_null (hnull : (cMalloc A request h).1 = 0) :
    (cMalloc A request h).2 = { h with mem := (A.alloc h (allocSize request 16)).2 } := by
  unfold cMalloc cAlignedAlloc at hnull ⊢
  have halign : minAlign 16 = 16 := by decide
  have hpow : isPowerOfTwo 16 = true := by decide
  simp only [halign, hpow, Bool.not_true, Bool.false_eq_true, if_false] at hnull ⊢
  by_cases hblock : (A.alloc h (allocSize request 16)).1 = 0
  · rw [if_pos hblock]
  · rw [if_neg hblock] at hnull
    have hfits := A.fits h _ hblock
    have hend := directMapEnd_lt
    have hroom : (A.alloc h (allocSize request 16)).1.toNat + 32 + 2 ^ 4 ≤ 2 ^ 64 := by omega
    obtain ⟨-, habove, -⟩ := userAddr_spec (by decide) hroom
    have hzero : (userAddr (A.alloc h (allocSize request 16)).1 (BitVec.twoPow 64 4)).toNat = 0 :=
      congrArg BitVec.toNat hnull
    omega

end Allocation

def fieldRange (p : BitVec 64) (k : Nat) : BitVec 64 × Nat := (p - headerSize + BitVec.ofNat 64 k, 8)

def afterReads (h : Heap) (ranges : List (BitVec 64 × Nat)) : Heap := { h with reads := h.reads ++ ranges }

lemma loadField_snd (k : Nat) : (loadField p k h).2 = afterReads h [fieldRange p k] := rfl

lemma afterReads_append (r s : List (BitVec 64 × Nat)) :
    afterReads (afterReads h r) s = afterReads h (r ++ s) := by
  simp [afterReads, append_assoc]

lemma Live.afterReads (hl : Live h p size b) (ranges : List (BitVec 64 × Nat)) :
    Live (afterReads h ranges) p size b := hl.congr (fun _ _ => rfl) hl.taken

def freeReads (p : BitVec 64) : List (BitVec 64 × Nat) :=
  [fieldRange p 24, fieldRange p 0, fieldRange p 8, fieldRange p 16]

lemma cFree_eq (hp : p ≠ 0) :
    cFree A p h =
      if (loadField p 24 h).1 ≠ magic then afterReads h [fieldRange p 24]
      else
        { afterReads h (freeReads p) with
          mem := A.dealloc (afterReads h (freeReads p)) ⟨(loadField p 0 h).1, (loadField p 8 h).1⟩
          blocks := h.blocks.erase ⟨(loadField p 0 h).1, (loadField p 8 h).1⟩ } := by
  have hreads : afterReads (afterReads (afterReads (afterReads h [fieldRange p 24]) [fieldRange p 0])
      [fieldRange p 8]) [fieldRange p 16] = afterReads h (freeReads p) := by
    simp only [afterReads_append, freeReads, cons_append, nil_append]
  rw [cFree, if_neg hp, ← hreads]
  rfl

lemma Live.ne_zero (hl : Live h p size b) : p ≠ 0 := by
  rintro rfl
  have hheader := hl.header
  simp at hheader

lemma Live.fieldRange_within (hl : Live h p size b) {k : Nat} (hk : k + 8 ≤ 32) :
    b.addr.toNat ≤ (fieldRange p k).1.toNat ∧ (fieldRange p k).1.toNat + (fieldRange p k).2 ≤ b.top := by
  have haddr := hl.header_addr
  have hheader := hl.header
  have hregion := hl.region
  have hlt := p.isLt
  have hfield : (p - headerSize + BitVec.ofNat 64 k).toNat = p.toNat - 32 + k := by
    rw [toNat_add_of_lt (by omega), haddr]
  change b.addr.toNat ≤ (p - headerSize + BitVec.ofNat 64 k).toNat ∧
    (p - headerSize + BitVec.ofNat 64 k).toNat + 8 ≤ b.top
  omega

lemma free_live (hl : Live h p size b) :
    cFree A p h =
      { afterReads h (freeReads p) with
        mem := A.dealloc (afterReads h (freeReads p)) b, blocks := h.blocks.erase b } := by
  rw [cFree_eq hl.ne_zero, if_neg (by simp [hl.magic]), hl.blockPtr, hl.layoutSize]

lemma free_blocks {c : Block} (hc : c ∈ (cFree A p h).blocks) : c ∈ h.blocks := by
  by_cases hp : p = 0
  · rw [cFree, if_pos hp] at hc
    exact hc
  · rw [cFree_eq hp] at hc
    split at hc
    · exact hc
    · exact mem_of_mem_erase hc

lemma free_reads (hp : p ≠ 0) : ∃ more, (cFree A p h).reads = h.reads ++ more := by
  rw [cFree_eq hp]
  split
  · exact ⟨[fieldRange p 24], rfl⟩
  · exact ⟨freeReads p, rfl⟩

def copyLength (b : Block) (n : BitVec 64) : Nat := min (b.size.toNat - 32) n.toNat

def inspected (p : BitVec 64) (h : Heap) : Heap := afterReads h [fieldRange p 24, fieldRange p 8]

def filled (A : Allocator) (p n : BitVec 64) (b : Block) (h : Heap) : Heap :=
  copyBytes p (cMalloc A n (inspected p h)).1 (copyLength b n) (cMalloc A n (inspected p h)).2

lemma Live.copySize (hl : Live h p size b) :
    (if b.size - headerSize < n then b.size - headerSize else n).toNat = copyLength b n := by
  have hheader := hl.header
  have hregion := hl.region
  have hlt := b.size.isLt
  have hsub : (b.size - headerSize).toNat = b.size.toNat - 32 := by
    rw [Block.top] at hregion
    exact sub_header (by omega)
  unfold copyLength
  split
  case isTrue hless =>
    have hless' : (b.size - headerSize).toNat < n.toNat := hless
    omega
  case isFalse hless =>
    have hless' : ¬(b.size - headerSize).toNat < n.toNat := hless
    omega

lemma realloc_eq (hl : Live h p size b) (hn : n ≠ 0) :
    cRealloc A p n h =
      if (cMalloc A n (inspected p h)).1 = 0 then cMalloc A n (inspected p h)
      else ((cMalloc A n (inspected p h)).1, cFree A p (filled A p n b h)) := by
  have hfirst : loadField p 24 h = (magic, afterReads h [fieldRange p 24]) := Prod.ext hl.magic rfl
  have hsecond : loadField p 8 (afterReads h [fieldRange p 24]) = (b.size, inspected p h) := by
    refine Prod.ext (hl.afterReads _).layoutSize ?_
    rw [loadField_snd, afterReads_append]
    rfl
  simp only [cRealloc, if_neg hl.ne_zero, if_neg hn, hfirst, hsecond, ne_eq, not_true_eq_false,
    if_false, hl.copySize, filled]

lemma filled_reads : (filled A p n b h).reads =
    h.reads ++ ([fieldRange p 24, fieldRange p 8] ++ [(p, copyLength b n)]) := by
  have hreads : (cMalloc A n (inspected p h)).2.reads = (inspected p h).reads := alloc_reads
  rw [filled, copyBytes, hreads, ← append_assoc]
  rfl

def Within (b : Block) (ranges : List (BitVec 64 × Nat)) : Prop :=
  ∀ r ∈ ranges, b.addr.toNat ≤ r.1.toNat ∧ r.1.toNat + r.2 ≤ b.top

/-- The result is null, and the old pointer is live as before, or a live pointer to the new size with the old
contents. Nothing is read outside the block. -/
def ReallocOk (A : Allocator) (p n : BitVec 64) (h : Heap) (size : Nat) (b : Block) : Prop :=
  ((cRealloc A p n h).1 = 0 ∧ Live (cRealloc A p n h).2 p size b ∨
    (cRealloc A p n h).1 ≠ 0 ∧
      (∃ c, c ∉ h.blocks ∧ Live (cRealloc A p n h).2 (cRealloc A p n h).1 n.toNat c) ∧
      window (cRealloc A p n h).2.mem (cRealloc A p n h).1 (min size n.toNat) =
        window h.mem p (min size n.toNat)) ∧
  ∃ ranges, (cRealloc A p n h).2.reads = h.reads ++ ranges ∧ Within b ranges

lemma Live.inspected_within (hl : Live h p size b) : Within b [fieldRange p 24, fieldRange p 8] := by
  intro r hr
  simp only [mem_cons, not_mem_nil, or_false] at hr
  rcases hr with rfl | rfl
  · exact hl.fieldRange_within (by decide)
  · exact hl.fieldRange_within (by decide)

lemma Live.freeReads_within (hl : Live h p size b) : Within b (freeReads p) := by
  intro r hr
  simp only [freeReads, mem_cons, not_mem_nil, or_false] at hr
  rcases hr with rfl | rfl | rfl | rfl
  all_goals exact hl.fieldRange_within (by decide)

lemma Within.append {r s : List (BitVec 64 × Nat)} (hr : Within b r) (hs : Within b s) :
    Within b (r ++ s) := fun x hx => (mem_append.mp hx).elim (hr x) (hs x)

lemma realloc_null (hl : Live h p size b) (hn : n ≠ 0) (hnull : (cMalloc A n (inspected p h)).1 = 0) :
    ReallocOk A p n h size b := by
  have heq := realloc_eq (A := A) hl hn
  rw [if_pos hnull] at heq
  unfold ReallocOk
  rw [heq]
  refine ⟨Or.inl ⟨hnull, ?_⟩, [fieldRange p 24, fieldRange p 8], ?_, hl.inspected_within⟩
  · rw [malloc_null hnull]
    exact hl.congr (fun x hx => A.alloc_keeps (inspected p h) _ b hl.taken x hx) hl.taken
  · rw [malloc_null hnull]
    rfl

section Moved

variable (hl : Live h p size b) (hnew : (cMalloc A n (inspected p h)).1 ≠ 0)
  (hlt : n.toNat + 48 < 2 ^ 64)

include hl in
lemma copyLength_covers : min size n.toNat ≤ copyLength b n := by
  have hheader := hl.header
  have hregion := hl.region
  rw [Block.top] at hregion
  unfold copyLength
  omega

omit hl in
include hlt in
lemma no_wrap : n.toNat + 32 + max (16 : BitVec 64).toNat 16 < 2 ^ 64 := by
  change n.toNat + 32 + 16 < 2 ^ 64
  omega

include hnew hlt

lemma new_live : Live (cMalloc A n (inspected p h)).2 (cMalloc A n (inspected p h)).1 n.toNat
    (granted A n 16 (inspected p h)) := alloc_live hnew (no_wrap hlt)

lemma filled_new :
    Live (filled A p n b h) (cMalloc A n (inspected p h)).1 n.toNat (granted A n 16 (inspected p h)) := by
  have hq := new_live hnew hlt
  have haddr := hq.header_addr
  have hheader := hq.header
  have hregion := hq.region
  have hmapped := hq.mapped
  have hend := directMapEnd_lt
  have hlen : copyLength b n ≤ n.toNat := Nat.min_le_right ..
  refine ⟨hq.toInBlock, hq.taken, hq.mapped, Eq.trans ?_ hq.recorded⟩
  refine window_congr fun i hi => store_outside _ (by rw [window_length]; omega) (Or.inl ?_)
  rw [toNat_add_of_lt (by omega), haddr]
  omega

lemma granted_fresh : granted A n 16 (inspected p h) ∉ h.blocks := by
  intro hmem
  have hsize := granted_size (A := A) n 16 (inspected p h)
  have hlt' := no_wrap hlt
  rw [Nat.mod_eq_of_lt hlt'] at hsize
  have hself := granted_apart hnew hmem
  rw [Block.Apart, Block.top, or_self] at hself
  omega

include hl

lemma filled_old : Live (filled A p n b h) p size b := by
  have hq := new_live hnew hlt
  have hheader := hq.header
  have hregion := hq.region
  have hlen : copyLength b n ≤ n.toNat := Nat.min_le_right ..
  refine hl.congr (fun x hx => ?_) ?_
  · refine Eq.trans ?_ (alloc_keeps hnew (no_wrap hlt) hl.taken hx)
    refine store_apart (granted_apart hnew hl.taken) hq.mapped (by omega) ?_ hx
    rw [window_length]
    omega
  · change b ∈ (cMalloc A n (inspected p h)).2.blocks
    rw [cMalloc, alloc_blocks hnew]
    exact mem_cons_of_mem _ hl.taken

lemma filled_bytes :
    window (filled A p n b h).mem (cMalloc A n (inspected p h)).1 (min size n.toNat) =
      window h.mem p (min size n.toNat) := by
  have hq := new_live hnew hlt
  have hregion := hq.region
  have hmapped := hq.mapped
  have hend := directMapEnd_lt
  have hlen : copyLength b n ≤ n.toNat := Nat.min_le_right ..
  have hcovers := copyLength_covers (n := n) hl
  have hold := hl.region
  have hhead := hl.header
  rw [filled, copyBytes, copy, window_store _ _ (by rw [window_length]; omega)
    (by rw [window_length]; exact hcovers), take_window _ _ hcovers]
  exact window_of_holds (fun x hx => alloc_keeps hnew (no_wrap hlt) hl.taken hx) (by omega) (by omega)
    hl.mapped

lemma realloc_moved (hn : n ≠ 0) (hwithin : p.toNat + copyLength b n ≤ b.top) : ReallocOk A p n h size b := by
  have hresult := realloc_eq (A := A) hl hn
  rw [if_neg hnew, free_live (filled_old hl hnew hlt)] at hresult
  have hfresh := granted_fresh hnew hlt
  have hcopied := filled_new (b := b) hnew hlt
  have hheader := hcopied.header
  have hregion := hcopied.region
  have hother : granted A n 16 (inspected p h) ≠ b := by
    rintro rfl
    exact hfresh hl.taken
  have hremains : granted A n 16 (inspected p h) ∈ (filled A p n b h).blocks.erase b :=
    (mem_erase_of_ne hother).mpr hcopied.taken
  have hkeeps := A.dealloc_keeps (afterReads (filled A p n b h) (freeReads p)) b _ hremains
  have hbytes := window_of_holds (n := min size n.toNat) hkeeps
    (a := (cMalloc A n (inspected p h)).1) (by omega) (by omega) hcopied.mapped
  unfold ReallocOk
  rw [hresult]
  refine ⟨Or.inr ⟨hnew, ⟨_, hfresh, hcopied.congr hkeeps hremains⟩,
    hbytes.trans (filled_bytes hl hnew hlt)⟩, ?_⟩
  refine ⟨[fieldRange p 24, fieldRange p 8] ++ ([(p, copyLength b n)] ++ freeReads p), ?_, ?_⟩
  · change (filled A p n b h).reads ++ freeReads p = _
    rw [filled_reads, append_assoc, append_assoc]
  · refine hl.inspected_within.append (Within.append (fun r hr => ?_) hl.freeReads_within)
    rw [mem_singleton.mp hr]
    have hhead := hl.header
    have hlow : b.addr.toNat ≤ p.toNat := by omega
    exact ⟨hlow, hwithin⟩

end Moved

lemma no_wrap_of_ok (hl : Live h p size b) (hn : n ≠ 0) (hnew : (cMalloc A n (inspected p h)).1 ≠ 0)
    (hok : ReallocOk A p n h size b) : n.toNat + 48 < 2 ^ 64 := by
  have hresult := realloc_eq (A := A) hl hn
  rw [if_neg hnew] at hresult
  unfold ReallocOk at hok
  rw [hresult] at hok
  obtain ⟨⟨hnull, -⟩ | ⟨-, ⟨c, hfresh, hlive⟩, -⟩, -⟩ := hok
  · exact absurd hnull hnew
  have hc : c ∈ (filled A p n b h).blocks := free_blocks hlive.taken
  change c ∈ (cAlignedAlloc A n 16 (inspected p h)).2.blocks at hc
  rw [alloc_blocks hnew] at hc
  obtain rfl := (mem_cons.mp hc).resolve_right hfresh
  by_contra hwrap
  have hsmall : max (16 : BitVec 64).toNat 16 ≤ 2 ^ 63 := by decide
  have hbig : 2 ^ 64 ≤ n.toNat + 32 + max (16 : BitVec 64).toNat 16 := by
    change 2 ^ 64 ≤ n.toNat + 32 + 16
    omega
  exact not_inBlock_of_wrap hsmall hbig hlive.toInBlock

lemma within_of_ok (hl : Live h p size b) (hn : n ≠ 0) (hnew : (cMalloc A n (inspected p h)).1 ≠ 0)
    (hok : ReallocOk A p n h size b) : p.toNat + copyLength b n ≤ b.top := by
  have hresult := realloc_eq (A := A) hl hn
  rw [if_neg hnew] at hresult
  obtain ⟨-, ranges, hreads, hwithin⟩ := hok
  obtain ⟨more, hmore⟩ := free_reads (A := A) (h := filled A p n b h) hl.ne_zero
  rw [hresult] at hreads
  rw [hmore, filled_reads, append_assoc] at hreads
  have hranges := append_cancel_left hreads
  exact (hwithin (p, copyLength b n) (by simp [← hranges])).2

/-- A reallocation does what its caller relies on exactly if it returns null, or the new
layout does not wrap around and the copy ends in the old block. -/
theorem realloc_ok_iff (A : Allocator) (h : Heap) (p n : BitVec 64) (size : Nat) (b : Block)
    (hl : Live h p size b) (hn : n ≠ 0) :
    ReallocOk A p n h size b ↔
      (cRealloc A p n h).1 = 0 ∨ n.toNat + 48 < 2 ^ 64 ∧ p.toNat + copyLength b n ≤ b.top := by
  have hptr : (cRealloc A p n h).1 = (cMalloc A n (inspected p h)).1 := by
    rw [realloc_eq hl hn]
    split <;> rfl
  rw [hptr]
  by_cases hnull : (cMalloc A n (inspected p h)).1 = 0
  · exact iff_of_true (realloc_null hl hn hnull) (Or.inl hnull)
  · rw [or_iff_right hnull]
    exact ⟨fun hok => ⟨no_wrap_of_ok hl hn hnull hok, within_of_ok hl hn hnull hok⟩,
      fun ⟨hlt, hwithin⟩ => realloc_moved hl hnull hlt hn hwithin⟩

def twoPlaces : Allocator := placing fun h => if h.blocks = [] then 0xFFFF000080000000 else 0xFFFF000080010000

/-- `c_aligned_alloc(16, 4096)` on an empty heap. The pointer is at the end of the page, and
its block ends 48 bytes behind it. -/
def pageAligned : BitVec 64 × Heap := cAlignedAlloc twoPlaces 16 4096 emptyHeap

def pageBlock : Block := ⟨0xFFFF000080000000, 4144⟩

lemma pageAligned_live : Live pageAligned.2 pageAligned.1 16 pageBlock :=
  alloc_live (by decide +kernel) (by decide)

theorem shrinking_page_aligned :
    Live pageAligned.2 pageAligned.1 16 pageBlock ∧
      ReallocOk twoPlaces pageAligned.1 8 pageAligned.2 16 pageBlock :=
  ⟨pageAligned_live, (realloc_ok_iff twoPlaces pageAligned.2 pageAligned.1 8 16 pageBlock
    pageAligned_live (by decide)).mpr (Or.inr ⟨by decide, by decide +kernel⟩)⟩

/-- Growing the pointer to 8192 bytes copies 4112 bytes, where the block has 48. -/
theorem growing_page_aligned_reads_on :
    Live pageAligned.2 pageAligned.1 16 pageBlock ∧
      (cMalloc twoPlaces 8192 (inspected pageAligned.1 pageAligned.2)).1 ≠ 0 ∧
      copyLength pageBlock 8192 = 4112 ∧ pageBlock.top - pageAligned.1.toNat = 48 ∧
      ¬ReallocOk twoPlaces pageAligned.1 8192 pageAligned.2 16 pageBlock := by
  have hnew : (cMalloc twoPlaces 8192 (inspected pageAligned.1 pageAligned.2)).1 ≠ 0 := by
    decide +kernel
  have hroom : pageBlock.top - pageAligned.1.toNat = 48 := by decide +kernel
  have hlength : copyLength pageBlock 8192 = 4112 := by decide
  refine ⟨pageAligned_live, hnew, hlength, hroom, fun hok => ?_⟩
  have hwithin := within_of_ok pageAligned_live (by decide) hnew hok
  omega

end Aeglos.HeapShim
