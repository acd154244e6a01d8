import Aeglos.Kernel.ElfScan

/-!
# Bounds of the ELF loaders

Which files `load_elf` and `spawn_elf` handle without a wrap-around in a bounds check, an index
out of range, or a read outside of the file.
-/

namespace Aeglos.Proofs

open Elf Traced List Option

section Accesses

variable {bytes : Bytes}

@[simp] lemma addUsize_result (a b : Nat) : (addUsize a b).result = some (wrap64 (a + b)) := rfl

@[simp] lemma clean_addUsize (size a b : Nat) : Clean (Access.InBounds size) (addUsize a b) ↔ a + b < 2 ^ 64 := by
  simp [addUsize, clean_bind, Access.InBounds]

@[simp] lemma le_result (off len : Nat) : (le bytes off len).result = field bytes off len := by
  simp only [le, result_bind, result_emit, bind_some]
  cases field bytes off len <;> rfl

lemma field_of_le {off len : Nat} (h : off + len ≤ bytes.length) :
    field bytes off len = some ((field bytes off len).getD 0) := by
  simp [field, h]

@[simp] lemma clean_le (off len : Nat) :
    Clean (Access.InBounds bytes.length) (le bytes off len) ↔ off + len ≤ bytes.length := by
  rw [le, clean_bind, clean_emit]
  simp only [clean_ofOption, Access.InBounds, and_iff_left_iff_imp]
  exact fun h _ _ => ⟨_, field_of_le h⟩

lemma clean_le_bind {α : Type} {off len : Nat} (f : Nat → Scan α) :
    Clean (Access.InBounds bytes.length) (le bytes off len >>= f) ↔ off + len ≤ bytes.length ∧
      Clean (Access.InBounds bytes.length) (f ((field bytes off len).getD 0)) := by
  rw [clean_bind, clean_le, le_result]
  refine and_congr_right fun h => ?_
  rw [field_of_le h]
  simp

lemma clean_addUsize_bind {α : Type} {size a b : Nat} (f : Nat → Scan α) :
    Clean (Access.InBounds size) (addUsize a b >>= f) ↔
      a + b < 2 ^ 64 ∧ Clean (Access.InBounds size) (f (a + b)) := by
  rw [clean_bind, clean_addUsize, addUsize_result]
  refine and_congr_right fun h => ?_
  rw [wrap64, Nat.mod_eq_of_lt h]
  simp

end Accesses

def phStart (t : PhTable) (i : Nat) : Nat := t.phoff + i * t.phentsize

def phdrAt (bytes : Bytes) (ph : Nat) : Phdr :=
  let get := fun off len => (field bytes (ph + off) len).getD 0
  ⟨get 4 4, get 8 8, get 0x10 8, get 0x20 8, get 0x28 8⟩

def InFile (bytes : Bytes) (p : Phdr) : Prop := p.filesz = 0 ∨ p.offset + p.filesz ≤ bytes.length

/-- A segment that is loaded: its end does not wrap around, and if its contents are in the file,
the memory that it is copied to can be written. -/
def SegmentSafe (l : Loader) (bytes : Bytes) (p : Phdr) : Prop :=
  p.memsz ≠ 0 → (0 < p.filesz → p.offset + p.filesz < 2 ^ 64) ∧
    (InFile bytes p → ∀ k < max p.filesz p.memsz, l.writable (wrap64 (segmentDst l.slide p + k)) = true)

/-- A program header: its end does not wrap around, and a `PT_LOAD` header that passes the check
is complete and describes a safe segment. -/
def HeaderSafe (l : Loader) (bytes : Bytes) (t : PhTable) (i : Nat) : Prop :=
  phStart t i + l.need < 2 ^ 64 ∧
    (phStart t i + l.need ≤ bytes.length → field bytes (phStart t i) 4 = some ptLoad →
      phStart t i + 48 ≤ bytes.length ∧ SegmentSafe l bytes (phdrAt bytes (phStart t i)))

def HeaderRejected (l : Loader) (bytes : Bytes) (t : PhTable) (i : Nat) : Prop :=
  bytes.length < phStart t i + l.need ∨
    (field bytes (phStart t i) 4 = some ptLoad ∧ (phdrAt bytes (phStart t i)).memsz ≠ 0 ∧
      ¬InFile bytes (phdrAt bytes (phStart t i)))

section Header

variable {l : Loader} {bytes : Bytes} {t : PhTable} {i : Nat} {r : Except ElfError (Option ProcSegment)}

lemma clean_write {size va len : Nat} : Clean (Access.InBounds size) (write l va len) ↔
    ∀ k < len, l.writable (wrap64 (va + k)) = true := by
  unfold write
  rw [clean_ite]
  simp

lemma clean_copySegment (p : Phdr) :
    Clean (Access.InBounds bytes.length) (copySegment l p) ↔ InFile bytes p ∧
      ∀ k < max p.filesz p.memsz, l.writable (wrap64 (segmentDst l.slide p + k)) = true := by
  have hsplit : ∀ P : Nat → Prop, (∀ k < max p.filesz p.memsz, P k) ↔
      (∀ k < p.filesz, P k) ∧ (p.memsz > p.filesz → ∀ k < p.memsz - p.filesz, P (p.filesz + k)) := by
    intro P
    constructor
    · intro h
      exact ⟨fun k hk => h k (by omega), fun hgt k hk => h _ (by omega)⟩
    · rintro ⟨hfile, hbss⟩ k hk
      by_cases hin : k < p.filesz
      · exact hfile k hin
      · have := hbss (by omega) (k - p.filesz) (by omega)
        rwa [Nat.add_sub_cancel' (by omega)] at this
  rw [hsplit, copySegment, InFile]
  simp only [clean_ite, clean_bind_unit, clean_write, clean_emit, clean_pure, Access.InBounds,
    Nat.add_assoc, implies_true, and_true]
  by_cases hfile : p.filesz = 0
  · simp [hfile]
  · simp [hfile, Nat.pos_of_ne_zero hfile]

lemma clean_loadSegment (p : Phdr) :
    Clean (Access.InBounds bytes.length) (loadSegment l bytes p) ↔ SegmentSafe l bytes p := by
  unfold loadSegment SegmentSafe
  rw [clean_ite]
  simp only [clean_pure, implies_true, true_and, clean_ite, clean_addUsize_bind]
  refine forall_congr' fun _ => ?_
  simp only [clean_copySegment, InFile]
  by_cases hfile : p.filesz = 0
  · simp [hfile]
  · simp only [hfile, gt_iff_lt, Nat.pos_of_ne_zero hfile, not_lt, not_true_eq_false, false_or,
      true_imp_iff, false_imp_iff, and_true]
    exact and_congr_right fun _ => ⟨fun h hin => (h hin).2, fun h hin => ⟨hin, h hin⟩⟩

def Loader.phdr (l : Loader) (bytes : Bytes) (ph : Nat) : Phdr :=
  { phdrAt bytes ph with flags := if l.flags then (phdrAt bytes ph).flags else 0 }

lemma readPhdr_result {ph : Nat} (h : ph + 48 ≤ bytes.length) :
    (readPhdr l bytes ph).result = some (Loader.phdr l bytes ph) := by
  have hfield : ∀ off len, off + len ≤ 48 → ∃ v, field bytes (ph + off) len = some v :=
    fun off len hle => ⟨_, field_of_le (by omega)⟩
  obtain ⟨flags, hflags⟩ := hfield 4 4 (by omega)
  obtain ⟨offset, hoffset⟩ := hfield 8 8 (by omega)
  obtain ⟨vaddr, hvaddr⟩ := hfield 0x10 8 (by omega)
  obtain ⟨filesz, hfilesz⟩ := hfield 0x20 8 (by omega)
  obtain ⟨memsz, hmemsz⟩ := hfield 0x28 8 (by omega)
  unfold readPhdr Loader.phdr phdrAt
  split_ifs <;> simp [hflags, hoffset, hvaddr, hfilesz, hmemsz]

lemma clean_readPhdr {ph : Nat} :
    Clean (Access.InBounds bytes.length) (readPhdr l bytes ph) ↔ ph + 48 ≤ bytes.length := by
  simp only [readPhdr, clean_ite, clean_le_bind, clean_pure, clean_pure_bind, and_true]
  cases l.flags with
  | true =>
    simp only [true_imp_iff, not_true_eq_false, false_imp_iff, and_true]
    omega
  | false =>
    simp only [Bool.false_eq_true, not_false_eq_true, true_imp_iff, false_imp_iff, true_and]
    omega

lemma clean_readPhdr_bind {α : Type} {ph : Nat} (f : Phdr → Scan α) :
    Clean (Access.InBounds bytes.length) (readPhdr l bytes ph >>= f) ↔ ph + 48 ≤ bytes.length ∧
      Clean (Access.InBounds bytes.length) (f (Loader.phdr l bytes ph)) := by
  rw [clean_bind, clean_readPhdr]
  refine and_congr_right fun h => ?_
  rw [readPhdr_result h]
  simp

lemma getD_eq_ptLoad (o : Option Nat) : o.getD 0 = ptLoad ↔ o = some ptLoad := by
  cases o with
  | none => decide
  | some v => simp

lemma clean_loadHeader (hneed : 4 ≤ l.need) :
    Clean (Access.InBounds bytes.length) (loadHeader l bytes t i) ↔ HeaderSafe l bytes t i := by
  unfold loadHeader HeaderSafe phStart
  simp only [clean_addUsize_bind, clean_ite, clean_pure, clean_le_bind, clean_readPhdr_bind,
    clean_loadSegment, getD_eq_ptLoad, implies_true, true_and, gt_iff_lt, not_lt, ne_eq, not_not]
  constructor
  · rintro ⟨-, hend, hpass⟩
    exact ⟨hend, fun hlen => (hpass hlen).2⟩
  · rintro ⟨hend, hpass⟩
    exact ⟨by omega, hend, fun hlen => ⟨by omega, hpass hlen⟩⟩

lemma copySegment_ok {p : Phdr} (h : (copySegment l p).result = some r) : ¬∃ e, r = .error e := by
  rintro ⟨e, rfl⟩
  unfold copySegment at h
  dsimp only at h
  split_ifs at h <;> simp [bind_eq_some_iff] at h

lemma loadSegment_rejects {p : Phdr} (hsafe : SegmentSafe l bytes p)
    (h : (loadSegment l bytes p).result = some r) :
    (∃ e, r = .error e) ↔ p.memsz ≠ 0 ∧ ¬InFile bytes p := by
  unfold loadSegment at h
  split_ifs at h with hsize hfile
  · obtain rfl := some.inj h
    simp [hsize]
  · obtain ⟨hwrap, -⟩ := hsafe hsize
    rw [result_bind, addUsize_result, bind_some, wrap64, Nat.mod_eq_of_lt (hwrap hfile)] at h
    split_ifs at h with hlen
    · obtain rfl := some.inj h
      simp only [Except.error.injEq, exists_eq', InFile, true_iff]
      exact ⟨hsize, by omega⟩
    · simp only [copySegment_ok h, InFile, false_iff]
      omega
  · simp only [copySegment_ok h, InFile, false_iff]
    omega

lemma loadHeader_rejects (hneed : 4 ≤ l.need) (hsafe : HeaderSafe l bytes t i)
    (h : (loadHeader l bytes t i).result = some r) :
    (∃ e, r = .error e) ↔ HeaderRejected l bytes t i := by
  obtain ⟨hend, hpass⟩ := hsafe
  have hstart : phStart t i < 2 ^ 64 := by omega
  have hph : wrap64 (t.phoff + i * t.phentsize) = phStart t i := Nat.mod_eq_of_lt hstart
  have hsum : wrap64 (phStart t i + l.need) = phStart t i + l.need := Nat.mod_eq_of_lt hend
  unfold loadHeader at h
  simp only [result_bind, addUsize_result, bind_some, hph, hsum] at h
  unfold HeaderRejected
  split_ifs at h with hlen
  · obtain rfl := some.inj h
    simp [hlen]
  · rw [result_bind, le_result, field_of_le (by omega : phStart t i + 4 ≤ bytes.length), bind_some] at h
    split_ifs at h with htype
    · obtain rfl := some.inj h
      rw [ne_eq, getD_eq_ptLoad] at htype
      simp [hlen, htype]
    · rw [not_not, getD_eq_ptLoad] at htype
      obtain ⟨hfull, hseg⟩ := hpass (by omega) htype
      rw [result_bind, readPhdr_result hfull, bind_some] at h
      rw [loadSegment_rejects (p := Loader.phdr l bytes (phStart t i)) hseg h]
      simp only [hlen, htype, false_or, true_and]
      rfl

end Header

/-- Every program header that is reached is safe: those up to the first one that is rejected. -/
def HeadersSafe (l : Loader) (bytes : Bytes) (t : PhTable) : Prop :=
  ∀ i < t.phnum, (∀ j < i, ¬HeaderRejected l bytes t j) → HeaderSafe l bytes t i

section Loaders

variable {l : Loader} {bytes : Bytes} {t : PhTable}

lemma clean_loadHeaders (hneed : 4 ≤ l.need) (is : List Nat) (segs : List ProcSegment) :
    Clean (Access.InBounds bytes.length) (loadHeaders l bytes t is segs) ↔
      ∀ before i after, is = before ++ i :: after →
        (∀ j ∈ before, ¬HeaderRejected l bytes t j) → HeaderSafe l bytes t i := by
  induction is generalizing segs with
  | nil => simp [loadHeaders]
  | cons i is ih =>
    have hcons : (∀ before k after, i :: is = before ++ k :: after →
        (∀ j ∈ before, ¬HeaderRejected l bytes t j) → HeaderSafe l bytes t k) ↔
        HeaderSafe l bytes t i ∧ (¬HeaderRejected l bytes t i →
          ∀ before k after, is = before ++ k :: after →
            (∀ j ∈ before, ¬HeaderRejected l bytes t j) → HeaderSafe l bytes t k) := by
      constructor
      · intro h
        refine ⟨h [] i is rfl (by simp), fun hi before k after heq hb => ?_⟩
        exact h (i :: before) k after (by rw [heq]; rfl) (forall_mem_cons.mpr ⟨hi, hb⟩)
      · rintro ⟨hi, hrest⟩ before k after heq hb
        cases before with
        | nil =>
          obtain ⟨rfl, -⟩ := List.cons.inj heq
          exact hi
        | cons b before =>
          obtain ⟨rfl, htail⟩ := List.cons.inj heq
          obtain ⟨hb0, hb⟩ := forall_mem_cons.mp hb
          exact hrest hb0 before k after htail hb
    rw [hcons, loadHeaders, clean_bind, clean_loadHeader hneed]
    refine and_congr_right fun hsafe => ?_
    obtain ⟨r, hr⟩ := ((clean_loadHeader hneed).mpr hsafe).1
    have hrej := loadHeader_rejects hneed hsafe hr
    rw [hr]
    simp only [Option.some.injEq, forall_eq']
    match r with
    | .error e =>
      have hyes := hrej.mp ⟨e, rfl⟩
      simp [hyes]
    | .ok none =>
      have hno : ¬HeaderRejected l bytes t i := fun h => by simpa using hrej.mpr h
      simp [hno, ih]
    | .ok (some seg) =>
      have hno : ¬HeaderRejected l bytes t i := fun h => by simpa using hrej.mpr h
      simp [hno, ih]

lemma clean_loadHeaders_range (hneed : 4 ≤ l.need) (segs : List ProcSegment) :
    Clean (Access.InBounds bytes.length) (loadHeaders l bytes t (List.range t.phnum) segs) ↔
      HeadersSafe l bytes t := by
  rw [clean_loadHeaders hneed, range_eq_range']
  constructor
  · intro h i hi hbefore
    have hsplit : List.range' 0 t.phnum = List.range' 0 i ++ i :: List.range' (i + 1) (t.phnum - i - 1) := by
      rw [List.range'_eq_append_iff]
      refine ⟨i, hi.le, rfl, ?_⟩
      rw [← List.range'_succ, Nat.sub_add_cancel (by omega)]
      simp
    refine h _ i _ hsplit fun j hj => hbefore j ?_
    simpa using hj
  · intro h before i after heq hbefore
    obtain ⟨k, hk, rfl, htail⟩ := List.range'_eq_append_iff.mp heq
    obtain ⟨rfl, hpos, -⟩ := List.range'_eq_cons_iff.mp htail.symm
    refine h _ (by omega) fun j hj => hbefore j ?_
    simpa using hj

lemma clean_lowestVaddr (is : List Nat) (lowest : Nat) :
    Clean (Access.InBounds bytes.length) (lowestVaddr bytes t is lowest) ↔
      ∀ i ∈ is, phStart t i + 48 < 2 ^ 64 := by
  induction is generalizing lowest with
  | nil => simp [lowestVaddr]
  | cons i is ih =>
    have hph : t.phoff + i * t.phentsize = phStart t i := rfl
    unfold lowestVaddr
    simp only [clean_addUsize_bind, clean_ite, clean_le_bind, ih, forall_mem_cons, hph]
    by_cases hend : phStart t i + 48 < 2 ^ 64
    · simp only [hend, true_and, gt_iff_lt, not_lt]
      constructor
      · rintro ⟨-, hskip, hread⟩
        by_cases hlen : bytes.length < phStart t i + 48
        · exact hskip hlen
        · by_cases htype : (field bytes (phStart t i) 4).getD 0 = ptLoad
          · exact ((hread (by omega)).2.2 (not_not.mpr htype)).2
          · exact (hread (by omega)).2.1 htype
      · intro hrest
        exact ⟨by omega, fun _ => hrest,
          fun hlen => ⟨by omega, fun _ => hrest, fun _ => ⟨by omega, hrest⟩⟩⟩
    · simp only [hend, false_and, and_false]

end Loaders

def HeaderAccepted (bytes : Bytes) : Prop := (checkHeader bytes).result = some none

def tableOf (bytes : Bytes) : PhTable :=
  let get := fun off len => (field bytes off len).getD 0
  ⟨get 0x20 8, get 0x36 2, get 0x38 2⟩

def typeOf (bytes : Bytes) : Nat := (field bytes 0x10 2).getD 0

def entryOf (bytes : Bytes) : Nat := (field bytes 0x18 8).getD 0

section Totality

variable (writable : Nat → Bool) (spawn : Nat → List ProcSegment → Option (Except String Nat))
  (random : Nat) (bytes : Bytes)

def LoadCondition : Prop := HeaderAccepted bytes → HeadersSafe ⟨40, false, 0, writable⟩ bytes (tableOf bytes)

/-- No header of a position-independent file wraps around, the headers that are reached are safe, and the
process can be created. -/
def SpawnCondition : Prop :=
  HeaderAccepted bytes →
    (typeOf bytes = etDyn → ∀ i < (tableOf bytes).phnum, phStart (tableOf bytes) i + 48 < 2 ^ 64) ∧
    ∀ slide, (aslrOffset bytes (tableOf bytes) (typeOf bytes) random).result = some slide →
      HeadersSafe ⟨48, true, slide, writable⟩ bytes (tableOf bytes) ∧
      ∀ segs, (loadHeaders ⟨48, true, slide, writable⟩ bytes (tableOf bytes)
        (List.range (tableOf bytes).phnum) []).result = some (.ok segs) →
          ∃ r, spawn (wrap64 (entryOf bytes + slide)) segs = some r

variable {bytes}

lemma headerAccepted_length (h : HeaderAccepted bytes) : 64 ≤ bytes.length := by
  by_contra hlt
  simp [HeaderAccepted, checkHeader, not_le.mp hlt] at h

lemma clean_checkHeader : Clean (Access.InBounds bytes.length) (checkHeader bytes) := by
  unfold checkHeader
  simp only [clean_ite, clean_le_bind, clean_pure, implies_true, true_and, and_true]
  omega

lemma clean_checkHeader_bind {α : Type} (f : Option ElfError → Scan α)
    (herror : ∀ e, Clean (Access.InBounds bytes.length) (f (some e))) :
    Clean (Access.InBounds bytes.length) (checkHeader bytes >>= f) ↔
      (HeaderAccepted bytes → Clean (Access.InBounds bytes.length) (f none)) := by
  rw [clean_bind, and_iff_right clean_checkHeader]
  have hclean : Clean (Access.InBounds bytes.length) (checkHeader bytes) := clean_checkHeader
  obtain ⟨r, hr⟩ := hclean.1
  rw [HeaderAccepted, hr]
  cases r with
  | none => simp
  | some e => simp [herror]

lemma clean_phTable_bind {α : Type} (hlen : 64 ≤ bytes.length) (f : PhTable → Scan α) :
    Clean (Access.InBounds bytes.length) (phTable bytes >>= f) ↔
      Clean (Access.InBounds bytes.length) (f (tableOf bytes)) := by
  have hclean : Clean (Access.InBounds bytes.length) (phTable bytes) := by
    simp only [phTable, clean_le_bind, clean_pure, and_true]
    omega
  have hresult : (phTable bytes).result = some (tableOf bytes) := by
    unfold phTable tableOf
    simp only [result_bind, le_result]
    rw [field_of_le (by omega : 0x20 + 8 ≤ bytes.length), field_of_le (by omega : 0x36 + 2 ≤ bytes.length),
      field_of_le (by omega : 0x38 + 2 ≤ bytes.length)]
    rfl
  rw [clean_bind, hresult]
  simp [hclean]

variable (bytes)

/-- The loaders return, with all accesses in bounds, for exactly these files. -/
theorem elf_loaders_total_iff :
    (Clean (Access.InBounds bytes.length) (loadElf writable bytes) ↔ LoadCondition writable bytes) ∧
    (Clean (Access.InBounds bytes.length) (spawnElf writable spawn random bytes) ↔
      SpawnCondition writable spawn random bytes) := by
  constructor
  · unfold loadElf LoadCondition
    rw [clean_checkHeader_bind _ (by exact fun e => clean_pure _)]
    refine forall_congr' fun haccepted => ?_
    have hlen := headerAccepted_length haccepted
    rw [clean_le_bind, clean_phTable_bind hlen, clean_bind, clean_loadHeaders_range (by simp)]
    refine ⟨fun h => h.2.1, fun h => ⟨by omega, h, fun r _ => ?_⟩⟩
    cases r <;> exact clean_pure _
  · unfold spawnElf SpawnCondition
    rw [clean_checkHeader_bind _ (by exact fun e => clean_pure _)]
    refine forall_congr' fun haccepted => ?_
    have hlen := headerAccepted_length haccepted
    have hslide : Clean (Access.InBounds bytes.length) (aslrOffset bytes (tableOf bytes) (typeOf bytes) random) ↔
        (typeOf bytes = etDyn → ∀ i < (tableOf bytes).phnum, phStart (tableOf bytes) i + 48 < 2 ^ 64) := by
      simp only [aslrOffset, clean_ite, clean_bind, clean_lowestVaddr, clean_pure, implies_true, and_true,
        mem_range]
    rw [clean_le_bind, clean_le_bind, clean_phTable_bind hlen, clean_bind]
    change (_ ∧ _ ∧ Clean _ (aslrOffset bytes (tableOf bytes) (typeOf bytes) random) ∧ _) ↔ _
    rw [hslide, and_iff_right (by omega), and_iff_right (by omega)]
    refine and_congr_right fun _ => forall_congr' fun slide => forall_congr' fun _ => ?_
    rw [clean_bind, clean_loadHeaders_range (by simp)]
    refine and_congr_right fun _ => ⟨fun h segs hsegs => ?_, fun h r hr => ?_⟩
    · exact (clean_ofOption _).mp (h _ hsegs)
    · cases r with
      | error e => exact clean_pure _
      | ok segs => exact (clean_ofOption _).mpr (h segs hr)

end Totality

def fileHeader : Bytes :=
  [0x7F, 0x45, 0x4C, 0x46, 2, 1, 1, 0] ++ List.replicate 8 0 ++ toLe 2 2 ++ toLe 0xB7 2 ++ toLe 1 4 ++
    toLe 0x48000000 8 ++ toLe 64 8 ++ List.replicate 14 0 ++ toLe 56 2 ++ toLe 1 2 ++ List.replicate 6 0

def cutFile : Bytes := fileHeader ++ toLe 1 4 ++ List.replicate 36 0

def wrappedFile : Bytes :=
  fileHeader ++ toLe 1 4 ++ toLe 5 4 ++ toLe (2 ^ 64 - 1) 8 ++ toLe 0x48000000 8 ++ toLe 0 8 ++ toLe 2 8 ++
    toLe 2 8 ++ toLe 0 8

/-- `load_elf` panics on a program header that is cut, and `spawn_elf` copies from outside of a file when the
end of a segment wraps around. -/
theorem elf_loaders_out_of_bounds :
    (loadElf (fun _ => true) cutFile).result = none ∧
      Access.read 0x68 8 ∈ (loadElf (fun _ => true) cutFile).events ∧ cutFile.length = 0x68 ∧
      Access.sum (2 ^ 64 - 1) 2 ∈ (spawnElf (fun _ => true) (fun _ _ => some (.ok 1)) 0 wrappedFile).events ∧
      Access.read (2 ^ 64 - 1) 2 ∈
        (spawnElf (fun _ => true) (fun _ _ => some (.ok 1)) 0 wrappedFile).events := by
  refine ⟨rfl, ?_, ?_, ?_, ?_⟩ <;> decide +kernel

end Aeglos.Proofs
