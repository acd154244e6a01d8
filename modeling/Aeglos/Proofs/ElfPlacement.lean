import Aeglos.Proofs.Pointers
import Aeglos.Proofs.TableRefinement
import Aeglos.Proofs.ElfBounds

/-!
# Where the ELF loader puts an image

What a successful `spawn_elf` has written, mapped and overlapped.
-/

namespace Aeglos.Proofs

open Effects TransitionSystem Elf Call Memory List Option BitVec

section Image

variable {segs : List ProcSegment}

lemma keepExec_user (old : Option Translation) {flags : Entry} (h : flags.isUser = true) :
    (keepExec old flags).isUser = true := by
  have hcleared : Entry.isUser (flags &&& ~~~pteUxn) = true := by
    rw [isUser_eq] at h ⊢
    rw [getLsbD_and, h, getLsbD_not]
    decide
  unfold keepExec
  split
  · exact h
  · split_ifs
    · exact hcleared
    · exact h

lemma segmentFlags_user {seg : ProcSegment} (h : seg.el0 = true) : (segmentFlags seg).isUser = true := by
  have hall : ∀ exec dev : Bool, (segmentFlags ⟨0, 0, true, exec, dev⟩).isUser = true := by decide
  obtain ⟨pa, size, el0, exec, dev⟩ := seg
  obtain rfl : el0 = true := h
  exact hall exec dev

def UserIdentity (f : PageMap) : Prop := ∀ v tr, f.trans v = some tr → tr.user = true ∧ tr.page = vaddr v

lemma vaddr_offset {pa size : Nat} (hfits : pa + size ≤ 2 ^ 48) {v : VPage}
    (hv : (v - vpage pa).toNat < spanned pa size) :
    pa / 4096 * 4096 + (v - vpage pa).toNat * 4096 = vaddr v := by
  have hpage : v.toNat = pa / 4096 + (v - vpage pa).toNat := by
    obtain ⟨k, hk⟩ : ∃ k, (v - vpage pa).toNat = k := ⟨_, rfl⟩
    have hk36 : k < 2 ^ 36 := hk ▸ BitVec.isLt _
    have hspan : pa / 4096 + k < 2 ^ 36 := by
      rw [hk] at hv
      unfold spanned at hv
      split_ifs at hv
      · omega
      · omega
    rw [(eq_add_iff hk36).mpr hk, toNat_add, vpage, toNat_ofNat, toNat_ofNat]
    rw [toNat_sub, toNat_add, toNat_ofNat, toNat_ofNat]
    omega
  rw [vaddr, hpage]
  omega

lemma segments_pageMap (hel0 : ∀ seg ∈ segs, seg.el0 = true)
    (hfits : ∀ seg ∈ segs, seg.pa + seg.size ≤ 2 ^ 48) {f : PageMap} (hf : UserIdentity f) :
    UserIdentity (run PageMap.step f (segs.map segmentOp)) ∧
      ∀ v, (∃ tr, (run PageMap.step f (segs.map segmentOp)).trans v = some tr) ↔
        (∃ tr, f.trans v = some tr) ∨ ∃ seg ∈ segs, (v - vpage seg.pa).toNat < spanned seg.pa seg.size := by
  induction segs generalizing f with
  | nil => exact ⟨hf, by simp⟩
  | cons seg segs ih =>
    obtain ⟨hseg, hel0⟩ := forall_mem_cons.mp hel0
    obtain ⟨hfit, hfits⟩ := forall_mem_cons.mp hfits
    have hstep : UserIdentity (f.step (segmentOp seg)) := by
      intro v tr htr
      simp only [PageMap.step, segmentOp, PageMap.map] at htr
      split_ifs at htr with hv
      · obtain rfl := some.inj htr
        exact ⟨keepExec_user _ (segmentFlags_user hseg), vaddr_offset hfit hv⟩
      · exact hf v tr htr
    obtain ⟨hid, hcover⟩ := ih hel0 hfits hstep
    refine ⟨hid, fun v => (hcover v).trans ?_⟩
    simp only [PageMap.step, segmentOp, PageMap.map, mem_cons, exists_eq_or_imp]
    by_cases hv : (v - vpage seg.pa).toNat < spanned seg.pa seg.size
    · simp only [hv, if_true, Option.some.injEq, exists_eq', true_or, or_true]
    · simp only [hv, if_false, false_or]

end Image

def loadedAt (bytes : Bytes) (h : Header) (i : Nat) : Option Phdr :=
  match phdr bytes (phOffset h i) with
  | some (some p) => if p.memsz = 0 then none else some p
  | _ => none

def image (bytes : Bytes) : List Phdr :=
  (List.range (header bytes).phnum).filterMap (loadedAt bytes (header bytes))

def loadAddr (slide : Nat) (p : Phdr) : Nat := wrap64 (p.vaddr + slide)

def recordedAs (slide : Nat) (p : Phdr) : ProcSegment := ⟨loadAddr slide p, p.memsz, true, p.flags % 2 == 1, false⟩

def record (segs : List ProcSegment) (seg : ProcSegment) : List ProcSegment :=
  if segs.length < 16 then segs ++ [seg] else segs

lemma foldl_record (segs new : List ProcSegment) (hlen : segs.length ≤ 16) :
    new.foldl record segs = segs ++ new.take (16 - segs.length) := by
  induction new generalizing segs with
  | nil => simp
  | cons seg new ih =>
    rw [List.foldl_cons, record]
    split_ifs with hlt
    · rw [ih _ (by simp; omega), List.append_assoc]
      obtain ⟨n, hn⟩ : ∃ n, 16 - segs.length = n + 1 := ⟨16 - segs.length - 1, by omega⟩
      have hn' : 16 - (segs ++ [seg]).length = n := by simp; omega
      rw [hn, hn', List.take_succ_cons]
      rfl
    · rw [ih _ hlen, show 16 - segs.length = 0 by omega, List.take_zero, List.take_zero]

section Call

variable {cpu : Cpu} {bytes : Bytes} {elfPtr slide : Nat}

lemma loadSegments_ok {h : Header} {is : List Nat} {segs segs' : List ProcSegment} {k k₁ : Kernel}
    (hr : loadSegments cpu bytes elfPtr slide h is segs k = .ok (.ok segs', k₁)) :
    segs' = ((is.filterMap (loadedAt bytes h)).map (recordedAs slide)).foldl record segs := by
  induction is generalizing segs k with
  | nil =>
    obtain ⟨heq, -⟩ := Prod.mk.inj (Except.ok.inj hr)
    exact (Except.ok.inj heq).symm
  | cons i is ih =>
    unfold loadSegments at hr
    have hat : loadedAt bytes h i = match phdr bytes (phOffset h i) with
      | some (some p) => if p.memsz = 0 then none else some p
      | _ => none := rfl
    by_cases hlen : wrap64 (phOffset h i + 48) > bytes.length
    · rw [if_pos hlen] at hr
      obtain ⟨heq, -⟩ := Prod.mk.inj (Except.ok.inj hr)
      cases heq
    rw [if_neg hlen] at hr
    cases hp : phdr bytes (phOffset h i) with
    | none =>
      rw [hp] at hr
      cases hr
    | some o =>
      rw [hp] at hr hat
      cases o with
      | none =>
        rw [filterMap_cons_none hat]
        exact ih hr
      | some p =>
        dsimp only at hr hat
        by_cases hsize : p.memsz = 0
        · rw [if_pos hsize] at hr
          rw [filterMap_cons_none (by rw [hat, if_pos hsize])]
          exact ih hr
        rw [if_neg hsize] at hr
        by_cases hbad : p.filesz > 0 ∧ wrap64 (p.offset + p.filesz) > bytes.length
        · rw [if_pos hbad] at hr
          obtain ⟨heq, -⟩ := Prod.mk.inj (Except.ok.inj hr)
          cases heq
        rw [if_neg hbad] at hr
        obtain ⟨-, k₂, -, hr⟩ := bind_ok hr
        rw [filterMap_cons_some (by rw [hat, if_neg hsize])]
        exact ih hr

structure SameShape (k k' : Kernel) : Prop where
  pages : k'.sched.mem.pages = k.sched.mem.pages
  slots : ∀ slot, (k'.sched.tasks slot).isSome = (k.sched.tasks slot).isSome

lemma SameShape.refl (k : Kernel) : SameShape k k := ⟨rfl, fun _ => rfl⟩

lemma SameShape.trans {k₁ k₂ k₃ : Kernel} (h : SameShape k₁ k₂) (h' : SameShape k₂ k₃) : SameShape k₁ k₃ :=
  ⟨h'.pages.trans h.pages, fun slot => (h'.slots slot).trans (h.slots slot)⟩

lemma sameShape_poke (k : Kernel) (pa : Nat) (b : UInt8) : SameShape k (k.poke pa b) := by
  have hmodify : ∀ slot f, SameShape k { k with sched := k.sched.modifyTask slot f } := by
    refine fun slot f => ⟨rfl, fun slot' => ?_⟩
    by_cases h : slot' = slot
    · subst h
      simp [Sched.modifyTask, SlotTable.modify]
    · simp [Sched.modifyTask, SlotTable.modify, h]
  unfold Kernel.poke
  split
  · exact hmodify _ _
  · exact hmodify _ _
  · exact ⟨rfl, fun _ => rfl⟩

lemma within_store_shape (va : Nat) (bs : Bytes) : Within SameShape (store cpu va bs) := by
  induction bs generalizing va with
  | nil => exact within_pure _
  | cons b bs ih =>
    refine within_bind ?_ fun _ => ih _
    unfold storeByte
    refine within_bind within_get fun k => ?_
    cases k.physical cpu va with
    | none => exact within_stop
    | some pa => exact within_modify fun k => sameShape_poke k pa b

lemma loadSegments_shape {h : Header} {is : List Nat} {segs : List ProcSegment}
    {r : Except String (List ProcSegment)} {k k₁ : Kernel}
    (hr : loadSegments cpu bytes elfPtr slide h is segs k = .ok (r, k₁)) : SameShape k k₁ := by
  have hsegment : ∀ i ∈ is, ∀ p, phdr bytes (phOffset h i) = some (some p) → p.memsz ≠ 0 →
      Within SameShape (loadSegment cpu bytes elfPtr slide p) := fun _ _ p _ _ =>
    within_bind (within_segmentBytes _ _ _ _ _) fun _ =>
      within_bind (within_store_shape _ _) fun _ => within_ite (within_store_shape _ _) (within_pure _)
  have hwithin := within_loadSegments cpu bytes elfPtr slide hsegment segs k
  rw [after_ok hr] at hwithin
  clear hr
  induction hwithin with
  | refl => exact SameShape.refl k
  | tail _ hstep ih => exact ih.trans hstep

end Call

def UsedByOther (p : PageAllocator) (t : Task) (a : Nat) : Prop :=
  p.pageBase ≤ a ∧ (a - p.pageBase) / pageSize < p.numPages ∧ ¬p.Free a ∧
    ¬(t.userStackBase ≤ a ∧ a < t.userStackTop)

def aslrLimit : Nat := 0x80000000

structure Placed (k : Kernel) (t : Task) (slide : Nat) (p : Phdr) : Prop where
  /-- Its bytes are written through the kernel's alias of the load window. -/
  written : ∀ j < max p.filesz p.memsz, ∃ pa, aslrBase ≤ pa ∧ pa < aslrLimit ∧
    wrap64 (segmentDst slide p + j) = pa + kernelVaOffset
  /-- EL0 reaches all of it, at its own address. -/
  mapped : ∀ j < p.memsz, ∃ tr, k.sched.mem.translate t.ttbr0 (loadAddr slide p + j) = some tr ∧
    tr.user = true ∧ tr.page = pageFloor (loadAddr slide p + j)
  /-- It overlaps no page that is in use. -/
  apart : ∀ j < max p.filesz p.memsz, ¬UsedByOther k.sched.mem.pages t (loadAddr slide p + j)

def Touches (seg : ProcSegment) (a : Nat) : Prop := ∃ x, seg.pa ≤ x ∧ x < seg.pa + seg.size ∧ x / 4096 = a / 4096

/-- Every segment lies in the load window, its pages are touched by the user stack or by one of the first 16
segments, and none of them is in use. -/
def PlacementCondition (k : Kernel) (t : Task) (slide : Nat) (bytes : Bytes) : Prop :=
  ∀ p ∈ image bytes,
    aslrBase ≤ loadAddr slide p ∧ loadAddr slide p + max p.filesz p.memsz ≤ aslrLimit ∧
    (∀ j < p.memsz, ∃ seg ∈ ((image bytes).take 16).map (recordedAs slide) ++
        [⟨t.userStackBase, t.userStackTop - t.userStackBase, true, false, false⟩],
      Touches seg (loadAddr slide p + j)) ∧
    ∀ j < max p.filesz p.memsz, ¬UsedByOther k.sched.mem.pages t (loadAddr slide p + j)

section Placement

variable {name : Bytes} {entry tid : Nat} {caps : BitVec 64} {segs : List ProcSegment} {s s' : Sched}

lemma spawnUserEntryWithSegs_ok (h : s.spawnUserEntryWithSegs name entry caps segs = (some (.ok tid), s')) :
    ∃ (m : Memory) (slot : Slot) (t : Task),
      m.createProcessTable (segs.take 17 ++
        [⟨t.userStackBase, t.userStackTop - t.userStackBase, true, false, false⟩]) = .ok (t.ttbr0, s'.mem) ∧
      t.userStackTop ≤ 2 ^ 48 ∧ t.userStackBase ≤ t.userStackTop ∧ s.tasks slot = none ∧
      s'.tasks slot = some t ∧ t.tid = tid := by
  unfold Sched.spawnUserEntryWithSegs at h
  cases hk : s.mem.allocPages taskStackPages with
  | none => simp [hk] at h
  | some rk =>
    obtain ⟨kernelStack, m₁⟩ := rk
    cases hu : m₁.allocPages userStackPages with
    | none => simp [hk, hu] at h
    | some ru =>
      obtain ⟨userStack, m₂⟩ := ru
      simp only [hk, hu] at h
      cases hp : m₂.createProcessTable (segs.take 17 ++ [⟨userStack, userStackSize, true, false, false⟩]) with
      | error m => simp [hp] at h
      | ok rp =>
        obtain ⟨root, m₃⟩ := rp
        simp only [hp] at h
        cases hf : SlotTable.free s.tasks with
        | none => simp [hf] at h
        | some slot =>
          simp only [hf, Prod.mk.injEq, Option.some.injEq, Except.ok.injEq] at h
          obtain ⟨rfl, rfl⟩ := h
          obtain ⟨start, haddr, -, hle, -, -⟩ := PageAllocator.allocPages_some (allocPages_pages hu)
          have hfits := m₁.pages.fits
          have htop := m₁.pages.top_le
          refine ⟨m₂, slot, _, ?_, ?_, ?_, SlotTable.free_some hf, by simp [Sched.install]; rfl, rfl⟩
          · simpa [Task.newUser, Sched.install] using hp
          · simp only [Task.newUser, userStackSize, userStackPages, pageSize, maxRamEnd] at haddr hle hfits htop ⊢
            omega
          · simp [Task.newUser]

lemma written_iff {slide : Nat} {p : Phdr} (hsize : p.memsz ≠ 0) :
    (∀ j < max p.filesz p.memsz, ∃ pa, aslrBase ≤ pa ∧ pa < aslrLimit ∧
      wrap64 (segmentDst slide p + j) = pa + kernelVaOffset) ↔
    aslrBase ≤ loadAddr slide p ∧ loadAddr slide p + max p.filesz p.memsz ≤ aslrLimit := by
  have hlt : loadAddr slide p < 2 ^ 64 := Nat.mod_lt _ (by decide)
  have hdst : segmentDst slide p = wrap64 (loadAddr slide p + kernelVaOffset) := rfl
  rw [hdst]
  generalize loadAddr slide p = a at hlt ⊢
  have hpos : 0 < max p.filesz p.memsz := by omega
  generalize max p.filesz p.memsz = n at hpos ⊢
  simp only [wrap64, aslrBase, aslrLimit, kernelVaOffset]
  constructor
  · intro h
    obtain ⟨pa, hlo, hhi, heq⟩ := h 0 hpos
    have ha : a = pa := by omega
    refine ⟨by omega, ?_⟩
    by_contra hend
    -- the first byte behind the window
    obtain ⟨pb, -, hb, heq'⟩ := h (0x80000000 - a) (by omega)
    omega
  · rintro ⟨hlo, hhi⟩ j hj
    exact ⟨a + j, by omega, by omega, by omega⟩

variable {cpu : Cpu} {env : Env} {bytes : Bytes} {k k' : Kernel}

lemma spawnElf_ok (h : Call.spawnElf cpu env name bytes caps k = .ok (.ok tid, k')) :
    ∃ slide m slot t, loadSlide bytes (header bytes) env.random = some slide ∧
      Memory.createProcessTable m (((image bytes).take 16).map (recordedAs slide) ++
        [⟨t.userStackBase, t.userStackTop - t.userStackBase, true, false, false⟩]) =
          .ok (t.ttbr0, k'.sched.mem) ∧
      t.userStackTop ≤ 2 ^ 48 ∧ t.userStackBase ≤ t.userStackTop ∧ k.sched.tasks slot = none ∧
      k'.sched.tasks slot = some t ∧ t.tid = tid := by
  unfold Call.spawnElf at h
  cases herr : headerError bytes with
  | some e =>
    rw [herr] at h
    obtain ⟨heq, -⟩ := Prod.mk.inj (Except.ok.inj h)
    cases heq
  | none =>
    rw [herr] at h
    dsimp only at h
    cases hslide : loadSlide bytes (header bytes) env.random with
    | none =>
      rw [hslide] at h
      cases h
    | some slide =>
      rw [hslide] at h
      obtain ⟨r, k₁, hload, h⟩ := bind_ok h
      cases r with
      | error e =>
        obtain ⟨heq, -⟩ := Prod.mk.inj (Except.ok.inj h)
        cases heq
      | ok segs =>
        have hsegs := loadSegments_ok hload
        have hshape := loadSegments_shape hload
        obtain ⟨r, k₂, hspawn, h⟩ := bind_ok h
        obtain ⟨rfl, rfl⟩ := Prod.mk.inj (Except.ok.inj hspawn)
        dsimp only at h
        cases hr : k₁.sched.spawnUserEntryWithSegs name (wrap64 ((header bytes).entry + slide)) caps segs with
        | mk r s' =>
          rw [hr] at h
          cases r with
          | none => cases h
          | some r =>
            obtain ⟨rfl, rfl⟩ := Prod.mk.inj (Except.ok.inj h)
            obtain ⟨m, slot, t, hcreate, htop, hbase, hfree, htask, htid⟩ := spawnUserEntryWithSegs_ok hr
            have htake : segs.take 17 = ((image bytes).take 16).map (recordedAs slide) := by
              rw [hsegs, foldl_record _ _ (by simp), map_take]
              exact take_of_length_le (by simp)
            rw [htake] at hcreate
            refine ⟨slide, m, slot, t, rfl, ?_, htop, hbase, ?_, ?_, htid⟩
            · simpa [Sched.step, hr] using hcreate
            · have := hshape.slots slot
              rw [hfree] at this
              simpa using this.symm
            · simpa [Sched.step, hr] using htask

lemma spawnElf_returns {slide : Nat} {k₁ : Kernel} (herr : headerError bytes = none)
    (hslide : loadSlide bytes (header bytes) env.random = some slide)
    (hload : loadSegments cpu bytes env.heapPtr slide (header bytes) (List.range (header bytes).phnum) [] k =
      .ok (.ok segs, k₁))
    (hspawn : (k₁.sched.spawnUserEntryWithSegs name (wrap64 ((header bytes).entry + slide)) caps segs).1 =
      some (.ok tid)) : ∃ k', Call.spawnElf cpu env name bytes caps k = .ok (.ok tid, k') := by
  have hcall : Call.sched (.spawnUserEntryWithSegs name (wrap64 ((header bytes).entry + slide)) caps segs)
      (fun s => (s.spawnUserEntryWithSegs name (wrap64 ((header bytes).entry + slide)) caps segs).1) k₁ =
      .ok (some (.ok tid), { k₁ with sched := k₁.sched.step (.spawnUserEntryWithSegs name
        (wrap64 ((header bytes).entry + slide)) caps segs) }) := by
    rw [← hspawn]
    rfl
  refine ⟨{ k₁ with sched := k₁.sched.step (.spawnUserEntryWithSegs name
    (wrap64 ((header bytes).entry + slide)) caps segs) }, ?_⟩
  unfold Call.spawnElf
  rw [herr]
  dsimp only
  rw [hslide]
  exact (bind_of_ok hload).trans (bind_of_ok hcall)

lemma created_mapped {m m' : Memory} {root a : Nat} (hel0 : ∀ seg ∈ segs, seg.el0 = true)
    (hfits : ∀ seg ∈ segs, seg.pa + seg.size ≤ 2 ^ 48)
    (hcreate : m.createProcessTable segs = .ok (root, m')) (ha : a < 2 ^ 48) :
    (∃ tr, m'.translate root a = some tr ∧ tr.user = true ∧ tr.page = pageFloor a) ↔
      ∃ seg ∈ segs, Touches seg a := by
  obtain ⟨-, hmap, -⟩ := createProcessTable_pageMap hfits hcreate
  obtain ⟨hid, hcover⟩ := segments_pageMap hel0 hfits (f := PageMap.empty) fun v tr h => by cases h
  rw [← hmap] at hid hcover
  have hsame : SamePage (vaddr (vpage a)) a := samePage_iff_vpage.mpr (vpage_vaddr _)
  have htrans : (pageMap root m').trans (vpage a) = m'.translate root a := translate_samePage hsame m' root
  have hfloor : vaddr (vpage a) = pageFloor a := by
    simp only [vaddr, vpage, toNat_ofNat, pageFloor]
    omega
  have htouch : ∀ seg ∈ segs, (vpage a - vpage seg.pa).toNat < spanned seg.pa seg.size ↔ Touches seg a := by
    intro seg hseg
    have hfit := hfits seg hseg
    rw [spanned_iff (by omega)]
    refine exists_congr fun x => and_congr_right fun hlo => and_congr_right fun hhi => ?_
    rw [← toNat_inj, vpage, vpage, toNat_ofNat, toNat_ofNat]
    omega
  have hcovered := hcover (vpage a)
  rw [htrans] at hcovered
  simp only [PageMap.empty, reduceCtorEq, exists_false, false_or] at hcovered
  constructor
  · rintro ⟨tr, htr, -⟩
    obtain ⟨seg, hseg, hspan⟩ := hcovered.mp ⟨tr, htr⟩
    exact ⟨seg, hseg, (htouch seg hseg).mp hspan⟩
  · rintro ⟨seg, hseg, ht⟩
    obtain ⟨tr, htr⟩ := hcovered.mpr ⟨seg, hseg, (htouch seg hseg).mpr ht⟩
    obtain ⟨huser, hpage⟩ := hid (vpage a) tr (htrans.trans htr)
    exact ⟨tr, htr, huser, hpage.trans hfloor⟩

end Placement

section Returns

variable {m m₁ : Memory} {root pa va l3 n : Nat} {flags : Entry}

lemma mapOnePage_of_node (pa : Nat) (flags : Entry) (h : NodeAt m root (indices va) l3) :
    ∃ e, m.mapOnePage root pa va flags = .ok (m.setEntry l3 (l3Idx va) e) := by
  rw [indices, show [l0Idx va, l1Idx va, l2Idx va] = [l0Idx va, l1Idx va] ++ [l2Idx va] from rfl,
    nodeAt_concat] at h
  obtain ⟨-, l2, hl2, hc2⟩ := h
  obtain ⟨l1, hc0, hc1⟩ := nodeAt_two.mp hl2
  have hstep : ∀ t i u, m.child t i = some u → m.getOrAllocSubtable t i = .ok (u, m) := by
    intro t i u hc
    obtain ⟨hv, ht, rfl⟩ := child_eq_some.mp hc
    simp only [getOrAllocSubtable, hv, ht]
    rfl
  refine ⟨BitVec.ofNat 64 pa &&& addrMask ||| mergedFlags (m.table l3 (l3Idx va)) flags, ?_⟩
  simp [mapOnePage, hstep _ _ _ hc0, hstep _ _ _ hc1, hstep _ _ _ hc2, bind, Except.bind, pure, Except.pure]

lemma mapLoop_returns {is : List Nat} (hinv : TreeInv [root] m) (hflags : PageFlags flags)
    (hpa : ∀ i ∈ is, (pa + i * 4096) % 4096 = 0 ∧ pa + i * 4096 < 2 ^ 48)
    (hsmall : ∀ i ∈ is, (pageMap root m).small (vpage (va + i * 4096))) :
    ∃ m', is.foldlM (fun m i => m.mapOnePage root (pa + i * 4096) (va + i * 4096) flags) m = .ok m' := by
  induction is generalizing m with
  | nil => exact ⟨m, rfl⟩
  | cons i is ih =>
    obtain ⟨hi, hpa⟩ := forall_mem_cons.mp hpa
    obtain ⟨⟨l3, hl3⟩, hsmall⟩ := forall_mem_cons.mp hsmall
    have hsame : SamePage (vaddr (vpage (va + i * 4096))) (va + i * 4096) :=
      samePage_iff_vpage.mpr (vpage_vaddr _)
    rw [(samePage_iff.mp hsame).1] at hl3
    obtain ⟨e, he⟩ := mapOnePage_of_node (pa + i * 4096) flags hl3
    obtain ⟨htakes, -, hmono⟩ := mapOnePage_pageMap hinv hi.1 hi.2 hflags he
    obtain ⟨m', hm'⟩ := ih htakes.inv hpa fun j hj => (hmono _).mpr (Or.inl (hsmall j hj))
    exact ⟨m', by rw [foldlM_cons, he]; exact hm'⟩

lemma mapPages_returns {size : Nat} (hinv : TreeInv [root] m) (hflags : PageFlags flags)
    (haligned : pa % 4096 = 0) (hcount : pageCount pa size = n + 1) (hlt : pa + (n + 1) * 4096 ≤ 2 ^ 48)
    (hregion : ∀ i ≤ n, vregion (vpage pa) = vregion (vpage (pa + i * 4096)))
    (hfirst : m.mapOnePage root pa pa flags = .ok m₁) : ∃ m', m.mapPages root pa pa size flags = .ok m' := by
  have hfloor : pageFloor pa = pa := by
    simp only [pageFloor]
    omega
  obtain ⟨htakes, -, hsmall⟩ := mapOnePage_pageMap hinv haligned (by omega) hflags hfirst
  have hrest : ∀ i ∈ (List.range n).map Nat.succ, i ≤ n := by
    intro i hi
    obtain ⟨j, hj, rfl⟩ := mem_map.mp hi
    exact mem_range.mp hj
  have hsmall : ∀ i ∈ (List.range n).map Nat.succ, (pageMap root m₁).small (vpage (pa + i * 4096)) :=
    fun i hi => (hsmall _).mpr (Or.inr (hregion i (hrest i hi)))
  have hpa : ∀ i ∈ (List.range n).map Nat.succ, (pa + i * 4096) % 4096 = 0 ∧ pa + i * 4096 < 2 ^ 48 := by
    intro i hi
    have := hrest i hi
    omega
  obtain ⟨m', hm'⟩ := mapLoop_returns htakes.inv hflags hpa hsmall
  refine ⟨m', ?_⟩
  unfold mapPages
  rw [hcount, hfloor, range_succ_eq_map, foldlM_cons, Nat.zero_mul, Nat.add_zero, hfirst]
  exact hm'

lemma createProcessTable_snoc {segs : List ProcSegment} {seg : ProcSegment} {m₂ : Memory}
    (h : m.createProcessTable segs = .ok (root, m₁)) (hsize : seg.size ≠ 0)
    (hseg : m₁.mapPages root seg.pa seg.pa seg.size (segmentFlags seg) = .ok m₂) :
    m.createProcessTable (segs ++ [seg]) = .ok (root, m₂) := by
  obtain ⟨⟨root', m₀⟩, halloc, h⟩ := Fallible.bind_eq_ok h
  obtain ⟨m₃, hloop, h⟩ := Fallible.bind_eq_ok h
  obtain ⟨rfl, rfl⟩ := Prod.mk.inj (Except.ok.inj h)
  have hlast : (segs ++ [seg]).foldlM (fun m seg => if seg.size = 0 then pure m
      else m.mapPages root' seg.pa seg.pa seg.size (segmentFlags seg)) m₀ = .ok m₂ := by
    rw [Fallible.foldlM_append_of_ok hloop, foldlM_cons, if_neg hsize, hseg]
    rfl
  unfold createProcessTable
  rw [halloc]
  exact congrArg (fun x : Panics Memory => x >>= fun m => pure (root', m)) hlast

lemma spawnUserEntryWithSegs_returns {s : Sched} {name : Bytes} {entry kernelStack userStack : Nat}
    {caps : BitVec 64} {segs : List ProcSegment} {slot : Slot} {m₂ m₃ : Memory}
    (hkernel : s.mem.allocPages taskStackPages = some (kernelStack, m₁))
    (huser : m₁.allocPages userStackPages = some (userStack, m₂))
    (htable : m₂.createProcessTable (segs.take 17 ++ [⟨userStack, userStackSize, true, false, false⟩]) =
      .ok (root, m₃)) (hslot : SlotTable.free s.tasks = some slot) :
    (s.spawnUserEntryWithSegs name entry caps segs).1 = some (.ok s.nextTid) := by
  simp only [Sched.spawnUserEntryWithSegs, hkernel, huser, htable, hslot]

end Returns

def kernelFile : Bytes :=
  fileHeader ++ toLe 1 4 ++ toLe 5 4 ++ toLe 0 8 ++ toLe 0x40080000 8 ++ toLe 0 8 ++ toLe 1 8 ++ toLe 1 8 ++
    toLe 0 8

def kernelSegment : ProcSegment := ⟨0x40080000, 1, true, true, false⟩

def kernelFileParts : Bool :=
  match loadSegments 0 kernelFile 0 0 (header kernelFile) (List.range (header kernelFile).phnum) []
      (smallKernel 0) with
  | .ok (.ok [⟨pa, size, el0, exec, dev⟩], k₁) =>
    decide (pa = 0x40080000 ∧ size = 1 ∧ el0 = true ∧ exec = true ∧ dev = false ∧ k₁.sched.nextTid = 2) &&
      (SlotTable.free k₁.sched.tasks).isSome &&
      match k₁.sched.mem.allocPages taskStackPages with
      | some (_, m₁) =>
        match m₁.allocPages userStackPages with
        | some (userStack, m₂) =>
          match m₂.createProcessTable [kernelSegment] with
          | .ok (root, m₃) => decide (userStack = 0x48100000) && (m₃.mapOnePage root 0x48100000 0x48100000
              (segmentFlags ⟨0x48100000, userStackSize, true, false, false⟩)).isOk
          | .error _ => false
        | none => false
      | none => false
  | _ => false

lemma kernelFile_returns : ∃ k', Call.spawnElf 0 quietEnv [] kernelFile 0 (smallKernel 0) = .ok (.ok 2, k') := by
  have hparts : kernelFileParts = true := by decide +kernel
  unfold kernelFileParts at hparts
  split at hparts
  case h_2 => cases hparts
  case h_1 pa size el0 exec dev k₁ heq =>
    simp only [Bool.and_eq_true, decide_eq_true_eq] at hparts
    obtain ⟨⟨⟨rfl, rfl, rfl, rfl, rfl, htid⟩, hslot⟩, hparts⟩ := hparts
    obtain ⟨slot, hslot⟩ := isSome_iff_exists.mp hslot
    have hslide : loadSlide kernelFile (header kernelFile) quietEnv.random = some 0 := by decide +kernel
    refine spawnElf_returns (by decide +kernel) hslide heq ?_
    split at hparts
    case h_2 => cases hparts
    case h_1 kernelStack m₁ hkernel =>
      split at hparts
      case h_2 => cases hparts
      case h_1 userStack m₂ huser =>
        split at hparts
        case h_2 => cases hparts
        case h_1 root m₃ htable =>
          simp only [Bool.and_eq_true, decide_eq_true_eq] at hparts
          obtain ⟨rfl, hfirst⟩ := hparts
          obtain ⟨m₄, hm₄⟩ : ∃ m₄, m₃.mapOnePage root 0x48100000 0x48100000
              (segmentFlags ⟨0x48100000, userStackSize, true, false, false⟩) = .ok m₄ := by
            cases hm : m₃.mapOnePage root 0x48100000 0x48100000
              (segmentFlags ⟨0x48100000, userStackSize, true, false, false⟩) with
            | ok m₄ => exact ⟨m₄, rfl⟩
            | error m =>
              rw [hm] at hfirst
              cases hfirst
          have hsegment : ∀ seg ∈ [kernelSegment], seg.pa + seg.size ≤ 2 ^ 48 := by decide
          have hinv := (createProcessTable_pageMap hsegment htable).1
          have hcount : pageCount 0x48100000 userStackSize = 63 + 1 := by decide
          obtain ⟨m₅, hm₅⟩ := mapPages_returns hinv
            (segmentFlags_pageFlags _) (by decide) hcount (by decide) (by decide) hm₄
          have hboth : m₂.createProcessTable
              ([kernelSegment] ++ [⟨0x48100000, userStackSize, true, false, false⟩]) = .ok (root, m₅) :=
            createProcessTable_snoc htable (by decide) hm₅
          rw [← htid]
          exact spawnUserEntryWithSegs_returns hkernel huser hboth hslot

end Aeglos.Proofs
