import Aeglos.Library.Runs
import Aeglos.Proofs.FatSteps

/-!
# Reading files leaves the disk alone

The reading half of the FAT32 driver only fills the sector cache and moves positions.
-/

namespace Aeglos.Proofs

open Effects

structure Reads (f f' : Fat) : Prop where
  disk : f'.disk = f.disk
  writable : ∀ fd, (f'.openFiles fd).writable = true → (f.openFiles fd).writable = true

namespace Reads

lemma refl (f : Fat) : Reads f f := ⟨rfl, fun _ h => h⟩

lemma trans {f g h : Fat} (h₁ : Reads f g) (h₂ : Reads g h) : Reads f h :=
  ⟨h₂.disk.trans h₁.disk, fun fd hw => h₁.writable fd (h₂.writable fd hw)⟩

lemma of_steps {f f' : Fat} (h : Relation.ReflTransGen Reads f f') : Reads f f' := by
  induction h with
  | refl => exact refl f
  | tail _ hstep ih => exact ih.trans hstep

lemma setFile (f : Fat) (fd : Fin maxOpen) {file : OpenFile}
    (h : file.writable = true → (f.openFiles fd).writable = true) :
    Reads f { f with openFiles := Function.update f.openFiles fd file } := by
  refine ⟨rfl, fun i hi => ?_⟩
  dsimp only at hi
  by_cases hfd : i = fd
  · subst hfd
    rw [Function.update_self] at hi
    exact h hi
  · rwa [Function.update_of_ne hfd] at hi

end Reads

open Fat TransitionSystem

lemma within_modify_cache {g : Fat → Fat} (hd : ∀ f, (g f).disk = f.disk)
    (ho : ∀ f, (g f).openFiles = f.openFiles) : Within Reads (modify g : FatM Unit) := by
  refine within_modify fun f => ⟨hd f, fun fd h => ?_⟩
  rwa [ho] at h

lemma reads_driver : Fat.Reads Reads where
  csec lba := by
    have htag : Within Reads (setTag lba) := within_modify_cache (fun _ => rfl) fun _ => rfl
    have hload : Within Reads (modify fun f : Fat => if lba < f.capacity then
        { f with cdata := Function.update f.cdata (slotOf lba) (f.disk lba) } else f) :=
      within_modify_cache (fun f => by split <;> rfl) fun f => by split <;> rfl
    grind [csec, readBlock]

@[grind .] lemma within_allocFile (size cluster lba off : Nat) :
    Within Reads (allocFile false size cluster lba off) := by
  have hset (fd : Fin maxOpen) : Within Reads (setFile fd ⟨true, false, size, cluster, cluster, 0, 0, lba, off⟩) :=
    within_modify fun f => Reads.setFile f fd nofun
  grind [allocFile]

@[grind .] lemma within_openRead (path : Bytes) : Within Reads (openRead path) := by
  grind [openRead, reads_driver.resolve path]

lemma allocFile_readOnly {f f' : Fat} {size cluster lba off : Nat} {fd : Fin maxOpen}
    (h : allocFile false size cluster lba off f = .ok (some fd, f')) :
    (f'.openFiles fd).writable = false := by
  unfold allocFile at h
  obtain ⟨g, _, hget, h⟩ := bind_ok h
  cases hfree : g.freeFile with
  | none =>
    rw [hfree] at h
    cases h
  | some i =>
    rw [hfree] at h
    cases h
    simp

lemma openRead_readOnly {f f' : Fat} {path : Bytes} {fd : Fin maxOpen}
    (h : openRead path f = .ok (some fd, f')) : (f'.openFiles fd).writable = false := by
  unfold openRead at h
  obtain ⟨g, _, -, h⟩ := bind_ok h
  split at h
  · cases h
  · obtain ⟨r, _, -, h⟩ := bind_ok h
    cases r with
    | none => cases h
    | some info =>
      dsimp only at h
      split at h
      · cases h
      · exact allocFile_readOnly h

lemma within_modifyFile (fd : Fin maxOpen) {g : OpenFile → OpenFile}
    (hg : ∀ file, (g file).writable = file.writable) : Within Reads (modifyFile fd g) :=
  within_modify fun f => Reads.setFile f fd fun h => hg (f.openFiles fd) ▸ h

lemma within_readLoop (fd : Fin maxOpen) (fuel want : Nat) : Within Reads (readLoop fd fuel want) := by
  induction fuel generalizing want with
  | zero => exact within_pure _
  | succ fuel ih =>
    unfold readLoop
    refine within_bind within_get fun f => within_ite (within_pure _) (within_ite (within_pure _) ?_)
    refine within_bind (reads_driver.csec _) fun sec => within_bind (within_modifyFile fd fun _ => rfl) fun _ =>
      within_ite ?_ (by grind)
    exact within_bind (reads_driver.fatGet _) fun _ =>
      within_bind (within_modifyFile fd fun _ => rfl) fun _ => by grind

@[grind .] lemma within_read (fd len : Nat) : Within Reads (Fat.read fd len) := by
  grind [Fat.read, within_readLoop]

@[grind .] lemma within_readdir (path : Bytes) (max : Nat) : Within Reads (readdir path max) := by
  grind [readdir, reads_driver.scanDir, reads_driver.resolve]

lemma close_reads {f : Fat} {fd : Nat}
    (h : ∀ i, f.file fd = some i → (f.openFiles i).writable = false) :
    Relation.ReflTransGen Reads f (after (close fd) f) := by
  unfold close
  refine within_get_at ?_
  cases hfd : f.file fd with
  | none => exact .refl
  | some i =>
    refine within_get_at ?_
    rw [if_neg (by simp [h i hfd])]
    exact within_modify (fun f => Reads.setFile f i fun h => absurd h (by decide)) f

@[grind .] lemma within_readFileAlloc (path : Bytes) (allocOk : Bool) : Within Reads (readFileAlloc path allocOk) := by
  intro f
  unfold readFileAlloc
  refine within_get_at ?_
  split
  · exact .refl
  refine within_bind_at (within_openRead path f) fun r f₁ hopen => ?_
  cases r with
  | none => exact .refl
  | some fd =>
    have hro := openRead_readOnly hopen
    have hclose {g : Fat} (h : (g.openFiles fd).writable = false) :
        Relation.ReflTransGen Reads g (after (close fd.val) g) := by
      refine close_reads fun i hi => ?_
      obtain rfl : fd = i := by
        unfold Fat.file at hi
        split_ifs at hi
        exact Option.some.inj hi
      exact h
    refine within_get_at ?_
    dsimp only
    split
    · exact within_bind_at (hclose hro) fun _ _ _ => .refl
    refine within_bind_at (within_read _ _ f₁) fun data f₂ hread => ?_
    have hreads : Reads f₁ f₂ := .of_steps (after_ok hread ▸ within_read _ _ f₁)
    have hro₂ : (f₂.openFiles fd).writable = false := by
      by_contra hw
      simp [hreads.writable fd (by simpa using hw)] at hro
    exact within_bind_at (hclose hro₂) fun _ _ _ => .refl

lemma within_seekLoop (fuel target c i : Nat) : Within Reads (seekLoop fuel target c i) := by
  induction fuel generalizing c i with
  | zero => exact within_pure _
  | succ fuel ih => exact within_ite (within_bind (reads_driver.fatGet c) fun _ => ih _ _) (within_pure _)

lemma within_seek (fd offset : Nat) : Within Reads (seek fd offset) := by
  refine within_bind within_get fun f => ?_
  cases f.file fd with
  | none => exact within_pure _
  | some i =>
    refine within_bind within_get fun f => within_ite (within_pure _) (within_ite ?_ ?_) <;>
      exact within_bind (within_seekLoop _ _ _ _) fun _ => within_bind (within_modifyFile i fun _ => rfl) fun _ => within_pure _

lemma write_reads {f : Fat} (h : ∀ fd, (f.openFiles fd).writable = false) (fd : Nat) (buf : Bytes) :
    Relation.ReflTransGen Reads f (after (Fat.write fd buf) f) := by
  unfold Fat.write
  refine within_get_at ?_
  cases f.file fd with
  | none => exact .refl
  | some i =>
    refine within_get_at ?_
    rw [h i]
    exact .refl

/-- The calls that neither mount the volume, nor open a file for writing, nor change a directory. -/
def FatOp.reading : FatOp → Bool
  | .init _ | .openWrite _ | .create _ | .unlink _ | .rename _ _ => false
  | _ => true

lemma reads_perform {f : Fat} (h : ∀ fd, (f.openFiles fd).writable = false) {op : FatOp} (hop : FatOp.reading op) :
    Reads f (f.perform op) := by
  refine .of_steps ?_
  cases op with
  | openRead path => exact within_openRead path f
  | read fd len => exact within_read fd len f
  | write fd buf => exact write_reads h fd buf
  | close fd => exact close_reads fun i _ => h i
  | seek fd offset => exact within_seek fd offset f
  | readdir path max => exact within_readdir path max f
  | readFileAlloc path allocOk => exact within_readFileAlloc path allocOk f
  | _ => cases hop

/-- As long as no file is opened for writing, the disk stays as it is, whatever is read or written. -/
theorem reading_keeps_disk (f : Fat) (ops : List { op : FatOp // FatOp.reading op }) :
    (run (fun f op => Fat.perform f op.val) { f with openFiles := fun _ => .empty } ops).disk = f.disk := by
  refine (run_preserves (P := Reads { f with openFiles := fun _ => .empty }) (fun g op hg => ?_) (.refl _) ops).disk
  refine hg.trans (reads_perform (fun fd => ?_) op.property)
  exact Bool.eq_false_iff.mpr fun hw => nomatch hg.writable fd hw

end Aeglos.Proofs
