import Aeglos.Library.Slices
import Aeglos.Proofs.FatSteps

/-!
# When the search for a name comes to an end

A scan of a directory follows the chain of its clusters and parses the entries on the way.
-/

namespace Aeglos.Fat

open Effects Slices List Function

/-- A sector as it is read: from the cache, from the device, or, where the device has no such sector, what
is left in the slot of the cache. -/
def sectorAt (f : Fat) (lba : Nat) : Sector :=
  if f.ctag (slotOf lba) = lba then f.cdata (slotOf lba)
  else if lba < f.capacity then f.disk lba
  else f.cdata (slotOf lba)

def load (f : Fat) (lba : Nat) : Fat :=
  { f with
    ctag := Function.update f.ctag (slotOf lba) lba
    cdata := Function.update f.cdata (slotOf lba) (sectorAt f lba) }

lemma load_of_hit {f : Fat} {lba : Nat} (h : f.ctag (slotOf lba) = lba) : load f lba = f := by
  have htag : Function.update f.ctag (slotOf lba) lba = f.ctag := update_eq_self_iff.mpr h.symm
  have hdata : Function.update f.cdata (slotOf lba) (sectorAt f lba) = f.cdata :=
    update_eq_self_iff.mpr (if_pos h)
  rw [load, htag, hdata]

lemma load_cdata (f : Fat) (lba : Nat) : (load f lba).cdata (slotOf lba) = sectorAt f lba := update_self ..

lemma readBlock_eq {f : Fat} (hpresent : f.present = true) {lba : Nat} (htag : f.ctag (slotOf lba) ≠ lba) :
    readBlock lba f = .ok ((), { f with cdata := Function.update f.cdata (slotOf lba) (sectorAt f lba) }) := by
  have hthere : ¬(!f.present) = true := by
    rw [hpresent]
    exact Bool.false_ne_true
  change (if !f.present then _ else _ : FatM Unit) f = _
  rw [if_neg hthere, sectorAt, if_neg htag]
  change Except.ok ((), if lba < f.capacity then _ else f) = _
  split_ifs with hlt
  · rfl
  · rw [update_eq_self]

lemma csec_eq {f : Fat} (hpresent : f.present = true) (lba : Nat) : csec lba f = .ok (sectorAt f lba, load f lba) := by
  change (if f.ctag (slotOf lba) ≠ lba then _ else _ : FatM Sector) f = _
  by_cases htag : f.ctag (slotOf lba) = lba
  · rw [load_of_hit htag, sectorAt, if_pos htag, if_neg (not_not.mpr htag)]
    rfl
  · rw [if_pos htag, bind_of_ok (readBlock_eq hpresent htag)]
    change Except.ok ((load f lba).cdata (slotOf lba), load f lba) = _
    rw [load_cdata]

def nextCluster (f : Fat) (c : Nat) : Nat := (sectorAt f (f.fatEntry c).1).u32at (f.fatEntry c).2 &&& fatMask

def loadEntry (f : Fat) (c : Nat) : Fat := load f (f.fatEntry c).1

lemma fatGet_eq {f : Fat} (hpresent : f.present = true) (c : Nat) : fatGet c f = .ok (nextCluster f c, loadEntry f c) := by
  change (csec (f.fatEntry c).1 >>= fun sec => pure (sec.u32at (f.fatEntry c).2 &&& fatMask) : FatM Nat) f = _
  rw [bind_of_ok (csec_eq hpresent _)]
  rfl

def readAll : List Nat → Fat → List (Nat × Sector) × Fat
  | [], f => ([], f)
  | lba :: rest, f => ((lba, sectorAt f lba) :: (readAll rest (load f lba)).1, (readAll rest (load f lba)).2)

def ChainEnd (c : Nat) : Prop := c < 2 ∨ isEoc c = true

instance (c : Nat) : Decidable (ChainEnd c) := inferInstanceAs (Decidable (_ ∨ _))

def clusterSectors (f : Fat) (c : Nat) : List Nat := (List.range f.secsPerCluster).map (f.sectorLba c)

/-- The sectors of the first `n` clusters of a chain, the cluster after them, and the state in which they
have been read; nothing if the chain is shorter. -/
def chainRead : Nat → Nat → Fat → Option (List (Nat × Sector) × Nat × Fat)
  | 0, c, f => some ([], c, f)
  | n + 1, c, f =>
    if ChainEnd c then none
    else
      let (sectors, f) := readAll (clusterSectors f c) f
      (chainRead n (nextCluster f c) (loadEntry f c)).map fun r => (sectors ++ r.1, r.2)

def CacheOnly (f g : Fat) : Prop := g = { f with ctag := g.ctag, cdata := g.cdata }

lemma CacheOnly.refl (f : Fat) : CacheOnly f f := rfl

lemma CacheOnly.trans {f g h : Fat} (h₁ : CacheOnly f g) (h₂ : CacheOnly g h) : CacheOnly f h := by
  unfold CacheOnly at h₁ h₂ ⊢
  rw [h₁] at h₂
  exact h₂

lemma CacheOnly.of_steps {f g : Fat} (h : Relation.ReflTransGen CacheOnly f g) : CacheOnly f g := by
  induction h with
  | refl => exact .refl f
  | tail _ hstep ih => exact ih.trans hstep

lemma CacheOnly.of_ok {α : Type} {x : FatM α} (hx : Within CacheOnly x) {f g : Fat} {a : α} (h : x f = .ok (a, g)) :
    CacheOnly f g := by
  have hsteps := hx f
  rw [after_ok h] at hsteps
  exact .of_steps hsteps

lemma cacheOnly_readBlock (lba : Nat) : Within CacheOnly (readBlock lba) := by
  unfold readBlock
  refine within_bind within_get fun f => within_ite (within_bind within_stop fun _ => ?_) ?_ <;>
    exact within_modify fun f => by split <;> rfl

lemma cacheOnly_csec (lba : Nat) : Within CacheOnly (csec lba) := by
  unfold csec
  refine within_bind within_get fun f => within_ite ?_ (within_bind within_get fun _ => within_pure _)
  refine within_bind (cacheOnly_readBlock lba) fun _ => within_bind ?_ fun _ =>
    within_bind within_get fun _ => within_pure _
  exact within_modify fun _ => rfl

lemma cacheOnly_reads : Reads CacheOnly := ⟨cacheOnly_csec⟩

section Parsing

variable {α : Type} (cb : α → DirInfo → α × Bool)

def parseSector (sec : Sector) (lba : Nat) : List Nat → Lfn → α → Option (Scan α)
  | [], lfn, acc => some (.more lfn acc)
  | off :: offs, lfn, acc =>
    match entryStep sec lba off lfn with
    | .finished => some (.finished acc)
    | .skip lfn => parseSector sec lba offs lfn acc
    | .panic => none
    | .entry info =>
      if (cb acc info).2 then some (.finished (cb acc info).1)
      else parseSector sec lba offs { lfn with active := false, len := 0 } (cb acc info).1

def Scan.andThen (next : Lfn → α → Option (Scan α)) : Scan α → Option (Scan α)
  | .more lfn acc => next lfn acc
  | .finished acc => some (.finished acc)

def parseSectors : List (Nat × Sector) → Lfn → α → Option (Scan α)
  | [], lfn, acc => some (.more lfn acc)
  | (lba, sec) :: rest, lfn, acc => (parseSector cb sec lba entryOffsets lfn acc).bind (Scan.andThen (parseSectors rest))

lemma parseSectors_append (as bs : List (Nat × Sector)) (lfn : Lfn) (acc : α) :
    parseSectors cb (as ++ bs) lfn acc = (parseSectors cb as lfn acc).bind (Scan.andThen (parseSectors cb bs)) := by
  induction as generalizing lfn acc with
  | nil => rfl
  | cons a as ih =>
    rw [cons_append, parseSectors, parseSectors]
    cases parseSector cb a.2 a.1 entryOffsets lfn acc with
    | none => rfl
    | some r =>
      cases r with
      | more lfn acc => exact ih lfn acc
      | finished acc => rfl

lemma scanSector_eq (sec : Sector) (lba : Nat) (offs : List Nat) (lfn : Lfn) (acc : α) :
    scanSector cb sec lba offs lfn acc = orStop (parseSector cb sec lba offs lfn acc) := by
  induction offs generalizing lfn acc with
  | nil => rfl
  | cons off offs ih =>
    rw [scanSector, parseSector]
    cases entryStep sec lba off lfn with
    | finished => rfl
    | skip lfn => exact ih lfn acc
    | panic => rfl
    | entry info =>
      dsimp only
      split_ifs
      · rfl
      · exact ih _ _

def ScanMatches (r : Except Fat (Scan α × Fat)) (f : Fat) : Option (Scan α) → Prop
  | none => ∃ g, r = .error g
  | some (.finished acc) => ∃ g, r = .ok (.finished acc, g) ∧ g.present = true
  | some (.more lfn acc) => r = .ok (.more lfn acc, f)

def scanOn (c : Nat) (ss : List Nat) : Scan α → FatM (Scan α)
  | .finished acc => return .finished acc
  | .more lfn acc => scanSectors cb c ss lfn acc

lemma scanSectors_cons (f : Fat) (c s : Nat) (ss : List Nat) (lfn : Lfn) (acc : α) :
    scanSectors cb c (s :: ss) lfn acc f = (csec (f.sectorLba c s) >>= fun sec =>
      scanSector cb sec (f.sectorLba c s) entryOffsets lfn acc >>= scanOn cb c ss : FatM (Scan α)) f := rfl

lemma scanSectors_matches {f : Fat} (hpresent : f.present = true) (c : Nat) (ss : List Nat) (lfn : Lfn) (acc : α) :
    ScanMatches (scanSectors cb c ss lfn acc f) (readAll (ss.map (f.sectorLba c)) f).2
      (parseSectors cb (readAll (ss.map (f.sectorLba c)) f).1 lfn acc) := by
  induction ss generalizing f lfn acc with
  | nil => rfl
  | cons s ss ih =>
    have hcsec := csec_eq hpresent (f.sectorLba c s)
    have hrest := fun lfn acc => ih (f := load f (f.sectorLba c s)) hpresent lfn acc
    rw [scanSectors_cons, bind_of_ok hcsec, scanSector_eq, map_cons, readAll, parseSectors]
    cases parseSector cb (sectorAt f (f.sectorLba c s)) (f.sectorLba c s) entryOffsets lfn acc with
    | none => exact ⟨_, rfl⟩
    | some r =>
      cases r with
      | finished acc => exact ⟨_, rfl, hpresent⟩
      | more lfn acc => exact hrest lfn acc

end Parsing

section Termination

variable {α : Type} (cb : α → DirInfo → α × Bool)

def Ends (last : Nat) : Option (Scan α) → Prop
  | none => False
  | some (.finished _) => True
  | some (.more _ _) => ChainEnd last

/-- After `n` clusters, the directory comes to an end, without an entry on the way whose long name does not
fit. -/
def OrderlyIn (n c : Nat) (lfn : Lfn) (acc : α) (f : Fat) : Prop :=
  ∃ sectors last g, chainRead n c f = some (sectors, last, g) ∧ Ends last (parseSectors cb sectors lfn acc)

def Orderly (c : Nat) (lfn : Lfn) (acc : α) (f : Fat) : Prop := ∃ n, OrderlyIn cb n c lfn acc f

def RestIn (n c : Nat) (f : Fat) : Option (Scan α) → Prop
  | none => False
  | some (.finished _) => True
  | some (.more lfn acc) => OrderlyIn cb n (nextCluster f c) lfn acc (loadEntry f c)

variable {cb} {c : Nat} {lfn : Lfn} {acc : α} {f : Fat}

lemma orderlyIn_zero : OrderlyIn cb 0 c lfn acc f ↔ ChainEnd c := by
  constructor
  · rintro ⟨sectors, last, g, hread, hends⟩
    obtain ⟨rfl, rfl, -⟩ : [] = sectors ∧ c = last ∧ f = g := by
      simpa only [Prod.mk.injEq] using Option.some.inj hread
    exact hends
  · exact fun hend => ⟨[], c, f, rfl, hend⟩

lemma OrderlyIn.rest {n : Nat} (h : OrderlyIn cb (n + 1) c lfn acc f) : ¬ChainEnd c ∧
    RestIn cb n c (readAll (clusterSectors f c) f).2 (parseSectors cb (readAll (clusterSectors f c) f).1 lfn acc) := by
  obtain ⟨sectors, last, g, hread, hends⟩ := h
  have hend : ¬ChainEnd c := by
    intro hend
    rw [chainRead, if_pos hend] at hread
    cases hread
  refine ⟨hend, ?_⟩
  rw [chainRead, if_neg hend] at hread
  obtain ⟨⟨rest, last', g'⟩, hrest, heq⟩ := Option.map_eq_some_iff.mp hread
  obtain ⟨rfl, rfl, rfl⟩ : (readAll (clusterSectors f c) f).1 ++ rest = sectors ∧ last' = last ∧ g' = g := by
    simpa only [Prod.mk.injEq] using heq
  rw [parseSectors_append] at hends
  cases hparse : parseSectors cb (readAll (clusterSectors f c) f).1 lfn acc with
  | none =>
    rw [hparse] at hends
    exact hends
  | some r =>
    rw [hparse] at hends
    cases r with
    | finished acc => trivial
    | more lfn acc => exact ⟨rest, last', g', hrest, hends⟩

lemma chainRead_succ {n : Nat} {rest : List (Nat × Sector)} {last : Nat} {g : Fat} (hend : ¬ChainEnd c)
    (h : chainRead n (nextCluster (readAll (clusterSectors f c) f).2 c)
      (loadEntry (readAll (clusterSectors f c) f).2 c) = some (rest, last, g)) :
    chainRead (n + 1) c f = some ((readAll (clusterSectors f c) f).1 ++ rest, last, g) := by
  rw [chainRead, if_neg hend]
  exact Option.map_eq_some_iff.mpr ⟨_, h, rfl⟩

lemma orderly_of_finished {acc' : α} (hend : ¬ChainEnd c)
    (h : parseSectors cb (readAll (clusterSectors f c) f).1 lfn acc = some (.finished acc')) : Orderly cb c lfn acc f := by
  refine ⟨1, _, _, _, chainRead_succ hend rfl, ?_⟩
  rw [append_nil, h]
  trivial

lemma orderly_of_more {lfn' : Lfn} {acc' : α} (hend : ¬ChainEnd c)
    (h : parseSectors cb (readAll (clusterSectors f c) f).1 lfn acc = some (.more lfn' acc'))
    (hrest : Orderly cb (nextCluster (readAll (clusterSectors f c) f).2 c) lfn' acc'
      (loadEntry (readAll (clusterSectors f c) f).2 c)) : Orderly cb c lfn acc f := by
  obtain ⟨n, rest, last, g, hread, hends⟩ := hrest
  refine ⟨n + 1, _, _, _, chainRead_succ hend hread, ?_⟩
  rw [parseSectors_append, h]
  exact hends

variable (cb)

def scanRest (fuel c : Nat) : Scan α → FatM α
  | .finished acc => return acc
  | .more lfn acc => fatGet c >>= fun next => scanClusters cb fuel next lfn acc

lemma scanClusters_end (hend : ChainEnd c) (fuel : Nat) : scanClusters cb (fuel + 1) c lfn acc f = .ok (acc, f) := by
  rw [ChainEnd] at hend
  rw [scanClusters, if_pos hend]
  rfl

lemma scanClusters_inner (hend : ¬ChainEnd c) (fuel : Nat) : scanClusters cb (fuel + 1) c lfn acc f =
    (scanSectors cb c (List.range f.secsPerCluster) lfn acc >>= scanRest cb fuel c : FatM α) f := by
  rw [ChainEnd] at hend
  rw [scanClusters, if_neg hend]
  rfl

lemma returns_scanClusters_end (hend : ChainEnd c) (fuel : Nat) : Returns (scanClusters cb (fuel + 1) c lfn acc) f :=
  (outcome_of_ok (scanClusters_end cb hend fuel)).mpr trivial

lemma returns_scanClusters_inner (hend : ¬ChainEnd c) (fuel : Nat) : Returns (scanClusters cb (fuel + 1) c lfn acc) f ↔
    Returns (scanSectors cb c (List.range f.secsPerCluster) lfn acc >>= scanRest cb fuel c) f := by
  unfold Returns Outcome
  rw [scanClusters_inner cb hend]

lemma readAll_present (lbas : List Nat) (f : Fat) : (readAll lbas f).2.present = f.present := by
  induction lbas generalizing f with
  | nil => rfl
  | cons lba rest ih => exact ih (load f lba)

variable {cb}

lemma Orderly.of_returns {fuel : Nat} (hpresent : f.present = true) (h : Returns (scanClusters cb fuel c lfn acc) f) :
    Orderly cb c lfn acc f := by
  induction fuel generalizing c lfn acc f with
  | zero => exact h.elim
  | succ fuel ih =>
    by_cases hend : ChainEnd c
    · exact ⟨0, orderlyIn_zero.mpr hend⟩
    rw [returns_scanClusters_inner cb hend] at h
    have hscan := scanSectors_matches cb hpresent c (List.range f.secsPerCluster) lfn acc
    have hthere := (readAll_present (clusterSectors f c) f).trans hpresent
    cases hparse : parseSectors cb (readAll (clusterSectors f c) f).1 lfn acc with
    | none =>
      rw [clusterSectors] at hparse
      rw [hparse] at hscan
      obtain ⟨g, herror⟩ := hscan
      exact (not_returns_bind_of_error herror h).elim
    | some r =>
      cases r with
      | finished acc' => exact orderly_of_finished hend hparse
      | more lfn' acc' =>
        refine orderly_of_more hend hparse (ih hthere ?_)
        rw [clusterSectors] at hparse
        rw [hparse] at hscan
        have hrest := (returns_bind_of_ok hscan).mp h
        exact (returns_bind_of_ok (fatGet_eq hthere c)).mp hrest

lemma OrderlyIn.returns {n : Nat} (hpresent : f.present = true) (h : OrderlyIn cb n c lfn acc f) :
    Returns (scanClusters cb (n + 1) c lfn acc) f := by
  induction n generalizing c lfn acc f with
  | zero => exact returns_scanClusters_end cb (orderlyIn_zero.mp h) 0
  | succ n ih =>
    obtain ⟨hend, hrest⟩ := h.rest
    rw [returns_scanClusters_inner cb hend]
    have hscan := scanSectors_matches cb hpresent c (List.range f.secsPerCluster) lfn acc
    have hthere := (readAll_present (clusterSectors f c) f).trans hpresent
    rw [clusterSectors] at hrest hthere
    cases hparse : parseSectors cb (readAll ((List.range f.secsPerCluster).map (f.sectorLba c)) f).1 lfn acc with
    | none =>
      rw [hparse] at hrest
      exact hrest.elim
    | some r =>
      rw [hparse] at hrest hscan
      cases r with
      | finished acc' =>
        obtain ⟨g, hok, -⟩ := hscan
        exact (returns_bind_of_ok hok).mpr trivial
      | more lfn' acc' =>
        exact (returns_bind_of_ok hscan).mpr ((returns_bind_of_ok (fatGet_eq hthere c)).mpr (ih hthere hrest))

lemma returns_scanClusters_iff (hpresent : f.present = true) :
    (∃ fuel, Returns (scanClusters cb fuel c lfn acc) f) ↔ Orderly cb c lfn acc f :=
  ⟨fun ⟨_, h⟩ => .of_returns hpresent h, fun ⟨n, h⟩ => ⟨n + 1, h.returns hpresent⟩⟩

lemma steady_scanClusters : Steady fun fuel => scanClusters cb fuel c lfn acc := by
  intro fuel
  induction fuel generalizing c lfn acc with
  | zero => exact fun _ _ _ _ h => nomatch h
  | succ fuel ih =>
    intro fuel' f r hle h
    obtain ⟨fuel', rfl⟩ : ∃ k, fuel' = k + 1 := ⟨fuel' - 1, by omega⟩
    beta_reduce at h ⊢
    by_cases hend : ChainEnd c
    · rw [scanClusters_end cb hend] at h ⊢
      exact h
    rw [scanClusters_inner cb hend] at h ⊢
    obtain ⟨scan, g, hscan, hrest⟩ := bind_ok h
    rw [bind_of_ok hscan]
    cases scan with
    | finished acc' => exact hrest
    | more lfn' acc' =>
      obtain ⟨next, g', hnext, hrest⟩ := bind_ok hrest
      exact (bind_of_ok hnext).trans (ih (by omega) hrest)

end Termination

section Paths

def matching (component : Bytes) (found : Option DirInfo) (info : DirInfo) : Option DirInfo × Bool :=
  if nameEq info.name component then (some info, true) else (found, false)

def lookupWithin (fuel dirCluster : Nat) (component : Bytes) : FatM (Option DirInfo) :=
  scanClusters (matching component) fuel dirCluster .empty none

def resolvePartsWithin (fuel : Nat) : List Bytes → Nat → Option DirInfo → FatM (Option DirInfo)
  | [], _, result => return result
  | part :: parts, dirCluster, _ => do
    match ← lookupWithin fuel dirCluster part with
    | none => return none
    | some info => resolvePartsWithin fuel parts (if info.isDir then info.cluster else dirCluster) (some info)

def resolveWithin (fuel : Nat) (path : Bytes) : FatM (Option DirInfo) := do
  let root := (← get).rootCluster
  if pathParts path = [] then return some ⟨[], attrDirectory, root, 0, 0, 0⟩
  resolvePartsWithin fuel (pathParts path) root none

def openWithin (fuel : Nat) (path : Bytes) : FatM (Option (Fin maxOpen)) := do
  if !(← get).ready then return none
  match ← resolveWithin fuel path with
  | none => return none
  | some info => if info.isDir then return none else allocFile false info.size info.cluster info.lba info.off

def collect (max : Nat) (entries : List DirInfo) (info : DirInfo) : List DirInfo × Bool :=
  if entries.length ≥ max then (entries, true) else (entries ++ [info], false)

def readdirWithin (fuel : Nat) (path : Bytes) (max : Nat) : FatM (List DirInfo) := do
  if !(← get).ready then return []
  if path = [47] ∨ path = [] then scanClusters (collect max) fuel (← get).rootCluster .empty []
  else match ← resolveWithin fuel path with
    | some info => if info.isDir then scanClusters (collect max) fuel info.cluster .empty [] else return []
    | none => return []

lemma resolveParts_eq (parts : List Bytes) (c : Nat) (result : Option DirInfo) :
    resolveParts parts c result = resolvePartsWithin chainLimit parts c result := by
  induction parts generalizing c result with
  | nil => rfl
  | cons part parts ih =>
    rw [resolveParts, resolvePartsWithin]
    refine bind_congr fun found => ?_
    cases found with
    | none => rfl
    | some info => exact ih _ _

lemma resolve_eq (path : Bytes) : resolve path = resolveWithin chainLimit path := by
  unfold resolve resolveWithin
  simp only [resolveParts_eq]

lemma openRead_eq (path : Bytes) : openRead path = openWithin chainLimit path := by
  unfold openRead openWithin
  have hresolve := resolve_eq path
  generalize resolve path = resolved at hresolve ⊢
  subst hresolve
  rfl

lemma readdir_eq (path : Bytes) (max : Nat) : readdir path max = readdirWithin chainLimit path max := by
  unfold readdir readdirWithin
  have hresolve := resolve_eq path
  generalize resolve path = resolved at hresolve ⊢
  subst hresolve
  rfl

def PartsOrderly : List Bytes → Nat → Fat → Prop
  | [], _, _ => True
  | part :: parts, c, f =>
    Orderly (matching part) c .empty none f ∧
      ∀ fuel info g, lookupWithin fuel c part f = .ok (some info, g) →
        PartsOrderly parts (if info.isDir then info.cluster else c) g

def PathOrderly (path : Bytes) (f : Fat) : Prop := PartsOrderly (pathParts path) f.rootCluster f

def ListingOrderly (path : Bytes) (max : Nat) (f : Fat) : Prop :=
  if path = [47] ∨ path = [] then Orderly (collect max) f.rootCluster .empty [] f
  else PathOrderly path f ∧ ∀ fuel info g, resolveWithin fuel path f = .ok (some info, g) → info.isDir →
    Orderly (collect max) info.cluster .empty [] g

variable {f : Fat}

lemma CacheOnly.present {g : Fat} (h : CacheOnly f g) (hpresent : f.present = true) : g.present = true := by
  rw [h]
  exact hpresent

lemma returns_lookupWithin_iff {c : Nat} {part : Bytes} (hpresent : f.present = true) :
    (∃ fuel, Returns (lookupWithin fuel c part) f) ↔ Orderly (matching part) c .empty none f :=
  returns_scanClusters_iff hpresent

def resolveOn (fuel : Nat) (parts : List Bytes) (c : Nat) : Option DirInfo → FatM (Option DirInfo)
  | none => return none
  | some info => resolvePartsWithin fuel parts (if info.isDir then info.cluster else c) (some info)

lemma resolvePartsWithin_cons (fuel : Nat) (part : Bytes) (parts : List Bytes) (c : Nat) (result : Option DirInfo) :
    resolvePartsWithin fuel (part :: parts) c result = lookupWithin fuel c part >>= resolveOn fuel parts c := by
  rw [resolvePartsWithin]
  refine bind_congr fun found => ?_
  cases found with
  | none => rfl
  | some info => rfl

lemma steady_resolvePartsWithin (parts : List Bytes) (c : Nat) (result : Option DirInfo) :
    Steady fun fuel => resolvePartsWithin fuel parts c result := by
  induction parts generalizing c result with
  | nil => exact steady_const _
  | cons part parts ih =>
    simp only [resolvePartsWithin_cons]
    refine steady_bind (x := fun fuel => lookupWithin fuel c part) steady_scanClusters fun found => ?_
    cases found with
    | none => exact steady_const _
    | some info => exact ih _ _

lemma returns_resolvePartsWithin_iff (hpresent : f.present = true) (parts : List Bytes) (c : Nat)
    (result : Option DirInfo) :
    (∃ fuel, Returns (resolvePartsWithin fuel parts c result) f) ↔ PartsOrderly parts c f := by
  induction parts generalizing c result f with
  | nil => exact iff_of_true ⟨0, trivial⟩ trivial
  | cons part parts ih =>
    have hnext : ∀ {fuel info g}, lookupWithin fuel c part f = .ok (some info, g) → g.present = true := fun h =>
      (CacheOnly.of_ok (cacheOnly_reads.scanClusters _ _ _ _ _) h).present hpresent
    have hsteady : ∀ found, Steady fun fuel => resolveOn fuel parts c found := by
      rintro (_ | info)
      · exact steady_const _
      · exact steady_resolvePartsWithin _ _ _
    simp only [resolvePartsWithin_cons]
    refine (ends_bind_iff (x := fun fuel => lookupWithin fuel c part) steady_scanClusters hsteady).trans
      (and_congr (returns_lookupWithin_iff hpresent) ?_)
    constructor
    · exact fun h fuel info g hinfo => (ih (hnext hinfo) _ _).mp (h fuel _ g hinfo)
    · rintro h fuel (_ | info) g hfound
      · exact ⟨0, trivial⟩
      · exact (ih (hnext hfound) _ _).mpr (h fuel info g hfound)

lemma returns_resolveWithin_iff (hpresent : f.present = true) (path : Bytes) :
    (∃ fuel, Returns (resolveWithin fuel path) f) ↔ PathOrderly path f := by
  have hunfold : ∀ fuel, Returns (resolveWithin fuel path) f ↔ pathParts path = [] ∨
      Returns (resolvePartsWithin fuel (pathParts path) f.rootCluster none) f := by
    intro fuel
    unfold Returns resolveWithin
    rw [outcome_bind, outcome_get, outcome_ite]
    by_cases hparts : pathParts path = []
    · exact iff_of_true ⟨fun _ => trivial, fun h => absurd hparts h⟩ (Or.inl hparts)
    · rw [or_iff_right hparts]
      exact ⟨fun h => h.2 hparts, fun h => ⟨fun h' => absurd h' hparts, fun _ => h⟩⟩
  simp only [hunfold, exists_or, returns_resolvePartsWithin_iff hpresent]
  rw [PathOrderly]
  refine ⟨fun h => h.elim (fun ⟨_, hparts⟩ => ?_) id, Or.inr⟩
  rw [hparts]
  trivial

lemma returns_allocFile (writable : Bool) (size cluster dirLba dirOff : Nat) :
    Returns (allocFile writable size cluster dirLba dirOff) f := by
  unfold Returns allocFile
  rw [outcome_bind, outcome_get]
  cases f.freeFile with
  | none => trivial
  | some fd => trivial

def openFound : Option DirInfo → FatM (Option (Fin maxOpen))
  | none => return none
  | some info => if info.isDir then return none else allocFile false info.size info.cluster info.lba info.off

lemma returns_openFound (found : Option DirInfo) : Returns (openFound found) f := by
  cases found with
  | none => trivial
  | some info =>
    rw [openFound]
    split_ifs
    · trivial
    · exact returns_allocFile _ _ _ _ _

lemma returns_openWithin_iff (hready : f.ready = true) (fuel : Nat) (path : Bytes) :
    Returns (openWithin fuel path) f ↔ Returns (resolveWithin fuel path) f := by
  have hopen : openWithin fuel path f = (resolveWithin fuel path >>= openFound : FatM _) f := by
    have hthere : ¬(!f.ready) = true := by
      rw [hready]
      exact Bool.false_ne_true
    change (if !f.ready then _ else _ : FatM (Option (Fin maxOpen))) f = _
    rw [if_neg hthere]
    rfl
  rw [← returns_bind_iff fun found _ => returns_openFound found, Returns, Returns, Outcome, Outcome, hopen]

def listFound (fuel max : Nat) : Option DirInfo → FatM (List DirInfo)
  | none => return []
  | some info => if info.isDir then scanClusters (collect max) fuel info.cluster .empty [] else return []

lemma readdirWithin_of_root (hready : f.ready = true) {path : Bytes} (hroot : path = [47] ∨ path = []) (fuel max : Nat) :
    readdirWithin fuel path max f = scanClusters (collect max) fuel f.rootCluster .empty [] f := by
  have hthere : ¬(!f.ready) = true := by
    rw [hready]
    exact Bool.false_ne_true
  change (if !f.ready then _ else _ : FatM (List DirInfo)) f = _
  rw [if_neg hthere, if_pos hroot]
  rfl

lemma readdirWithin_of_path (hready : f.ready = true) {path : Bytes} (hroot : ¬(path = [47] ∨ path = []))
    (fuel max : Nat) : readdirWithin fuel path max f = (resolveWithin fuel path >>= listFound fuel max : FatM _) f := by
  have hthere : ¬(!f.ready) = true := by
    rw [hready]
    exact Bool.false_ne_true
  change (if !f.ready then _ else _ : FatM (List DirInfo)) f = _
  rw [if_neg hthere, if_neg hroot]
  refine congrFun (bind_congr fun found => ?_) f
  cases found with
  | none => rfl
  | some info => rfl

lemma steady_resolveWithin (path : Bytes) : Steady fun fuel => resolveWithin fuel path := by
  refine steady_bind (x := fun _ => get) (steady_const _) fun f => ?_
  by_cases hparts : pathParts path = []
  · simp only [hparts, if_true]
    exact steady_const _
  · simp only [hparts, if_false]
    exact steady_resolvePartsWithin _ _ _

lemma cacheOnly_resolvePartsWithin (fuel : Nat) (parts : List Bytes) (c : Nat) (result : Option DirInfo) :
    Within CacheOnly (resolvePartsWithin fuel parts c result) := by
  induction parts generalizing c result with
  | nil => exact within_pure _
  | cons part parts ih =>
    rw [resolvePartsWithin_cons]
    refine within_bind (cacheOnly_reads.scanClusters _ _ _ _ _) fun found => ?_
    cases found with
    | none => exact within_pure _
    | some info => exact ih _ _

lemma cacheOnly_resolveWithin (fuel : Nat) (path : Bytes) : Within CacheOnly (resolveWithin fuel path) :=
  within_bind within_get fun _ => within_ite (within_pure _) (cacheOnly_resolvePartsWithin _ _ _ _)

lemma returns_readdirWithin_iff (hpresent : f.present = true) (hready : f.ready = true) (path : Bytes) (max : Nat) :
    (∃ fuel, Returns (readdirWithin fuel path max) f) ↔ ListingOrderly path max f := by
  unfold ListingOrderly
  split_ifs with hroot
  · rw [← returns_scanClusters_iff hpresent]
    refine exists_congr fun fuel => ?_
    rw [Returns, Returns, Outcome, Outcome, readdirWithin_of_root hready hroot]
  have hunfold : ∀ fuel, Returns (readdirWithin fuel path max) f ↔
      Returns (resolveWithin fuel path >>= listFound fuel max) f := by
    intro fuel
    rw [Returns, Returns, Outcome, Outcome, readdirWithin_of_path hready hroot]
  have hnext : ∀ {fuel found g}, resolveWithin fuel path f = .ok (found, g) → g.present = true := fun h =>
    (CacheOnly.of_ok (cacheOnly_resolveWithin _ _) h).present hpresent
  have hsteady : ∀ found, Steady fun fuel => listFound fuel max found := by
    rintro (_ | info)
    · exact steady_const _
    · cases hdir : info.isDir <;> simp only [listFound, hdir, if_true, if_false, Bool.false_eq_true]
      · exact steady_const _
      · exact steady_scanClusters
  simp only [hunfold]
  refine (ends_bind_iff (steady_resolveWithin path) hsteady).trans
    (and_congr (returns_resolveWithin_iff hpresent path) ?_)
  constructor
  · intro h fuel info g hinfo hdir
    obtain ⟨fuel', hfuel'⟩ := h fuel _ g hinfo
    rw [listFound, if_pos hdir] at hfuel'
    exact (returns_scanClusters_iff (hnext hinfo)).mp ⟨fuel', hfuel'⟩
  · rintro h fuel (_ | info) g hfound
    · exact ⟨0, trivial⟩
    · by_cases hdir : info.isDir
      · simp only [listFound, if_pos hdir]
        exact (returns_scanClusters_iff (hnext hfound)).mpr (h fuel info g hfound hdir)
      · simp only [listFound, if_neg hdir]
        exact ⟨0, trivial⟩

/-- Searching for a name, opening a file and listing a directory end without a panic exactly if the
directories on the way are orderly. -/
theorem lookups_end_iff (hpresent : f.present = true) (hready : f.ready = true) (path : Bytes) (max : Nat) :
    (∀ (α : Type) (cb : α → DirInfo → α × Bool) (c : Nat) (acc : α),
      (∃ fuel, Returns (scanClusters cb fuel c .empty acc) f) ↔ Orderly cb c .empty acc f) ∧
    ((∃ fuel, Returns (resolveWithin fuel path) f) ↔ PathOrderly path f) ∧
    ((∃ fuel, Returns (openWithin fuel path) f) ↔ PathOrderly path f) ∧
    ((∃ fuel, Returns (readdirWithin fuel path max) f) ↔ ListingOrderly path max f) := by
  refine ⟨fun α cb c acc => returns_scanClusters_iff hpresent, returns_resolveWithin_iff hpresent path, ?_,
    returns_readdirWithin_iff hpresent hready path max⟩
  rw [← returns_resolveWithin_iff hpresent]
  exact exists_congr fun fuel => returns_openWithin_iff hready fuel path

end Paths

section Volumes

variable {α : Type}

def bootSector : Sector :=
  (((((Sector.zero.patch 11 [0, 2, 1, 1, 0, 1]).patch 32 (toLe 100 4)).patch 36 (toLe 1 4)).patch 44 (toLe 2 4)).patch
    82 (ascii "FAT32")).patch 510 [0x55, 0xAA]

def device (fat root : Sector) : Fat where
  present := true
  capacity := 100
  disk := fun lba => if lba = 0 then bootSector else if lba = 1 then fat else if lba = 2 then root else Sector.zero
  ctag := fun _ => emptyTag
  cdata := fun _ => Sector.zero
  ready := false
  bytesPerSec := 512
  secsPerCluster := 1
  fatStart := 0
  dataStart := 0
  rootCluster := 2
  totalClusters := 0
  freeHint := 3
  openFiles := fun _ => .empty

def mounted (fat root : Sector) : Fat :=
  { load (device fat root) 0 with
    ready := true, bytesPerSec := 512, secsPerCluster := 1, fatStart := 1, dataStart := 2, rootCluster := 2
    freeHint := 3, totalClusters := 98 }

def plainFat : Sector := Sector.zero.patch 8 (toLe fatEoc 4)

def loopFat : Sector := Sector.zero.patch 8 (toLe 2 4)

def deletedEntries : Sector := fun _ => 0xE5

def longEntries : Sector := ((Sector.zero.patch 0 [0x55]).patch 11 [0x0F]).patch 32 [65]

lemma init_mounted (fat root : Sector) : Fat.init 0 (device fat root) = .ok (true, mounted fat root) := by
  have hboot : sectorAt (device fat root) 0 = bootSector := by
    have htag : ¬emptyTag = 0 := by decide
    have hcapacity : 0 < 100 := by decide
    rw [sectorAt, device, if_neg htag, if_pos hcapacity]
    rfl
  have hsignature : ¬(bootSector.byteAt 510 ≠ 0x55 ∨ bootSector.byteAt 511 ≠ 0xAA) := by decide
  have hbytes : ¬bootSector.u16at 11 ≠ 512 := by decide
  have hsizes : ¬(bootSector.u16at 22 ≠ 0 ∨ bootSector.u16at 19 ≠ 0) := by decide
  have hlabel : ¬bootSector.slice 82 5 ≠ ascii "FAT32" := by decide
  have hspc : bootSector.byteAt 13 = 1 := by decide
  have hreserved : bootSector.u16at 14 = 1 := by decide
  have hfats : bootSector.byteAt 16 = 1 := by decide
  have hfatSize : bootSector.u32at 36 = 1 := by decide
  have htotal : bootSector.u32at 32 = 100 := by decide
  have hroot : bootSector.u32at 44 = 2 := by decide
  unfold Fat.init
  rw [bind_of_ok (csec_eq rfl 0), hboot, if_neg hsignature, if_neg hbytes, if_neg hsizes, if_neg hlabel, hspc, hreserved,
    hfats, hfatSize, htotal, hroot]
  rfl

lemma parseSector_deleted (cb : α → DirInfo → α × Bool) (lba : Nat) (offs : List Nat)
    (hoffs : ∀ off ∈ offs, off < sectorSize) (lfn : Lfn) (acc : α) :
    ∃ lfn', parseSector cb deletedEntries lba offs lfn acc = some (.more lfn' acc) := by
  induction offs generalizing lfn with
  | nil => exact ⟨lfn, rfl⟩
  | cons off offs ih =>
    have hbyte : deletedEntries.byteAt off = 0xE5 := dif_pos (hoffs off mem_cons_self)
    have hstep : entryStep deletedEntries lba off lfn = .skip { lfn with active := false, len := 0 } := by
      have hfirst : ¬(0xE5 : UInt8) = 0 := by decide
      rw [entryStep, hbyte]
      simp only [if_neg hfirst, if_true]
    rw [parseSector, hstep]
    exact ih (fun off' hoff' => hoffs off' (mem_cons_of_mem off hoff')) _

def looping : Fat := load (load (mounted loopFat deletedEntries) 2) 1

lemma readAll_looping : readAll (clusterSectors looping 2) looping = ([(2, deletedEntries)], looping) := by
  have hsectors : clusterSectors looping 2 = [2] := rfl
  have hhit : load looping 2 = looping := load_of_hit rfl
  have hsector : sectorAt looping 2 = deletedEntries := rfl
  rw [hsectors, readAll, readAll, hhit, hsector]

lemma parseSectors_deleted (cb : α → DirInfo → α × Bool) (lfn : Lfn) (acc : α) :
    ∃ lfn', parseSectors cb [(2, deletedEntries)] lfn acc = some (.more lfn' acc) := by
  obtain ⟨lfn', hparse⟩ := parseSector_deleted cb 2 entryOffsets (by decide) lfn acc
  refine ⟨lfn', ?_⟩
  rw [parseSectors, hparse]
  rfl

lemma not_orderlyIn_looping (cb : α → DirInfo → α × Bool) (n : Nat) (lfn : Lfn) (acc : α) :
    ¬OrderlyIn cb n 2 lfn acc looping := by
  induction n generalizing lfn with
  | zero =>
    rw [orderlyIn_zero]
    decide
  | succ n ih =>
    intro h
    have hrest := h.rest.2
    obtain ⟨lfn', hparse⟩ := parseSectors_deleted cb lfn acc
    have hnext : nextCluster looping 2 = 2 := by decide
    have hload : loadEntry looping 2 = looping := load_of_hit rfl
    rw [readAll_looping, hparse, RestIn, hnext, hload] at hrest
    exact ih lfn' hrest

lemma not_orderly_cyclic (cb : α → DirInfo → α × Bool) (lfn : Lfn) (acc : α) :
    ¬Orderly cb 2 lfn acc (mounted loopFat deletedEntries) := by
  rintro ⟨n, h⟩
  cases n with
  | zero =>
    rw [orderlyIn_zero] at h
    exact absurd h (by decide)
  | succ n =>
    have hrest := h.rest.2
    obtain ⟨lfn', hparse⟩ := parseSectors_deleted cb lfn acc
    have hread : readAll (clusterSectors (mounted loopFat deletedEntries) 2) (mounted loopFat deletedEntries) =
        ([(2, deletedEntries)], load (mounted loopFat deletedEntries) 2) := rfl
    have hnext : nextCluster (load (mounted loopFat deletedEntries) 2) 2 = 2 := by decide
    rw [hread, hparse, RestIn, hnext] at hrest
    exact not_orderlyIn_looping cb n lfn' acc hrest

lemma not_orderly_long (part : Bytes) : ¬Orderly (matching part) 2 .empty none (mounted plainFat longEntries) := by
  rintro ⟨n, h⟩
  cases n with
  | zero =>
    rw [orderlyIn_zero] at h
    exact absurd h (by decide)
  | succ n =>
    have hrest := h.rest.2
    have hread : readAll (clusterSectors (mounted plainFat longEntries) 2) (mounted plainFat longEntries) =
        ([(2, longEntries)], load (mounted plainFat longEntries) 2) := rfl
    have hparse : parseSectors (matching part) [(2, longEntries)] .empty none = none := rfl
    rw [hread, hparse] at hrest
    exact hrest

lemma not_returns_openWithin {f : Fat} (hpresent : f.present = true) (hready : f.ready = true) {part : Bytes}
    {parts : List Bytes} {path : Bytes} (hparts : pathParts path = part :: parts)
    (h : ¬Orderly (matching part) f.rootCluster .empty none f) (fuel : Nat) : ¬Returns (openWithin fuel path) f := by
  intro hreturns
  rw [returns_openWithin_iff hready] at hreturns
  have horderly := (returns_resolveWithin_iff hpresent path).mp ⟨fuel, hreturns⟩
  rw [PathOrderly, hparts] at horderly
  exact h horderly.1

/-- `open` never returns from a cyclic root directory, and panics on a long name that does not fit. -/
theorem hostile_volumes_stop_open :
    Fat.init 0 (device loopFat deletedEntries) = .ok (true, mounted loopFat deletedEntries) ∧
    (∀ fuel, ¬Returns (openWithin fuel (ascii "/a")) (mounted loopFat deletedEntries)) ∧
    Fat.init 0 (device plainFat longEntries) = .ok (true, mounted plainFat longEntries) ∧
    ∀ fuel, ¬Returns (openWithin fuel (ascii "/a")) (mounted plainFat longEntries) :=
  ⟨init_mounted _ _, not_returns_openWithin rfl rfl rfl (not_orderly_cyclic _ _ _), init_mounted _ _,
    not_returns_openWithin rfl rfl rfl (not_orderly_long _)⟩

theorem open_ends_on_plain_volume :
    Fat.init 0 (device plainFat Sector.zero) = .ok (true, mounted plainFat Sector.zero) ∧
    ∃ fuel, Returns (openWithin fuel (ascii "/a")) (mounted plainFat Sector.zero) := by
  refine ⟨init_mounted _ _, (lookups_end_iff (f := mounted plainFat Sector.zero) rfl rfl (ascii "/a") 0).2.2.1.mpr ?_⟩
  exact ⟨⟨1, _, _, _, rfl, trivial⟩, fun _ _ _ _ => trivial⟩

end Volumes

end Aeglos.Fat
