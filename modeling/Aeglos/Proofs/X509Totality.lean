import Aeglos.Kernel.X509

/-!
# The certificate parser is total

Every read of the parser is in range, no sum overflows and every loop ends, whatever the bytes
are.
-/

namespace Aeglos.X509

open Slices List Option

section Walking

structure Der.Inside (d : Der) : Prop where
  pos : d.pos ≤ d.data.length
  fits : d.data.length < 2 ^ 63

lemma Der.inside_sub {data : Bytes} (h : data.length < 2 ^ 63) : (Der.sub data).Inside := ⟨Nat.zero_le _, h⟩

lemma getElem?_total {p : Bytes} {i : Nat} (hi : i < p.length) : ∃ b, p[i]? = some b :=
  ⟨p[i], getElem?_eq_getElem hi⟩

variable {d : Der}

lemma Der.advance_eq {n : Nat} (h : d.pos + n < 2 ^ 64) : d.advance n = some ⟨d.data, d.pos + n⟩ := by
  rw [Der.advance, checked_eq_some h]
  rfl

def beValue (len : Nat) (bytes : Bytes) : Nat := bytes.foldl (fun l b => l * 256 + b.toNat) len

lemma beValue_lt (len : Nat) (bytes : Bytes) : beValue len bytes < (len + 1) * 256 ^ bytes.length := by
  induction bytes generalizing len with
  | nil => simp [beValue]
  | cons b bytes ih =>
    have hb := b.toNat_lt
    have hstep : len * 256 + b.toNat + 1 ≤ (len + 1) * 256 := by omega
    calc beValue len (b :: bytes)
        < (len * 256 + b.toNat + 1) * 256 ^ bytes.length := ih _
      _ ≤ (len + 1) * 256 * 256 ^ bytes.length := Nat.mul_le_mul_right _ hstep
      _ = (len + 1) * 256 ^ (b :: bytes).length := by rw [length_cons, pow_succ]; ring

lemma Der.lenBytes_eq {n : Nat} (len : Nat) (hn : d.pos + n ≤ d.data.length) (hfits : d.data.length < 2 ^ 63) :
    Der.lenBytes n len d = some (beValue len ((d.data.drop d.pos).take n), ⟨d.data, d.pos + n⟩) := by
  induction n generalizing d len with
  | zero => rfl
  | succ n ih =>
    obtain ⟨data, pos⟩ := d
    dsimp only at hn hfits ⊢
    have hbyte : data.drop pos = data[pos] :: data.drop (pos + 1) := drop_eq_getElem_cons (by omega)
    have hnext : Der.advance ⟨data, pos⟩ 1 = some ⟨data, pos + 1⟩ := Der.advance_eq (by dsimp only; omega)
    have hrest := ih (d := ⟨data, pos + 1⟩) (len * 256 + data[pos].toNat) (by dsimp only; omega) hfits
    rw [Der.lenBytes, hnext]
    simp only [getElem?_eq_getElem (by omega : pos < data.length), bind_eq_bind, bind_some]
    rw [hrest, hbyte, take_succ_cons]
    dsimp only
    rw [Nat.add_assoc, Nat.add_comm 1 n]
    rfl

/-- A step of the walker: the data are the same, and it has not gone back or beyond the end. -/
structure Der.Steps (d d' : Der) : Prop where
  data : d'.data = d.data
  forward : d.pos ≤ d'.pos
  pos : d'.pos ≤ d.data.length

lemma Der.Inside.steps {d' : Der} (hd : d.Inside) (h : d.Steps d') : d'.Inside := by
  constructor
  · rw [h.data]
    exact h.pos
  · rw [h.data]
    exact hd.fits

lemma Der.readLen_total (hd : d.Inside) :
    ∃ r d', d.readLen = some (r, d') ∧ d.Steps d' ∧ ∀ len, r = some len → len < 2 ^ 32 := by
  obtain ⟨hpos, hfits⟩ := hd
  rw [Der.readLen]
  split_ifs with hend
  · exact ⟨none, d, rfl, ⟨rfl, le_rfl, hpos⟩, fun _ h => absurd h (by simp)⟩
  · obtain ⟨b, hb⟩ := getElem?_total (by omega : d.pos < d.data.length)
    have hseven : (b &&& 0x7F).toNat < 128 := by
      rw [UInt8.toNat_and]
      exact lt_of_le_of_lt Nat.and_le_right (by decide)
    have hnext : d.advance 1 = some ⟨d.data, d.pos + 1⟩ := Der.advance_eq (by omega)
    have hstop : checked 64 (d.pos + 1 + (b &&& 0x7F).toNat) = some (d.pos + 1 + (b &&& 0x7F).toNat) :=
      checked_eq_some (by omega)
    have hone : d.Steps ⟨d.data, d.pos + 1⟩ := ⟨rfl, by dsimp only; omega, by dsimp only; omega⟩
    rw [hb, hnext]
    simp only [bind_eq_bind, bind_some, hstop]
    split_ifs with hshort hlong
    · refine ⟨some b.toNat, _, rfl, hone, ?_⟩
      rintro len hlen
      obtain rfl := some.inj hlen
      have hb := b.toNat_lt
      omega
    · exact ⟨none, _, rfl, hone, fun _ h => absurd h (by simp)⟩
    · have hbytes := Der.lenBytes_eq (d := ⟨d.data, d.pos + 1⟩) (n := (b &&& 0x7F).toNat) 0 (by dsimp only; omega) hfits
      rw [hbytes]
      refine ⟨_, _, rfl, ⟨rfl, by dsimp only; omega, by dsimp only; omega⟩, ?_⟩
      rintro len hlen
      obtain rfl := some.inj hlen
      refine (beValue_lt _ _).trans_le ?_
      have hfour : 256 ^ ((d.data.drop (d.pos + 1)).take (b &&& 0x7F).toNat).length ≤ 256 ^ 4 := by
        refine Nat.pow_le_pow_right (by decide) ?_
        rw [length_take]
        omega
      simpa using hfour

lemma Der.nextTlv_total (hd : d.Inside) :
    ∃ r d', d.nextTlv = some (r, d') ∧ d.Steps d' ∧ (d.remaining → d.pos < d'.pos) ∧
      ∀ t v, r = some (t, v) → v.length < 2 ^ 63 := by
  have hfits := hd.fits
  have hpos := hd.pos
  rw [Der.nextTlv]
  split_ifs with hend
  · exact ⟨none, d, rfl, ⟨rfl, le_rfl, hpos⟩, fun h => absurd h (by unfold Der.remaining; omega), fun _ _ h => absurd h (by simp)⟩
  · obtain ⟨tag, htag⟩ := getElem?_total (by omega : d.pos < d.data.length)
    have hnext : d.advance 1 = some ⟨d.data, d.pos + 1⟩ := Der.advance_eq (by omega)
    have hinside : Der.Inside ⟨d.data, d.pos + 1⟩ := ⟨by dsimp only; omega, hfits⟩
    obtain ⟨r, ⟨data, pos⟩, hread, hsteps, hlen⟩ := Der.readLen_total hinside
    have hdata : data = d.data := hsteps.data
    have hforward : d.pos + 1 ≤ pos := hsteps.forward
    have hin : pos ≤ d.data.length := hsteps.pos
    subst hdata
    rw [htag, hnext]
    simp only [bind_eq_bind, bind_some, hread]
    cases r with
    | none =>
      exact ⟨none, _, rfl, ⟨rfl, by dsimp only; omega, hin⟩, fun _ => hforward, fun _ _ h => absurd h (by simp)⟩
    | some len =>
      have hlen' := hlen len rfl
      dsimp only
      rw [checked_eq_some (by omega)]
      simp only [bind_some]
      split_ifs with hstop
      · exact ⟨none, _, rfl, ⟨rfl, by dsimp only; omega, hin⟩, fun _ => hforward, fun _ _ h => absurd h (by simp)⟩
      · rw [slice_eq_some (by omega) (by omega)]
        refine ⟨_, _, rfl, ⟨rfl, by dsimp only; omega, by dsimp only; omega⟩, fun _ => by dsimp only; omega, ?_⟩
        rintro t v hv
        obtain ⟨-, rfl⟩ := Prod.mk.inj (some.inj hv)
        rw [length_take]
        omega

lemma Der.peekTag_total (d : Der) : ∃ r, d.peekTag = some r := by
  rw [Der.peekTag]
  split_ifs with hin
  · obtain ⟨b, hb⟩ := getElem?_total hin
    rw [hb]
    exact ⟨some b, rfl⟩
  · exact ⟨none, rfl⟩

lemma Der.skip_total (hd : d.Inside) : ∃ d', d.skip = some d' ∧ d.Steps d' ∧ (d.remaining → d.pos < d'.pos) := by
  obtain ⟨r, d', hnext, hsteps, hmoves, -⟩ := Der.nextTlv_total hd
  rw [Der.skip, hnext]
  exact ⟨d', rfl, hsteps, hmoves⟩

lemma Der.skipIf_total (tag : UInt8) (hd : d.Inside) :
    ∃ d', d.skipIf tag = some d' ∧ d'.Inside ∧ d'.data = d.data := by
  obtain ⟨peeked, hpeek⟩ := d.peekTag_total
  rw [Der.skipIf, hpeek]
  simp only [bind_eq_bind, bind_some]
  split_ifs
  · obtain ⟨d', hskip, hsteps, -⟩ := Der.skip_total hd
    exact ⟨d', hskip, hd.steps hsteps, hsteps.data⟩
  · exact ⟨d, rfl, hd, rfl⟩

lemma Der.expect_total (tag : UInt8) (hd : d.Inside) :
    ∃ r, d.expect tag = some r ∧
      ∀ v d', r = some (v, d') → d'.Inside ∧ d'.data = d.data ∧ v.length < 2 ^ 63 := by
  obtain ⟨r, d', hnext, hsteps, -, hval⟩ := Der.nextTlv_total hd
  rw [Der.expect, hnext]
  cases r with
  | none => exact ⟨none, rfl, fun _ _ h => absurd h (by simp)⟩
  | some tv =>
    obtain ⟨t, v⟩ := tv
    simp only [bind_eq_bind, bind_some]
    split_ifs with htag
    · refine ⟨_, rfl, ?_⟩
      rintro v' d'' h
      obtain ⟨rfl, rfl⟩ := Prod.mk.inj (some.inj h)
      exact ⟨hd.steps hsteps, hsteps.data, hval t v rfl⟩
    · exact ⟨none, rfl, fun _ _ h => absurd h (by simp)⟩

lemma Der.expect_bind {α : Type} {tag : UInt8} {k : Option (Bytes × Der) → Option α} (hd : d.Inside)
    (hnone : (k none).isSome)
    (hsome : ∀ v d', d'.Inside → d'.data = d.data → v.length < 2 ^ 63 → (k (some (v, d'))).isSome) :
    (d.expect tag >>= k).isSome := by
  obtain ⟨r, hr, hr'⟩ := Der.expect_total tag hd
  rw [hr, bind_eq_bind, bind_some]
  rcases r with - | ⟨v, d'⟩
  · exact hnone
  · obtain ⟨hinside, hdata, hval⟩ := hr' v d' rfl
    exact hsome v d' hinside hdata hval

lemma isSome_bind {α β : Type} {x : Option α} {k : α → Option β} (hx : x.isSome) (hk : ∀ a, (k a).isSome) :
    (x >>= k).isSome := by
  obtain ⟨a, rfl⟩ := isSome_iff_exists.mp hx
  exact hk a

lemma Der.nextTlv_bind {α : Type} {k : Option (UInt8 × Bytes) × Der → Option α} (hd : d.Inside)
    (hnone : ∀ d', (k (none, d')).isSome)
    (hsome : ∀ t v d', d.Steps d' → (d.remaining → d.pos < d'.pos) → v.length < 2 ^ 63 → (k (some (t, v), d')).isSome) :
    (d.nextTlv >>= k).isSome := by
  obtain ⟨r, d', hnext, hsteps, hmoves, hval⟩ := Der.nextTlv_total hd
  rw [hnext, bind_eq_bind, bind_some]
  rcases r with - | ⟨t, v⟩
  · exact hnone d'
  · exact hsome t v d' hsteps hmoves (hval t v rfl)

lemma Der.Steps.turns {d' : Der} {turns : Nat} (h : d.Steps d') (hmoves : d.remaining → d.pos < d'.pos)
    (hin : d.remaining) (hturns : d.data.length < d.pos + (turns + 1)) : d'.data.length < d'.pos + turns := by
  have hlt := hmoves hin
  rw [h.data]
  omega

end Walking

section Names

variable {turns : Nat} {d : Der} {info : CertInfo}

lemma cnOfRdn_isSome (hd : d.Inside) (hturns : d.data.length < d.pos + turns) : (cnOfRdn turns d).isSome := by
  induction turns generalizing d with
  | zero => exact absurd hd.pos hturns.not_ge
  | succ turns ih =>
    rw [cnOfRdn]
    split_ifs with hin
    · refine Der.nextTlv_bind hd (fun _ => rfl) fun tAtv atvVal d' hsteps hmoves hval => ?_
      have hrest := ih (hd.steps hsteps) (hsteps.turns hmoves hin hturns)
      dsimp only
      split_ifs
      · exact hrest
      refine Der.nextTlv_bind (Der.inside_sub hval) (fun _ => rfl) fun tOid oidVal atv hsteps' _ _ => ?_
      dsimp only
      split_ifs
      · exact hrest
      refine Der.nextTlv_bind ((Der.inside_sub hval).steps hsteps') (fun _ => rfl) fun tv vv _ _ _ _ => ?_
      dsimp only
      split_ifs
      · rfl
      · exact hrest
    · rfl

lemma cnOfName_isSome (hd : d.Inside) (hturns : d.data.length < d.pos + turns) : (cnOfName turns d).isSome := by
  induction turns generalizing d with
  | zero => exact absurd hd.pos hturns.not_ge
  | succ turns ih =>
    rw [cnOfName]
    split_ifs with hin
    · refine Der.nextTlv_bind hd (fun _ => rfl) fun tRdn rdnVal d' hsteps hmoves hval => ?_
      have hrest := ih (hd.steps hsteps) (hsteps.turns hmoves hin hturns)
      dsimp only
      split_ifs
      · exact hrest
      refine isSome_bind (cnOfRdn_isSome (Der.inside_sub hval) (by simp [Der.sub])) fun cn => ?_
      cases cn with
      | none => exact hrest
      | some cn => rfl
    · rfl

lemma sanNames_isSome (hd : d.Inside) (hturns : d.data.length < d.pos + turns) :
    (sanNames turns d info).isSome := by
  induction turns generalizing d info with
  | zero => exact absurd hd.pos hturns.not_ge
  | succ turns ih =>
    rw [sanNames]
    split_ifs with hin
    · refine Der.nextTlv_bind hd (fun _ => rfl) fun gnTag gnVal d' hsteps hmoves _ => ?_
      have hrest : ∀ info, (sanNames turns d' info).isSome :=
        fun info => ih (hd.steps hsteps) (hsteps.turns hmoves hin.1 hturns)
      dsimp only
      split_ifs
      · rw [CertInfo.addSan, if_pos hin.2]
        exact hrest _
      · exact hrest info
    · rfl

lemma extractSan_isSome {extnVal : Bytes} (hfits : extnVal.length < 2 ^ 63) :
    (extractSan extnVal info).isSome := by
  refine Der.nextTlv_bind (Der.inside_sub hfits) (fun _ => rfl) fun t seqVal d' _ _ hval => ?_
  dsimp only
  split_ifs
  · rfl
  · exact sanNames_isSome (Der.inside_sub hval) (by simp [Der.sub])

lemma parseExtension_isSome {extBody : Bytes} (hfits : extBody.length < 2 ^ 63) :
    (parseExtension extBody info).isSome := by
  refine Der.nextTlv_bind (Der.inside_sub hfits) (fun _ => rfl) fun tOid oidVal ext hsteps _ _ => ?_
  dsimp only
  by_cases hoid : tOid ≠ tagOid
  · rw [if_pos hoid]
    rfl
  rw [if_neg hoid]
  obtain ⟨ext', hskip, hext', -⟩ := Der.skipIf_total 0x01 ((Der.inside_sub hfits).steps hsteps)
  rw [hskip, bind_eq_bind, bind_some]
  refine Der.nextTlv_bind hext' (fun _ => rfl) fun tOct octVal last _ _ hval => ?_
  dsimp only
  split_ifs
  · rfl
  · exact extractSan_isSome hval
  · rfl

lemma extensionLoop_isSome (hd : d.Inside) (hturns : d.data.length < d.pos + turns) :
    (extensionLoop turns d info).isSome := by
  induction turns generalizing d info with
  | zero => exact absurd hd.pos hturns.not_ge
  | succ turns ih =>
    rw [extensionLoop]
    split_ifs with hin
    · refine Der.nextTlv_bind hd (fun _ => rfl) fun tExt extBody d' hsteps hmoves hval => ?_
      have hrest : ∀ info, (extensionLoop turns d' info).isSome :=
        fun info => ih (hd.steps hsteps) (hsteps.turns hmoves hin hturns)
      dsimp only
      split_ifs
      · exact hrest info
      · exact isSome_bind (parseExtension_isSome hval) hrest
    · rfl

lemma parseExtensions_isSome {extVal : Bytes} (hfits : extVal.length < 2 ^ 63) :
    (parseExtensions extVal info).isSome := by
  refine Der.nextTlv_bind (Der.inside_sub hfits) (fun _ => rfl) fun t seqVal d' _ _ hval => ?_
  dsimp only
  split_ifs
  · rfl
  · exact extensionLoop_isSome (Der.inside_sub hval) (by simp [Der.sub])

end Names

section Times

variable {v : Bytes}

lemma parse2_total (a b : UInt8) : ∃ n, parse2 a b = some n ∧ ∀ k, n = some k → k < 100 := by
  rw [parse2]
  split_ifs with hdigits
  · have ha : a.toNat ≤ 57 := hdigits.1.2
    have hb : b.toNat ≤ 57 := hdigits.2.2
    have ha' : 48 ≤ a.toNat := hdigits.1.1
    have hb' : 48 ≤ b.toNat := hdigits.2.1
    rw [checkedSub_eq_some ha', checkedSub_eq_some hb']
    simp only [bind_eq_bind, bind_some]
    rw [checked_eq_some (by omega)]
    refine ⟨_, rfl, ?_⟩
    rintro k hk
    obtain rfl := some.inj hk
    omega
  · exact ⟨none, rfl, fun _ h => absurd h (by simp)⟩

lemma parse2At_bind {α : Type} {k : Nat → Option α} {i default : Nat} (hi : i + 1 < v.length) (hdefault : default < 100)
    (hk : ∀ n < 100, (k n).isSome) : (parse2At v i default >>= k).isSome := by
  obtain ⟨a, ha⟩ := getElem?_total (by omega : i < v.length)
  obtain ⟨b, hb⟩ := getElem?_total hi
  obtain ⟨n, hn, hlt⟩ := parse2_total a b
  rw [parse2At, ha, hb]
  simp only [bind_eq_bind, bind_some, hn]
  refine hk _ ?_
  cases n with
  | none => exact hdefault
  | some k => exact hlt k rfl

lemma sum_map_le {l : List Nat} {f : Nat → Nat} {c : Nat} (hf : ∀ x, f x ≤ c) : (l.map f).sum ≤ l.length * c := by
  have h := sum_le_card_nsmul (l.map f) c (by
    intro x hx
    obtain ⟨y, -, rfl⟩ := mem_map.mp hx
    exact hf y)
  simpa using h

lemma yearDays_le (year : Nat) : yearDays year ≤ (year - 1970) * 366 := by
  have h := sum_map_le (l := List.range' 1970 (year - 1970)) (f := fun y => if isLeap y then 366 else 365) (c := 366)
    (fun y => by split_ifs <;> omega)
  rwa [length_range'] at h

lemma daysInMonth_le (m y : Nat) : daysInMonth m y ≤ 31 := by
  unfold daysInMonth
  split_ifs <;> omega

lemma monthDays_le (year mon : Nat) : monthDays year mon ≤ (mon - 1) * 31 := by
  have h := sum_map_le (l := List.range' 1 (mon - 1)) (f := fun m => daysInMonth m year) (c := 31)
    (fun m => daysInMonth_le m year)
  rwa [length_range'] at h

lemma ymdHmsToUnix_isSome {year mon day hour min sec : Nat} (hyear : year < 10000) (hhour : hour < 100)
    (hmin : min < 100) (hsec : sec < 100) : (ymdHmsToUnix year mon day hour min sec).isSome := by
  rw [ymdHmsToUnix]
  split_ifs with hfail
  · rfl
  · have hyears := yearDays_le year
    have hmonths := monthDays_le year mon
    rw [checkedSub_eq_some (by omega)]
    simp only [bind_eq_bind, bind_some]
    rw [checked_eq_some (by omega)]
    simp only [bind_some]
    rw [checked_eq_some (by omega)]
    rfl

lemma fields_isSome {year i : Nat} (hyear : year < 10000) (hi : i + 9 < v.length) :
    (do
      ymdHmsToUnix year (← parse2At v i 0) (← parse2At v (i + 2) 0) (← parse2At v (i + 4) 0) (← parse2At v (i + 6) 0)
        (← parse2At v (i + 8) 0) : Option Nat).isSome := by
  refine parse2At_bind (by omega) (by omega) fun mon _ => ?_
  refine parse2At_bind (by omega) (by omega) fun day _ => ?_
  refine parse2At_bind (by omega) (by omega) fun hour hhour => ?_
  refine parse2At_bind (by omega) (by omega) fun min hmin => ?_
  refine parse2At_bind (by omega) (by omega) fun sec hsec => ?_
  exact ymdHmsToUnix_isSome hyear hhour hmin hsec

lemma parseUtctime_isSome : (parseUtctime v).isSome := by
  rw [parseUtctime]
  split_ifs with hshort
  · rfl
  refine parse2At_bind (by omega) (by omega) fun yy hyy => ?_
  have hyear : (if yy ≤ 49 then 2000 + yy else 1900 + yy) < 10000 := by split_ifs <;> omega
  rw [checked_eq_some (by omega)]
  exact fields_isSome hyear (by omega : 2 + 9 < v.length)

lemma parseGentime_isSome : (parseGentime v).isSome := by
  rw [parseGentime]
  split_ifs with hshort
  · rfl
  refine parse2At_bind (by omega) (by omega) fun cc hcc => ?_
  refine parse2At_bind (by omega) (by omega) fun yy hyy => ?_
  rw [checked_eq_some (by omega)]
  exact fields_isSome (by omega) (by omega : 4 + 9 < v.length)

lemma parseTime_isSome {other : Nat} {tag : UInt8} : (parseTime other tag v).isSome := by
  rw [parseTime]
  split_ifs
  · exact parseUtctime_isSome
  · exact parseGentime_isSome
  · rfl

end Times

lemma skipToExtensions_total {turns : Nat} {d : Der} (hd : d.Inside) (hturns : d.data.length < d.pos + turns) :
    ∃ d', skipToExtensions turns d = some d' ∧ d'.Inside := by
  induction turns generalizing d with
  | zero =>
    have hpos := hd.pos
    omega
  | succ turns ih =>
    rw [skipToExtensions]
    by_cases hin : d.remaining
    · obtain ⟨b, hb⟩ := getElem?_total hin
      obtain ⟨d', hskip, hsteps, hmoves⟩ := Der.skip_total hd
      rw [Der.peekTag, if_pos hin, hb]
      simp only [bind_eq_bind, bind_some, hskip]
      by_cases hlast : b = tagCtx3
      · exact ⟨d, by simp [hlast], hd⟩
      · obtain ⟨d'', hrest, hinside⟩ := ih (hd.steps hsteps) (hsteps.turns hmoves hin hturns)
        exact ⟨d'', by simpa [hlast] using hrest, hinside⟩
    · rw [Der.peekTag, if_neg hin]
      exact ⟨d, rfl, hd⟩

lemma parseCert_isSome {der : Bytes} (hfits : der.length < 2 ^ 63) : (parseCert der).isSome := by
  rw [parseCert]
  refine Der.expect_bind (Der.inside_sub hfits) rfl fun certVal _ _ _ hcert => ?_
  refine Der.expect_bind (Der.inside_sub hcert) rfl fun tbsVal _ _ _ htbs => ?_
  obtain ⟨tbs, hversion, hinside, hdata⟩ := Der.skipIf_total tagCtx0 (Der.inside_sub htbs)
  dsimp only
  rw [hversion, bind_eq_bind, bind_some]
  refine Der.expect_bind hinside rfl fun _ tbs₁ hinside₁ hdata₁ _ => ?_
  refine Der.expect_bind hinside₁ rfl fun _ tbs₂ hinside₂ hdata₂ _ => ?_
  refine Der.expect_bind hinside₂ rfl fun _ tbs₃ hinside₃ hdata₃ _ => ?_
  refine Der.expect_bind hinside₃ rfl fun valBody tbs₄ hinside₄ hdata₄ hval => ?_
  refine Der.nextTlv_bind (Der.inside_sub hval) (fun _ => rfl) fun tNb nbVal validity hsteps _ _ => ?_
  refine isSome_bind parseTime_isSome fun notBefore => ?_
  refine Der.nextTlv_bind ((Der.inside_sub hval).steps hsteps) (fun _ => rfl) fun tNa naVal _ _ _ _ => ?_
  refine isSome_bind parseTime_isSome fun notAfter => ?_
  refine Der.expect_bind hinside₄ rfl fun subVal tbs₅ hinside₅ hdata₅ hsub => ?_
  refine isSome_bind (cnOfName_isSome (Der.inside_sub hsub) (by simp [Der.sub])) fun cn => ?_
  refine Der.expect_bind hinside₅ rfl fun _ tbs₆ hinside₆ hdata₆ _ => ?_
  have hlength : tbs₆.data.length = tbsVal.length := by
    rw [hdata₆, hdata₅, hdata₄, hdata₃, hdata₂, hdata₁, hdata]
    rfl
  obtain ⟨last, hlast, hinside'⟩ := skipToExtensions_total hinside₆ (by omega : _ < tbs₆.pos + (tbsVal.length + 1))
  obtain ⟨tag, htag⟩ := last.peekTag_total
  dsimp only
  rw [hlast, bind_eq_bind, bind_some, htag, bind_eq_bind, bind_some]
  split_ifs
  · refine Der.nextTlv_bind hinside' (fun _ => rfl) fun t extVal rest _ _ hext => ?_
    exact isSome_bind (parseExtensions_isSome hext) fun _ => rfl
  · rfl

lemma dnsNameMatch_isSome {pattern host : Bytes} (hfits : host.length < 2 ^ 63) :
    (dnsNameMatch pattern host).isSome := by
  rw [dnsNameMatch]
  split_ifs with hwild
  · have hlen : 2 ≤ pattern.length := (List.isPrefixOf_iff_prefix.mp hwild).length_le
    rw [sliceFrom_eq_some hlen]
    simp only [bind_eq_bind, bind_some]
    cases hdot : host.findIdx? fun b => b == 46 with
    | none => rfl
    | some dot =>
      have hlt : dot < host.length := (List.findIdx?_eq_some_iff_findIdx_eq.mp hdot).1
      dsimp only
      rw [checked_eq_some (by omega), bind_some, sliceFrom_eq_some (by omega)]
      rfl
  · rfl

lemma anyNameMatch_isSome {host : Bytes} (hfits : host.length < 2 ^ 63) (names : List Bytes) :
    (anyNameMatch host names).isSome := by
  induction names with
  | nil => rfl
  | cons name names ih =>
    have hname : (dnsNameMatch name host).isSome := dnsNameMatch_isSome hfits
    obtain ⟨b, hb⟩ := isSome_iff_exists.mp hname
    rw [anyNameMatch, hb]
    cases b with
    | true => rfl
    | false => exact ih

lemma hostnameMatch_isSome {info : CertInfo} {host : Bytes} (hfits : host.length < 2 ^ 63) :
    (hostnameMatch info host).isSome := by
  rw [hostnameMatch]
  split_ifs
  · exact anyNameMatch_isSome hfits _
  · cases info.cn with
    | none => rfl
    | some cn => exact dnsNameMatch_isSome hfits

lemma u24_total {p : Bytes} {i : Nat} (hi : i + 2 < p.length) (hfits : p.length < 2 ^ 63) :
    ∃ n, u24 p i = some n ∧ n < 2 ^ 24 := by
  obtain ⟨a, ha⟩ := getElem?_total (by omega : i < p.length)
  obtain ⟨b, hb⟩ := getElem?_total (by omega : i + 1 < p.length)
  obtain ⟨c, hc⟩ := getElem?_total hi
  have ha' := a.toNat_lt
  have hb' := b.toNat_lt
  have hc' := c.toNat_lt
  rw [u24, checked_eq_some (by omega), checked_eq_some (by omega)]
  simp only [ha, hb, hc, bind_eq_bind, bind_some]
  exact ⟨_, rfl, by omega⟩

lemma isSome_reject {c : Prop} [Decidable c] {x : Option Bool} (h : ¬ c → x.isSome) :
    (if c then pure false else x).isSome := by
  by_cases hc : c
  · rw [if_pos hc]
    rfl
  · rw [if_neg hc]
    exact h hc

/-- `verify_cert_chain` gives an answer for every message, host name and clock. -/
theorem verify_cert_chain_total (now : Nat) (msgBody host : Slice) : (verifyCertChain now msgBody host).isSome := by
  obtain ⟨msg, hfits⟩ := msgBody
  rw [verifyCertChain]
  simp only [bind_eq_bind]
  refine isSome_reject fun hshort => ?_
  obtain ⟨c, hc⟩ := getElem?_total (by omega : 0 < msg.length)
  have hc' := c.toNat_lt
  rw [hc, bind_some]
  refine isSome_reject fun hcontext => ?_
  obtain ⟨listLen, hlist, hlist'⟩ := u24_total (by omega : 1 + c.toNat + 2 < msg.length) hfits
  rw [hlist, bind_some, checked_eq_some (by omega), bind_some]
  refine isSome_reject fun hend => ?_
  rw [checked_eq_some (by omega), bind_some]
  refine isSome_reject fun hentry => ?_
  obtain ⟨certLen, hcert, hcert'⟩ := u24_total (by omega : 1 + c.toNat + 3 + 2 < msg.length) hfits
  rw [hcert, bind_some, checked_eq_some (by omega), bind_some]
  refine isSome_reject fun hcertEnd => ?_
  rw [slice_eq_some (by omega) (by omega), bind_some]
  refine isSome_bind (parseCert_isSome ?_) fun info => ?_
  · rw [length_take]
    omega
  · cases info with
    | none => rfl
    | some info => exact isSome_reject fun _ => hostnameMatch_isSome host.fits

end Aeglos.X509
