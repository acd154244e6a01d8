import Aeglos.Library.Calendar
import Aeglos.Proofs.CertificateFormat

/-!
# Which certificates are accepted

The rules of RFC 5280 for the validity, and the host names that the names of a certificate cover.
-/

namespace Aeglos.X509

open Slices Asn1 Calendar List Option

def twoDigits (n : Nat) : Bytes := [UInt8.ofNat (48 + n / 10), UInt8.ofNat (48 + n % 10)]

def clockText (t : DateTime) : Bytes :=
  twoDigits t.month ++ (twoDigits t.day ++ (twoDigits t.hour ++ (twoDigits t.minute ++ (twoDigits t.second ++ [90]))))

/-- The field is a time of one of the two kinds, written in the only form that is allowed. -/
inductive TimeField.Denotes : TimeField → DateTime → Prop
  | utcTime {t : DateTime} (valid : t.Valid) (year : 1950 ≤ t.year ∧ t.year < 2050) :
      Denotes ⟨tagUtctime, twoDigits (t.year % 100) ++ clockText t⟩ t
  | generalizedTime {t : DateTime} (valid : t.Valid) (year : t.year < 10000) :
      Denotes ⟨tagGentime, twoDigits (t.year / 100) ++ (twoDigits (t.year % 100) ++ clockText t)⟩ t

lemma TimeField.Denotes.valid {f : TimeField} {t : DateTime} (h : f.Denotes t) : t.Valid := by
  cases h with
  | utcTime valid _ => exact valid
  | generalizedTime valid _ => exact valid

lemma isLeap_iff (y : Nat) : isLeap y ↔ IsLeap y := by
  unfold isLeap IsLeap
  omega

lemma yearDays_eq (n : Nat) : (yearDays (1970 + n) : Int) = daysBeforeYear (1970 + n : Nat) - daysBeforeYear 1970 := by
  induction n with
  | zero => rfl
  | succ n ih =>
    have hleap := isLeap_iff (1970 + n)
    have hlast : yearDays (1970 + (n + 1)) = yearDays (1970 + n) + if isLeap (1970 + n) then 366 else 365 := by
      rw [yearDays, yearDays, Nat.add_sub_cancel_left, Nat.add_sub_cancel_left, List.range'_concat, map_append,
        sum_append]
      simp
    have hnext := daysBeforeYear_succ (1970 + n)
    rw [hlast]
    push_cast at ih hnext ⊢
    rw [← add_assoc, hnext]
    by_cases h : IsLeap (1970 + n)
    · rw [if_pos (hleap.mpr h), if_pos h]
      omega
    · rw [if_neg fun h' => h (hleap.mp h'), if_neg h]
      omega

lemma monthDays_eq {y m : Nat} (hm : 1 ≤ m ∧ m ≤ 12) : monthDays y m = daysBeforeMonth y m := by
  have hleap := isLeap_iff y
  obtain ⟨h1, h12⟩ := hm
  unfold monthDays daysBeforeMonth monthLengths daysInMonth
  simp only [hleap]
  by_cases h : IsLeap y
  · simp only [if_pos h]
    interval_cases m <;> decide
  · simp only [if_neg h]
    interval_cases m <;> decide

lemma monthLength_le {y m : Nat} (hm : 1 ≤ m ∧ m ≤ 12) : monthLength y m ≤ 31 := by
  obtain ⟨h1, h12⟩ := hm
  unfold monthLength monthLengths
  split_ifs <;> interval_cases m <;> decide

lemma ymdHmsToUnix_eq {t : DateTime} (ht : t.Valid) (hyear : t.year < 10000) :
    ymdHmsToUnix t.year t.month t.day t.hour t.minute t.second = some t.unix.toNat := by
  have hmonth := ht.month
  have hday := ht.day
  have hhour := ht.hour
  have hminute := ht.minute
  have hsecond := ht.second
  have hlength := monthLength_le (y := t.year) ht.month
  rw [ymdHmsToUnix]
  by_cases hold : t.year < 1970
  · have hneg := DateTime.unix_neg ht hold
    rw [if_pos (Or.inl hold), Int.toNat_of_nonpos hneg.le]
  · have hyears : yearDays t.year ≤ (t.year - 1970) * 366 := yearDays_le t.year
    have hmonths := monthDays_le t.year t.month
    have hyears' := yearDays_eq (t.year - 1970)
    have hmonths' := monthDays_eq (y := t.year) ht.month
    rw [Nat.add_sub_cancel' (by omega)] at hyears'
    rw [if_neg (by omega), checkedSub_eq_some hday.1]
    simp only [bind_eq_bind, bind_some]
    rw [checked_eq_some (by omega), bind_some, checked_eq_some (by omega)]
    have hunix : t.unix = ((yearDays t.year + monthDays t.year t.month + (t.day - 1)) * 86400 + t.hour * 3600
        + t.minute * 60 + t.second : Nat) := by
      unfold DateTime.unix
      rw [← hyears', hmonths']
      push_cast [Nat.cast_sub hday.1]
      rfl
    rw [hunix, Int.toNat_natCast]

lemma toNat_digit {n : Nat} (hn : n < 10) : (UInt8.ofNat (48 + n)).toNat = 48 + n :=
  UInt8.toNat_ofNat_of_lt' (by simp only [UInt8.size]; omega)

lemma isAsciiDigit_ofNat {n : Nat} (hn : n < 10) : isAsciiDigit (UInt8.ofNat (48 + n)) := by
  rw [isAsciiDigit, UInt8.le_iff_toNat_le, UInt8.le_iff_toNat_le, toNat_digit hn]
  exact ⟨Nat.le_add_right 48 n, by simp only [UInt8.reduceToNat]; omega⟩

lemma parse2_twoDigits {n : Nat} (hn : n < 100) :
    parse2 (UInt8.ofNat (48 + n / 10)) (UInt8.ofNat (48 + n % 10)) = some (some n) := by
  have htens : n / 10 < 10 := by omega
  have hones : n % 10 < 10 := by omega
  rw [parse2, if_pos ⟨isAsciiDigit_ofNat htens, isAsciiDigit_ofNat hones⟩, toNat_digit htens, toNat_digit hones,
    checkedSub_eq_some (by omega), checkedSub_eq_some (by omega)]
  simp only [bind_eq_bind, bind_some, Nat.add_sub_cancel_left]
  rw [checked_eq_some (by omega), bind_some, Nat.div_add_mod']
  rfl

lemma parse2At_eq {v tail : Bytes} {i n default : Nat} (h : v.drop i = twoDigits n ++ tail) (hn : n < 100) :
    parse2At v i default = some n := by
  have hfirst : v[i]? = some (UInt8.ofNat (48 + n / 10)) := by
    rw [← List.head?_drop, h]
    rfl
  have hsecond : v[i + 1]? = some (UInt8.ofNat (48 + n % 10)) := by
    rw [← List.head?_drop, ← drop_drop, h]
    rfl
  rw [parse2At, hfirst, hsecond]
  simp only [bind_eq_bind, bind_some, parse2_twoDigits hn]
  rfl

lemma parseTime_eq {f : TimeField} {t : DateTime} {other : Nat} (h : f.Denotes t) :
    parseTime other f.tag f.value = some t.unix.toNat := by
  have hvalid := h.valid
  have hmonth := hvalid.month
  have hday := hvalid.day
  have hhour := hvalid.hour
  have hminute := hvalid.minute
  have hsecond := hvalid.second
  have hlength := monthLength_le (y := t.year) hvalid.month
  cases h with
  | utcTime _ year =>
    have hyear : (if t.year % 100 ≤ 49 then 2000 + t.year % 100 else 1900 + t.year % 100) = t.year := by
      split_ifs <;> omega
    rw [parseTime, if_pos rfl, parseUtctime, if_neg (by simp [twoDigits, clockText])]
    rw [parse2At_eq rfl (by omega : t.year % 100 < 100), parse2At_eq rfl (by omega : t.month < 100),
      parse2At_eq rfl (by omega : t.day < 100), parse2At_eq rfl (by omega : t.hour < 100),
      parse2At_eq rfl (by omega : t.minute < 100), parse2At_eq rfl (by omega : t.second < 100)]
    simp only [bind_eq_bind, bind_some]
    rw [hyear, checked_eq_some (by omega), bind_some, ymdHmsToUnix_eq hvalid (by omega)]
  | generalizedTime _ year =>
    have hyear : t.year / 100 * 100 + t.year % 100 = t.year := by omega
    have hkind : tagGentime ≠ tagUtctime := by decide
    rw [parseTime, if_neg hkind, if_pos rfl, parseGentime, if_neg (by simp [twoDigits, clockText])]
    rw [parse2At_eq rfl (by omega : t.year / 100 < 100), parse2At_eq rfl (by omega : t.year % 100 < 100),
      parse2At_eq rfl (by omega : t.month < 100), parse2At_eq rfl (by omega : t.day < 100),
      parse2At_eq rfl (by omega : t.hour < 100), parse2At_eq rfl (by omega : t.minute < 100),
      parse2At_eq rfl (by omega : t.second < 100)]
    simp only [bind_eq_bind, bind_some]
    rw [hyear, checked_eq_some (by omega), bind_some, ymdHmsToUnix_eq hvalid year]

def SameText (a b : Bytes) : Prop := a.map toAsciiLowercase = b.map toAsciiLowercase

/-- The name covers the host: it is the host, or a wildcard that stands for the host's first label. -/
inductive Covers (name host : Bytes) : Prop
  | plain (notWild : ¬ [42, 46] <+: name) (same : SameText name host)
  | wildcard {suffix label rest : Bytes} (wild : name = 42 :: 46 :: suffix) (split : host = label ++ 46 :: rest)
      (label_ne : label ≠ []) (noDot : 46 ∉ label) (same : SameText suffix rest)

inductive CoversEmpty (name host : Bytes) : Prop
  | intro {suffix rest : Bytes} (wild : name = 42 :: 46 :: suffix) (split : host = 46 :: rest) (same : SameText suffix rest)

def Matches (name host : Bytes) : Prop := Covers name host ∨ CoversEmpty name host

lemma asciiEqCi_iff (a b : Bytes) : asciiEqCi a b = true ↔ SameText a b := by
  rw [asciiEqCi, SameText, beq_iff_eq]

lemma matches_wildcard_iff {suffix host : Bytes} :
    Matches (42 :: 46 :: suffix) host ↔ ∃ label rest, host = label ++ 46 :: rest ∧ 46 ∉ label ∧ SameText suffix rest := by
  constructor
  · rintro (h | h)
    · cases h with
      | plain notWild _ => exact absurd ⟨suffix, rfl⟩ notWild
      | wildcard wild split _ noDot same =>
        obtain rfl : suffix = _ := tail_eq_of_cons_eq (tail_eq_of_cons_eq wild)
        exact ⟨_, _, split, noDot, same⟩
    · cases h with
      | intro wild split same =>
        obtain rfl : suffix = _ := tail_eq_of_cons_eq (tail_eq_of_cons_eq wild)
        exact ⟨[], _, split, not_mem_nil, same⟩
  · rintro ⟨label, rest, hsplit, hdot, hsame⟩
    by_cases hlabel : label = []
    · subst hlabel
      exact Or.inr ⟨rfl, hsplit, hsame⟩
    · exact Or.inl (.wildcard rfl hsplit hlabel hdot hsame)

lemma matches_plain_iff {name host : Bytes} (hname : ¬ [42, 46] <+: name) : Matches name host ↔ SameText name host := by
  constructor
  · rintro (h | h)
    · cases h with
      | plain _ same => exact same
      | wildcard wild _ _ _ _ => exact absurd ⟨_, wild.symm⟩ hname
    · cases h with
      | intro wild _ _ => exact absurd ⟨_, wild.symm⟩ hname
  · intro hsame
    exact Or.inl (.plain hname hsame)

lemma findIdx?_dot {host label rest : Bytes} (hsplit : host = label ++ 46 :: rest) (hdot : 46 ∉ label) :
    (host.findIdx? fun b => b == 46) = some label.length := by
  have hlabel : (label.findIdx? fun b => b == 46) = none := by
    rw [List.findIdx?_eq_none_iff]
    intro b hb
    simpa using ne_of_mem_of_not_mem hb hdot
  rw [hsplit, List.findIdx?_append, hlabel]
  simp [List.findIdx?_cons]

lemma dnsNameMatch_iff {name host : Bytes} (hfits : host.length < 2 ^ 63) :
    dnsNameMatch name host = some true ↔ Matches name host := by
  rw [dnsNameMatch]
  by_cases hwild : [42, 46] <+: name
  · obtain ⟨suffix, rfl⟩ := hwild
    rw [if_pos (List.isPrefixOf_iff_prefix.mpr ⟨suffix, rfl⟩), sliceFrom_eq_some (by simp)]
    simp only [bind_eq_bind, bind_some]
    rw [show [42, 46] ++ suffix = 42 :: 46 :: suffix from rfl, matches_wildcard_iff]
    by_cases hdot : 46 ∈ host
    · obtain ⟨label, rest, hsplit, hlabel⟩ := eq_append_cons_of_mem hdot
      have hlt : label.length < host.length := by
        rw [hsplit, length_append, length_cons]
        omega
      have hrest : host.drop (label.length + 1) = rest := by
        rw [hsplit, ← drop_drop, drop_left]
        rfl
      rw [findIdx?_dot hsplit hlabel]
      dsimp only
      rw [checked_eq_some (by omega), bind_some, sliceFrom_eq_some (by omega), bind_some, hrest]
      constructor
      · intro h
        exact ⟨label, rest, hsplit, hlabel, (asciiEqCi_iff _ _).mp (some.inj h)⟩
      · rintro ⟨label', rest', hsplit', hlabel', hsame⟩
        have hlength : label.length = label'.length :=
          some.inj ((findIdx?_dot hsplit hlabel).symm.trans (findIdx?_dot hsplit' hlabel'))
        obtain ⟨-, hrests⟩ := append_inj (hsplit.symm.trans hsplit') hlength
        obtain rfl : rest = rest' := tail_eq_of_cons_eq hrests
        exact congrArg some ((asciiEqCi_iff _ _).mpr hsame)
    · have hnone : (host.findIdx? fun b => b == 46) = none := by
        rw [List.findIdx?_eq_none_iff]
        intro b hb
        simpa using ne_of_mem_of_not_mem hb hdot
      rw [hnone]
      constructor
      · intro h
        exact absurd (some.inj h) (by decide)
      · rintro ⟨label, rest, hsplit, -, -⟩
        exact absurd (hsplit ▸ mem_append_right label mem_cons_self) hdot
  · rw [if_neg fun h => hwild (List.isPrefixOf_iff_prefix.mp h), matches_plain_iff hwild, ← asciiEqCi_iff]
    simp

lemma anyNameMatch_iff {host : Bytes} (hfits : host.length < 2 ^ 63) (names : List Bytes) :
    anyNameMatch host names = some true ↔ ∃ name ∈ names, Matches name host := by
  induction names with
  | nil => simp [anyNameMatch]
  | cons name names ih =>
    have hname : dnsNameMatch name host = some true ↔ Matches name host := dnsNameMatch_iff hfits
    have hsome : (dnsNameMatch name host).isSome := dnsNameMatch_isSome hfits
    obtain ⟨b, hb⟩ := isSome_iff_exists.mp hsome
    rw [hb] at hname
    rw [anyNameMatch, hb, exists_mem_cons_iff, ← hname, ← ih]
    cases b <;> simp

lemma hostnameMatch_iff {info : CertInfo} {host : Bytes} (hfits : host.length < 2 ^ 63) :
    hostnameMatch info host = some true ↔
      ∃ name ∈ if info.san = [] then info.cn.toList else info.san, Matches name host := by
  rw [hostnameMatch]
  by_cases hsan : info.san = []
  · rw [if_neg (by simp [hsan]), if_pos hsan]
    cases info.cn with
    | none => simp
    | some cn => simp [dnsNameMatch_iff hfits]
  · rw [if_pos (length_pos_iff.mpr hsan), if_neg hsan]
    exact anyNameMatch_iff hfits _

def bmpText : Bytes → Option Bytes
  | [] => some []
  | a :: b :: rest => (bmpText rest).map (String.utf8EncodeChar (Char.ofNat (a.toNat * 256 + b.toNat)) ++ ·)
  | _ => none

def universalText : Bytes → Option Bytes
  | [] => some []
  | a :: b :: c :: d :: rest =>
    (universalText rest).map
      (String.utf8EncodeChar (Char.ofNat (((a.toNat * 256 + b.toNat) * 256 + c.toNat) * 256 + d.toNat)) ++ ·)
  | _ => none

def Attribute.text (a : Attribute) : Option Bytes :=
  if a.tag ∈ textTags then some a.value
  else if a.tag = 0x1E then bmpText a.value
  else if a.tag = 0x1C then universalText a.value
  else none

/-- The subject's common name, which is the first one if there are several. -/
def Certificate.commonName (c : Certificate) : Option Bytes :=
  (c.subject.flatten.find? fun a => decide (a.oid = oidCn)).bind Attribute.text

def Certificate.names (c : Certificate) : List Bytes := if c.dnsNames = [] then c.commonName.toList else c.dnsNames

def Certificate.ValidDates (c : Certificate) : Prop := (∃ t, c.notBefore.Denotes t) ∧ ∃ t, c.notAfter.Denotes t

def Certificate.InForce (c : Certificate) (now : Nat) : Prop :=
  (∃ t, c.notBefore.Denotes t ∧ t.unix ≤ now) ∧ ∃ t, c.notAfter.Denotes t ∧ now ≤ t.unix

def Certificate.Accepts (c : Certificate) (now : Nat) (host : Bytes) : Prop :=
  c.InForce now ∧ ∃ name ∈ c.names, Covers name host

section Reading

def Certificate.readNames (c : Certificate) : List Bytes :=
  if c.dnsNames = [] then (textCn c.subject.flatten).toList else c.dnsNames.take 8

def Certificate.ReadInForce (c : Certificate) (now : Nat) : Prop :=
  ∃ before after, parseTime 0 c.notBefore.tag c.notBefore.value = some before ∧
    parseTime (2 ^ 64 - 1) c.notAfter.tag c.notAfter.value = some after ∧ before ≤ now ∧ now ≤ after

inductive Certificate.Misjudged (c : Certificate) (now : Nat) (host : Bytes) : Prop
  /-- Only a dNSName after the eighth covers the host. -/
  | lateName (inForce : c.InForce now) (late : ∃ name ∈ c.dnsNames.drop 8, Covers name host)
      (unread : ∀ name ∈ c.dnsNames.take 8, ¬ Matches name host)
  /-- A wildcard matches, but only with an empty label. -/
  | emptyLabel (inForce : c.InForce now) (empty : ∃ name ∈ c.dnsNames.take 8, CoversEmpty name host)
      (uncovered : ∀ name ∈ c.dnsNames, ¬ Covers name host)
  /-- There is no dNSName, and the common name is not the one that is read, or is matched with an empty label. -/
  | commonName (inForce : c.InForce now) (noDnsName : c.dnsNames = [])
      (differ : ¬((∃ name ∈ c.commonName.toList, Covers name host) ↔
        ∃ name ∈ (textCn c.subject.flatten).toList, Matches name host))
  /-- The validity does not consist of times, but something is read from it. -/
  | dates (invalid : ¬ c.ValidDates) (read : c.ReadInForce now) (named : ∃ name ∈ c.readNames, Matches name host)

variable {c : Certificate} {now : Nat} {host : Bytes}

lemma Certificate.readInForce_iff (hvalid : c.ValidDates) (hnow : now ≠ 0) : c.ReadInForce now ↔ c.InForce now := by
  obtain ⟨⟨b, hb⟩, ⟨a, ha⟩⟩ := hvalid
  have hb' : parseTime 0 c.notBefore.tag c.notBefore.value = some b.unix.toNat := parseTime_eq hb
  have ha' : parseTime (2 ^ 64 - 1) c.notAfter.tag c.notAfter.value = some a.unix.toNat := parseTime_eq ha
  constructor
  · rintro ⟨before, after, hbefore, hafter, hle, hle'⟩
    obtain rfl := some.inj (hb'.symm.trans hbefore)
    obtain rfl := some.inj (ha'.symm.trans hafter)
    exact ⟨⟨b, hb, by omega⟩, ⟨a, ha, by omega⟩⟩
  · rintro ⟨⟨b', hdenotes, hle⟩, ⟨a', hdenotes', hle'⟩⟩
    exact ⟨_, _, parseTime_eq hdenotes, parseTime_eq hdenotes', by omega, by omega⟩

lemma Certificate.InForce.validDates (h : c.InForce now) : c.ValidDates := by
  obtain ⟨⟨b, hb, -⟩, ⟨a, ha, -⟩⟩ := h
  exact ⟨⟨b, hb⟩, ⟨a, ha⟩⟩

lemma Certificate.names_agree_iff (hinForce : c.InForce now) :
    ((∃ name ∈ c.readNames, Matches name host) ↔ ∃ name ∈ c.names, Covers name host) ↔ ¬ c.Misjudged now host := by
  rw [Certificate.readNames, Certificate.names]
  by_cases hdns : c.dnsNames = []
  · rw [if_pos hdns, if_pos hdns]
    constructor
    · intro hagree hmis
      cases hmis with
      | lateName _ late _ => simp [hdns] at late
      | emptyLabel _ empty _ => simp [hdns] at empty
      | commonName _ _ differ => exact differ hagree.symm
      | dates invalid _ _ => exact invalid hinForce.validDates
    · intro hmis
      by_contra hdiffer
      exact hmis (.commonName hinForce hdns fun h => hdiffer h.symm)
  · rw [if_neg hdns, if_neg hdns]
    constructor
    · intro hagree hmis
      cases hmis with
      | lateName _ late unread =>
        obtain ⟨name, hname, hcovers⟩ := late
        obtain ⟨name', hname', hmatches⟩ := hagree.mpr ⟨name, mem_of_mem_drop hname, hcovers⟩
        exact unread name' hname' hmatches
      | emptyLabel _ empty uncovered =>
        obtain ⟨name, hname, hempty⟩ := empty
        obtain ⟨name', hname', hcovers⟩ := hagree.mp ⟨name, hname, Or.inr hempty⟩
        exact uncovered name' hname' hcovers
      | commonName _ noDnsName _ => exact hdns noDnsName
      | dates invalid _ _ => exact invalid hinForce.validDates
    · intro hmis
      constructor
      · rintro ⟨name, hname, hcovers | hempty⟩
        · exact ⟨name, mem_of_mem_take hname, hcovers⟩
        · by_contra huncovered
          exact hmis (.emptyLabel hinForce ⟨name, hname, hempty⟩ fun n hn hc => huncovered ⟨n, hn, hc⟩)
      · rintro ⟨name, hname, hcovers⟩
        by_contra hunread
        have hlate : name ∈ c.dnsNames.drop 8 := by
          rw [← take_append_drop 8 c.dnsNames] at hname
          rcases mem_append.mp hname with hearly | hlate
          · exact absurd ⟨name, hearly, Or.inl hcovers⟩ hunread
          · exact hlate
        exact hmis (.lateName hinForce ⟨name, hlate, hcovers⟩ fun n hn hm => hunread ⟨n, hn, hm⟩)

lemma Certificate.judged_iff (hnow : now ≠ 0) :
    ((c.ReadInForce now ∧ ∃ name ∈ c.readNames, Matches name host) ↔ c.Accepts now host) ↔ ¬ c.Misjudged now host := by
  rw [Certificate.Accepts]
  by_cases hvalid : c.ValidDates
  · rw [Certificate.readInForce_iff hvalid hnow]
    by_cases hinForce : c.InForce now
    · rw [← Certificate.names_agree_iff hinForce, and_iff_right hinForce, and_iff_right hinForce]
    · refine iff_of_true ⟨fun h => absurd h.1 hinForce, fun h => absurd h.1 hinForce⟩ fun hmis => ?_
      cases hmis with
      | lateName inForce _ _ => exact hinForce inForce
      | emptyLabel inForce _ _ => exact hinForce inForce
      | commonName inForce _ _ => exact hinForce inForce
      | dates invalid _ _ => exact invalid hvalid
  · have hnot : ¬ c.InForce now := fun h => hvalid h.validDates
    constructor
    · intro hagree hmis
      cases hmis with
      | lateName inForce _ _ => exact hnot inForce
      | emptyLabel inForce _ _ => exact hnot inForce
      | commonName inForce _ _ => exact hnot inForce
      | dates _ read named => exact hnot (hagree.mp ⟨read, named⟩).1
    · intro hmis
      exact ⟨fun h => absurd (.dates hvalid h.1 h.2) hmis, fun h => absurd h.1 hnot⟩

end Reading

section Message

/-- A Certificate message of TLS 1.3 and its leaf; `rest` is the list after the leaf. -/
structure CertificateMessage where
  context : Bytes
  leaf : Certificate
  rest : Bytes
  context_lt : context.length < 2 ^ 8
  list_lt : 3 + leaf.der.length + rest.length < 2 ^ 24

def u24Bytes (n : Nat) : Bytes := [UInt8.ofNat (n / 65536), UInt8.ofNat (n / 256 % 256), UInt8.ofNat (n % 256)]

def CertificateMessage.list (m : CertificateMessage) : Bytes := u24Bytes m.leaf.der.length ++ (m.leaf.der ++ m.rest)

def CertificateMessage.bytes (m : CertificateMessage) : Bytes :=
  UInt8.ofNat m.context.length :: (m.context ++ (u24Bytes m.list.length ++ m.list))

lemma CertificateMessage.length_list (m : CertificateMessage) : m.list.length = 3 + m.leaf.der.length + m.rest.length := by
  simp only [CertificateMessage.list, u24Bytes, length_append, length_cons, length_nil]
  omega

lemma CertificateMessage.length_bytes (m : CertificateMessage) :
    m.bytes.length = 1 + m.context.length + 3 + m.list.length := by
  simp only [CertificateMessage.bytes, u24Bytes, length_append, length_cons, length_nil]
  omega

lemma CertificateMessage.fits (m : CertificateMessage) : m.bytes.length < 2 ^ 63 := by
  have hcontext := m.context_lt
  have hlist := m.list_lt
  have hlength := m.length_list
  rw [m.length_bytes]
  omega

def CertificateMessage.body (m : CertificateMessage) : Slice := ⟨m.bytes, m.fits⟩

lemma u24_eq {p tail : Bytes} {i n : Nat} (h : p.drop i = u24Bytes n ++ tail) (hfits : p.length < 2 ^ 63) (hn : n < 2 ^ 24) :
    u24 p i = some n := by
  have hlength := congrArg List.length h
  simp only [u24Bytes, length_drop, length_append, length_cons, length_nil] at hlength
  have hbyte : ∀ k, p[i + k]? = (u24Bytes n ++ tail)[k]? := by
    intro k
    rw [← h, getElem?_drop]
  have h0 : p[i]? = some (UInt8.ofNat (n / 65536)) := hbyte 0
  have h1 : p[i + 1]? = some (UInt8.ofNat (n / 256 % 256)) := hbyte 1
  have h2 : p[i + 2]? = some (UInt8.ofNat (n % 256)) := hbyte 2
  rw [u24, checked_eq_some (by omega), checked_eq_some (by omega)]
  simp only [h0, h1, h2, bind_eq_bind, bind_some]
  rw [UInt8.toNat_ofNat', UInt8.toNat_ofNat', UInt8.toNat_ofNat']
  exact congrArg some (by omega)

variable {m : CertificateMessage} {now : Nat}

lemma verifyCertChain_leaf (host : Slice) : verifyCertChain now m.body host = (parseCert m.leaf.der).bind fun info =>
    match info with
    | none => some false
    | some info => if !validityOk now info then some false else hostnameMatch info host.bytes := by
  have hfits := m.fits
  have hcontext := m.context_lt
  have hlist := m.list_lt
  have hlist' := m.length_list
  have hlength := m.length_bytes
  have hhead : (UInt8.ofNat m.context.length).toNat = m.context.length := UInt8.toNat_ofNat_of_lt' hcontext
  have hdrop : m.bytes.drop (1 + m.context.length) = u24Bytes m.list.length ++ m.list := by
    rw [CertificateMessage.bytes, ← drop_drop, drop_one, tail_cons, drop_left]
  have hdrop' : m.bytes.drop (1 + m.context.length + 3) = u24Bytes m.leaf.der.length ++ (m.leaf.der ++ m.rest) := by
    rw [← drop_drop, hdrop]
    rfl
  have hdrop'' : m.bytes.drop (1 + m.context.length + 3 + 3) = m.leaf.der ++ m.rest := by
    rw [← drop_drop, hdrop']
    rfl
  have hfirst : m.bytes[0]? = some (UInt8.ofNat m.context.length) := rfl
  rw [verifyCertChain, CertificateMessage.body]
  simp only [bind_eq_bind]
  rw [if_neg (by omega), hfirst, bind_some, hhead, if_neg (by omega), u24_eq hdrop hfits (by omega),
    bind_some, checked_eq_some (by omega), bind_some, if_neg (by omega), checked_eq_some (by omega),
    bind_some, if_neg (by omega), u24_eq hdrop' hfits (by omega), bind_some, checked_eq_some (by omega),
    bind_some, if_neg (by omega), slice_eq_some (by omega) (by omega), bind_some, hdrop'',
    Nat.add_sub_cancel_left, take_left]
  rfl

lemma verifyCertChain_iff (hnow : now ≠ 0) (host : Slice) : verifyCertChain now m.body host = some true ↔
    m.leaf.ReadInForce now ∧ ∃ name ∈ m.leaf.readNames, Matches name host.bytes := by
  have hlist := m.list_lt
  obtain ⟨before, hbefore⟩ := isSome_iff_exists.mp (parseTime_isSome (v := m.leaf.notBefore.value))
  obtain ⟨after, hafter⟩ := isSome_iff_exists.mp (parseTime_isSome (v := m.leaf.notAfter.value))
  have hnames : (if (m.leaf.info before after).san = [] then (m.leaf.info before after).cn.toList
      else (m.leaf.info before after).san) = m.leaf.readNames := by
    rw [Certificate.readNames, Certificate.info]
    by_cases hdns : m.leaf.dnsNames = []
    · rw [if_pos hdns, if_pos (by simp [hdns])]
    · rw [if_neg hdns, if_neg (by simp [hdns])]
  have hread : m.leaf.ReadInForce now ↔ before ≤ now ∧ now ≤ after := by
    constructor
    · rintro ⟨before', after', hbefore', hafter', hle⟩
      rw [some.inj (hbefore.symm.trans hbefore'), some.inj (hafter.symm.trans hafter')]
      exact hle
    · intro hle
      exact ⟨before, after, hbefore, hafter, hle⟩
  have hok : validityOk now (m.leaf.info before after) = true ↔ before ≤ now ∧ now ≤ after := by
    rw [validityOk, Bool.or_eq_true, Bool.and_eq_true, decide_eq_true_iff, decide_eq_true_iff, decide_eq_true_iff,
      or_iff_right hnow]
    rfl
  rw [verifyCertChain_leaf, parseCert_eq (by omega) hbefore hafter, bind_some, hread, ← hok, ← hnames,
    ← hostnameMatch_iff host.fits]
  cases hv : validityOk now (m.leaf.info before after) <;> simp [hv]

theorem cert_chain_judged_iff (m : CertificateMessage) (host : Slice) (now : UInt32) (hnow : now ≠ 0) :
    (verifyCertChain now.toNat m.body host = some true ↔ m.leaf.Accepts now.toNat host.bytes) ↔
      ¬ m.leaf.Misjudged now.toNat host.bytes := by
  have hnow' : now.toNat ≠ 0 := fun h => hnow (UInt32.toNat_inj.mp h)
  rw [verifyCertChain_iff hnow', Certificate.judged_iff hnow']

/-- The leaf of every Certificate message is parsed to its own name, first eight DNS names and dates. -/
theorem leaf_certificate_read (m : CertificateMessage) : ∃ notBefore notAfter,
    parseTime 0 m.leaf.notBefore.tag m.leaf.notBefore.value = some notBefore ∧
    parseTime (2 ^ 64 - 1) m.leaf.notAfter.tag m.leaf.notAfter.value = some notAfter ∧
    parseCert m.leaf.der = some (some ⟨textCn m.leaf.subject.flatten, m.leaf.dnsNames.take 8, notBefore, notAfter⟩) := by
  have hlist := m.list_lt
  obtain ⟨before, hbefore⟩ := isSome_iff_exists.mp (parseTime_isSome (v := m.leaf.notBefore.value))
  obtain ⟨after, hafter⟩ := isSome_iff_exists.mp (parseTime_isSome (v := m.leaf.notAfter.value))
  exact ⟨before, after, hbefore, hafter, parseCert_eq (by omega) hbefore hafter⟩

def timeless : Certificate where
  version := none
  serialNumber := [1]
  signature := []
  issuer := []
  notBefore := ⟨0x05, []⟩
  notAfter := ⟨0x05, []⟩
  subject := [[⟨oidCn, tagUtf8str, [97]⟩]]
  publicKey := []
  issuerId := none
  subjectId := none
  extensions := none
  signatureAlgorithm := []
  signatureValue := [0]

def timelessMessage : CertificateMessage := ⟨[], timeless, [0, 0], by decide, by decide⟩

def hostA : Slice := ⟨[97], by decide⟩

theorem cert_chain_judged_iff_timeless : (1 : UInt32) ≠ 0 ∧
    ((verifyCertChain (1 : UInt32).toNat timelessMessage.body hostA = some true ↔
        timelessMessage.leaf.Accepts (1 : UInt32).toNat hostA.bytes) ↔
      ¬ timelessMessage.leaf.Misjudged (1 : UInt32).toNat hostA.bytes) :=
  ⟨by decide, cert_chain_judged_iff timelessMessage hostA 1 (by decide)⟩

theorem timeless_accepted :
    verifyCertChain 1 timelessMessage.body hostA = some true ∧ ¬ timelessMessage.leaf.Accepts 1 hostA.bytes := by
  refine ⟨by decide, ?_⟩
  rintro ⟨⟨⟨t, hdenotes, -⟩, -⟩, -⟩
  have htag : timeless.notBefore.tag = tagUtctime ∨ timeless.notBefore.tag = tagGentime := by
    cases hdenotes
  exact absurd htag (by decide)

end Message

end Aeglos.X509
