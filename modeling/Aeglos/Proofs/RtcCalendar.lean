import Aeglos.Services.Engine
import Aeglos.Proofs.CertificateChecks

/-!
# The two calendar conversions

`rtc_decompose` of the inference engine and `ymd_hms_to_unix` of the certificate parser are inverse
to each other.
-/

namespace Aeglos.Services

open Calendar X509

lemma rtcYear_eq {y days d : Nat} (n : Nat) (hd : d < if IsLeap (y + n) then 366 else 365)
    (hdays : (days : Int) = daysBeforeYear (y + n : Nat) - daysBeforeYear y + d) : rtcYear y days = (y + n, d) := by
  induction n generalizing y days with
  | zero =>
    obtain rfl : days = d := by simpa using hdays
    rw [rtcYear]
    simp only [isLeap_iff]
    exact if_pos hd
  | succ n ih =>
    have hsucc := daysBeforeYear_succ y
    have hmono : daysBeforeYear (y + 1 : Nat) ≤ daysBeforeYear (y + (n + 1) : Nat) := daysBeforeYear_mono (by omega)
    have hshift : y + (n + 1) = y + 1 + n := by omega
    rw [hshift] at hd hdays hmono ⊢
    push_cast at hsucc hmono hdays
    rw [rtcYear]
    simp only [isLeap_iff]
    rw [if_neg (by split_ifs at hsucc ⊢ <;> omega)]
    refine ih hd ?_
    push_cast
    split_ifs at hsucc ⊢ <;> omega

lemma rtcMonth_eq {dims : List Nat} {k d : Nat} (hd : d < dims.getD k 0) (i : Nat) :
    rtcMonth dims i ((dims.take k).sum + d) = (i + k + 1, d + 1) := by
  induction dims generalizing k i with
  | nil => exact absurd hd (by simp)
  | cons a dims ih =>
    cases k with
    | zero =>
      rw [rtcMonth, List.take_zero, List.sum_nil, Nat.zero_add]
      exact if_pos hd
    | succ k =>
      have hrest : a + (dims.take k).sum + d - a = (dims.take k).sum + d := by omega
      rw [rtcMonth, List.take_succ_cons, List.sum_cons, if_neg (by omega), hrest, ih hd, Nat.add_right_comm i]
      rfl

lemma rtcDecompose_unix {t : DateTime} (ht : t.Valid) (hyear : 1970 ≤ t.year) {epoch : BitVec 32}
    (hepoch : t.unix = epoch.toNat) : rtcDecompose epoch = t := by
  obtain ⟨year, month, day, hour, minute, second⟩ := t
  obtain ⟨hmonth, hday, hhour, hminute, hsecond⟩ := ht
  obtain ⟨n, rfl⟩ := Nat.exists_eq_add_of_le hyear
  simp only [DateTime.unix] at *
  have hin := daysBeforeMonth_add_le (y := 1970 + n) hmonth
  have hdays : rtcYear 1970 (epoch.toNat / 86400) = (1970 + n, daysBeforeMonth (1970 + n) month + (day - 1)) := by
    refine rtcYear_eq n ?_ ?_
    · omega
    · push_cast at hepoch ⊢
      omega
  have hin : day - 1 < (monthLengths (1970 + n)).getD (month - 1) 0 := Nat.lt_of_lt_of_le (by omega) hday.2
  simp only [rtcDecompose, hdays, isLeap_iff]
  change DateTime.mk _ (rtcMonth (monthLengths (1970 + n)) 0 _).1 (rtcMonth (monthLengths (1970 + n)) 0 _).2 _ _ _ = _
  rw [daysBeforeMonth, rtcMonth_eq hin 0]
  congr 1 <;> omega

/-- Decomposing a time and putting it together again gives it back, and the other way round. -/
theorem calendar_conversions_inverse :
    (∀ epoch : BitVec 32, (rtcDecompose epoch).Valid ∧
      ymdHmsToUnix (rtcDecompose epoch).year (rtcDecompose epoch).month (rtcDecompose epoch).day
        (rtcDecompose epoch).hour (rtcDecompose epoch).minute (rtcDecompose epoch).second = some epoch.toNat) ∧
    ∀ t : DateTime, t.Valid → 1970 ≤ t.year → t.year ≤ 2105 →
      ∃ e < 2 ^ 32, ymdHmsToUnix t.year t.month t.day t.hour t.minute t.second = some e ∧
        rtcDecompose (BitVec.ofNat 32 e) = t := by
  refine ⟨fun epoch => ?_, fun t ht hyear hyear' => ?_⟩
  · obtain ⟨t, ht, hyear, hunix⟩ := exists_dateTime epoch.toNat
    have hlt := epoch.isLt
    have hsmall : t.year < 10000 := by
      by_contra hbig
      have hle := ht.le_unix
      have hmono : daysBeforeYear 10000 ≤ daysBeforeYear t.year := daysBeforeYear_mono (by omega)
      have hfar : daysBeforeYear 10000 - daysBeforeYear 1970 = 2932897 := by decide
      omega
    rw [rtcDecompose_unix ht hyear hunix, ymdHmsToUnix_eq ht hsmall, hunix]
    exact ⟨ht, rfl⟩
  · have hle := ht.le_unix
    have hlt := ht.unix_lt (y := 2106) (by omega)
    have hmono : daysBeforeYear 1970 ≤ daysBeforeYear t.year := daysBeforeYear_mono (by omega)
    have hend : daysBeforeYear 2106 - daysBeforeYear 1970 = 49673 := by decide
    refine ⟨t.unix.toNat, by omega, ymdHmsToUnix_eq ht (by omega), rtcDecompose_unix ht hyear ?_⟩
    rw [BitVec.toNat_ofNat, Nat.mod_eq_of_lt (by omega)]
    omega

end Aeglos.Services
