import Mathlib.Algebra.BigOperators.Group.List.Basic
import Mathlib.Tactic.IntervalCases

/-!
# The Gregorian calendar

Days are counted from the first day of the year 1, and seconds from the beginning of 1970.
-/

namespace Calendar

def IsLeap (y : Nat) : Prop := y % 4 = 0 ∧ (y % 100 = 0 → y % 400 = 0)

instance (y : Nat) : Decidable (IsLeap y) := inferInstanceAs (Decidable (_ ∧ _))

def monthLengths (y : Nat) : List Nat := [31, if IsLeap y then 29 else 28, 31, 30, 31, 30, 31, 31, 30, 31, 30, 31]

def monthLength (y m : Nat) : Nat := (monthLengths y).getD (m - 1) 0

/-- The days before the year `y`, three leap days of 400 years being left out. -/
def daysBeforeYear (y : Int) : Int := 365 * (y - 1) + (y - 1) / 4 - (y - 1) / 100 + (y - 1) / 400

def daysBeforeMonth (y m : Nat) : Nat := ((monthLengths y).take (m - 1)).sum

structure DateTime where
  year : Nat
  month : Nat
  day : Nat
  hour : Nat
  minute : Nat
  second : Nat

structure DateTime.Valid (t : DateTime) : Prop where
  month : 1 ≤ t.month ∧ t.month ≤ 12
  day : 1 ≤ t.day ∧ t.day ≤ monthLength t.year t.month
  hour : t.hour < 24
  minute : t.minute < 60
  second : t.second < 60

def DateTime.unix (t : DateTime) : Int :=
  (daysBeforeYear t.year - daysBeforeYear 1970 + daysBeforeMonth t.year t.month + (t.day - 1)) * 86400
    + t.hour * 3600 + t.minute * 60 + t.second

lemma daysBeforeYear_succ (y : Nat) :
    daysBeforeYear (y + 1) = daysBeforeYear y + if IsLeap y then 366 else 365 := by
  unfold daysBeforeYear IsLeap
  split_ifs with h <;> omega

lemma daysBeforeYear_mono {y z : Int} (h : y ≤ z) : daysBeforeYear y ≤ daysBeforeYear z := by
  unfold daysBeforeYear
  omega

lemma daysBeforeMonth_add_le {y m : Nat} (hm : 1 ≤ m ∧ m ≤ 12) :
    daysBeforeMonth y m + monthLength y m ≤ if IsLeap y then 366 else 365 := by
  obtain ⟨h1, h12⟩ := hm
  unfold daysBeforeMonth monthLength monthLengths
  split_ifs <;> interval_cases m <;> decide

lemma exists_year (days : Nat) :
    ∃ y d : Nat, 1970 ≤ y ∧ d < (if IsLeap y then 366 else 365) ∧
      (days : Int) = daysBeforeYear y - daysBeforeYear 1970 + d := by
  induction days with
  | zero => exact ⟨1970, 0, le_rfl, by decide, by decide⟩
  | succ days ih =>
    obtain ⟨y, d, hy, hd, hdays⟩ := ih
    by_cases hnext : d + 1 < if IsLeap y then 366 else 365
    · exact ⟨y, d + 1, hy, hnext, by push_cast; omega⟩
    · have hsucc := daysBeforeYear_succ y
      refine ⟨y + 1, 0, by omega, by split_ifs <;> decide, ?_⟩
      push_cast
      split_ifs at hd hnext hsucc <;> omega

lemma exists_take {l : List Nat} {n : Nat} (h : n < l.sum) :
    ∃ k d, k < l.length ∧ d < l.getD k 0 ∧ n = (l.take k).sum + d := by
  induction l generalizing n with
  | nil => exact absurd h (Nat.not_lt_zero n)
  | cons a l ih =>
    rw [List.sum_cons] at h
    by_cases hn : n < a
    · exact ⟨0, n, Nat.zero_lt_succ _, hn, (Nat.zero_add n).symm⟩
    · obtain ⟨k, d, hk, hd, hsum⟩ := ih (n := n - a) (by omega)
      exact ⟨k + 1, d, Nat.succ_lt_succ hk, hd, by rw [List.take_succ_cons, List.sum_cons]; omega⟩

lemma sum_monthLengths (y : Nat) : (monthLengths y).sum = if IsLeap y then 366 else 365 := by
  unfold monthLengths
  split_ifs <;> rfl

/-- Every second since 1970 belongs to a date. -/
lemma exists_dateTime (seconds : Nat) : ∃ t : DateTime, t.Valid ∧ 1970 ≤ t.year ∧ t.unix = seconds := by
  obtain ⟨y, days, hy, hdays, hyear⟩ := exists_year (seconds / 86400)
  rw [← sum_monthLengths] at hdays
  obtain ⟨k, d, hk, hd, hmonth⟩ := exists_take hdays
  have hk : k < 12 := hk
  refine ⟨⟨y, k + 1, d + 1, seconds / 3600 % 24, seconds / 60 % 60, seconds % 60⟩, ⟨?_, ⟨?_, hd⟩, ?_, ?_, ?_⟩, hy, ?_⟩
  · exact ⟨Nat.le_add_left 1 k, hk⟩
  · exact Nat.le_add_left 1 d
  · exact Nat.mod_lt _ (by decide)
  · exact Nat.mod_lt _ (by decide)
  · exact Nat.mod_lt _ (by decide)
  · simp only [DateTime.unix, daysBeforeMonth, Nat.add_sub_cancel]
    generalize ((monthLengths y).take k).sum = before at hmonth ⊢
    push_cast at hyear ⊢
    omega

lemma DateTime.Valid.le_unix {t : DateTime} (ht : t.Valid) :
    (daysBeforeYear t.year - daysBeforeYear 1970) * 86400 ≤ t.unix := by
  have hday := ht.day
  unfold DateTime.unix
  omega

lemma DateTime.Valid.unix_lt {t : DateTime} (ht : t.Valid) {y : Int} (hyear : t.year < y) :
    t.unix < (daysBeforeYear y - daysBeforeYear 1970) * 86400 := by
  have hday := ht.day
  have hhour := ht.hour
  have hminute := ht.minute
  have hsecond := ht.second
  have hin := daysBeforeMonth_add_le (y := t.year) ht.month
  have hnext := daysBeforeYear_succ t.year
  have hmono : daysBeforeYear (t.year + 1) ≤ daysBeforeYear y := daysBeforeYear_mono (by omega)
  have hdays : daysBeforeYear t.year + daysBeforeMonth t.year t.month + (t.day - 1) ≤ daysBeforeYear y - 1 := by
    split_ifs at hin hnext <;> omega
  unfold DateTime.unix
  omega

lemma DateTime.unix_neg {t : DateTime} (ht : t.Valid) (hyear : t.year < 1970) : t.unix < 0 := by
  have hlt := ht.unix_lt (y := 1970) (by omega)
  rwa [Int.sub_self, Int.zero_mul] at hlt

end Calendar
