import Mathlib.Algebra.Order.Ring.Int
import Mathlib.Data.Nat.Notation
import Mathlib.Tactic.IntervalCases
import Mathlib.Tactic.SplitIfs

/-!
# The Gregorian calendar

Day numbers, counted from the first of January 1970, and the civil dates of the Gregorian calendar
extended in both directions. The conversions count years from March, so that a leap day is the last
day of its year, and months from March have lengths that repeat; every 400 years have the same days.

A day is placed in its year of the 400 by a formula. It is monotone, so it is enough to evaluate it
at the first and the last day of each of the 400 years.

## Main definitions

* `Gregorian.IsDate` — the civil dates
* `Gregorian.daysFromCivil`, `Gregorian.civilFromDays` — day numbers of dates, and back
* `Gregorian.Before` — the order of dates by year, month and day

## Main results

* `Gregorian.isDate_civilFromDays`, `Gregorian.daysFromCivil_civilFromDays`,
  `Gregorian.civilFromDays_daysFromCivil` — days and dates correspond
* `Gregorian.civilFromDays_before` — and in order
-/

namespace Gregorian

def isLeap (year : ℤ) : Bool := year % 4 = 0 && (year % 100 ≠ 0 || year % 400 = 0)

def daysInMonth (year : ℤ) : ℕ → ℕ
  | 2 => if isLeap year then 29 else 28
  | 4 | 6 | 9 | 11 => 30
  | _ => 31

/-- Year, month and day are a date of the calendar. -/
def IsDate (year : ℤ) (month day : ℕ) : Prop :=
  1 ≤ month ∧ month ≤ 12 ∧ 1 ≤ day ∧ day ≤ daysInMonth year month

instance (year : ℤ) (month day : ℕ) : Decidable (IsDate year month day) :=
  inferInstanceAs (Decidable (_ ∧ _ ∧ _ ∧ _))

/-- The number of a day. -/
def daysFromCivil (year : ℤ) (month day : ℕ) : ℤ :=
  let y := if month ≤ 2 then year - 1 else year
  let yoe := (y % 400).toNat
  let mp := if month ≤ 2 then month + 9 else month - 3
  let doy := (153 * mp + 2) / 5 + day - 1
  y / 400 * 146097 + (365 * yoe + yoe / 4 - yoe / 100 + doy : ℕ) - 719468

/-- The civil date of a day number counted from the epoch, as year, month and day. -/
def civilFromDays (days : ℤ) : ℤ × ℕ × ℕ :=
  let z := days + 719468
  let era := z / 146097
  let doe := (z % 146097).toNat
  let yoe := (doe - doe / 1460 + doe / 36524 - doe / 146096) / 365
  let doy := doe - (365 * yoe + yoe / 4 - yoe / 100)
  let mp := (5 * doy + 2) / 153
  let day := doy - (153 * mp + 2) / 5 + 1
  let month := if mp < 10 then mp + 3 else mp - 9
  (yoe + era * 400 + (if month ≤ 2 then 1 else 0), month, day)

/-- An earlier date. -/
def Before (a b : ℤ × ℕ × ℕ) : Prop :=
  a.1 < b.1 ∨ a.1 = b.1 ∧ (a.2.1 < b.2.1 ∨ a.2.1 = b.2.1 ∧ a.2.2 < b.2.2)

theorem Before.trans {a b c : ℤ × ℕ × ℕ} (h : Before a b) (h' : Before b c) : Before a c := by
  unfold Before at *
  omega

/-! ### Years of an era -/

/-- The length of a year of the 400 that starts in March. -/
def lengthOf (yoe : ℕ) : ℕ := if isLeap (yoe + 1) then 366 else 365

/-- The first day of a year of the 400. -/
def startOf : ℕ → ℕ
  | 0 => 0
  | n + 1 => startOf n + lengthOf n

/-- The year of the 400 that a day is in. -/
def yearOfEra (doe : ℕ) : ℕ := (doe - doe / 1460 + doe / 36524 - doe / 146096) / 365

theorem yearOfEra_mono {a b : ℕ} (h : a ≤ b) : yearOfEra a ≤ yearOfEra b := by
  induction h with
  | refl => exact le_refl _
  | @step b _ ih =>
    refine ih.trans (Nat.div_le_div_right ?_)
    show b - b / 1460 + b / 36524 - b / 146096 ≤
      (b + 1) - (b + 1) / 1460 + (b + 1) / 36524 - (b + 1) / 146096
    omega

theorem startOf_eq : ∀ n < 400, startOf n = 365 * n + n / 4 - n / 100 := by decide +kernel

theorem startOf_end : startOf 400 = 146097 := by decide +kernel

theorem yearOfEra_ends : ∀ n < 400,
    yearOfEra (startOf n) = n ∧ yearOfEra (startOf n + (lengthOf n - 1)) = n := by decide +kernel

theorem yearOfEra_startOf {yoe doy : ℕ} (hyoe : yoe < 400) (hdoy : doy < lengthOf yoe) :
    yearOfEra (startOf yoe + doy) = yoe := by
  obtain ⟨hfirst, hlast⟩ := yearOfEra_ends yoe hyoe
  have hlow : yearOfEra (startOf yoe) ≤ yearOfEra (startOf yoe + doy) := yearOfEra_mono (by omega)
  have hhigh : yearOfEra (startOf yoe + doy) ≤ yearOfEra (startOf yoe + (lengthOf yoe - 1)) :=
    yearOfEra_mono (by omega)
  omega

theorem exists_year {n doe : ℕ} (h : doe < startOf n) :
    ∃ yoe doy, yoe < n ∧ doy < lengthOf yoe ∧ doe = startOf yoe + doy := by
  induction n with
  | zero => cases h
  | succ n ih =>
    by_cases hlt : doe < startOf n
    · obtain ⟨yoe, doy, hyoe, hrest⟩ := ih hlt
      exact ⟨yoe, doy, Nat.lt_succ_of_lt hyoe, hrest⟩
    · rw [startOf] at h
      exact ⟨n, doe - startOf n, Nat.lt_succ_self n, by omega, by omega⟩

theorem lengthOf_le (yoe : ℕ) : lengthOf yoe ≤ 366 := by
  unfold lengthOf
  split_ifs <;> omega

theorem startOf_mono {a b : ℕ} (h : a < b) : startOf a + lengthOf a ≤ startOf b := by
  induction h with
  | refl => exact le_refl _
  | @step b _ ih =>
    rw [startOf]
    omega

/-! ### Days of a year -/

/-- The date of a day of a year that starts in March. -/
def fromMarch (year : ℤ) (doy : ℕ) : ℤ × ℕ × ℕ :=
  let mp := (5 * doy + 2) / 153
  let month := if mp < 10 then mp + 3 else mp - 9
  (year + (if month ≤ 2 then 1 else 0), month, doy - (153 * mp + 2) / 5 + 1)

/-- The months from March, and the days in them. -/
theorem month_cases : ∀ doy < 366, (5 * doy + 2) / 153 < 12 ∧
    (153 * ((5 * doy + 2) / 153) + 2) / 5 ≤ doy ∧
    ((5 * doy + 2) / 153 = 11 → doy < 365 → doy - (153 * ((5 * doy + 2) / 153) + 2) / 5 + 1 ≤ 28) ∧
    doy - (153 * ((5 * doy + 2) / 153) + 2) / 5 + 1 ≤
      [31, 30, 31, 30, 31, 31, 30, 31, 30, 31, 31, 29].getD ((5 * doy + 2) / 153) 0 := by
  decide +kernel

theorem day_cases : ∀ mp < 12, ∀ day < [31, 30, 31, 30, 31, 31, 30, 31, 30, 31, 31, 29].getD mp 0,
    (5 * ((153 * mp + 2) / 5 + day) + 2) / 153 = mp ∧ (153 * mp + 2) / 5 + day < 366 ∧
      (mp < 11 ∨ day < 28 → (153 * mp + 2) / 5 + day < 365) := by
  decide

theorem isLeap_era (era year : ℤ) : isLeap (era * 400 + year) = isLeap year := by
  have h4 : (era * 400 + year) % 4 = year % 4 := by omega
  have h100 : (era * 400 + year) % 100 = year % 100 := by omega
  have h400 : (era * 400 + year) % 400 = year % 400 := by omega
  rw [isLeap, isLeap, h4, h100, h400]

theorem lengthOf_era (era : ℤ) (yoe : ℕ) :
    lengthOf yoe = if isLeap (era * 400 + yoe + 1) then 366 else 365 := by
  rw [lengthOf, add_assoc, isLeap_era]

/-! ### Days and dates -/

section

variable {era : ℤ} {yoe doy : ℕ}

theorem civilFromDays_eq (hyoe : yoe < 400) (hdoy : doy < lengthOf yoe) :
    civilFromDays (era * 146097 + (startOf yoe + doy : ℕ) - 719468) =
      fromMarch (era * 400 + yoe) doy := by
  have hend : startOf yoe + doy < 146097 := by
    have hlast : startOf yoe + lengthOf yoe ≤ startOf 400 := startOf_mono hyoe
    rw [startOf_end] at hlast
    omega
  have hyear : (startOf yoe + doy - (startOf yoe + doy) / 1460 + (startOf yoe + doy) / 36524 -
      (startOf yoe + doy) / 146096) / 365 = yoe := yearOfEra_startOf hyoe hdoy
  have hday : startOf yoe + doy - (365 * yoe + yoe / 4 - yoe / 100) = doy := by
    rw [← startOf_eq yoe hyoe]
    omega
  have hera : (era * 146097 + (startOf yoe + doy : ℕ) - 719468 + 719468) / 146097 = era := by omega
  have hdoe : ((era * 146097 + (startOf yoe + doy : ℕ) - 719468 + 719468) % 146097).toNat =
      startOf yoe + doy := by omega
  unfold civilFromDays fromMarch
  dsimp only
  rw [hera, hdoe, hyear, hday, add_comm (yoe : ℤ)]

/-- Every day is one of a year of an era. -/
theorem exists_day (days : ℤ) : ∃ (era : ℤ) (yoe doy : ℕ), yoe < 400 ∧ doy < lengthOf yoe ∧
    days = era * 146097 + (startOf yoe + doy : ℕ) - 719468 := by
  obtain ⟨yoe, doy, hyoe, hdoy, hdoe⟩ :=
    @exists_year 400 ((days + 719468) % 146097).toNat (by
      rw [startOf_end]
      omega)
  refine ⟨(days + 719468) / 146097, yoe, doy, hyoe, hdoy, ?_⟩
  rw [← hdoe]
  omega

/-- The days of a year have dates, the leap day only in leap years. -/
theorem isDate_fromMarch (year : ℤ) (hdoy : doy < if isLeap (year + 1) then 366 else 365) :
    IsDate (fromMarch year doy).1 (fromMarch year doy).2.1 (fromMarch year doy).2.2 := by
  have hlt : doy < 366 := by
    split_ifs at hdoy <;> omega
  obtain ⟨hmp, -, hfeb, hlen⟩ := month_cases doy hlt
  unfold fromMarch IsDate
  dsimp only
  have hpos : 1 ≤ doy - (153 * ((5 * doy + 2) / 153) + 2) / 5 + 1 := Nat.succ_pos _
  generalize doy - (153 * ((5 * doy + 2) / 153) + 2) / 5 + 1 = day at *
  generalize (5 * doy + 2) / 153 = mp at *
  by_cases hlast : mp = 11
  · subst hlast
    refine ⟨by decide, by decide, hpos, ?_⟩
    change day ≤ if isLeap (year + 1) then 29 else 28
    split_ifs at hdoy ⊢ with hleap
    · exact hlen
    · exact hfeb rfl hdoy
  · have hmp : mp < 11 := by omega
    clear hfeb hlast hdoy
    interval_cases mp
    all_goals exact ⟨by decide, by decide, hpos, hlen⟩

/-- The months from March. -/
theorem march_cases (year : ℤ) {month : ℕ} (hfirst : 1 ≤ month) (hlast : month ≤ 12) :
    ∃ mp, mp = (if month ≤ 2 then month + 9 else month - 3) ∧ mp < 12 ∧
      (if mp < 10 then mp + 3 else mp - 9) = month ∧
      daysInMonth year month ≤
        [31, 30, 31, 30, 31, 31, 30, 31, 30, 31, 31, 29].getD mp 0 ∧
      (mp = 11 → daysInMonth year month = if isLeap year then 29 else 28) := by
  refine ⟨_, rfl, ?_⟩
  by_cases hfeb : month = 2
  · subst hfeb
    refine ⟨by decide, rfl, ?_, fun _ => rfl⟩
    change (if isLeap year then 29 else 28) ≤ 29
    split_ifs <;> decide
  · interval_cases month
    case «2» => exact absurd rfl hfeb
    all_goals exact ⟨by decide, rfl, le_refl _, fun h => absurd h (by decide)⟩

/-- Every date is one of a year that starts in March. -/
theorem exists_fromMarch {year : ℤ} {month day : ℕ} (h : IsDate year month day) :
    ∃ y mp doy, y = (if month ≤ 2 then year - 1 else year) ∧
      mp = (if month ≤ 2 then month + 9 else month - 3) ∧ doy = (153 * mp + 2) / 5 + day - 1 ∧
      (doy < if isLeap (y + 1) then 366 else 365) ∧ fromMarch y doy = (year, month, day) := by
  obtain ⟨hfirst, hlast, hpos, hlen⟩ := h
  obtain ⟨mp, hmp, hlt, hmonth, hle, hfeb⟩ := march_cases year hfirst hlast
  obtain ⟨hback, hdoy, hshort⟩ := day_cases mp hlt (day - 1) (by omega)
  have hsum : (153 * mp + 2) / 5 + day - 1 = (153 * mp + 2) / 5 + (day - 1) := by omega
  refine ⟨_, mp, _, rfl, hmp, rfl, ?_, ?_⟩
  · rw [hsum]
    by_cases hm : mp = 11
    · subst hm
      have hsmall : month ≤ 2 := hmonth.symm.le
      rw [if_pos hsmall, sub_add_cancel]
      split_ifs with hleap
      · exact hdoy
      · have hdays := hfeb rfl
        rw [if_neg hleap] at hdays
        exact hshort (Or.inr (by omega))
    · have hlow := hshort (Or.inl (by omega))
      split_ifs <;> omega
  · rw [hsum]
    unfold fromMarch
    dsimp only
    rw [hback, hmonth]
    refine Prod.ext ?_ (Prod.ext rfl (by dsimp only; omega))
    dsimp only
    split_ifs <;> omega

/-- A date is numbered by its era, its year and its day. -/
theorem daysFromCivil_fromMarch (hyoe : yoe < 400) (hdoy : doy < lengthOf yoe) :
    daysFromCivil (fromMarch (era * 400 + yoe) doy).1 (fromMarch (era * 400 + yoe) doy).2.1
        (fromMarch (era * 400 + yoe) doy).2.2 =
      era * 146097 + (startOf yoe + doy : ℕ) - 719468 := by
  obtain ⟨hmp, hle, -⟩ := month_cases doy (hdoy.trans_le (lengthOf_le yoe))
  have hera : (era * 400 + yoe) / 400 = era := by omega
  have hyear : ((era * 400 + (yoe : ℤ)) % 400).toNat = yoe := by omega
  have hday : (153 * ((5 * doy + 2) / 153) + 2) / 5 +
      (doy - (153 * ((5 * doy + 2) / 153) + 2) / 5 + 1) - 1 = doy := by omega
  by_cases hten : (5 * doy + 2) / 153 < 10
  · have hmonth : ¬(5 * doy + 2) / 153 + 3 ≤ 2 := by omega
    have hdate : fromMarch (era * 400 + yoe) doy = (era * 400 + yoe, (5 * doy + 2) / 153 + 3,
        doy - (153 * ((5 * doy + 2) / 153) + 2) / 5 + 1) := by
      simp only [fromMarch, if_pos hten, if_neg hmonth, add_zero]
    rw [hdate]
    unfold daysFromCivil
    dsimp only
    rw [if_neg hmonth, if_neg hmonth, hera, hyear, Nat.add_sub_cancel, hday, ← startOf_eq yoe hyoe]
  · have hmonth : (5 * doy + 2) / 153 - 9 ≤ 2 := by omega
    have hdate : fromMarch (era * 400 + yoe) doy = (era * 400 + yoe + 1, (5 * doy + 2) / 153 - 9,
        doy - (153 * ((5 * doy + 2) / 153) + 2) / 5 + 1) := by
      simp only [fromMarch, if_neg hten, if_pos hmonth]
    rw [hdate]
    unfold daysFromCivil
    dsimp only
    rw [if_pos hmonth, if_pos hmonth, add_sub_cancel_right, hera, hyear,
      Nat.sub_add_cancel (by omega), hday, ← startOf_eq yoe hyoe]

/-- **Every day number has a date.** -/
theorem isDate_civilFromDays (days : ℤ) :
    IsDate (civilFromDays days).1 (civilFromDays days).2.1 (civilFromDays days).2.2 := by
  obtain ⟨era, yoe, doy, hyoe, hdoy, rfl⟩ := exists_day days
  rw [civilFromDays_eq hyoe hdoy]
  exact isDate_fromMarch _ (lengthOf_era era yoe ▸ hdoy)

/-- **The date of a day has its number.** -/
theorem daysFromCivil_civilFromDays (days : ℤ) :
    daysFromCivil (civilFromDays days).1 (civilFromDays days).2.1 (civilFromDays days).2.2 =
      days := by
  obtain ⟨era, yoe, doy, hyoe, hdoy, rfl⟩ := exists_day days
  rw [civilFromDays_eq hyoe hdoy]
  exact daysFromCivil_fromMarch hyoe hdoy

/-- **The number of a date is that of its day.** -/
theorem civilFromDays_daysFromCivil {year : ℤ} {month day : ℕ} (h : IsDate year month day) :
    civilFromDays (daysFromCivil year month day) = (year, month, day) := by
  obtain ⟨y, mp, doy, -, -, -, hdoy, hdate⟩ := exists_fromMarch h
  have hparts : y / 400 * 400 + ((y % 400).toNat : ℤ) = y := by omega
  have hyoe : (y % 400).toNat < 400 := by omega
  have hlength : doy < lengthOf (y % 400).toNat := by
    rw [lengthOf_era (y / 400), hparts]
    exact hdoy
  have hnumber := @daysFromCivil_fromMarch (y / 400) _ _ hyoe hlength
  rw [hparts, hdate] at hnumber
  rw [hnumber, civilFromDays_eq hyoe hlength, hparts, hdate]

/-- Within a year the dates are in the order of the days. -/
theorem fromMarch_before (year : ℤ) {a b : ℕ} (h : a < b) (hb : b < 366) :
    Before (fromMarch year a) (fromMarch year b) := by
  have next : ∀ doy < 365,
      (fromMarch 0 doy).1 < (fromMarch 0 (doy + 1)).1 ∨
        (fromMarch 0 doy).1 = (fromMarch 0 (doy + 1)).1 ∧
          ((fromMarch 0 doy).2.1 < (fromMarch 0 (doy + 1)).2.1 ∨
            (fromMarch 0 doy).2.1 = (fromMarch 0 (doy + 1)).2.1 ∧
              (fromMarch 0 doy).2.2 < (fromMarch 0 (doy + 1)).2.2) := by
    decide +kernel
  have shift : ∀ doy, fromMarch year doy =
      (year + (fromMarch 0 doy).1, (fromMarch 0 doy).2.1, (fromMarch 0 doy).2.2) := by
    intro doy
    simp [fromMarch]
  have step : ∀ doy < 365, Before (fromMarch year doy) (fromMarch year (doy + 1)) := by
    intro doy hdoy
    have := next doy hdoy
    rw [shift, shift (doy + 1)]
    unfold Before
    dsimp only
    omega
  induction h with
  | refl => exact step a (by omega)
  | @step b _ ih => exact (ih (by omega)).trans (step b (by omega))

/-- The dates of a year that starts in March are in it and in the first months of the next. -/
theorem fromMarch_year (year : ℤ) (doy : ℕ) :
    (fromMarch year doy).1 = year ∧ 2 < (fromMarch year doy).2.1 ∨
      (fromMarch year doy).1 = year + 1 ∧ (fromMarch year doy).2.1 ≤ 2 := by
  unfold fromMarch
  dsimp only
  split_ifs with h1 h2 h2 <;> omega

/-- **Dates are in the order of their days.** -/
theorem civilFromDays_before {a b : ℤ} (h : a < b) :
    Before (civilFromDays a) (civilFromDays b) := by
  obtain ⟨era, yoe, doy, hyoe, hdoy, rfl⟩ := exists_day a
  obtain ⟨era', yoe', doy', hyoe', hdoy', rfl⟩ := exists_day b
  rw [civilFromDays_eq hyoe hdoy, civilFromDays_eq hyoe' hdoy']
  have hend : startOf yoe + lengthOf yoe ≤ 146097 := startOf_end ▸ startOf_mono hyoe
  have hend' : startOf yoe' + lengthOf yoe' ≤ 146097 := startOf_end ▸ startOf_mono hyoe'
  have hera : era ≤ era' := by omega
  by_cases hyear : era * 400 + yoe < era' * 400 + yoe'
  · have hfirst := fromMarch_year (era * 400 + yoe) doy
    have hsecond := fromMarch_year (era' * 400 + yoe') doy'
    unfold Before
    omega
  · -- the same year, since a later one would start after the earlier day
    have hsame : era' = era ∧ yoe' ≤ yoe := by omega
    obtain ⟨rfl, hle⟩ := hsame
    obtain rfl : yoe' = yoe := by
      refine hle.antisymm (not_lt.mp fun hlt => ?_)
      have := startOf_mono hlt
      omega
    exact fromMarch_before _ (by omega) (hdoy'.trans_le (lengthOf_le yoe'))

/-- Years do not go back. -/
theorem civilFromDays_year_mono {a b : ℤ} (h : a ≤ b) :
    (civilFromDays a).1 ≤ (civilFromDays b).1 := by
  obtain rfl | hlt := h.eq_or_lt
  · exact le_refl _
  · obtain h | ⟨h, -⟩ := civilFromDays_before hlt
    · exact h.le
    · exact h.le

/-- The days of the years -9999 to 9999. -/
theorem year_range {days : ℤ} (hlow : -4371587 ≤ days) (hhigh : days ≤ 2932896) :
    -9999 ≤ (civilFromDays days).1 ∧ (civilFromDays days).1 ≤ 9999 := by
  have hfirst : (civilFromDays (-4371587)).1 = -9999 := by decide
  have hlast : (civilFromDays 2932896).1 = 9999 := by decide
  exact ⟨hfirst ▸ civilFromDays_year_mono hlow, hlast ▸ civilFromDays_year_mono hhigh⟩

end

end Gregorian
