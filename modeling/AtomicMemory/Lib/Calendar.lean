import Mathlib.Data.List.Basic
import Mathlib.Order.Basic
import Mathlib.Algebra.Order.Group.Nat

-- Years 1 to 9999, as in Python's `datetime`. Dates are counted in days and datetimes in
-- microseconds from the beginning of year 1.

namespace Calendar

def isLeap (y : ℕ) : Bool := y % 4 = 0 ∧ (y % 100 ≠ 0 ∨ y % 400 = 0)

def daysInMonth (leap : Bool) : ℕ → ℕ
  | 1 | 3 | 5 | 7 | 8 | 10 | 12 => 31
  | 4 | 6 | 9 | 11 => 30
  | 2 => if leap then 29 else 28
  | _ => 0

def daysBeforeMonth (leap : Bool) (m : ℕ) : ℕ :=
  (List.range (m - 1)).foldl (fun days i => days + daysInMonth leap (i + 1)) 0

def daysBeforeYear (y : ℕ) : ℕ := 365 * (y - 1) + (y - 1) / 4 - (y - 1) / 100 + (y - 1) / 400

/-- `datetime.date.max.toordinal()`. -/
def dayCount : ℕ := 3652059

structure Date where
  year : ℕ
  month : ℕ
  day : ℕ
  year_pos : 1 ≤ year
  year_le : year ≤ 9999
  month_pos : 1 ≤ month
  month_le : month ≤ 12
  day_pos : 1 ≤ day
  day_le : day ≤ daysInMonth (isLeap year) month
  deriving DecidableEq

theorem Date.day_le_31 (d : Date) : d.day ≤ 31 := by
  have hmonths : ∀ leap : Bool, ∀ m ≤ 12, daysInMonth leap m ≤ 31 := by decide
  exact d.day_le.trans (hmonths _ _ d.month_le)

def Date.dayNumber (d : Date) : ℕ :=
  daysBeforeYear d.year + daysBeforeMonth (isLeap d.year) d.month + (d.day - 1)

/-- The year of a day number: 400-, 100- and 4-year cycles and the year in the last one. -/
def yearOf (n : ℕ) : ℕ :=
  400 * (n / 146097) + 100 * min 3 (n % 146097 / 36524) +
    4 * ((n % 146097 - 36524 * min 3 (n % 146097 / 36524)) / 1461) +
    min 3 ((n % 146097 - 36524 * min 3 (n % 146097 / 36524)) % 1461 / 365) + 1

def dayOfYear (n : ℕ) : ℕ := n - daysBeforeYear (yearOf n)

def monthOf (leap : Bool) (doy : ℕ) : ℕ :=
  ((List.range 12).filter fun i => daysBeforeMonth leap (i + 1) ≤ doy).length

theorem isLeap_iff (y : ℕ) :
    isLeap y = true ↔ y % 4 = 0 ∧ (y % 100 ≠ 0 ∨ y % 400 = 0) := by
  simp [isLeap]

theorem daysBeforeYear_le {y z : ℕ} (h : y ≤ z) : daysBeforeYear y ≤ daysBeforeYear z := by
  induction z, h using Nat.le_induction with
  | base => exact Nat.le_refl _
  | succ z hz ih =>
    refine ih.trans ?_
    unfold daysBeforeYear
    omega

theorem yearOf_spec (n : ℕ) :
    daysBeforeYear (yearOf n) ≤ n ∧
      n < daysBeforeYear (yearOf n) + 365 + (if isLeap (yearOf n) then 1 else 0) := by
  obtain ⟨a, b, c, d, ha, hb, hc, hd, hn⟩ :
      ∃ a b c d, yearOf n = 400 * a + 100 * b + 4 * c + d + 1 ∧ b ≤ 3 ∧ c ≤ 24 ∧ d ≤ 3 ∧
        146097 * a + 36524 * b + 1461 * c + 365 * d ≤ n ∧
        (n < 146097 * a + 36524 * b + 1461 * c + 365 * d + 365 ∨
          (d = 3 ∧ (c < 24 ∨ b = 3) ∧
            n < 146097 * a + 36524 * b + 1461 * c + 365 * d + 366)) := by
    refine ⟨n / 146097, min 3 (n % 146097 / 36524),
      (n % 146097 - 36524 * min 3 (n % 146097 / 36524)) / 1461,
      min 3 ((n % 146097 - 36524 * min 3 (n % 146097 / 36524)) % 1461 / 365), rfl,
      Nat.min_le_left _ _, ?_, Nat.min_le_left _ _, ?_⟩ <;> omega
  have hbefore : daysBeforeYear (yearOf n) =
      146097 * a + 36524 * b + 1461 * c + 365 * d := by
    unfold daysBeforeYear
    omega
  rw [hbefore]
  refine ⟨hn.1, ?_⟩
  rcases hn.2 with h | ⟨rfl, hcb, h⟩
  · omega
  · have hleap : isLeap (yearOf n) = true := by
      rw [isLeap_iff]
      omega
    rw [hleap]
    exact h

theorem monthOf_spec : ∀ leap : Bool, ∀ doy < 365 + (if leap then 1 else 0),
    1 ≤ monthOf leap doy ∧ monthOf leap doy ≤ 12 ∧
      daysBeforeMonth leap (monthOf leap doy) ≤ doy ∧
      doy - daysBeforeMonth leap (monthOf leap doy) < daysInMonth leap (monthOf leap doy) := by
  decide +kernel

theorem dayOfYear_lt (n : ℕ) :
    dayOfYear n < 365 + (if isLeap (yearOf n) then 1 else 0) := by
  have h := yearOf_spec n
  unfold dayOfYear
  omega

def Date.ofDayNumber (n : ℕ) (h : n < dayCount) : Date where
  year := yearOf n
  month := monthOf (isLeap (yearOf n)) (dayOfYear n)
  day := dayOfYear n - daysBeforeMonth (isLeap (yearOf n))
    (monthOf (isLeap (yearOf n)) (dayOfYear n)) + 1
  year_pos := Nat.le_add_left _ _
  year_le := by
    by_contra hy
    have hle := daysBeforeYear_le (y := 10000) (z := yearOf n) (by omega)
    have hn := (yearOf_spec n).1
    have hmax : daysBeforeYear 10000 = dayCount := by decide
    omega
  month_pos := (monthOf_spec _ _ (dayOfYear_lt n)).1
  month_le := (monthOf_spec _ _ (dayOfYear_lt n)).2.1
  day_pos := Nat.le_add_left _ _
  day_le := (monthOf_spec _ _ (dayOfYear_lt n)).2.2.2

theorem Date.dayNumber_ofDayNumber (n : ℕ) (h : n < dayCount) :
    (Date.ofDayNumber n h).dayNumber = n := by
  have hyear := (yearOf_spec n).1
  have hmonth := (monthOf_spec _ _ (dayOfYear_lt n)).2.2.1
  simp only [Date.dayNumber, Date.ofDayNumber]
  unfold dayOfYear at hmonth ⊢
  omega

end Calendar
