import Mathlib.Tactic.Common
import Mathlib.Tactic.IntervalCases

/-! # The Gregorian calendar

Days are counted from 1 January 1970, years extend over all integers. A year starts on the day `yearStart`, a
month of it after `monthStart` days; `yearOf`, `monthOf` and `dayOf` read a day back, and `dayNumber_fields` says
that they do. Weeks start on Sunday, and the first week of a year is the one that holds 1 January (`weekYear`). -/

namespace KhelaKaro.Calendar

/-! ## Years -/

def IsLeap (y : Int) : Prop := y % 4 = 0 ∧ (y % 100 ≠ 0 ∨ y % 400 = 0)

instance (y : Int) : Decidable (IsLeap y) := inferInstanceAs (Decidable (_ ∧ _))

/-- 29 February, if there is one. -/
def leapDay (y : Int) : Int := if IsLeap y then 1 else 0

def yearLength (y : Int) : Int := 365 + leapDay y

theorem leapDay_le (y : Int) : 0 ≤ leapDay y ∧ leapDay y ≤ 1 := by
  unfold leapDay
  split <;> omega

/-- The day of 1 January. -/
def yearStart (y : Int) : Int := 365 * (y - 1) + (y - 1) / 4 - (y - 1) / 100 + (y - 1) / 400 - 719162

theorem yearStart_succ (y : Int) : yearStart (y + 1) = yearStart y + yearLength y := by
  unfold yearStart yearLength leapDay
  by_cases h : IsLeap y
  · rw [if_pos h]
    unfold IsLeap at h
    omega
  · rw [if_neg h]
    unfold IsLeap at h
    omega

theorem yearLength_pos (y : Int) : 365 ≤ yearLength y ∧ yearLength y ≤ 366 := by
  have := leapDay_le y
  unfold yearLength
  omega

/-- The year of a day: the mean length of a year gives it up to one. -/
def yearOf (n : Int) : Int :=
  let y := (n + 719162) * 400 / 146097 + 1
  if n < yearStart y then y - 1
  else if yearStart (y + 1) ≤ n then y + 1
  else y

theorem yearOf_spec (n : Int) : yearStart (yearOf n) ≤ n ∧ n < yearStart (yearOf n + 1) := by
  have hlow : yearStart ((n + 719162) * 400 / 146097 + 1 - 1) ≤ n := by
    unfold yearStart
    omega
  have hhigh : n < yearStart ((n + 719162) * 400 / 146097 + 1 + 1 + 1) := by
    unfold yearStart
    omega
  unfold yearOf
  dsimp only
  split
  · rename_i h
    rw [Int.sub_add_cancel]
    exact ⟨hlow, h⟩
  · rename_i h
    split
    · rename_i h'
      exact ⟨h', hhigh⟩
    · rename_i h'
      exact ⟨Int.not_lt.mp h, Int.not_le.mp h'⟩

theorem yearStart_le {y y' : Int} (h : y ≤ y') : yearStart y ≤ yearStart y' := by
  induction y', h using Int.leInduction with
  | base => exact Int.le_refl _
  | succ y' _ ih =>
    have := yearLength_pos y'
    rw [yearStart_succ]
    omega

/-- The year of a day is the last one that has started. -/
theorem le_yearOf_iff {y n : Int} : y ≤ yearOf n ↔ yearStart y ≤ n := by
  obtain ⟨hlow, hhigh⟩ := yearOf_spec n
  constructor
  · intro h
    exact Int.le_trans (yearStart_le h) hlow
  · intro h
    by_contra hlt
    have := yearStart_le (Int.add_one_le_of_lt (Int.not_le.mp hlt))
    omega

theorem yearOf_lt_iff {y n : Int} : yearOf n < y ↔ n < yearStart y := by
  rw [← Int.not_le, le_yearOf_iff, Int.not_le]

/-! ## Months -/

/-- The days of the year before a month. -/
def monthStart (y : Int) (month : Nat) : Int :=
  match month with
  | 1 => 0
  | 2 => 31
  | 3 => 59 + leapDay y
  | 4 => 90 + leapDay y
  | 5 => 120 + leapDay y
  | 6 => 151 + leapDay y
  | 7 => 181 + leapDay y
  | 8 => 212 + leapDay y
  | 9 => 243 + leapDay y
  | 10 => 273 + leapDay y
  | 11 => 304 + leapDay y
  | 12 => 334 + leapDay y
  | _ => 365 + leapDay y

/-- The last of the first `m` months that starts by day `k` of the year. -/
def lastMonth (y k : Int) : Nat → Nat
  | 0 => 0
  | m + 1 => if monthStart y (m + 1) ≤ k then m + 1 else lastMonth y k m

def monthOf (n : Int) : Nat := lastMonth (yearOf n) (n - yearStart (yearOf n)) 12

def dayOf (n : Int) : Nat := (n - yearStart (yearOf n) - monthStart (yearOf n) (monthOf n)).toNat + 1

def dayNumber (y : Int) (month day : Nat) : Int := yearStart y + monthStart y month + day - 1

theorem monthStart_succ_le (y : Int) {m : Nat} (h₁ : 1 ≤ m) (h₂ : m ≤ 12) :
    monthStart y (m + 1) ≤ monthStart y m + 31 := by
  have := leapDay_le y
  interval_cases m <;> simp only [monthStart] <;> omega

theorem monthStart_eq (y : Int) {m : Nat} (h₁ : 1 ≤ m) (h₂ : m ≤ 13) :
    monthStart y m = monthStart 1 m + if 3 ≤ m then leapDay y else 0 := by
  have hcommon : leapDay 1 = 0 := rfl
  interval_cases m <;> simp [monthStart, hcommon]

theorem lastMonth_spec {y k : Int} (h₀ : 0 ≤ k) {m : Nat} (hm : 1 ≤ m) (hk : k < monthStart y (m + 1)) :
    (1 ≤ lastMonth y k m ∧ lastMonth y k m ≤ m) ∧ monthStart y (lastMonth y k m) ≤ k ∧
      k < monthStart y (lastMonth y k m + 1) := by
  induction m, hm using Nat.le_induction with
  | base =>
    have hone : lastMonth y k 1 = 1 := if_pos h₀
    rw [hone]
    exact ⟨⟨le_rfl, le_rfl⟩, h₀, hk⟩
  | succ m hm ih =>
    unfold lastMonth
    split
    · rename_i h
      exact ⟨⟨Nat.le_add_left 1 m, le_rfl⟩, h, hk⟩
    · rename_i h
      obtain ⟨⟨h₁, h₂⟩, hlow, hhigh⟩ := ih (Int.not_le.mp h)
      exact ⟨⟨h₁, Nat.le_succ_of_le h₂⟩, hlow, hhigh⟩

section Fields
variable (n : Int)

theorem yearDay_spec : 0 ≤ n - yearStart (yearOf n) ∧ n - yearStart (yearOf n) < yearLength (yearOf n) := by
  have := yearOf_spec n
  have := yearStart_succ (yearOf n)
  omega

theorem monthOf_spec : (1 ≤ monthOf n ∧ monthOf n ≤ 12) ∧
    monthStart (yearOf n) (monthOf n) ≤ n - yearStart (yearOf n) ∧
      n - yearStart (yearOf n) < monthStart (yearOf n) (monthOf n + 1) :=
  lastMonth_spec (yearDay_spec n).1 (by omega) (yearDay_spec n).2

theorem march_iff : 3 ≤ monthOf n ↔ 59 + leapDay (yearOf n) ≤ n - yearStart (yearOf n) := by
  obtain ⟨⟨h₁, h₂⟩, hlow, hhigh⟩ := monthOf_spec n
  have := leapDay_le (yearOf n)
  generalize monthOf n = m at *
  interval_cases m <;> simp only [monthStart] at hlow hhigh <;> omega

/-- From 1 March of a year on, a day lies in a later year, or in a later month of that one. -/
theorem march_le_iff (y : Int) : dayNumber y 3 1 ≤ n ↔ y < yearOf n ∨ yearOf n = y ∧ 3 ≤ monthOf n := by
  have hmarch : dayNumber y 3 1 = yearStart y + (59 + leapDay y) + 1 - 1 := rfl
  have hsucc := yearStart_succ y
  have hlength : yearLength y = 365 + leapDay y := rfl
  have hleap := (leapDay_le y).1
  rcases lt_trichotomy (yearOf n) y with h | rfl | h
  · have := yearOf_lt_iff.mp h
    omega
  · have := march_iff n
    omega
  · have := le_yearOf_iff.mp (Int.add_one_le_iff.mpr h)
    omega

theorem dayOf_spec : 1 ≤ dayOf n ∧ dayOf n ≤ 31 := by
  obtain ⟨⟨h₁, h₂⟩, hlow, hhigh⟩ := monthOf_spec n
  have := monthStart_succ_le (yearOf n) h₁ h₂
  unfold dayOf
  omega

/-- A day is the day of its own civil date. -/
theorem dayNumber_fields : dayNumber (yearOf n) (monthOf n) (dayOf n) = n := by
  obtain ⟨-, hlow, -⟩ := monthOf_spec n
  unfold dayNumber dayOf
  omega

end Fields

/-! ## Weeks -/

/-- The day of the week, 0 for Sunday. -/
def weekday (n : Int) : Int := (n + 4) % 7

/-- The Sunday that starts the first week of a year. -/
def weekYearStart (y : Int) : Int := yearStart y - weekday (yearStart y)

/-- The year that the week of a day counts for. -/
def weekYear (n : Int) : Int := if weekYearStart (yearOf n + 1) ≤ n then yearOf n + 1 else yearOf n

theorem weekYear_spec (n : Int) : weekYearStart (weekYear n) ≤ n ∧ n < weekYearStart (weekYear n + 1) := by
  obtain ⟨hlow, hhigh⟩ := yearOf_spec n
  have hnext := yearStart_succ (yearOf n + 1)
  have := yearLength_pos (yearOf n + 1)
  have hweek : ∀ k : Int, 0 ≤ weekday k ∧ weekday k < 7 := fun k => by
    unfold weekday
    omega
  have h₀ := hweek (yearStart (yearOf n))
  have h₂ := hweek (yearStart (yearOf n + 1 + 1))
  unfold weekYear
  split
  · rename_i h
    refine ⟨h, ?_⟩
    unfold weekYearStart
    omega
  · rename_i h
    refine ⟨?_, Int.not_le.mp h⟩
    unfold weekYearStart
    omega

theorem weekYear_eq_iff (n : Int) : weekYear n = yearOf n ↔ n < weekYearStart (yearOf n + 1) := by
  unfold weekYear
  split <;> omega

/-- The days that count for the next year are among the last six of December. -/
theorem december_of_weekYear {n : Int} (h : weekYear n ≠ yearOf n) :
    weekYear n = yearOf n + 1 ∧ monthOf n = 12 ∧ 26 ≤ dayOf n := by
  have hle : weekYearStart (yearOf n + 1) ≤ n := Int.not_lt.mp (mt (weekYear_eq_iff n).mpr h)
  have hsucc := yearStart_succ (yearOf n)
  have hlast : yearLength (yearOf n) - 6 ≤ n - yearStart (yearOf n) := by
    unfold weekYearStart weekday at hle
    omega
  have hleap := leapDay_le (yearOf n)
  unfold yearLength at hlast
  have hdecember : monthStart (yearOf n) 12 = 334 + leapDay (yearOf n) := rfl
  have hstart : monthStart (yearOf n) 12 ≤ n - yearStart (yearOf n) := by omega
  have hmonth : monthOf n = 12 := if_pos hstart
  refine ⟨?_, hmonth, ?_⟩
  · unfold weekYear
    rw [if_pos hle]
  · unfold dayOf
    rw [hmonth]
    omega

end KhelaKaro.Calendar
