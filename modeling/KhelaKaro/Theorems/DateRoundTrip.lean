import KhelaKaro.App

/-! # Dates from the picker to the server

The app writes the start with the year of the week (`YYYY`), the server reads it as a calendar year. The two agree
unless the picked day lies in the week of the next 1 January; then the server reads a day of the following year. -/

namespace KhelaKaro
open Calendar

section Clock
variable (z : Zone) (t : Int)

theorem hour_lt : z.hour t < 24 := by
  unfold Zone.hour msPerDay
  omega

theorem minute_lt : z.minute t < 60 := by
  unfold Zone.minute msPerDay
  omega

theorem clock_fields :
    z.day t * msPerDay + z.hour t * 3600000 + z.minute t * 60000 - z.minutes * 60000 = t - t % 60000 := by
  have hhour : (z.hour t : Int) = z.clock t % msPerDay / 3600000 := by
    unfold Zone.hour msPerDay
    omega
  have hminute : (z.minute t : Int) = z.clock t % msPerDay / 60000 % 60 := by
    unfold Zone.minute msPerDay
    omega
  rw [hhour, hminute]
  unfold Zone.day Zone.clock msPerDay
  omega

end Clock

/-! ### The hour -/

theorem timeHrInt_eq (z : Zone) (d : Date) : timeHrInt z d = some (z.hour d.time) := by
  have hnumber := number_end two_ne_zero ((hour_lt z d.time).trans (by decide : 24 < 10 ^ 2))
  simp only [timeHrInt, dateFormatter, List.flatMap_cons, List.flatMap_nil, List.append_nil, Field.write,
    String.toList_ofList, hnumber]

/-! ### The text of a start -/

/-- The civil time that the text of a start denotes. -/
def startCivil (z : Zone) (t : Int) : Civil :=
  ⟨(weekYear (z.day t)).toNat, monthOf (z.day t), dayOf (z.day t), z.hour t, z.minute t, 0⟩

theorem dateInput_eq (z : Zone) (d : Date) : dateInput z d = String.ofList (startCivil z d.time).text := by
  simp [dateInput, dateFormatter, startFormat, Field.write, startCivil, Civil.text]
  rfl

theorem startCivil_valid {z : Zone} {t : Int} (h : 1970 ≤ yearOf (z.day t)) : (startCivil z t).Valid := by
  refine ⟨?_, (monthOf_spec _).1, dayOf_spec _, hour_lt z t, minute_lt z t, Nat.succ_pos 59⟩
  have hle : yearOf (z.day t) ≤ weekYear (z.day t) := by
    unfold weekYear
    split <;> omega
  simp only [startCivil]
  omega

/-- The text denotes the picked minute exactly when the year of the week is the calendar year. -/
theorem startCivil_time_iff {z : Zone} {t : Int} (h : 1970 ≤ yearOf (z.day t)) :
    (startCivil z t).time z = t - t % 60000 ↔ weekYear (z.day t) = yearOf (z.day t) := by
  have hclock := clock_fields z t
  have hday := dayNumber_fields (z.day t)
  by_cases hy : weekYear (z.day t) = yearOf (z.day t)
  · have hyear : ((startCivil z t).year : Int) = yearOf (z.day t) := by
      simp only [startCivil, hy]
      omega
    refine iff_of_true ?_ hy
    unfold Civil.time
    rw [hyear]
    simp only [startCivil, hday]
    omega
  · obtain ⟨hnext, hmonth, -⟩ := december_of_weekYear hy
    have hyear : ((startCivil z t).year : Int) = yearOf (z.day t) + 1 := by
      simp only [startCivil, hnext]
      omega
    -- The text denotes the same day of December, a year later.
    have hlater : dayNumber (yearOf (z.day t) + 1) (monthOf (z.day t)) (dayOf (z.day t)) =
        z.day t + 365 + leapDay (yearOf (z.day t) + 1) := by
      have hsucc := yearStart_succ (yearOf (z.day t))
      have hdecember : ∀ y, monthStart y 12 = 334 + leapDay y := fun _ => rfl
      unfold dayNumber yearLength at *
      rw [hmonth, hdecember] at hday ⊢
      omega
    refine iff_of_false (fun htime => ?_) hy
    have hleap := (leapDay_le (yearOf (z.day t) + 1)).1
    unfold Civil.time at htime
    rw [hyear] at htime
    simp only [startCivil, hlater] at htime
    unfold msPerDay at htime hclock
    omega

/-! ### The round trip -/

def Date.truncated (d : Date) : Date where
  time := d.time - d.time % 60000
  valid := by
    have := d.valid
    unfold maxTime at *
    omega

theorem newDate_dateInput {rt : Runtime} {z : Zone} (hrt : rt.ReadsCivil z) {d : Date}
    (h : 1970 ≤ yearOf (z.day d.time)) :
    newDate rt (some (.str (dateInput z d))) = .ok (timeClip ((startCivil z d.time).time z)) := by
  rw [dateInput_eq]
  exact congrArg Except.ok (hrt _ (startCivil_valid h))

theorem getTime_timeClip_iff {t : Int} {d : Date} : getTime (timeClip t) = .val d.time ↔ t = d.time := by
  rw [timeClip_int]
  constructor
  · intro h
    split at h
    · exact Int.cast_injective (Number.val.inj h)
    · cases h
  · rintro rfl
    rw [dif_pos d.valid]
    rfl

/-- The server starts the slot at the picked minute exactly when the picked day lies before the week of the next
    1 January. -/
theorem newDate_dateInput_iff (rt : Runtime) (z : Zone) (hrt : rt.ReadsCivil z) (d : Date)
    (h : 1970 ≤ yearOf (z.day d.time) ∧ yearOf (z.day d.time) ≤ 9999) :
    (∃ picked, newDate rt (some (.str (dateInput z d))) = .ok picked ∧
        getTime picked = .val d.truncated.time) ↔
      z.day d.time < weekYearStart (yearOf (z.day d.time) + 1) := by
  rw [← weekYear_eq_iff, ← startCivil_time_iff h.1, newDate_dateInput hrt h.1]
  constructor
  · rintro ⟨picked, hpicked, htime⟩
    cases hpicked
    exact getTime_timeClip_iff.mp htime
  · intro htime
    exact ⟨_, rfl, getTime_timeClip_iff.mpr htime⟩

/-- 15 June 2024, 12:00:30 UTC -/
def midsummer : Date := ⟨1718452830000, by decide⟩

theorem newDate_dateInput_midsummer :
    ∃ picked, newDate utc.runtime (some (.str (dateInput utc midsummer))) = .ok picked ∧
      getTime picked = .val midsummer.truncated.time :=
  (newDate_dateInput_iff utc.runtime utc utc.readsCivil midsummer (by decide)).mpr (by decide)

/-- 30 December 2024, 12:00 UTC: a Monday whose week holds 1 January 2025 -/
def december30 : Date := ⟨1735560000000, by decide⟩

theorem newDate_dateInput_december30 :
    yearOf (utc.day december30.time) = 2024 ∧
      newDate utc.runtime (some (.str (dateInput utc december30))) = .ok (timeClip 1767096000000) ∧
      ¬∃ picked, newDate utc.runtime (some (.str (dateInput utc december30))) = .ok picked ∧
        getTime picked = .val december30.truncated.time := by
  have hyear : yearOf (utc.day december30.time) = 2024 := by decide
  have hcivil : (startCivil utc december30.time).time utc = 1767096000000 := by decide
  have hread := newDate_dateInput utc.readsCivil (hyear ▸ by decide : 1970 ≤ yearOf (utc.day december30.time))
  rw [hcivil] at hread
  refine ⟨hyear, by exact_mod_cast hread, ?_⟩
  rintro ⟨picked, hpicked, htime⟩
  rw [hread] at hpicked
  cases hpicked
  have := getTime_timeClip_iff.mp htime
  exact absurd this (by decide)

end KhelaKaro
