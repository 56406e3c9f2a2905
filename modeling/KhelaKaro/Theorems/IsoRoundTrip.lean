import KhelaKaro.IsoText
import KhelaKaro.Theorems.BookingOutcomes
import KhelaKaro.Theorems.CourtRange
import KhelaKaro.Theorems.DateRoundTrip
import KhelaKaro.Theorems.LoginGate

/-! # Dates from the server to the profile screen

The server stores any valid date; the profile screen reads whole seconds of four-digit years alone, and traps at the
first text that it cannot read. -/

namespace KhelaKaro
open Async Calendar

/-! ### One text -/

section Text
variable {cal : FormatterCalendar} {d : Date}

theorem second_lt (z : Zone) (t : Int) : z.second t < 60 := by
  unfold Zone.second
  omega

theorem millisecond_lt (t : Int) : millisecond t < 10 ^ 3 := by
  unfold millisecond
  omega

/-- The fields of a text in UTC are those of its instant. -/
theorem utc_fields (t : Int) :
    utc.day t * msPerDay + utc.hour t * 3600000 + utc.minute t * 60000 + utc.second t * 1000 = t - t % 1000 := by
  have hclock := clock_fields utc t
  have hsecond : (utc.second t : Int) = t % msPerDay / 1000 % 60 := by
    unfold Zone.second Zone.clock utc msPerDay
    omega
  have hzone : utc.minutes = 0 := rfl
  rw [hsecond]
  unfold msPerDay at *
  omega

theorem number_isoYear {y : Int} (h : 0 ≤ y ∧ y ≤ 9999) (rest : List Char) :
    number (isoYear y ++ '-' :: rest) = some (y.toNat, '-' :: rest) := by
  unfold isoYear
  rw [if_pos h]
  exact number_padded (by decide) (by omega) (by decide) rest

/-- A year with a sign is no number. -/
theorem number_signed {y : Int} (h : ¬(0 ≤ y ∧ y ≤ 9999)) (rest : List Char) : number (isoYear y ++ rest) = none := by
  unfold isoYear
  rw [if_neg h]
  split <;> rfl

theorem padded_three {n : Nat} (h : n < 10 ^ 3) : padded 3 n = ['0', '0', '0'] ↔ n = 0 := by
  constructor
  · intro heq
    have hnumber := number_end three_ne_zero h
    rw [heq] at hnumber
    exact (congrArg Prod.fst (Option.some.inj hnumber)).symm
  · rintro rfl
    rfl

theorem date_toISOString (cal : FormatterCalendar) (d : Date) : cal.date (toISOString d) =
    if (0 ≤ yearOf (utc.day d.time) ∧ yearOf (utc.day d.time) ≤ 9999) ∧ d.time % 1000 = 0 then
      (cal.day (yearOf (utc.day d.time)).toNat (monthOf (utc.day d.time)) (dayOf (utc.day d.time))).map fun n =>
        n * msPerDay + utc.hour d.time * 3600000 + utc.minute d.time * 60000 + utc.second d.time * 1000
    else none := by
  have htwo : ∀ {n : Nat}, n < 60 → n < 10 ^ 2 := fun h => h.trans (by decide)
  have hmonth : monthOf (utc.day d.time) < 60 := (monthOf_spec _).1.2.trans_lt (by decide)
  have hday : dayOf (utc.day d.time) < 60 := (dayOf_spec _).2.trans_lt (by decide)
  have hhour := hour_lt utc d.time
  have hms : padded 3 (millisecond d.time) ++ ['Z'] = ['0', '0', '0', 'Z'] ↔ d.time % 1000 = 0 := by
    rw [show ['0', '0', '0', 'Z'] = ['0', '0', '0'] ++ ['Z'] from rfl, List.append_cancel_right_eq,
      padded_three (millisecond_lt _)]
    unfold millisecond
    omega
  unfold FormatterCalendar.date toISOString
  rw [String.toList_ofList]
  by_cases hy : 0 ≤ yearOf (utc.day d.time) ∧ yearOf (utc.day d.time) ≤ 9999
  · rw [number_isoYear hy, some_bind]
    dsimp only
    rw [expect_number two_ne_zero (htwo hmonth) '-' (by decide)]
    dsimp only
    rw [expect_number two_ne_zero (htwo hday) '-' (by decide)]
    dsimp only
    rw [expect_number two_ne_zero (htwo (hhour.trans (by decide))) 'T' (by decide)]
    dsimp only
    rw [expect_number two_ne_zero (htwo (minute_lt utc d.time)) ':' (by decide)]
    dsimp only
    rw [expect_number two_ne_zero (htwo (second_lt utc d.time)) ':' (by decide)]
    simp only [List.cons.injEq, true_and, hms, hhour, minute_lt utc d.time, second_lt utc d.time, and_true, hy]
    split
    · rw [Option.map_eq_bind]
      rfl
    · rfl
  · rw [number_signed hy, if_neg fun h => hy h.1]
    rfl

/-- The profile screen reads the text of the date, as that date. -/
structure Readable (cal : FormatterCalendar) (d : Date) : Prop where
  wholeSecond : d.time % 1000 = 0
  fourDigits : 0 ≤ yearOf (utc.day d.time) ∧ yearOf (utc.day d.time) ≤ 9999
  sameDay : utc.day d.time < gregorianStart →
    cal.day (yearOf (utc.day d.time)).toNat (monthOf (utc.day d.time)) (dayOf (utc.day d.time)) = some (utc.day d.time)

def Decoded (cal : FormatterCalendar) (d : Date) : Prop := cal.date (toISOString d) = some d.time

theorem decoded_iff : Decoded cal d ↔ Readable cal d := by
  have hfields := utc_fields d.time
  unfold Decoded
  rw [date_toISOString]
  constructor
  · intro h
    split at h
    · rename_i hread
      obtain ⟨n, hn, htime⟩ := Option.map_eq_some_iff.mp h
      have hday : n = utc.day d.time := by
        unfold msPerDay at *
        omega
      exact ⟨hread.2, hread.1, fun _ => hday ▸ hn⟩
    · cases h
  · intro h
    have hday : cal.day (yearOf (utc.day d.time)).toNat (monthOf (utc.day d.time)) (dayOf (utc.day d.time)) =
        some (utc.day d.time) := by
      by_cases hstart : utc.day d.time < gregorianStart
      · exact h.sameDay hstart
      · exact cal.gregorian _ (not_lt.mp hstart)
    rw [if_pos ⟨h.fourDigits, h.wholeSecond⟩, hday, Option.map_some, hfields, h.wholeSecond, sub_zero]

end Text

/-! ### The changeover -/

theorem julianMonthStart_eq (y : Nat) {m : Nat} (h₁ : 1 ≤ m) (h₂ : m ≤ 13) :
    julianMonthStart y m = monthStart 1 m + if 3 ≤ m ∧ y % 4 = 0 then 1 else 0 := by
  unfold julianMonthStart
  split
  · rename_i hy
    rw [monthStart_eq 4 h₁ h₂]
    simp only [hy, and_true]
    rfl
  · rename_i hy
    simp [hy]

/-- The civil date, March 200 to February 300 -/
def InStep (y : Int) (m : Nat) : Prop := y = 200 ∧ 3 ≤ m ∨ 200 < y ∧ y < 300 ∨ y = 300 ∧ m < 3

theorem julianDay_eq_iff {y m : Nat} (h₁ : 1 ≤ m) (h₂ : m ≤ 12) (k : Nat) :
    julianDay y m k = dayNumber y m k ↔ InStep y m := by
  unfold julianDay dayNumber yearStart InStep
  rw [julianMonthStart_eq y h₁ (by omega), monthStart_eq y h₁ (by omega)]
  unfold leapDay IsLeap
  split <;> split <;> try split
  all_goals omega

theorem inStep_iff (n : Int) :
    InStep (yearOf n) (monthOf n) ↔ dayNumber 200 3 1 ≤ n ∧ n < dayNumber 300 3 1 := by
  rw [← not_le, march_le_iff, march_le_iff]
  unfold InStep
  omega

theorem monthLength_le_julian {y m k : Nat} (h₁ : 1 ≤ m) (h₂ : m ≤ 12)
    (hk : k ≤ monthStart y (m + 1) - monthStart y m) : k ≤ julianMonthStart y (m + 1) - julianMonthStart y m := by
  have hleap : leapDay y ≤ if y % 4 = 0 then 1 else 0 := by
    by_cases hy : y % 4 = 0
    · rw [if_pos hy]
      exact (leapDay_le y).2
    · rw [if_neg hy, leapDay, if_neg fun h : IsLeap y => hy (by exact_mod_cast h.1)]
  have hpos := (leapDay_le y).1
  rw [monthStart_eq y (by omega) (by omega), monthStart_eq y h₁ (by omega)] at hk
  rw [julianMonthStart_eq y (by omega) (by omega), julianMonthStart_eq y h₁ (by omega)]
  split at hleap <;> split at hk <;> omega

/-- Before the changeover both calendars count a date as the same day from 1 March 200 to 28 February 300 only. -/
theorem changeover_day_iff {n : Int} (h : n < gregorianStart) :
    changeover.day (yearOf n).toNat (monthOf n) (dayOf n) = some n ↔
      dayNumber 200 3 1 ≤ n ∧ n < dayNumber 300 3 1 := by
  obtain ⟨⟨hm₁, hm₂⟩, -, hhigh⟩ := monthOf_spec n
  have hday := dayOf_spec n
  have hfields := dayNumber_fields n
  rw [← inStep_iff]
  by_cases hy : yearOf n < 1
  · have hzero : (yearOf n).toNat = 0 := by omega
    unfold changeover InStep
    dsimp only
    rw [if_pos (Or.inl hzero)]
    exact iff_of_false (Option.some_ne_none n).symm (by omega)
  obtain ⟨y, hyear⟩ := Int.eq_ofNat_of_zero_le (show 0 ≤ yearOf n by omega)
  rw [hyear] at hy hhigh hfields ⊢
  rw [Int.toNat_natCast, ← julianDay_eq_iff hm₁ hm₂ (dayOf n), hfields]
  unfold changeover
  dsimp only
  rw [if_neg (by omega), hfields, if_neg (not_le.mpr h)]
  constructor
  · intro hsome
    split at hsome
    · exact Option.some.inj hsome
    · cases hsome
  · intro hj
    have hlen : (dayOf n : Int) ≤ monthStart y (monthOf n + 1) - monthStart y (monthOf n) := by
      unfold dayNumber at hfields
      omega
    rw [hj, if_pos ⟨monthLength_le_julian hm₁ hm₂ hlen, h⟩]

theorem readable_changeover_iff {d : Date} : Readable changeover d ↔ d.time % 1000 = 0 ∧
    (dayNumber 200 3 1 ≤ utc.day d.time ∧ utc.day d.time < dayNumber 300 3 1 ∨
      gregorianStart ≤ utc.day d.time ∧ utc.day d.time < yearStart 10000) := by
  constructor
  · rintro ⟨hsecond, hyear, hday⟩
    refine ⟨hsecond, ?_⟩
    by_cases hstart : utc.day d.time < gregorianStart
    · exact Or.inl ((changeover_day_iff hstart).mp (hday hstart))
    · exact Or.inr ⟨not_lt.mp hstart, yearOf_lt_iff.mp (Int.lt_add_one_iff.mpr hyear.2)⟩
  · rintro ⟨hsecond, hday⟩
    refine ⟨hsecond, ?_, fun hlt => (changeover_day_iff hlt).mpr (hday.resolve_right fun h => not_lt.mpr h.1 hlt)⟩
    rcases hday with ⟨hfirst, hlast⟩ | ⟨hfirst, hlast⟩
    · rw [march_le_iff] at hfirst
      rw [← not_le, march_le_iff] at hlast
      omega
    · have hpos := yearOf_pos hfirst
      exact ⟨le_trans zero_le_one hpos, Int.lt_add_one_iff.mp (yearOf_lt_iff.mpr hlast)⟩

/-! ### The profile screen -/

/-- The four loops come to their end at every profile that is answered, with the instants that are stored. -/
def ShowsProfiles (cal : FormatterCalendar) (m : Mongoose) (db : Db) : Prop :=
  ∀ body faults data, .profile data ∈ ((isLoggedIn body postProfile).run (Db.exec m) faults db).sent →
    cal.fetchData (.profile data) =
      some ((fetchData (.profile data)).1.map fun row => (row.sport, row.startDateTime.time))

section Screen
variable {cal : FormatterCalendar} {m : Mongoose} {rt : Runtime} {db : Db} {body : Json} {b : Booking}
  {faults : Nat → Option JsError}

theorem inputRow_decoded {sport : String} {d : Date} (h : Decoded cal d) :
    cal.inputRow ⟨sport, toISOString d⟩ = some (sport, d.time) := by
  have hd : cal.date (toISOString d) = some d.time := h
  rw [FormatterCalendar.inputRow, hd, Option.map_some]

/-- An answer is read where its rows are decoded. -/
theorem fetchData_decoded {r : Reply} (h : ∀ row ∈ (fetchData r).1, Decoded cal row.startDateTime) :
    cal.fetchData r = some ((fetchData r).1.map fun row => (row.sport, row.startDateTime.time)) := by
  unfold FormatterCalendar.fetchData
  generalize (fetchData r).1 = rows at h
  induction rows with
  | nil => rfl
  | cons row rows ih =>
    have ih := ih fun row' h' => h row' (List.mem_cons_of_mem row h')
    rw [List.mapM_cons, inputRow_decoded (h row List.mem_cons_self), ih]
    rfl

theorem showsProfiles_of_decoded (h : ∀ b ∈ db.bookings, Decoded cal b.startDateTime) : ShowsProfiles cal m db := by
  intro body faults data hdata
  obtain ⟨user, -, hprofile⟩ := serveProfile_sent hdata
  refine fetchData_decoded fun row hrow => ?_
  obtain ⟨b, hb, -, hstart⟩ := mem_profileData hprofile row.startDateTime (mem_sportTable hrow)
  exact hstart ▸ h b hb

/-- A request that stores a booking was read with its start. -/
theorem newDate_of_stored
    (h : ((serveBooking rt body).run (Db.exec m) faults db).store.bookings = db.bookings ++ [b]) :
    newDate rt (body.prop "startDateTime") = .ok (some b.startDateTime) := by
  have hadds : db.bookings ≠ db.bookings ++ [b] := fun heq => List.cons_ne_nil _ _ (List.self_eq_append_right.mp heq)
  unfold serveBooking at h
  rcases isLoggedIn_run_cases (postBooking rt body) faults with ⟨user, -, hu, hrun⟩ | ⟨-, sent, hrun, -⟩
  · rw [hrun] at h
    have hend : BookingEnd m rt db body user
        ((postBooking rt body user).run (Db.exec m) (fun n => faults (n + 1)) db) := postBooking_end hu
    generalize (postBooking rt body user).run (Db.exec m) (fun n => faults (n + 1)) db = o at h hend
    cases hend with
    | thrown e => exact absurd h hadds
    | refused r hr => exact absurd h hadds
    | full hf => exact absurd h hadds
    | booked hg =>
      obtain rfl : _ = b := List.singleton_inj.mp (List.append_cancel_left h)
      exact hg.instant
  · rw [hrun] at h
    exact absurd h hadds

end Screen

/-- What the profile screen makes of `b`, stored after the bookings of `db`. -/
structure ReadsStored (cal : FormatterCalendar) (m : Mongoose) (db db' : Db) (b : Booking) : Prop where
  start : Decoded cal b.startDateTime
  screens : (∀ b' ∈ db.bookings, Decoded cal b'.startDateTime) → ShowsProfiles cal m db'

/-- A stored start is read back exactly when the requested one is readable. -/
theorem readsStored_iff (cal : FormatterCalendar) (m : Mongoose) (rt : Runtime) (db : Db) (body : Json)
    (faults : Nat → Option JsError) (b : Booking)
    (h : ((serveBooking rt body).run (Db.exec m) faults db).store.bookings = db.bookings ++ [b]) :
    ReadsStored cal m db ((serveBooking rt body).run (Db.exec m) faults db).store b ↔
      ∃ start, newDate rt (body.prop "startDateTime") = .ok (some start) ∧ Readable cal start := by
  have hstart := newDate_of_stored h
  constructor
  · intro hreads
    exact ⟨b.startDateTime, hstart, decoded_iff.mp hreads.start⟩
  · rintro ⟨start, hread, hreadable⟩
    rw [hstart, Except.ok.injEq, Option.some.injEq] at hread
    subst hread
    have hb := decoded_iff.mpr hreadable
    refine ⟨hb, fun hdb => showsProfiles_of_decoded ?_⟩
    rw [h, List.forall_mem_append]
    exact ⟨hdb, List.forall_mem_singleton.mpr hb⟩

theorem readsStored_iff_club : ReadsStored changeover mongoose6 club
    ((serveBooking utc.runtime homeRequest).run (Db.exec mongoose6) (fun _ => none) club).store homeBooking :=
  (readsStored_iff changeover mongoose6 utc.runtime club homeRequest (fun _ => none) homeBooking
    (by decide +kernel)).mpr ⟨homeBooking.startDateTime, by decide +kernel, readable_changeover_iff.mpr (by decide)⟩

/-- The start is the 600 of the README, for the home player. -/
def readmeRequest : Json :=
  .obj [("email", .str "home@club.test"), ("facilityId", .num 1), ("startDateTime", .num 600)]

def readmeBooking : Booking := ⟨⟨1⟩, ⟨1⟩, 1, ⟨600, by decide⟩, ⟨4200, by decide⟩⟩

theorem not_readsStored_readme :
    ((serveBooking utc.runtime readmeRequest).run (Db.exec mongoose6) Proc.noFaults club).store.bookings =
        club.bookings ++ [readmeBooking] ∧
      changeover.date (toISOString readmeBooking.startDateTime) = none ∧
      ¬ReadsStored changeover mongoose6 club
        ((serveBooking utc.runtime readmeRequest).run (Db.exec mongoose6) Proc.noFaults club).store readmeBooking := by
  have hnone : changeover.date (toISOString readmeBooking.startDateTime) = none := by
    rw [date_toISOString, if_neg (by decide)]
  refine ⟨by decide +kernel, hnone, fun h => ?_⟩
  have hstart := h.start
  rw [Decoded, hnone] at hstart
  cases hstart

/-! ### Runs -/

/-- In a run whose booking requests all ask for readable dates no profile traps. -/
theorem showsProfiles_runs {cal : FormatterCalendar} {m : Mongoose} {rt : Runtime} {db : Db} {rs : List WriteRequest}
    (h0 : ∀ b ∈ db.bookings, Decoded cal b.startDateTime)
    (h : ∀ t body start, (writeLedger m rt).Handles db rs t (.booking body) →
      newDate rt (body.prop "startDateTime") = .ok (some start) → Readable cal start) :
    ShowsProfiles cal m ((writeLedger m rt).runs db rs) := by
  refine showsProfiles_of_decoded fun b hb => ?_
  rcases (writeLedger m rt).mem_log_runs.mp hb with hb | ⟨t, r, ht, hb⟩
  · exact h0 b hb
  · cases r with
    | register body => cases hb
    | facilityAdd body => cases hb
    | booking body =>
      obtain ⟨user, facility, start, read, court, stop, hg, rfl⟩ := entry_eq_some_iff.mp hb
      exact decoded_iff.mpr (h t body start ht hg.instant)

end KhelaKaro
