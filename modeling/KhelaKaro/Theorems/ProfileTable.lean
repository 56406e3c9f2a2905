import KhelaKaro.ProfileScreen
import KhelaKaro.Theorems.OpeningHours

/-! # The table of the profile

What the profile screen shows of the answers of the server. The JSON on the wire is decoded to the rows that the answer
stands for (`profileData_json`). A text of a row is compared with what was picked at the screen that booked: the time of
day is the same where the clock of the device agrees with that of the server, and the date unless the year of the week
is not the year (`runs_table`). -/

namespace KhelaKaro
open Async Calendar

/-! ### From the wire -/

theorem Reply.json_data {r : Reply} {json : Json} (h : r.json = some json) : json.ofData = some json ∧
    json.prop "data" = r.data.map ProfileData.json := by
  obtain ⟨status, body⟩ := r
  cases body with
  | facilities docs => cases h
  | object success msg court data =>
    obtain rfl := Option.some.inj h
    refine ⟨rfl, ?_⟩
    cases court <;> cases data <;> simp [Json.prop, List.lookup_cons, Reply.data]

namespace ProfileScreen
variable {cal : FormatterCalendar} {zone : Int → Zone} {v : ProfileScreen} {r : Reply}

theorem thisBooking_str (sport test : String) :
    thisBooking cal zone ⟨sport, .str test⟩ = (cal.inputRow ⟨sport, test⟩).map (Bookings.of zone) := rfl

theorem mapM_thisBooking (rows : List BookingRow) :
    (rows.map fun row => ⟨row.sport, .str (toISOString row.startDateTime)⟩).mapM (thisBooking cal zone) =
      (rows.mapM fun row => cal.inputRow ⟨row.sport, toISOString row.startDateTime⟩).map
        (List.map (Bookings.of zone)) := by
  induction rows with
  | nil => rfl
  | cons row rows ih =>
    rw [List.map_cons, List.mapM_cons, List.mapM_cons, ih, thisBooking_str]
    cases cal.inputRow ⟨row.sport, toISOString row.startDateTime⟩ with
    | none => rfl
    | some input =>
    cases rows.mapM fun row => cal.inputRow ⟨row.sport, toISOString row.startDateTime⟩ with
    | none => rfl
    | some inputs => rfl

/-- The screen makes of a reply on the wire what is said of the reply. -/
theorem profileData_json {json : Json} (h : r.json = some json) : profileData cal zone json =
    (cal.fetchData r).map fun rows => (rows.map (Bookings.of zone), (fetchData r).2.1, (fetchData r).2.2) := by
  obtain ⟨-, hdata⟩ := Reply.json_data h
  obtain ⟨status, body⟩ := r
  cases body with
  | facilities docs => cases h
  | object success msg court data =>
  cases data with
  | none =>
    rw [profileData, hdata]
    rfl
  | some data =>
  have hdates : ∀ s ∈ [("s1", data.s1), ("s2", data.s2), ("s3", data.s3), ("s4", data.s4)],
      Json.elements (data.json.prop s.1) = s.2.map fun d => .str (toISOString d) := by
    simp [ProfileData.json, Json.prop, List.lookup_cons, datesJson, Json.elements]
  simp only [List.mem_cons, List.not_mem_nil, or_false, forall_eq_or_imp, forall_eq] at hdates
  obtain ⟨h1, h2, h3, h4⟩ := hdates
  have hempty : Json.isEmpty (some data.json) = false := rfl
  rw [profileData, hdata]
  simp only [Reply.data, Option.map_some, hempty, Bool.false_eq_true, ↓reduceIte, Option.bind_some, h1, h2, h3, h4,
    sportTable_map, mapM_thisBooking, FormatterCalendar.fetchData, KhelaKaro.fetchData]
  cases (sportTable data.s1 data.s2 data.s3 data.s4).1.mapM fun row =>
      cal.inputRow ⟨row.sport, toISOString row.startDateTime⟩ with
  | none => rfl
  | some rows => rfl

end ProfileScreen

/-! ### The texts of a row -/

theorem padded_injective {w n n' : Nat} (hw : w ≠ 0) (hn : n < 10 ^ w) (hn' : n' < 10 ^ w)
    (h : padded w n = padded w n') : n = n' := by
  have hread := number_end hw hn
  rw [h, number_end hw hn'] at hread
  exact ((Prod.mk.inj (Option.some.inj hread)).1).symm

theorem padded_separated {w n n' : Nat} (hw : w ≠ 0) (hn : n < 10 ^ w) (hn' : n' < 10 ^ w) {c : Char}
    (hc : c.isDigit = false) {rest rest' : List Char} (h : padded w n ++ c :: rest = padded w n' ++ c :: rest') :
    n = n' ∧ rest = rest' := by
  have hread := number_padded hw hn hc rest
  rw [h, number_padded hw hn' hc rest', Option.some.injEq, Prod.mk.injEq, List.cons.injEq] at hread
  exact ⟨hread.1.symm, hread.2.2.symm⟩

theorem decimals_injective {w n n' : Nat} (h : decimals w n = decimals w n') : n = n' := by
  have hread := number_decimals w n (c := ' ') rfl []
  rw [h, number_decimals w n' rfl, Option.some.injEq, Prod.mk.injEq] at hread
  exact hread.1.symm

section Texts
variable {z z' : Zone} {t t' year year' : Int}

/-- A text of a day says which day of the month it is, and the month and the year. -/
theorem dayText_inj (h : 0 ≤ year) (h' : 0 ≤ year') : dayText z t year = dayText z' t' year' ↔
    dayOf (z.day t) = dayOf (z'.day t') ∧ monthOf (z.day t) = monthOf (z'.day t') ∧ year = year' := by
  constructor
  · intro heq
    have hday : ∀ k, dayOf k < 10 ^ 2 := fun k => by
      have := dayOf_spec k
      omega
    have hmonth : ∀ k, monthOf k < 10 ^ 2 := fun k => by
      have := (monthOf_spec k).1
      omega
    obtain ⟨hd, hrest⟩ := padded_separated two_ne_zero (hday _) (hday _) rfl (String.ofList_injective heq)
    obtain ⟨hm, hrest⟩ := padded_separated two_ne_zero (hmonth _) (hmonth _) rfl hrest
    have hy := decimals_injective hrest
    exact ⟨hd, hm, by omega⟩
  · rintro ⟨hd, hm, rfl⟩
    rw [dayText, dayText, hd, hm]

theorem timeBooking_eq (z : Zone) (t : Int) :
    timeBooking z t = String.ofList (padded 2 (z.hour t) ++ ':' :: padded 2 (z.minute t)) := by
  simp [timeBooking, dateFormatter, Field.write]

theorem timeBooking_inj : timeBooking z t = timeBooking z' t' ↔ z.hour t = z'.hour t' ∧ z.minute t = z'.minute t' := by
  rw [timeBooking_eq, timeBooking_eq]
  constructor
  · intro heq
    have hhour : ∀ (z : Zone) (t : Int), z.hour t < 10 ^ 2 := fun z t => (hour_lt z t).trans (by decide)
    have hminute : ∀ (z : Zone) (t : Int), z.minute t < 10 ^ 2 := fun z t =>
      (minute_lt z t).trans (by decide)
    obtain ⟨hh, hrest⟩ := padded_separated two_ne_zero (hhour z t) (hhour z' t') rfl (String.ofList_injective heq)
    exact ⟨hh, padded_injective two_ne_zero (hminute z t) (hminute z' t') hrest⟩
  · rintro ⟨hh, hm⟩
    rw [hh, hm]

/-- Two zones have one time of day when they are whole days apart. -/
theorem timeOfDay_iff (h : t % 60000 = 0) :
    z.hour t = z'.hour t ∧ z.minute t = z'.minute t ↔ (z.minutes - z'.minutes) % 1440 = 0 := by
  unfold Zone.hour Zone.minute Zone.clock msPerDay
  omega

end Texts

section Picked
variable {z z' dev : Zone} {date start : Date}

/-- The hour and minute of a row are those that were picked exactly where the clock of the device agrees with that of
    the server. -/
theorem ReadAs.time_iff (h : ReadAs z date z' start) :
    timeBooking dev start.time = timeBooking z date.time ↔ (dev.minutes - z'.minutes) % 1440 = 0 := by
  rw [timeBooking_inj, ← h.hour, ← h.minute, timeOfDay_iff h.wholeMinute]

/-- On the server's clock the date of a row is the one that was picked exactly when that does not count for the next
    year. -/
theorem ReadAs.date_iff (h : ReadAs z date z' start) (hyear : 0 ≤ yearOf (z.day date.time)) :
    dateBooking z' start.time = dayText z date.time (yearOf (z.day date.time)) ↔
      weekYear (z.day date.time) = yearOf (z.day date.time) := by
  have hle : ∀ k, yearOf k ≤ weekYear k := fun k => by
    unfold weekYear
    split <;> omega
  constructor
  · intro heq
    by_contra hne
    obtain ⟨hnext, hmonth, -⟩ := december_of_weekYear hne
    -- The server has read a day of the following December.
    have hlater : yearOf (z.day date.time) + 1 ≤ yearOf (z'.day start.time) := by
      have hday := (dayOf_spec (z.day date.time)).1
      have hleap := (leapDay_le (yearOf (z.day date.time) + 1)).1
      rw [le_yearOf_iff, h.day, hnext, hmonth]
      simp only [dayNumber, monthStart]
      omega
    have hweek := hle (z'.day start.time)
    obtain ⟨-, -, hy⟩ := (dayText_inj (by omega) hyear).mp heq
    omega
  · intro hweek
    have hsame := h.day_iff.mpr hweek
    rw [dateBooking, dayText_inj (by rw [hsame, hweek]; exact hyear) hyear, hsame]
    exact ⟨rfl, rfl, hweek⟩

end Picked

/-! ### A run -/

theorem mem_fetchData {r : Reply} {row : BookingRow} (h : row ∈ (fetchData r).1) : ∃ data, r.data = some data ∧
    ∃ s : Screen, row.sport = s.sport ∧ row.startDateTime ∈ data.starts s := by
  obtain ⟨status, body⟩ := r
  cases body with
  | facilities docs => cases h
  | object success msg court data =>
    cases data with
    | none => cases h
    | some data =>
    refine ⟨data, rfl, ?_⟩
    simp only [fetchData, sportTable, List.mem_append, List.mem_map] at h
    rcases h with ((⟨d, hd, rfl⟩ | ⟨d, hd, rfl⟩) | ⟨d, hd, rfl⟩) | ⟨d, hd, rfl⟩
    · exact ⟨.badminton, rfl, hd⟩
    · exact ⟨.tennis, rfl, hd⟩
    · exact ⟨.tableTennis, rfl, hd⟩
    · exact ⟨.football, rfl, hd⟩

theorem length_fetchData (r : Reply) : (fetchData r).2.2 = (fetchData r).1.length := by
  unfold fetchData
  split
  · simp only [sportTable, List.length_append, List.length_map]
  · rfl

namespace BookingSystem

/-- Where a row of the table comes from: from a booking that was there at the start, or from a press of the user on a
    screen of the sport, and how its texts compare with what was picked. -/
inductive TableRow (z' : Zone) (zone : Int → Zone) (db : Db) (es : List SystemEvent) (s : BookingSystem)
    (email : String) (row : Bookings) : Prop where
  | old (b : Booking) (h : b ∈ db.bookings) (row_eq : row = Bookings.of zone (row.sport, b.startDateTime.time))
  | picked (i : Nat) (o : OpenScreen) (picker : Zone) (date start : Date) (hi : s.screens[i]? = some o)
      (press : .bookNowPressed i picker (some ⟨some email⟩) date ∈ es) (read : ReadAs picker date z' start)
      (sport : row.sport = o.screen.sport)
      (time : row.time = timeBooking picker date.time ↔ ((zone start.time).minutes - z'.minutes) % 1440 = 0)
      (day : zone start.time = z' → (row.date = dayText picker date.time (yearOf (picker.day date.time)) ↔
        weekYear (picker.day date.time) = yearOf (picker.day date.time)))

section Table
variable {f : Foundation} {m : Mongoose} {rt : Runtime} {db : Db} {es : List SystemEvent} {s : BookingSystem}
  {z' : Zone} {n : Nat} {email : String} {r : Reply} {data : ProfileData}

/-- A start in an answered profile is that of a stored booking of the user at the facility of the sport. -/
theorem Served.profile (h : s.Served m rt db) (hn : s.requests[n]? = some (.route .profile (profileParameters email)))
    (hr : s.reply n = some r) (hdata : r.data = some data) :
    ∃ user ∈ s.server.store.users.docs, user.email = email ∧ ∀ sport : Screen, ∀ d ∈ data.starts sport,
      ∃ b ∈ s.server.store.bookings, b.startDateTime = d ∧ b.user = user._id ∧
        ∃ facility, s.server.store.facilityOf sport = some facility ∧ b.facility = facility._id := by
  obtain ⟨th, hth, -, hsent⟩ := h.of_reply hr
  obtain ⟨ts, -, hserver⟩ := h
  rw [hserver] at hth
  have hbefore : ∀ t ∈ ([] : List (Turn Http)), t.thread ≠ n := fun t ht => absurd ht List.not_mem_nil
  obtain ⟨user, huser, hbetween⟩ := (serverPool_along hth hn serveProfile_read).between
    (fun _ => serverPool_between hbefore hth) (hsent ▸ List.mem_singleton_self r) hdata
  rw [List.nil_append, ← hserver] at huser hbetween
  rw [loggedIn_of_ok (m.matchEmail_str email)] at huser
  refine ⟨user, List.mem_of_find?_eq_some huser, by simpa using List.find?_some huser, fun sport d hd => ?_⟩
  obtain ⟨facility, hfacility, starts, hstarts, -, hlater⟩ := hbetween sport
  rw [hstarts, List.mem_reverse] at hd
  obtain ⟨b, hb, hd⟩ := List.mem_map.mp (hlater.subset hd)
  obtain ⟨hb, hplace⟩ := List.mem_filter.mp hb
  obtain ⟨hplace, huser⟩ := of_decide_eq_true hplace
  exact ⟨b, hb, hd, huser, facility, hfacility, hplace⟩

theorem BookedBy.tableRow {i : Nat} {o : OpenScreen} {b : Booking} (h : BookedBy rt es i o.screen s.server.store b)
    (hi : s.screens[i]? = some o) (hrt : rt.ReadsCivil z') (hyears : PickedSince 1970 es)
    {user : User} (hmem : user ∈ s.server.store.users.docs) (huser : b.user = user._id) {sport : Screen}
    {facility : Facility} (hfacility : s.server.store.facilityOf sport = some facility)
    (hplace : b.facility = facility._id) (zone : Int → Zone) :
    TableRow z' zone db es s user.email (Bookings.of zone (sport.sport, b.startDateTime.time)) := by
  obtain ⟨picker, date, user', hpress, hmem', hid, -, hd⟩ := h.pressed
  obtain rfl : user' = user := Collection.eq_of_id hmem' hmem (hid.trans huser)
  obtain ⟨facility', hmem'', hid', hnumber⟩ := h.facility
  obtain rfl : facility' = facility :=
    Collection.eq_of_id hmem'' (List.mem_of_find?_eq_some hfacility) (hid'.trans hplace)
  have hnumber' : facility'.facilityId = some (sport.number : ℚ) := by simpa using List.find?_some hfacility
  rw [hnumber', Option.some.injEq, Nat.cast_inj] at hnumber
  obtain rfl := Screen.number_injective hnumber
  have hyear := hyears _ _ _ _ hpress
  have hread := readAs_of_newDate hrt hyear hd
  refine .picked i o picker date b.startDateTime hi hpress hread rfl hread.time_iff fun hzone => ?_
  rw [← hread.date_iff (by omega), ← hzone]
  rfl

/-- While only screens book, the profile screen shows a row for each start of each answer, and a row that was not there
    at the start is that of a press of the user; what it shows is what was picked, up to the zone of the device and the
    year of the week. -/
theorem runs_table (f : Foundation) (m : Mongoose) (rt : Runtime) (db : Db) (es : List SystemEvent) (z' : Zone)
    (cal : FormatterCalendar) (zone : Int → Zone) (v : ProfileScreen) (h : (start db).runs f m rt es = some s)
    (hrt : rt.ReadsCivil z') (hyears : PickedYears 1970 9997 es) (honly : OnlyScreensBook es)
    (h0 : ∀ b ∈ db.bookings, Decoded cal b.startDateTime) {n : Nat} {email : String}
    (hn : s.requests[n]? = some (.route .profile (profileParameters email))) {r : Reply} (hr : s.reply n = some r)
    {json : Json} (hjson : r.json = some json) :
    ∃ rows maxPlayed, v.dataResponse cal zone (some json) = some { v with
        bookingsArray := v.bookingsArray ++ rows
        frequentSport := some maxPlayed
        profileImage := some (changeImage maxPlayed)
        streakDays := some (toString rows.length) } ∧
      ∀ row ∈ rows, TableRow z' zone db es s email row := by
  have hinv := runs_inv h
  have hrows : ProfileScreen.profileData cal zone json = _ := ProfileScreen.profileData_json hjson
  rw [hinv.fetchData hrt hyears honly h0 hr, Option.map_some, List.map_map] at hrows
  refine ⟨(fetchData r).1.map (Bookings.of zone ∘ fun row => (row.sport, row.startDateTime.time)), (fetchData r).2.1,
    ?_, fun row hrow => ?_⟩
  · simp only [ProfileScreen.dataResponse, (Reply.json_data hjson).1, hrows, Option.bind_eq_bind, Option.bind_some,
      pure, length_fetchData, List.length_map]
  · obtain ⟨row', hrow', rfl⟩ := List.mem_map.mp hrow
    obtain ⟨data, hdata, sport, hsport, hd⟩ := mem_fetchData hrow'
    obtain ⟨user, hmem, rfl, hsports⟩ := hinv.served.profile hn hr hdata
    obtain ⟨b, hb, hstart, huser, facility, hfacility, hplace⟩ := hsports sport _ hd
    simp only [Function.comp_apply, hsport, ← hstart]
    cases hinv.stems hb with
    | old hold => exact .old b hold rfl
    | asked body hasked => exact absurd hasked (honly body)
    | pressed i o hi hbooked => exact hbooked.tableRow hi hrt hyears.since hmem huser hfacility hplace zone

theorem runs_table_club : ∃ s r json,
    (start club).runs BookingScreen.plainFoundation mongoose6 utc.runtime middayProfiled = some s ∧
      s.reply 1 = some r ∧ r.json = some json ∧
      (ProfileScreen.dataResponse changeover (fun _ => utc) ⟨"home@club.test", none, none, none, none, []⟩
        (some json)).map ProfileScreen.bookingsArray = some [⟨"Badminton", "15/06/2024", "12:00"⟩] ∧
      TableRow utc (fun _ => utc) club middayProfiled s "home@club.test" ⟨"Badminton", "15/06/2024", "12:00"⟩ := by
  have hrun : (((start club).runs BookingScreen.plainFoundation mongoose6 utc.runtime middayBooked).any fun s₁ =>
      s₁.requests.length == 1 && (s₁.runs BookingScreen.plainFoundation mongoose6 utc.runtime
        (.request (.route .profile (profileParameters "home@club.test")) ::
          List.replicate 9 (.turn ⟨1, none⟩))).any fun s => (s.reply 1).any fun r => r.json.any fun json =>
        (ProfileScreen.dataResponse changeover (fun _ => utc) ⟨"home@club.test", none, none, none, none, []⟩
          (some json)).map ProfileScreen.bookingsArray == some [⟨"Badminton", "15/06/2024", "12:00"⟩]) = true := by
    decide +kernel
  obtain ⟨s₁, hs₁, hrun⟩ := (Option.any_eq_true _ _).mp hrun
  rw [Bool.and_eq_true] at hrun
  obtain ⟨s, hlater, hrow⟩ := (Option.any_eq_true _ _).mp hrun.2
  obtain ⟨r, hr, hrow⟩ := (Option.any_eq_true _ _).mp hrow
  obtain ⟨json, hjson, hrow⟩ := (Option.any_eq_true _ _).mp hrow
  have hrow := eq_of_beq hrow
  have hs : (start club).runs BookingScreen.plainFoundation mongoose6 utc.runtime middayProfiled = some s := by
    rw [middayProfiled, runs_append, hs₁, Option.bind_some, hlater]
  obtain ⟨ts, hts⟩ := (runs_inv hs₁).served
  have hn := hts.arrived hlater
  rw [eq_of_beq hrun.1] at hn
  obtain ⟨rows, maxPlayed, hshown, hrows⟩ := runs_table BookingScreen.plainFoundation mongoose6 utc.runtime club
    middayProfiled utc changeover (fun _ => utc) ⟨"home@club.test", none, none, none, none, []⟩ hs utc.readsCivil
    pickedYears_midday onlyScreensBook_midday (fun b hb => by cases hb) hn hr hjson
  refine ⟨s, r, json, hs, hr, hjson, hrow, hrows _ ?_⟩
  have hone : rows = [⟨"Badminton", "15/06/2024", "12:00"⟩] := by
    rw [hshown, Option.map_some, Option.some.injEq] at hrow
    exact hrow
  exact hone ▸ List.mem_singleton_self _

end Table
end BookingSystem
end KhelaKaro
