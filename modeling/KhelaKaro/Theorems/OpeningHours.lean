import KhelaKaro.Theorems.IsoRoundTrip
import KhelaKaro.Theorems.ProfileReads

/-! # Opening hours

The app offers the hours from 11 to 19, and the server checks none. It reads the picked hour and minute on its own
clock, whatever the zone of the device, and the picked day too, unless that day counts for the next year
(`BookedBy.readAs`). So while only screens book, all bookings lie in the opening hours of the server, and no profile
traps the app. -/

namespace KhelaKaro
open Async Calendar

/-! ### A start on the server's clock -/

/-- How a start on the clock of `z'` relates to the date that was picked on the clock of `z`. -/
structure ReadAs (z : Zone) (date : Date) (z' : Zone) (start : Date) : Prop where
  hour : z'.hour start.time = z.hour date.time
  minute : z'.minute start.time = z.minute date.time
  wholeMinute : start.time % 60000 = 0
  day : z'.day start.time = dayNumber (weekYear (z.day date.time)) (monthOf (z.day date.time)) (dayOf (z.day date.time))
  day_iff : z'.day start.time = z.day date.time ↔ weekYear (z.day date.time) = yearOf (z.day date.time)

section Read
variable {z z' : Zone} {date start : Date} {rt : Runtime} {c : Civil}

theorem Civil.clock_time (c : Civil) (z : Zone) : z.clock (c.time z) =
    dayNumber c.year c.month c.day * msPerDay + c.hour * 3600000 + c.minute * 60000 + c.second * 1000 :=
  sub_add_cancel _ _

theorem Civil.fields (z : Zone) (hhour : c.hour < 24) (hminute : c.minute < 60) (hsecond : c.second < 60) :
    z.day (c.time z) = dayNumber c.year c.month c.day ∧ z.hour (c.time z) = c.hour ∧
      z.minute (c.time z) = c.minute := by
  unfold Zone.day Zone.hour Zone.minute
  rw [c.clock_time z]
  unfold msPerDay
  omega

theorem newDate_dateInput_zone (hrt : rt.ReadsCivil z') (h : 1970 ≤ yearOf (z.day date.time)) :
    newDate rt (some (.str (dateInput z date))) = .ok (timeClip ((startCivil z date.time).time z')) := by
  rw [dateInput_eq]
  exact congrArg Except.ok (hrt _ (startCivil_valid h))

theorem startCivil_year (h : 1970 ≤ yearOf (z.day date.time)) :
    ((startCivil z date.time).year : Int) = weekYear (z.day date.time) := by
  have hle : yearOf (z.day date.time) ≤ weekYear (z.day date.time) := by
    unfold weekYear
    split <;> omega
  exact Int.toNat_of_nonneg (by omega)

theorem readAs_of_newDate (hrt : rt.ReadsCivil z') (h : 1970 ≤ yearOf (z.day date.time))
    (hd : newDate rt (some (.str (dateInput z date))) = .ok (some start)) : ReadAs z date z' start := by
  rw [newDate_dateInput_zone hrt h, Except.ok.injEq, timeClip_int, Option.dite_none_right_eq_some] at hd
  obtain ⟨hvalid, hd⟩ := hd
  have htime : start.time = (startCivil z date.time).time z' := by rw [← Option.some.inj hd]
  have hyear := startCivil_year h
  obtain ⟨hday, hhour, hminute⟩ := Civil.fields (c := startCivil z date.time) z' (hour_lt z date.time)
    (minute_lt z date.time) (Nat.succ_pos 59)
  rw [hyear] at hday
  have hclock := clock_fields z date.time
  have hiff := startCivil_time_iff h
  rw [← htime] at hday hhour hminute
  refine ⟨hhour, hminute, ?_, hday, ?_⟩
  · have hsecond := (startCivil z date.time).clock_time z'
    rw [← htime] at hsecond
    unfold Zone.clock msPerDay at hsecond
    simp only [startCivil] at hsecond
    omega
  · rw [← hiff, hday]
    unfold Civil.time
    rw [hyear]
    simp only [startCivil]
    unfold msPerDay at *
    omega

/-- Whole minutes of these years are read by the profile screen. -/
theorem ReadAs.readable (cal : FormatterCalendar) (h : ReadAs z date z' start)
    (hyears : 1970 ≤ yearOf (z.day date.time) ∧ yearOf (z.day date.time) ≤ 9997) : Readable cal start := by
  have hminute := h.wholeMinute
  have hshift : z'.day start.time - 1 ≤ utc.day start.time ∧ utc.day start.time ≤ z'.day start.time + 1 := by
    have hbounded := z'.bounded
    have hutc : utc.minutes = 0 := rfl
    unfold Zone.day Zone.clock msPerDay
    omega
  obtain ⟨hlow, hhigh⟩ : 1970 ≤ weekYear (z.day date.time) ∧ weekYear (z.day date.time) ≤ 9998 := by
    unfold weekYear
    split <;> omega
  have hday : yearStart 1970 ≤ z'.day start.time ∧ z'.day start.time < yearStart 9998 + 397 := by
    have hfirst := yearStart_le hlow
    have hlast := yearStart_le hhigh
    obtain ⟨⟨hm₁, hm₂⟩, -, -⟩ := monthOf_spec (z.day date.time)
    obtain ⟨hd₁, hd₂⟩ := dayOf_spec (z.day date.time)
    have hmonth := monthStart_eq (weekYear (z.day date.time)) hm₁ (by omega)
    have hmonths : ∀ m : Nat, 1 ≤ m → m ≤ 12 → 0 ≤ monthStart 1 m ∧ monthStart 1 m ≤ 334 := by
      intro m h₁ h₂
      interval_cases m <;> decide
    have hbounds := hmonths _ hm₁ hm₂
    have hleap := leapDay_le (weekYear (z.day date.time))
    rw [h.day]
    unfold dayNumber
    split at hmonth <;> omega
  have hstarts : yearStart 1969 ≤ yearStart 1970 - 1 ∧ yearStart 9998 + 397 + 1 ≤ yearStart 10000 ∧
      gregorianStart ≤ yearStart 1969 := by decide
  refine ⟨by omega, ⟨le_yearOf_iff.mpr ?_, Int.lt_add_one_iff.mp (yearOf_lt_iff.mpr ?_)⟩, fun hlt => ?_⟩
  · have hzero : yearStart 0 ≤ yearStart 1969 := yearStart_le (by decide)
    omega
  · rw [show (9999 : Int) + 1 = 10000 from rfl]
    omega
  · omega

end Read

/-! ### The dates of a profile -/

/-- The date is the start of a booking that a call has answered. -/
def SeenIn (calls : List (Call Http)) (d : Date) : Prop :=
  ∃ filter bs, ⟨.bookingFind filter, .ok bs⟩ ∈ calls ∧ ∃ b ∈ bs, b.startDateTime = d

def ProfileData.dates (data : ProfileData) : List Date := data.s1 ++ data.s2 ++ data.s3 ++ data.s4

/-- Each date that is sent is one of a booking that was answered. -/
def SendsSeen (th : Thread Http Unit) : Prop :=
  ∀ r ∈ th.sent, ∀ data, r.data = some data → ∀ d ∈ data.dates, SeenIn th.calls d

section Profile
variable {rt : Runtime} {body : Json} {user : User} {calls calls' : List (Call Http)} {d : Date}

theorem sendsSeen_nil {t : Proc Http Unit} : SendsSeen ⟨calls, [], t⟩ := by
  simp [SendsSeen]

theorem sendsSeen_respond {r : Reply} {t : Proc Http Unit} (h : r.data = none) : SendsSeen ⟨calls, [r], t⟩ := by
  intro r' hr' data hdata
  obtain rfl := List.mem_singleton.mp hr'
  rw [h] at hdata
  cases hdata

theorem ProfileData.mem_dates {data : ProfileData} (h : d ∈ data.dates) : ∃ s, d ∈ data.starts s := by
  simp only [ProfileData.dates, List.mem_append] at h
  rcases h with ((h | h) | h) | h
  · exact ⟨.badminton, h⟩
  · exact ⟨.tennis, h⟩
  · exact ⟨.tableTennis, h⟩
  · exact ⟨.football, h⟩

theorem ProfileRead.sendsSeen {th : Thread Http Unit} (h : ProfileRead body th) : SendsSeen th := by
  intro r hr data hdata d hd
  obtain ⟨user, -, hsports⟩ := h r hr data hdata
  obtain ⟨s, hd⟩ := data.mem_dates hd
  obtain ⟨facility, bs, -, hbs, hstarts⟩ := hsports s
  rw [← List.mem_reverse, hstarts] at hd
  obtain ⟨b, hb, hd⟩ := List.mem_map.mp hd
  exact ⟨_, bs, hbs, b, hb, hd⟩

theorem Request.serve_sendsSeen (r : Request) : (r.serve rt).Along (fun _ => True) SendsSeen [] [] := by
  cases r with
  | register body =>
    refine ⟨sendsSeen_nil, fun user _ => ?_, fun _ _ => sendsSeen_respond rfl⟩
    cases user with
    | some user => exact sendsSeen_respond rfl
    | none =>
      exact ⟨sendsSeen_nil, fun _ _ => sendsSeen_respond rfl, fun _ _ => sendsSeen_respond rfl⟩
  | route r body =>
    rcases eq_or_ne r .booking with rfl | hne
    · refine serveBooking_replies.mono fun th hth r hr data hdata => ?_
      obtain ⟨success, msg, hbody, -⟩ := (hth r hr).confirms
      rw [Reply.data, hbody] at hdata
      cases hdata
    rcases eq_or_ne r .profile with rfl | hne'
    · exact serveProfile_read.mono fun _ => ProfileRead.sendsSeen
    refine ⟨sendsSeen_nil, fun user _ => ?_, fun _ _ => sendsSeen_respond rfl⟩
    cases user with
    | none => exact sendsSeen_nil
    | some user =>
    cases r with
    | booking => exact absurd rfl hne
    | profile => exact absurd rfl hne'
    | facilityAdd =>
      exact ⟨sendsSeen_nil, fun _ _ => sendsSeen_respond rfl, fun _ _ => sendsSeen_respond rfl⟩
    | allFacilities =>
      exact ⟨sendsSeen_nil, fun _ _ => sendsSeen_respond rfl, fun _ _ => sendsSeen_respond rfl⟩
    | getName =>
      refine ⟨sendsSeen_nil, fun user' _ => ?_, fun _ _ => sendsSeen_respond rfl⟩
      cases user' with
      | none => exact sendsSeen_nil
      | some user' => exact sendsSeen_respond rfl

end Profile

section Answers
variable {m : Mongoose} {rt : Runtime} {db : Db} {rs : List Request} {ts : List (Turn Http)} {n : Nat}
  {th : Thread Http Unit} {cal : FormatterCalendar}

/-- The bookings that a call has answered are stored. -/
def AttestsBookings (db : Db) (c : Call Http) : Prop :=
  ∀ filter bs, c = ⟨.bookingFind filter, .ok bs⟩ → ∀ b ∈ bs, b ∈ db.bookings

theorem serverPool_answered (hth : ((serverPool rt db rs).runs (Db.exec m) ts).threads[n]? = some th) :
    ∀ c ∈ th.calls, AttestsBookings ((serverPool rt db rs).runs (Db.exec m) ts).store c := by
  refine fun c hc => Pool.runs_calls (fun db fault op c h => ?_) db _ ts (fun t _ db op => ?_) hth hc
  · intro filter bs hcall b hb
    rw [attempt_bookings]
    exact List.mem_append_left _ (h filter bs hcall b hb)
  · intro filter bs hcall b hb
    obtain ⟨rfl, hanswer⟩ := Call.mk.inj hcall
    obtain ⟨hattempt, hanswer⟩ := answer_of_attempt (eq_of_heq hanswer)
    rw [hattempt]
    simp only [Db.exec] at hanswer ⊢
    cases hp : m.matchBooking filter with
    | error e =>
      rw [hp] at hanswer
      cases hanswer
    | ok p =>
      rw [hp] at hanswer
      obtain rfl := Except.ok.inj hanswer
      exact (List.mem_filter.mp hb).1

theorem serverPool_dates (hth : ((serverPool rt db rs).runs (Db.exec m) ts).threads[n]? = some th) {r : Reply}
    (hr : r ∈ th.sent) {data : ProfileData} (hdata : r.data = some data) :
    ∀ d ∈ data.dates, ∃ b ∈ ((serverPool rt db rs).runs (Db.exec m) ts).store.bookings, b.startDateTime = d := by
  intro d hd
  obtain ⟨req, hreq⟩ := serverPool_request hth
  obtain ⟨filter, bs, hc, b, hb, rfl⟩ := serverPool_along hth hreq (Request.serve_sendsSeen req) r hr data hdata d hd
  exact ⟨b, serverPool_answered hth _ hc filter bs rfl b hb, rfl⟩

/-- A reply is decoded when the dates in it are. -/
theorem fetchData_of_decoded {r : Reply} (h : ∀ data, r.data = some data → ∀ d ∈ data.dates, Decoded cal d) :
    cal.fetchData r = some ((fetchData r).1.map fun row => (row.sport, row.startDateTime.time)) := by
  refine fetchData_decoded fun row hrow => ?_
  obtain ⟨status, body⟩ := r
  cases body with
  | facilities facilities => cases hrow
  | object success msg court data =>
    cases data with
    | none => cases hrow
    | some data => exact h data rfl _ (mem_sportTable hrow)

end Answers

namespace BookingSystem

section Runs
variable {m : Mongoose} {rt : Runtime} {db : Db} {s : BookingSystem} {es : List SystemEvent} {i : Nat} {screen : Screen}
  {b : Booking} {z' : Zone}

/-- The dates of all presses are of this year or a later one on their devices. -/
def PickedSince (year : Int) (es : List SystemEvent) : Prop :=
  ∀ i (zone : Zone) currentUser (date : Date), .bookNowPressed i zone currentUser date ∈ es →
    year ≤ yearOf (zone.day date.time)

/-- The dates of all presses are of these years on their devices. -/
def PickedYears (lo hi : Int) (es : List SystemEvent) : Prop :=
  ∀ i (zone : Zone) currentUser (date : Date), .bookNowPressed i zone currentUser date ∈ es →
    lo ≤ yearOf (zone.day date.time) ∧ yearOf (zone.day date.time) ≤ hi

theorem PickedYears.since {lo hi : Int} (h : PickedYears lo hi es) : PickedSince lo es :=
  fun i zone currentUser date hmem => (h i zone currentUser date hmem).1

/-- No other client asks for bookings. -/
def OnlyScreensBook (es : List SystemEvent) : Prop := ∀ body, .request (.route .booking body) ∉ es

theorem BookedBy.readAs (h : BookedBy rt es i screen db b) (hrt : rt.ReadsCivil z') (hyears : PickedSince 1970 es) :
    ∃ (zone : Zone) (currentUser : Option FirebaseUser) (date : Date),
      .bookNowPressed i zone currentUser date ∈ es ∧ (11 ≤ zone.hour date.time ∧ zone.hour date.time < 19) ∧
      ReadAs zone date z' b.startDateTime := by
  obtain ⟨zone, date, user, hmem, -, -, hopen, hd⟩ := h.pressed
  exact ⟨zone, _, date, hmem, hopen, readAs_of_newDate hrt (hyears _ _ _ _ hmem) hd⟩

/-- While only screens book, every new booking starts at the picked hour and minute of a press, within the opening
    hours on the server's own clock. -/
theorem runs_openingHours (f : Foundation) (m : Mongoose) (rt : Runtime) (db : Db) (es : List SystemEvent) (z' : Zone)
    (h : (start db).runs f m rt es = some s) (hrt : rt.ReadsCivil z') (hyears : PickedSince 1970 es)
    (honly : OnlyScreensBook es) {b : Booking} (hb : b ∈ s.server.store.bookings) : b ∈ db.bookings ∨
      (11 ≤ z'.hour b.startDateTime.time ∧ z'.hour b.startDateTime.time < 19) ∧
      ∃ (i : Nat) (zone : Zone) (currentUser : Option FirebaseUser) (date : Date),
        .bookNowPressed i zone currentUser date ∈ es ∧ ReadAs zone date z' b.startDateTime := by
  cases (runs_inv h).stems hb with
  | old hold => exact Or.inl hold
  | asked body hmem => exact absurd hmem (honly body)
  | pressed i o hi hbooked =>
    obtain ⟨zone, currentUser, date, hmem, hopen, hread⟩ := hbooked.readAs hrt hyears
    refine Or.inr ⟨?_, i, zone, currentUser, date, hmem, hread⟩
    rw [hread.hour]
    exact hopen

/-- The booking at midday, and then a look at the profile -/
def middayProfiled : List SystemEvent :=
  middayBooked ++ .request (.route .profile (profileParameters "home@club.test")) :: List.replicate 9 (.turn ⟨1, none⟩)

theorem pickedYears_midday : PickedYears 1970 9997 middayProfiled := by
  intro i zone currentUser date hmem
  have hpress : zone = utc ∧ date = midsummer := by
    simp only [middayProfiled, middayBooked, List.mem_append, List.mem_cons, List.mem_replicate, reduceCtorEq,
      SystemEvent.bookNowPressed.injEq, List.not_mem_nil, and_false, or_false, false_or] at hmem
    exact ⟨hmem.2.1, hmem.2.2.2⟩
  rw [hpress.1, hpress.2]
  decide

theorem onlyScreensBook_midday : OnlyScreensBook middayProfiled := by
  intro body hmem
  simp [middayProfiled, middayBooked] at hmem

theorem runs_openingHours_club :
    ∃ s b, (start club).runs BookingScreen.plainFoundation mongoose6 utc.runtime middayProfiled = some s ∧
      b ∈ s.server.store.bookings ∧ 11 ≤ utc.hour b.startDateTime.time ∧ utc.hour b.startDateTime.time < 19 := by
  have hrun : (((start club).runs BookingScreen.plainFoundation mongoose6 utc.runtime middayProfiled).any fun s =>
      s.server.store.bookings.length == 1) = true := by decide +kernel
  obtain ⟨s, hs, hrun⟩ := (Option.any_eq_true _ _).mp hrun
  obtain ⟨b, hb⟩ := List.length_eq_one_iff.mp (eq_of_beq hrun)
  have hmem : b ∈ s.server.store.bookings := hb ▸ List.mem_singleton_self b
  rcases runs_openingHours BookingScreen.plainFoundation mongoose6 utc.runtime club middayProfiled utc hs utc.readsCivil
    pickedYears_midday.since onlyScreensBook_midday hmem with hold | ⟨hopen, -⟩
  · cases hold
  · exact ⟨s, b, hs, hmem, hopen⟩

theorem Inv.fetchData {cal : FormatterCalendar} (h : Inv m rt db es s) (hrt : rt.ReadsCivil z')
    (hyears : PickedYears 1970 9997 es) (honly : OnlyScreensBook es)
    (h0 : ∀ b ∈ db.bookings, Decoded cal b.startDateTime) {n : Nat} {r : Reply} (hr : s.reply n = some r) :
    cal.fetchData r = some ((KhelaKaro.fetchData r).1.map fun row => (row.sport, row.startDateTime.time)) := by
  obtain ⟨th, hth, -, hsent⟩ := h.served.of_reply hr
  refine fetchData_of_decoded fun data hdata d hd => ?_
  obtain ⟨ts, -, hserver⟩ := id h.served
  have hr : r ∈ th.sent := hsent ▸ List.mem_singleton_self r
  obtain ⟨b, hb, rfl⟩ := serverPool_dates (hserver ▸ hth) hr hdata d hd
  rw [← hserver] at hb
  cases h.stems hb with
  | old hold => exact h0 b hold
  | asked body hmem => exact absurd hmem (honly body)
  | pressed i o hi hbooked =>
    obtain ⟨zone, currentUser, date, hmem, -, hread⟩ := hbooked.readAs hrt hyears.since
    exact decoded_iff.mpr (hread.readable cal (hyears _ _ _ _ hmem))

/-- While only screens book, no profile that the server has answered traps the app, and the rows are those of the
    answer. -/
theorem runs_profiles (f : Foundation) (m : Mongoose) (rt : Runtime) (db : Db) (es : List SystemEvent) (z' : Zone)
    (cal : FormatterCalendar) (h : (start db).runs f m rt es = some s) (hrt : rt.ReadsCivil z')
    (hyears : PickedYears 1970 9997 es) (honly : OnlyScreensBook es)
    (h0 : ∀ b ∈ db.bookings, Decoded cal b.startDateTime) {n : Nat} {r : Reply} (hr : s.reply n = some r) :
    cal.fetchData r = some ((fetchData r).1.map fun row => (row.sport, row.startDateTime.time)) :=
  (runs_inv h).fetchData hrt hyears honly h0 hr

theorem runs_profiles_club :
    ∃ s r, (start club).runs BookingScreen.plainFoundation mongoose6 utc.runtime middayProfiled = some s ∧
      s.reply 1 = some r ∧ (fetchData r).1 = [⟨"Badminton", ⟨1718452800000, by decide⟩⟩] ∧
      changeover.fetchData r = some [("Badminton", 1718452800000)] := by
  have hrun : (((start club).runs BookingScreen.plainFoundation mongoose6 utc.runtime middayProfiled).any fun s =>
      (s.reply 1).any fun r => (fetchData r).1 == [⟨"Badminton", ⟨1718452800000, by decide⟩⟩]) = true := by
    decide +kernel
  obtain ⟨s, hs, hrun⟩ := (Option.any_eq_true _ _).mp hrun
  obtain ⟨r, hr, hrows⟩ := (Option.any_eq_true _ _).mp hrun
  have hrows := eq_of_beq hrows
  have hread := runs_profiles BookingScreen.plainFoundation mongoose6 utc.runtime club middayProfiled utc changeover hs
    utc.readsCivil pickedYears_midday onlyScreensBook_midday (fun b hb => by cases hb) hr
  rw [hrows] at hread
  exact ⟨s, r, hs, hr, hrows, hread⟩

end Runs
end BookingSystem
end KhelaKaro
