import KhelaKaro.Theorems.SerialBookings

/-! # Outcomes of a booking request

How one call of `postBooking` can end, whichever of its database calls fail: refused or failed with nothing stored, at
a full facility, or with the booking of its answer. -/

namespace KhelaKaro
open Async

section Outcomes
variable {m : Mongoose} {rt : Runtime} {db : Db} {body : Json} {user : User} {facility : Facility} {start : Date}
  {read : List Booking} {faults : Nat → Option JsError}

/-! ### Failing calls -/

theorem postBooking_recovers {d : Option Date} (h : newDate rt (body.prop "startDateTime") = .ok d) :
    (postBooking rt body user).Recovers (Db.exec m) db (respond .serverError) := by
  rw [postBooking_eq h]
  refine ⟨fun _ => rfl, fun _ => Or.inr ⟨rfl, fun _ => rfl, fun facility => Or.inr ⟨rfl, ?_⟩⟩⟩
  cases href : Json.get (body.prop "facilityId") "_id" with
  | error e => trivial
  | ok ref =>
  refine ⟨fun _ => rfl, fun read => Or.inr ⟨rfl, fun _ => rfl, fun b => Or.inr ⟨rfl, ?_⟩⟩⟩
  cases b with
  | some b => trivial
  | none =>
  cases facility with
  | none => trivial
  | some facility =>
  refine ⟨fun _ => rfl, fun sport => Or.inr ⟨rfl, ?_⟩⟩
  dsimp only
  split
  · trivial
  cases allocate (getTime d) (getTime d + .val slotLength) facility.count read with
  | none => trivial
  | some court => exact ⟨fun _ => rfl, fun _ => Or.inl trivial⟩

theorem respond_still (r : Reply) : (respond r).Still := trivial

/-- With failing calls the request ends as without them, or in a server error with nothing stored. -/
theorem postBooking_run_cases {d : Option Date} (h : newDate rt (body.prop "startDateTime") = .ok d) :
    (postBooking rt body user).run (Db.exec m) faults db =
        (postBooking rt body user).run (Db.exec m) Proc.noFaults db ∨
      (postBooking rt body user).run (Db.exec m) faults db = ⟨db, [.serverError], .ok ()⟩ := by
  by_cases hall : ∀ n < (postBooking rt body user).awaits (Db.exec m) db, faults n = none
  · exact Or.inl (Proc.run_eq_noFaults hall)
  · simp only [not_forall] at hall
    obtain ⟨n, hn, hf⟩ := hall
    exact Or.inr ((postBooking_recovers h).run (respond_still _) hn hf)

/-! ### The ends of a request -/

/-- The user's request for `facility` from `start` on passes both checks while the counter reaches the count. -/
structure FindsFull (m : Mongoose) (rt : Runtime) (db : Db) (body : Json) (user : User) (facility : Facility)
    (start : Date) (read : List Booking) : Prop extends Asks m rt db body user facility start read where
  freshStart : ¬SameStart db user start
  otherDay : ¬SameDay db user facility start
  full : Reaches (meeting (.val start.time) (.val start.time + .val slotLength) read).length facility.count

theorem FindsFull.judge (h : FindsFull m rt db body user facility start read) :
    judge m db (body.prop "facilityId") user (some start) = .ok (.allOccupied, none) := by
  rw [judge_of_asks h.toAsks, if_neg h.freshStart, if_neg h.otherDay, allocate_eq_none_iff.mpr h.full]

/-- The request is then settled by its five queries. -/
theorem FindsFull.awaits (h : FindsFull m rt db body user facility start read) :
    (postBooking rt body user).awaits (Db.exec m) db = 5 := by
  obtain ⟨⟨-, hinstant, ⟨p, hp, hf⟩, ⟨ref, q, href, hq, rfl⟩⟩, hs, hday, hfull⟩ := h
  rw [← any_sameStart, ← List.isSome_find?, Bool.not_eq_true, Option.isSome_eq_false_iff,
    Option.isNone_iff_eq_none] at hs
  rw [← any_sameDay, Bool.not_eq_true] at hday
  rw [postBooking_eq hinstant]
  unfold bookingSteps
  rw [href, Proc.awaits_ok (exec_bookingFind_user _), Proc.awaits_ok (exec_facilityFindOne hp), hf,
    Proc.awaits_ok (exec_bookingFind_ref hq), Proc.awaits_ok (exec_bookingFindOne ..), hs]
  dsimp only
  rw [Proc.awaits_ok (exec_bookingFind_facility ..)]
  simp only [List.any_filter, getTime, hday, Bool.false_eq_true, ↓reduceIte, allocate_eq_none_iff.mpr hfull]
  rfl

/-- The ends of a request of `user`. -/
inductive BookingEnd (m : Mongoose) (rt : Runtime) (db : Db) (body : Json) (user : User) :
    Proc.Outcome Http Db Unit → Prop where
  | thrown (e : JsError) : BookingEnd m rt db body user ⟨db, [], .error e⟩
  | refused (r : Reply) (hr : r.success = false ∧ r.courtNumber = none) : BookingEnd m rt db body user ⟨db, [r], .ok ()⟩
  | full {facility : Facility} {start : Date} {read : List Booking}
    (h : FindsFull m rt db body user facility start read) : BookingEnd m rt db body user ⟨db, [.allOccupied], .ok ()⟩
  | booked {facility : Facility} {start stop : Date} {read : List Booking} {court : Nat}
    (h : Granted m rt db body user facility start read court stop) :
    BookingEnd m rt db body user ⟨db.add (some ⟨user._id, facility._id, court, start, stop⟩), [.booked court], .ok ()⟩

theorem BookingEnd.settled (r : Reply) (h : r.success = false ∧ r.courtNumber = none) :
    BookingEnd m rt db body user ⟨db.add none, [r], .ok ()⟩ := by
  rw [Db.add_none]
  exact .refused r h

theorem postBooking_end_noFaults (hu : db.loggedIn m body = some user) :
    BookingEnd m rt db body user ((postBooking rt body user).run (Db.exec m) Proc.noFaults db) := by
  classical
  cases hd : newDate rt (body.prop "startDateTime") with
  | error e =>
    rw [postBooking_throws hd]
    exact .thrown e
  | ok d =>
  rw [postBooking_run hd]
  cases hj : judge m db (body.prop "facilityId") user d with
  | error e => exact .refused _ ⟨rfl, rfl⟩
  | ok answer =>
  obtain ⟨start, rfl, ⟨rfl, -⟩ | ⟨facility, read, ha⟩⟩ := asks_of_judge hu hd hj
  · exact .settled _ ⟨rfl, rfl⟩
  rw [judge_of_asks ha] at hj
  by_cases hs : SameStart db user start
  · rw [if_pos hs] at hj
    cases hj
    exact .settled _ ⟨rfl, rfl⟩
  by_cases hday : SameDay db user facility start
  · rw [if_neg hs, if_pos hday] at hj
    cases hj
    exact .settled _ ⟨rfl, rfl⟩
  rw [if_neg hs, if_neg hday] at hj
  cases hc : allocate (.val start.time) (.val start.time + .val slotLength) facility.count read with
  | none =>
    rw [hc] at hj
    cases hj
    dsimp only
    rw [Db.add_none]
    exact .full ⟨ha, hs, hday, allocate_eq_none_iff.mp hc⟩
  | some court =>
    cases he : endOf start with
    | none => simp only [hc, he, Option.elim_none, reduceCtorEq] at hj
    | some stop =>
      simp only [hc, he, Option.elim_some, Except.ok.injEq] at hj
      subst hj
      exact .booked ⟨ha, hs, hday, hc, he⟩

theorem postBooking_end (hu : db.loggedIn m body = some user) :
    BookingEnd m rt db body user ((postBooking rt body user).run (Db.exec m) faults db) := by
  cases hd : newDate rt (body.prop "startDateTime") with
  | error e =>
    rw [postBooking_throws hd]
    exact .thrown e
  | ok d =>
  rcases postBooking_run_cases hd with h | h
  · rw [h]
    exact postBooking_end_noFaults hu
  · rw [h]
    exact .refused _ ⟨rfl, rfl⟩

end Outcomes

/-! ### The success flag -/

/-- A success answers the one booking that was added, and anything else adds none. -/
structure Truthful (m : Mongoose) (rt : Runtime) (db : Db) (body : Json) (user : User)
    (o : Proc.Outcome Http Db Unit) : Prop where
  success : ∀ r ∈ o.sent, r.success = true → ∃ p facility start stop court,
    m.matchFacilityId (body.prop "facilityId") = .ok p ∧ db.facilities.docs.find? (p ·.facilityId) = some facility ∧
      newDate rt (body.prop "startDateTime") = .ok (some start) ∧ r.courtNumber = some court ∧
      o.store.bookings = db.bookings ++ [⟨user._id, facility._id, court, start, stop⟩]
  failure : (∀ r ∈ o.sent, r.success = false) → o.store.bookings = db.bookings

section Truthful
variable {m : Mongoose} {rt : Runtime} {db : Db} {body : Json} {user : User} {o : Proc.Outcome Http Db Unit}

theorem Truthful.of_refused {r : Reply} (hr : r.success = false) : Truthful m rt db body user ⟨db, [r], .ok ()⟩ := by
  refine ⟨fun r' hr' hs => ?_, fun _ => rfl⟩
  rw [List.mem_singleton] at hr'
  rw [hr', hr] at hs
  cases hs

theorem Truthful.of_granted {facility : Facility} {start stop : Date} {read : List Booking} {court : Nat}
    (h : Granted m rt db body user facility start read court stop) : Truthful m rt db body user
      ⟨db.add (some ⟨user._id, facility._id, court, start, stop⟩), [.booked court], .ok ()⟩ := by
  obtain ⟨p, hp, hf⟩ := h.place
  refine ⟨fun r hr _ => ?_, fun hr => ?_⟩
  · rw [List.mem_singleton] at hr
    subst hr
    exact ⟨p, facility, start, stop, court, hp, hf, h.instant, rfl, rfl⟩
  · cases hr _ (List.mem_singleton_self _)

theorem BookingEnd.truthful (h : BookingEnd m rt db body user o)
    (hfull : ∀ facility start read, ¬FindsFull m rt db body user facility start read) :
    Truthful m rt db body user o := by
  cases h with
  | thrown e => exact ⟨nofun, fun _ => rfl⟩
  | refused r hr => exact .of_refused hr.1
  | full h => exact absurd h (hfull _ _ _)
  | booked h => exact .of_granted h

end Truthful

theorem truthful_iff (m : Mongoose) (rt : Runtime) (db : Db) (body : Json) (user : User)
    (faults : Nat → Option JsError) (hu : db.loggedIn m body = some user) :
    Truthful m rt db body user ((postBooking rt body user).run (Db.exec m) faults db) ↔
      ¬((∀ i < 5, faults i = none) ∧ ∃ facility start read, FindsFull m rt db body user facility start read) := by
  constructor
  · rintro h ⟨hfaults, facility, start, read, hfull⟩
    have hrun : (postBooking rt body user).run (Db.exec m) faults db = ⟨db, [.allOccupied], .ok ()⟩ := by
      rw [Proc.run_eq_noFaults (by rw [hfull.awaits]; exact hfaults), postBooking_run hfull.instant, hfull.judge]
      dsimp only
      rw [Db.add_none]
    rw [hrun] at h
    obtain ⟨p, facility, start, stop, court, -, -, -, -, hadd⟩ := h.success _ (List.mem_singleton_self _) rfl
    simp at hadd
  · intro hnot
    by_cases hcalls : ∀ n < (postBooking rt body user).awaits (Db.exec m) db, faults n = none
    · have hfull : ∀ facility start read, ¬FindsFull m rt db body user facility start read := by
        intro facility start read h
        rw [h.awaits] at hcalls
        exact hnot ⟨hcalls, facility, start, read, h⟩
      rw [Proc.run_eq_noFaults hcalls]
      exact (postBooking_end_noFaults hu).truthful hfull
    · simp only [not_forall] at hcalls
      obtain ⟨n, hn, hf⟩ := hcalls
      cases hd : newDate rt (body.prop "startDateTime") with
      | error e =>
        rw [postBooking_throws hd] at hn
        exact absurd hn (Nat.not_lt_zero n)
      | ok d =>
        rw [(postBooking_recovers hd).run (respond_still _) hn hf]
        exact .of_refused rfl

theorem truthful_iff_club : Truthful mongoose6 utc.runtime club homeRequest homePlayer
      ((postBooking utc.runtime homeRequest homePlayer).run (Db.exec mongoose6) (fun _ => none) club) ↔
    ¬((∀ i < 5, (fun _ : Nat => (none : Option JsError)) i = none) ∧ ∃ facility start read,
      FindsFull mongoose6 utc.runtime club homeRequest homePlayer facility start read) :=
  truthful_iff mongoose6 utc.runtime club homeRequest homePlayer (fun _ => none) rfl

/-- The club with one facility, of no courts -/
def closedClub : Db := { club with facilities := ⟨[⟨⟨1⟩, some 1, some "Badminton", some 0⟩], by decide⟩ }

theorem not_truthful_closedClub : closedClub.loggedIn mongoose6 homeRequest = some homePlayer ∧
    ¬Truthful mongoose6 utc.runtime closedClub homeRequest homePlayer
      ((postBooking utc.runtime homeRequest homePlayer).run (Db.exec mongoose6) Proc.noFaults closedClub) := by
  refine ⟨rfl, fun h => ?_⟩
  have hsent : ((postBooking utc.runtime homeRequest homePlayer).run (Db.exec mongoose6) Proc.noFaults
      closedClub).sent = [.allOccupied] := by decide +kernel
  have hnone : ((postBooking utc.runtime homeRequest homePlayer).run (Db.exec mongoose6) Proc.noFaults
      closedClub).store.bookings = [] := by decide +kernel
  obtain ⟨p, facility, start, stop, court, -, -, -, -, hadd⟩ :=
    h.success .allOccupied (by rw [hsent]; exact List.mem_singleton_self _) rfl
  rw [hnone] at hadd
  cases hadd

/-! ### Stored intervals -/

theorem endOf_le {start stop : Date} (h : endOf start = some stop) : start.time + slotLength ≤ maxTime := by
  have hstop := stop.valid
  rw [endOf_time h] at hstop
  omega

/-- What is left of a request that was read with the start `d`. -/
structure StoresIntervals (m : Mongoose) (db : Db) (body : Json) (d : Option Date) (gate : Option JsError)
    (o : Proc.Outcome Http Db Unit) : Prop where
  added : ∃ new, o.store.bookings = db.bookings ++ new ∧
    ∀ b ∈ new, d = some b.startDateTime ∧ b.startDateTime.time < b.endDateTime.time
  invalid : d = none → gate = none → (db.loggedIn m body).isSome → o.sent = [.serverError]
  unending : (∀ start, d = some start → maxTime < start.time + slotLength) →
    o.store.bookings = db.bookings ∧ ∀ r ∈ o.sent, r.courtNumber = none

section Intervals
variable {m : Mongoose} {rt : Runtime} {db : Db} {body : Json} {user : User} {d : Option Date} {gate : Option JsError}

/-- Before the route the gate stores nothing and names no court. -/
theorem StoresIntervals.of_gate {sent : List Reply} (hsent : ∀ r ∈ sent, r.courtNumber = none)
    (h : ¬(gate = none ∧ (db.loggedIn m body).isSome)) : StoresIntervals m db body d gate ⟨db, sent, .ok ()⟩ where
  added := ⟨[], (List.append_nil _).symm, nofun⟩
  invalid _ hg hu := absurd ⟨hg, hu⟩ h
  unending _ := ⟨rfl, hsent⟩

/-- An invalid start ends in the server error of its first cast. -/
theorem postBooking_invalid (h : newDate rt (body.prop "startDateTime") = .ok none)
    (hu : db.loggedIn m body = some user) (faults : Nat → Option JsError) :
    (postBooking rt body user).run (Db.exec m) faults db = ⟨db, [.serverError], .ok ()⟩ := by
  rcases postBooking_run_cases h with hrun | hrun
  · rw [hrun, postBooking_run h]
    cases hj : judge m db (body.prop "facilityId") user none with
    | error e => rfl
    | ok answer =>
      obtain ⟨start, hstart, -⟩ := asks_of_judge hu h hj
      cases hstart
  · exact hrun

theorem BookingEnd.added {o : Proc.Outcome Http Db Unit} (ho : BookingEnd m rt db body user o)
    (h : newDate rt (body.prop "startDateTime") = .ok d) : ∃ new, o.store.bookings = db.bookings ++ new ∧
      ∀ b ∈ new, d = some b.startDateTime ∧ b.startDateTime.time < b.endDateTime.time := by
  cases ho with
  | thrown e => exact ⟨[], (List.append_nil _).symm, nofun⟩
  | refused r hr => exact ⟨[], (List.append_nil _).symm, nofun⟩
  | full hfull => exact ⟨[], (List.append_nil _).symm, nofun⟩
  | booked hg =>
    refine ⟨_, rfl, fun b hb => ?_⟩
    rw [Option.toList_some, List.mem_singleton] at hb
    subst hb
    have hstart := hg.instant
    rw [h, Except.ok.injEq] at hstart
    have hlen : (0 : Int) < slotLength := by decide
    refine ⟨hstart, ?_⟩
    dsimp only
    rw [endOf_time hg.ends]
    omega

theorem BookingEnd.unending {o : Proc.Outcome Http Db Unit} (ho : BookingEnd m rt db body user o)
    (h : newDate rt (body.prop "startDateTime") = .ok d)
    (hlate : ∀ start, d = some start → maxTime < start.time + slotLength) :
    o.store.bookings = db.bookings ∧ ∀ r ∈ o.sent, r.courtNumber = none := by
  cases ho with
  | thrown e => exact ⟨rfl, nofun⟩
  | refused r hr => exact ⟨rfl, fun r' hr' => by rw [List.mem_singleton.mp hr', hr.2]⟩
  | full hfull => exact ⟨rfl, fun r' hr' => by rw [List.mem_singleton.mp hr']; rfl⟩
  | booked hg =>
    have hstart := hg.instant
    rw [h, Except.ok.injEq] at hstart
    exact absurd (endOf_le hg.ends) (not_le.mpr (hlate _ hstart))

theorem StoresIntervals.of_route (h : newDate rt (body.prop "startDateTime") = .ok d)
    (hu : db.loggedIn m body = some user) (faults : Nat → Option JsError) :
    StoresIntervals m db body d gate ((postBooking rt body user).run (Db.exec m) faults db) where
  added := (postBooking_end hu).added h
  invalid hd _ _ := by
    subst hd
    rw [postBooking_invalid h hu]
  unending := (postBooking_end hu).unending h

end Intervals

/-- Every value of `new Date`, every database and every failing call. -/
theorem serveBooking_storesIntervals (m : Mongoose) (rt : Runtime) (db : Db) (body : Json) (d : Option Date)
    (faults : Nat → Option JsError) (h : newDate rt (body.prop "startDateTime") = .ok d) :
    StoresIntervals m db body d (faults 0) ((serveBooking rt body).run (Db.exec m) faults db) := by
  unfold serveBooking
  rcases isLoggedIn_run_cases (postBooking rt body) faults with ⟨user, -, hu, hrun⟩ | ⟨hgate, sent, hrun, hsent⟩
  · rw [hrun]
    exact .of_route h hu _
  · rw [hrun]
    refine .of_gate (fun r hr => ?_) hgate
    rw [hsent r hr]
    rfl

theorem serveBooking_storesIntervals_club : StoresIntervals mongoose6 club homeRequest
    (some homeBooking.startDateTime) none
    ((serveBooking utc.runtime homeRequest).run (Db.exec mongoose6) (fun _ => none) club) :=
  serveBooking_storesIntervals mongoose6 utc.runtime club homeRequest _ (fun _ => none) (by decide +kernel)

end KhelaKaro
