import KhelaKaro.Api
import KhelaKaro.Ledger

/-! # The booking route alone

What one `POST /api/booking` does when no other request runs between its awaits. Once its start is read the handler
is a sequence of steps (`bookingSteps`); they come to what `judge` computes, and `entry` is the booking that the whole
request adds. -/

namespace KhelaKaro
open Async

/-! ## The guards -/

namespace Booking

/-- The first guard never fires: its upper bound is a text that denotes no number. -/
theorem clashes_eq_false (rt : Runtime) (n : Number) (b : Booking) : b.clashes rt n = false := by
  simp only [clashes, datePlus_toNumber, Number.le_nan, Bool.and_false]

theorem any_clashes (rt : Runtime) (n : Number) (bs : List Booking) : bs.any (·.clashes rt n) = false := by
  simp [clashes_eq_false]

/-- The window of the second guard: 24 hours around a point 86.4 seconds before the earlier start. -/
theorem within24Hours_iff {b : Booking} {t : Int} :
    b.within24Hours (.val t) = true ↔ |b.startDateTime.time - 86400 - t| < 86400000 := by
  have hms : (60 * 60 * 1000 : Number) = .val 3600000 := by
    simp only [Number.ofNat_eq, Number.val_mul]
    norm_num
  simp only [within24Hours, hms]
  simp only [Number.ofNat_eq, Number.val_sub, Number.abs_val, Number.val_div, Number.lt_val,
    decide_eq_true_eq]
  rw [div_lt_iff₀ (by norm_num)]
  have hcast : ((b.startDateTime.time : ℚ) - (86400 : Nat) - t) = ((b.startDateTime.time - 86400 - t : Int) : ℚ) := by
    push_cast
    ring
  have hday : ((24 : Nat) : ℚ) * 3600000 = ((86400000 : Int) : ℚ) := by norm_num
  rw [hcast, hday, ← Int.cast_abs, Int.cast_lt]

theorem overlaps_iff {b : Booking} {s e : Int} :
    b.overlaps (.val s) (.val e) = true ↔ b.startDateTime.time < e ∧ s < b.endDateTime.time := by
  simp only [overlaps, Number.le_val, Int.cast_le, Bool.not_eq_true', Bool.or_eq_false_iff, decide_eq_false_iff_not,
    not_le]
  exact and_comm

end Booking

/-! ## The queries -/

section Queries
variable {m : Mongoose} {db : Db}

theorem exec_userFindOne {v : Option Json} {p : String → Bool} (h : m.matchEmail v = .ok p) :
    Db.exec m db (.userFindOne v) = (db, .ok (db.users.docs.find? (p ·.email))) := by
  simp only [Db.exec, h]
  rfl

theorem exec_userFindOne_error {v : Option Json} {e : JsError} (h : m.matchEmail v = .error e) :
    Db.exec m db (.userFindOne v) = (db, .error e) := by
  simp only [Db.exec, h]
  rfl

theorem exec_facilityFindOne {v : Option Json} {p : Option ℚ → Bool} (h : m.matchFacilityId v = .ok p) :
    Db.exec m db (.facilityFindOne v) = (db, .ok (db.facilities.docs.find? (p ·.facilityId))) := by
  simp only [Db.exec, h]
  rfl

theorem exec_facilityFindOne_error {v : Option Json} {e : JsError} (h : m.matchFacilityId v = .error e) :
    Db.exec m db (.facilityFindOne v) = (db, .error e) := by
  simp only [Db.exec, h]
  rfl

theorem exec_bookingFind_user (u : ObjectId) :
    Db.exec m db (.bookingFind { user := u }) = (db, .ok (db.bookings.filter (·.user == u))) := rfl

theorem exec_bookingFind_ref {v : Option Json} {q : ObjectId → Bool} (h : m.matchRef (.value v) = .ok q) :
    Db.exec m db (.bookingFind { facility := some (.value v) }) =
      (db, .ok (db.bookings.filter fun b => q b.facility)) := by
  simp only [Db.exec, Mongoose.matchBooking, Option.elim, h, bind, Except.bind, Except.map, pure, Except.pure,
    Bool.true_and, Bool.and_true]

theorem exec_bookingFind_ref_error {v : Option Json} {e : JsError} (h : m.matchRef (.value v) = .error e) :
    Db.exec m db (.bookingFind { facility := some (.value v) }) = (db, .error e) := by
  simp only [Db.exec, Mongoose.matchBooking, Option.elim, h, bind, Except.bind, Except.map]

theorem exec_bookingFind_facility (u f : ObjectId) :
    Db.exec m db (.bookingFind { user := u, facility := some (.id f) }) =
      (db, .ok (db.bookings.filter fun b => b.facility == f && b.user == u)) := rfl

@[simp] theorem toDate_time (d : Date) : (Number.val d.time).toDate = some d := by
  simp [Number.toDate, timeClip_int, d.valid]

theorem exec_bookingFindOne (d : Date) (u : ObjectId) :
    Db.exec m db (.bookingFindOne { startDateTime := getTime (some d), user := u }) =
      (db, .ok (db.bookings.find? fun b => b.startDateTime == d && b.user == u)) := by
  simp only [Db.exec, Mongoose.matchBooking, getTime, Option.elim, Mongoose.matchStart, toDate_time, bind,
    Except.bind, Except.map, pure, Except.pure, Bool.and_true]

/-- A start that is no date is refused by the query, before any comparison. -/
theorem exec_bookingFindOne_invalid (u : ObjectId) :
    Db.exec m db (.bookingFindOne { startDateTime := getTime none, user := u }) = (db, .error .castError) := rfl

/-- `chosenEndDate` of a valid start, when it is a date -/
def endOf (d : Date) : Option Date := (Number.val (d.time : ℚ) + .val slotLength).toDate

theorem exec_bookingSave (d : Date) (u f : ObjectId) (c : ℚ) :
    Db.exec m db (.bookingSave ⟨.val d.time, .val d.time + .val slotLength, u, f, c⟩) =
      match endOf d with
      | some e => ({ db with bookings := db.bookings ++ [⟨u, f, c, d, e⟩] }, .ok ())
      | none => (db, .error .validationError) := by
  simp only [Db.exec, Db.saveBooking, toDate_time, endOf]
  cases (Number.val (d.time : ℚ) + Number.val slotLength).toDate <;> rfl

end Queries

/-! ## The handler -/

/-- What `postBooking` computes for a start that was read as `d`: the reply and the booking it stores. -/
def judge (m : Mongoose) (db : Db) (chosenFacility : Option Json) (user : User) (d : Option Date) :
    Except JsError (Reply × Option Booking) := do
  let p ← m.matchFacilityId chosenFacility
  let ref ← Json.get chosenFacility "_id"
  let q ← m.matchRef (.value ref)
  let start ← d.elim (.error .castError) .ok
  if db.bookings.any fun b => b.startDateTime == start && b.user == user._id then
    return (.alreadyBooked, none)
  let facility ← (db.facilities.docs.find? (p ·.facilityId)).elim (.error .typeError) .ok
  if db.bookings.any fun b => (b.facility == facility._id && b.user == user._id) &&
      b.within24Hours (.val start.time) then
    return (.bookedWithin24Hours, none)
  match allocate (.val start.time) (.val start.time + .val slotLength) facility.count
      (db.bookings.filter (q ·.facility)) with
  | none => return (.allOccupied, none)
  | some court => do
    let stop ← (endOf start).elim (.error .validationError) .ok
    return (.booked court, some ⟨user._id, facility._id, court, start, stop⟩)

def Db.add (db : Db) (b : Option Booking) : Db := { db with bookings := db.bookings ++ b.toList }

@[simp] theorem Db.add_none (db : Db) : db.add none = db := by simp [Db.add]

variable {m : Mongoose} {rt : Runtime} {db : Db} {body : Json} {user : User}

theorem postBooking_throws {e : JsError} (h : newDate rt (body.prop "startDateTime") = .error e) :
    postBooking rt body user = .throw e := by
  unfold postBooking
  rw [h]
  rfl

/-- A call that is answered with the server error when it fails -/
abbrev orServerError (op : Op) (next : op.Ans → Proc Http Unit) : Proc Http Unit :=
  .await op next fun _ => respond .serverError

/-- The handler of a start that was read as `d`, with each error caught where it arises. -/
def bookingSteps (body : Json) (user : User) (d : Option Date) : Proc Http Unit :=
  orServerError (.bookingFind { user := user._id }) fun _ =>
  orServerError (.facilityFindOne (body.prop "facilityId")) fun facility =>
  match Json.get (body.prop "facilityId") "_id" with
  | .error _ => respond .serverError
  | .ok ref =>
    orServerError (.bookingFind { facility := some (.value ref) }) fun bookings =>
    orServerError (.bookingFindOne { startDateTime := getTime d, user := user._id }) fun alreadyBookedBooking =>
    match alreadyBookedBooking, facility with
    | some _, _ => respond .alreadyBooked
    | none, none => respond .serverError
    | none, some facility =>
      orServerError (.bookingFind { user := user._id, facility := some (.id facility._id) }) fun arr =>
      if arr.any (·.within24Hours (getTime d)) then respond .bookedWithin24Hours
      else match allocate (getTime d) (getTime d + .val slotLength) facility.count bookings with
        | none => respond .allOccupied
        | some court =>
          orServerError (.bookingSave ⟨getTime d, getTime d + .val slotLength, user._id, facility._id, court⟩) fun _ =>
          respond (.booked court)

/-- The first guard never fires, so the handler takes these steps. -/
theorem postBooking_eq {d : Option Date} (h : newDate rt (body.prop "startDateTime") = .ok d) :
    postBooking rt body user = bookingSteps body user d := by
  unfold postBooking bookingSteps
  rw [h]
  simp only [lift, Proc.pure_bind, Booking.find_bind, Facility.findOne_bind, Booking.findOne_bind,
    Booking.save_bind, tryCatch_eq, Proc.tryCatch_await, Proc.tryCatch_throw, Booking.any_clashes,
    Bool.false_eq_true, ↓reduceIte]
  refine congrArg (orServerError _) (funext fun _ => congrArg (orServerError _) (funext fun facility => ?_))
  cases Json.get (body.prop "facilityId") "_id" with
  | error e => rfl
  | ok ref =>
  refine congrArg (orServerError _) (funext fun bookings => congrArg (orServerError _) (funext fun b => ?_))
  cases b with
  | some b => rfl
  | none =>
  cases facility with
  | none => rfl
  | some facility =>
  refine congrArg (orServerError _) (funext fun arr => ?_)
  dsimp only
  rw [Proc.tryCatch_ite]
  split
  · rfl
  cases allocate (getTime d) (getTime d + .val slotLength) facility.count bookings <;> rfl

theorem postBooking_run {d : Option Date} (h : newDate rt (body.prop "startDateTime") = .ok d) :
    (postBooking rt body user).run (Db.exec m) Proc.noFaults db =
      match judge m db (body.prop "facilityId") user d with
      | .ok (r, b) => ⟨db.add b, [r], .ok ()⟩
      | .error _ => ⟨db, [.serverError], .ok ()⟩ := by
  rw [postBooking_eq h]
  unfold bookingSteps judge
  rw [Proc.run_noFaults_ok (exec_bookingFind_user _)]
  cases hp : m.matchFacilityId (body.prop "facilityId") with
  | error e =>
    rw [Proc.run_noFaults_error (exec_facilityFindOne_error hp)]
    rfl
  | ok p =>
  rw [Proc.run_noFaults_ok (exec_facilityFindOne hp), ok_bind]
  cases hr : Json.get (body.prop "facilityId") "_id" with
  | error e => rfl
  | ok ref =>
  simp only [ok_bind]
  cases hq : m.matchRef (.value ref) with
  | error e =>
    rw [Proc.run_noFaults_error (exec_bookingFind_ref_error hq)]
    rfl
  | ok q =>
  rw [Proc.run_noFaults_ok (exec_bookingFind_ref hq), ok_bind]
  cases d with
  | none =>
    rw [Proc.run_noFaults_error (exec_bookingFindOne_invalid _)]
    rfl
  | some start =>
  rw [Proc.run_noFaults_ok (exec_bookingFindOne ..), Option.elim_some, ok_bind, ← List.isSome_find?]
  cases db.bookings.find? fun b => b.startDateTime == start && b.user == user._id with
  | some b => simp [respond, pure, Except.pure]
  | none =>
  cases db.facilities.docs.find? (p ·.facilityId) with
  | none => rfl
  | some facility =>
  dsimp only
  rw [Proc.run_noFaults_ok (exec_bookingFind_facility ..)]
  simp only [Option.isSome_none, Bool.false_eq_true, ↓reduceIte, List.any_filter, getTime, Option.elim_some, ok_bind]
  split
  · simp [respond, pure, Except.pure]
  cases allocate (.val start.time) (.val start.time + .val slotLength) facility.count
      (db.bookings.filter fun b => q b.facility) with
  | none => simp [respond, pure, Except.pure]
  | some court =>
  cases he : endOf start with
  | none =>
    rw [Proc.run_noFaults_error (by rw [exec_bookingSave, he])]
    rfl
  | some stop =>
    rw [Proc.run_noFaults_ok (by rw [exec_bookingSave, he])]
    simp [respond, pure, Except.pure, Db.add, ok_bind]

/-! ## The whole request -/

def serveBooking (rt : Runtime) (body : Json) : Proc Http Unit := isLoggedIn body (postBooking rt body)

/-- `req.user` -/
def Db.loggedIn (m : Mongoose) (db : Db) (body : Json) : Option User :=
  (m.matchEmail (body.prop "email")).toOption.bind fun p => db.users.docs.find? (p ·.email)

/-- The booking a request adds. -/
def entry (m : Mongoose) (rt : Runtime) (db : Db) (body : Json) : Option Booking :=
  (db.loggedIn m body).bind fun user =>
    (newDate rt (body.prop "startDateTime")).toOption.bind fun d =>
      (judge m db (body.prop "facilityId") user d).toOption.bind Prod.snd

theorem loggedIn_of_error {e : JsError} (h : m.matchEmail (body.prop "email") = .error e) :
    db.loggedIn m body = none := by
  simp only [Db.loggedIn, h]
  rfl

theorem loggedIn_of_ok {p : String → Bool} (h : m.matchEmail (body.prop "email") = .ok p) :
    db.loggedIn m body = db.users.docs.find? (p ·.email) := by
  simp only [Db.loggedIn, h]
  rfl

theorem isLoggedIn_run_faults {next : User → Proc Http Unit} {faults : Nat → Option JsError} :
    (isLoggedIn body next).run (Db.exec m) faults db =
      match faults 0, m.matchEmail (body.prop "email") with
      | none, .ok _ =>
        match db.loggedIn m body with
        | none => ⟨db, [], .ok ()⟩
        | some user => (next user).run (Db.exec m) (fun n => faults (n + 1)) db
      | _, _ => ⟨db, [.message false "Email is not valid. Please log in again." 401], .ok ()⟩ := by
  unfold isLoggedIn
  cases hf : faults 0 with
  | some e =>
    rw [Proc.run_await_error (by rw [hf]; rfl)]
    rfl
  | none =>
    cases hp : m.matchEmail (body.prop "email") with
    | error e =>
      rw [Proc.run_await_error (by rw [hf]; exact exec_userFindOne_error hp)]
      rfl
    | ok p =>
      rw [Proc.run_await_ok (by rw [hf]; exact exec_userFindOne hp), loggedIn_of_ok hp]
      cases db.users.docs.find? (p ·.email) <;> rfl

theorem isLoggedIn_run {next : User → Proc Http Unit} :
    (isLoggedIn body next).run (Db.exec m) Proc.noFaults db =
      match m.matchEmail (body.prop "email") with
      | .error _ => ⟨db, [.message false "Email is not valid. Please log in again." 401], .ok ()⟩
      | .ok _ =>
        match db.loggedIn m body with
        | none => ⟨db, [], .ok ()⟩
        | some user => (next user).run (Db.exec m) Proc.noFaults db := by
  rw [isLoggedIn_run_faults]
  cases m.matchEmail (body.prop "email") <;> rfl

theorem isLoggedIn_run_user {next : User → Proc Http Unit} (hu : db.loggedIn m body = some user) :
    (isLoggedIn body next).run (Db.exec m) Proc.noFaults db = (next user).run (Db.exec m) Proc.noFaults db := by
  rw [isLoggedIn_run]
  cases hp : m.matchEmail (body.prop "email") with
  | error e =>
    rw [loggedIn_of_error hp] at hu
    cases hu
  | ok p => simp only [hu]

theorem serveBooking_run {d : Option Date} (hu : db.loggedIn m body = some user)
    (hd : newDate rt (body.prop "startDateTime") = .ok d) :
    (serveBooking rt body).run (Db.exec m) Proc.noFaults db =
      match judge m db (body.prop "facilityId") user d with
      | .ok (r, b) => ⟨db.add b, [r], .ok ()⟩
      | .error _ => ⟨db, [.serverError], .ok ()⟩ :=
  (isLoggedIn_run_user hu).trans (postBooking_run hd)

/-- The gate gives way to the route for the user it finds, or it ends the request. -/
theorem isLoggedIn_run_cases (next : User → Proc Http Unit) (faults : Nat → Option JsError) :
    (∃ user, faults 0 = none ∧ db.loggedIn m body = some user ∧ (isLoggedIn body next).run (Db.exec m) faults db =
        (next user).run (Db.exec m) (fun n => faults (n + 1)) db) ∨
      ¬(faults 0 = none ∧ (db.loggedIn m body).isSome) ∧ ∃ sent,
        (isLoggedIn body next).run (Db.exec m) faults db = ⟨db, sent, .ok ()⟩ ∧
        ∀ r ∈ sent, r = .message false "Email is not valid. Please log in again." 401 := by
  rw [isLoggedIn_run_faults]
  cases hgate : faults 0 with
  | some e => exact Or.inr ⟨by simp, _, rfl, fun r hr => List.mem_singleton.mp hr⟩
  | none =>
    cases hp : m.matchEmail (body.prop "email") with
    | error e => exact Or.inr ⟨by simp [loggedIn_of_error hp], _, rfl, fun r hr => List.mem_singleton.mp hr⟩
    | ok p =>
      cases hu : db.loggedIn m body with
      | none => exact Or.inr ⟨by simp, [], rfl, by simp⟩
      | some user => exact Or.inl ⟨user, rfl, rfl, rfl⟩

theorem serveBooking_store :
    ((serveBooking rt body).run (Db.exec m) Proc.noFaults db).store = db.add (entry m rt db body) := by
  unfold serveBooking entry
  rw [isLoggedIn_run]
  cases hp : m.matchEmail (body.prop "email") with
  | error e => simp [loggedIn_of_error hp]
  | ok p =>
    cases hu : db.loggedIn m body with
    | none => simp
    | some user =>
      cases hd : newDate rt (body.prop "startDateTime") with
      | error e =>
        simp only [postBooking_throws hd, Proc.run_throw]
        simp [Except.toOption]
      | ok d =>
        simp only [postBooking_run hd, Option.bind_some, Except.toOption]
        cases judge m db (body.prop "facilityId") user d <;> simp

/-- The bookings under requests that are served one after the other. -/
def bookingLedger (m : Mongoose) (rt : Runtime) : Ledger Db Booking Json where
  step db body := ((serveBooking rt body).run (Db.exec m) Proc.noFaults db).store
  log := Db.bookings
  entry := entry m rt
  log_step db body := by rw [serveBooking_store]; rfl

theorem bookingLedger_step (db : Db) (body : Json) :
    (bookingLedger m rt).step db body = db.add (entry m rt db body) :=
  serveBooking_store

/-! ## What a request asks for -/

/-- The request is by `user`, for `facility` from `start` on, and reads `read` as the bookings of the facility. -/
structure Asks (m : Mongoose) (rt : Runtime) (db : Db) (body : Json) (user : User) (facility : Facility)
    (start : Date) (read : List Booking) : Prop where
  caller : db.loggedIn m body = some user
  instant : newDate rt (body.prop "startDateTime") = .ok (some start)
  place : ∃ p, m.matchFacilityId (body.prop "facilityId") = .ok p ∧
    db.facilities.docs.find? (p ·.facilityId) = some facility
  list : ∃ ref q, Json.get (body.prop "facilityId") "_id" = .ok ref ∧ m.matchRef (.value ref) = .ok q ∧
    read = db.bookings.filter (q ·.facility)

theorem Asks.start_eq {facility : Facility} {start d : Date} {read : List Booking}
    (h : Asks m rt db body user facility start read) (hd : newDate rt (body.prop "startDateTime") = .ok (some d)) :
    start = d :=
  Option.some.inj (Except.ok.inj (h.instant.symm.trans hd))

def SameStart (db : Db) (user : User) (start : Date) : Prop :=
  ∃ b ∈ db.bookings, b.startDateTime = start ∧ b.user = user._id

/-- The 24-hour check refuses this start. -/
def SameDay (db : Db) (user : User) (facility : Facility) (start : Date) : Prop :=
  ∃ b ∈ db.bookings, b.facility = facility._id ∧ b.user = user._id ∧ b.within24Hours (.val start.time) = true

theorem any_sameStart {start : Date} :
    (db.bookings.any fun b => b.startDateTime == start && b.user == user._id) = true ↔ SameStart db user start := by
  simp only [SameStart, List.any_eq_true, Bool.and_eq_true, beq_iff_eq]

theorem any_sameDay {facility : Facility} {start : Date} :
    (db.bookings.any fun b => (b.facility == facility._id && b.user == user._id) &&
      b.within24Hours (.val start.time)) = true ↔ SameDay db user facility start := by
  simp only [SameDay, List.any_eq_true, Bool.and_eq_true, beq_iff_eq, and_assoc]

/-- The request passes both checks and gets a court. -/
structure Granted (m : Mongoose) (rt : Runtime) (db : Db) (body : Json) (user : User) (facility : Facility)
    (start : Date) (read : List Booking) (court : Nat) (stop : Date) : Prop extends
    Asks m rt db body user facility start read where
  freshStart : ¬SameStart db user start
  otherDay : ¬SameDay db user facility start
  allocated : allocate (.val start.time) (.val start.time + .val slotLength) facility.count read = some court
  ends : endOf start = some stop

section Entry
variable {facility : Facility} {start stop : Date} {read : List Booking} {court : Nat}

open Classical in
theorem judge_of_asks (h : Asks m rt db body user facility start read) :
    judge m db (body.prop "facilityId") user (some start) =
      if SameStart db user start then .ok (.alreadyBooked, none)
      else if SameDay db user facility start then .ok (.bookedWithin24Hours, none)
      else match allocate (.val start.time) (.val start.time + .val slotLength) facility.count read with
        | none => .ok (.allOccupied, none)
        | some court => (endOf start).elim (.error .validationError) fun stop =>
            .ok (.booked court, some ⟨user._id, facility._id, court, start, stop⟩) := by
  obtain ⟨-, -, ⟨p, hp, hf⟩, ⟨ref, q, href, hq, rfl⟩⟩ := h
  simp only [judge, hp, href, hq, hf, ok_bind, Option.elim_some, any_sameStart, any_sameDay]
  split
  · rfl
  split
  · rfl
  cases allocate (.val start.time) (.val start.time + .val slotLength) facility.count
      (db.bookings.filter fun b => q b.facility) with
  | none => rfl
  | some court => cases endOf start <;> rfl

theorem asks_of_judge {d : Option Date} {r : Reply × Option Booking} (hu : db.loggedIn m body = some user)
    (hd : newDate rt (body.prop "startDateTime") = .ok d)
    (h : judge m db (body.prop "facilityId") user d = .ok r) :
    ∃ start, d = some start ∧
      (r = (.alreadyBooked, none) ∧ SameStart db user start ∨
        ∃ facility read, Asks m rt db body user facility start read) := by
  unfold judge at h
  cases hp : m.matchFacilityId (body.prop "facilityId") with
  | error e => simp [hp, error_bind] at h
  | ok p =>
  cases href : Json.get (body.prop "facilityId") "_id" with
  | error e => simp [hp, href, ok_bind, error_bind] at h
  | ok ref =>
  cases hq : m.matchRef (.value ref) with
  | error e => simp [hp, href, hq, ok_bind, error_bind] at h
  | ok q =>
  cases d with
  | none => simp [hp, href, hq, ok_bind, error_bind] at h
  | some start =>
  refine ⟨start, rfl, ?_⟩
  simp only [hp, href, hq, ok_bind, Option.elim_some] at h
  split at h
  · rename_i hs
    simp only [pure, Except.pure, Except.ok.injEq] at h
    exact Or.inl ⟨h.symm, any_sameStart.mp hs⟩
  cases hf : db.facilities.docs.find? (p ·.facilityId) with
  | none => simp [hf, error_bind] at h
  | some facility => exact Or.inr ⟨facility, _, hu, hd, ⟨p, hp, hf⟩, ⟨ref, q, href, hq, rfl⟩⟩

theorem entry_eq_some_iff {b : Booking} :
    entry m rt db body = some b ↔ ∃ user facility start read court stop,
      Granted m rt db body user facility start read court stop ∧
        b = ⟨user._id, facility._id, court, start, stop⟩ := by
  classical
  constructor
  · intro h
    simp only [entry, Option.bind_eq_some_iff] at h
    obtain ⟨user, hu, d, hd, r, hr, hb⟩ := h
    have hd : newDate rt (body.prop "startDateTime") = .ok d := by
      cases hnd : newDate rt (body.prop "startDateTime") <;> simp_all [Except.toOption]
    have hr : judge m db (body.prop "facilityId") user d = .ok r := by
      cases hj : judge m db (body.prop "facilityId") user d <;> simp_all [Except.toOption]
    obtain ⟨start, rfl, ⟨rfl, -⟩ | ⟨facility, read, ha⟩⟩ := asks_of_judge hu hd hr
    · cases hb
    rw [judge_of_asks ha] at hr
    split at hr
    · cases hr
      cases hb
    rename_i hs
    split at hr
    · cases hr
      cases hb
    rename_i hday
    split at hr
    · cases hr
      cases hb
    rename_i court hc
    cases he : endOf start with
    | none => simp [he] at hr
    | some stop =>
      simp only [he, Option.elim_some, Except.ok.injEq] at hr
      subst hr
      cases hb
      exact ⟨user, facility, start, read, court, stop, ⟨ha, hs, hday, hc, he⟩, rfl⟩
  · rintro ⟨user, facility, start, read, court, stop, ⟨ha, hs, hday, hc, he⟩, rfl⟩
    simp only [entry, ha.caller, ha.instant, judge_of_asks ha, if_neg hs, if_neg hday, hc, he, Option.bind_some,
      Except.toOption, Option.elim_some]

end Entry
end KhelaKaro
