import KhelaKaro.Store

/-! # The API

The routes of `api/routes` behind the `isLoggedIn` gate, each the procedure that serves one request. A reply is sent
as an express handler sends it, so a procedure may send none, or several. -/

namespace KhelaKaro
open Async

structure ProfileData where
  s1 : List Date
  s2 : List Date
  s3 : List Date
  s4 : List Date
  deriving DecidableEq

inductive Body where
  | object (success : Bool) (msg : String) (courtNumber : Option Nat) (data : Option ProfileData)
  | facilities (docs : List Facility)
  deriving DecidableEq

structure Reply where
  status : Nat := 200
  body : Body
  deriving DecidableEq

namespace Reply

def message (success : Bool) (msg : String) (status : Nat := 200) : Reply := ⟨status, .object success msg none none⟩

def serverError : Reply := message false "Server Error" 500

def success (r : Reply) : Bool :=
  match r.body with
  | .object success _ _ _ => success
  | .facilities _ => false

def courtNumber (r : Reply) : Option Nat :=
  match r.body with
  | .object _ _ court _ => court
  | .facilities _ => none

end Reply

/-- What a route exchanges with the database and the client. -/
abbrev Http : Interface := ⟨Op, Op.Ans, JsError, Reply⟩

/-- The database's answer to one operation. -/
def Db.exec (m : Mongoose) : Proc.Exec Http Db := fun db op =>
  match op with
  | .userFindOne email => (db, (m.matchEmail email).map fun p => db.users.docs.find? (p ·.email))
  | .userSave doc => db.saved (m.saveUser db doc)
  | .facilityFindOne facilityId =>
    (db, (m.matchFacilityId facilityId).map fun p => db.facilities.docs.find? (p ·.facilityId))
  | .facilityFind => (db, .ok db.facilities.docs)
  | .facilitySave doc => db.saved (m.saveFacility db doc)
  | .bookingFind filter => (db, (m.matchBooking filter).map db.bookings.filter)
  | .bookingFindOne filter => (db, (m.matchBooking filter).map db.bookings.find?)
  | .bookingSave doc => db.saved (db.saveBooking doc)

namespace User

def findOne (email : Option Json) : Proc Http (Option User) := .await (.userFindOne email) .pure .throw
def save (doc : UserDraft) : Proc Http Unit := .await (.userSave doc) .pure .throw

end User

namespace Facility

def findOne (facilityId : Option Json) : Proc Http (Option Facility) :=
  .await (.facilityFindOne facilityId) .pure .throw
def find : Proc Http (List Facility) := .await .facilityFind .pure .throw
def save (doc : FacilityDraft) : Proc Http Unit := .await (.facilitySave doc) .pure .throw

end Facility

namespace Booking

def find (filter : BookingFilter) : Proc Http (List Booking) := .await (.bookingFind filter) .pure .throw
def findOne (filter : BookingFilter) : Proc Http (Option Booking) := .await (.bookingFindOne filter) .pure .throw
def save (doc : BookingDraft) : Proc Http Unit := .await (.bookingSave doc) .pure .throw

end Booking

/-- `res.json(...)` or `res.send(...)` -/
def respond (r : Reply) : Proc Http Unit := .send r (.pure ())

section Binds
variable {β : Type}

@[simp] theorem User.findOne_bind (email : Option Json) (f : Option User → Proc Http β) :
    User.findOne email >>= f = .await (.userFindOne email) f .throw := rfl
@[simp] theorem User.save_bind (doc : UserDraft) (f : Unit → Proc Http β) :
    User.save doc >>= f = .await (.userSave doc) f .throw := rfl
@[simp] theorem Facility.findOne_bind (facilityId : Option Json) (f : Option Facility → Proc Http β) :
    Facility.findOne facilityId >>= f = .await (.facilityFindOne facilityId) f .throw := rfl
@[simp] theorem Facility.find_bind (f : List Facility → Proc Http β) :
    Facility.find >>= f = .await .facilityFind f .throw := rfl
@[simp] theorem Facility.save_bind (doc : FacilityDraft) (f : Unit → Proc Http β) :
    Facility.save doc >>= f = .await (.facilitySave doc) f .throw := rfl
@[simp] theorem Booking.find_bind (filter : BookingFilter) (f : List Booking → Proc Http β) :
    Booking.find filter >>= f = .await (.bookingFind filter) f .throw := rfl
@[simp] theorem Booking.findOne_bind (filter : BookingFilter) (f : Option Booking → Proc Http β) :
    Booking.findOne filter >>= f = .await (.bookingFindOne filter) f .throw := rfl
@[simp] theorem Booking.save_bind (doc : BookingDraft) (f : Unit → Proc Http β) :
    Booking.save doc >>= f = .await (.bookingSave doc) f .throw := rfl
@[simp] theorem tryCatch_eq (t : Proc Http β) (handler : JsError → Proc Http β) :
    MonadExcept.tryCatch t handler = t.tryCatch handler := rfl

end Binds

/-- The value of a step that may throw. -/
def lift {α : Type} : Except JsError α → Proc Http α
  | .ok a => .pure a
  | .error e => .throw e

/-- `doc.property` of a document that may be null -/
def notNull {α : Type} : Option α → Proc Http α
  | some a => .pure a
  | none => .throw .typeError

/-! ## `middleware/isLoggedIn.js` -/

/-- The gate in front of a route: `next` is the route, for the user found. The errors of the route stay in the
    router, so the `catch` is for the query alone. -/
def isLoggedIn (body : Json) (next : User → Proc Http Unit) : Proc Http Unit :=
  .await (.userFindOne (body.prop "email"))
    (fun user => match user with
      | some user => next user
      | none => .pure ())
    (fun _ => respond (.message false "Email is not valid. Please log in again." 401))

/-! ## `routes/booking.js` -/

namespace Booking

def clashes (rt : Runtime) (chosenStartDate : Number) (b : Booking) : Bool :=
  let date := b.startDateTime
  Number.le (.val date.time) chosenStartDate && Number.le chosenStartDate (datePlus rt date 3600).toNumber

def within24Hours (chosenStartDate : Number) (b : Booking) : Bool :=
  let minDate := .val b.startDateTime.time - (86400 : Number)
  let sBetweenDates := (minDate - chosenStartDate).abs
  let hoursBetweenDates := sBetweenDates / (60 * 60 * 1000)
  hoursBetweenDates.lt 24

/-- The guard of the third loop: the booking's slot meets the requested one. -/
def overlaps (chosenStartDate chosenEndDate : Number) (b : Booking) : Bool :=
  let start := b.startDateTime
  let «end» := b.endDateTime
  !(Number.le (.val «end».time) chosenStartDate || Number.le chosenEndDate (.val start.time))

end Booking

/-- `n == count` for a count that may be undefined or null -/
def looseEq (n : Nat) (count : Option ℚ) : Bool := count == some (n : ℚ)

/-- The counting loop: `countOfCourtsBooked` and the set `occupied`, with the `break` once the facility is
    full. -/
def countCourts (chosenStartDate chosenEndDate : Number) (count : Option ℚ) :
    List Booking → Nat → List ℚ → Nat × List ℚ
  | [], countOfCourtsBooked, occupied => (countOfCourtsBooked, occupied)
  | b :: bookings, countOfCourtsBooked, occupied =>
    if b.overlaps chosenStartDate chosenEndDate then
      let countOfCourtsBooked := countOfCourtsBooked + 1
      let occupied := b.courtNumber :: occupied
      if looseEq countOfCourtsBooked count then (countOfCourtsBooked, occupied)
      else countCourts chosenStartDate chosenEndDate count bookings countOfCourtsBooked occupied
    else countCourts chosenStartDate chosenEndDate count bookings countOfCourtsBooked occupied

/-- The search loop over `1 <= i <= count`, with `bookCourtNumber = 1` when it finds none. -/
def bookCourtNumber (count : Option ℚ) (occupied : List ℚ) : Nat :=
  ((List.range' 1 (count.elim 0 fun q => q.floor.toNat)).find? fun i : Nat => (i : ℚ) ∉ occupied).getD 1

/-- The court for a slot, or none when the route answers that all are occupied. -/
def allocate (chosenStartDate chosenEndDate : Number) (count : Option ℚ) (bookings : List Booking) : Option Nat :=
  let (countOfCourtsBooked, occupied) := countCourts chosenStartDate chosenEndDate count bookings 0 []
  if looseEq countOfCourtsBooked count then none else some (bookCourtNumber count occupied)

namespace Reply

def clashing : Reply := message false "You have a clashing booking."

def alreadyBooked : Reply :=
  message false
    "Already Booked for same time slot by you please try for another time slot after a gap of 24 hours."

def bookedWithin24Hours : Reply :=
  message false "You already have a booking within past 24hours for same sport."

def allOccupied : Reply := message true "Cannot book as all are occupied by others."

def booked (bookCourtNumber : Nat) : Reply :=
  ⟨200, .object true ("Booked court " ++ toString bookCourtNumber ++ " successfully!") (some bookCourtNumber) none⟩

end Reply

/-- `60 * 60`, added to a start in milliseconds -/
def slotLength : Nat := 60 * 60

/-- `POST /api/booking` -/
def postBooking (rt : Runtime) (body : Json) (user : User) : Proc Http Unit := do
  let chosenFacility := body.prop "facilityId"
  let newDate ← lift (newDate rt (body.prop "startDateTime"))
  let chosenStartDate := getTime newDate
  let chosenEndDate := chosenStartDate + .val slotLength
  try
    let currBookings ← Booking.find { user := user._id }
    if currBookings.any (·.clashes rt chosenStartDate) then
      respond .clashing
    else
    let facility ← Facility.findOne chosenFacility
    let ref ← lift (Json.get chosenFacility "_id")
    let bookings ← Booking.find { facility := some (.value ref) }
    let alreadyBookedBooking ← Booking.findOne { startDateTime := chosenStartDate, user := user._id }
    if alreadyBookedBooking.isSome then
      respond .alreadyBooked
    else
    let facility ← notNull facility
    let arr ← Booking.find { user := user._id, facility := some (.id facility._id) }
    if arr.any (·.within24Hours chosenStartDate) then
      respond .bookedWithin24Hours
    else
    match allocate chosenStartDate chosenEndDate facility.count bookings with
    | none => respond .allOccupied
    | some bookCourtNumber =>
      Booking.save ⟨chosenStartDate, chosenEndDate, user._id, facility._id, bookCourtNumber⟩
      respond (.booked bookCourtNumber)
  catch _ => respond .serverError

/-! ## `routes/auth.js` -/

/-- `POST /api/auth/register` -/
def postRegister (body : Json) : Proc Http Unit := do
  let firstName := body.prop "firstName"
  let lastName := body.prop "lastName"
  let email := body.prop "email"
  let contactNumber := body.prop "contactNumber"
  try
    let user ← User.findOne email
    if user.isSome then
      respond (.message false "User already exists" 400)
    else
    User.save ⟨firstName, lastName, email, contactNumber⟩
    respond (.message true "User registered successfully")
  catch _ => respond .serverError

/-! ## `routes/facility.js` -/

/-- `POST /api/facility/add` -/
def postFacilityAdd (body : Json) : Proc Http Unit := do
  try
    Facility.save ⟨body.prop "facilityId", body.prop "name", body.prop "count"⟩
    respond (.message true "Added successfully.")
  catch _ => respond .serverError

/-- `POST /api/facility/allfacilities` -/
def postAllFacilities : Proc Http Unit := do
  try
    let facilities ← Facility.find
    respond ⟨200, .facilities facilities⟩
  catch _ => respond .serverError

/-! ## `routes/getname.js` -/

/-- `POST /api/getname` -/
def postGetName (body : Json) : Proc Http Unit := do
  try
    let user ← User.findOne (body.prop "email")
    match user with
    | some user => respond (.message true (user.firstName ++ " " ++ user.lastName))
    | none => pure ()
  catch _ => respond .serverError

/-! ## `routes/stats.js` -/

/-- The body of the loop over the sports: the start of each booking of the user at the sport's facility. -/
def sportBookings (user : User) (sport : Nat) : Proc Http (List Date) := do
  let facility ← Facility.findOne (some (.num sport))
  let facility ← notNull facility
  let bookings ← Booking.find { user := user._id, facility := some (.id facility._id) }
  pure (bookings.map Booking.startDateTime)

/-- `new Date(b.date) - new Date(a.date)`: a `Date` has no property `date`. -/
def compareDates (_ _ : Date) : Number := getTime none - getTime none

/-- `a.sort(compareDates)`, a stable sort to which NaN says equal -/
def sortDates (s : List Date) : List Date := s.mergeSort fun a b => !Number.lt 0 (compareDates a b)

/-- `POST /api/stats/profile` -/
def postProfile (user : User) : Proc Http Unit := do
  try
    let s1 ← sportBookings user 1
    let s2 ← sportBookings user 2
    let s3 ← sportBookings user 3
    let s4 ← sportBookings user 4
    let data : ProfileData :=
      ⟨(sortDates s1).reverse, (sortDates s2).reverse, (sortDates s3).reverse, (sortDates s4).reverse⟩
    respond ⟨200, .object true "Profile data received" none (some data)⟩
  catch _ => respond .serverError

end KhelaKaro
