import KhelaKaro.Theorems.BookingRoute
import KhelaKaro.Theorems.Effects

/-! # The progress of a booking handler

Where a handler of `POST /api/booking` can stand, whatever the answers to its calls: the calls it has made, the
replies it has sent, and the call it is about to make. -/

namespace KhelaKaro
open Async

section Calls
variable (body : Json) (user : User) (start : Option Date)

def identified (user : Option User) : Call Http := ⟨.userFindOne (body.prop "email"), .ok user⟩

def listed (bookings : List Booking) : Call Http := ⟨.bookingFind { user := user._id }, .ok bookings⟩

def located (facility : Option Facility) : Call Http := ⟨.facilityFindOne (body.prop "facilityId"), .ok facility⟩

def fetched (ref : Option Json) (bookings : List Booking) : Call Http :=
  ⟨.bookingFind { facility := some (.value ref) }, .ok bookings⟩

def checked (booking : Option Booking) : Call Http :=
  ⟨.bookingFindOne { startDateTime := getTime start, user := user._id }, .ok booking⟩

def compared (facility : Facility) (bookings : List Booking) : Call Http :=
  ⟨.bookingFind { user := user._id, facility := some (.id facility._id) }, .ok bookings⟩

def draft (facility : Facility) (court : Nat) : BookingDraft :=
  ⟨getTime start, getTime start + .val slotLength, user._id, facility._id, court⟩

def stored (facility : Facility) (court : Nat) : Call Http := ⟨.bookingSave (draft user start facility court), .ok ()⟩

@[simp] theorem storedBooking_identified (u : Option User) : storedBooking (identified body u) = none := rfl
@[simp] theorem storedBooking_listed (bs : List Booking) : storedBooking (listed user bs) = none := rfl
@[simp] theorem storedBooking_located (f : Option Facility) : storedBooking (located body f) = none := rfl
@[simp] theorem storedBooking_fetched (ref : Option Json) (bs : List Booking) :
    storedBooking (fetched ref bs) = none := rfl
@[simp] theorem storedBooking_checked (b : Option Booking) : storedBooking (checked user start b) = none := rfl
@[simp] theorem storedBooking_compared (f : Facility) (bs : List Booking) :
    storedBooking (compared user f bs) = none := rfl
@[simp] theorem storedBooking_stored (f : Facility) (court : Nat) :
    storedBooking (stored user start f court) = (draft user start f court).booking := rfl

end Calls

/-- The handler behind the gate, for a user and a start. -/
inductive RouteProgress (body : Json) (user : User) (start : Option Date) :
    List (Call Http) → List Reply → Stage Http → Prop where
  | listing :
    RouteProgress body user start [identified body (some user)] [] (.awaits (.bookingFind { user := user._id }))
  | locating (mine : List Booking) :
    RouteProgress body user start [identified body (some user), listed user mine] []
      (.awaits (.facilityFindOne (body.prop "facilityId")))
  | fetching (mine : List Booking) (facility : Option Facility) (ref : Option Json) :
    RouteProgress body user start [identified body (some user), listed user mine, located body facility] []
      (.awaits (.bookingFind { facility := some (.value ref) }))
  | checking (mine : List Booking) (facility : Option Facility) (ref : Option Json) (read : List Booking) :
    RouteProgress body user start
      [identified body (some user), listed user mine, located body facility, fetched ref read] []
      (.awaits (.bookingFindOne { startDateTime := getTime start, user := user._id }))
  | comparing (mine : List Booking) (facility : Facility) (ref : Option Json) (read : List Booking) :
    RouteProgress body user start
      [identified body (some user), listed user mine, located body (some facility), fetched ref read,
        checked user start none] []
      (.awaits (.bookingFind { user := user._id, facility := some (.id facility._id) }))
  | saving (mine : List Booking) (facility : Facility) (ref : Option Json) (read sport : List Booking) (court : Nat) :
    RouteProgress body user start
      [identified body (some user), listed user mine, located body (some facility), fetched ref read,
        checked user start none, compared user facility sport] []
      (.awaits (.bookingSave (draft user start facility court)))
  | booked (mine : List Booking) (facility : Facility) (ref : Option Json) (read sport : List Booking) (court : Nat) :
    RouteProgress body user start
      [identified body (some user), listed user mine, located body (some facility), fetched ref read,
        checked user start none, compared user facility sport, stored user start facility court]
      [.booked court] .done
  | refused (calls : List (Call Http)) (reply : Reply) (hcalls : ∀ c ∈ calls, storedBooking c = none)
      (hreply : reply.courtNumber = none) :
    RouteProgress body user start (identified body (some user) :: calls) [reply] .done

inductive BookingProgress (rt : Runtime) (body : Json) : List (Call Http) → List Reply → Stage Http → Prop where
  | gate : BookingProgress rt body [] [] (.awaits (.userFindOne (body.prop "email")))
  | rejected (e : JsError) :
    BookingProgress rt body [⟨.userFindOne (body.prop "email"), .error e⟩]
      [.message false "Email is not valid. Please log in again." 401] .done
  | unknown : BookingProgress rt body [identified body none] [] .done
  | thrown (user : User) (e : JsError) :
    BookingProgress rt body [identified body (some user)] [] (.threw e)
  | route (user : User) (start : Option Date) (h : newDate rt (body.prop "startDateTime") = .ok start)
      {calls : List (Call Http)} {sent : List Reply} {stage : Stage Http}
      (hr : RouteProgress body user start calls sent stage) :
    BookingProgress rt body calls sent stage

variable {rt : Runtime} {body : Json}

theorem booking_draft {u : User} {d : Option Date} {facility : Facility} {court : Nat} {b : Booking}
    (h : (draft u d facility court).booking = some b) :
    b.user = u._id ∧ b.facility = facility._id ∧ d = some b.startDateTime := by
  cases d with
  | none => cases h
  | some d =>
    unfold BookingDraft.booking draft at h
    simp only [getTime, toDate_time] at h
    split at h
    · rename_i start stop hstart hstop
      cases hstart
      cases h
      exact ⟨rfl, rfl, rfl⟩
    · cases h

/-- The one call that stores a booking stores the user's, after a check for it, and after no other such call. -/
theorem RouteProgress.stores {user : User} {start : Option Date} {calls : List (Call Http)} {sent : List Reply}
    {op : Op} (h : RouteProgress body user start calls sent (.awaits op)) {answer : Except JsError op.Ans} {b : Booking}
    (hb : storedBooking ⟨op, answer⟩ = some b) :
    b.user = user._id ∧ start = some b.startDateTime ∧ checked user start none ∈ calls ∧
      ∀ c ∈ calls, storedBooking c = none := by
  cases h with
  | listing => cases hb
  | locating mine => cases hb
  | fetching mine facility ref => cases hb
  | checking mine facility ref read => cases hb
  | comparing mine facility ref read => cases hb
  | saving mine facility ref read sport court =>
    cases answer with
    | error e => cases hb
    | ok _ =>
      obtain ⟨huser, -, hstart⟩ := booking_draft hb
      exact ⟨huser, hstart, by simp, by simp⟩

theorem RouteProgress.failed {user : User} {start : Option Date} {calls : List (Call Http)}
    (h : ∀ c ∈ calls, storedBooking c = none) :
    RouteProgress body user start (identified body (some user) :: calls) [.serverError] .done :=
  .refused calls .serverError h rfl

theorem postBooking_along (user : User) {start : Option Date}
    (h : newDate rt (body.prop "startDateTime") = .ok start) :
    (postBooking rt body user).Along (fun _ => True)
      (fun th => RouteProgress body user start th.calls th.sent th.proc.stage) [identified body (some user)] [] := by
  rw [postBooking_eq h]
  refine ⟨.listing, fun mine _ => ⟨.locating mine, fun facility _ => ?_, fun e _ => ?_⟩, fun e _ => ?_⟩
  case refine_2 => exact .failed (by simp [storedBooking])
  case refine_3 => exact .failed (by simp [storedBooking])
  cases href : Json.get (body.prop "facilityId") "_id" with
  | error e => exact .failed (by simp [storedBooking])
  | ok ref =>
  refine ⟨.fetching mine facility ref, fun read _ => ⟨.checking mine facility ref read, fun b _ => ?_, fun e _ => ?_⟩,
    fun e _ => ?_⟩
  case refine_2 => exact .failed (by simp [storedBooking])
  case refine_3 => exact .failed (by simp [storedBooking])
  cases b with
  | some b => exact .refused _ _ (by simp [storedBooking]) rfl
  | none =>
  cases facility with
  | none => exact .failed (by simp [storedBooking])
  | some facility =>
  refine ⟨.comparing mine facility ref read, fun sport _ => ?_, fun e _ => .failed (by simp [storedBooking])⟩
  dsimp only
  split
  · exact .refused _ _ (by simp [storedBooking]) rfl
  cases allocate (getTime start) (getTime start + .val slotLength) facility.count read with
  | none => exact .refused _ _ (by simp [storedBooking]) rfl
  | some court =>
    refine ⟨.saving mine facility ref read sport court, fun _ _ => .booked mine facility ref read sport court,
      fun e _ => .failed (by simp [storedBooking])⟩

/-- Every point that the handler can reach is one of these. -/
theorem serveBooking_along : (serveBooking rt body).Along (fun _ => True)
    (fun th => BookingProgress rt body th.calls th.sent th.proc.stage) [] [] := by
  refine ⟨.gate, fun user _ => ?_, fun e _ => .rejected e⟩
  cases user with
  | none => exact .unknown
  | some user =>
  cases h : newDate rt (body.prop "startDateTime") with
  | error e =>
    simp only [postBooking_throws h]
    exact .thrown user e
  | ok start =>
  exact (postBooking_along user h).mono fun th hth => .route user start h hth

theorem BookingProgress.onBookings {calls : List (Call Http)} {sent : List Reply} {op : Op}
    (h : BookingProgress rt body calls sent (.awaits op)) : op.OnBookings := by
  cases h with
  | gate => trivial
  | route user start hd hr => cases hr <;> trivial

end KhelaKaro
