import KhelaKaro.DateText
import KhelaKaro.Query
import KhelaKaro.Theorems.BookingRoute

/-! # Answers

Which protected requests are answered. Behind the gate every route answers once whatever its queries come to, but for
a start that cannot be converted and for a user that is looked up a second time. -/

namespace KhelaKaro
open Async

inductive Route where
  | booking
  | facilityAdd
  | allFacilities
  | profile
  | getName
  deriving DecidableEq

namespace Route

def handler (rt : Runtime) (body : Json) : Route → User → Proc Http Unit
  | booking, user => postBooking rt body user
  | facilityAdd, _ => postFacilityAdd body
  | allFacilities, _ => postAllFacilities
  | profile, user => postProfile user
  | getName, _ => postGetName body

/-- `app.use(path, isLoggedIn, route)` -/
def serve (rt : Runtime) (body : Json) (r : Route) : Proc Http Unit := isLoggedIn body (r.handler rt body)

end Route

/-- One response is sent, and no error escapes. -/
def AnsweredOnce (o : Proc.Outcome Http Db Unit) : Prop := (∃ r, o.sent = [r]) ∧ o.result = .ok ()

/-! ### The routes -/

section Replies
variable {E : JsError → Prop}

theorem replies_respond (r : Reply) : (respond r).Replies E := ⟨(), rfl⟩

theorem replies_await {op : Op} {next : op.Ans → Proc Http Unit} (h : ∀ a, (next a).Replies fun _ => True) :
    (Proc.await (I := Http) op next .throw).Replies fun _ => True :=
  ⟨h, fun _ => trivial⟩

theorem replies_orServerError {op : Op} {next : op.Ans → Proc Http Unit} (h : ∀ a, (next a).Replies E) :
    (orServerError op next).Replies E :=
  ⟨h, fun _ => replies_respond _⟩

theorem replies_serverError {t : Proc Http Unit} (h : t.Replies fun _ => True) :
    (t.tryCatch fun _ => respond .serverError).Replies E :=
  h.tryCatch fun _ _ => replies_respond _

theorem replies_sportBookings {user : User} {sport : Nat} {f : List Date → Proc Http Unit}
    (h : ∀ l, (f l).Replies fun _ => True) : (sportBookings user sport >>= f).Replies fun _ => True := by
  refine replies_await fun facility => ?_
  cases facility with
  | none => trivial
  | some facility => exact replies_await fun bookings => h _

end Replies

variable {m : Mongoose} {rt : Runtime} {db : Db} {body : Json} {user : User} {E : JsError → Prop}

theorem postBooking_replies {d : Option Date} (h : newDate rt (body.prop "startDateTime") = .ok d) :
    (postBooking rt body user).Replies E := by
  rw [postBooking_eq h]
  refine replies_orServerError fun _ => replies_orServerError fun facility => ?_
  cases Json.get (body.prop "facilityId") "_id" with
  | error e => exact replies_respond _
  | ok ref =>
  refine replies_orServerError fun bookings => replies_orServerError fun b => ?_
  cases b with
  | some b => exact replies_respond _
  | none =>
  cases facility with
  | none => exact replies_respond _
  | some facility =>
  refine replies_orServerError fun arr => ?_
  split
  · exact replies_respond _
  split
  · exact replies_respond _
  · exact replies_orServerError fun _ => replies_respond _

theorem postFacilityAdd_replies : (postFacilityAdd body).Replies E :=
  replies_serverError (replies_await fun _ => replies_respond _)

theorem postAllFacilities_replies : postAllFacilities.Replies E :=
  replies_serverError (replies_await fun _ => replies_respond _)

theorem postProfile_replies : (postProfile user).Replies E :=
  replies_serverError (replies_sportBookings fun _ => replies_sportBookings fun _ =>
    replies_sportBookings fun _ => replies_sportBookings fun _ => replies_respond _)

theorem AnsweredOnce.of_replies {t : Proc Http Unit} (h : t.Replies fun _ => False)
    (faults : Nat → Option JsError) (db : Db) : AnsweredOnce (t.run (Db.exec m) faults db) := by
  rcases h.run (Db.exec m) faults db with ⟨r, a, hsent, hresult⟩ | ⟨e, he, -⟩
  · exact ⟨⟨r, hsent⟩, hresult⟩
  · exact he.elim

/-! ### The gate -/

/-- The second look at the user finds the one that the gate has found. -/
theorem postGetName_answered {p : String → Bool} (hp : m.matchEmail (body.prop "email") = .ok p)
    (hu : db.loggedIn m body = some user) (faults : Nat → Option JsError) :
    AnsweredOnce ((postGetName body).run (Db.exec m) faults db) := by
  rw [loggedIn_of_ok hp] at hu
  unfold postGetName
  simp only [User.findOne_bind, tryCatch_eq, Proc.tryCatch_await, Proc.tryCatch_throw]
  cases hf : faults 0 with
  | some e =>
    rw [Proc.run_await_error (by rw [hf]; rfl)]
    exact ⟨⟨_, rfl⟩, rfl⟩
  | none =>
    rw [Proc.run_await_ok (by rw [hf]; exact exec_userFindOne hp), hu]
    exact ⟨⟨_, rfl⟩, rfl⟩

/-- A protected request is answered exactly once unless its user is not found, or the user is found and the start of
    a booking cannot be converted. -/
theorem serve_answeredOnce_iff (m : Mongoose) (rt : Runtime) (db : Db) (body : Json) (r : Route)
    (faults : Nat → Option JsError) :
    AnsweredOnce ((r.serve rt body).run (Db.exec m) faults db) ↔
      (∃ e, faults 0 = some e) ∨ (∃ e, m.matchEmail (body.prop "email") = .error e) ∨
        (∃ user, db.loggedIn m body = some user) ∧
          (r = .booking → ∃ d, newDate rt (body.prop "startDateTime") = .ok d) := by
  unfold Route.serve
  rw [isLoggedIn_run_faults]
  cases hf : faults 0 with
  | some e => exact iff_of_true ⟨⟨_, rfl⟩, rfl⟩ (Or.inl ⟨e, rfl⟩)
  | none =>
  cases hp : m.matchEmail (body.prop "email") with
  | error e => exact iff_of_true ⟨⟨_, rfl⟩, rfl⟩ (Or.inr (Or.inl ⟨e, rfl⟩))
  | ok p =>
  cases hu : db.loggedIn m body with
  | none =>
    refine iff_of_false ?_ ?_
    · rintro ⟨⟨r, hr⟩, -⟩
      cases hr
    · simp
  | some user =>
  simp only [reduceCtorEq, exists_false, Option.some.injEq, exists_eq', true_and, false_or]
  cases r with
  | booking =>
    simp only [Route.handler, forall_const]
    cases hd : newDate rt (body.prop "startDateTime") with
    | ok d => exact iff_of_true (AnsweredOnce.of_replies (postBooking_replies hd) _ _) ⟨d, rfl⟩
    | error e =>
      rw [postBooking_throws hd]
      refine iff_of_false ?_ (by simp)
      rintro ⟨⟨r, hr⟩, -⟩
      cases hr
  | facilityAdd => exact iff_of_true (AnsweredOnce.of_replies postFacilityAdd_replies _ _) nofun
  | allFacilities => exact iff_of_true (AnsweredOnce.of_replies postAllFacilities_replies _ _) nofun
  | profile => exact iff_of_true (AnsweredOnce.of_replies postProfile_replies _ _) nofun
  | getName => exact iff_of_true (postGetName_answered hp hu _) nofun

/-- A user that is not stored gets no answer, and a start with a property `toString` makes the handler throw. -/
theorem not_answeredOnce_club :
    ¬AnsweredOnce ((Route.profile.serve utc.runtime (.obj [("email", .str "nobody@club.test")])).run
        (Db.exec mongoose6) Proc.noFaults club) ∧
      ¬AnsweredOnce ((Route.booking.serve utc.runtime (.obj [("email", .str "home@club.test"),
        ("facilityId", .str "1"), ("startDateTime", .obj [("toString", .null)])])).run
        (Db.exec mongoose6) Proc.noFaults club) := by
  constructor
  · rintro ⟨⟨r, hr⟩, -⟩
    have hsent : ((Route.profile.serve utc.runtime (.obj [("email", .str "nobody@club.test")])).run
        (Db.exec mongoose6) Proc.noFaults club).sent = [] := by decide +kernel
    rw [hsent] at hr
    cases hr
  · rintro ⟨⟨r, hr⟩, -⟩
    have hsent : ((Route.booking.serve utc.runtime (.obj [("email", .str "home@club.test"),
        ("facilityId", .str "1"), ("startDateTime", .obj [("toString", .null)])])).run
        (Db.exec mongoose6) Proc.noFaults club).sent = [] := by decide +kernel
    rw [hsent] at hr
    cases hr

end KhelaKaro
