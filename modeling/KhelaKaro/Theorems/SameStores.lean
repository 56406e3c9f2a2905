import KhelaKaro.Theorems.Allocation
import KhelaKaro.Theorems.Answers
import KhelaKaro.Theorems.Effects

/-! # Stores that no request tells apart

Two databases with the same users and facilities, the same bookings in some order, and each user's own bookings in
the same order. Every route answers alike on both and leaves them so: the one list of bookings that is not of a single
user goes into the allocation, which does not see its order. -/

namespace KhelaKaro
open Async

structure Db.Same (db db' : Db) : Prop where
  users : db.users = db'.users
  facilities : db.facilities = db'.facilities
  perm : db.bookings.Perm db'.bookings
  own : ∀ u, db.bookings.filter (·.user == u) = db'.bookings.filter (·.user == u)

/-- The answers of two such databases: a query for one user has the same answer, any other the same bookings. -/
def SameDocs : (op : Op) → op.Ans → op.Ans → Prop
  | .bookingFind filter, a, a' => List.Perm a a' ∧ (filter.user.isSome → a = a')
  | .bookingFindOne filter, a, a' => filter.user.isSome → a = a'
  | _, a, a' => a = a'

section Exec
variable {m : Mongoose} {db db' : Db}

/-! ### The operations -/

theorem saveUser_bookings (doc : UserDraft) (bs : List Booking) :
    m.saveUser { db with bookings := bs } doc = (m.saveUser db doc).map fun d => { d with bookings := bs } := by
  unfold Mongoose.saveUser
  cases m.requiredString doc.firstName with
  | error e => rfl
  | ok firstName =>
  cases m.requiredString doc.lastName with
  | error e => rfl
  | ok lastName =>
  cases m.requiredString doc.email with
  | error e => rfl
  | ok email =>
  cases Mongoose.castField m.castString doc.contactNumber with
  | error e => rfl
  | ok contactNumber =>
  simp only [ok_bind]
  split <;> rfl

theorem saveFacility_bookings (doc : FacilityDraft) (bs : List Booking) :
    m.saveFacility { db with bookings := bs } doc = (m.saveFacility db doc).map fun d => { d with bookings := bs } := by
  unfold Mongoose.saveFacility
  cases Mongoose.castField m.castNumber doc.facilityId with
  | error e => rfl
  | ok facilityId =>
  cases Mongoose.castField m.castString doc.name with
  | error e => rfl
  | ok name =>
  cases Mongoose.castField m.castNumber doc.count with
  | error e => rfl
  | ok count => rfl

theorem matchBooking_user {filter : BookingFilter} {u : ObjectId} (hu : filter.user = some u) {p : Booking → Bool}
    (h : m.matchBooking filter = .ok p) {b : Booking} (hb : p b = true) : b.user = u := by
  unfold Mongoose.matchBooking at h
  cases hstart : filter.startDateTime.elim (.ok fun _ => true) Mongoose.matchStart with
  | error e => simp [hstart, error_bind] at h
  | ok start =>
  cases hfacility : filter.facility.elim (.ok fun _ => true) m.matchRef with
  | error e => simp [hstart, hfacility, ok_bind] at h
  | ok facility =>
  simp only [hstart, hfacility, ok_bind, pure, Except.pure, Except.ok.injEq] at h
  subst h
  simp only [hu, Option.elim_some, Bool.and_eq_true, beq_iff_eq] at hb
  exact hb.2

theorem Db.Same.filter_eq (h : db.Same db') {u : ObjectId} {p : Booking → Bool} (hp : ∀ b, p b = true → b.user = u) :
    db.bookings.filter p = db'.bookings.filter p := by
  have hown : ∀ bs : List Booking, bs.filter p = (bs.filter (·.user == u)).filter p := by
    intro bs
    rw [List.filter_filter]
    refine List.filter_congr fun b _ => ?_
    cases hb : p b with
    | false => rfl
    | true => simp [hp b hb]
  rw [hown, hown db'.bookings, h.own]

theorem Db.Same.saved {r : Except JsError Db} (h : db.Same db') (hr : ∀ d, r = .ok d → d.bookings = db.bookings) :
    (db.saved r).1.Same (db'.saved (r.map fun d => { d with bookings := db'.bookings })).1 ∧
      (db.saved r).2 = (db'.saved (r.map fun d => { d with bookings := db'.bookings })).2 := by
  cases r with
  | error e => exact ⟨h, rfl⟩
  | ok d =>
    refine ⟨⟨rfl, rfl, ?_, ?_⟩, rfl⟩
    · exact (hr d rfl) ▸ h.perm
    · exact (hr d rfl) ▸ h.own

theorem Db.Same.saveBooking (h : db.Same db') (doc : BookingDraft) :
    (db.saved (db.saveBooking doc)).1.Same (db'.saved (db'.saveBooking doc)).1 ∧
      (db.saved (db.saveBooking doc)).2 = (db'.saved (db'.saveBooking doc)).2 := by
  unfold Db.saveBooking
  cases doc.startDateTime.toDate with
  | none => exact ⟨h, rfl⟩
  | some start =>
  cases doc.endDateTime.toDate with
  | none => exact ⟨h, rfl⟩
  | some stop =>
    refine ⟨⟨h.users, h.facilities, h.perm.append_right _, fun u => ?_⟩, rfl⟩
    dsimp only [Db.saved]
    rw [List.filter_append, List.filter_append, h.own]

theorem exec_same (h : db.Same db') (op : Op) :
    (Db.exec m db op).1.Same (Db.exec m db' op).1 ∧
      Proc.SameAnswer (I := Http) SameDocs (Db.exec m db op).2 (Db.exec m db' op).2 := by
  have hdb' : db' = { db with bookings := db'.bookings } := by
    cases db'
    simp only [h.users, h.facilities]
  cases op with
  | userFindOne email =>
    refine ⟨h, ?_⟩
    simp only [Db.exec, h.users]
    cases m.matchEmail email <;> rfl
  | facilityFindOne facilityId =>
    refine ⟨h, ?_⟩
    simp only [Db.exec, h.facilities]
    cases m.matchFacilityId facilityId <;> rfl
  | facilityFind =>
    refine ⟨h, ?_⟩
    simp only [Db.exec, h.facilities]
    rfl
  | bookingFind filter =>
    refine ⟨h, ?_⟩
    simp only [Db.exec]
    cases hp : m.matchBooking filter with
    | error e => rfl
    | ok p =>
      refine ⟨h.perm.filter p, fun hu => ?_⟩
      obtain ⟨u, hu⟩ := Option.isSome_iff_exists.mp hu
      exact h.filter_eq fun b hb => matchBooking_user hu hp hb
  | bookingFindOne filter =>
    refine ⟨h, ?_⟩
    simp only [Db.exec]
    cases hp : m.matchBooking filter with
    | error e => rfl
    | ok p =>
      intro hu
      obtain ⟨u, hu⟩ := Option.isSome_iff_exists.mp hu
      dsimp only
      rw [← List.head?_filter, ← List.head?_filter, h.filter_eq fun b hb => matchBooking_user hu hp hb]
  | userSave doc =>
    have hsaved := h.saved (r := m.saveUser db doc) fun d hd => by
      obtain ⟨-, -, -, -, -, hb⟩ := saveUser_eq_ok hd
      exact hb
    rw [← saveUser_bookings, ← hdb'] at hsaved
    exact ⟨hsaved.1, .of_eq (fun _ => rfl) hsaved.2⟩
  | facilitySave doc =>
    have hsaved := h.saved (r := m.saveFacility db doc) fun d hd => by
      obtain ⟨facilities, rfl, -⟩ := saveFacility_eq_ok hd
      rfl
    rw [← saveFacility_bookings, ← hdb'] at hsaved
    exact ⟨hsaved.1, .of_eq (fun _ => rfl) hsaved.2⟩
  | bookingSave doc =>
    obtain ⟨hstore, hanswer⟩ := h.saveBooking doc
    exact ⟨hstore, .of_eq (fun _ => rfl) hanswer⟩

end Exec

/-! ### The routes -/

section Routes
variable {rt : Runtime} {body : Json} {user : User}

theorem respects_await {op : Op} {next : op.Ans → Proc Http Unit} {reject : JsError → Proc Http Unit}
    (hop : ∀ a a', SameDocs op a a' → a = a') (hnext : ∀ a, (next a).Respects SameDocs)
    (hreject : ∀ e, (reject e).Respects SameDocs) : (Proc.await (I := Http) op next reject).Respects SameDocs :=
  ⟨fun a a' h => congrArg next (hop a a' h), hnext, hreject⟩

theorem isLoggedIn_respects {next : User → Proc Http Unit} (h : ∀ user, (next user).Respects SameDocs) :
    (isLoggedIn body next).Respects SameDocs := by
  refine respects_await (fun _ _ h => h) (fun user => ?_) fun _ => trivial
  cases user with
  | none => trivial
  | some user => exact h user

/-- The facility's list is used by the allocation alone, which does not see its order. -/
theorem postBooking_respects : (postBooking rt body user).Respects SameDocs := by
  cases hd : newDate rt (body.prop "startDateTime") with
  | error e =>
    rw [postBooking_throws hd]
    trivial
  | ok d =>
  rw [postBooking_eq hd]
  refine respects_await (fun _ _ h => h.2 rfl) (fun _ => ?_) fun _ => trivial
  refine respects_await (fun _ _ h => h) (fun facility => ?_) fun _ => trivial
  cases Json.get (body.prop "facilityId") "_id" with
  | error e => trivial
  | ok ref =>
  refine ⟨fun bookings bookings' hperm => ?_, fun bookings => ?_, fun _ => trivial⟩
  · have halloc : ∀ s e count, allocate s e count bookings = allocate s e count bookings' :=
      fun _ _ _ => allocate_perm hperm.1
    simp only [halloc]
  refine respects_await (fun _ _ h => h rfl) (fun b => ?_) fun _ => trivial
  cases b with
  | some b => trivial
  | none =>
  cases facility with
  | none => trivial
  | some facility =>
  refine respects_await (fun _ _ h => h.2 rfl) (fun arr => ?_) fun _ => trivial
  split
  · trivial
  cases allocate (getTime d) (getTime d + .val slotLength) facility.count bookings with
  | none => trivial
  | some court => exact respects_await (fun _ _ h => h) (fun _ => trivial) fun _ => trivial

theorem sportBookings_respects {sport : Nat} {f : List Date → Proc Http Unit}
    (h : ∀ l, (f l).Respects SameDocs) : (sportBookings user sport >>= f).Respects SameDocs := by
  refine respects_await (fun _ _ h => h) (fun facility => ?_) fun _ => trivial
  cases facility with
  | none => trivial
  | some facility => exact respects_await (fun _ _ h => h.2 rfl) (fun bookings => h _) fun _ => trivial

theorem respond_respects (r : Reply) : (respond r).Respects SameDocs := trivial

theorem postProfile_respects : (postProfile user).Respects SameDocs :=
  Proc.Respects.tryCatch (sportBookings_respects fun _ => sportBookings_respects fun _ =>
    sportBookings_respects fun _ => sportBookings_respects fun _ => respond_respects _) fun _ => respond_respects _

theorem postRegister_respects : (postRegister body).Respects SameDocs := by
  refine respects_await (fun _ _ h => h) (fun user => ?_) fun _ => trivial
  cases user with
  | some user => trivial
  | none => exact respects_await (fun _ _ h => h) (fun _ => trivial) fun _ => trivial

theorem Route.serve_respects (r : Route) : (r.serve rt body).Respects SameDocs := by
  refine isLoggedIn_respects fun user => ?_
  cases r with
  | booking => exact postBooking_respects
  | facilityAdd => exact respects_await (fun _ _ h => h) (fun _ => trivial) fun _ => trivial
  | allFacilities => exact respects_await (fun _ _ h => h) (fun _ => trivial) fun _ => trivial
  | profile => exact postProfile_respects
  | getName =>
    refine respects_await (fun _ _ h => h) (fun user => ?_) fun _ => trivial
    cases user <;> trivial

end Routes

/-! ### Sequences of requests -/

inductive Request where
  | register (body : Json)
  | route (r : Route) (body : Json)

def Request.serve (rt : Runtime) : Request → Proc Http Unit
  | register body => postRegister body
  | route r body => r.serve rt body

theorem Request.serve_respects (rt : Runtime) (r : Request) : (r.serve rt).Respects SameDocs := by
  cases r with
  | register body => exact postRegister_respects
  | route r body => exact r.serve_respects

/-- The database after the requests, each finished before the next -/
def after (m : Mongoose) (rt : Runtime) (db : Db) (rs : List Request) : Db :=
  rs.foldl (fun db r => ((r.serve rt).run (Db.exec m) Proc.noFaults db).store) db

/-- The replies to each of the requests -/
def responses (m : Mongoose) (rt : Runtime) (db : Db) : List Request → List (List Reply)
  | [] => []
  | r :: rs =>
    let o := (r.serve rt).run (Db.exec m) Proc.noFaults db
    o.sent :: responses m rt o.store rs

section Sequences
variable {m : Mongoose} {rt : Runtime} {db db' : Db}

theorem after_append (rs rs' : List Request) : after m rt db (rs ++ rs') = after m rt (after m rt db rs) rs' := by
  simp [after]

theorem responses_append (rs rs' : List Request) :
    responses m rt db (rs ++ rs') = responses m rt db rs ++ responses m rt (after m rt db rs) rs' := by
  induction rs generalizing db with
  | nil => rfl
  | cons r rs ih =>
    rw [List.cons_append, responses, responses, ih, List.cons_append]
    rfl

/-- Requests answer alike on the two databases, and leave two that are the same again. -/
theorem Db.Same.serveAll (h : db.Same db') (rs : List Request) :
    responses m rt db rs = responses m rt db' rs ∧ (after m rt db rs).Same (after m rt db' rs) := by
  induction rs generalizing db db' with
  | nil => exact ⟨rfl, h⟩
  | cons r rs ih =>
    obtain ⟨hstore, hsent, -⟩ := (r.serve_respects rt).run (R := Db.Same) (fun _ _ op h => exec_same (m := m) h op)
      Proc.noFaults h
    obtain ⟨hresponses, hafter⟩ := ih hstore
    refine ⟨?_, hafter⟩
    rw [responses, responses, hsent, hresponses]

end Sequences
end KhelaKaro
