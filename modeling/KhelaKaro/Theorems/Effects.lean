import KhelaKaro.Api
import KhelaKaro.Async.Pool

/-! # Effects

What one call does to the database. Each collection only grows, by the document of a save that is answered without an
error; a query, a rejected save and a failed call leave everything as it was. -/

namespace KhelaKaro
open Async

/-! ### Saves -/

def BookingDraft.booking (doc : BookingDraft) : Option Booking :=
  match doc.startDateTime.toDate, doc.endDateTime.toDate with
  | some start, some «end» => some ⟨doc.user, doc.facility, doc.courtNumber, start, «end»⟩
  | _, _ => none

variable {m : Mongoose} {db db' : Db}

theorem saveBooking_eq_ok {doc : BookingDraft} (h : db.saveBooking doc = .ok db') :
    ∃ b, doc.booking = some b ∧ db' = { db with bookings := db.bookings ++ [b] } := by
  unfold Db.saveBooking at h
  unfold BookingDraft.booking
  cases hstart : doc.startDateTime.toDate with
  | none => simp [hstart] at h
  | some start =>
  cases hstop : doc.endDateTime.toDate with
  | none => simp [hstart, hstop] at h
  | some stop =>
  simp only [hstart, hstop, Except.ok.injEq] at h
  exact ⟨_, rfl, h.symm⟩

theorem saveFacility_eq_ok {doc : FacilityDraft} (h : m.saveFacility db doc = .ok db') :
    ∃ facilities, db' = { db with facilities } ∧ db.facilities.docs <+: facilities.docs := by
  unfold Mongoose.saveFacility at h
  cases hid : Mongoose.castField m.castNumber doc.facilityId with
  | error e => simp [hid, error_bind] at h
  | ok facilityId =>
  cases hname : Mongoose.castField m.castString doc.name with
  | error e => simp [hid, hname, ok_bind, error_bind] at h
  | ok name =>
  cases hcount : Mongoose.castField m.castNumber doc.count with
  | error e => simp [hid, hname, hcount, ok_bind] at h
  | ok count =>
  simp only [hid, hname, hcount, ok_bind, pure, Except.pure, Except.ok.injEq] at h
  exact ⟨_, h.symm, List.prefix_append _ _⟩

structure Describes (m : Mongoose) (doc : UserDraft) (user : User) : Prop where
  firstName : m.requiredString doc.firstName = .ok user.firstName
  lastName : m.requiredString doc.lastName = .ok user.lastName
  email : m.requiredString doc.email = .ok user.email
  contactNumber : Mongoose.castField m.castString doc.contactNumber = .ok user.contactNumber

/-- A saved user is new, has the fields of the draft, and is the only change. -/
theorem saveUser_eq_ok {doc : UserDraft} (h : m.saveUser db doc = .ok db') :
    ∃ user : User, Describes m doc user ∧ (∀ u ∈ db.users.docs, u.email ≠ user.email) ∧
      db'.users.docs = db.users.docs ++ [user] ∧ db'.facilities = db.facilities ∧ db'.bookings = db.bookings := by
  unfold Mongoose.saveUser at h
  cases hfirst : m.requiredString doc.firstName with
  | error e => simp [hfirst, error_bind] at h
  | ok firstName =>
  cases hlast : m.requiredString doc.lastName with
  | error e => simp [hfirst, hlast, ok_bind, error_bind] at h
  | ok lastName =>
  cases hemail : m.requiredString doc.email with
  | error e => simp [hfirst, hlast, hemail, ok_bind, error_bind] at h
  | ok email =>
  cases hnumber : Mongoose.castField m.castString doc.contactNumber with
  | error e => simp [hfirst, hlast, hemail, hnumber, ok_bind, error_bind] at h
  | ok contactNumber =>
  simp only [hfirst, hlast, hemail, hnumber, ok_bind] at h
  split at h
  · cases h
  · rename_i hnew
    simp only [pure, Except.pure, Except.ok.injEq] at h
    subst h
    refine ⟨⟨db.users.freshId, firstName, lastName, email, contactNumber⟩, ⟨hfirst, hlast, hemail, hnumber⟩, ?_, rfl,
      rfl, rfl⟩
    intro u hu he
    exact hnew (List.any_eq_true.mpr ⟨u, hu, by simpa using he⟩)

theorem taken_of_saveUser_error {doc : UserDraft} {user : User} (hd : Describes m doc user) {e : JsError}
    (h : m.saveUser db doc = .error e) : ∃ u ∈ db.users.docs, u.email = user.email := by
  unfold Mongoose.saveUser at h
  simp only [hd.firstName, hd.lastName, hd.email, hd.contactNumber, ok_bind] at h
  split at h
  · rename_i htaken
    obtain ⟨u, hu, he⟩ := List.any_eq_true.mp htaken
    exact ⟨u, hu, by simpa using he⟩
  · cases h

/-! ### Calls -/

def storedBooking : Call Http → Option Booking
  | ⟨.bookingSave doc, .ok _⟩ => doc.booking
  | _ => none

/-- The call is a save that is answered without an error. -/
def SavesDocument : Call Http → Prop
  | ⟨.userSave _, .ok _⟩ | ⟨.facilitySave _, .ok _⟩ | ⟨.bookingSave _, .ok _⟩ => True
  | _ => False

/-- An operation that saves no user and no facility. -/
def Op.OnBookings : Op → Prop
  | .userSave _ | .facilitySave _ => False
  | _ => True

/-- What a call has done once it is answered. -/
inductive Effect (m : Mongoose) (db : Db) : Call Http → Db → Prop where
  | unchanged {c : Call Http} (h : ¬SavesDocument c) : Effect m db c db
  | user {doc : UserDraft} {user : User} {db' : Db} (fields : Describes m doc user)
      (fresh : ∀ u ∈ db.users.docs, u.email ≠ user.email) (users : db'.users.docs = db.users.docs ++ [user])
      (facilities : db'.facilities = db.facilities) (bookings : db'.bookings = db.bookings) :
      Effect m db ⟨.userSave doc, .ok ()⟩ db'
  | facility {doc : FacilityDraft} {facilities : Collection Facility Facility._id}
      (grown : db.facilities.docs <+: facilities.docs) :
      Effect m db ⟨.facilitySave doc, .ok ()⟩ { db with facilities }
  | booking {doc : BookingDraft} {b : Booking} (stored : doc.booking = some b) :
      Effect m db ⟨.bookingSave doc, .ok ()⟩ { db with bookings := db.bookings ++ [b] }

namespace Effect
variable {c : Call Http}

theorem bookings_eq (h : Effect m db c db') : db'.bookings = db.bookings ++ (storedBooking c).toList := by
  cases h with
  | unchanged hsaves =>
    have hnone : storedBooking c = none := by
      unfold storedBooking
      split
      · exact absurd trivial hsaves
      · rfl
    rw [hnone, Option.toList_none, List.append_nil]
  | user fields fresh users facilities bookings =>
    rw [bookings]
    exact (List.append_nil _).symm
  | facility grown => exact (List.append_nil _).symm
  | booking stored => simp only [storedBooking, stored, Option.toList_some]

theorem users_cases (h : Effect m db c db') : db'.users = db.users ∧ (∀ doc, c ≠ ⟨.userSave doc, .ok ()⟩) ∨
    ∃ doc user, c = ⟨.userSave doc, .ok ()⟩ ∧ Describes m doc user ∧ (∀ u ∈ db.users.docs, u.email ≠ user.email) ∧
      db'.users.docs = db.users.docs ++ [user] := by
  cases h with
  | unchanged hsaves =>
    refine Or.inl ⟨rfl, ?_⟩
    rintro doc rfl
    exact hsaves trivial
  | user fields fresh users facilities bookings => exact Or.inr ⟨_, _, rfl, fields, fresh, users⟩
  | facility grown => exact Or.inl ⟨rfl, nofun⟩
  | booking stored => exact Or.inl ⟨rfl, nofun⟩

theorem facilities_grow (h : Effect m db c db') : db.facilities.docs <+: db'.facilities.docs := by
  cases h with
  | unchanged hsaves => exact List.prefix_rfl
  | user fields fresh users facilities bookings => exact facilities.symm ▸ List.prefix_rfl
  | facility grown => exact grown
  | booking stored => exact List.prefix_rfl

theorem onBookings (h : Effect m db c db') (hop : c.op.OnBookings) :
    db'.users = db.users ∧ db'.facilities = db.facilities := by
  cases h with
  | unchanged hsaves => exact ⟨rfl, rfl⟩
  | user fields fresh users facilities bookings => exact hop.elim
  | facility grown => exact hop.elim
  | booking stored => exact ⟨rfl, rfl⟩

end Effect

section Attempt
variable (m : Mongoose) (fault : Option JsError) (db : Db) (op : Op)

theorem attempt_effect : Effect m db ⟨op, (Proc.attempt (Db.exec m) fault db op).2⟩
    (Proc.attempt (Db.exec m) fault db op).1 := by
  cases fault with
  | some e => exact .unchanged (by cases op <;> exact id)
  | none =>
  rw [Proc.attempt_none]
  cases op with
  | userFindOne email => exact .unchanged id
  | facilityFindOne facilityId => exact .unchanged id
  | facilityFind => exact .unchanged id
  | bookingFind filter => exact .unchanged id
  | bookingFindOne filter => exact .unchanged id
  | userSave doc =>
    cases h : m.saveUser db doc with
    | error e =>
      simp only [Db.exec, h, Db.saved]
      exact .unchanged id
    | ok db' =>
      obtain ⟨user, hfields, hfresh, husers, hfacilities, hbookings⟩ := saveUser_eq_ok h
      simp only [Db.exec, h, Db.saved]
      exact .user hfields hfresh husers hfacilities hbookings
  | facilitySave doc =>
    cases h : m.saveFacility db doc with
    | error e =>
      simp only [Db.exec, h, Db.saved]
      exact .unchanged id
    | ok db' =>
      obtain ⟨facilities, rfl, hgrown⟩ := saveFacility_eq_ok h
      simp only [Db.exec, h, Db.saved]
      exact .facility hgrown
  | bookingSave doc =>
    cases h : db.saveBooking doc with
    | error e =>
      simp only [Db.exec, h, Db.saved]
      exact .unchanged id
    | ok db' =>
      obtain ⟨b, hstored, rfl⟩ := saveBooking_eq_ok h
      simp only [Db.exec, h, Db.saved]
      exact .booking hstored

theorem attempt_bookings : (Proc.attempt (Db.exec m) fault db op).1.bookings =
    db.bookings ++ (storedBooking ⟨op, (Proc.attempt (Db.exec m) fault db op).2⟩).toList :=
  (attempt_effect m fault db op).bookings_eq

/-- The users are as before, or the call has saved one. -/
theorem attempt_users : (Proc.attempt (Db.exec m) fault db op).1.users = db.users ∧
        (∀ doc, (⟨op, (Proc.attempt (Db.exec m) fault db op).2⟩ : Call Http) ≠ ⟨.userSave doc, .ok ()⟩) ∨
      ∃ doc user, (⟨op, (Proc.attempt (Db.exec m) fault db op).2⟩ : Call Http) = ⟨.userSave doc, .ok ()⟩ ∧
        Describes m doc user ∧ (∀ u ∈ db.users.docs, u.email ≠ user.email) ∧
        (Proc.attempt (Db.exec m) fault db op).1.users.docs = db.users.docs ++ [user] :=
  (attempt_effect m fault db op).users_cases

theorem mem_attempt_users {user : User} (h : user ∈ db.users.docs) :
    user ∈ (Proc.attempt (Db.exec m) fault db op).1.users.docs := by
  rcases attempt_users m fault db op with ⟨hu, -⟩ | ⟨doc, saved, -, -, -, hu⟩
  · rw [hu]
    exact h
  · rw [hu]
    exact List.mem_append_left _ h

/-- Facilities are only added. -/
theorem attempt_facilities : db.facilities.docs <+: (Proc.attempt (Db.exec m) fault db op).1.facilities.docs :=
  (attempt_effect m fault db op).facilities_grow

end Attempt

theorem attempt_onBookings {op : Op} (h : op.OnBookings) (m : Mongoose) (fault : Option JsError) (db : Db) :
    (Proc.attempt (Db.exec m) fault db op).1.users = db.users ∧
      (Proc.attempt (Db.exec m) fault db op).1.facilities = db.facilities :=
  (attempt_effect m fault db op).onBookings h

end KhelaKaro
