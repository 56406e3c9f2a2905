import KhelaKaro.Async.Proc
import KhelaKaro.Ecma
import Mathlib.Data.List.Nodup

/-! # The store

The three Mongoose models of `api/models`, the database they live in, and the operations the routes await.
Mongoose casts every filter value to the type of its path before the query is sent; `Mongoose` holds those
casts, with what its documentation says of the values that the API and the app use. -/

namespace KhelaKaro
open Async

structure ObjectId where
  val : Nat
  deriving DecidableEq

/-- Documents with distinct identities, in insertion order. -/
structure Collection (α : Type) (_id : α → ObjectId) where
  docs : List α
  nodup : (docs.map _id).Nodup

namespace Collection
variable {α : Type} {_id : α → ObjectId}

/-- An identity that no document of the collection has. -/
def freshId (c : Collection α _id) : ObjectId := ⟨(c.docs.map fun a => (_id a).val).foldr max 0 + 1⟩

theorem lt_freshId {c : Collection α _id} {a : α} (h : a ∈ c.docs) : (_id a).val < c.freshId.val := by
  have hle : ∀ l : List α, a ∈ l → (_id a).val ≤ (l.map fun a => (_id a).val).foldr max 0 := by
    intro l hl
    induction l with
    | nil => cases hl
    | cons b l ih =>
      rcases List.mem_cons.mp hl with rfl | hl
      · exact le_max_left _ _
      · exact (ih hl).trans (le_max_right _ _)
  exact Nat.lt_succ_of_le (hle c.docs h)

/-- The document `mk id`, stored under an identity of its own. -/
def insert (c : Collection α _id) (mk : ObjectId → α) (hmk : ∀ i, _id (mk i) = i) : Collection α _id where
  docs := c.docs ++ [mk c.freshId]
  nodup := by
    rw [List.map_append, List.nodup_append]
    refine ⟨c.nodup, List.nodup_singleton _, ?_⟩
    rintro i hi j hj rfl
    obtain ⟨a, ha, rfl⟩ := List.mem_map.mp hi
    rw [List.map_singleton, List.mem_singleton, hmk] at hj
    exact absurd (lt_freshId ha) (by rw [hj]; exact lt_irrefl _)

theorem eq_of_id {c : Collection α _id} {a b : α} (ha : a ∈ c.docs) (hb : b ∈ c.docs) (h : _id a = _id b) :
    a = b :=
  List.inj_on_of_nodup_map c.nodup ha hb h

end Collection

/-! ## Documents -/

structure User where
  _id : ObjectId
  firstName : String
  lastName : String
  email : String
  contactNumber : Option String
  deriving DecidableEq

structure Facility where
  _id : ObjectId
  facilityId : Option ℚ
  name : Option String
  count : Option ℚ
  deriving DecidableEq

structure Booking where
  user : ObjectId
  facility : ObjectId
  courtNumber : ℚ
  startDateTime : Date
  endDateTime : Date
  deriving DecidableEq

structure Db where
  users : Collection User User._id
  facilities : Collection Facility Facility._id
  bookings : List Booking

/-- The argument of `new User`; a property that the request lacks is `none`. -/
structure UserDraft where
  firstName : Option Json
  lastName : Option Json
  email : Option Json
  contactNumber : Option Json

structure FacilityDraft where
  facilityId : Option Json
  name : Option Json
  count : Option Json

structure BookingDraft where
  startDateTime : Number
  endDateTime : Number
  user : ObjectId
  facility : ObjectId
  courtNumber : ℚ

/-- A filter on a reference: a known identity, or a value of the request. -/
inductive RefFilter where
  | id (i : ObjectId)
  | value (v : Option Json)

/-- The keys of a filter on bookings; a key the filter lacks is `none`. -/
structure BookingFilter where
  user : Option ObjectId := none
  facility : Option RefFilter := none
  startDateTime : Option Number := none

/-! ## Casting -/

/-- How Mongoose casts values to the types of the schema; `none` is a `CastError`. -/
structure Mongoose where
  /-- the users that a value in `{ email }` matches, by their email -/
  emailFilter : Json → Option (String → Bool)
  emailFilter_str : ∀ s, emailFilter (.str s) = some fun e => e == s
  /-- the facilities that a value in `{ facilityId }` matches, by their `facilityId` -/
  facilityIdFilter : Json → Option (Option ℚ → Bool)
  facilityIdFilter_num : ∀ q, facilityIdFilter (.num q) = some fun f => f == some q
  /-- a string is cast with `Number` -/
  facilityIdFilter_str : ∀ s q, stringToNumber s = .val q → s ≠ "" →
    facilityIdFilter (.str s) = some fun f => f == some q
  /-- the bookings that a value in `{ facility }` matches, by their reference -/
  refFilter : Json → Option (ObjectId → Bool)
  /-- a value stored in a `String` field; a stored null is `some none` -/
  castString : Json → Option (Option String)
  castString_str : ∀ s, castString (.str s) = some (some s)
  /-- a value stored in a `Number` field -/
  castNumber : Json → Option (Option ℚ)
  castNumber_num : ∀ q, castNumber (.num q) = some (some q)

/-! ## Operations -/

inductive Op where
  | userFindOne (email : Option Json)
  | userSave (doc : UserDraft)
  | facilityFindOne (facilityId : Option Json)
  | facilityFind
  | facilitySave (doc : FacilityDraft)
  | bookingFind (filter : BookingFilter)
  | bookingFindOne (filter : BookingFilter)
  | bookingSave (doc : BookingDraft)

abbrev Op.Ans : Op → Type
  | .userFindOne _ => Option User
  | .facilityFindOne _ => Option Facility
  | .facilityFind => List Facility
  | .bookingFind _ => List Booking
  | .bookingFindOne _ => Option Booking
  | .userSave _ | .facilitySave _ | .bookingSave _ => Unit

namespace Mongoose
variable (m : Mongoose)

/-- `{ email }`: an undefined value matches the documents without the field, which `required` rules out. -/
def matchEmail : Option Json → Except JsError (String → Bool)
  | none => .ok fun _ => false
  | some v => (m.emailFilter v).elim (.error .castError) .ok

theorem matchEmail_str (s : String) : m.matchEmail (some (.str s)) = .ok fun e => e == s := by
  rw [matchEmail, m.emailFilter_str, Option.elim_some]

/-- `{ facilityId }` -/
def matchFacilityId : Option Json → Except JsError (Option ℚ → Bool)
  | none => .ok fun f => f.isNone
  | some v => (m.facilityIdFilter v).elim (.error .castError) .ok

/-- `{ facility }`: an undefined value matches the bookings without a facility, and every booking has one. -/
def matchRef : RefFilter → Except JsError (ObjectId → Bool)
  | .id i => .ok fun f => f == i
  | .value none => .ok fun _ => false
  | .value (some v) => (m.refFilter v).elim (.error .castError) .ok

/-- `{ startDateTime }`: a number that is no date is a `CastError`. -/
def matchStart (n : Number) : Except JsError (Date → Bool) := n.toDate.elim (.error .castError) fun d => .ok (· == d)

/-- A filter matches the bookings that match each of its keys. -/
def matchBooking (filter : BookingFilter) : Except JsError (Booking → Bool) := do
  let start ← filter.startDateTime.elim (.ok fun _ => true) matchStart
  let facility ← filter.facility.elim (.ok fun _ => true) m.matchRef
  let user := fun u => filter.user.elim true (u == ·)
  return fun b => start b.startDateTime && facility b.facility && user b.user

/-- A value for a field: `none` when the draft or the stored document lacks it. -/
def castField {β : Type} (cast : Json → Option (Option β)) : Option Json → Except JsError (Option β)
  | none => .ok none
  | some v => (cast v).elim (.error .validationError) .ok

/-- A value for a field that is `required`: a string that is missing or empty is refused. -/
def requiredString (v : Option Json) : Except JsError String := do
  match ← castField m.castString v with
  | none => .error .validationError
  | some s => if s = "" then .error .validationError else .ok s

/-- `user.save()`: the fields are cast and checked, and the unique index on `email` refuses a second document
    with the same one. -/
def saveUser (db : Db) (doc : UserDraft) : Except JsError Db := do
  let firstName ← m.requiredString doc.firstName
  let lastName ← m.requiredString doc.lastName
  let email ← m.requiredString doc.email
  let contactNumber ← castField m.castString doc.contactNumber
  if db.users.docs.any fun u => u.email == email then
    .error .duplicateKey
  else
    pure { db with users := db.users.insert (⟨·, firstName, lastName, email, contactNumber⟩) fun _ => rfl }

/-- `facility.save()` -/
def saveFacility (db : Db) (doc : FacilityDraft) : Except JsError Db := do
  let facilityId ← castField m.castNumber doc.facilityId
  let name ← castField m.castString doc.name
  let count ← castField m.castNumber doc.count
  pure { db with facilities := db.facilities.insert (⟨·, facilityId, name, count⟩) fun _ => rfl }

end Mongoose

namespace Db

/-- `newBooking.save()`: a number that is no date is refused. -/
def saveBooking (db : Db) (doc : BookingDraft) : Except JsError Db :=
  match doc.startDateTime.toDate, doc.endDateTime.toDate with
  | some start, some «end» =>
    .ok { db with bookings := db.bookings ++ [⟨doc.user, doc.facility, doc.courtNumber, start, «end»⟩] }
  | _, _ => .error .validationError

/-- A save answers nothing, and leaves the database as it was when it is refused. -/
def saved (db : Db) : Except JsError Db → Db × Except JsError Unit
  | .ok db' => (db', .ok ())
  | .error e => (db, .error e)

end Db
end KhelaKaro
