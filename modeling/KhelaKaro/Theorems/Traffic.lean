import KhelaKaro.Async.Serial
import KhelaKaro.Theorems.RegistrationRace
import KhelaKaro.Theorems.SameStores
import KhelaKaro.Theorems.BookingOutcomes
import KhelaKaro.Theorems.CourtRange

/-! # Requests in flight together

Any mix of requests on one server, in any order of their calls. A save is the last call of each handler, so the
handlers take effect one after the other unless a save lands while a request that could see it is on its way. The
requests of two users cannot see each other's users and bookings, as long as they ask for no bookings by a reference of
their own; the app's requests are of this kind. An added facility can be seen by all requests that read facilities,
whoever makes them. -/

namespace KhelaKaro
open Async

/-! ### Saves come last -/

def Op.Saves : Op → Prop
  | .userSave _ | .facilitySave _ | .bookingSave _ => True
  | _ => False

def Op.AddsFacility : Op → Prop
  | .facilitySave _ => True
  | _ => False

def Op.ReadsFacilities : Op → Prop
  | .facilityFindOne _ | .facilityFind => True
  | _ => False

section Last
variable {rt : Runtime} {body : Json}

theorem attempt_query (m : Mongoose) (fault : Option JsError) (db : Db) {op : Op} (h : ¬op.Saves) :
    (Proc.attempt (Db.exec m) fault db op).1 = db := by
  cases fault with
  | some e => rfl
  | none => cases op <;> first | rfl | exact absurd trivial h

theorem last_query {op : Op} {next : op.Ans → Proc Http Unit} {reject : JsError → Proc Http Unit} (h : ¬op.Saves)
    (hnext : ∀ a, (next a).Last Op.Saves) (hreject : ∀ e, (reject e).Last Op.Saves) :
    (Proc.await (I := Http) op next reject).Last Op.Saves :=
  ⟨fun hop => absurd hop h, hnext, hreject⟩

theorem last_respond (r : Reply) : (respond r).Last Op.Saves := trivial

theorem last_save {op : Op} {r : op.Ans → Reply} {r' : JsError → Reply} :
    (Proc.await (I := Http) op (fun a => respond (r a)) fun e => respond (r' e)).Last Op.Saves :=
  ⟨fun _ => ⟨fun _ => trivial, fun _ => trivial⟩, fun _ => trivial, fun _ => trivial⟩

theorem postBooking_last (user : User) : (postBooking rt body user).Last Op.Saves := by
  cases hd : newDate rt (body.prop "startDateTime") with
  | error e =>
    rw [postBooking_throws hd]
    trivial
  | ok d =>
  rw [postBooking_eq hd]
  refine last_query id (fun _ => last_query id (fun facility => ?_) fun _ => last_respond _) fun _ => last_respond _
  cases Json.get (body.prop "facilityId") "_id" with
  | error e => exact last_respond _
  | ok ref =>
  refine last_query id (fun bookings => last_query id (fun b => ?_) fun _ => last_respond _) fun _ => last_respond _
  cases b with
  | some b => exact last_respond _
  | none =>
  cases facility with
  | none => exact last_respond _
  | some facility =>
  refine last_query id (fun arr => ?_) fun _ => last_respond _
  split
  · exact last_respond _
  cases allocate (getTime d) (getTime d + .val slotLength) facility.count bookings with
  | none => exact last_respond _
  | some court => exact last_save

theorem sportBookings_calls {P : Op → Prop} {user : User} {sport : Nat} {f : List Date → Proc Http Unit}
    (hfacility : ∀ v, P (.facilityFindOne v))
    (hbookings : ∀ i, P (.bookingFind { user := user._id, facility := some (.id i) })) (hf : ∀ l, (f l).Calls P) :
    (sportBookings user sport >>= f).Calls P := by
  refine ⟨hfacility _, fun facility => ?_, fun _ => trivial⟩
  cases facility with
  | none => trivial
  | some facility => exact ⟨hbookings _, fun _ => hf _, fun _ => trivial⟩

theorem postProfile_calls {P : Op → Prop} {user : User} (hfacility : ∀ v, P (.facilityFindOne v))
    (hbookings : ∀ i, P (.bookingFind { user := user._id, facility := some (.id i) })) : (postProfile user).Calls P :=
  Proc.Calls.tryCatch (sportBookings_calls hfacility hbookings fun _ => sportBookings_calls hfacility hbookings fun _ =>
    sportBookings_calls hfacility hbookings fun _ => sportBookings_calls hfacility hbookings fun _ => trivial)
    fun _ => trivial

/-- The other routes make queries only. -/
theorem Route.serve_queries {r : Route} (hb : r ≠ .booking) (hf : r ≠ .facilityAdd) :
    (r.serve rt body).Calls fun op : Op => ¬op.Saves := by
  refine ⟨id, fun user => ?_, fun _ => trivial⟩
  cases user with
  | none => trivial
  | some user =>
  cases r with
  | booking => exact absurd rfl hb
  | facilityAdd => exact absurd rfl hf
  | allFacilities => exact ⟨id, fun _ => trivial, fun _ => trivial⟩
  | profile => exact postProfile_calls (fun _ => id) fun _ => id
  | getName =>
    refine ⟨id, fun user => ?_, fun _ => trivial⟩
    cases user <;> trivial

theorem Request.serve_last (r : Request) : (r.serve rt).Last Op.Saves := by
  cases r with
  | register body =>
    refine last_query id (fun user => ?_) fun _ => last_respond _
    cases user with
    | some user => exact last_respond _
    | none => exact last_save
  | route r body =>
    by_cases hquery : r ≠ .booking ∧ r ≠ .facilityAdd
    · exact (Route.serve_queries hquery.1 hquery.2).last
    refine last_query id (fun user => ?_) fun _ => last_respond _
    cases user with
    | none => trivial
    | some user =>
    rcases eq_or_ne r .booking with rfl | hb
    · exact postBooking_last user
    · rcases eq_or_ne r .facilityAdd with rfl | hf
      · exact last_save
      · exact absurd ⟨hb, hf⟩ hquery

end Last

/-! ### Facilities -/

def Request.AddsFacility : Request → Prop
  | .route .facilityAdd _ => True
  | _ => False

def Request.ReadsFacilities : Request → Prop
  | .register _ | .route .facilityAdd _ | .route .getName _ => False
  | .route .booking _ | .route .allFacilities _ | .route .profile _ => True

section Facilities
variable {rt : Runtime} {body : Json} {r : Request}

/-- The operations of a request for a booking -/
theorem postBooking_calls {P : Op → Prop} {user : User} (hmine : P (.bookingFind { user := user._id }))
    (hplace : ∀ v, P (.facilityFindOne v))
    (hlist : ∀ ref, Json.get (body.prop "facilityId") "_id" = .ok ref →
      P (.bookingFind { facility := some (.value ref) }))
    (hsame : ∀ n, P (.bookingFindOne { startDateTime := some n, user := user._id }))
    (hday : ∀ i, P (.bookingFind { user := user._id, facility := some (.id i) }))
    (hsave : ∀ doc : BookingDraft, doc.user = user._id → P (.bookingSave doc)) :
    (postBooking rt body user).Calls P := by
  cases hd : newDate rt (body.prop "startDateTime") with
  | error e =>
    rw [postBooking_throws hd]
    trivial
  | ok d =>
  rw [postBooking_eq hd]
  refine ⟨hmine, fun _ => ⟨hplace _, fun facility => ?_, fun _ => trivial⟩, fun _ => trivial⟩
  cases href : Json.get (body.prop "facilityId") "_id" with
  | error e => trivial
  | ok ref =>
  refine ⟨hlist ref href, fun bookings => ⟨hsame _, fun b => ?_, fun _ => trivial⟩, fun _ => trivial⟩
  cases b with
  | some b => trivial
  | none =>
  cases facility with
  | none => trivial
  | some facility =>
  refine ⟨hday _, fun arr => ?_, fun _ => trivial⟩
  dsimp only
  split
  · trivial
  cases allocate (getTime d) (getTime d + .val slotLength) facility.count bookings with
  | none => trivial
  | some court => exact ⟨hsave _ rfl, fun _ => trivial, fun _ => trivial⟩

/-- What a request that adds a facility saves is a facility. -/
theorem Request.AddsFacility.calls (h : r.AddsFacility) :
    (r.serve rt).Calls fun op : Op => op.Saves → op.AddsFacility := by
  cases r with
  | register body => exact h.elim
  | route r body =>
    cases r with
    | facilityAdd => exact facilityAdd_calls (fun _ => False.elim) fun _ => id
    | booking => exact h.elim
    | allFacilities => exact h.elim
    | profile => exact h.elim
    | getName => exact h.elim

/-- The other requests save no facility. -/
theorem Request.serve_addsFacility (h : ¬r.AddsFacility) : (r.serve rt).Calls fun op : Op => ¬op.AddsFacility := by
  have hquery : ∀ op : Op, ¬op.Saves → ¬op.AddsFacility := by
    intro op hop hadd
    cases op with
    | facilitySave doc => exact hop trivial
    | _ => exact hadd
  cases r with
  | register body => exact postRegister_calls (fun _ => id) fun _ => id
  | route r body =>
  rcases eq_or_ne r .booking with rfl | hb
  · refine ⟨id, fun user => ?_, fun _ => trivial⟩
    cases user with
    | none => trivial
    | some user => exact postBooking_calls id (fun _ => id) (fun _ _ => id) (fun _ => id) (fun _ => id) fun _ _ => id
  · exact (Route.serve_queries hb (by rintro rfl; exact h trivial)).mono hquery

theorem Request.serve_readsFacilities (h : ¬r.ReadsFacilities) :
    (r.serve rt).Calls fun op : Op => ¬op.ReadsFacilities := by
  cases r with
  | register body => exact postRegister_calls (fun _ => id) fun _ => id
  | route r body =>
    cases r with
    | facilityAdd => exact facilityAdd_calls (fun _ => id) fun _ => id
    | getName =>
      refine ⟨id, fun user => ?_, fun _ => trivial⟩
      cases user with
      | none => trivial
      | some user =>
        refine ⟨id, fun user => ?_, fun _ => trivial⟩
        cases user <;> trivial
    | booking => exact absurd trivial h
    | allFacilities => exact absurd trivial h
    | profile => exact absurd trivial h

end Facilities

/-! ### The requests of one user -/

/-- The request is one of the user with this email, and asks for no bookings by a reference of its own. -/
def Request.OfUser (email : String) : Request → Prop
  | .register body => body.prop "email" = some (.str email)
  | .route r body => body.prop "email" = some (.str email) ∧
    (r = .booking → ∀ v, body.prop "facilityId" = some v → v.prop "_id" = none)

/-- An operation on the user with this email, on the bookings of the users in `mine`, or on what all users share. -/
def Op.Within (email : String) (mine : ObjectId → Prop) : Op → Prop
  | .userFindOne v => v = some (.str email)
  | .userSave doc => doc.email = some (.str email)
  | .facilityFindOne _ | .facilityFind | .facilitySave _ => True
  | .bookingFind filter | .bookingFindOne filter =>
    (∃ u, filter.user = some u ∧ mine u) ∨ filter.facility = some (.value none)
  | .bookingSave doc => mine doc.user

section Within
variable {rt : Runtime} {body : Json} {email : String} {mine mine' : ObjectId → Prop} {user : User}

theorem Op.Within.mono {op : Op} (h : op.Within email mine) (hm : ∀ u, mine u → mine' u) : op.Within email mine' := by
  cases op with
  | userFindOne v => exact h
  | userSave doc => exact h
  | facilityFindOne v => trivial
  | facilityFind => trivial
  | facilitySave doc => trivial
  | bookingFind filter => exact h.imp_left fun ⟨u, hu, hmine⟩ => ⟨u, hu, hm u hmine⟩
  | bookingFindOne filter => exact h.imp_left fun ⟨u, hu, hmine⟩ => ⟨u, hu, hm u hmine⟩
  | bookingSave doc => exact hm _ h

theorem postBooking_within (hid : ∀ v, body.prop "facilityId" = some v → v.prop "_id" = none) :
    (postBooking rt body user).Calls (Op.Within email (· = user._id)) := by
  refine postBooking_calls (Or.inl ⟨_, rfl, rfl⟩) (fun _ => trivial) (fun ref href => Or.inr ?_)
    (fun _ => Or.inl ⟨_, rfl, rfl⟩) (fun _ => Or.inl ⟨_, rfl, rfl⟩) fun _ h => h
  rw [ref_eq_none href hid]

theorem handler_within {r : Route} (h : (Request.route r body).OfUser email) :
    (r.handler rt body user).Calls (Op.Within email (· = user._id)) := by
  cases r with
  | booking => exact postBooking_within (h.2 rfl)
  | facilityAdd => exact ⟨trivial, fun _ => trivial, fun _ => trivial⟩
  | allFacilities => exact ⟨trivial, fun _ => trivial, fun _ => trivial⟩
  | profile => exact postProfile_calls (fun _ => trivial) fun _ => Or.inl ⟨_, rfl, rfl⟩
  | getName =>
    refine ⟨h.1, fun user => ?_, fun _ => trivial⟩
    cases user <;> trivial

/-- The user was found by the email in one of the calls. -/
def FoundIn (email : String) (calls : List (Call Http)) (u : ObjectId) : Prop :=
  ∃ user : User, user._id = u ∧ ⟨.userFindOne (some (.str email)), .ok (some user)⟩ ∈ calls

def StaysWithin (email : String) (th : Thread Http Unit) : Prop :=
  ∀ c ∈ th.calls, c.op.Within email (FoundIn email th.calls)

theorem Request.OfUser.prop_email {r : Route} (h : (Request.route r body).OfUser email) :
    body.prop "email" = some (.str email) := h.1

/-- A request of a user stays within what is the user's, whatever the answers. -/
theorem Request.serve_within {r : Request} (h : r.OfUser email) :
    (r.serve rt).Along (fun _ => True) (StaysWithin email) [] [] := by
  cases r with
  | register body =>
    have hcalls : (postRegister body).Calls (Op.Within email fun _ => False) := by
      refine ⟨h, fun user => ?_, fun _ => trivial⟩
      cases user with
      | some user => trivial
      | none => exact ⟨h, fun _ => trivial, fun _ => trivial⟩
    exact (hcalls.along List.prefix_rfl fun c hc => absurd hc List.not_mem_nil).mono fun th hth c hc =>
      (hth.2 c hc).mono fun _ => False.elim
  | route r body =>
    have hgate : ∀ answer, StaysWithin email
        ⟨[⟨.userFindOne (body.prop "email"), answer⟩], [], .pure ()⟩ := by
      intro answer c hc
      obtain rfl := List.mem_singleton.mp hc
      exact h.prop_email
    refine ⟨fun c hc => absurd hc List.not_mem_nil, fun user _ => ?_, fun e _ => hgate _⟩
    cases user with
    | none => exact hgate _
    | some user =>
      have hfirst := List.prefix_refl [(⟨.userFindOne (body.prop "email"), .ok (some user)⟩ : Call Http)]
      refine ((handler_within h).along hfirst ?_).mono fun th hth c hc => (hth.2 c hc).mono ?_
      · intro c hc
        obtain rfl := List.mem_singleton.mp hc
        exact h.prop_email
      · rintro u rfl
        exact ⟨user, rfl, h.prop_email ▸ hth.1.subset (List.mem_singleton_self _)⟩

end Within

/-! ### What a user does not see -/

def Db.Owns (db : Db) (email : String) (u : ObjectId) : Prop :=
  ∃ user ∈ db.users.docs, user._id = u ∧ user.email = email

section Unseen
variable {m : Mongoose} {db : Db} {email email' : String} {u u' : ObjectId}

theorem Db.Owns.ne (h : db.Owns email u) (h' : db.Owns email' u') (hne : email ≠ email') : u ≠ u' := by
  obtain ⟨user, hmem, rfl, rfl⟩ := h
  obtain ⟨user', hmem', rfl, rfl⟩ := h'
  exact fun hid => hne (congrArg User.email (Collection.eq_of_id hmem hmem' hid))

theorem eq_of_requiredString {s t : String} (h : m.requiredString (some (.str s)) = .ok t) : t = s := by
  rcases eq_or_ne s "" with rfl | hne
  · simp [Mongoose.requiredString, Mongoose.castField, m.castString_str, ok_bind] at h
  · rw [requiredString_str m hne, Except.ok.injEq] at h
    exact h.symm

/-- No booking is matched by an undefined reference. -/
theorem matchBooking_undefined {filter : BookingFilter} (hf : filter.facility = some (.value none))
    {p : Booking → Bool} (h : m.matchBooking filter = .ok p) (b : Booking) : p b = false := by
  unfold Mongoose.matchBooking at h
  cases hstart : filter.startDateTime.elim (.ok fun _ => true) Mongoose.matchStart with
  | error e => simp [hstart, error_bind] at h
  | ok start =>
  simp only [hstart, hf, ok_bind, Option.elim_some, Mongoose.matchRef, pure, Except.pure, Except.ok.injEq] at h
  subst h
  simp

theorem matchBooking_other {filter : BookingFilter} (h : (∃ u, filter.user = some u ∧ db.Owns email u) ∨
    filter.facility = some (.value none)) {b : Booking} (hb : db.Owns email' b.user) (hne : email ≠ email')
    {p : Booking → Bool} (hp : m.matchBooking filter = .ok p) : p b = false := by
  rcases h with ⟨u, hu, howns⟩ | hf
  · cases hpb : p b with
    | false => rfl
    | true => exact absurd (matchBooking_user hu hp hpb) (hb.ne howns hne.symm)
  · exact matchBooking_undefined hf hp b

theorem user_of_booking {doc : BookingDraft} {b : Booking} (h : doc.booking = some b) : b.user = doc.user := by
  unfold BookingDraft.booking at h
  split at h
  · cases h
    rfl
  · cases h

/-- A query of one user is answered alike before and after a call of another that adds no facility. -/
theorem exec_unseen (hne : email ≠ email') (fault : Option JsError) {op op' : Op} (hadd : ¬op.AddsFacility)
    (hop : op.Within email ((Proc.attempt (Db.exec m) fault db op).1.Owns email))
    (hop' : op'.Within email' ((Proc.attempt (Db.exec m) fault db op).1.Owns email')) (hquery : ¬op'.Saves) :
    (Db.exec m (Proc.attempt (Db.exec m) fault db op).1 op').2 = (Db.exec m db op').2 := by
  have heffect := attempt_effect m fault db op
  generalize hcall : (⟨op, (Proc.attempt (Db.exec m) fault db op).2⟩ : Call Http) = c at heffect
  obtain rfl : op = c.op := congrArg Call.op hcall
  generalize (Proc.attempt (Db.exec m) fault db c.op).1 = db' at heffect hop hop' ⊢
  clear hcall
  cases heffect with
  | unchanged hsaves => rfl
  | facility grown => exact absurd trivial hadd
  | @user doc user _ fields fresh users facilities bookings =>
    have hfields := fields.email
    rw [show doc.email = some (.str email) from hop] at hfields
    have hemail := eq_of_requiredString hfields
    cases op' with
    | userFindOne v =>
      obtain rfl : v = some (.str email') := hop'
      rw [exec_userFindOne (m.matchEmail_str email'), exec_userFindOne (m.matchEmail_str email'), users,
        List.find?_append, List.find?_singleton, hemail]
      simp [hne]
    | facilityFindOne v => simp only [Db.exec, facilities]
    | facilityFind => simp only [Db.exec, facilities]
    | bookingFind filter => simp only [Db.exec, bookings]
    | bookingFindOne filter => simp only [Db.exec, bookings]
    | userSave doc => exact absurd trivial hquery
    | facilitySave doc => exact absurd trivial hquery
    | bookingSave doc => exact absurd trivial hquery
  | @booking doc b stored =>
    have howns : Db.Owns { db with bookings := db.bookings ++ [b] } email b.user := by
      rw [user_of_booking stored]
      exact hop
    cases op' with
    | userFindOne v => rfl
    | facilityFindOne v => rfl
    | facilityFind => rfl
    | bookingFind filter =>
      simp only [Db.exec]
      cases hp : m.matchBooking filter with
      | error e => rfl
      | ok p =>
        have hunseen := matchBooking_other hop' howns hne.symm hp
        simp only [Except.map, List.filter_append, List.filter_cons, hunseen, List.filter_nil, List.append_nil,
          Bool.false_eq_true, ↓reduceIte]
    | bookingFindOne filter =>
      simp only [Db.exec]
      cases hp : m.matchBooking filter with
      | error e => rfl
      | ok p =>
        have hunseen := matchBooking_other hop' howns hne.symm hp
        simp [Except.map, List.find?_append, hunseen]
    | userSave doc => exact absurd trivial hquery
    | facilitySave doc => exact absurd trivial hquery
    | bookingSave doc => exact absurd trivial hquery

/-- A query that reads no facilities is answered alike before and after a call that adds one. -/
theorem exec_unseen_facility (fault : Option JsError) {op op' : Op} (hadd : op.AddsFacility)
    (hop' : ¬op'.ReadsFacilities) (hquery : ¬op'.Saves) :
    (Db.exec m (Proc.attempt (Db.exec m) fault db op).1 op').2 = (Db.exec m db op').2 := by
  have heffect := attempt_effect m fault db op
  generalize hcall : (⟨op, (Proc.attempt (Db.exec m) fault db op).2⟩ : Call Http) = c at heffect
  obtain rfl : op = c.op := congrArg Call.op hcall
  generalize (Proc.attempt (Db.exec m) fault db c.op).1 = db' at heffect ⊢
  clear hcall
  cases heffect with
  | unchanged hsaves => rfl
  | user fields fresh users facilities bookings => exact hadd.elim
  | booking stored => exact hadd.elim
  | facility grown =>
    cases op' with
    | userFindOne v => rfl
    | bookingFind filter => rfl
    | bookingFindOne filter => rfl
    | facilityFindOne v => exact absurd trivial hop'
    | facilityFind => exact absurd trivial hop'
    | userSave doc => exact absurd trivial hquery
    | facilitySave doc => exact absurd trivial hquery
    | bookingSave doc => exact absurd trivial hquery

end Unseen

/-! ### Serial schedules -/

/-- The database has the user that a query for an email has answered. -/
def AttestsUser (db : Db) (c : Call Http) : Prop :=
  ∀ email user, c = ⟨.userFindOne (some (.str email)), .ok (some user)⟩ → user ∈ db.users.docs ∧ user.email = email

section Serial
variable {m : Mongoose} {rt : Runtime} {db : Db} {email : String}

theorem AttestsUser.mono {c : Call Http} (h : AttestsUser db c) (fault : Option JsError) (op : Op) :
    AttestsUser (Proc.attempt (Db.exec m) fault db op).1 c := by
  intro email user hc
  obtain ⟨hmem, hemail⟩ := h email user hc
  exact ⟨mem_attempt_users m fault db op hmem, hemail⟩

theorem attestsUser_attempt (fault : Option JsError) (op : Op) :
    AttestsUser (Proc.attempt (Db.exec m) fault db op).1 ⟨op, (Proc.attempt (Db.exec m) fault db op).2⟩ := by
  intro email user hc
  obtain ⟨rfl, hanswer⟩ := Call.mk.inj hc
  replace hanswer := eq_of_heq hanswer
  cases fault with
  | some e => cases hanswer
  | none =>
    rw [Proc.attempt_none, exec_userFindOne (m.matchEmail_str email), Except.ok.injEq] at hanswer
    exact ⟨List.mem_of_find?_eq_some hanswer, by simpa using List.find?_some hanswer⟩

theorem FoundIn.owns {calls : List (Call Http)} (h : ∀ c ∈ calls, AttestsUser db c) {u : ObjectId}
    (hu : FoundIn email calls u) : db.Owns email u := by
  obtain ⟨user, rfl, hc⟩ := hu
  obtain ⟨hmem, hemail⟩ := h _ hc _ _ rfl
  exact ⟨user, hmem, rfl, hemail⟩

/-- The requests are of two users. -/
def Request.OfTwoUsers (r r' : Request) : Prop := ∃ email email', email ≠ email' ∧ r.OfUser email ∧ r'.OfUser email'

/-- What the request saves is out of sight of the other one: a facility of one that reads no facilities, a user or a
    booking of one of another user. -/
structure Request.Unseen (r r' : Request) : Prop where
  facility : r.AddsFacility → ¬r'.ReadsFacilities
  others : ¬r.AddsFacility → r.OfTwoUsers r'

/-- A handler is under way from its first call to its last. -/
def UnderWay (th : Thread Http Unit) : Prop := th.calls ≠ [] ∧ th.finished = false

def serverPool (rt : Runtime) (db : Db) (rs : List Request) : Pool Http Db Unit :=
  Pool.start db (rs.map (Request.serve rt))

/-- Whenever a turn changes the database, what it saves is out of sight of the other requests that are under way. -/
def SavesUnseen (m : Mongoose) (rt : Runtime) (db : Db) (rs : List Request) (ts : List (Turn Http)) : Prop :=
  ∀ before t rest, ts = before ++ t :: rest →
    (((serverPool rt db rs).runs (Db.exec m) before).step (Db.exec m) t).store ≠
      ((serverPool rt db rs).runs (Db.exec m) before).store →
    ∀ i th r r', i ≠ t.thread → ((serverPool rt db rs).runs (Db.exec m) before).threads[i]? = some th → UnderWay th →
      rs[t.thread]? = some r → rs[i]? = some r' → r.Unseen r'

section Pools
variable {rs : List Request} {ts : List (Turn Http)} {i : Nat} {th : Thread Http Unit}

theorem serverPool_request (hi : ((serverPool rt db rs).runs (Db.exec m) ts).threads[i]? = some th) :
    ∃ r, rs[i]? = some r := by
  obtain ⟨t, ht, -⟩ := Pool.runs_resumes ts hi
  rw [List.getElem?_map, Option.map_eq_some_iff] at ht
  obtain ⟨r, hr, -⟩ := ht
  exact ⟨r, hr⟩

theorem serverPool_along {P : Thread Http Unit → Prop} {r : Request}
    (hi : ((serverPool rt db rs).runs (Db.exec m) ts).threads[i]? = some th) (hr : rs[i]? = some r)
    (h : (r.serve rt).Along (fun _ => True) P [] []) : P th := by
  refine Pool.runs_along hi fun t ht => ?_
  rw [List.getElem?_map, hr, Option.map_some, Option.some.injEq] at ht
  exact ht ▸ h

theorem serverPool_calls {P : Op → Prop} {r : Request}
    (hi : ((serverPool rt db rs).runs (Db.exec m) ts).threads[i]? = some th) (hr : rs[i]? = some r)
    (h : (r.serve rt).Calls P) : ∀ c ∈ th.calls, P c.op :=
  (serverPool_along hi hr (h.along List.prefix_rfl fun _ hc => absurd hc List.not_mem_nil)).2

theorem serverPool_within (hi : ((serverPool rt db rs).runs (Db.exec m) ts).threads[i]? = some th) {r : Request}
    (hr : rs[i]? = some r) (h : r.OfUser email) : StaysWithin email th := serverPool_along hi hr (r.serve_within h)

theorem serverPool_queries (hi : ((serverPool rt db rs).runs (Db.exec m) ts).threads[i]? = some th)
    (hgoing : th.finished = false) : ∀ c ∈ th.calls, ¬c.op.Saves := by
  refine Pool.runs_along (P := fun th : Thread Http Unit => th.finished = false → ∀ c ∈ th.calls, ¬c.op.Saves) hi
    (fun t ht => ?_) hgoing
  rw [List.getElem?_map, Option.map_eq_some_iff] at ht
  obtain ⟨r, -, rfl⟩ := ht
  exact r.serve_last.along fun c hc => absurd hc List.not_mem_nil

theorem serverPool_attests (hi : ((serverPool rt db rs).runs (Db.exec m) ts).threads[i]? = some th) :
    ∀ c ∈ th.calls, AttestsUser ((serverPool rt db rs).runs (Db.exec m) ts).store c := fun _ hc =>
  Pool.runs_calls (fun _ fault op _ h => h.mono fault op) db _ ts (fun t _ _ op => attestsUser_attempt t.fault op) hi hc

theorem serverPool_owns (hi : ((serverPool rt db rs).runs (Db.exec m) ts).threads[i]? = some th) {r : Request}
    (hr : rs[i]? = some r) (h : r.OfUser email) :
    ∀ c ∈ th.calls, c.op.Within email (((serverPool rt db rs).runs (Db.exec m) ts).store.Owns email) := fun c hc =>
  (serverPool_within hi hr h c hc).mono fun _ hu => hu.owns (serverPool_attests hi)

/-- A save that no other request under way could see. -/
theorem SavesUnseen.validates (h : SavesUnseen m rt db rs ts) {before rest : List (Turn Http)} {t : Turn Http}
    (hts : ts = before ++ t :: rest) (faults : Nat → Nat → Option JsError) :
    Pool.Validates (Db.exec m) faults ((serverPool rt db rs).runs (Db.exec m) before) t := by
  intro hchange
  have hlast : ∀ u ∈ rs.map (Request.serve rt), u.Last Op.Saves := by
    intro u hu
    obtain ⟨r, -, rfl⟩ := List.mem_map.mp hu
    exact r.serve_last
  have hseen := h before t rest hts hchange
  obtain ⟨th, op, next, reject, hth, hproc, hsaves, hend⟩ :
      ∃ th op next reject, ((serverPool rt db rs).runs (Db.exec m) before).threads[t.thread]? = some th ∧
        th.proc = .await op next reject ∧ op.Saves ∧
        (th.turn (Db.exec m) t.fault ((serverPool rt db rs).runs (Db.exec m) before).store).2.finished = true :=
    Pool.step_changes (fun fault db op => attempt_query m fault db) hlast hchange
  have hthread : ∀ (i : Nat) (th' : Thread Http Unit),
      (((serverPool rt db rs).runs (Db.exec m) before).step (Db.exec m) t).threads[i]? = some th' →
      ((serverPool rt db rs).runs (Db.exec m) (before ++ [t])).threads[i]? = some th' := fun i th' hi => by
    rw [Pool.runs_concat]
    exact hi
  obtain ⟨hstore, hself⟩ :
      (((serverPool rt db rs).runs (Db.exec m) before).step (Db.exec m) t).store =
        (th.turn (Db.exec m) t.fault ((serverPool rt db rs).runs (Db.exec m) before).store).1 ∧
      (((serverPool rt db rs).runs (Db.exec m) before).step (Db.exec m) t).threads[t.thread]? =
        some (th.turn (Db.exec m) t.fault ((serverPool rt db rs).runs (Db.exec m) before).store).2 := Pool.step_self hth
  refine ⟨fun th' hth' => ?_, fun i th' hi hth' hgoing hreplays => ?_⟩
  · rw [hself, Option.some.injEq] at hth'
    exact hth' ▸ hend
  by_cases hnil : th'.calls = []
  · rw [hnil]
    exact Proc.replays_nil
  obtain ⟨r, hr⟩ := serverPool_request hth
  obtain ⟨r', hr'⟩ := serverPool_request hth'
  have hunseen := hseen i th' r r' hi hth' ⟨hnil, hgoing⟩ hr hr'
  have hqueries := serverPool_queries hth' hgoing
  have hcall : ⟨op, (Proc.attempt (Db.exec m) t.fault ((serverPool rt db rs).runs (Db.exec m) before).store op).2⟩ ∈
      (th.turn (Db.exec m) t.fault ((serverPool rt db rs).runs (Db.exec m) before).store).2.calls := by
    rw [Thread.turn_calls hproc]
    exact List.mem_concat_self
  rw [hstore, Thread.turn_store hproc]
  refine hreplays.mono fun c hc hexec => Prod.ext (attempt_query m none _ (hqueries c hc)) ?_
  by_cases hadd : r.AddsFacility
  · have hfacility := serverPool_calls (hthread _ _ hself) hr hadd.calls _ hcall hsaves
    have hblind := serverPool_calls hth' hr' (Request.serve_readsFacilities (hunseen.facility hadd)) c hc
    rw [exec_unseen_facility t.fault hfacility hblind (hqueries c hc), hexec]
  · obtain ⟨email, email', hne, hof, hof'⟩ := hunseen.others hadd
    have hop := serverPool_owns (hthread _ _ hself) hr hof
    have hop' := serverPool_owns (hthread _ _ ((Pool.step_other (Ne.symm hi)).trans hth')) hr' hof'
    rw [Pool.runs_concat, hstore, Thread.turn_store hproc] at hop hop'
    have hnone := serverPool_calls (hthread _ _ hself) hr (Request.serve_addsFacility hadd) _ hcall
    rw [exec_unseen hne t.fault hnone (hop _ hcall) (hop' c hc) (hqueries c hc), hexec]

theorem SavesUnseen.serial (h : SavesUnseen m rt db rs ts) :
    Pool.Serial (Db.exec m) (rs.map (Request.serve rt)) (Pool.faultsOf ts) db
      ((serverPool rt db rs).endings (Db.exec m) ts) ((serverPool rt db rs).runs (Db.exec m) ts) :=
  Pool.serial_runs (Pool.follows_faultsOf ts) fun _ _ _ hts => h.validates hts _

/-- Requests in flight together are served one after the other, in the order in which they end, when no save lands
    while a request that could see it is under way. -/
theorem serverPool_serial (m : Mongoose) (rt : Runtime) (db : Db) (rs : List Request) (ts : List (Turn Http))
    (h : SavesUnseen m rt db rs ts) :
    Pool.Serial (Db.exec m) (rs.map (Request.serve rt)) (Pool.faultsOf ts) db
      ((serverPool rt db rs).endings (Db.exec m) ts) ((serverPool rt db rs).runs (Db.exec m) ts) :=
  h.serial

/-- Requests none of which could see a save of another are unseen, in whatever order their calls come. -/
theorem savesUnseen_of_unseen
    (h : ∀ (i j : Nat) (r r' : Request), i ≠ j → rs[i]? = some r → rs[j]? = some r' → r.Unseen r') :
    SavesUnseen m rt db rs ts :=
  fun _ t _ _ _ i _ r r' hi _ _ hr hr' => h t.thread i r r' hi.symm hr hr'

end Pools
end Serial

/-- The bookings of two users for one slot, call by call in turns. -/
def homeAndAway : List Request := [.route .booking homeRequest, .route .booking awayRequest]

def inTurns : List (Turn Http) := (List.replicate 7 [⟨0, none⟩, ⟨1, none⟩]).flatten

theorem bookCourt_ofUser (facilityId startDateTime email : String) :
    (Request.route .booking (bookCourt facilityId startDateTime email)).OfUser email := by
  refine ⟨rfl, fun _ v hv => ?_⟩
  obtain rfl : v = .str facilityId := (Option.some.inj hv).symm
  rfl

/-- Requests of the app for the bookings of two users -/
theorem bookCourt_unseen {facilityId facilityId' startDateTime startDateTime' email email' : String}
    (h : email ≠ email') : (Request.route .booking (bookCourt facilityId startDateTime email)).Unseen
      (.route .booking (bookCourt facilityId' startDateTime' email')) :=
  ⟨False.elim, fun _ => ⟨email, email', h, bookCourt_ofUser .., bookCourt_ofUser ..⟩⟩

theorem homeAndAway_unseen (i j : Nat) (r r' : Request) (hne : i ≠ j) (hr : homeAndAway[i]? = some r)
    (hr' : homeAndAway[j]? = some r') : r.Unseen r' := by
  match i, j with
  | 0, 0 | 1, 1 => exact absurd rfl hne
  | 0, 1 | 1, 0 =>
    cases hr
    cases hr'
    exact bookCourt_unseen (by decide)
  | _ + 2, _ => cases hr
  | _, _ + 2 => cases hr'

theorem serverPool_serial_club : Pool.Serial (Db.exec mongoose6) (homeAndAway.map (Request.serve utc.runtime))
    (Pool.faultsOf inTurns) club ((serverPool utc.runtime club homeAndAway).endings (Db.exec mongoose6) inTurns)
    ((serverPool utc.runtime club homeAndAway).runs (Db.exec mongoose6) inTurns) :=
  serverPool_serial mongoose6 utc.runtime club homeAndAway inTurns (savesUnseen_of_unseen homeAndAway_unseen)

/-! ### The bookings of one user -/

/-- Two bookings of one user start at different instants, and at one facility 24 hours less 86.4 seconds apart. -/
def Db.Spaced (db : Db) : Prop :=
  db.bookings.Pairwise fun a b => a.user = b.user → a.startDateTime ≠ b.startDateTime ∧
    (a.facility = b.facility → 86313600 ≤ |a.startDateTime.time - b.startDateTime.time|)

section Spaced
variable {m : Mongoose} {rt : Runtime} {db : Db} {body : Json}

/-- A request for a booking stores the one that it is granted, or nothing. -/
theorem serveBooking_store_cases (m : Mongoose) (rt : Runtime) (db : Db) (body : Json) (faults : Nat → Option JsError) :
    ((serveBooking rt body).run (Db.exec m) faults db).store = db ∨
      ((serveBooking rt body).run (Db.exec m) faults db).store = db.add (entry m rt db body) := by
  rw [← serveBooking_store]
  unfold serveBooking
  rcases isLoggedIn_run_cases (postBooking rt body) faults with ⟨user, -, hu, hrun⟩ | ⟨-, sent, hrun, -⟩
  · rw [hrun, isLoggedIn_run_user hu]
    cases hd : newDate rt (body.prop "startDateTime") with
    | error e =>
      rw [postBooking_throws hd]
      exact Or.inl rfl
    | ok d =>
      rcases postBooking_run_cases hd with hsame | hfail
      · exact Or.inr (congrArg Proc.Outcome.store hsame)
      · exact Or.inl (congrArg Proc.Outcome.store hfail)
  · exact Or.inl (congrArg Proc.Outcome.store hrun)

theorem Db.Spaced.add (h : db.Spaced) : (db.add (entry m rt db body)).Spaced := by
  cases hb : entry m rt db body with
  | none =>
    rw [Db.add_none]
    exact h
  | some b =>
    obtain ⟨user, facility, start, read, court, stop, hg, rfl⟩ := entry_eq_some_iff.mp hb
    refine List.pairwise_append.mpr ⟨h, List.pairwise_singleton _ _, fun a ha b hb hu => ?_⟩
    obtain rfl := List.mem_singleton.mp hb
    refine ⟨fun hstart => hg.start_ne ha hu (congrArg Date.time hstart), fun hf => ?_⟩
    have hout := hg.outside ha hu hf
    rw [le_abs]
    dsimp only
    omega

theorem Route.storesNoBooking {r : Route} (h : r ≠ .booking) : (r.serve rt body).Calls Op.StoresNoBooking := by
  rcases eq_or_ne r .facilityAdd with rfl | hf
  · exact facilityAdd_storesNoBooking
  · refine (Route.serve_queries h hf).mono fun op hop => ?_
    cases op with
    | bookingSave doc => exact hop trivial
    | _ => trivial

theorem Db.Spaced.serve (h : db.Spaced) (r : Request) (faults : Nat → Option JsError) :
    ((r.serve rt).run (Db.exec m) faults db).store.Spaced := by
  have hsame : ∀ {t : Proc Http Unit}, t.Calls Op.StoresNoBooking → (t.run (Db.exec m) faults db).store.Spaced := by
    intro t ht
    unfold Db.Spaced
    rw [run_storesNoBooking ht]
    exact h
  cases r with
  | register body => exact hsame postRegister_storesNoBooking
  | route r body =>
  rcases eq_or_ne r .booking with rfl | hne
  · have hstore : ((Request.route .booking body).serve rt).run (Db.exec m) faults db =
        (serveBooking rt body).run (Db.exec m) faults db := rfl
    rw [hstore]
    rcases serveBooking_store_cases m rt db body faults with hstore | hstore
    · rw [hstore]
      exact h
    · rw [hstore]
      exact h.add
  · exact hsame (Route.storesNoBooking hne)

theorem SavesUnseen.spaced {rs : List Request} {ts : List (Turn Http)} (h : SavesUnseen m rt db rs ts)
    (h0 : db.Spaced) : ((serverPool rt db rs).runs (Db.exec m) ts).store.Spaced := by
  refine h.serial.keeps h0 fun i t db ht hdb => ?_
  rw [List.getElem?_map, Option.map_eq_some_iff] at ht
  obtain ⟨r, -, rfl⟩ := ht
  exact hdb.serve r _

/-- The bookings of each user stay spaced while no save lands that a request under way could see. -/
theorem serverPool_spaced (m : Mongoose) (rt : Runtime) (db : Db) (rs : List Request) (ts : List (Turn Http))
    (h : SavesUnseen m rt db rs ts) (h0 : db.Spaced) : ((serverPool rt db rs).runs (Db.exec m) ts).store.Spaced :=
  h.spaced h0

end Spaced

/-- The home player books the next day as well, when both bookings are made. -/
def homeTwice : List Request := homeAndAway ++ [.route .booking dayLaterRequest]

def thenHome : List (Turn Http) := inTurns ++ List.replicate 7 ⟨2, none⟩

/-- The first request has ended before the third has a turn. -/
theorem thenHome_apart {k : Nat} {t : Turn Http} (ht : thenHome[k]? = some t) :
    (t.thread = 0 → ((serverPool utc.runtime club homeTwice).runs (Db.exec mongoose6) (thenHome.take k)).threads[2]?.all
        (fun th => th.calls.isEmpty) = true) ∧
      (t.thread = 2 → ((serverPool utc.runtime club homeTwice).runs (Db.exec mongoose6)
        (thenHome.take k)).threads[0]?.all Thread.finished = true) := by
  have hall : ((List.range 21).all fun k => thenHome[k]?.all fun t =>
      (t.thread != 0 || ((serverPool utc.runtime club homeTwice).runs (Db.exec mongoose6)
        (thenHome.take k)).threads[2]?.all fun th => th.calls.isEmpty) &&
      (t.thread != 2 || ((serverPool utc.runtime club homeTwice).runs (Db.exec mongoose6)
        (thenHome.take k)).threads[0]?.all Thread.finished)) = true := by decide +kernel
  have hk := List.all_eq_true.mp hall k (List.mem_range.mpr (List.getElem?_eq_some_iff.mp ht).1)
  rw [ht, Option.all_some, Bool.and_eq_true, Bool.or_eq_true, Bool.or_eq_true] at hk
  constructor
  · intro h
    exact hk.1.resolve_left (by simp [h])
  · intro h
    exact hk.2.resolve_left (by simp [h])

theorem savesUnseen_thenHome : SavesUnseen mongoose6 utc.runtime club homeTwice thenHome := by
  intro before t rest hts _ i th r r' hne hth hway hr hr'
  have hbefore : thenHome.take before.length = before := by rw [hts, List.take_left']; rfl
  have hapart := thenHome_apart (k := before.length) (t := t) (by rw [hts]; simp)
  rw [hbefore] at hapart
  match hi : i, hj : t.thread with
  | 0, 0 | 1, 1 | 2, 2 => exact absurd hj.symm hne
  | 0, 1 | 1, 0 | 1, 2 | 2, 1 =>
    rw [hj] at hr
    cases hr
    cases hr'
    exact bookCourt_unseen (by decide)
  | 0, 2 =>
    have hend := hapart.2 hj
    rw [hth, Option.all_some, hway.2] at hend
    cases hend
  | 2, 0 =>
    have hnone := hapart.1 hj
    rw [hth, Option.all_some, List.isEmpty_iff] at hnone
    exact absurd hnone hway.1
  | _ + 3, _ => cases hr'
  | _, _ + 3 =>
    rw [hj] at hr
    cases hr

theorem serverPool_spaced_club :
    ((serverPool utc.runtime club homeTwice).runs (Db.exec mongoose6) thenHome).store.bookings.map (·.user) =
        [⟨1⟩, ⟨2⟩, ⟨1⟩] ∧
      ((serverPool utc.runtime club homeTwice).runs (Db.exec mongoose6) thenHome).store.Spaced :=
  ⟨by decide +kernel, serverPool_spaced mongoose6 utc.runtime club homeTwice thenHome savesUnseen_thenHome
    List.Pairwise.nil⟩

end KhelaKaro
