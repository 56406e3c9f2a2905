import KhelaKaro.Query
import KhelaKaro.Theorems.BookingRace
import KhelaKaro.Theorems.Profile
import Mathlib.Algebra.BigOperators.Group.Multiset.Basic

/-! # Bookings and profile agree

The rows of a user's profile are, as a multiset, the bookings of the user that were answered with a court. Rows are
counted call by call (`Pool.runs_total`): a handler adds its row with the one save it makes, and answers with a court
if and only if that save went through. -/

namespace KhelaKaro
open Async

/-! ### Sports and facilities -/

namespace Screen

/-- The number of the sport in the loop of the profile route -/
def number : Screen → Nat
  | badminton => 1
  | tennis => 2
  | tableTennis => 3
  | football => 4

def all : List Screen := [badminton, tennis, tableTennis, football]

theorem number_injective {s s' : Screen} (h : s.number = s'.number) : s = s' := by
  cases s <;> cases s' <;> first | rfl | cases h

/-- The server casts the identity that the screen sends to the number of the sport. -/
theorem matchFacilityId_facilityId (m : Mongoose) (s : Screen) :
    m.matchFacilityId (some (.str s.facilityId)) = .ok fun f => f == some (s.number : ℚ) := by
  have hcast : stringToNumber s.facilityId = .val s.number := by cases s <;> decide +kernel
  have hne : s.facilityId ≠ "" := by cases s <;> decide
  simp only [Mongoose.matchFacilityId, m.facilityIdFilter_str _ _ hcast hne, Option.elim_some]

end Screen

def Db.facilityOf (db : Db) (s : Screen) : Option Facility :=
  db.facilities.docs.find? fun f => f.facilityId == some (s.number : ℚ)

def Db.Equipped (db : Db) : Prop := ∀ s : Screen, ∃ f ∈ db.facilities.docs, f.facilityId = some (s.number : ℚ)

theorem Db.Equipped.facilityOf {db : Db} (h : db.Equipped) (s : Screen) : ∃ f, db.facilityOf s = some f := by
  obtain ⟨f, hf, hid⟩ := h s
  exact Option.isSome_iff_exists.mp (List.find?_isSome.mpr ⟨f, hf, by simp [hid]⟩)

theorem facilityOf_injective {db : Db} {s s' : Screen} {f f' : Facility} (h : db.facilityOf s = some f)
    (h' : db.facilityOf s' = some f') (hid : f._id = f'._id) : s = s' := by
  have hf : f = f' := Collection.eq_of_id (List.mem_of_find?_eq_some h) (List.mem_of_find?_eq_some h') hid
  have hnum : f.facilityId = some (s.number : ℚ) := by simpa using List.find?_some h
  have hnum' : f'.facilityId = some (s'.number : ℚ) := by simpa using List.find?_some h'
  rw [← hf, hnum, Option.some.injEq, Nat.cast_inj] at hnum'
  exact Screen.number_injective hnum'

/-! ### Rows -/

/-- The rows of a user in a list of bookings: those of each sport, at the facility it has. -/
def sportRows (place : Screen → Option Facility) (user : ObjectId) (bookings : List Booking) : Multiset BookingRow :=
  (Screen.all.map fun s => (((bookings.filter fun b => (place s).any (·._id == b.facility) && b.user == user).map
    fun b => ⟨s.sport, b.startDateTime⟩ : List BookingRow) : Multiset BookingRow)).sum

section Rows
variable {place : Screen → Option Facility} {user : ObjectId}

theorem sportRows_nil : sportRows place user [] = 0 := by
  simp [sportRows]

theorem sportRows_append (bs cs : List Booking) :
    sportRows place user (bs ++ cs) = sportRows place user bs + sportRows place user cs := by
  simp only [sportRows, List.filter_append, List.map_append, ← Multiset.coe_add, List.sum_map_add]

/-- A booking at the facility of a sport is one row if it is the user's, and none otherwise. -/
theorem sportRows_singleton (hinj : ∀ s s' f f', place s = some f → place s' = some f' → f._id = f'._id → s = s')
    {s : Screen} {f : Facility} (hs : place s = some f) {b : Booking} (hb : b.facility = f._id) :
    sportRows place user [b] = if b.user = user then {⟨s.sport, b.startDateTime⟩} else 0 := by
  have hplace : ∀ s', (place s').any (·._id == b.facility) = decide (s' = s) := by
    intro s'
    rw [Bool.eq_iff_iff, Option.any_eq_true, decide_eq_true_iff, hb]
    constructor
    · rintro ⟨f', hf', hid⟩
      exact hinj s' s f' f hf' hs (by simpa using hid)
    · rintro rfl
      exact ⟨f, hs, by simp⟩
  by_cases hu : b.user = user
  · simp only [sportRows, List.filter_cons, List.filter_nil, hplace, hu]
    cases s <;> simp [Screen.all]
  · simp [sportRows, hu]

end Rows

/-! ### The profile -/

section Profile
variable {db : Db} {user : User}

theorem sportStarts_rows {s : Screen} {l : List Date} (h : sportStarts db user s.number = some l) :
    l.map (SportRow.mk s.sport) =
      (db.bookings.filter fun b => (db.facilityOf s).any (·._id == b.facility) && b.user == user._id).map
        fun b => ⟨s.sport, b.startDateTime⟩ := by
  obtain ⟨f, hf, rfl⟩ := Option.map_eq_some_iff.mp h
  have hplace : db.facilityOf s = some f := hf
  rw [hplace, List.map_map]
  congr 1
  refine List.filter_congr fun b _ => ?_
  rw [Option.any_some, Bool.beq_comm]

theorem fetchData_rows {data : ProfileData} (h : profileData db user = some data) :
    ((fetchData (.profile data)).1 : Multiset BookingRow) = sportRows db.facilityOf user._id db.bookings := by
  obtain ⟨s1, s2, s3, s4, h1, h2, h3, h4, rfl⟩ := profileData_eq_some h
  have h1 := sportStarts_rows (s := .badminton) h1
  have h2 := sportStarts_rows (s := .tennis) h2
  have h3 := sportStarts_rows (s := .tableTennis) h3
  have h4 := sportStarts_rows (s := .football) h4
  simp only [sportRows, Screen.all, List.map_cons, List.map_nil, List.sum_cons, List.sum_nil, add_zero, ← h1, ← h2,
    ← h3, ← h4]
  simp only [fetchData, sportTable, Reply.profile, List.map_reverse, ← Multiset.coe_add, Multiset.coe_reverse,
    Screen.sport, add_assoc]

theorem profileData_of_equipped (user : User) (h : db.Equipped) : ∃ data, profileData db user = some data := by
  have hstarts : ∀ s : Screen, ∃ l, sportStarts db user s.number = some l := by
    intro s
    obtain ⟨f, hf⟩ := h.facilityOf s
    exact ⟨_, Option.map_eq_some_iff.mpr ⟨f, hf, rfl⟩⟩
  obtain ⟨s1, h1⟩ := hstarts .badminton
  obtain ⟨s2, h2⟩ := hstarts .tennis
  obtain ⟨s3, h3⟩ := hstarts .tableTennis
  obtain ⟨s4, h4⟩ := hstarts .football
  refine ⟨⟨s1.reverse, s2.reverse, s3.reverse, s4.reverse⟩, ?_⟩
  unfold profileData
  rw [show sportStarts db user 1 = some s1 from h1, show sportStarts db user 2 = some s2 from h2,
    show sportStarts db user 3 = some s3 from h3, show sportStarts db user 4 = some s4 from h4]
  rfl

end Profile

/-! ### The handlers -/

structure ScreenRequest where
  screen : Screen
  startDateTime : String
  email : String

namespace ScreenRequest
variable (r : ScreenRequest)

def body : Json := bookCourt r.screen.facilityId r.startDateTime r.email

@[simp] theorem body_facilityId : r.body.prop "facilityId" = some (.str r.screen.facilityId) := rfl
@[simp] theorem body_startDateTime : r.body.prop "startDateTime" = some (.str r.startDateTime) := rfl
@[simp] theorem body_email : r.body.prop "email" = some (.str r.email) := rfl

end ScreenRequest

def answeredWithCourt (th : Thread Http Unit) : Bool := th.sent.any fun reply => reply.courtNumber.isSome

/-- The screen's sport and the requested instant, for a request of this email that was answered with a court -/
def ScreenRequest.row (rt : Runtime) (email : String) (r : ScreenRequest) (th : Thread Http Unit) :
    Option BookingRow :=
  if r.email = email ∧ answeredWithCourt th = true then
    (rt.parse r.startDateTime).map (SportRow.mk r.screen.sport)
  else none

/-- The answers of a database with these users and facilities. -/
structure AnsweredFrom (m : Mongoose) (db : Db) (c : Call Http) : Prop where
  user : ∀ email user, c = ⟨.userFindOne email, .ok user⟩ →
    ∃ p, m.matchEmail email = .ok p ∧ user = db.users.docs.find? (p ·.email)
  facility : ∀ facilityId facility, c = ⟨.facilityFindOne facilityId, .ok facility⟩ →
    ∃ p, m.matchFacilityId facilityId = .ok p ∧ facility = db.facilities.docs.find? (p ·.facilityId)
  save : ∀ doc, c = ⟨.bookingSave doc, .ok ()⟩ → ∃ b, doc.booking = some b

section Handlers
variable {m : Mongoose} {rt : Runtime} {db db' : Db}

theorem answeredFrom_attempt (hu : db'.users = db.users) (hf : db'.facilities = db.facilities) (fault : Option JsError)
    (op : Op) : AnsweredFrom m db ⟨op, (Proc.attempt (Db.exec m) fault db' op).2⟩ := by
  refine ⟨fun email user h => ?_, fun facilityId facility h => ?_, fun doc h => ?_⟩ <;>
    obtain ⟨rfl, hans⟩ := Call.mk.inj h <;> replace hans := eq_of_heq hans <;> rcases fault with _ | e
  · cases hp : m.matchEmail email with
    | error e =>
      rw [Proc.attempt_none, exec_userFindOne_error hp] at hans
      cases hans
    | ok p =>
      rw [Proc.attempt_none, exec_userFindOne hp, Except.ok.injEq, hu] at hans
      exact ⟨p, rfl, hans.symm⟩
  · cases hans
  · cases hp : m.matchFacilityId facilityId with
    | error e =>
      rw [Proc.attempt_none, exec_facilityFindOne_error hp] at hans
      cases hans
    | ok p =>
      rw [Proc.attempt_none, exec_facilityFindOne hp, Except.ok.injEq, hf] at hans
      exact ⟨p, rfl, hans.symm⟩
  · cases hans
  · cases hs : db'.saveBooking doc with
    | error e =>
      rw [Proc.attempt_none, Db.exec, hs] at hans
      cases hans
    | ok db'' =>
      obtain ⟨b, hb, -⟩ := saveBooking_eq_ok hs
      exact ⟨b, hb⟩
  · cases hans

theorem AnsweredFrom.caller {r : ScreenRequest} {user : User}
    (h : AnsweredFrom m db (identified r.body (some user))) :
    db.users.docs.find? (·.email == r.email) = some user := by
  obtain ⟨p, hp, hf⟩ := h.user _ _ rfl
  rw [r.body_email, m.matchEmail_str, Except.ok.injEq] at hp
  subst hp
  exact hf.symm

theorem AnsweredFrom.place {r : ScreenRequest} {facility : Facility}
    (h : AnsweredFrom m db (located r.body (some facility))) : db.facilityOf r.screen = some facility := by
  obtain ⟨p, hp, hf⟩ := h.facility _ _ rfl
  rw [r.body_facilityId, Screen.matchFacilityId_facilityId, Except.ok.injEq] at hp
  subst hp
  exact hf.symm

/-- Users that are found by their emails are one user exactly when the emails are one. -/
theorem found_id_eq_iff {email email' : String} {user user' : User}
    (hu : db.users.docs.find? (·.email == email) = some user)
    (hu' : db.users.docs.find? (·.email == email') = some user') : user'._id = user._id ↔ email' = email := by
  have hname : user.email = email := by simpa using List.find?_some hu
  have hname' : user'.email = email' := by simpa using List.find?_some hu'
  constructor
  · intro hid
    have := Collection.eq_of_id (List.mem_of_find?_eq_some hu') (List.mem_of_find?_eq_some hu) hid
    rw [← hname, ← hname', this]
  · rintro rfl
    rw [hu', Option.some.injEq] at hu
    rw [hu]

/-- At its end a handler has stored what it has answered with a court. -/
theorem calls_rows {r : ScreenRequest} {email : String} {th : Thread Http Unit} {user : User}
    (hp : BookingProgress rt r.body th.calls th.sent th.proc.stage) (hend : ∀ op, th.proc.stage ≠ .awaits op)
    (hc : ∀ c ∈ th.calls, AnsweredFrom m db c)
    (hu : db.users.docs.find? (·.email == email) = some user) :
    (th.calls.map fun c => sportRows db.facilityOf user._id (storedBooking c).toList).sum =
      ((r.row rt email th).toList : Multiset BookingRow) := by
  obtain ⟨calls, sent, proc⟩ := th
  dsimp only at hp hend hc ⊢
  generalize proc.stage = stage at hp hend
  cases hp with
  | gate => exact absurd rfl (hend _)
  | rejected e =>
    simp [storedBooking, sportRows_nil, ScreenRequest.row, answeredWithCourt, Reply.message, Reply.courtNumber]
  | unknown => simp [sportRows_nil, ScreenRequest.row, answeredWithCourt]
  | thrown user' e => simp [sportRows_nil, ScreenRequest.row, answeredWithCourt]
  | route user' start hd hr =>
  cases hr with
  | listing => exact absurd rfl (hend _)
  | locating mine => exact absurd rfl (hend _)
  | fetching mine facility ref => exact absurd rfl (hend _)
  | checking mine facility ref read => exact absurd rfl (hend _)
  | comparing mine facility ref read => exact absurd rfl (hend _)
  | saving mine facility ref read sport court => exact absurd rfl (hend _)
  | refused calls reply hcalls hreply =>
    have hrow : r.row rt email ⟨identified r.body (some user') :: calls, [reply], proc⟩ = none := by
      simp [ScreenRequest.row, answeredWithCourt, hreply]
    rw [hrow]
    refine List.sum_eq_zero fun x hx => ?_
    obtain ⟨c, hc', rfl⟩ := List.mem_map.mp hx
    rcases List.mem_cons.mp hc' with rfl | hc'
    · exact sportRows_nil
    · rw [hcalls c hc']
      exact sportRows_nil
  | booked mine facility ref read sport court =>
    obtain ⟨b, hb⟩ := (hc (stored user' start facility court) (by simp)).save _ rfl
    obtain ⟨hbu, hbf, rfl⟩ := booking_draft hb
    have hfacility := (hc (located r.body (some facility)) (by simp)).place
    have hiff := found_id_eq_iff hu (hc (identified r.body (some user')) (by simp)).caller
    have hparse : rt.parse r.startDateTime = some b.startDateTime := by
      rw [r.body_startDateTime] at hd
      exact Except.ok.inj hd
    have hinj : ∀ s s' f f', db.facilityOf s = some f → db.facilityOf s' = some f' → f._id = f'._id → s = s' :=
      fun s s' f f' => facilityOf_injective
    have hanswered : ∀ calls, answeredWithCourt ⟨calls, [.booked court], proc⟩ = true := fun _ => rfl
    simp only [List.map_cons, List.map_nil, List.sum_cons, List.sum_nil, storedBooking_identified, storedBooking_listed,
      storedBooking_located, storedBooking_fetched, storedBooking_checked, storedBooking_compared,
      storedBooking_stored, hb, Option.toList_none, Option.toList_some, sportRows_nil, zero_add, add_zero,
      sportRows_singleton hinj hfacility hbf, hbu, hiff, ScreenRequest.row, hanswered, and_true, hparse,
      Option.map_some]
    split <;> rfl

/-- The rows of the answers, one for each request of this email that got a court. -/
def answeredRows (rt : Runtime) (email : String) (requests : List ScreenRequest) (threads : List (Thread Http Unit)) :
    List BookingRow :=
  (requests.zip threads).filterMap fun e => e.1.row rt email e.2

theorem total_eq_rows {gain : Call Http → Multiset BookingRow} {email : String} {requests : List ScreenRequest}
    {threads : List (Thread Http Unit)} (hlen : threads.length = requests.length)
    (h : ∀ e ∈ requests.zip threads, (e.2.calls.map gain).sum = ((e.1.row rt email e.2).toList : Multiset BookingRow)) :
    Pool.total gain threads = (answeredRows rt email requests threads : Multiset BookingRow) := by
  induction requests generalizing threads with
  | nil =>
    rw [List.length_nil, List.length_eq_zero_iff] at hlen
    subst hlen
    rfl
  | cons r requests ih =>
    cases threads with
    | nil => cases hlen
    | cons th threads =>
      have hhead := h (r, th) List.mem_cons_self
      have htail := ih (Nat.succ.inj hlen) fun e he => h e (List.mem_cons_of_mem _ he)
      simp only [Pool.total, answeredRows, List.zip_cons_cons, List.map_cons, List.sum_cons] at hhead htail ⊢
      rw [hhead, htail, List.filterMap_cons]
      cases r.row rt email th <;> rfl

def screenRun (m : Mongoose) (rt : Runtime) (db : Db) (requests : List ScreenRequest) (ts : List (Turn Http)) :
    Pool Http Db Unit :=
  (bookingPool rt db (requests.map ScreenRequest.body)).runs (Db.exec m) ts

theorem screenRun_keeps (m : Mongoose) (rt : Runtime) (db : Db) (requests : List ScreenRequest)
    (ts : List (Turn Http)) :
    Pool.Keeps (fun db' : Db => db'.users = db.users ∧ db'.facilities = db.facilities) (AnsweredFrom m db)
      (fun i th => ∃ r, requests[i]? = some r ∧ BookingProgress rt r.body th.calls th.sent th.proc.stage ∧
        ∀ c ∈ th.calls, AnsweredFrom m db c) (screenRun m rt db requests ts) := by
  refine Pool.Keeps.runs (Pool.Keeps.start ⟨rfl, rfl⟩ fun i t ht => ?_) ts ?_
  · simp only [List.map_map, List.getElem?_map, Option.map_eq_some_iff] at ht
    obtain ⟨r, hr, rfl⟩ := ht
    exact (serveBooking_along.record (by simp)).mono fun th hth => ⟨r, hr, hth.1, hth.2⟩
  · rintro db' i th op next reject fault - ⟨hu, hf⟩ ⟨r, -, hp, -⟩ hproc
    rw [hproc] at hp
    obtain ⟨hu', hf'⟩ := attempt_onBookings hp.onBookings m fault db'
    exact ⟨⟨hu'.trans hu, hf'.trans hf⟩, answeredFrom_attempt hu hf fault op⟩

theorem screenRun_rows {requests : List ScreenRequest} {ts : List (Turn Http)} {email : String} {user : User}
    (hempty : db.bookings = []) (hdone : ∀ th ∈ (screenRun m rt db requests ts).threads, th.finished = true)
    (hu : db.users.docs.find? (·.email == email) = some user) :
    sportRows db.facilityOf user._id (screenRun m rt db requests ts).store.bookings =
      (answeredRows rt email requests (screenRun m rt db requests ts).threads : Multiset BookingRow) := by
  have htotal := Pool.runs_total (fun db' : Db => sportRows db.facilityOf user._id db'.bookings)
    (fun c => sportRows db.facilityOf user._id (storedBooking c).toList)
    (fun fault db' op => by rw [attempt_bookings m fault db' op, sportRows_append]) db
    ((requests.map ScreenRequest.body).map (serveBooking rt)) ts
  rw [hempty, sportRows_nil, zero_add] at htotal
  refine htotal.trans (total_eq_rows ?_ fun e he => ?_)
  · rw [Pool.runs_length]
    simp [Pool.start]
  · obtain ⟨i, hi⟩ := List.mem_iff_getElem?.mp he
    obtain ⟨hr, hth⟩ := List.getElem?_zip_eq_some.mp hi
    have hkeeps := screenRun_keeps m rt db requests ts
    obtain ⟨r, hr', hprogress, hcalls⟩ := hkeeps.here hth
    rw [hr, Option.some.injEq] at hr'
    subst hr'
    have hfinished := hdone e.2 (List.mem_of_getElem? hth)
    exact calls_rows hprogress ((hkeeps.settled i e.2 hth).stage_ne hfinished) hcalls hu

end Handlers

/-- When all handlers have finished, in whatever order their calls were made, the profile screen shows for every user
    one row for each request of the user that was answered with a court, and no other. -/
theorem profile_agrees (m : Mongoose) (rt : Runtime) (db : Db) (hempty : db.bookings = []) (he : db.Equipped)
    (requests : List ScreenRequest) (ts : List (Turn Http))
    (hdone : ∀ th ∈ (screenRun m rt db requests ts).threads, th.finished = true)
    (user : User) (hu : user ∈ db.users.docs) :
    ∃ reply, ((isLoggedIn (profileParameters user.email) postProfile).run (Db.exec m) Proc.noFaults
        (screenRun m rt db requests ts).store).sent = [reply] ∧
      ((fetchData reply).1 : Multiset BookingRow) =
        (answeredRows rt user.email requests (screenRun m rt db requests ts).threads : Multiset BookingRow) := by
  obtain ⟨husers, hfacilities⟩ := (screenRun_keeps m rt db requests ts).store
  obtain ⟨u, hfind⟩ : ∃ u, db.users.docs.find? (·.email == user.email) = some u :=
    Option.isSome_iff_exists.mp (List.find?_isSome.mpr ⟨user, hu, by simp⟩)
  have hrows := screenRun_rows hempty hdone hfind
  generalize screenRun m rt db requests ts = q at *
  have hmatch : m.matchEmail ((profileParameters user.email).prop "email") = .ok fun e => e == user.email :=
    m.matchEmail_str user.email
  have hin : q.store.loggedIn m (profileParameters user.email) = some u := by
    rw [loggedIn_of_ok hmatch, husers, hfind]
  have hplace : q.store.facilityOf = db.facilityOf := by
    funext s
    rw [Db.facilityOf, hfacilities, Db.facilityOf]
  have hequipped : q.store.Equipped := by
    unfold Db.Equipped
    rw [hfacilities]
    exact he
  obtain ⟨data, hdata⟩ := profileData_of_equipped u hequipped
  refine ⟨.profile data, ?_, ?_⟩
  · rw [isLoggedIn_run_user hin, postProfile_run_noFaults hdata]
  · rw [fetchData_rows hdata, hplace, hrows]

theorem club_equipped : club.Equipped := by
  intro s
  cases s <;> simp [club, clubFacilities, Screen.number]

/-- Three requests for the same hour, two of them by `homePlayer` on different screens -/
def clubRequests : List ScreenRequest :=
  [⟨.badminton, "Jan 01 2024 11:00:00", "home@club.test"⟩, ⟨.badminton, "Jan 01 2024 11:00:00", "away@club.test"⟩,
    ⟨.football, "Jan 01 2024 12:00:00", "home@club.test"⟩]

def clubTurns : List (Turn Http) := (List.range 21).map fun n => ⟨n % 3, none⟩

theorem profile_agrees_club :
    ∃ reply, ((isLoggedIn (profileParameters "home@club.test") postProfile).run (Db.exec mongoose6) Proc.noFaults
        (screenRun mongoose6 utc.runtime club clubRequests clubTurns).store).sent = [reply] ∧
      ((fetchData reply).1 : Multiset BookingRow) =
        ([⟨"Badminton", ⟨1704106800000, by decide⟩⟩, ⟨"Football", ⟨1704110400000, by decide⟩⟩] : List BookingRow) := by
  have hdone : ((screenRun mongoose6 utc.runtime club clubRequests clubTurns).threads.all Thread.finished) = true := by
    decide +kernel
  obtain ⟨reply, hsent, hrows⟩ := profile_agrees mongoose6 utc.runtime club rfl club_equipped clubRequests clubTurns
    (List.all_eq_true.mp hdone) homePlayer List.mem_cons_self
  refine ⟨reply, hsent, hrows.trans (congrArg _ ?_)⟩
  decide +kernel

end KhelaKaro
