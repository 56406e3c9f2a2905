import KhelaKaro.Theorems.Courts
import KhelaKaro.Theorems.SameStores

/-! # Independent bookings

Two bookings by different users for different facilities, in either order. A request's checks look at the bookings of
its user, so the other's booking can reach it in one way: through the list that it asks for by `facilityId._id`, which
need not be the list of its facility. -/

namespace KhelaKaro
open Async

/-! ### What an added booking changes -/

/-- What a request gets that has passed the checks, when the allocation comes to `a`. -/
def settle (user : User) (facility : Facility) (start : Date) (a : Option Nat) :
    Except JsError (Reply × Option Booking) :=
  match a with
  | none => .ok (.allOccupied, none)
  | some court => (endOf start).elim (.error .validationError) fun stop =>
      .ok (.booked court, some ⟨user._id, facility._id, court, start, stop⟩)

def replied : Except JsError (Reply × Option Booking) → Reply
  | .ok answer => answer.1
  | .error _ => .serverError

/-- One more booking, of court `c`, beside `bs` leaves a request from `start` on what it gets. -/
structure KeepsCourt (count : Option ℚ) (start : Date) (bs : List Booking) (c : ℚ) : Prop where
  full : Reaches bs.length count ↔ Reaches (bs.length + 1) count
  court : ¬Reaches bs.length count → (endOf start).isSome →
    bookCourtNumber count (c :: bs.map (·.courtNumber)) = bookCourtNumber count (bs.map (·.courtNumber))

section Added
variable {m : Mongoose} {rt : Runtime} {db : Db} {body : Json} {user : User} {facility : Facility} {start : Date}
  {read : List Booking} {b : Booking} {a a' : Option Nat}

theorem booked_injective {c c' : Nat} (h : Reply.booked c = Reply.booked c') : c = c' :=
  Option.some.inj (congrArg Reply.courtNumber h)

theorem booked_ne_allOccupied {c : Nat} : Reply.booked c ≠ Reply.allOccupied := by
  intro h
  cases congrArg Reply.courtNumber h

theorem allOccupied_ne_serverError : Reply.allOccupied ≠ Reply.serverError := by
  intro h
  cases congrArg Reply.success h

/-- The reply tells the allocations apart, unless the booking fails for its end. -/
theorem replied_settle_iff : replied (settle user facility start a) = replied (settle user facility start a') ↔
    (a = none ↔ a' = none) ∧ ((endOf start).isSome → a = a') := by
  have hocc := @allOccupied_ne_serverError
  cases a with
  | none =>
    cases a' with
    | none => simp
    | some c' => cases he : endOf start <;> simp [settle, replied, he, hocc, booked_ne_allOccupied.symm]
  | some c =>
    cases a' with
    | none => cases he : endOf start <;> simp [settle, replied, he, hocc.symm, booked_ne_allOccupied]
    | some c' =>
      cases he : endOf start with
      | none => simp [settle, replied, he]
      | some stop =>
        simp only [settle, he, Option.elim_some, replied, reduceCtorEq, Option.isSome_some, true_and, forall_const,
          Option.some.injEq]
        exact ⟨booked_injective, congrArg Reply.booked⟩

theorem settle_eq_of_replied (h : replied (settle user facility start a) = replied (settle user facility start a')) :
    settle user facility start a = settle user facility start a' := by
  obtain ⟨hnone, hsome⟩ := replied_settle_iff.mp h
  cases he : endOf start with
  | some stop => rw [hsome (by rw [he]; rfl)]
  | none =>
    cases a with
    | none => rw [hnone.mp rfl]
    | some c =>
      cases a' with
      | none => cases hnone.mpr rfl
      | some c' => simp only [settle, he, Option.elim_none]

open Classical in
theorem judge_eq_settle (h : Asks m rt db body user facility start read) :
    judge m db (body.prop "facilityId") user (some start) =
      if SameStart db user start then .ok (.alreadyBooked, none)
      else if SameDay db user facility start then .ok (.bookedWithin24Hours, none)
      else settle user facility start
        (allocate (.val start.time) (.val start.time + .val slotLength) facility.count read) := by
  rw [judge_of_asks h]
  rfl

theorem exists_add_iff {P : Booking → Prop} (hb : ¬P b) :
    (∃ x ∈ (db.add (some b)).bookings, P x) ↔ ∃ x ∈ db.bookings, P x := by
  simp only [Db.add, Option.toList_some, List.mem_append, List.mem_singleton]
  constructor
  · rintro ⟨x, hx | rfl, hP⟩
    · exact ⟨x, hx, hP⟩
    · exact absurd hP hb
  · rintro ⟨x, hx, hP⟩
    exact ⟨x, Or.inl hx, hP⟩

theorem sameStart_add (hb : b.user ≠ user._id) : SameStart (db.add (some b)) user start ↔ SameStart db user start :=
  exists_add_iff fun h => hb h.2

theorem sameDay_add (hb : b.user ≠ user._id) :
    SameDay (db.add (some b)) user facility start ↔ SameDay db user facility start :=
  exists_add_iff fun h => hb h.2.1

theorem Asks.add_of_asks (h : Asks m rt db body user facility start read) (hb : AsksBookingsOf m body b.facility) :
    Asks m rt (db.add (some b)) body user facility start (read ++ [b]) := by
  obtain ⟨hcaller, hinstant, hplace, ref, q, href, hq, rfl⟩ := h
  obtain ⟨ref', q', href', hq', hmatch⟩ := hb
  obtain rfl := Except.ok.inj (href.symm.trans href')
  obtain rfl := Except.ok.inj (hq.symm.trans hq')
  refine ⟨hcaller, hinstant, hplace, ref, q, href, hq, ?_⟩
  simp [Db.add, hmatch]

theorem Asks.add_of_not_asks (h : Asks m rt db body user facility start read) (hb : ¬AsksBookingsOf m body b.facility) :
    Asks m rt (db.add (some b)) body user facility start read := by
  obtain ⟨hcaller, hinstant, hplace, ref, q, href, hq, rfl⟩ := h
  refine ⟨hcaller, hinstant, hplace, ref, q, href, hq, ?_⟩
  have hmatch : q b.facility = false := by
    rw [← Bool.not_eq_true]
    exact fun hmatch => hb ⟨ref, q, href, hq, hmatch⟩
  simp [Db.add, hmatch]

theorem allocate_add_iff {s e : Number} {count : Option ℚ} (hb : b.overlaps s e = true) :
    (allocate s e count (read ++ [b]) = none ↔ allocate s e count read = none) ∧
      ((endOf start).isSome → allocate s e count (read ++ [b]) = allocate s e count read) ↔
    KeepsCourt count start (meeting s e read) b.courtNumber := by
  have hmeet : meeting s e (read ++ [b]) = meeting s e read ++ [b] := by
    rw [meeting, List.filter_append, ← meeting, List.filter_cons_of_pos hb, List.filter_nil]
  have hcourts : bookCourtNumber count ((meeting s e (read ++ [b])).map (·.courtNumber)) =
      bookCourtNumber count (b.courtNumber :: (meeting s e read).map (·.courtNumber)) :=
    bookCourtNumber_congr fun q => by simp [hmeet, or_comm]
  have hfull : allocate s e count (read ++ [b]) = none ↔ Reaches ((meeting s e read).length + 1) count := by
    rw [allocate_eq_none_iff, hmeet, List.length_append, List.length_singleton]
  rw [hfull, allocate_eq_none_iff]
  have hboth : ∀ h : Reaches (meeting s e read).length count ↔ Reaches ((meeting s e read).length + 1) count,
      ¬Reaches (meeting s e read).length count → (allocate s e count (read ++ [b]) = allocate s e count read ↔
        bookCourtNumber count (b.courtNumber :: (meeting s e read).map (·.courtNumber)) =
          bookCourtNumber count ((meeting s e read).map (·.courtNumber))) := by
    intro h hnot
    rw [allocate_eq_some hnot, allocate_eq_some (by rw [← allocate_eq_none_iff, hfull, ← h]; exact hnot), hcourts,
      Option.some.injEq]
  constructor
  · rintro ⟨hiff, hsome⟩
    exact ⟨hiff.symm, fun hnot hend => (hboth hiff.symm hnot).mp (hsome hend)⟩
  · rintro ⟨hiff, hcourt⟩
    refine ⟨hiff.symm, fun hend => ?_⟩
    by_cases hnot : Reaches (meeting s e read).length count
    · rw [hfull.mpr (hiff.mp hnot), allocate_eq_none_iff.mpr hnot]
    · exact (hboth hiff hnot).mpr (hcourt hnot hend)

theorem judge_add_of_not_asks (hb : b.user ≠ user._id) {d : Option Date}
    (hu : db.loggedIn m body = some user) (hd : newDate rt (body.prop "startDateTime") = .ok d)
    (h : ∀ facility start read, ¬Asks m rt db body user facility start read) :
    judge m (db.add (some b)) (body.prop "facilityId") user d = judge m db (body.prop "facilityId") user d := by
  unfold judge
  cases hp : m.matchFacilityId (body.prop "facilityId") with
  | error e => rfl
  | ok p =>
  cases href : Json.get (body.prop "facilityId") "_id" with
  | error e => rfl
  | ok ref =>
  simp only [ok_bind]
  cases hq : m.matchRef (.value ref) with
  | error e => rfl
  | ok q =>
  cases d with
  | none => rfl
  | some start =>
  have hstart : ((db.add (some b)).bookings.any fun b => b.startDateTime == start && b.user == user._id) =
      db.bookings.any fun b => b.startDateTime == start && b.user == user._id := by
    rw [Bool.eq_iff_iff, any_sameStart, any_sameStart, sameStart_add hb]
  simp only [ok_bind, Option.elim_some, hstart]
  cases hf : db.facilities.docs.find? (p ·.facilityId) with
  | none => simp only [Db.add, hf, Option.elim_none, error_bind]
  | some facility => exact absurd ⟨hu, hd, ⟨p, hp, hf⟩, ref, q, href, hq, rfl⟩ (h facility start _)

/-- The request comes past its checks, reads a list to which `b` belongs, and asks for a slot that `b` meets. -/
structure Meets (m : Mongoose) (rt : Runtime) (db : Db) (body : Json) (user : User) (facility : Facility)
    (start : Date) (read : List Booking) (b : Booking) : Prop extends
    Asks m rt db body user facility start read where
  freshStart : ¬SameStart db user start
  otherDay : ¬SameDay db user facility start
  listed : AsksBookingsOf m body b.facility
  overlaps : b.overlaps (.val start.time) (.val start.time + .val slotLength) = true

theorem Meets.judge (h : Meets m rt db body user facility start read b) :
    judge m db (body.prop "facilityId") user (some start) = settle user facility start
      (allocate (.val start.time) (.val start.time + .val slotLength) facility.count read) := by
  rw [judge_eq_settle h.toAsks, if_neg h.freshStart, if_neg h.otherDay]

theorem Meets.judge_add (h : Meets m rt db body user facility start read b) (hb : b.user ≠ user._id) :
    KhelaKaro.judge m (db.add (some b)) (body.prop "facilityId") user (some start) = settle user facility start
      (allocate (.val start.time) (.val start.time + .val slotLength) facility.count (read ++ [b])) := by
  rw [judge_eq_settle (h.toAsks.add_of_asks h.listed), if_neg (mt (sameStart_add hb).mp h.freshStart),
    if_neg (mt (sameDay_add hb).mp h.otherDay)]

theorem Meets.replied_iff (h : Meets m rt db body user facility start read b) (hb : b.user ≠ user._id) :
    replied (KhelaKaro.judge m (db.add (some b)) (body.prop "facilityId") user (some start)) =
        replied (KhelaKaro.judge m db (body.prop "facilityId") user (some start)) ↔
      KeepsCourt facility.count start (meeting (.val start.time) (.val start.time + .val slotLength) read)
        b.courtNumber := by
  rw [h.judge, h.judge_add hb, replied_settle_iff, allocate_add_iff h.overlaps]

/-- A booking of another user changes nothing for the request, unless it is one that the request meets. -/
theorem judge_add_cases (hb : b.user ≠ user._id) {d : Option Date} (hu : db.loggedIn m body = some user)
    (hd : newDate rt (body.prop "startDateTime") = .ok d) :
    judge m (db.add (some b)) (body.prop "facilityId") user d = judge m db (body.prop "facilityId") user d ∨
      ∃ facility start read, d = some start ∧ Meets m rt db body user facility start read b := by
  classical
  by_cases hasks : ∃ facility start read, Asks m rt db body user facility start read
  · obtain ⟨facility, start, read, ha⟩ := hasks
    obtain rfl := Except.ok.inj (hd.symm.trans ha.instant)
    by_cases hat : AsksBookingsOf m body b.facility
    · have hadd := judge_eq_settle (ha.add_of_asks hat)
      simp only [sameStart_add hb, sameDay_add hb] at hadd
      rw [judge_eq_settle ha, hadd]
      by_cases hs : SameStart db user start
      · exact Or.inl (by rw [if_pos hs, if_pos hs])
      by_cases hday : SameDay db user facility start
      · exact Or.inl (by rw [if_neg hs, if_neg hs, if_pos hday, if_pos hday])
      by_cases hover : b.overlaps (.val start.time) (.val start.time + .val slotLength) = true
      · exact Or.inr ⟨facility, start, read, rfl, ha, hs, hday, hat, hover⟩
      · have hmeet : meeting (.val start.time) (.val start.time + .val slotLength) (read ++ [b]) =
            meeting (.val start.time) (.val start.time + .val slotLength) read := by
          rw [meeting, List.filter_append, List.filter_cons_of_neg hover, List.filter_nil, List.append_nil, meeting]
        exact Or.inl (by rw [allocate_congr (List.Perm.of_eq hmeet)])
    · have hadd := judge_eq_settle (ha.add_of_not_asks hat)
      simp only [sameStart_add hb, sameDay_add hb] at hadd
      exact Or.inl (by rw [judge_eq_settle ha, hadd])
  · simp only [not_exists] at hasks
    exact Or.inl (judge_add_of_not_asks hb hu hd hasks)

theorem judge_add_eq (hb : b.user ≠ user._id) {d : Option Date} (hu : db.loggedIn m body = some user)
    (hd : newDate rt (body.prop "startDateTime") = .ok d)
    (h : replied (judge m (db.add (some b)) (body.prop "facilityId") user d) =
      replied (judge m db (body.prop "facilityId") user d)) :
    judge m (db.add (some b)) (body.prop "facilityId") user d = judge m db (body.prop "facilityId") user d := by
  rcases judge_add_cases hb hu hd with heq | ⟨facility, start, read, rfl, hmeets⟩
  · exact heq
  · rw [hmeets.judge, hmeets.judge_add hb] at h ⊢
    exact settle_eq_of_replied h

end Added

/-! ### Two requests -/

/-- `req.body.facilityId` as the route looks it up -/
def Db.requested (m : Mongoose) (db : Db) (body : Json) : Option Facility :=
  (m.matchFacilityId (body.prop "facilityId")).toOption.bind fun p => db.facilities.docs.find? (p ·.facilityId)

/-- The requests are by different users and for different facilities. -/
structure Independent (m : Mongoose) (db : Db) (x y : Json) : Prop where
  users : ∀ u u', db.loggedIn m x = some u → db.loggedIn m y = some u' → u ≠ u'
  facilities : ∀ f f', db.requested m x = some f → db.requested m y = some f' → f ≠ f'

/-- When `x` comes past its checks, and `y` gets a court within 3,600 milliseconds of its start at a facility whose
    bookings `x` reads by `facilityId._id`, that court leaves `x` what it gets. -/
def Undisturbed (m : Mongoose) (rt : Runtime) (db : Db) (x y : Json) : Prop :=
  ∀ user facility start read, Asks m rt db x user facility start read → ¬SameStart db user start →
    ¬SameDay db user facility start → ∀ user' facility' start' read' court stop,
    Granted m rt db y user' facility' start' read' court stop → AsksBookingsOf m x facility'._id →
    |start'.time - start.time| < slotLength →
    KeepsCourt facility.count start (meeting (.val start.time) (.val start.time + .val slotLength) read) court

section Pair
variable {m : Mongoose} {rt : Runtime} {db : Db} {x y : Json} {user : User} {b : Booking}

theorem undisturbed_iff : Undisturbed m rt db x y ↔ ∀ b, entry m rt db y = some b →
    ∀ user facility start read, Meets m rt db x user facility start read b →
      KeepsCourt facility.count start (meeting (.val start.time) (.val start.time + .val slotLength) read)
        b.courtNumber := by
  rw [forall_entry_iff]
  constructor
  · intro h user' facility' start' read' court stop hg user facility start read hm
    have hnear := (overlaps_slot_iff (b := ⟨user'._id, facility'._id, court, start', stop⟩) hg.ends).mp hm.overlaps
    exact h _ _ _ _ hm.toAsks hm.freshStart hm.otherDay _ _ _ _ _ _ hg hm.listed hnear
  · intro h user facility start read ha hs hday user' facility' start' read' court stop hg hlisted hnear
    have hover := (overlaps_slot_iff (b := ⟨user'._id, facility'._id, court, start', stop⟩) hg.ends).mpr hnear
    exact h _ _ _ _ _ _ hg _ _ _ _ ⟨ha, hs, hday, hlisted, hover⟩

theorem serveBooking_sent {d : Option Date} (hu : db.loggedIn m x = some user)
    (hd : newDate rt (x.prop "startDateTime") = .ok d) :
    ((serveBooking rt x).run (Db.exec m) Proc.noFaults db).sent =
      [replied (judge m db (x.prop "facilityId") user d)] := by
  rw [serveBooking_run hu hd]
  cases judge m db (x.prop "facilityId") user d <;> rfl

theorem serveBooking_sent_add (hdates : ∀ user d, db.loggedIn m x = some user →
      newDate rt (x.prop "startDateTime") ≠ .ok d) :
    ((serveBooking rt x).run (Db.exec m) Proc.noFaults (db.add (some b))).sent =
      ((serveBooking rt x).run (Db.exec m) Proc.noFaults db).sent := by
  have huser : (db.add (some b)).loggedIn m x = db.loggedIn m x := rfl
  unfold serveBooking
  rw [isLoggedIn_run, isLoggedIn_run, huser]
  cases m.matchEmail (x.prop "email") with
  | error e => rfl
  | ok p =>
    cases hu : db.loggedIn m x with
    | none => rfl
    | some user =>
      cases hd : newDate rt (x.prop "startDateTime") with
      | error e => simp only [postBooking_throws hd, Proc.run_throw]
      | ok d => exact absurd hd (hdates user d hu)

theorem entry_of_user {d : Option Date} (hu : db.loggedIn m x = some user)
    (hd : newDate rt (x.prop "startDateTime") = .ok d) :
    entry m rt db x = (judge m db (x.prop "facilityId") user d).toOption.bind Prod.snd := by
  simp only [entry, hu, hd, Option.bind_some, Except.toOption]

/-- What another user's booking does to the reply. -/
theorem sent_add_iff (hother : ∀ u, db.loggedIn m x = some u → b.user ≠ u._id) :
    ((serveBooking rt x).run (Db.exec m) Proc.noFaults (db.add (some b))).sent =
        ((serveBooking rt x).run (Db.exec m) Proc.noFaults db).sent ↔
      ∀ user facility start read, Meets m rt db x user facility start read b →
        KeepsCourt facility.count start (meeting (.val start.time) (.val start.time + .val slotLength) read)
          b.courtNumber := by
  by_cases h : ∃ user d, db.loggedIn m x = some user ∧ newDate rt (x.prop "startDateTime") = .ok d
  · obtain ⟨user, d, hu, hd⟩ := h
    have hb := hother user hu
    have huser : (db.add (some b)).loggedIn m x = some user := hu
    rw [serveBooking_sent huser hd, serveBooking_sent hu hd, List.cons.injEq, eq_self, and_true]
    constructor
    · intro h user' facility start read hm
      obtain rfl := Option.some.inj (hu.symm.trans hm.caller)
      obtain rfl := Except.ok.inj (hd.symm.trans hm.instant)
      exact (hm.replied_iff hb).mp h
    · intro h
      rcases judge_add_cases hb hu hd with heq | ⟨facility, start, read, rfl, hm⟩
      · rw [heq]
      · exact (hm.replied_iff hb).mpr (h _ _ _ _ hm)
  · simp only [not_exists, not_and] at h
    refine ⟨fun _ user facility start read hm => absurd hm.instant (h user _ hm.caller), fun _ => ?_⟩
    exact serveBooking_sent_add h

/-- A reply that stays the same is for the same booking. -/
theorem entry_add_eq (hother : ∀ u, db.loggedIn m x = some u → b.user ≠ u._id)
    (h : ((serveBooking rt x).run (Db.exec m) Proc.noFaults (db.add (some b))).sent =
      ((serveBooking rt x).run (Db.exec m) Proc.noFaults db).sent) :
    entry m rt (db.add (some b)) x = entry m rt db x := by
  cases hu : db.loggedIn m x with
  | none =>
    have huser : (db.add (some b)).loggedIn m x = none := hu
    simp only [entry, hu, huser, Option.bind_none]
  | some user =>
  cases hd : newDate rt (x.prop "startDateTime") with
  | error e => simp only [entry, hd, Except.toOption, Option.bind_none, Option.bind_fun_none]
  | ok d =>
    have huser : (db.add (some b)).loggedIn m x = some user := hu
    rw [serveBooking_sent huser hd, serveBooking_sent hu hd, List.cons.injEq, eq_self, and_true] at h
    rw [entry_of_user huser hd, entry_of_user hu hd, judge_add_eq (hother user hu) hu hd h]

theorem loggedIn_mem (h : db.loggedIn m x = some user) : user ∈ db.users.docs := by
  obtain ⟨p, -, hf⟩ := Option.bind_eq_some_iff.mp h
  exact List.mem_of_find?_eq_some hf

theorem entry_loggedIn (h : entry m rt db x = some b) : ∃ u, db.loggedIn m x = some u ∧ b.user = u._id := by
  obtain ⟨user, facility, start, read, court, stop, hg, rfl⟩ := entry_eq_some_iff.mp h
  exact ⟨user, hg.caller, rfl⟩

theorem Independent.symm (h : Independent m db x y) : Independent m db y x where
  users u u' hu hu' := (h.users u' u hu' hu).symm
  facilities f f' hf hf' := (h.facilities f' f hf' hf).symm

theorem Independent.user_ne (h : Independent m db x y) (hb : entry m rt db y = some b) {u : User}
    (hu : db.loggedIn m x = some u) : b.user ≠ u._id := by
  obtain ⟨u', hu', heq⟩ := entry_loggedIn hb
  rw [heq]
  exact fun hid => h.users u u' hu hu' (db.users.eq_of_id (loggedIn_mem hu') (loggedIn_mem hu) hid).symm

/-- The reply to one request stands after the other exactly when it is undisturbed. -/
theorem sent_after_iff (h : Independent m db x y) :
    ((serveBooking rt x).run (Db.exec m) Proc.noFaults (db.add (entry m rt db y))).sent =
        ((serveBooking rt x).run (Db.exec m) Proc.noFaults db).sent ↔ Undisturbed m rt db x y := by
  rw [undisturbed_iff]
  cases hb : entry m rt db y with
  | none => simp
  | some b =>
    rw [sent_add_iff fun u hu => h.user_ne hb hu]
    constructor
    · intro hall b' hb'
      obtain rfl := Option.some.inj hb'
      exact hall
    · intro hall
      exact hall b rfl

theorem entry_after_eq (h : Independent m db x y) (hx : Undisturbed m rt db x y) :
    entry m rt (db.add (entry m rt db y)) x = entry m rt db x := by
  have hsent := (sent_after_iff h).mpr hx
  cases hb : entry m rt db y with
  | none => rw [Db.add_none]
  | some b =>
    rw [hb] at hsent
    exact entry_add_eq (fun u hu => h.user_ne hb hu) hsent

/-- Bookings of two users are told apart in no order. -/
theorem add_add_same {a b : Option Booking} (h : ∀ x ∈ a, ∀ y ∈ b, x.user ≠ y.user) :
    ((db.add a).add b).Same ((db.add b).add a) := by
  refine ⟨rfl, rfl, ?_, fun u => ?_⟩
  · simp only [Db.add, List.append_assoc]
    exact List.perm_append_comm.append_left _
  · simp only [Db.add, List.append_assoc, List.filter_append]
    congr 1
    cases a with
    | none => simp
    | some a =>
      cases b with
      | none => simp
      | some b =>
        have hne : a.user ≠ b.user := h a rfl b rfl
        by_cases ha : a.user = u
        · have hb : b.user ≠ u := fun hb => hne (ha.trans hb.symm)
          simp [ha, hb]
        · simp [ha]

end Pair

/-- In a sequence of requests, the bookings `x` and `y` next to each other can change places: every request keeps its
    replies, and the same bookings are stored. -/
def SwapKeeps (m : Mongoose) (rt : Runtime) (db : Db) (pre : List Request) (x y : Json) (rest : List Request) : Prop :=
  ∃ r r' rs,
    responses m rt db (pre ++ .route .booking x :: .route .booking y :: rest) = responses m rt db pre ++ r :: r' :: rs ∧
      responses m rt db (pre ++ .route .booking y :: .route .booking x :: rest) =
        responses m rt db pre ++ r' :: r :: rs ∧
      (after m rt db (pre ++ .route .booking x :: .route .booking y :: rest)).bookings.Perm
        (after m rt db (pre ++ .route .booking y :: .route .booking x :: rest)).bookings

section Swap
variable {m : Mongoose} {rt : Runtime} {db : Db} {x y : Json}

theorem responses_two (rest : List Request) :
    responses m rt db (.route .booking x :: .route .booking y :: rest) =
      ((serveBooking rt x).run (Db.exec m) Proc.noFaults db).sent ::
        ((serveBooking rt y).run (Db.exec m) Proc.noFaults (db.add (entry m rt db x))).sent ::
        responses m rt ((db.add (entry m rt db x)).add (entry m rt (db.add (entry m rt db x)) y)) rest := by
  rw [← serveBooking_store, ← serveBooking_store]
  rfl

theorem after_two (rest : List Request) : after m rt db (.route .booking x :: .route .booking y :: rest) =
    after m rt ((db.add (entry m rt db x)).add (entry m rt (db.add (entry m rt db x)) y)) rest := by
  rw [← serveBooking_store, ← serveBooking_store]
  rfl

end Swap

/-- Independent bookings commute exactly when neither disturbs the other. -/
theorem swapKeeps_iff (m : Mongoose) (rt : Runtime) (db : Db) (pre : List Request) (x y : Json)
    (h : Independent m (after m rt db pre) x y) :
    (∀ rest, SwapKeeps m rt db pre x y rest) ↔
      Undisturbed m rt (after m rt db pre) x y ∧ Undisturbed m rt (after m rt db pre) y x := by
  generalize ht : after m rt db pre = t at h
  constructor
  · intro hkeeps
    obtain ⟨r, r', rs, hxy, hyx, -⟩ := hkeeps []
    rw [responses_append, ht, List.append_cancel_left_eq, responses_two, List.cons.injEq, List.cons.injEq] at hxy hyx
    obtain ⟨hx, hy', -⟩ := hxy
    obtain ⟨hy, hx', -⟩ := hyx
    exact ⟨(sent_after_iff h).mp (hx'.trans hx.symm), (sent_after_iff h.symm).mp (hy'.trans hy.symm)⟩
  · rintro ⟨hx, hy⟩ rest
    have hsame : ((t.add (entry m rt t x)).add (entry m rt t y)).Same
        ((t.add (entry m rt t y)).add (entry m rt t x)) := by
      refine add_add_same fun a ha b hb => ?_
      obtain ⟨u, hu, hau⟩ := entry_loggedIn ha
      rw [hau]
      exact (h.user_ne hb hu).symm
    have hresponses : responses m rt ((t.add (entry m rt t x)).add (entry m rt t y)) rest =
        responses m rt ((t.add (entry m rt t y)).add (entry m rt t x)) rest := (hsame.serveAll rest).1
    refine ⟨((serveBooking rt x).run (Db.exec m) Proc.noFaults t).sent,
      ((serveBooking rt y).run (Db.exec m) Proc.noFaults t).sent,
      responses m rt ((t.add (entry m rt t x)).add (entry m rt t y)) rest, ?_, ?_, ?_⟩
    · rw [responses_append, ht, responses_two, entry_after_eq h.symm hy, (sent_after_iff h.symm).mpr hy]
    · rw [responses_append, ht, responses_two, entry_after_eq h hx, (sent_after_iff h).mpr hx, hresponses]
    · rw [after_append, after_append, ht, after_two, after_two, entry_after_eq h.symm hy, entry_after_eq h hx]
      exact (hsame.serveAll rest).2.perm

/-- A `facilityId` without a property `_id` asks for no list, so nothing disturbs the request. -/
theorem undisturbed_of_plain {m : Mongoose} {rt : Runtime} {db : Db} {x : Json} (y : Json)
    (hid : ∀ v, x.prop "facilityId" = some v → v.prop "_id" = none) : Undisturbed m rt db x y := by
  rintro user facility start read ha - - user' facility' start' read' court stop - ⟨ref, q, href, hq, hmatch⟩ -
  obtain rfl := ref_eq_none href hid
  cases hq
  cases hmatch

theorem Independent.of_eq {m : Mongoose} {db : Db} {x y : Json} {u u' : User} {f f' : Facility}
    (hx : db.loggedIn m x = some u) (hy : db.loggedIn m y = some u') (hfx : db.requested m x = some f)
    (hfy : db.requested m y = some f') (hu : u ≠ u') (hf : f ≠ f') : Independent m db x y where
  users v v' hv hv' := by
    rw [hx, Option.some.injEq] at hv
    rw [hy, Option.some.injEq] at hv'
    rw [← hv, ← hv']
    exact hu
  facilities g g' hg hg' := by
    rw [hfx, Option.some.injEq] at hg
    rw [hfy, Option.some.injEq] at hg'
    rw [← hg, ← hg']
    exact hf

def awayTennis : Json := bookCourt "2" "Jan 01 2024 11:00:00" "away@club.test"

theorem swapKeeps_iff_club : (∀ rest, SwapKeeps mongoose6 utc.runtime club [] homeRequest awayTennis rest) ↔
    Undisturbed mongoose6 utc.runtime club homeRequest awayTennis ∧
      Undisturbed mongoose6 utc.runtime club awayTennis homeRequest := by
  have hbadminton : club.requested mongoose6 homeRequest = some ⟨⟨1⟩, some 1, some "Badminton", some 2⟩ := by
    decide +kernel
  have htennis : club.requested mongoose6 awayTennis = some ⟨⟨2⟩, some 2, some "Tennis", some 2⟩ := by decide +kernel
  have hhome : club.loggedIn mongoose6 homeRequest = some homePlayer := rfl
  have haway : club.loggedIn mongoose6 awayTennis = some awayPlayer := rfl
  exact swapKeeps_iff mongoose6 utc.runtime club [] homeRequest awayTennis
    (.of_eq hhome haway hbadminton htennis (by decide) (by decide))

/-- A club whose tennis has the number of the badminton's identity -/
def crossedClub : Db :=
  { club with
    facilities := ⟨[⟨⟨2⟩, some 1, some "Badminton", some 1⟩, ⟨⟨5⟩, some 2, some "Tennis", some 1⟩], by decide⟩ }

/-- The cast of the object is 2, and that of its `_id` the identity 2. -/
def crossedRequest : Json :=
  .obj [("facilityId", .obj [("_id", .str "000000000000000000000002")]),
    ("startDateTime", .str "Jan 01 2024 11:00:00"), ("email", .str "home@club.test")]

theorem not_swapKeeps_crossedClub : Independent mongoose6 crossedClub crossedRequest awayRequest ∧
    ¬SwapKeeps mongoose6 utc.runtime crossedClub [] crossedRequest awayRequest [] := by
  have htennis : crossedClub.requested mongoose6 crossedRequest = some ⟨⟨5⟩, some 2, some "Tennis", some 1⟩ := by
    decide +kernel
  have hbadminton : crossedClub.requested mongoose6 awayRequest = some ⟨⟨2⟩, some 1, some "Badminton", some 1⟩ := by
    decide +kernel
  have hhome : crossedClub.loggedIn mongoose6 crossedRequest = some homePlayer := rfl
  have haway : crossedClub.loggedIn mongoose6 awayRequest = some awayPlayer := rfl
  refine ⟨.of_eq hhome haway htennis hbadminton (by decide) (by decide), ?_⟩
  rintro ⟨r, r', rs, hxy, hyx, -⟩
  have hfirst : responses mongoose6 utc.runtime crossedClub
      [.route .booking crossedRequest, .route .booking awayRequest] = [[.booked 1], [.booked 1]] := by decide +kernel
  have hsecond : responses mongoose6 utc.runtime crossedClub
      [.route .booking awayRequest, .route .booking crossedRequest] = [[.booked 1], [.allOccupied]] := by decide +kernel
  obtain ⟨rfl, rfl, rfl⟩ : r = [.booked 1] ∧ r' = [.booked 1] ∧ rs = [] := by
    simpa [responses, eq_comm] using hfirst.symm.trans hxy
  have hlast : Reply.booked 1 = .allOccupied := by simpa [responses] using hyx.symm.trans hsecond
  exact booked_ne_allOccupied hlast

end KhelaKaro
