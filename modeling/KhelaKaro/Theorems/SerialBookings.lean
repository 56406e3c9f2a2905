import KhelaKaro.App
import KhelaKaro.Query
import KhelaKaro.Theorems.Allocation
import Mathlib.Data.Int.ConditionallyCompleteOrder
import Mathlib.Order.CompletePartialOrder
import Mathlib.Order.Interval.Set.Disjoint

/-! # Bookings one after the other

Three laws of the stored bookings under requests of which each is finished before the next starts, and the exact
conditions under which a run keeps them. A booking is never changed or removed, so each law is a relation that a new
booking must have to all earlier ones. -/

namespace KhelaKaro
open Async

/-! ### Slots -/

def Booking.slot (b : Booking) : Set Int := Set.Ico b.startDateTime.time b.endDateTime.time

/-- Every booking lasts as long as the route makes it. -/
def Db.Slotted (db : Db) : Prop := ∀ b ∈ db.bookings, b.endDateTime.time = b.startDateTime.time + slotLength

theorem endOf_time {start stop : Date} (h : endOf start = some stop) : stop.time = start.time + slotLength := by
  have hsum : (Number.val (start.time : ℚ) + .val slotLength) = .val ((start.time + slotLength : Int) : ℚ) := by
    rw [Number.val_add]
    push_cast
    rfl
  rw [endOf, hsum, Number.toDate, timeClip_int] at h
  split at h
  · cases h
    rfl
  · cases h

theorem disjoint_slot_iff {a b : Booking} (ha : a.endDateTime.time = a.startDateTime.time + slotLength)
    (hb : b.endDateTime.time = b.startDateTime.time + slotLength) :
    Disjoint a.slot b.slot ↔ 3600 ≤ |a.startDateTime.time - b.startDateTime.time| := by
  unfold Booking.slot
  rw [Set.Ico_disjoint_Ico, ha, hb]
  unfold slotLength
  rw [le_abs]
  omega

section Runs
variable {m : Mongoose} {rt : Runtime} {db t : Db} {bodies : List Json} {body : Json}

theorem runs_facilities : ((bookingLedger m rt).runs db bodies).facilities = db.facilities :=
  Ledger.runs_induction _ (Q := fun t : Db => t.facilities = db.facilities) rfl
    (fun t body h => by rw [bookingLedger_step]; exact h) bodies

theorem Db.Slotted.runs (h : db.Slotted) : ((bookingLedger m rt).runs db bodies).Slotted := by
  refine Ledger.runs_induction _ h (fun t body ht => ?_) bodies
  intro b hb
  rw [bookingLedger_step, Db.add, List.mem_append, Option.mem_toList] at hb
  rcases hb with hb | hb
  · exact ht b hb
  · obtain ⟨user, facility, start, read, court, stop, hg, rfl⟩ := entry_eq_some_iff.mp hb
    exact endOf_time hg.ends

theorem Db.Slotted.of_nil (h : db.bookings = []) : db.Slotted := by
  intro b hb
  rw [h] at hb
  cases hb

theorem facilities_of_handles (ht : (bookingLedger m rt).Handles db bodies t body) :
    t.facilities = db.facilities := by
  obtain ⟨pre, -, rfl⟩ := ht
  exact runs_facilities

theorem slotted_of_handles (h : db.Slotted) (ht : (bookingLedger m rt).Handles db bodies t body) : t.Slotted := by
  obtain ⟨pre, -, rfl⟩ := ht
  exact h.runs

end Runs

/-! ### No double booking -/

def NoDoubleBooking (bookings : List Booking) : Prop :=
  bookings.Pairwise fun a b => a.facility = b.facility → a.courtNumber = b.courtNumber → Disjoint a.slot b.slot

/-- The bookings that the request asks for are those of facility `i`: `facilityId._id` is a filter that matches it. -/
def AsksBookingsOf (m : Mongoose) (body : Json) (i : ObjectId) : Prop :=
  ∃ ref q, Json.get (body.prop "facilityId") "_id" = .ok ref ∧ m.matchRef (.value ref) = .ok q ∧ q i = true

/-- If the request gets a court while a booking of its facility meets its slot, it asks for the bookings of that
    facility. -/
def ReadsClashing (m : Mongoose) (rt : Runtime) (db : Db) (body : Json) : Prop :=
  ∀ user facility start read court stop, Granted m rt db body user facility start read court stop →
    (∃ b ∈ db.bookings, b.facility = facility._id ∧ ¬Disjoint b.slot (Set.Ico start.time stop.time)) →
      AsksBookingsOf m body facility._id

def Db.Counted (db : Db) : Prop := ∀ f ∈ db.facilities.docs, ∃ k : Nat, 0 < k ∧ f.count = some (k : ℚ)

section DoubleBooking
variable {m : Mongoose} {rt : Runtime} {db t : Db} {bodies : List Json} {body : Json} {user : User}
  {facility : Facility} {start stop : Date} {read : List Booking} {court : Nat}

theorem Asks.count (h : Asks m rt db body user facility start read) (hc : db.Counted) :
    ∃ k : Nat, 0 < k ∧ facility.count = some (k : ℚ) := by
  obtain ⟨p, -, hf⟩ := h.place
  exact hc facility (List.mem_of_find?_eq_some hf)

theorem val_add_slotLength (h : endOf start = some stop) :
    Number.val (start.time : ℚ) + .val slotLength = .val (stop.time : ℚ) := by
  rw [endOf_time h, Number.val_add]
  push_cast
  rfl

theorem meets_iff {b : Booking} (hb : b.startDateTime.time < b.endDateTime.time) (h : start.time < stop.time) :
    ¬Disjoint b.slot (Set.Ico start.time stop.time) ↔ b.overlaps (.val start.time) (.val stop.time) = true := by
  unfold Booking.slot
  rw [Set.Ico_disjoint_Ico, Booking.overlaps_iff]
  omega

theorem Asks.mem_read (h : Asks m rt db body user facility start read) (hb : AsksBookingsOf m body facility._id)
    {b : Booking} (hmem : b ∈ db.bookings) (hf : b.facility = facility._id) : b ∈ read := by
  obtain ⟨ref, q, href, hq, rfl⟩ := h.list
  obtain ⟨ref', q', href', hq', hmatch⟩ := hb
  rw [href, Except.ok.injEq] at href'
  subst href'
  rw [hq, Except.ok.injEq] at hq'
  subst hq'
  exact List.mem_filter.mpr ⟨hmem, by rw [hf]; exact hmatch⟩

/-- The court of a granted request is free at its facility, when the list it has read is that of the facility. -/
theorem Granted.court_free (hg : Granted m rt t body user facility start read court stop) (hc : t.Counted)
    (hs : t.Slotted) (hr : ReadsClashing m rt t body) {b : Booking} (hb : b ∈ t.bookings)
    (hf : b.facility = facility._id) (hcourt : b.courtNumber = court) :
    Disjoint b.slot (Set.Ico start.time stop.time) := by
  by_contra hmeet
  have hread := hg.mem_read (hr _ _ _ _ _ _ hg ⟨b, hb, hf, hmeet⟩) hb hf
  obtain ⟨k, hk, hcount⟩ := hg.count hc
  have halloc := hg.allocated
  rw [val_add_slotLength hg.ends, hcount] at halloc
  have hslot := hs b hb
  have hstop := endOf_time hg.ends
  have hlen : (0 : Int) < slotLength := by decide
  have hover := (meets_iff (by omega) (by omega)).mp hmeet
  exact (allocate_spec hk halloc).2.1 b hread hover hcourt

/-- A request whose `facilityId` has no property `_id` filters by undefined. -/
theorem ref_eq_none {ref : Option Json} (href : Json.get (body.prop "facilityId") "_id" = .ok ref)
    (hid : ∀ v, body.prop "facilityId" = some v → v.prop "_id" = none) : ref = none := by
  unfold Json.get at href
  split at href
  · cases href
  · cases href
  · rename_i v hne hv
    cases href
    exact hid v hv

theorem Asks.read_nil (h : Asks m rt db body user facility start read)
    (hid : ∀ v, body.prop "facilityId" = some v → v.prop "_id" = none) : read = [] := by
  obtain ⟨ref, q, href, hq, rfl⟩ := h.list
  obtain rfl := ref_eq_none href hid
  cases hq
  simp

theorem Granted.court_one (hg : Granted m rt db body user facility start read court stop) (hc : db.Counted)
    (hid : ∀ v, body.prop "facilityId" = some v → v.prop "_id" = none) : court = 1 := by
  obtain ⟨k, hk, hcount⟩ := hg.count hc
  have halloc := hg.allocated
  rw [hcount, hg.toAsks.read_nil hid, allocate_nil hk] at halloc
  exact (Option.some.inj halloc).symm

theorem Db.Counted.of_facilities (h : db.Counted) (ht : t.facilities = db.facilities) : t.Counted := by
  unfold Db.Counted
  rw [ht]
  exact h

end DoubleBooking

/-- A run double-books no court when each request that gets a court with a booking in its way has asked for the
    bookings of its facility; and when no `facilityId` has a property `_id`, only then. -/
theorem noDoubleBooking_of_readsClashing (m : Mongoose) (rt : Runtime) (db : Db) (bodies : List Json)
    (hempty : db.bookings = []) (hcount : db.Counted) :
    ((∀ t body, (bookingLedger m rt).Handles db bodies t body → ReadsClashing m rt t body) →
        NoDoubleBooking ((bookingLedger m rt).runs db bodies).bookings) ∧
      ((∀ body ∈ bodies, ∀ v, body.prop "facilityId" = some v → v.prop "_id" = none) →
        NoDoubleBooking ((bookingLedger m rt).runs db bodies).bookings →
        ∀ t body, (bookingLedger m rt).Handles db bodies t body → ReadsClashing m rt t body) := by
  have hslotted := Db.Slotted.of_nil hempty
  have hall := (bookingLedger m rt).pairwise_runs_iff
    (fun a b => a.facility = b.facility → a.courtNumber = b.courtNumber → Disjoint a.slot b.slot) db bodies
  constructor
  · intro hread
    refine hall.mpr ⟨by simp [bookingLedger, hempty], fun t body ht b hb x hx hf hcourt => ?_⟩
    obtain ⟨user, facility, start, read, court, stop, hg, rfl⟩ := entry_eq_some_iff.mp hb
    exact hg.court_free (hcount.of_facilities (facilities_of_handles ht)) (slotted_of_handles hslotted ht)
      (hread t body ht) hx hf hcourt
  · rintro hid hno t body ht user facility start read court stop hg ⟨b, hb, hf, hmeet⟩
    -- Both bookings are on court 1.
    have hone : ∀ t body, (bookingLedger m rt).Handles db bodies t body → ∀ user facility start read court stop,
        Granted m rt t body user facility start read court stop → court = 1 := by
      intro t body ht user facility start read court stop hg
      exact hg.court_one (hcount.of_facilities (facilities_of_handles ht)) (hid body ht.mem)
    have hcourt : b.courtNumber = court := by
      have hnew := hone t body ht _ _ _ _ _ _ hg
      obtain ⟨pre, hpre, rfl⟩ := ht
      rcases (bookingLedger m rt).mem_log_runs.mp hb with hb | ⟨t', body', ⟨pre', hpre', hrun⟩, hb⟩
      · simp [bookingLedger, hempty] at hb
      · obtain ⟨_, _, _, _, _, _, hg', rfl⟩ := entry_eq_some_iff.mp hb
        have hbefore := hpre'.trans ((List.prefix_append pre [body]).trans hpre)
        simp only [hnew, hone t' body' ⟨pre', hbefore, hrun⟩ _ _ _ _ _ _ hg']
    have hdisj := (hall.mp hno).2 t body ht _ (entry_eq_some_iff.mpr ⟨_, _, _, _, _, _, hg, rfl⟩)
    exact absurd (hdisj b hb hf hcourt) hmeet

theorem club_counted : club.Counted := by
  intro f hf
  simp only [club, clubFacilities, List.mem_cons, List.not_mem_nil, or_false] at hf
  rcases hf with rfl | rfl | rfl | rfl
  · exact ⟨2, by decide, rfl⟩
  · exact ⟨2, by decide, rfl⟩
  · exact ⟨4, by decide, rfl⟩
  · exact ⟨1, by decide, rfl⟩

def homeRequest : Json := bookCourt "1" "Jan 01 2024 11:00:00" "home@club.test"

/-- The booking that this request adds to an empty club. -/
def homeBooking : Booking := ⟨⟨1⟩, ⟨1⟩, 1, ⟨1704106800000, by decide⟩, ⟨1704106803600, by decide⟩⟩

def awayRequest : Json := bookCourt "1" "Jan 01 2024 11:00:00" "away@club.test"

/-- A request for badminton whose `facilityId` is an object with the reference of the facility -/
def referredRequest (startDateTime email : String) : Json :=
  .obj [("facilityId", .obj [("_id", .str "000000000000000000000001")]), ("startDateTime", .str startDateTime),
    ("email", .str email)]

theorem asksBookingsOf_referred {t : Db} {startDateTime email : String} {user : User} {facility : Facility}
    {start : Date} {read : List Booking} (ht : t.facilities = club.facilities)
    (h : Asks mongoose6 utc.runtime t (referredRequest startDateTime email) user facility start read) :
    AsksBookingsOf mongoose6 (referredRequest startDateTime email) facility._id := by
  obtain ⟨p, hp, hfind⟩ := h.place
  have hfirst : (mongoose6.matchFacilityId (some (.obj [("_id", .str "000000000000000000000001")]))).toOption.bind
      (fun p => club.facilities.docs.find? (p ·.facilityId)) = some ⟨⟨1⟩, some 1, some "Badminton", some 2⟩ := by
    decide +kernel
  have hid : facility._id = ⟨1⟩ := by
    have hp : mongoose6.matchFacilityId (some (.obj [("_id", .str "000000000000000000000001")])) = .ok p := hp
    rw [hp] at hfirst
    rw [ht] at hfind
    rw [Option.some.inj (hfind.symm.trans hfirst)]
  refine ⟨_, _, rfl, rfl, ?_⟩
  rw [hid]
  decide +kernel

/-- Both courts for the same slot, and the first court again two days later -/
def referredRequests : List Json :=
  [referredRequest "Jan 01 2024 11:00:00" "home@club.test", referredRequest "Jan 01 2024 11:00:00" "away@club.test",
    referredRequest "Jan 03 2024 11:00:00" "home@club.test"]

theorem noDoubleBooking_of_readsClashing_club :
    ((bookingLedger mongoose6 utc.runtime).runs club referredRequests).bookings.map (·.courtNumber) = [1, 2, 1] ∧
      NoDoubleBooking ((bookingLedger mongoose6 utc.runtime).runs club referredRequests).bookings := by
  refine ⟨by decide +kernel, ?_⟩
  refine (noDoubleBooking_of_readsClashing mongoose6 utc.runtime club referredRequests rfl club_counted).1 ?_
  intro t body ht user facility start read court stop hg _
  have hmem := ht.mem
  simp only [referredRequests, List.mem_cons, List.not_mem_nil, or_false] at hmem
  rcases hmem with rfl | rfl | rfl <;> exact asksBookingsOf_referred (facilities_of_handles ht) hg.toAsks

theorem not_noDoubleBooking_club :
    club.bookings = [] ∧ club.Counted ∧
      ¬NoDoubleBooking ((bookingLedger mongoose6 utc.runtime).runs club [homeRequest, awayRequest]).bookings := by
  refine ⟨rfl, club_counted, fun h => ?_⟩
  have hrun : ((bookingLedger mongoose6 utc.runtime).runs club [homeRequest, awayRequest]).bookings =
      [homeBooking, ⟨⟨2⟩, ⟨1⟩, 1, ⟨1704106800000, by decide⟩, ⟨1704106803600, by decide⟩⟩] := by decide +kernel
  rw [hrun] at h
  have hdisj := List.rel_of_pairwise_cons h List.mem_cons_self rfl rfl
  exact absurd ((disjoint_slot_iff rfl rfl).mp hdisj) (by decide)

/-! ### No clash of a user's bookings -/

def NoClash (bookings : List Booking) : Prop :=
  bookings.Pairwise fun a b => a.user = b.user → Disjoint a.slot b.slot

/-- If the request gets a court, its user has no booking at another facility that starts at another instant of the
    same slot length. -/
def StartsClear (m : Mongoose) (rt : Runtime) (db : Db) (body : Json) : Prop :=
  ∀ user facility start read court stop, Granted m rt db body user facility start read court stop →
    ∀ b ∈ db.bookings, b.user = user._id → b.facility ≠ facility._id →
      ¬(0 < |b.startDateTime.time - start.time| ∧ |b.startDateTime.time - start.time| < 3600)

section Clash
variable {m : Mongoose} {rt : Runtime} {db t : Db} {bodies : List Json} {body : Json} {user : User}
  {facility : Facility} {start stop : Date} {read : List Booking} {court : Nat}

theorem forall_entry_iff {P : Booking → Prop} :
    (∀ b, entry m rt db body = some b → P b) ↔ ∀ user facility start read court stop,
      Granted m rt db body user facility start read court stop → P ⟨user._id, facility._id, court, start, stop⟩ := by
  constructor
  · intro h user facility start read court stop hg
    exact h _ (entry_eq_some_iff.mpr ⟨_, _, _, _, _, _, hg, rfl⟩)
  · intro h b hb
    obtain ⟨user, facility, start, read, court, stop, hg, rfl⟩ := entry_eq_some_iff.mp hb
    exact h _ _ _ _ _ _ hg

theorem within24Hours_iff_window {b : Booking} {t : Int} : b.within24Hours (.val t) = true ↔
    t - b.startDateTime.time < 86313600 ∧ b.startDateTime.time - t < 86486400 := by
  rw [Booking.within24Hours_iff, abs_lt]
  omega

theorem Granted.outside (hg : Granted m rt db body user facility start read court stop) {b : Booking}
    (hb : b ∈ db.bookings) (hu : b.user = user._id) (hf : b.facility = facility._id) :
    86313600 ≤ start.time - b.startDateTime.time ∨ 86486400 ≤ b.startDateTime.time - start.time := by
  have hnot : ¬b.within24Hours (.val start.time) = true := fun h => hg.otherDay ⟨b, hb, hf, hu, h⟩
  rw [within24Hours_iff_window] at hnot
  omega

theorem Granted.start_ne (hg : Granted m rt db body user facility start read court stop) {b : Booking}
    (hb : b ∈ db.bookings) (hu : b.user = user._id) : b.startDateTime.time ≠ start.time := by
  intro h
  exact hg.freshStart ⟨b, hb, Date.ext h, hu⟩

theorem startsClear_iff (hs : db.Slotted) : StartsClear m rt db body ↔
    ∀ b, entry m rt db body = some b → ∀ x ∈ db.bookings, x.user = b.user → Disjoint x.slot b.slot := by
  rw [forall_entry_iff]
  constructor
  · intro h user facility start read court stop hg x hx hu
    refine (disjoint_slot_iff (b := ⟨user._id, facility._id, court, start, stop⟩) (hs x hx) (endOf_time hg.ends)).mpr ?_
    dsimp only
    by_cases hf : x.facility = facility._id
    · have := hg.outside hx hu hf
      rw [le_abs]
      omega
    · have hpos := abs_pos.mpr (sub_ne_zero.mpr (hg.start_ne hx hu))
      have := h _ _ _ _ _ _ hg x hx hu hf
      omega
  · intro h user facility start read court stop hg b hb hu hf
    have := (disjoint_slot_iff (b := ⟨user._id, facility._id, court, start, stop⟩) (hs b hb) (endOf_time hg.ends)).mp
      (h _ _ _ _ _ _ hg b hb hu)
    dsimp only at this
    omega

end Clash

/-- The users' bookings of a run are free of clashes exactly when each request that gets a court starts clear of its
    user's bookings elsewhere. -/
theorem noClash_runs_iff (m : Mongoose) (rt : Runtime) (db : Db) (bodies : List Json) (hs : db.Slotted)
    (h0 : NoClash db.bookings) :
    NoClash ((bookingLedger m rt).runs db bodies).bookings ↔
      ∀ t body, (bookingLedger m rt).Handles db bodies t body → StartsClear m rt t body := by
  have hall := (bookingLedger m rt).pairwise_runs_iff
    (fun a b => a.user = b.user → Disjoint a.slot b.slot) db bodies
  constructor
  · intro h t body ht
    exact (startsClear_iff (slotted_of_handles hs ht)).mpr ((hall.mp h).2 t body ht)
  · intro h
    refine hall.mpr ⟨h0, fun t body ht => ?_⟩
    exact (startsClear_iff (slotted_of_handles hs ht)).mp (h t body ht)

/-- An hour after the first booking, at another facility -/
def laterTennisRequest : Json := bookCourt "2" "Jan 01 2024 12:00:00" "home@club.test"

theorem noClash_runs_iff_club :
    ((bookingLedger mongoose6 utc.runtime).runs club [homeRequest, laterTennisRequest]).bookings.map (·.user) =
        [⟨1⟩, ⟨1⟩] ∧
      NoClash ((bookingLedger mongoose6 utc.runtime).runs club [homeRequest, laterTennisRequest]).bookings := by
  refine ⟨by decide +kernel, ?_⟩
  refine (noClash_runs_iff mongoose6 utc.runtime club [homeRequest, laterTennisRequest] (Db.Slotted.of_nil rfl)
    List.Pairwise.nil).mpr ?_
  intro t body ht
  rcases (Ledger.handles_pair _).mp ht with ⟨rfl, rfl⟩ | ⟨rfl, rfl⟩
  · intro _ _ _ _ _ _ _ b hb
    cases hb
  · have hbookings : ((bookingLedger mongoose6 utc.runtime).step club homeRequest).bookings = [homeBooking] := by
      decide +kernel
    have hstart : newDate utc.runtime (laterTennisRequest.prop "startDateTime") =
        .ok (some ⟨1704110400000, by decide⟩) := by decide +kernel
    intro user facility start read court stop hg b hb _ _
    rw [hbookings, List.mem_singleton] at hb
    rw [hb, hg.start_eq hstart]
    decide

/-- One second after the start of the first booking, at another facility -/
def homeTennisRequest : Json := bookCourt "2" "Jan 01 2024 11:00:01" "home@club.test"

theorem not_noClash_club :
    ¬NoClash ((bookingLedger mongoose6 utc.runtime).runs club [homeRequest, homeTennisRequest]).bookings := by
  intro h
  have hrun : ((bookingLedger mongoose6 utc.runtime).runs club [homeRequest, homeTennisRequest]).bookings =
      [homeBooking, ⟨⟨1⟩, ⟨2⟩, 1, ⟨1704106801000, by decide⟩, ⟨1704106804600, by decide⟩⟩] := by decide +kernel
  rw [hrun] at h
  have hdisj := List.rel_of_pairwise_cons h List.mem_cons_self rfl
  exact absurd ((disjoint_slot_iff rfl rfl).mp hdisj) (by decide)

/-! ### The 24-hour rule -/

def DayApart (bookings : List Booking) : Prop :=
  bookings.Pairwise fun a b => a.user = b.user → a.facility = b.facility →
    86400000 ≤ |a.startDateTime.time - b.startDateTime.time|

def FarStart (db : Db) (user : User) (facility : Facility) (start : Date) : Prop :=
  ∀ b ∈ db.bookings, b.user = user._id → b.facility = facility._id →
    86400000 ≤ |b.startDateTime.time - start.time|

/-- A request with such a start is not refused by the 24-hour check. -/
def AcceptsFar (m : Mongoose) (rt : Runtime) (db : Db) (body : Json) : Prop :=
  ∀ user facility start read, Asks m rt db body user facility start read → FarStart db user facility start →
    .bookedWithin24Hours ∉ ((serveBooking rt body).run (Db.exec m) Proc.noFaults db).sent

structure DayRule (m : Mongoose) (rt : Runtime) (db : Db) (bodies : List Json) : Prop where
  apart : DayApart ((bookingLedger m rt).runs db bodies).bookings
  accepts : ∀ t body, (bookingLedger m rt).Handles db bodies t body → AcceptsFar m rt t body

/-- The start keeps out of the two ends of the window, which lies 86.4 seconds too early. -/
structure MissesEnds (m : Mongoose) (rt : Runtime) (db : Db) (body : Json) : Prop where
  /-- no booking granted starts up to a day after another, by less than the shift -/
  late : ∀ user facility start read court stop, Granted m rt db body user facility start read court stop →
    ∀ b ∈ db.bookings, b.user = user._id → b.facility = facility._id →
      ¬(86313600 ≤ start.time - b.startDateTime.time ∧ start.time - b.startDateTime.time < 86400000)
  /-- no start that is far from all bookings is a day before one, by less than the shift -/
  early : ∀ user facility start read, Asks m rt db body user facility start read → ¬SameStart db user start →
    FarStart db user facility start → ∀ b ∈ db.bookings, b.user = user._id → b.facility = facility._id →
      ¬(86400000 ≤ b.startDateTime.time - start.time ∧ b.startDateTime.time - start.time < 86486400)

section Day
variable {m : Mongoose} {rt : Runtime} {db t : Db} {bodies : List Json} {body : Json} {user : User}
  {facility : Facility} {start stop : Date} {read : List Booking} {court : Nat}

theorem serveBooking_run_of_asks (h : Asks m rt db body user facility start read) :
    (serveBooking rt body).run (Db.exec m) Proc.noFaults db =
      match judge m db (body.prop "facilityId") user (some start) with
      | .ok (r, b) => ⟨db.add b, [r], .ok ()⟩
      | .error _ => ⟨db, [.serverError], .ok ()⟩ :=
  serveBooking_run h.caller h.instant

/-- The 24-hour check answers exactly when the other check has passed and its own has not. -/
theorem bookedWithin24Hours_mem_iff (h : Asks m rt db body user facility start read) :
    .bookedWithin24Hours ∈ ((serveBooking rt body).run (Db.exec m) Proc.noFaults db).sent ↔
      ¬SameStart db user start ∧ SameDay db user facility start := by
  classical
  rw [serveBooking_run_of_asks h, judge_of_asks h]
  by_cases hs : SameStart db user start
  · simp [hs, Reply.bookedWithin24Hours, Reply.alreadyBooked, Reply.message]
  by_cases hd : SameDay db user facility start
  · simp [hs, hd]
  cases hc : allocate (.val start.time) (.val start.time + .val slotLength) facility.count read with
  | none => simp [hs, hd, Reply.bookedWithin24Hours, Reply.allOccupied, Reply.message]
  | some court =>
    cases he : endOf start with
    | none => simp [hs, hd, Reply.bookedWithin24Hours, Reply.serverError, Reply.message]
    | some stop => simp [hs, hd, Reply.bookedWithin24Hours, Reply.booked, Reply.message]

theorem late_iff : (∀ user facility start read court stop, Granted m rt db body user facility start read court stop →
      ∀ b ∈ db.bookings, b.user = user._id → b.facility = facility._id →
        ¬(86313600 ≤ start.time - b.startDateTime.time ∧ start.time - b.startDateTime.time < 86400000)) ↔
    ∀ b, entry m rt db body = some b → ∀ x ∈ db.bookings, x.user = b.user → x.facility = b.facility →
      86400000 ≤ |x.startDateTime.time - b.startDateTime.time| := by
  rw [forall_entry_iff]
  constructor
  · intro h user facility start read court stop hg x hx hu hf
    have := hg.outside hx hu hf
    have := h _ _ _ _ _ _ hg x hx hu hf
    rw [le_abs]
    dsimp only
    omega
  · intro h user facility start read court stop hg b hb hu hf
    have := h _ _ _ _ _ _ hg b hb hu hf
    rw [le_abs] at this
    dsimp only at this
    omega

theorem early_iff : (∀ user facility start read, Asks m rt db body user facility start read →
      ¬SameStart db user start → FarStart db user facility start →
      ∀ b ∈ db.bookings, b.user = user._id → b.facility = facility._id →
        ¬(86400000 ≤ b.startDateTime.time - start.time ∧ b.startDateTime.time - start.time < 86486400)) ↔
    AcceptsFar m rt db body := by
  constructor
  · intro h user facility start read ha hfar hmem
    obtain ⟨hs, b, hb, hf, hu, hwithin⟩ := (bookedWithin24Hours_mem_iff ha).mp hmem
    rw [within24Hours_iff_window] at hwithin
    have hout := h _ _ _ _ ha hs hfar b hb hu hf
    have := hfar b hb hu hf
    rw [le_abs] at this
    omega
  · intro h user facility start read ha hs hfar b hb hu hf hend
    refine h _ _ _ _ ha hfar ((bookedWithin24Hours_mem_iff ha).mpr ⟨hs, b, hb, hf, hu, ?_⟩)
    rw [within24Hours_iff_window]
    omega

end Day

/-- A run keeps the 24-hour rule exactly when every start misses both ends of the shifted window. -/
theorem dayRule_iff (m : Mongoose) (rt : Runtime) (db : Db) (bodies : List Json) (h0 : DayApart db.bookings) :
    DayRule m rt db bodies ↔
      ∀ t body, (bookingLedger m rt).Handles db bodies t body → MissesEnds m rt t body := by
  have hall := (bookingLedger m rt).pairwise_runs_iff
    (fun a b => a.user = b.user → a.facility = b.facility →
      86400000 ≤ |a.startDateTime.time - b.startDateTime.time|) db bodies
  constructor
  · rintro ⟨hapart, haccepts⟩ t body ht
    exact ⟨late_iff.mpr ((hall.mp hapart).2 t body ht), early_iff.mpr (haccepts t body ht)⟩
  · intro h
    refine ⟨hall.mpr ⟨h0, fun t body ht => ?_⟩, fun t body ht => ?_⟩
    · exact late_iff.mp (h t body ht).late
    · exact early_iff.mp (h t body ht).early

/-- The same hour of the next day -/
def dayLaterRequest : Json := bookCourt "1" "Jan 02 2024 11:00:00" "home@club.test"

theorem dayRule_iff_club :
    ((bookingLedger mongoose6 utc.runtime).runs club [homeRequest, dayLaterRequest]).bookings.map
        (fun b => (b.user, b.facility)) = [(⟨1⟩, ⟨1⟩), (⟨1⟩, ⟨1⟩)] ∧
      DayRule mongoose6 utc.runtime club [homeRequest, dayLaterRequest] := by
  refine ⟨by decide +kernel, ?_⟩
  refine (dayRule_iff mongoose6 utc.runtime club [homeRequest, dayLaterRequest] List.Pairwise.nil).mpr ?_
  intro t body ht
  rcases (Ledger.handles_pair _).mp ht with ⟨rfl, rfl⟩ | ⟨rfl, rfl⟩
  · refine ⟨?_, ?_⟩
    · intro _ _ _ _ _ _ _ b hb
      cases hb
    · intro _ _ _ _ _ _ _ b hb
      cases hb
  · have hbookings : ((bookingLedger mongoose6 utc.runtime).step club homeRequest).bookings = [homeBooking] := by
      decide +kernel
    have hstart : newDate utc.runtime (dayLaterRequest.prop "startDateTime") =
        .ok (some ⟨1704193200000, by decide⟩) := by decide +kernel
    refine ⟨?_, ?_⟩
    · intro user facility start read court stop hg b hb _ _
      rw [hbookings, List.mem_singleton] at hb
      rw [hb, hg.start_eq hstart]
      decide
    · intro user facility start read ha _ _ b hb _ _
      rw [hbookings, List.mem_singleton] at hb
      rw [hb, ha.start_eq hstart]
      decide

/-- One minute before the same hour of the next day -/
def nextDayRequest : Json := bookCourt "1" "Jan 02 2024 10:59:00" "home@club.test"

theorem not_dayRule_club : ¬DayRule mongoose6 utc.runtime club [homeRequest, nextDayRequest] := by
  intro h
  have hrun : ((bookingLedger mongoose6 utc.runtime).runs club [homeRequest, nextDayRequest]).bookings =
      [homeBooking, ⟨⟨1⟩, ⟨1⟩, 1, ⟨1704193140000, by decide⟩, ⟨1704193143600, by decide⟩⟩] := by decide +kernel
  have hapart := h.apart
  rw [hrun] at hapart
  exact absurd (List.rel_of_pairwise_cons hapart List.mem_cons_self rfl rfl) (by decide)

end KhelaKaro
