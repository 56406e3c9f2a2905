import KhelaKaro.Theorems.Answers
import KhelaKaro.Theorems.Effects
import KhelaKaro.Theorems.SerialBookings

/-! # The range of the courts

Runs of the routes that write, each request finished before the next starts. A court number that the allocation gives
out is one of the facility's only if the facility has a court, which no route sees to. -/

namespace KhelaKaro
open Async

/-! ### Requests that write -/

inductive WriteRequest where
  | register (body : Json)
  | facilityAdd (body : Json)
  | booking (body : Json)

namespace WriteRequest

def serve (rt : Runtime) : WriteRequest → Proc Http Unit
  | register body => postRegister body
  | facilityAdd body => Route.facilityAdd.serve rt body
  | booking body => Route.booking.serve rt body

def entry (m : Mongoose) (rt : Runtime) (db : Db) : WriteRequest → Option Booking
  | booking body => KhelaKaro.entry m rt db body
  | register _ | facilityAdd _ => none

end WriteRequest

def Op.StoresNoBooking : Op → Prop
  | .bookingSave _ => False
  | _ => True

section Requests
variable {m : Mongoose} {rt : Runtime} {db : Db} {body : Json}

theorem attempt_storesNoBooking {op : Op} (h : op.StoresNoBooking) (fault : Option JsError) :
    (Proc.attempt (Db.exec m) fault db op).1.bookings = db.bookings := by
  have hnone : storedBooking ⟨op, (Proc.attempt (Db.exec m) fault db op).2⟩ = none := by
    cases op with
    | bookingSave doc => exact h.elim
    | _ => rfl
  rw [attempt_bookings, hnone]
  exact List.append_nil _

theorem run_storesNoBooking {t : Proc Http Unit} (h : t.Calls Op.StoresNoBooking) (faults : Nat → Option JsError) :
    (t.run (Db.exec m) faults db).store.bookings = db.bookings :=
  h.run (Q := fun db' : Db => db'.bookings = db.bookings) rfl
    fun _ _ _ hop hdb => (attempt_storesNoBooking hop _).trans hdb

theorem postRegister_calls {P : Op → Prop} (hfind : ∀ v, P (.userFindOne v)) (hsave : ∀ doc, P (.userSave doc)) :
    (postRegister body).Calls P := by
  refine ⟨hfind _, fun user => ?_, fun _ => trivial⟩
  cases user with
  | some user => trivial
  | none => exact ⟨hsave _, fun _ => trivial, fun _ => trivial⟩

theorem facilityAdd_calls {P : Op → Prop} (hfind : ∀ v, P (.userFindOne v)) (hsave : ∀ doc, P (.facilitySave doc)) :
    (Route.facilityAdd.serve rt body).Calls P := by
  refine ⟨hfind _, fun user => ?_, fun _ => trivial⟩
  cases user with
  | none => trivial
  | some user => exact ⟨hsave _, fun _ => trivial, fun _ => trivial⟩

theorem postRegister_storesNoBooking : (postRegister body).Calls Op.StoresNoBooking :=
  postRegister_calls (fun _ => trivial) fun _ => trivial

theorem facilityAdd_storesNoBooking : (Route.facilityAdd.serve rt body).Calls Op.StoresNoBooking :=
  facilityAdd_calls (fun _ => trivial) fun _ => trivial

theorem serve_bookings (r : WriteRequest) :
    ((r.serve rt).run (Db.exec m) Proc.noFaults db).store.bookings = db.bookings ++ (r.entry m rt db).toList := by
  cases r with
  | register body =>
    rw [WriteRequest.serve, run_storesNoBooking postRegister_storesNoBooking]
    exact (List.append_nil _).symm
  | facilityAdd body =>
    rw [WriteRequest.serve, run_storesNoBooking facilityAdd_storesNoBooking]
    exact (List.append_nil _).symm
  | booking body =>
    have hstore : ((serveBooking rt body).run (Db.exec m) Proc.noFaults db).store = db.add (entry m rt db body) :=
      serveBooking_store
    exact congrArg Db.bookings hstore

theorem serve_facilities (r : WriteRequest) :
    db.facilities.docs <+: ((r.serve rt).run (Db.exec m) Proc.noFaults db).store.facilities.docs :=
  Proc.calls_true.run (Q := fun db' : Db => db.facilities.docs <+: db'.facilities.docs) List.prefix_rfl
    fun db' op fault _ h => h.trans (attempt_facilities m fault db' op)

end Requests

/-- The bookings under requests to the writing routes, one after the other. -/
def writeLedger (m : Mongoose) (rt : Runtime) : Ledger Db Booking WriteRequest where
  step db r := ((r.serve rt).run (Db.exec m) Proc.noFaults db).store
  log := Db.bookings
  entry db r := r.entry m rt db
  log_step _ r := serve_bookings r

theorem writeLedger_facilities {m : Mongoose} {rt : Runtime} {db : Db} (rs : List WriteRequest) :
    db.facilities.docs <+: ((writeLedger m rt).runs db rs).facilities.docs :=
  Ledger.runs_induction _ (Q := fun t : Db => db.facilities.docs <+: t.facilities.docs) List.prefix_rfl
    (fun _ r h => h.trans (serve_facilities r)) rs

/-! ### Courts that exist -/

/-- The court number is one of the facility that the booking refers to. -/
def CourtExists (db : Db) (b : Booking) : Prop :=
  ∃ f ∈ db.facilities.docs, f._id = b.facility ∧
    ∃ (q : ℚ) (n : Nat), f.count = some q ∧ b.courtNumber = n ∧ 1 ≤ n ∧ n ≤ q

def CourtsExist (db : Db) : Prop := ∀ b ∈ db.bookings, CourtExists db b

def Facility.HasCourt (f : Facility) : Prop := ∃ q, f.count = some q ∧ 1 ≤ q

/-- A request that comes past the checks is for a facility with a court, or for one that counts 0 and is refused
    because no booking that it has read meets the slot. -/
def FindsCourt (m : Mongoose) (rt : Runtime) (db : Db) (body : Json) : Prop :=
  ∀ user facility start read, Asks m rt db body user facility start read → ¬SameStart db user start →
    ¬SameDay db user facility start → (endOf start).isSome → facility.HasCourt ∨
      facility.count = some 0 ∧ meeting (.val start.time) (.val start.time + .val slotLength) read = []

section Courts
variable {m : Mongoose} {rt : Runtime} {db t : Db} {body : Json} {user : User} {facility : Facility} {start : Date}
  {read : List Booking} {b : Booking}

theorem CourtExists.mono (h : CourtExists db b) (hdocs : db.facilities.docs <+: t.facilities.docs) :
    CourtExists t b := by
  obtain ⟨f, hf, hrest⟩ := h
  exact ⟨f, hdocs.subset hf, hrest⟩

/-- Identities are unique, so a facility that was there before is the one that the booking refers to. -/
theorem CourtExists.back (h : CourtExists t b) (hdocs : db.facilities.docs <+: t.facilities.docs)
    (hfac : ∃ f ∈ db.facilities.docs, f._id = b.facility) : CourtExists db b := by
  obtain ⟨f, hf, hid, hrest⟩ := h
  obtain ⟨f', hf', hid'⟩ := hfac
  obtain rfl := t.facilities.eq_of_id hf (hdocs.subset hf') (hid.trans hid'.symm)
  exact ⟨f, hf', hid, hrest⟩

theorem Asks.facility_mem (h : Asks m rt db body user facility start read) : facility ∈ db.facilities.docs := by
  obtain ⟨p, -, hf⟩ := h.place
  exact List.mem_of_find?_eq_some hf

theorem reaches_of_not_hasCourt {n : Nat} (hcount : ¬facility.HasCourt) (h : Reaches n facility.count) :
    facility.count = some 0 ∧ n = 0 := by
  generalize hq : facility.count = count at h
  cases h with
  | start hn => exact ⟨rfl, hn⟩
  | step hpos hle => exact absurd ⟨_, hq, by exact_mod_cast hpos⟩ hcount

theorem allocated_le {c : Nat} {s e : Number} (h : allocate s e facility.count read = some c)
    (hcount : facility.HasCourt) : ∃ q, facility.count = some q ∧ 1 ≤ c ∧ (c : ℚ) ≤ q := by
  obtain ⟨q, hq, hone⟩ := hcount
  have hnot : ¬Reaches (meeting s e read).length facility.count := by
    rw [← allocate_eq_none_iff, h]
    exact Option.some_ne_none c
  rw [allocate_eq_some hnot, Option.some.injEq] at h
  subst h
  obtain ⟨hpos, hc | ⟨q', hq', hle⟩⟩ :=
    @bookCourtNumber_le facility.count ((meeting s e read).map (·.courtNumber))
  · exact ⟨q, hq, hpos, by rw [hc, Nat.cast_one]; exact hone⟩
  · exact ⟨q', hq', hpos, hle⟩

theorem findsCourt_iff : FindsCourt m rt db body ↔ ∀ b, entry m rt db body = some b → CourtExists db b := by
  rw [forall_entry_iff]
  constructor
  · intro h user facility start read court stop hg
    have hends : (endOf start).isSome := by rw [hg.ends]; rfl
    rcases h _ _ _ _ hg.toAsks hg.freshStart hg.otherDay hends with hcount | ⟨hzero, hnil⟩
    · obtain ⟨q, hq, hone, hle⟩ := allocated_le hg.allocated hcount
      exact ⟨facility, hg.facility_mem, rfl, q, court, hq, rfl, hone, hle⟩
    · have hnone : allocate (.val start.time) (.val start.time + .val slotLength) facility.count read = none := by
        rw [allocate_eq_none_iff, hnil, hzero]
        exact .start rfl
      rw [hg.allocated] at hnone
      cases hnone
  · intro h user facility start read ha hs hday hends
    by_contra hnot
    rw [not_or] at hnot
    obtain ⟨hcount, hempty⟩ := hnot
    obtain ⟨stop, hstop⟩ := Option.isSome_iff_exists.mp hends
    have hreach : ¬Reaches (meeting (.val start.time) (.val start.time + .val slotLength) read).length
        facility.count := by
      intro hreach
      obtain ⟨hzero, hlen⟩ := reaches_of_not_hasCourt hcount hreach
      exact hempty ⟨hzero, List.length_eq_zero_iff.mp hlen⟩
    obtain ⟨f, hf, hid, q, n, hq, -, hone, hle⟩ := h _ _ _ _ _ _ ⟨ha, hs, hday, allocate_eq_some hreach, hstop⟩
    obtain rfl := db.facilities.eq_of_id hf ha.facility_mem hid
    exact hcount ⟨q, hq, le_trans (by exact_mod_cast hone) hle⟩

theorem entry_facility (h : entry m rt db body = some b) : ∃ f ∈ db.facilities.docs, f._id = b.facility := by
  obtain ⟨user, facility, start, read, court, stop, hg, rfl⟩ := entry_eq_some_iff.mp h
  exact ⟨facility, hg.facility_mem, rfl⟩

end Courts

/-- Every court of a run exists exactly when each of its booking requests that comes past the checks finds one. -/
theorem courtsExist_runs_iff (m : Mongoose) (rt : Runtime) (db : Db) (rs : List WriteRequest) (h0 : CourtsExist db) :
    CourtsExist ((writeLedger m rt).runs db rs) ↔
      ∀ t body, (writeLedger m rt).Handles db rs t (.booking body) → FindsCourt m rt t body := by
  constructor
  · intro h t body ht
    obtain ⟨rest, hrest⟩ := ht.rest
    have hdocs : t.facilities.docs <+: ((writeLedger m rt).runs db rs).facilities.docs := by
      rw [hrest]
      exact writeLedger_facilities rest
    refine findsCourt_iff.mpr fun b hb => ?_
    exact (h b ((writeLedger m rt).mem_log_runs.mpr (Or.inr ⟨t, .booking body, ht, hb⟩))).back hdocs (entry_facility hb)
  · intro h b hb
    rcases (writeLedger m rt).mem_log_runs.mp hb with hb | ⟨t, r, ht, hb⟩
    · exact (h0 b hb).mono (writeLedger_facilities rs)
    · obtain ⟨rest, hrest⟩ := ht.rest
      cases r with
      | register body => cases hb
      | facilityAdd body => cases hb
      | booking body =>
        rw [hrest]
        exact (findsCourt_iff.mp (h t body ht) b hb).mono (writeLedger_facilities rest)

def emptyDb : Db := ⟨⟨[], by decide⟩, ⟨[], by decide⟩, []⟩

def registerHome : WriteRequest :=
  .register (.obj [("firstName", .str "Home"), ("lastName", .str "Player"), ("email", .str "home@club.test")])

/-- A facility with two courts -/
def addCounted : WriteRequest :=
  .facilityAdd (.obj [("email", .str "home@club.test"), ("facilityId", .num 1), ("name", .str "Badminton"),
    ("count", .num 2)])

theorem courtsExist_runs_iff_counted :
    ((writeLedger mongoose6 utc.runtime).runs emptyDb [registerHome, addCounted, .booking homeRequest]).bookings =
        [homeBooking] ∧
      CourtsExist ((writeLedger mongoose6 utc.runtime).runs emptyDb
        [registerHome, addCounted, .booking homeRequest]) := by
  refine ⟨by decide +kernel, ?_⟩
  refine (courtsExist_runs_iff mongoose6 utc.runtime emptyDb [registerHome, addCounted, .booking homeRequest]
    nofun).mpr fun t body ht => ?_
  have ht : (writeLedger mongoose6 utc.runtime).Handles emptyDb ([registerHome, addCounted] ++ [.booking homeRequest])
      t (.booking body) := ht
  rcases (Ledger.handles_concat _).mp ht with ht | ⟨rfl, -⟩
  · have hmem := ht.mem
    simp [registerHome, addCounted] at hmem
  · have hdocs : ((writeLedger mongoose6 utc.runtime).runs emptyDb [registerHome, addCounted]).facilities.docs =
        [⟨⟨1⟩, some 1, some "Badminton", some 2⟩] := by decide +kernel
    intro user facility start read ha _ _ _
    have hf := ha.facility_mem
    rw [hdocs, List.mem_singleton] at hf
    subst hf
    exact Or.inl ⟨2, rfl, by decide⟩

/-- A user registers, adds a facility without a count and books it. -/
def countlessRequests : List WriteRequest :=
  [registerHome,
    .facilityAdd (.obj [("email", .str "home@club.test"), ("facilityId", .num 1), ("name", .str "Badminton")]),
    .booking homeRequest]

theorem not_courtsExist_empty :
    CourtsExist emptyDb ∧ ¬CourtsExist ((writeLedger mongoose6 utc.runtime).runs emptyDb countlessRequests) := by
  refine ⟨nofun, fun h => ?_⟩
  have hbookings : ((writeLedger mongoose6 utc.runtime).runs emptyDb countlessRequests).bookings = [homeBooking] := by
    decide +kernel
  have hdocs : ((writeLedger mongoose6 utc.runtime).runs emptyDb countlessRequests).facilities.docs =
      [⟨⟨1⟩, some 1, some "Badminton", none⟩] := by decide +kernel
  obtain ⟨f, hf, -, q, n, hq, -⟩ := h homeBooking (by rw [hbookings]; exact List.mem_singleton_self _)
  rw [hdocs, List.mem_singleton] at hf
  subst hf
  cases hq

end KhelaKaro
