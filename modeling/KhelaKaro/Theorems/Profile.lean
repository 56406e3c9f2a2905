import KhelaKaro.App
import KhelaKaro.Theorems.BookingRoute

/-! # The profile route

What `POST /api/stats/profile` answers: for each sport the starts of the user's bookings at its facility, newest
document first. The sort that the route makes in between moves nothing. -/

namespace KhelaKaro
open Async

/-- The comparison of two dates is no number, so the sort keeps the order. -/
theorem sortDates_eq (s : List Date) : sortDates s = s :=
  List.mergeSort_of_pairwise (List.pairwise_of_forall fun _ _ => rfl)

/-- The starts of the user's bookings at the facility of the sport, when there is one. -/
def sportStarts (db : Db) (user : User) (sport : Nat) : Option (List Date) :=
  (db.facilities.docs.find? fun f => f.facilityId == some (sport : ℚ)).map fun f =>
    (db.bookings.filter fun b => b.facility == f._id && b.user == user._id).map Booking.startDateTime

variable {m : Mongoose} {db : Db} {user : User} {faults : Nat → Option JsError}

theorem sportBookings_run {sport : Nat} {f : List Date → Proc Http Unit} :
    ((sportBookings user sport >>= f).tryCatch fun _ => respond .serverError).run (Db.exec m) faults db =
      match faults 0, faults 1, sportStarts db user sport with
      | none, none, some l =>
        ((f l).tryCatch fun _ => respond .serverError).run (Db.exec m) (fun n => faults (n + 2)) db
      | _, _, _ => ⟨db, [.serverError], .ok ()⟩ := by
  have hmatch : m.matchFacilityId (some (.num sport)) = .ok fun f => f == some (sport : ℚ) := by
    simp only [Mongoose.matchFacilityId, m.facilityIdFilter_num, Option.elim_some]
  simp only [sportBookings, Facility.findOne_bind, Booking.find_bind, Proc.await_bind, Proc.tryCatch_await,
    Proc.throw_bind, Proc.tryCatch_throw, sportStarts]
  cases h0 : faults 0 with
  | some e =>
    rw [Proc.run_await_error (by rw [h0]; rfl)]
    rfl
  | none =>
  rw [Proc.run_await_ok (by rw [h0]; exact exec_facilityFindOne hmatch)]
  cases db.facilities.docs.find? fun f => f.facilityId == some (sport : ℚ) with
  | none => cases faults 1 <;> rfl
  | some facility =>
  simp only [notNull, Proc.pure_bind, Proc.await_bind, Proc.tryCatch_await, Proc.throw_bind, Proc.tryCatch_throw,
    Option.map_some]
  cases h1 : faults 1 with
  | some e =>
    rw [Proc.run_await_error (by rw [h1]; rfl)]
    rfl
  | none =>
    rw [Proc.run_await_ok (by rw [h1]; exact exec_bookingFind_facility _ _)]
    rfl

def profileData (db : Db) (user : User) : Option ProfileData := do
  let s1 ← sportStarts db user 1
  let s2 ← sportStarts db user 2
  let s3 ← sportStarts db user 3
  let s4 ← sportStarts db user 4
  return ⟨s1.reverse, s2.reverse, s3.reverse, s4.reverse⟩

theorem profileData_eq_some {data : ProfileData} (h : profileData db user = some data) : ∃ s1 s2 s3 s4,
    sportStarts db user 1 = some s1 ∧ sportStarts db user 2 = some s2 ∧ sportStarts db user 3 = some s3 ∧
      sportStarts db user 4 = some s4 ∧ data = ⟨s1.reverse, s2.reverse, s3.reverse, s4.reverse⟩ := by
  unfold profileData at h
  simp only [Option.bind_eq_bind, Option.bind_eq_some_iff, pure, Option.some.injEq] at h
  obtain ⟨s1, h1, s2, h2, s3, h3, s4, h4, rfl⟩ := h
  exact ⟨s1, s2, s3, s4, h1, h2, h3, h4, rfl⟩

def Reply.profile (data : ProfileData) : Reply := ⟨200, .object true "Profile data received" none (some data)⟩

theorem postProfile_run (m : Mongoose) (db : Db) (user : User) (faults : Nat → Option JsError) :
    (postProfile user).run (Db.exec m) faults db = ⟨db, [.serverError], .ok ()⟩ ∨
      ∃ data, profileData db user = some data ∧
        (postProfile user).run (Db.exec m) faults db = ⟨db, [.profile data], .ok ()⟩ := by
  unfold postProfile
  rw [tryCatch_eq, sportBookings_run]
  split <;> try exact Or.inl rfl
  rename_i s1 _ _ h1
  rw [sportBookings_run]
  split <;> try exact Or.inl rfl
  rename_i s2 _ _ h2
  rw [sportBookings_run]
  split <;> try exact Or.inl rfl
  rename_i s3 _ _ h3
  rw [sportBookings_run]
  split <;> try exact Or.inl rfl
  rename_i s4 _ _ h4
  refine Or.inr ⟨⟨s1.reverse, s2.reverse, s3.reverse, s4.reverse⟩, ?_, ?_⟩
  · simp only [profileData, h1, h2, h3, h4]
    rfl
  · simp only [sortDates_eq]
    rfl

/-- With a facility for each sport, and no call that fails, the data is answered. -/
theorem postProfile_run_noFaults {data : ProfileData} (h : profileData db user = some data) :
    (postProfile user).run (Db.exec m) Proc.noFaults db = ⟨db, [.profile data], .ok ()⟩ := by
  obtain ⟨s1, s2, s3, s4, h1, h2, h3, h4, rfl⟩ := profileData_eq_some h
  unfold postProfile
  rw [tryCatch_eq, sportBookings_run, h1]
  dsimp only [Proc.noFaults]
  rw [sportBookings_run, h2]
  dsimp only
  rw [sportBookings_run, h3]
  dsimp only
  rw [sportBookings_run, h4]
  simp only [sortDates_eq]
  rfl

end KhelaKaro
