import KhelaKaro.Theorems.ProfileAgreement
import KhelaKaro.Theorems.SerialBookings

/-! # The order of the profile

The lists of the profile hold the starts of the user's bookings, in the reverse of the order of the documents. So they
descend by date if the bookings were made in the order of their dates. -/

namespace KhelaKaro
open Async

/-- The list of a sport -/
def ProfileData.starts (data : ProfileData) : Screen → List Date
  | .badminton => data.s1
  | .tennis => data.s2
  | .tableTennis => data.s3
  | .football => data.s4

/-- The starts of the user's bookings at a facility, in the order of insertion -/
def startsAt (db : Db) (user : User) (f : Facility) : List Date :=
  (db.bookings.filter fun b => b.facility = f._id ∧ b.user = user._id).map (·.startDateTime)

/-- The profile is answered, and each list has the starts at its facility, the latest first. -/
def SortsProfile (m : Mongoose) (db : Db) (user : User) : Prop :=
  ∃ data, ((postProfile user).run (Db.exec m) Proc.noFaults db).sent = [.profile data] ∧
    ∀ s f, db.facilityOf s = some f →
      (data.starts s).Perm (startsAt db user f) ∧ (data.starts s).Pairwise fun a b => b.time ≤ a.time

/-- At the facility of each sport the user's bookings were inserted in the order of their dates. -/
def InsertedByDate (db : Db) (user : User) : Prop :=
  ∀ s f, db.facilityOf s = some f → (startsAt db user f).Pairwise fun a b => a.time ≤ b.time

section Order
variable {m : Mongoose} {db : Db} {user : User}

theorem sportStarts_eq {s : Screen} {f : Facility} (h : db.facilityOf s = some f) :
    sportStarts db user s.number = some (startsAt db user f) := by
  refine Option.map_eq_some_iff.mpr ⟨f, h, ?_⟩
  unfold startsAt
  congr 1
  refine List.filter_congr fun b _ => ?_
  rw [Bool.eq_iff_iff, Bool.and_eq_true, beq_iff_eq, beq_iff_eq, decide_eq_true_eq]

/-- Each list is answered in the reverse of the order of insertion. -/
theorem profileData_starts {data : ProfileData} (h : profileData db user = some data) {s : Screen} {f : Facility}
    (hf : db.facilityOf s = some f) : data.starts s = (startsAt db user f).reverse := by
  obtain ⟨s1, s2, s3, s4, h1, h2, h3, h4, rfl⟩ := profileData_eq_some h
  have hstarts : sportStarts db user s.number = some (startsAt db user f) := sportStarts_eq hf
  cases s with
  | badminton => exact congrArg List.reverse (Option.some.inj (h1.symm.trans hstarts))
  | tennis => exact congrArg List.reverse (Option.some.inj (h2.symm.trans hstarts))
  | tableTennis => exact congrArg List.reverse (Option.some.inj (h3.symm.trans hstarts))
  | football => exact congrArg List.reverse (Option.some.inj (h4.symm.trans hstarts))

theorem reply_profile_injective {data data' : ProfileData} (h : Reply.profile data = Reply.profile data') :
    data = data' := by
  cases h
  rfl

end Order

/-- The profile is in descending order exactly for a user who has booked in the order of the dates. -/
theorem sortsProfile_iff (m : Mongoose) (db : Db) (user : User) (he : db.Equipped) :
    SortsProfile m db user ↔ InsertedByDate db user := by
  obtain ⟨data, hdata⟩ := profileData_of_equipped user he
  have hrun := postProfile_run_noFaults (m := m) hdata
  constructor
  · rintro ⟨data', hsent, hsorted⟩ s f hf
    rw [hrun, List.cons.injEq] at hsent
    obtain rfl := reply_profile_injective hsent.1
    obtain ⟨-, hdesc⟩ := hsorted s f hf
    rw [profileData_starts hdata hf, List.pairwise_reverse] at hdesc
    exact hdesc
  · intro h
    refine ⟨data, by rw [hrun], fun s f hf => ?_⟩
    rw [profileData_starts hdata hf]
    exact ⟨List.reverse_perm _, List.pairwise_reverse.mpr (h s f hf)⟩

/-- The home player has booked badminton for the first of the month, and then for the third. -/
def bookedForwards : Db :=
  { club with bookings := [homeBooking, ⟨⟨1⟩, ⟨1⟩, 1, ⟨1704279600000, by decide⟩, ⟨1704279603600, by decide⟩⟩] }

theorem sortsProfile_iff_forwards : SortsProfile mongoose6 bookedForwards homePlayer := by
  refine (sortsProfile_iff mongoose6 bookedForwards homePlayer club_equipped).mpr fun s f hf => ?_
  have hsorted : ((bookedForwards.facilityOf s).all fun f =>
      decide ((startsAt bookedForwards homePlayer f).Pairwise fun a b => a.time ≤ b.time)) = true := by
    cases s <;> decide +kernel
  rw [hf] at hsorted
  exact of_decide_eq_true hsorted

/-- The home player has booked badminton for the third of the month, and then for the first. -/
def bookedBackwards : Db :=
  { club with bookings := [⟨⟨1⟩, ⟨1⟩, 1, ⟨1704279600000, by decide⟩, ⟨1704279603600, by decide⟩⟩, homeBooking] }

theorem not_sortsProfile_backwards :
    bookedBackwards.Equipped ∧ ¬SortsProfile mongoose6 bookedBackwards homePlayer := by
  refine ⟨club_equipped, ?_⟩
  rintro ⟨data, hsent, hsorted⟩
  have hdata : profileData bookedBackwards homePlayer =
      some ⟨[⟨1704106800000, by decide⟩, ⟨1704279600000, by decide⟩], [], [], []⟩ := by decide +kernel
  rw [postProfile_run_noFaults hdata, List.cons.injEq] at hsent
  obtain rfl := reply_profile_injective hsent.1
  obtain ⟨-, hdesc⟩ := hsorted .badminton ⟨⟨1⟩, some 1, some "Badminton", some 2⟩ (by decide +kernel)
  exact absurd (List.rel_of_pairwise_cons hdesc List.mem_cons_self) (by decide)

end KhelaKaro
