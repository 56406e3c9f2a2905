import KhelaKaro.Query
import KhelaKaro.Theorems.BookingProgress
import KhelaKaro.Theorems.Profile

/-! # The login gate

The gate takes the value of `email` as it comes. A string finds the user with that email and no other; a value of
another shape is a query, and the gate lets in the first user it matches. -/

namespace KhelaKaro
open Async

/-- The body names the stored user by the exact email. -/
def Named (db : Db) (body : Json) (user : User) : Prop :=
  body.prop "email" = some (.str user.email) ∧ user ∈ db.users.docs

/-- The gate calls `next()` for this user. -/
def NextCalled (m : Mongoose) (db : Db) (body : Json) (faults : Nat → Option JsError) (user : User) : Prop :=
  ∀ next, (isLoggedIn body next).run (Db.exec m) faults db = (next user).run (Db.exec m) (fun n => faults (n + 1)) db

/-- The gate and the two routes that answer for a user serve the one that the body names. -/
structure Identifies (m : Mongoose) (rt : Runtime) (db : Db) (body : Json) : Prop where
  caller : ∀ faults user, NextCalled m db body faults user → Named db body user
  bookings : ∀ faults, ∀ b ∈ ((serveBooking rt body).run (Db.exec m) faults db).store.bookings,
    b ∈ db.bookings ∨ ∃ user, Named db body user ∧ b.user = user._id
  profile : ∀ faults data, .profile data ∈ ((isLoggedIn body postProfile).run (Db.exec m) faults db).sent →
    ∃ user, Named db body user ∧
      ∀ d ∈ data.s1 ++ data.s2 ++ data.s3 ++ data.s4, ∃ b ∈ db.bookings, b.user = user._id ∧ b.startDateTime = d

def MatchesNone (m : Mongoose) (db : Db) (email : Option Json) : Prop :=
  ∀ p, m.matchEmail email = .ok p → ∀ u ∈ db.users.docs, p u.email = false

section Gate
variable {m : Mongoose} {rt : Runtime} {db : Db} {body : Json} {user : User} {faults : Nat → Option JsError}

theorem nextCalled_iff : NextCalled m db body faults user ↔ faults 0 = none ∧ db.loggedIn m body = some user := by
  constructor
  · intro h
    -- A route that throws one error for the user and another for all others tells them apart.
    have h := h fun u => .throw (if u = user then .typeError else .castError)
    rw [isLoggedIn_run_faults] at h
    split at h
    · rename_i hf hp
      cases hu : db.loggedIn m body with
      | none => simp [hu] at h
      | some u =>
        refine ⟨hf, ?_⟩
        by_contra hne
        rw [Option.some.injEq] at hne
        simp [hu, hne] at h
    · simp at h
  · rintro ⟨hf, hu⟩ next
    rw [isLoggedIn_run_faults, hf]
    cases hp : m.matchEmail (body.prop "email") with
    | error e =>
      rw [loggedIn_of_error hp] at hu
      cases hu
    | ok p => simp only [hu]

theorem loggedIn_eq_none_iff : db.loggedIn m body = none ↔ MatchesNone m db (body.prop "email") := by
  unfold MatchesNone
  cases hp : m.matchEmail (body.prop "email") with
  | error e => simp [loggedIn_of_error hp]
  | ok p => simp [loggedIn_of_ok hp]

theorem named_of_loggedIn {s : String} (hs : body.prop "email" = some (.str s)) (hu : db.loggedIn m body = some user) :
    Named db body user := by
  have hp : m.matchEmail (body.prop "email") = .ok fun e => e == s := by rw [hs, m.matchEmail_str]
  rw [loggedIn_of_ok hp] at hu
  have heq : user.email = s := by simpa using List.find?_some hu
  exact ⟨by rw [hs, heq], List.mem_of_find?_eq_some hu⟩

theorem postBooking_bookings {b : Booking}
    (hb : b ∈ ((postBooking rt body user).run (Db.exec m) faults db).store.bookings) :
    b ∈ db.bookings ∨ b.user = user._id := by
  cases hd : newDate rt (body.prop "startDateTime") with
  | error e =>
    rw [postBooking_throws hd] at hb
    exact Or.inl hb
  | ok start =>
    have hend := (postBooking_along user hd).run (Db.exec m) faults
      (S := fun db' => ∀ b ∈ db'.bookings, b ∈ db.bookings ∨ b.user = user._id) (fun b hb => Or.inl hb) ?_
    · exact hend.1 b hb
    · intro db' th op next reject fault hdb' hprogress hproc
      refine ⟨fun b hb => ?_, trivial⟩
      rw [attempt_bookings, List.mem_append, Option.mem_toList] at hb
      rcases hb with hb | hb
      · exact hdb' b hb
      · rw [hproc] at hprogress
        exact Or.inr (RouteProgress.stores hprogress hb).1

theorem serveBooking_bookings {b : Booking}
    (hb : b ∈ ((serveBooking rt body).run (Db.exec m) faults db).store.bookings) :
    b ∈ db.bookings ∨ ∃ user, db.loggedIn m body = some user ∧ b.user = user._id := by
  unfold serveBooking at hb
  rcases isLoggedIn_run_cases (postBooking rt body) faults with ⟨user, -, hu, hrun⟩ | ⟨-, sent, hrun, -⟩
  · rw [hrun] at hb
    rcases postBooking_bookings hb with hb | hb
    · exact Or.inl hb
    · exact Or.inr ⟨user, hu, hb⟩
  · rw [hrun] at hb
    exact Or.inl hb

theorem mem_sportStarts {sport : Nat} {l : List Date} (h : sportStarts db user sport = some l) {d : Date}
    (hd : d ∈ l) : ∃ b ∈ db.bookings, b.user = user._id ∧ b.startDateTime = d := by
  obtain ⟨f, -, rfl⟩ := Option.map_eq_some_iff.mp h
  obtain ⟨b, hb, rfl⟩ := List.mem_map.mp hd
  obtain ⟨hb, hmatch⟩ := List.mem_filter.mp hb
  rw [Bool.and_eq_true, beq_iff_eq, beq_iff_eq] at hmatch
  exact ⟨b, hb, hmatch.2, rfl⟩

theorem mem_profileData {data : ProfileData} (h : profileData db user = some data) :
    ∀ d ∈ data.s1 ++ data.s2 ++ data.s3 ++ data.s4, ∃ b ∈ db.bookings, b.user = user._id ∧ b.startDateTime = d := by
  obtain ⟨s1, s2, s3, s4, h1, h2, h3, h4, rfl⟩ := profileData_eq_some h
  intro d hd
  simp only [List.mem_append, List.mem_reverse] at hd
  rcases hd with ((hd | hd) | hd) | hd
  · exact mem_sportStarts h1 hd
  · exact mem_sportStarts h2 hd
  · exact mem_sportStarts h3 hd
  · exact mem_sportStarts h4 hd

theorem serveProfile_sent {data : ProfileData}
    (h : .profile data ∈ ((isLoggedIn body postProfile).run (Db.exec m) faults db).sent) :
    ∃ user, db.loggedIn m body = some user ∧ profileData db user = some data := by
  rcases isLoggedIn_run_cases postProfile faults with ⟨user, -, hu, hrun⟩ | ⟨-, sent, hrun, hsent⟩
  · rw [hrun] at h
    rcases postProfile_run m db user fun n => faults (n + 1) with hroute | ⟨data', hdata, hroute⟩
    · rw [hroute] at h
      simp [Reply.profile, Reply.serverError, Reply.message] at h
    · rw [hroute] at h
      simp only [Reply.profile, List.mem_singleton, Reply.mk.injEq, Body.object.injEq, Option.some.injEq,
        true_and] at h
      exact ⟨user, hu, by rw [h]; exact hdata⟩
  · rw [hrun] at h
    cases hsent _ h

end Gate

/-- The gate identifies the caller exactly when the email is a string or matches no stored user. -/
theorem identifies_iff (m : Mongoose) (rt : Runtime) (db : Db) (body : Json) :
    Identifies m rt db body ↔
      (∃ s, body.prop "email" = some (.str s)) ∨ MatchesNone m db (body.prop "email") := by
  constructor
  · intro h
    rw [← loggedIn_eq_none_iff]
    cases hu : db.loggedIn m body with
    | none => exact Or.inr rfl
    | some user =>
      exact Or.inl ⟨user.email, (h.caller (fun _ => none) user (nextCalled_iff.mpr ⟨rfl, hu⟩)).1⟩
  · intro h
    -- Whoever is let in is named by the body.
    have hnamed : ∀ user, db.loggedIn m body = some user → Named db body user := by
      intro user hu
      rcases h with ⟨s, hs⟩ | hnone
      · exact named_of_loggedIn hs hu
      · rw [loggedIn_eq_none_iff.mpr hnone] at hu
        cases hu
    refine ⟨fun faults user hnext => hnamed user (nextCalled_iff.mp hnext).2, fun faults b hb => ?_,
      fun faults data hdata => ?_⟩
    · rcases serveBooking_bookings hb with hb | ⟨user, hu, hb⟩
      · exact Or.inl hb
      · exact Or.inr ⟨user, hnamed user hu, hb⟩
    · obtain ⟨user, hu, hprofile⟩ := serveProfile_sent hdata
      exact ⟨user, hnamed user hu, mem_profileData hprofile⟩

/-- Every user but the one with an empty email -/
def anyUser : Json := .obj [("email", .obj [("$ne", .str "")])]

theorem not_identifies_club : ¬Identifies mongoose6 utc.runtime club anyUser := by
  intro h
  have hnext : NextCalled mongoose6 club anyUser (fun _ => none) homePlayer :=
    nextCalled_iff.mpr ⟨rfl, by decide +kernel⟩
  have hemail := (h.caller _ _ hnext).1
  cases hemail

end KhelaKaro
