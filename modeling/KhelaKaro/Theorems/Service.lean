import KhelaKaro.Async.Trace
import KhelaKaro.Theorems.BookingRace
import KhelaKaro.Theorems.Traffic

/-! # The server

Any mix of requests on one server, in any order of their calls and with any calls failing. Documents are only added,
so an answer is good for all later queries (`serverPool_remembers`); what refers to a document refers to one that is
there (`serverPool_sound`); each document that is added is reported by the one reply of its request, and each report
stands for a document (`serverPool_size`). -/

namespace KhelaKaro
open Async

/-! ### Answers that stay good -/

/-- What the call was answered, or did, is seen in the database. -/
structure Attested (m : Mongoose) (db : Db) (c : Call Http) : Prop where
  user : ∀ v user, c = ⟨.userFindOne v, .ok (some user)⟩ →
    ∃ p, m.matchEmail v = .ok p ∧ db.users.docs.find? (p ·.email) = some user
  facility : ∀ v facility, c = ⟨.facilityFindOne v, .ok (some facility)⟩ →
    ∃ p, m.matchFacilityId v = .ok p ∧ db.facilities.docs.find? (p ·.facilityId) = some facility
  saved : ∀ doc email, c = ⟨.userSave doc, .ok ()⟩ → doc.email = some (.str email) →
    ∃ user, Describes m doc user ∧ db.users.docs.find? (·.email == email) = some user

/-- The later call finds the user or the facility that the earlier one has found, and the user it has saved. -/
structure Remembers (m : Mongoose) (c c' : Call Http) : Prop where
  user : ∀ v user answer, c = ⟨.userFindOne v, .ok (some user)⟩ → c' = ⟨.userFindOne v, .ok answer⟩ →
    answer = some user
  facility : ∀ v facility answer, c = ⟨.facilityFindOne v, .ok (some facility)⟩ →
    c' = ⟨.facilityFindOne v, .ok answer⟩ → answer = some facility
  registered : ∀ doc email answer, c = ⟨.userSave doc, .ok ()⟩ → doc.email = some (.str email) →
    c' = ⟨.userFindOne (some (.str email)), .ok answer⟩ → ∃ user, answer = some user ∧ Describes m doc user

section Remembers
variable {m : Mongoose} {db : Db} {fault : Option JsError} {op : Op} {c : Call Http}

theorem attempt_users_grow : db.users.docs <+: (Proc.attempt (Db.exec m) fault db op).1.users.docs := by
  rcases attempt_users m fault db op with ⟨hu, -⟩ | ⟨doc, user, -, -, -, hu⟩
  · exact hu ▸ List.prefix_rfl
  · exact hu ▸ List.prefix_append _ _

theorem Attested.mono (h : Attested m db c) : Attested m (Proc.attempt (Db.exec m) fault db op).1 c where
  user v user hc := by
    obtain ⟨p, hp, hfind⟩ := h.user v user hc
    exact ⟨p, hp, attempt_users_grow.find?_eq_some hfind⟩
  facility v facility hc := by
    obtain ⟨p, hp, hfind⟩ := h.facility v facility hc
    exact ⟨p, hp, (attempt_facilities m fault db op).find?_eq_some hfind⟩
  saved doc email hc hemail := by
    obtain ⟨user, hd, hfind⟩ := h.saved doc email hc hemail
    exact ⟨user, hd, attempt_users_grow.find?_eq_some hfind⟩

/-- An answer without an error is one of the database. -/
theorem answer_of_attempt {answer : op.Ans} (h : (Proc.attempt (Db.exec m) fault db op).2 = .ok answer) :
    Proc.attempt (Db.exec m) fault db op = Db.exec m db op ∧ (Db.exec m db op).2 = .ok answer := by
  cases fault with
  | some e => cases h
  | none => exact ⟨rfl, h⟩

theorem find_of_answer {v : Option Json} {answer : Option User}
    (h : (Proc.attempt (Db.exec m) fault db (.userFindOne v)).2 = .ok answer) :
    ∃ p, m.matchEmail v = .ok p ∧ db.users.docs.find? (p ·.email) = answer := by
  obtain ⟨-, h⟩ := answer_of_attempt h
  cases hp : m.matchEmail v with
  | error e =>
    rw [exec_userFindOne_error hp] at h
    cases h
  | ok p =>
    rw [exec_userFindOne hp, Except.ok.injEq] at h
    exact ⟨p, rfl, h⟩

theorem locate_of_answer {v : Option Json} {answer : Option Facility}
    (h : (Proc.attempt (Db.exec m) fault db (.facilityFindOne v)).2 = .ok answer) :
    ∃ p, m.matchFacilityId v = .ok p ∧ db.facilities.docs.find? (p ·.facilityId) = answer := by
  obtain ⟨-, h⟩ := answer_of_attempt h
  cases hp : m.matchFacilityId v with
  | error e =>
    rw [exec_facilityFindOne_error hp] at h
    cases h
  | ok p =>
    rw [exec_facilityFindOne hp, Except.ok.injEq] at h
    exact ⟨p, rfl, h⟩

theorem attested_attempt :
    Attested m (Proc.attempt (Db.exec m) fault db op).1 ⟨op, (Proc.attempt (Db.exec m) fault db op).2⟩ where
  user v user hc := by
    obtain ⟨rfl, hanswer⟩ := Call.mk.inj hc
    obtain ⟨p, hp, hfind⟩ := find_of_answer (eq_of_heq hanswer)
    exact ⟨p, hp, attempt_users_grow.find?_eq_some hfind⟩
  facility v facility hc := by
    obtain ⟨rfl, hanswer⟩ := Call.mk.inj hc
    obtain ⟨p, hp, hfind⟩ := locate_of_answer (eq_of_heq hanswer)
    exact ⟨p, hp, (attempt_facilities m fault db _).find?_eq_some hfind⟩
  saved doc email hc hemail := by
    rcases attempt_users m fault db op with ⟨-, hnot⟩ | ⟨doc', user, hc', hd, hfresh, husers⟩
    · exact absurd hc (hnot doc)
    rw [hc'] at hc
    obtain ⟨hdoc, -⟩ := Call.mk.inj hc
    obtain rfl := Op.userSave.inj hdoc
    have hfields := hd.email
    rw [hemail] at hfields
    obtain rfl := eq_of_requiredString hfields
    have hnone : db.users.docs.find? (·.email == user.email) = none := by
      rw [List.find?_eq_none]
      intro u hu
      simpa using hfresh u hu
    refine ⟨user, hd, ?_⟩
    rw [husers, List.find?_append, hnone, Option.none_or, List.find?_singleton, beq_self_eq_true, if_pos rfl]

theorem Attested.remembers (h : Attested m db c) : Remembers m c ⟨op, (Proc.attempt (Db.exec m) fault db op).2⟩ where
  user v user answer hc hc' := by
    obtain ⟨rfl, hanswer⟩ := Call.mk.inj hc'
    obtain ⟨p, hp, hfind⟩ := h.user v user hc
    obtain ⟨p', hp', hfind'⟩ := find_of_answer (eq_of_heq hanswer)
    rw [hp, Except.ok.injEq] at hp'
    rw [← hfind', ← hp', hfind]
  facility v facility answer hc hc' := by
    obtain ⟨rfl, hanswer⟩ := Call.mk.inj hc'
    obtain ⟨p, hp, hfind⟩ := h.facility v facility hc
    obtain ⟨p', hp', hfind'⟩ := locate_of_answer (eq_of_heq hanswer)
    rw [hp, Except.ok.injEq] at hp'
    rw [← hfind', ← hp', hfind]
  registered doc email answer hc hemail hc' := by
    obtain ⟨rfl, hanswer⟩ := Call.mk.inj hc'
    obtain ⟨user, hd, hfind⟩ := h.saved doc email hc hemail
    obtain ⟨p, hp, hfind'⟩ := find_of_answer (eq_of_heq hanswer)
    rw [m.matchEmail_str, Except.ok.injEq] at hp
    subst hp
    exact ⟨user, hfind'.symm.trans hfind, hd⟩

end Remembers

section Service
variable {m : Mongoose} {rt : Runtime} {db : Db} {rs : List Request} {ts : List (Turn Http)} {i : Nat}
  {th : Thread Http Unit}

theorem trace_remembers (m : Mongoose) (p : Pool Http Db Unit) (ts : List (Turn Http)) :
    (p.trace (Db.exec m) ts).Pairwise fun e e' => Remembers m e.2 e'.2 :=
  (Pool.trace_pairwise (fun _ _ _ _ h => Attested.mono h) (fun _ _ _ => attested_attempt)
    fun _ _ _ _ h => Attested.remembers h).2

theorem serverPool_attested (hi : ((serverPool rt db rs).runs (Db.exec m) ts).threads[i]? = some th) :
    ∀ c ∈ th.calls, Attested m ((serverPool rt db rs).runs (Db.exec m) ts).store c := fun _ hc =>
  Pool.runs_calls (fun _ _ _ _ h => Attested.mono h) db _ ts (fun _ _ _ _ => attested_attempt) hi hc

/-! ### From registration to name -/

/-- What a handler of `getname` was answered, and has sent, when it has ended -/
inductive NameAnswer (body : Json) : List (Call Http) → List Reply → Prop where
  | gateFailed (e : JsError) : NameAnswer body [⟨.userFindOne (body.prop "email"), .error e⟩]
      [.message false "Email is not valid. Please log in again." 401]
  | unknown : NameAnswer body [identified body none] []
  | lookFailed (user : User) (e : JsError) :
    NameAnswer body [identified body (some user), ⟨.userFindOne (body.prop "email"), .error e⟩] [.serverError]
  | vanished (user : User) : NameAnswer body [identified body (some user), identified body none] []
  | named (user user' : User) : NameAnswer body [identified body (some user), identified body (some user')]
      [.message true (user'.firstName ++ " " ++ user'.lastName)]

theorem getName_along {body : Json} : (Route.getName.serve rt body).Along (fun _ => True)
    (fun th => th.finished = true → NameAnswer body th.calls th.sent) [] [] := by
  refine ⟨nofun, fun user _ => ?_, fun e _ _ => .gateFailed e⟩
  cases user with
  | none => exact fun _ => .unknown
  | some user =>
  refine ⟨nofun, fun user' _ => ?_, fun e _ _ => .lookFailed user e⟩
  cases user' with
  | none => exact fun _ => .vanished user
  | some user' => exact fun _ => .named user user'

/-- Who asks for a name after a registration with its email went through is answered the name that was registered,
    whatever the requests in between, unless a call fails. -/
theorem getName_registered (m : Mongoose) (rt : Runtime) (db : Db) (rs : List Request) (ts : List (Turn Http))
    {i j : Nat} {body body' : Json} {email : String} (hemail : body.prop "email" = some (.str email))
    {before after : List (Nat × Call Http)} (htrace : (serverPool rt db rs).trace (Db.exec m) ts =
      before ++ (i, ⟨.userSave (registerDraft body), .ok ()⟩) :: after)
    (hj : rs[j]? = some (.route .getName body')) (hemail' : body'.prop "email" = some (.str email))
    (hlater : ∀ c, (j, c) ∉ before) (hth : ((serverPool rt db rs).runs (Db.exec m) ts).threads[j]? = some th)
    (hend : th.finished = true) (hok : ∀ c ∈ th.calls, ∃ a, c.answer = .ok a) :
    ∃ user : User, Describes m (registerDraft body) user ∧
      th.sent = [.message true (user.firstName ++ " " ++ user.lastName)] := by
  have hremembers := trace_remembers m (serverPool rt db rs) ts
  rw [htrace, List.pairwise_append, List.pairwise_cons] at hremembers
  obtain ⟨-, ⟨hafter, -⟩, -⟩ := hremembers
  -- Each look at the user comes after the save.
  have hfound : ∀ answer, identified body' answer ∈ th.calls →
      ∃ user, answer = some user ∧ Describes m (registerDraft body) user := by
    intro answer hc
    have hmem : (j, identified body' answer) ∈ (serverPool rt db rs).trace (Db.exec m) ts :=
      (Pool.mem_trace_iff hth).mpr hc
    rw [htrace, List.mem_append, List.mem_cons] at hmem
    rcases hmem with hmem | hmem | hmem
    · exact absurd hmem (hlater _)
    · cases (Prod.mk.inj hmem).2
    · refine (hafter _ hmem).registered _ email answer rfl hemail ?_
      rw [identified, hemail']
  have hanswer := serverPool_along hth hj getName_along hend
  obtain ⟨calls, sent, proc⟩ := th
  dsimp only at hfound hok hanswer ⊢
  cases hanswer with
  | gateFailed e =>
    obtain ⟨a, ha⟩ := hok _ (List.mem_singleton_self _)
    cases ha
  | lookFailed user e =>
    obtain ⟨a, ha⟩ := hok _ (List.mem_cons_of_mem _ (List.mem_singleton_self _))
    cases ha
  | unknown =>
    obtain ⟨user, hnone, -⟩ := hfound none (by simp)
    cases hnone
  | vanished user =>
    obtain ⟨user, hnone, -⟩ := hfound none (by simp)
    cases hnone
  | named user user' =>
    obtain ⟨found, hsome, hd⟩ := hfound (some user') (by simp)
    obtain rfl := Option.some.inj hsome
    exact ⟨user', hd, rfl⟩

def newcomerGreeted : List Request :=
  [.register (newcomer "First"), .route .getName (profileParameters "new@club.test")]

def greetedTurns : List (Turn Http) := [⟨0, none⟩, ⟨0, none⟩, ⟨1, none⟩, ⟨1, none⟩]

theorem getName_registered_club : ∃ (th : Thread Http Unit) (user : User),
    ((serverPool utc.runtime club newcomerGreeted).runs (Db.exec mongoose6) greetedTurns).threads[1]? = some th ∧
      Describes mongoose6 (registerDraft (newcomer "First")) user ∧
      th.sent = [.message true (user.firstName ++ " " ++ user.lastName)] := by
  have hdone : (((serverPool utc.runtime club newcomerGreeted).runs (Db.exec mongoose6) greetedTurns).threads.all
      fun th => th.finished && th.calls.all fun c => c.answer.isOk) = true := by decide +kernel
  obtain ⟨th, hth⟩ : ∃ th,
      ((serverPool utc.runtime club newcomerGreeted).runs (Db.exec mongoose6) greetedTurns).threads[1]? = some th :=
    ⟨_, rfl⟩
  have hdone := List.all_eq_true.mp hdone th (List.mem_of_getElem? hth)
  rw [Bool.and_eq_true, List.all_eq_true] at hdone
  have htrace : (serverPool utc.runtime club newcomerGreeted).trace (Db.exec mongoose6) greetedTurns =
      [(0, ⟨.userFindOne (some (.str "new@club.test")), .ok none⟩)] ++
        (0, ⟨.userSave (registerDraft (newcomer "First")), .ok ()⟩) ::
          List.replicate 2 (1, ⟨.userFindOne (some (.str "new@club.test")),
            .ok (some ⟨⟨3⟩, "First", "Player", "new@club.test", some "0123456789"⟩)⟩) := rfl
  obtain ⟨user, hd, hsent⟩ := getName_registered mongoose6 utc.runtime club newcomerGreeted greetedTurns rfl htrace rfl
    rfl (by simp) hth hdone.1 fun c hc => by
      have hok := hdone.2 c hc
      cases ha : c.answer with
      | ok a => exact ⟨a, rfl⟩
      | error e =>
        rw [ha] at hok
        cases hok
  exact ⟨th, user, hth, hd, hsent⟩

/-! ### References -/

/-- What a booking refers to is there, and no email stands for two users. -/
structure Db.Sound (db : Db) : Prop where
  emails : (db.users.docs.map User.email).Nodup
  named : ∀ u ∈ db.users.docs, u.firstName ≠ "" ∧ u.lastName ≠ "" ∧ u.email ≠ ""
  users : ∀ b ∈ db.bookings, ∃ u ∈ db.users.docs, u._id = b.user
  facilities : ∀ b ∈ db.bookings, ∃ f ∈ db.facilities.docs, f._id = b.facility
  slotted : db.Slotted

theorem ne_empty_of_requiredString {v : Option Json} {s : String} (h : m.requiredString v = .ok s) : s ≠ "" := by
  unfold Mongoose.requiredString at h
  cases hv : Mongoose.castField m.castString v with
  | error e => simp [hv, error_bind] at h
  | ok o =>
  cases o with
  | none => simp [hv, ok_bind] at h
  | some t =>
    simp only [hv, ok_bind] at h
    split at h
    · cases h
    · rename_i hne
      obtain rfl := Except.ok.inj h
      exact hne

theorem serverPool_users (m : Mongoose) (rt : Runtime) (rs : List Request) (ts : List (Turn Http))
    (h : (db.users.docs.map User.email).Nodup ∧
      ∀ u ∈ db.users.docs, u.firstName ≠ "" ∧ u.lastName ≠ "" ∧ u.email ≠ "") :
    (((serverPool rt db rs).runs (Db.exec m) ts).store.users.docs.map User.email).Nodup ∧
      ∀ u ∈ ((serverPool rt db rs).runs (Db.exec m) ts).store.users.docs,
        u.firstName ≠ "" ∧ u.lastName ≠ "" ∧ u.email ≠ "" := by
  refine Pool.runs_induction (Q := fun q : Pool Http Db Unit => (q.store.users.docs.map User.email).Nodup ∧
    ∀ u ∈ q.store.users.docs, u.firstName ≠ "" ∧ u.lastName ≠ "" ∧ u.email ≠ "") h (fun q t hq => ?_) ts
  rcases Pool.step_cases (Db.exec m) q t with ⟨-, hst⟩ | ⟨th, op, next, reject, -, -, -, hst, -⟩
  · rw [hst]
    exact hq
  rw [hst]
  rcases attempt_users m t.fault q.store op with ⟨hu, -⟩ | ⟨doc, user, -, hd, hfresh, hu⟩
  · rw [hu]
    exact hq
  obtain ⟨hnodup, hnamed⟩ := hq
  rw [hu]
  refine ⟨?_, fun u hmem => ?_⟩
  · rw [List.map_append, List.nodup_append]
    refine ⟨hnodup, List.nodup_singleton _, fun e he e' he' hee => ?_⟩
    obtain ⟨u, hmem, rfl⟩ := List.mem_map.mp he
    rw [List.map_singleton, List.mem_singleton] at he'
    exact hfresh u hmem (hee.trans he')
  · rcases List.mem_append.mp hmem with hmem | hmem
    · exact hnamed u hmem
    · obtain rfl := List.mem_singleton.mp hmem
      exact ⟨ne_empty_of_requiredString hd.firstName, ne_empty_of_requiredString hd.lastName,
        ne_empty_of_requiredString hd.email⟩

/-- A handler that has stored a booking has found its user and its facility, and has sent the court. -/
theorem BookingProgress.stored {body : Json} {calls : List (Call Http)} {sent : List Reply} {stage : Stage Http}
    (h : BookingProgress rt body calls sent stage) {c : Call Http} (hc : c ∈ calls) {b : Booking}
    (hb : storedBooking c = some b) : ∃ user facility start court, identified body (some user) ∈ calls ∧
      located body (some facility) ∈ calls ∧ newDate rt (body.prop "startDateTime") = .ok start ∧
      (draft user start facility court).booking = some b ∧ sent = [.booked court] := by
  cases h with
  | gate => cases hc
  | rejected e =>
    obtain rfl := List.mem_singleton.mp hc
    cases hb
  | unknown =>
    obtain rfl := List.mem_singleton.mp hc
    cases hb
  | thrown user e =>
    obtain rfl := List.mem_singleton.mp hc
    cases hb
  | route user start hd hr =>
    have hnot : (∀ c ∈ calls, storedBooking c = none) → False := fun hnone => by
      rw [hnone c hc] at hb
      cases hb
    cases hr with
    | listing => exact (hnot (by simp)).elim
    | locating mine => exact (hnot (by simp)).elim
    | fetching mine facility ref => exact (hnot (by simp)).elim
    | checking mine facility ref read => exact (hnot (by simp)).elim
    | comparing mine facility ref read => exact (hnot (by simp)).elim
    | saving mine facility ref read sport court => exact (hnot (by simp)).elim
    | refused calls reply hcalls hreply => exact (hnot (by simpa using hcalls)).elim
    | booked mine facility ref read sport court =>
      refine ⟨user, facility, start, court, by simp, by simp, hd, ?_, rfl⟩
      simp only [List.mem_cons, List.not_mem_nil, or_false] at hc
      rcases hc with rfl | rfl | rfl | rfl | rfl | rfl | rfl
      all_goals first | exact hb | cases hb

theorem serveBooking_booking {c : Call Http} {b : Booking} {r : Request}
    (hi : ((serverPool rt db rs).runs (Db.exec m) ts).threads[i]? = some th) (hr : rs[i]? = some r)
    (hc : c ∈ th.calls) (hb : storedBooking c = some b) :
    ∃ body, r = .route .booking body ∧ BookingProgress rt body th.calls th.sent th.proc.stage := by
  have hno : ∀ t : Proc Http Unit, t = r.serve rt → t.Calls Op.StoresNoBooking → False := by
    rintro t rfl ht
    have hall := serverPool_along hi hr (ht.along List.prefix_rfl fun c hc => absurd hc List.not_mem_nil)
    have hop := hall.2 c hc
    unfold storedBooking at hb
    split at hb
    · exact hop
    · cases hb
  cases r with
  | register body => exact (hno _ rfl postRegister_storesNoBooking).elim
  | route r body =>
  rcases eq_or_ne r .booking with rfl | hne
  · exact ⟨body, rfl, serverPool_along hi hr serveBooking_along⟩
  · exact (hno _ rfl (Route.storesNoBooking hne)).elim

theorem draft_ends {user : User} {start : Option Date} {facility : Facility} {court : Nat} {b : Booking}
    (h : (draft user start facility court).booking = some b) :
    b.endDateTime.time = b.startDateTime.time + slotLength := by
  obtain ⟨-, -, rfl⟩ := booking_draft h
  simp only [BookingDraft.booking, draft, getTime, toDate_time] at h
  cases hend : endOf b.startDateTime with
  | none =>
    unfold endOf at hend
    simp only [hend] at h
    cases h
  | some stop =>
    have htime := endOf_time hend
    unfold endOf at hend
    simp only [hend, Option.some.injEq] at h
    rw [← h]
    exact htime

/-- Every booking that is added is the one of a request that has found its user and its facility. -/
theorem serverPool_bookings (b : Booking) :
    b ∈ ((serverPool rt db rs).runs (Db.exec m) ts).store.bookings ↔ b ∈ db.bookings ∨
      ∃ (i : Nat) (th : Thread Http Unit) (c : Call Http),
        ((serverPool rt db rs).runs (Db.exec m) ts).threads[i]? = some th ∧ c ∈ th.calls ∧
          storedBooking c = some b := by
  have hstart : (serverPool rt db rs).store = db := rfl
  rw [runs_bookings, hstart, List.mem_append]
  refine or_congr Iff.rfl ?_
  rw [List.mem_filterMap]
  constructor
  · rintro ⟨⟨i, c⟩, hmem, hb⟩
    obtain ⟨th, hth⟩ := Pool.thread_of_mem_trace hmem
    exact ⟨i, th, c, hth, (Pool.mem_trace_iff hth).mp hmem, hb⟩
  · rintro ⟨i, th, c, hth, hc, hb⟩
    exact ⟨(i, c), (Pool.mem_trace_iff hth).mpr hc, hb⟩

theorem serverPool_grow (m : Mongoose) (rt : Runtime) (db : Db) (rs : List Request) (ts : List (Turn Http)) :
    db.users.docs <+: ((serverPool rt db rs).runs (Db.exec m) ts).store.users.docs ∧
    db.facilities.docs <+: ((serverPool rt db rs).runs (Db.exec m) ts).store.facilities.docs := by
  refine Pool.runs_induction (Q := fun q : Pool Http Db Unit => db.users.docs <+: q.store.users.docs ∧
    db.facilities.docs <+: q.store.facilities.docs) ⟨List.prefix_rfl, List.prefix_rfl⟩ (fun q t hq => ?_) ts
  rcases Pool.step_cases (Db.exec m) q t with ⟨-, hst⟩ | ⟨th, op, next, reject, -, -, -, hst, -⟩
  · rw [hst]
    exact hq
  · rw [hst]
    exact ⟨hq.1.trans attempt_users_grow, hq.2.trans (attempt_facilities _ _ _ _)⟩

/-- No schedule leaves a booking without its user or its facility, or two users with one email. -/
theorem serverPool_sound (m : Mongoose) (rt : Runtime) (db : Db) (rs : List Request) (ts : List (Turn Http))
    (h : db.Sound) : ((serverPool rt db rs).runs (Db.exec m) ts).store.Sound := by
  obtain ⟨hemails, hnamed⟩ := serverPool_users m rt rs ts ⟨h.emails, h.named⟩
  obtain ⟨husers, hfacilities⟩ := serverPool_grow m rt db rs ts
  have hplaced : ∀ b ∈ ((serverPool rt db rs).runs (Db.exec m) ts).store.bookings,
      (∃ u ∈ ((serverPool rt db rs).runs (Db.exec m) ts).store.users.docs, u._id = b.user) ∧
      (∃ f ∈ ((serverPool rt db rs).runs (Db.exec m) ts).store.facilities.docs, f._id = b.facility) ∧
      b.endDateTime.time = b.startDateTime.time + slotLength := by
    intro b hb
    rcases (serverPool_bookings b).mp hb with hold | ⟨i, th, c, hth, hc, hb⟩
    · obtain ⟨u, hu, hid⟩ := h.users b hold
      obtain ⟨f, hf, hid'⟩ := h.facilities b hold
      exact ⟨⟨u, husers.subset hu, hid⟩, ⟨f, hfacilities.subset hf, hid'⟩, h.slotted b hold⟩
    · obtain ⟨r, hr⟩ := serverPool_request hth
      obtain ⟨body, rfl, hprogress⟩ := serveBooking_booking hth hr hc hb
      obtain ⟨user, facility, start, court, huser, hfacility, -, hdraft, -⟩ := hprogress.stored hc hb
      obtain ⟨p, -, hfind⟩ := (serverPool_attested hth _ huser).user _ _ rfl
      obtain ⟨p', -, hfind'⟩ := (serverPool_attested hth _ hfacility).facility _ _ rfl
      obtain ⟨hid, hid', -⟩ := booking_draft hdraft
      exact ⟨⟨user, List.mem_of_find?_eq_some hfind, hid.symm⟩, ⟨facility, List.mem_of_find?_eq_some hfind', hid'.symm⟩,
        draft_ends hdraft⟩
  exact ⟨hemails, hnamed, fun b hb => (hplaced b hb).1, fun b hb => (hplaced b hb).2.1, fun b hb => (hplaced b hb).2.2⟩

theorem serverPool_sound_club :
    ((serverPool utc.runtime club homeAndAway).runs (Db.exec mongoose6) inTurns).store.Sound :=
  serverPool_sound mongoose6 utc.runtime club homeAndAway inTurns
    ⟨by decide, by decide, nofun, nofun, Db.Slotted.of_nil rfl⟩

/-! ### Reports -/

/-- The numbers of users, facilities and bookings -/
def Db.size (db : Db) : ℕ × ℕ × ℕ := (db.users.docs.length, db.facilities.docs.length, db.bookings.length)

/-- The documents that a call adds -/
def adds : Call Http → ℕ × ℕ × ℕ
  | ⟨.userSave _, .ok _⟩ => (1, 0, 0)
  | ⟨.facilitySave _, .ok _⟩ => (0, 1, 0)
  | ⟨.bookingSave _, .ok _⟩ => (0, 0, 1)
  | _ => 0

theorem saveFacility_append {db' : Db} {doc : FacilityDraft} (h : m.saveFacility db doc = .ok db') :
    ∃ facility, db'.facilities.docs = db.facilities.docs ++ [facility] ∧ db'.users = db.users ∧
      db'.bookings = db.bookings := by
  unfold Mongoose.saveFacility at h
  simp only [bind, Except.bind] at h
  split at h
  · cases h
  split at h
  · cases h
  split at h
  · cases h
  cases h
  exact ⟨_, rfl, rfl, rfl⟩

theorem attempt_size (fault : Option JsError) (db : Db) (op : Op) :
    (Proc.attempt (Db.exec m) fault db op).1.size =
      db.size + adds ⟨op, (Proc.attempt (Db.exec m) fault db op).2⟩ := by
  cases fault with
  | some e =>
    cases op with
    | userSave doc => rfl
    | facilitySave doc => rfl
    | _ => rfl
  | none =>
  rw [Proc.attempt_none]
  cases op with
  | userSave doc =>
    cases h : m.saveUser db doc with
    | error e =>
      simp only [Db.exec, h, Db.saved]
      rfl
    | ok db' =>
      obtain ⟨user, -, -, husers, hfacilities, hbookings⟩ := saveUser_eq_ok h
      simp only [Db.exec, h, Db.saved, Db.size, husers, hfacilities, hbookings, List.length_append]
      rfl
  | facilitySave doc =>
    cases h : m.saveFacility db doc with
    | error e =>
      simp only [Db.exec, h, Db.saved]
      rfl
    | ok db' =>
      obtain ⟨facility, hfacilities, husers, hbookings⟩ := saveFacility_append h
      simp only [Db.exec, h, Db.saved, Db.size, husers, hfacilities, hbookings, List.length_append]
      rfl
  | bookingSave doc =>
    cases h : db.saveBooking doc with
    | error e =>
      simp only [Db.exec, h, Db.saved]
      rfl
    | ok db' =>
      obtain ⟨b, -, rfl⟩ := saveBooking_eq_ok h
      simp only [Db.exec, h, Db.saved, Db.size, List.length_append]
      rfl
  | _ => rfl

def Reply.added : Reply := message true "Added successfully."

/-- The documents that a reply to the request reports as added -/
def Request.reports : Request → Reply → ℕ × ℕ × ℕ
  | .register _, r => if r = .registered then (1, 0, 0) else 0
  | .route .facilityAdd _, r => if r = .added then (0, 1, 0) else 0
  | .route .booking _, r => if r.courtNumber.isSome then (0, 0, 1) else 0
  | .route _ _, _ => 0

/-- The thread has added what it has reported. -/
def Request.Reported (r : Request) (th : Thread Http Unit) : Prop :=
  (th.calls.map adds).sum = (th.sent.map r.reports).sum

theorem postRegister_reported {body : Json} :
    (postRegister body).Along (fun _ => True) (Request.register body).Reported [] [] := by
  refine ⟨rfl, fun user _ => ?_, fun e _ => rfl⟩
  cases user with
  | some user => rfl
  | none => exact ⟨rfl, fun _ _ => rfl, fun e _ => rfl⟩

theorem facilityAdd_reported {body : Json} : (Route.facilityAdd.serve rt body).Along (fun _ => True)
    (Request.route .facilityAdd body).Reported [] [] := by
  refine ⟨rfl, fun user _ => ?_, fun e _ => rfl⟩
  cases user with
  | none => rfl
  | some user => exact ⟨rfl, fun _ _ => rfl, fun e _ => rfl⟩

theorem postBooking_reported {body : Json} {user : User} {start : Option Date}
    (h : newDate rt (body.prop "startDateTime") = .ok start) : (postBooking rt body user).Along (fun _ => True)
      (Request.route .booking body).Reported [identified body (some user)] [] := by
  rw [postBooking_eq h]
  refine ⟨rfl, fun mine _ => ⟨rfl, fun facility _ => ?_, fun e _ => rfl⟩, fun e _ => rfl⟩
  cases Json.get (body.prop "facilityId") "_id" with
  | error e => rfl
  | ok ref =>
  refine ⟨rfl, fun read _ => ⟨rfl, fun b _ => ?_, fun e _ => rfl⟩, fun e _ => rfl⟩
  cases b with
  | some b => rfl
  | none =>
  cases facility with
  | none => rfl
  | some facility =>
  refine ⟨rfl, fun sport _ => ?_, fun e _ => rfl⟩
  dsimp only
  split
  · rfl
  cases allocate (getTime start) (getTime start + .val slotLength) facility.count read with
  | none => rfl
  | some court => exact ⟨rfl, fun _ _ => rfl, fun e _ => rfl⟩

theorem adds_query {c : Call Http} (h : ¬c.op.Saves) : adds c = 0 := by
  unfold adds
  split <;> first | rfl | exact absurd trivial h

theorem query_reported {r : Route} {body : Json} (hb : r ≠ .booking) (hf : r ≠ .facilityAdd) :
    (r.serve rt body).Along (fun _ => True) (Request.route r body).Reported [] [] := by
  refine ((Route.serve_queries hb hf).along List.prefix_rfl fun c hc => absurd hc List.not_mem_nil).mono
    fun th hth => ?_
  have hreports : (Request.route r body).reports = fun _ => 0 := by
    cases r <;> first | rfl | exact absurd rfl hb | exact absurd rfl hf
  have hadds : th.calls.map adds = th.calls.map fun _ => 0 := List.map_congr_left fun c hc => adds_query (hth.2 c hc)
  simp [Request.Reported, hreports, hadds]

theorem Request.serve_reported (r : Request) : (r.serve rt).Along (fun _ => True) r.Reported [] [] := by
  cases r with
  | register body => exact postRegister_reported
  | route r body =>
  rcases eq_or_ne r .facilityAdd with rfl | hf
  · exact facilityAdd_reported
  rcases eq_or_ne r .booking with rfl | hb
  · refine ⟨rfl, fun user _ => ?_, fun e _ => rfl⟩
    cases user with
    | none => rfl
    | some user =>
    cases h : newDate rt (body.prop "startDateTime") with
    | error e =>
      simp only [Route.handler, postBooking_throws h]
      rfl
    | ok start => exact postBooking_reported h
  · exact query_reported hb hf

/-- In every state of every schedule the documents that were added are those that were reported. -/
theorem serverPool_size (m : Mongoose) (rt : Runtime) (db : Db) (rs : List Request) (ts : List (Turn Http)) :
    ((serverPool rt db rs).runs (Db.exec m) ts).store.size = db.size +
      (List.zipWith (fun (r : Request) (th : Thread Http Unit) => (th.sent.map r.reports).sum) rs
        ((serverPool rt db rs).runs (Db.exec m) ts).threads).sum := by
  have htotal := Pool.runs_total Db.size adds (fun fault db op => attempt_size (m := m) fault db op) db
    (rs.map (Request.serve rt)) ts
  have hlength : ((serverPool rt db rs).runs (Db.exec m) ts).threads.length = rs.length := by
    rw [Pool.runs_length, serverPool, Pool.start, List.length_map, List.length_map]
  refine htotal.trans (congrArg (db.size + ·) (congrArg List.sum (List.ext_getElem ?_ fun i h h' => ?_)))
  · rw [List.length_map, List.length_zipWith, hlength, Nat.min_self]
    exact hlength
  · rw [List.getElem_map, List.getElem_zipWith]
    rw [List.length_map] at h
    rw [List.length_zipWith, hlength, Nat.min_self] at h'
    exact serverPool_along (List.getElem?_eq_getElem h) (List.getElem?_eq_getElem h') (Request.serve_reported _)

/-! ### Replies -/

/-- The request is left without a reply: its user was not found, or the start of its booking cannot be converted. -/
def Request.Unanswered (rt : Runtime) : Request → List (Call Http) → Prop
  | .register _, _ => False
  | .route r body, calls => calls = [identified body none] ∨
    r = .booking ∧ (∃ e, newDate rt (body.prop "startDateTime") = .error e) ∧
      ∃ user, calls = [identified body (some user)]

/-- Where a request can stand that has no reply yet, has its reply, or stays without one. The last is a user that was
    found and then not found. -/
inductive Replied (rt : Runtime) (r : Request) (th : Thread Http Unit) : Prop where
  | going (hgoing : th.finished = false) (hsent : th.sent = [])
  | reply (hend : th.finished = true) (reply : Reply) (hsent : th.sent = [reply]) (h : ¬r.Unanswered rt th.calls)
  | unanswered (hend : th.finished = true) (hsent : th.sent = []) (h : r.Unanswered rt th.calls)
  | vanished (body : Json) (user : User) (hsent : th.sent = [])
      (h : [identified body (some user), identified body none] <+: th.calls)

/-- A route that always replies, for the user that the gate has found. -/
theorem replied_of_replies {r : Route} {body : Json} {user : User} {t : Proc Http Unit}
    (h : t.Replies fun _ => False)
    (hd : r = .booking → ∃ d, newDate rt (body.prop "startDateTime") = .ok d) :
    t.Along (fun _ => True) (Replied rt (.route r body)) [identified body (some user)] [] := by
  refine (h.along.and (Proc.calls_true.along List.prefix_rfl fun _ _ => trivial)).mono fun th hth => ?_
  obtain ⟨⟨hgoing, hend⟩, ⟨more, hcalls⟩, -⟩ := hth
  cases hfin : th.finished with
  | false => exact .going hfin (hgoing hfin)
  | true =>
    obtain ⟨reply, hsent⟩ := hend hfin
    refine .reply hfin reply hsent ?_
    rintro (hnone | ⟨hr, ⟨e, he⟩, -⟩)
    · rw [← hcalls] at hnone
      cases hnone
    · obtain ⟨d, hd⟩ := hd hr
      rw [hd] at he
      cases he

theorem Request.serve_replied (r : Request) : (r.serve rt).Along (fun _ => True) (Replied rt r) [] [] := by
  cases r with
  | register body =>
    have hreplies : (postRegister body).Replies fun _ => False := by
      refine replies_serverError (replies_await fun user => ?_)
      cases user with
      | some user => exact replies_respond _
      | none => exact replies_await fun _ => replies_respond _
    refine hreplies.along.mono fun th hth => ?_
    obtain ⟨hgoing, hend⟩ := hth
    cases hfin : th.finished with
    | false => exact .going hfin (hgoing hfin)
    | true =>
      obtain ⟨reply, hsent⟩ := hend hfin
      exact .reply hfin reply hsent id
  | route r body =>
    refine ⟨.going rfl rfl, fun user _ => ?_, fun e _ => ?_⟩
    · cases user with
      | none => exact .unanswered rfl rfl (Or.inl rfl)
      | some user =>
      cases r with
      | booking =>
        cases hd : newDate rt (body.prop "startDateTime") with
        | error e =>
          simp only [Route.handler, postBooking_throws hd]
          exact .unanswered rfl rfl (Or.inr ⟨rfl, ⟨e, hd⟩, user, rfl⟩)
        | ok d => exact replied_of_replies (postBooking_replies hd) fun _ => ⟨d, hd⟩
      | facilityAdd => exact replied_of_replies postFacilityAdd_replies fun hr => by cases hr
      | allFacilities => exact replied_of_replies postAllFacilities_replies fun hr => by cases hr
      | profile => exact replied_of_replies postProfile_replies fun hr => by cases hr
      | getName =>
        have hlooked : ∀ answer, ¬(Request.route .getName body).Unanswered rt
            [identified body (some user), ⟨.userFindOne (body.prop "email"), answer⟩] := by
          rintro answer (hnone | ⟨hr, -⟩)
          · cases hnone
          · cases hr
        refine ⟨.going rfl rfl, fun user' _ => ?_, fun e _ => .reply rfl _ rfl (hlooked _)⟩
        cases user' with
        | none => exact .vanished body user rfl List.prefix_rfl
        | some user' => exact .reply rfl _ rfl (hlooked _)
    · refine .reply rfl _ rfl ?_
      rintro (hnone | ⟨-, -, user, hsome⟩)
      · cases hnone
      · cases hsome

/-- A handler that has ended has sent one reply, unless the request is left without one. -/
theorem serverPool_settled {r : Request} (hi : ((serverPool rt db rs).runs (Db.exec m) ts).threads[i]? = some th)
    (hr : rs[i]? = some r) (hend : th.finished = true) :
    r.Unanswered rt th.calls ∧ th.sent = [] ∨ ¬r.Unanswered rt th.calls ∧ ∃ reply, th.sent = [reply] := by
  have hpair := Pool.calls_pairwise (trace_remembers m (serverPool rt db rs) ts) hi
  cases serverPool_along hi hr (Request.serve_replied r) with
  | going hgoing hsent =>
    rw [hgoing] at hend
    cases hend
  | reply _ reply hsent h => exact Or.inr ⟨h, reply, hsent⟩
  | unanswered _ hsent h => exact Or.inl ⟨h, hsent⟩
  | vanished body user hsent h =>
    obtain ⟨more, hcalls⟩ := h
    rw [← hcalls, List.cons_append, List.pairwise_cons] at hpair
    have hfound := (hpair.1 (identified body none) (by simp)).user _ user none rfl rfl
    cases hfound

/-- A request has no reply before its handler ends and one afterwards, unless its user was not found or the start of
    its booking cannot be converted: then it has none. -/
theorem serverPool_replies (m : Mongoose) (rt : Runtime) (db : Db) (rs : List Request) (ts : List (Turn Http))
    {i : Nat} {th : Thread Http Unit} {r : Request}
    (hi : ((serverPool rt db rs).runs (Db.exec m) ts).threads[i]? = some th) (hr : rs[i]? = some r) :
    (th.finished = false → th.sent = []) ∧ (th.finished = true →
      r.Unanswered rt th.calls ∧ th.sent = [] ∨ ¬r.Unanswered rt th.calls ∧ ∃ reply, th.sent = [reply]) := by
  refine ⟨fun hgoing => ?_, serverPool_settled hi hr⟩
  cases serverPool_along hi hr (Request.serve_replied r) with
  | going _ hsent => exact hsent
  | reply hend reply hsent h =>
    rw [hgoing] at hend
    cases hend
  | unanswered hend hsent h => exact hsent
  | vanished body user hsent h => exact hsent

theorem serverPool_replies_club : ∃ th reply,
    ((serverPool utc.runtime club homeAndAway).runs (Db.exec mongoose6) inTurns).threads[0]? = some th ∧
      th.sent = [reply] := by
  obtain ⟨th, hth⟩ : ∃ th,
      ((serverPool utc.runtime club homeAndAway).runs (Db.exec mongoose6) inTurns).threads[0]? = some th :=
    ⟨_, rfl⟩
  have hdone : (((serverPool utc.runtime club homeAndAway).runs (Db.exec mongoose6) inTurns).threads.all fun th =>
      th.finished && th.calls.length == 7) = true := by decide +kernel
  have hdone := List.all_eq_true.mp hdone th (List.mem_of_getElem? hth)
  rw [Bool.and_eq_true] at hdone
  have hlength := eq_of_beq hdone.2
  rcases (serverPool_replies mongoose6 utc.runtime club homeAndAway inTurns hth rfl).2 hdone.1 with
    ⟨hnone | ⟨-, -, user, hsome⟩, -⟩ | ⟨-, reply, hsent⟩
  · rw [hnone] at hlength
    cases hlength
  · rw [hsome] at hlength
    cases hlength
  · exact ⟨th, reply, hth, hsent⟩

/-! ### Registered users -/

def Request.email : Request → Option Json
  | .register body | .route _ body => body.prop "email"

/-- A registration with the email has been answered. -/
def Registered (rs : List Request) (p : Pool Http Db Unit) (email : String) : Prop :=
  ∃ (i : Nat) (body : Json) (th : Thread Http Unit), rs[i]? = some (.register body) ∧
    body.prop "email" = some (.str email) ∧ p.threads[i]? = some th ∧ th.sent = [.registered]

/-- A registration is not confirmed again. A route is not left by the gate: when it ends it has sent a reply, unless it
    is for a booking and its start cannot be converted. -/
def Request.Welcomes (rt : Runtime) : Request → Thread Http Unit → Prop
  | .register _, th => th.sent ≠ [.registered]
  | .route r body, th => identified body none ∉ th.calls ∧ (th.finished = true →
      (∃ reply, th.sent = [reply]) ∨ r = .booking ∧ ∃ e, newDate rt (body.prop "startDateTime") = .error e)

section Registered
variable {before rest : List (Turn Http)} {email : String} {j : Nat} {th₀ : Thread Http Unit} {r : Request}

/-- A handler without a call when a registration is answered finds the user in all its calls. -/
theorem Registered.found (h : Registered rs ((serverPool rt db rs).runs (Db.exec m) before) email)
    (h₀ : ((serverPool rt db rs).runs (Db.exec m) before).threads[j]? = some th₀) (hnil : th₀.calls = [])
    (hj : ((serverPool rt db rs).runs (Db.exec m) (before ++ rest)).threads[j]? = some th) {answer : Option User}
    (hc : ⟨.userFindOne (some (.str email)), .ok answer⟩ ∈ th.calls) : ∃ user, answer = some user := by
  obtain ⟨i, body, thi, hi, hemail, hthi, hsent⟩ := h
  have hsaved := (Pool.mem_trace_iff hthi).mpr ((serverPool_along hthi hi postRegister_along).saved hsent)
  have hremembers := trace_remembers m (serverPool rt db rs) (before ++ rest)
  rw [Pool.trace_append, List.pairwise_append] at hremembers
  have hmem := (Pool.mem_trace_iff hj).mpr hc
  rw [Pool.trace_append, List.mem_append] at hmem
  rcases hmem with hmem | hmem
  · have hnone := (Pool.mem_trace_iff h₀).mp hmem
    rw [hnil] at hnone
    cases hnone
  · obtain ⟨user, huser, -⟩ := (hremembers.2.2 _ hsaved _ hmem).registered _ email answer rfl hemail rfl
    exact ⟨user, huser⟩

theorem Registered.welcomes (h : Registered rs ((serverPool rt db rs).runs (Db.exec m) before) email)
    (h₀ : ((serverPool rt db rs).runs (Db.exec m) before).threads[j]? = some th₀) (hnil : th₀.calls = [])
    (hr : rs[j]? = some r) (hemail : r.email = some (.str email))
    (hj : ((serverPool rt db rs).runs (Db.exec m) (before ++ rest)).threads[j]? = some th) : r.Welcomes rt th := by
  have hfound : ∀ answer, ⟨.userFindOne r.email, .ok answer⟩ ∈ th.calls → ∃ user, answer = some user :=
    fun answer hc => h.found h₀ hnil hj (hemail ▸ hc)
  cases r with
  | register body =>
    intro hsent
    have hprogress := serverPool_along hj hr postRegister_along
    generalize th.calls = calls, th.proc.stage = stage at hprogress hfound
    rw [hsent] at hprogress
    cases hprogress
    obtain ⟨user, hnone⟩ := hfound none List.mem_cons_self
    cases hnone
  | route r body =>
    have hgate : identified body none ∉ th.calls := by
      intro hc
      obtain ⟨user, hnone⟩ := hfound none hc
      cases hnone
    refine ⟨hgate, fun hend => ?_⟩
    rcases serverPool_settled hj hr hend with ⟨hcalls | ⟨hbooking, herror, -⟩, -⟩ | ⟨-, hreply⟩
    · rw [hcalls] at hgate
      exact absurd (List.mem_singleton_self _) hgate
    · exact Or.inr ⟨hbooking, herror⟩
    · exact Or.inl hreply

end Registered

/-- What a call has found or saved is found by all calls after it, of whatever requests; so once a registration has been
    answered, every request with its email that comes later is welcome. -/
theorem serverPool_remembers (m : Mongoose) (rt : Runtime) (db : Db) (rs : List Request) (ts : List (Turn Http)) :
    (((serverPool rt db rs).trace (Db.exec m) ts).Pairwise fun e e' => Remembers m e.2 e'.2) ∧
      ∀ (before rest : List (Turn Http)) (email : String) (j : Nat) (r : Request) (th₀ th : Thread Http Unit),
        ts = before ++ rest →
        Registered rs ((serverPool rt db rs).runs (Db.exec m) before) email →
        ((serverPool rt db rs).runs (Db.exec m) before).threads[j]? = some th₀ → th₀.calls = [] →
        rs[j]? = some r → r.email = some (.str email) →
        ((serverPool rt db rs).runs (Db.exec m) ts).threads[j]? = some th → r.Welcomes rt th := by
  refine ⟨trace_remembers m (serverPool rt db rs) ts, ?_⟩
  rintro before rest email j r th₀ th rfl h h₀ hnil hr hemail hj
  exact h.welcomes h₀ hnil hr hemail hj

theorem serverPool_remembers_club : ∃ th,
    ((serverPool utc.runtime club newcomerGreeted).runs (Db.exec mongoose6) greetedTurns).threads[1]? = some th ∧
      ∃ reply, th.sent = [reply] := by
  have hdone : (((serverPool utc.runtime club newcomerGreeted).runs (Db.exec mongoose6) greetedTurns).threads.all
      Thread.finished) = true := by decide +kernel
  obtain ⟨th, hth⟩ : ∃ th,
      ((serverPool utc.runtime club newcomerGreeted).runs (Db.exec mongoose6) greetedTurns).threads[1]? = some th :=
    ⟨_, rfl⟩
  have hregistered : Registered newcomerGreeted
      ((serverPool utc.runtime club newcomerGreeted).runs (Db.exec mongoose6) [⟨0, none⟩, ⟨0, none⟩])
      "new@club.test" := ⟨0, newcomer "First", _, rfl, rfl, rfl, rfl⟩
  have hwelcome := (serverPool_remembers mongoose6 utc.runtime club newcomerGreeted greetedTurns).2
    [⟨0, none⟩, ⟨0, none⟩] [⟨1, none⟩, ⟨1, none⟩] "new@club.test" 1 _ _ th rfl hregistered rfl rfl rfl rfl hth
  rcases hwelcome.2 (List.all_eq_true.mp hdone th (List.mem_of_getElem? hth)) with hreply | ⟨hbooking, -⟩
  · exact ⟨th, hth, hreply⟩
  · cases hbooking

end Service
end KhelaKaro
