import KhelaKaro.Async.Trace
import KhelaKaro.Theorems.Confirmations
import KhelaKaro.Theorems.ProfileOrder
import Mathlib.Algebra.Order.BigOperators.Group.List
import Mathlib.Algebra.Order.Group.Multiset

/-! # Profiles under way

What a profile says while other requests are served. Its handler makes nine calls, and bookings may be stored between
them, so the lists of the four sports may be of four moments. Each list has all that was stored when the handler began
and nothing that is not stored in the end (`serverPool_profile`). So what a screen has confirmed is in every profile
that is asked for afterwards (`runs_confirmed`). -/

namespace KhelaKaro
open Async

/-! ### Growth -/

/-- Documents are only added. -/
structure Db.Grows (db db' : Db) : Prop where
  users : db.users.docs <+: db'.users.docs
  facilities : db.facilities.docs <+: db'.facilities.docs
  bookings : db.bookings <+: db'.bookings

namespace Db.Grows
variable {db db' db'' : Db}

theorem refl (db : Db) : db.Grows db := ⟨List.prefix_rfl, List.prefix_rfl, List.prefix_rfl⟩

theorem trans (h : db.Grows db') (h' : db'.Grows db'') : db.Grows db'' :=
  ⟨h.users.trans h'.users, h.facilities.trans h'.facilities, h.bookings.trans h'.bookings⟩

theorem attempt (m : Mongoose) (db : Db) (fault : Option JsError) (op : Op) :
    db.Grows (Proc.attempt (Db.exec m) fault db op).1 where
  users := attempt_users_grow
  facilities := attempt_facilities m fault db op
  bookings := by
    rw [attempt_bookings]
    exact List.prefix_append _ _

end Db.Grows

/-! ### What the handler has read -/

def Reply.data (r : Reply) : Option ProfileData :=
  match r.body with
  | .object _ _ _ data => data
  | .facilities _ => none

/-- The facility of the sport has been found, and then the bookings of the user at it. -/
def SportRead (calls : List (Call Http)) (user : User) (sport : Nat) (dates : List Date) : Prop :=
  ∃ facility bs, ⟨.facilityFindOne (some (.num sport)), .ok (some facility)⟩ ∈ calls ∧
    compared user facility bs ∈ calls ∧ dates = bs.map Booking.startDateTime

/-- The data that is sent is what the calls have read, newest document first. -/
def ProfileRead (body : Json) (th : Thread Http Unit) : Prop :=
  ∀ r ∈ th.sent, ∀ data, r.data = some data → ∃ user, identified body (some user) ∈ th.calls ∧
    ∀ s : Screen, SportRead th.calls user s.number (data.starts s).reverse

section Handler
variable {rt : Runtime} {body : Json} {user : User} {calls calls' : List (Call Http)} {dates : List Date} {sport : Nat}

theorem SportRead.mono (h : SportRead calls user sport dates) (hc : calls <+: calls') :
    SportRead calls' user sport dates := by
  obtain ⟨facility, bs, hfacility, hbs, hdates⟩ := h
  exact ⟨facility, bs, hc.subset hfacility, hc.subset hbs, hdates⟩

theorem profileRead_nil {t : Proc Http Unit} : ProfileRead body ⟨calls, [], t⟩ := by
  simp [ProfileRead]

theorem profileRead_message {r : Reply} {t : Proc Http Unit} (h : r.data = none) :
    ProfileRead body ⟨calls, [r], t⟩ := by
  intro r' hr' data hdata
  obtain rfl := List.mem_singleton.mp hr'
  rw [h] at hdata
  cases hdata

/-- One sport of the loop, in front of the rest of the handler -/
theorem sportBookings_along {f : List Date → Proc Http Unit}
    (hf : ∀ dates calls', calls <+: calls' → SportRead calls' user sport dates →
      ((f dates).tryCatch fun _ => respond .serverError).Along (fun _ => True) (ProfileRead body) calls' []) :
    ((sportBookings user sport >>= f).tryCatch fun _ => respond .serverError).Along (fun _ => True) (ProfileRead body)
      calls [] := by
  refine ⟨profileRead_nil, fun facility _ => ?_, fun _ _ => profileRead_message rfl⟩
  cases facility with
  | none => exact profileRead_message rfl
  | some facility =>
    refine ⟨profileRead_nil, fun bs _ => ?_, fun _ _ => profileRead_message rfl⟩
    refine hf (bs.map Booking.startDateTime) _ ?_ ⟨facility, bs, ?_, List.mem_concat_self, rfl⟩
    · rw [List.append_assoc]
      exact List.prefix_append _ _
    · exact List.mem_append_left _ List.mem_concat_self

theorem postProfile_read (huser : identified body (some user) ∈ calls) :
    (postProfile user).Along (fun _ => True) (ProfileRead body) calls [] := by
  refine sportBookings_along fun s1 c1 h1 hd1 => sportBookings_along fun s2 c2 h2 hd2 =>
    sportBookings_along fun s3 c3 h3 hd3 => sportBookings_along fun s4 c4 h4 hd4 => ?_
  intro r hr data hdata
  obtain rfl := List.mem_singleton.mp hr
  cases hdata
  refine ⟨user, (((h1.trans h2).trans h3).trans h4).subset huser, fun s => ?_⟩
  cases s
  all_goals simp only [ProfileData.starts, List.reverse_reverse, sortDates_eq]
  · exact hd1.mono ((h2.trans h3).trans h4)
  · exact hd2.mono (h3.trans h4)
  · exact hd3.mono h4
  · exact hd4

theorem serveProfile_read : (Route.profile.serve rt body).Along (fun _ => True) (ProfileRead body) [] [] := by
  refine ⟨profileRead_nil, fun user _ => ?_, fun _ _ => profileRead_message rfl⟩
  cases user with
  | none => exact profileRead_nil
  | some user => exact postProfile_read (List.mem_singleton_self _)

end Handler

/-! ### What it can have read -/

/-- The query for a sport answers the starts of the user's bookings at its facility. -/
theorem startsAt_eq (db : Db) (user : User) (facility : Facility) :
    (db.bookings.filter fun b => b.facility == facility._id && b.user == user._id).map Booking.startDateTime =
      startsAt db user facility := by
  unfold startsAt
  congr 1
  refine List.filter_congr fun b _ => ?_
  rw [Bool.eq_iff_iff, Bool.and_eq_true, beq_iff_eq, beq_iff_eq, decide_eq_true_eq]

theorem Db.Grows.startsAt {db db' : Db} (h : db.Grows db') (user : User) (facility : Facility) :
    startsAt db user facility <+: startsAt db' user facility :=
  (h.bookings.filter _).map _

/-- The call was answered by a database between the two. -/
def AnsweredBetween (m : Mongoose) (db₁ db₂ : Db) (c : Call Http) : Prop :=
  ∃ db fault, db₁.Grows db ∧ c.answer = (Proc.attempt (Db.exec m) fault db c.op).2 ∧ db.Grows db₂

/-- The list of each sport has all bookings of the user at its facility that the first database has, and none that the
    second one lacks, newest first. -/
def ProfileData.Between (data : ProfileData) (db₁ db₂ : Db) (user : User) : Prop :=
  ∀ s : Screen, ∃ facility, db₂.facilityOf s = some facility ∧ ∃ starts, data.starts s = starts.reverse ∧
    startsAt db₁ user facility <+: starts ∧ starts <+: startsAt db₂ user facility

theorem ProfileRead.between {m : Mongoose} {db₁ db₂ : Db} {body : Json} {th : Thread Http Unit}
    (h : ProfileRead body th) (hcalls : ∀ c ∈ th.calls, AnsweredBetween m db₁ db₂ c) {r : Reply} (hr : r ∈ th.sent)
    {data : ProfileData} (hdata : r.data = some data) :
    ∃ user, db₂.loggedIn m body = some user ∧ data.Between db₁ db₂ user := by
  obtain ⟨user, huser, hsports⟩ := h r hr data hdata
  refine ⟨user, ?_, fun s => ?_⟩
  · obtain ⟨db, fault, -, hanswer, hlater⟩ := hcalls _ huser
    obtain ⟨p, hp, hfind⟩ := find_of_answer hanswer.symm
    rw [loggedIn_of_ok hp]
    exact hlater.users.find?_eq_some hfind
  obtain ⟨facility, bs, hfacility, hbs, hstarts⟩ := hsports s
  refine ⟨facility, ?_, (data.starts s).reverse, (List.reverse_reverse _).symm, ?_⟩
  · obtain ⟨db, fault, -, hanswer, hlater⟩ := hcalls _ hfacility
    obtain ⟨p, hp, hfind⟩ := locate_of_answer hanswer.symm
    obtain rfl : p = fun f => f == some (s.number : ℚ) := by
      rw [Mongoose.matchFacilityId, m.facilityIdFilter_num, Option.elim_some, Except.ok.injEq] at hp
      exact hp.symm
    exact hlater.facilities.find?_eq_some hfind
  · obtain ⟨db, fault, hearlier, hanswer, hlater⟩ := hcalls _ hbs
    obtain ⟨-, hanswer⟩ := answer_of_attempt hanswer.symm
    have hread : db.bookings.filter (fun b => b.facility == facility._id && b.user == user._id) = bs :=
      Except.ok.inj hanswer
    rw [hstarts, ← hread, startsAt_eq]
    exact ⟨hearlier.startsAt user facility, hlater.startsAt user facility⟩

section Pool
variable {m : Mongoose} {rt : Runtime} {db : Db} {rs : List Request} {ts₁ ts₂ : List (Turn Http)} {j : Nat}
  {th : Thread Http Unit} {c : Call Http}

/-- A handler that had no turn so far makes its calls from now on. -/
theorem serverPool_between (hbefore : ∀ t ∈ ts₁, t.thread ≠ j)
    (hth : ((serverPool rt db rs).runs (Db.exec m) (ts₁ ++ ts₂)).threads[j]? = some th) (hc : c ∈ th.calls) :
    AnsweredBetween m ((serverPool rt db rs).runs (Db.exec m) ts₁).store
      ((serverPool rt db rs).runs (Db.exec m) (ts₁ ++ ts₂)).store c := by
  have hmem := (Pool.mem_trace_iff hth).mpr hc
  rw [Pool.trace_append] at hmem
  rcases List.mem_append.mp hmem with hmem | hmem
  · obtain ⟨t, ht, hthread⟩ := Pool.turn_of_mem_trace hmem
    exact absurd hthread (hbefore t ht)
  · rw [Pool.runs_append]
    exact Pool.trace_between Db.Grows.refl Db.Grows.trans (Db.Grows.attempt m) ts₂ _ hmem

/-- An answered profile has all bookings that were stored before its handler had a turn, and none that is not stored. -/
theorem serverPool_profile (m : Mongoose) (rt : Runtime) (db : Db) (rs : List Request) (ts₁ ts₂ : List (Turn Http))
    {j : Nat} {body : Json} (hj : rs[j]? = some (.route .profile body)) (hbefore : ∀ t ∈ ts₁, t.thread ≠ j)
    {th : Thread Http Unit} (hth : ((serverPool rt db rs).runs (Db.exec m) (ts₁ ++ ts₂)).threads[j]? = some th)
    {r : Reply} (hr : r ∈ th.sent) {data : ProfileData} (hdata : r.data = some data) :
    ∃ user, ((serverPool rt db rs).runs (Db.exec m) (ts₁ ++ ts₂)).store.loggedIn m body = some user ∧
      data.Between ((serverPool rt db rs).runs (Db.exec m) ts₁).store
        ((serverPool rt db rs).runs (Db.exec m) (ts₁ ++ ts₂)).store user :=
  (serverPool_along hth hj serveProfile_read).between (fun _ => serverPool_between hbefore hth) hr hdata

/-- A booking, and a profile that is asked for afterwards -/
def bookedThenAsked : List Request :=
  [.route .booking (bookCourt "1" (dateInput utc midsummer) "home@club.test"),
    .route .profile (profileParameters "home@club.test")]

theorem serverPool_profile_club : ∃ (th : Thread Http Unit) (r : Reply) (data : ProfileData) (user : User),
    ((serverPool utc.runtime club bookedThenAsked).runs (Db.exec mongoose6)
      (List.replicate 7 ⟨0, none⟩ ++ List.replicate 9 ⟨1, none⟩)).threads[1]? = some th ∧ r ∈ th.sent ∧
      r.data = some data ∧ ∃ facility starts, data.s1 = starts.reverse ∧
        startsAt ((serverPool utc.runtime club bookedThenAsked).runs (Db.exec mongoose6)
          (List.replicate 7 ⟨0, none⟩)).store user facility <+: starts := by
  have hrun : ((((serverPool utc.runtime club bookedThenAsked).runs (Db.exec mongoose6)
      (List.replicate 7 ⟨0, none⟩ ++ List.replicate 9 ⟨1, none⟩)).threads[1]?).any fun th =>
        th.sent.any fun r => r.data.isSome) = true := by decide +kernel
  obtain ⟨th, hth, hrun⟩ := (Option.any_eq_true _ _).mp hrun
  obtain ⟨r, hr, hrun⟩ := List.any_eq_true.mp hrun
  obtain ⟨data, hdata⟩ := Option.isSome_iff_exists.mp hrun
  obtain ⟨user, -, hsports⟩ := serverPool_profile mongoose6 utc.runtime club bookedThenAsked _ _ rfl
    (fun t ht => by rw [List.eq_of_mem_replicate ht]; decide) hth hr hdata
  obtain ⟨facility, -, starts, hstarts, hearlier, -⟩ := hsports .badminton
  exact ⟨th, r, data, user, hth, hr, hdata, facility, starts, hstarts, hearlier⟩

end Pool

/-! ### From confirmation to profile -/

section Rows
variable {data : ProfileData} {r : Reply} {place : Screen → Option Facility} {user : ObjectId}

theorem fetchData_starts (h : r.data = some data) : ((fetchData r).1 : Multiset BookingRow) =
    (Screen.all.map fun s => (((data.starts s).map (SportRow.mk s.sport) : List BookingRow) :
      Multiset BookingRow)).sum := by
  obtain ⟨status, body⟩ := r
  cases body with
  | facilities docs => cases h
  | object success msg court data' =>
    cases h
    simp only [fetchData, sportTable, Screen.all, List.map_cons, List.map_nil, List.sum_cons, List.sum_nil, add_zero,
      ProfileData.starts, Screen.sport, ← Multiset.coe_add, add_assoc]

theorem sportRows_subperm {bs cs : List Booking} (h : bs.Subperm cs) :
    sportRows place user bs ≤ sportRows place user cs :=
  List.sum_le_sum fun _ _ => Multiset.map_le_map (Multiset.coe_le.mpr (h.filter _))

/-- Bookings at the facility of one sport -/
theorem sportRows_screen (hinj : ∀ s s' f f', place s = some f → place s' = some f' → f._id = f'._id → s = s')
    {s : Screen} {bs : List Booking} (hbs : ∀ b ∈ bs, ∃ f, place s = some f ∧ b.facility = f._id) :
    sportRows place user bs =
      (((bs.filter (·.user == user)).map fun b => ⟨s.sport, b.startDateTime⟩ : List BookingRow) :
        Multiset BookingRow) := by
  induction bs with
  | nil => exact sportRows_nil
  | cons b bs ih =>
    obtain ⟨f, hf, hb⟩ := hbs b List.mem_cons_self
    have ih := ih fun b' hb' => hbs b' (List.mem_cons_of_mem b hb')
    rw [← List.singleton_append, sportRows_append, sportRows_singleton hinj hf hb, ih]
    by_cases hu : b.user = user
    · simp [hu]
    · simp [hu]

theorem startsAt_rows {db : Db} {user : User} {s : Screen} {facility : Facility} (h : place s = some facility) :
    (startsAt db user facility).map (SportRow.mk s.sport) =
      (db.bookings.filter fun b => (place s).any (·._id == b.facility) && b.user == user._id).map
        fun b => ⟨s.sport, b.startDateTime⟩ := by
  rw [← startsAt_eq, List.map_map, h]
  congr 1
  refine List.filter_congr fun b _ => ?_
  rw [Option.any_some, Bool.beq_comm]

/-- The rows of the profile are at least those of the bookings that were stored before. -/
theorem ProfileData.Between.rows {db₁ db₂ : Db} {user : User} (h : data.Between db₁ db₂ user)
    (hdata : r.data = some data) :
    sportRows db₂.facilityOf user._id db₁.bookings ≤ ((fetchData r).1 : Multiset BookingRow) := by
  rw [fetchData_starts hdata]
  refine List.sum_le_sum fun s _ => ?_
  obtain ⟨facility, hfacility, starts, hstarts, hearlier, -⟩ := h s
  rw [← startsAt_rows hfacility, hstarts, List.map_reverse, Multiset.coe_reverse]
  exact Multiset.coe_le.mpr (hearlier.map _).sublist.subperm

end Rows

/-- The turn that the event is -/
def SystemEvent.turns : SystemEvent → List (Turn Http)
  | .turn t => [t]
  | _ => []

namespace BookingSystem
variable {f : Foundation} {m : Mongoose} {rt : Runtime} {db : Db} {s s' : BookingSystem} {es : List SystemEvent}
  {e : SystemEvent} {ts : List (Turn Http)}

/-- At the server a step does nothing, or a request arrives, or a handler has a turn. -/
theorem step_server (hs : s.step f m rt e = some s') :
    e.turns = [] ∧ s'.requests = s.requests ∧ s'.server = s.server ∨
      (e.turns = [] ∧ ∃ r, s'.requests = (s.receive rt r).requests ∧ s'.server = (s.receive rt r).server) ∨
      ∃ t, e.turns = [t] ∧ s'.requests = s.requests ∧ s'.server = s.server.step (Db.exec m) t := by
  cases e with
  | viewDidLoad screen =>
    obtain rfl := Option.some.inj hs
    exact Or.inl ⟨rfl, rfl, rfl⟩
  | bookNowPressed i zone currentUser date =>
    obtain ⟨o, hi, hs⟩ := Option.bind_eq_some_iff.mp hs
    obtain ⟨v, hv, hs⟩ := Option.bind_eq_some_iff.mp hs
    obtain rfl := Option.some.inj hs
    unfold BookingSystem.press
    split
    · exact Or.inr (Or.inl ⟨rfl, _, rfl, rfl⟩)
    · exact Or.inl ⟨rfl, rfl, rfl⟩
  | request r =>
    obtain rfl := Option.some.inj hs
    exact Or.inr (Or.inl ⟨rfl, r, rfl, rfl⟩)
  | turn t =>
    obtain rfl := Option.some.inj hs
    exact Or.inr (Or.inr ⟨t, rfl, rfl, rfl⟩)
  | response i j =>
    obtain ⟨o, hi, hs⟩ := Option.bind_eq_some_iff.mp hs
    obtain ⟨n, hj, hs⟩ := Option.bind_eq_some_iff.mp hs
    obtain ⟨reply, hr, hs⟩ := Option.bind_eq_some_iff.mp hs
    obtain ⟨data, hd, hs⟩ := Option.bind_eq_some_iff.mp hs
    obtain ⟨v, hv, hs⟩ := Option.bind_eq_some_iff.mp hs
    obtain rfl := Option.some.inj hs
    exact Or.inl ⟨rfl, rfl, rfl⟩
  | loseResponse i j =>
    obtain ⟨o, hi, hs⟩ := Option.bind_eq_some_iff.mp hs
    obtain ⟨v, hv, hs⟩ := Option.bind_eq_some_iff.mp hs
    obtain rfl := Option.some.inj hs
    exact Or.inl ⟨rfl, rfl, rfl⟩

theorem ServedBy.congr (h : s.ServedBy m rt db ts) (hrequests : s'.requests = s.requests)
    (hserver : s'.server = s.server) : s'.ServedBy m rt db ts := by
  unfold ServedBy
  rw [hrequests, hserver]
  exact h

/-- The server goes on with the turns of the requests that it has. -/
structure GoesOn (m : Mongoose) (rt : Runtime) (db : Db) (ts : List (Turn Http)) (turns : List (Turn Http))
    (s s' : BookingSystem) : Prop where
  requests : s.requests <+: s'.requests
  served : ∃ us, s'.ServedBy m rt db (ts ++ us) ∧ ∀ n < s.requests.length, Pool.turnsOf n us = Pool.turnsOf n turns

theorem ServedBy.step (h : s.ServedBy m rt db ts) (hs : s.step f m rt e = some s') :
    GoesOn m rt db ts e.turns s s' := by
  rcases step_server hs with ⟨hturns, hrequests, hserver⟩ | ⟨hturns, r, hrequests, hserver⟩ |
    ⟨t, hturns, hrequests, hserver⟩
  · refine ⟨hrequests ▸ List.prefix_rfl, [], ?_, by simp [hturns]⟩
    exact (List.append_nil ts).symm ▸ h.congr hrequests hserver
  · refine ⟨hrequests ▸ List.prefix_append _ _, [], ?_, by simp [hturns]⟩
    exact (List.append_nil ts).symm ▸ (h.receive r).congr hrequests hserver
  · obtain ⟨us, hus, hcount⟩ := h.turn t
    exact ⟨hrequests ▸ List.prefix_rfl, us, hus.congr hrequests hserver, hturns ▸ hcount⟩

theorem runs_cons : s.runs f m rt (e :: es) = (s.step f m rt e).bind fun s => s.runs f m rt es := rfl

theorem runs_append (es es' : List SystemEvent) :
    s.runs f m rt (es ++ es') = (s.runs f m rt es).bind fun s => s.runs f m rt es' := by
  simp only [runs, List.foldlM_append, Option.bind_eq_bind]

theorem ServedBy.runs (h : s.ServedBy m rt db ts) (hs : s.runs f m rt es = some s') :
    GoesOn m rt db ts (es.flatMap SystemEvent.turns) s s' := by
  induction es generalizing s ts with
  | nil =>
    cases hs
    exact ⟨List.prefix_rfl, [], (List.append_nil ts).symm ▸ h, fun _ _ => rfl⟩
  | cons e es ih =>
    rw [runs_cons] at hs
    obtain ⟨s₁, hs₁, hs⟩ := Option.bind_eq_some_iff.mp hs
    obtain ⟨hfirst, us, hus, hcount⟩ := h.step hs₁
    obtain ⟨hrest, vs, hvs, hcount'⟩ := ih hus hs
    refine ⟨hfirst.trans hrest, us ++ vs, List.append_assoc ts us vs ▸ hvs, fun n hn => ?_⟩
    have hsplit : ∀ us vs : List (Turn Http), Pool.turnsOf n (us ++ vs) = Pool.turnsOf n us + Pool.turnsOf n vs :=
      fun us vs => List.countP_append
    rw [List.flatMap_cons, hsplit, hsplit, hcount n hn, hcount' n (hn.trans_le hfirst.length_le)]

/-- The turns of earlier requests do the same among more requests. -/
theorem serverPool_append {rs : List Request} (hts : ∀ t ∈ ts, t.thread < rs.length) (rs' : List Request) :
    ((serverPool rt db (rs ++ rs')).runs (Db.exec m) ts).store = ((serverPool rt db rs).runs (Db.exec m) ts).store := by
  induction rs' using List.reverseRecOn with
  | nil => rw [List.append_nil]
  | append_singleton rs' r ih =>
    have hlt : ∀ t ∈ ts, t.thread < (serverPool rt db (rs ++ rs')).threads.length := fun t ht => by
      have := hts t ht
      rw [length_serverPool, List.length_append]
      omega
    rw [← List.append_assoc, serverPool_concat, Pool.runs_receive hlt]
    exact ih

theorem ServedBy.store (h : s.ServedBy m rt db ts) (hrequests : s.requests <+: s'.requests) :
    ((serverPool rt db s'.requests).runs (Db.exec m) ts).store = s.server.store := by
  obtain ⟨rest, hrest⟩ := hrequests
  rw [← hrest, serverPool_append h.1, ← h.2]

/-- The handler of request number `n`, which arrived when the database was `db₁`, after these turns -/
structure Handled (m : Mongoose) (rt : Runtime) (db : Db) (r : Request) (n : Nat) (db₁ : Db) (turns : List (Turn Http))
    (s : BookingSystem) (th : Thread Http Unit) : Prop where
  thread : s.server.threads[n]? = some th
  request : s.requests[n]? = some r
  served : ∃ ts, s.ServedBy m rt db ts ∧ Pool.turnsOf n turns ≤ Pool.turnsOf n ts
  grows : db₁.Grows s.server.store
  between : ∀ c ∈ th.calls, AnsweredBetween m db₁ s.server.store c

/-- A request that arrives has its handler, whatever the system does then. -/
theorem ServedBy.handled {s₁ s₂ : BookingSystem} {r : Request} (h₁ : s₁.ServedBy m rt db ts)
    (hrequests : s₂.requests = (s₁.receive rt r).requests) (hserver : s₂.server = (s₁.receive rt r).server)
    (h : s₂.runs f m rt es = some s) :
    ∃ th, Handled m rt db r s₁.requests.length s₁.server.store (es.flatMap SystemEvent.turns) s th := by
  obtain ⟨⟨rest, hrest⟩, us, hus, hcount⟩ := ((h₁.receive r).congr hrequests hserver).runs h
  rw [hrequests, BookingSystem.receive, List.append_assoc] at hrest
  have hn : s.requests[s₁.requests.length]? = some r := by
    rw [← hrest, List.getElem?_append_right le_rfl, Nat.sub_self]
    rfl
  obtain ⟨th, hth⟩ : ∃ th, s.server.threads[s₁.requests.length]? = some th := by
    refine ⟨_, List.getElem?_eq_getElem ?_⟩
    rw [Served.length ⟨_, hus⟩]
    exact (List.getElem?_eq_some_iff.mp hn).1
  have hstore := h₁.store ⟨_, hrest⟩
  refine ⟨th, hth, hn, ⟨_, hus, ?_⟩, ?_, fun c hc => ?_⟩
  · rw [← hcount _ (by simp [hrequests, BookingSystem.receive]), Pool.turnsOf, Pool.turnsOf, List.countP_append]
    exact Nat.le_add_left _ _
  · rw [← hstore, hus.2, Pool.runs_append]
    exact Pool.runs_store Db.Grows.refl Db.Grows.trans (Db.Grows.attempt m) us
  · -- The turns before the request arrived are none of its handler.
    have hbetween := serverPool_between (fun t ht => (h₁.1 t ht).ne) (hus.2 ▸ hth) hc
    rw [hstore, ← hus.2] at hbetween
    exact hbetween

section Handled
variable {r : Request} {n : Nat} {db₁ : Db} {turns : List (Turn Http)} {th : Thread Http Unit}

theorem Handled.along {P : Thread Http Unit → Prop} (h : Handled m rt db r n db₁ turns s th)
    (hP : (r.serve rt).Along (fun _ => True) P [] []) : P th := by
  obtain ⟨ts, hts, -⟩ := h.served
  exact serverPool_along (hts.2 ▸ h.thread) h.request hP

theorem Handled.reply (h : Handled m rt db r n db₁ turns s th) {reply : Reply} (hsent : th.sent = [reply]) :
    s.reply n = some reply := by
  rw [BookingSystem.reply, h.thread, Option.bind_some, hsent, List.head?_cons]

/-- The only reply that the request can have -/
theorem Handled.sent (h : Handled m rt db r n db₁ turns s th) {reply : Reply} (hr : s.reply n = some reply) :
    th.sent = [reply] := by
  obtain ⟨ts, hts, -⟩ := h.served
  obtain ⟨th', hth', -, hsent⟩ := Served.of_reply ⟨ts, hts⟩ hr
  obtain rfl := Option.some.inj (h.thread.symm.trans hth')
  exact hsent

end Handled

/-- A request that has arrived keeps its number. -/
theorem ServedBy.arrived (h : s.ServedBy m rt db ts) {r : Request} (hs : s.runs f m rt (.request r :: es) = some s') :
    s'.requests[s.requests.length]? = some r := by
  obtain ⟨th, hth⟩ := h.handled rfl rfl hs
  exact hth.request

theorem sportRows_screens {place : Screen → Option Facility} {user : ObjectId} {screens : List OpenScreen}
    {g : OpenScreen → List Booking}
    (hinj : ∀ s s' f f', place s = some f → place s' = some f' → f._id = f'._id → s = s')
    (h : ∀ o ∈ screens, ∀ b ∈ g o, ∃ f, place o.screen = some f ∧ b.facility = f._id) :
    sportRows place user (screens.flatMap g) = ((screens.flatMap fun o =>
      ((g o).filter (·.user == user)).map fun b => ⟨o.screen.sport, b.startDateTime⟩ : List BookingRow) :
        Multiset BookingRow) := by
  induction screens with
  | nil => exact sportRows_nil
  | cons o screens ih =>
    have ih := ih fun o' ho' => h o' (List.mem_cons_of_mem o ho')
    rw [List.flatMap_cons, sportRows_append, ih, sportRows_screen hinj (h o List.mem_cons_self), List.flatMap_cons,
      ← Multiset.coe_add]

/-- A booking behind a confirmation is at the facility of the sport of its screen. -/
theorem Inv.placed (h : Inv m rt db es s) {o : OpenScreen} (ho : o ∈ s.screens) {b : Booking} (hb : b ∈ s.booked o) :
    ∃ facility, s.server.store.facilityOf o.screen = some facility ∧ b.facility = facility._id := by
  obtain ⟨i, hi⟩ := List.mem_iff_getElem?.mp ho
  have hfits := h.fits i o hi
  obtain ⟨n, hn, hb⟩ := List.mem_filterMap.mp hb
  obtain ⟨r, hr, hpicked⟩ := hfits.asked n (hfits.subset n (List.mem_append_left _ hn))
  obtain ⟨th, hth, hb⟩ := Option.bind_eq_some_iff.mp hb
  obtain ⟨c, hc, hcb⟩ := List.exists_of_findSome?_eq_some hb
  exact h.served.placed hr hpicked hth hc hcb

/-- Each confirmation that a screen has shown to a user is a row of every profile that is asked for with the email of
    the user afterwards. -/
theorem runs_confirmed (f : Foundation) (m : Mongoose) (rt : Runtime) (db : Db) (es₁ es₂ : List SystemEvent)
    (email : String) {s₁ s : BookingSystem} (h₁ : (start db).runs f m rt es₁ = some s₁)
    (h : s₁.runs f m rt (.request (.route .profile (profileParameters email)) :: es₂) = some s)
    {r : Reply} (hr : s.reply s₁.requests.length = some r) (hdata : r.data ≠ none) :
    ∃ user, s.server.store.users.docs.find? (·.email == email) = some user ∧
      ((s₁.screens.flatMap fun o => ((s₁.booked o).filter (·.user == user._id)).map fun b =>
        ⟨o.screen.sport, b.startDateTime⟩ : List BookingRow) : Multiset BookingRow) ≤ (fetchData r).1 := by
  have hinv := runs_inv h₁
  obtain ⟨ts₁, hts₁⟩ := id hinv.served
  rw [runs_cons, step, Option.bind_some] at h
  obtain ⟨th, hth⟩ := hts₁.handled rfl rfl h
  obtain ⟨data, hdata⟩ := Option.ne_none_iff_exists'.mp hdata
  obtain ⟨user, huser, hbetween⟩ := (hth.along serveProfile_read).between hth.between
    (hth.sent hr ▸ List.mem_singleton_self r) hdata
  rw [loggedIn_of_ok (m.matchEmail_str email)] at huser
  refine ⟨user, huser, ?_⟩
  have hscreens : ∀ o ∈ s₁.screens, ∀ b ∈ s₁.booked o,
      ∃ f, s.server.store.facilityOf o.screen = some f ∧ b.facility = f._id := fun o ho b hb => by
    obtain ⟨facility, hfacility, hb⟩ := hinv.placed ho hb
    exact ⟨facility, hth.grows.facilities.find?_eq_some hfacility, hb⟩
  have hstored : (s₁.screens.flatMap s₁.booked).Subperm s₁.server.store.bookings :=
    (List.sublist_append_right _ _).subperm.trans hinv.booked
  calc ((s₁.screens.flatMap fun o => ((s₁.booked o).filter (·.user == user._id)).map fun b =>
        ⟨o.screen.sport, b.startDateTime⟩ : List BookingRow) : Multiset BookingRow)
    _ = sportRows s.server.store.facilityOf user._id (s₁.screens.flatMap s₁.booked) :=
      (sportRows_screens (fun _ _ _ _ => facilityOf_injective) hscreens).symm
    _ ≤ sportRows s.server.store.facilityOf user._id s₁.server.store.bookings := sportRows_subperm hstored
    _ ≤ (fetchData r).1 := hbetween.rows hdata

theorem runs_confirmed_club : ∃ (s₁ s : BookingSystem) (r : Reply) (user : User),
    (start club).runs BookingScreen.plainFoundation mongoose6 utc.runtime middayBooked = some s₁ ∧
      s₁.runs BookingScreen.plainFoundation mongoose6 utc.runtime
        (.request (.route .profile (profileParameters "home@club.test")) :: List.replicate 9 (.turn ⟨1, none⟩)) =
        some s ∧ s.reply s₁.requests.length = some r ∧ s₁.screens.flatMap s₁.booked ≠ [] ∧
      ((s₁.screens.flatMap fun o => ((s₁.booked o).filter (·.user == user._id)).map fun b =>
        ⟨o.screen.sport, b.startDateTime⟩ : List BookingRow) : Multiset BookingRow) ≤ (fetchData r).1 := by
  have hrun : (((start club).runs BookingScreen.plainFoundation mongoose6 utc.runtime middayBooked).any fun s₁ =>
      (s₁.screens.flatMap s₁.booked).length == 1 &&
        (s₁.runs BookingScreen.plainFoundation mongoose6 utc.runtime
          (.request (.route .profile (profileParameters "home@club.test")) ::
            List.replicate 9 (.turn ⟨1, none⟩))).any fun s =>
          (s.reply s₁.requests.length).any fun r => r.data.isSome) = true := by decide +kernel
  obtain ⟨s₁, hs₁, hrun⟩ := (Option.any_eq_true _ _).mp hrun
  rw [Bool.and_eq_true] at hrun
  obtain ⟨hone, hrun⟩ := hrun
  obtain ⟨s, hs, hrun⟩ := (Option.any_eq_true _ _).mp hrun
  obtain ⟨r, hr, hrun⟩ := (Option.any_eq_true _ _).mp hrun
  obtain ⟨user, -, hrows⟩ := runs_confirmed BookingScreen.plainFoundation mongoose6 utc.runtime club middayBooked
    (List.replicate 9 (.turn ⟨1, none⟩)) "home@club.test" hs₁ hs hr (Option.isSome_iff_ne_none.mp hrun)
  refine ⟨s₁, s, r, user, hs₁, hs, hr, fun hnil => ?_, hrows⟩
  rw [hnil] at hone
  cases hone

end BookingSystem
end KhelaKaro
