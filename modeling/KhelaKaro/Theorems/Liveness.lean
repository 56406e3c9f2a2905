import KhelaKaro.Theorems.ProfileReads

/-! # Liveness

No request waits for another one: each has its answer after a fixed number of its own turns, however the turns of the
others lie between them and whichever calls fail (`serverPool_ends`). So the button of a screen comes back for every
user whom the server knows (`runs_unstuck`). -/

namespace KhelaKaro
open Async

/-! ### The rounds of a request -/

/-- The most calls that a request makes, the one of the gate among them -/
def Request.rounds : Request → Nat
  | .register _ => 2
  | .route .booking _ => 7
  | .route .profile _ => 9
  | .route _ _ => 2

section Rounds
variable {rt : Runtime} {body : Json} {user : User} {n : Nat}

theorem within_respond (r : Reply) : (respond r).Within n := trivial

theorem within_orServerError {op : Op} {next : op.Ans → Proc Http Unit} (h : ∀ a, (next a).Within n) :
    (orServerError op next).Within (n + 1) :=
  ⟨h, fun _ => within_respond _⟩

theorem postBooking_rounds : (postBooking rt body user).Within 6 := by
  cases hd : newDate rt (body.prop "startDateTime") with
  | error e =>
    rw [postBooking_throws hd]
    trivial
  | ok d =>
  rw [postBooking_eq hd]
  refine within_orServerError fun _ => within_orServerError fun facility => ?_
  cases Json.get (body.prop "facilityId") "_id" with
  | error e => exact within_respond _
  | ok ref =>
  refine within_orServerError fun bookings => within_orServerError fun b => ?_
  cases b with
  | some b => exact within_respond _
  | none =>
  cases facility with
  | none => exact within_respond _
  | some facility =>
  refine within_orServerError fun arr => ?_
  split
  · exact within_respond _
  · cases allocate (getTime d) (getTime d + .val slotLength) facility.count bookings with
    | none => exact within_respond _
    | some court => exact within_orServerError fun _ => within_respond _

theorem sportBookings_rounds {sport : Nat} {f : List Date → Proc Http Unit} (h : ∀ l, (f l).Within n) :
    (sportBookings user sport >>= f).Within (n + 2) := by
  refine ⟨fun facility => ?_, fun _ => trivial⟩
  cases facility with
  | none => trivial
  | some facility => exact ⟨fun bs => h _, fun _ => trivial⟩

theorem postProfile_rounds : (postProfile user).Within 8 :=
  Proc.Within.tryCatch (sportBookings_rounds fun _ => sportBookings_rounds fun _ => sportBookings_rounds fun _ =>
    sportBookings_rounds fun _ => trivial) fun _ => within_respond _

theorem Request.serve_rounds (r : Request) : (r.serve rt).Within r.rounds := by
  cases r with
  | register body =>
    refine ⟨fun user => ?_, fun _ => within_respond _⟩
    cases user with
    | some user => exact within_respond _
    | none => exact ⟨fun _ => within_respond _, fun _ => within_respond _⟩
  | route r body =>
    have hgate : ∀ {k : Nat}, (∀ user, (r.handler rt body user).Within k) → (r.serve rt body).Within (k + 1) :=
      fun h => ⟨fun user => by
        cases user with
        | none => trivial
        | some user => exact h user, fun _ => within_respond _⟩
    cases r with
    | booking => exact hgate fun _ => postBooking_rounds
    | profile => exact hgate fun _ => postProfile_rounds
    | facilityAdd => exact hgate fun _ => ⟨fun _ => within_respond _, fun _ => within_respond _⟩
    | allFacilities => exact hgate fun _ => ⟨fun _ => within_respond _, fun _ => within_respond _⟩
    | getName =>
      refine hgate fun _ => ⟨fun user => ?_, fun _ => within_respond _⟩
      cases user with
      | none => trivial
      | some user => exact within_respond _

end Rounds

section Pool
variable {m : Mongoose} {rt : Runtime} {db : Db} {rs : List Request} {ts : List (Turn Http)} {i : Nat}
  {th : Thread Http Unit} {r : Request}

theorem serverPool_ended (hi : ((serverPool rt db rs).runs (Db.exec m) ts).threads[i]? = some th)
    (hr : rs[i]? = some r) (hturns : r.rounds ≤ Pool.turnsOf i ts) : th.finished = true := by
  refine Pool.runs_ended (fun t ht => ?_) hturns hi
  rw [List.getElem?_map, hr, Option.map_some, Option.some.injEq] at ht
  exact ht ▸ r.serve_rounds

/-- A request has ended after as many turns of its own as it makes calls at most, with its one reply unless it is left
    without one. -/
theorem serverPool_ends (m : Mongoose) (rt : Runtime) (db : Db) (rs : List Request) (ts : List (Turn Http)) {i : Nat}
    {th : Thread Http Unit} {r : Request} (hi : ((serverPool rt db rs).runs (Db.exec m) ts).threads[i]? = some th)
    (hr : rs[i]? = some r) (hturns : r.rounds ≤ Pool.turnsOf i ts) : th.finished = true ∧
      (r.Unanswered rt th.calls ∧ th.sent = [] ∨ ¬r.Unanswered rt th.calls ∧ ∃ reply, th.sent = [reply]) :=
  ⟨serverPool_ended hi hr hturns, serverPool_settled hi hr (serverPool_ended hi hr hturns)⟩

theorem serverPool_ends_club : ∃ th : Thread Http Unit,
    ((serverPool utc.runtime club homeAndAway).runs (Db.exec mongoose6) inTurns).threads[0]? = some th ∧
      th.finished = true := by
  obtain ⟨th, hth⟩ : ∃ th,
      ((serverPool utc.runtime club homeAndAway).runs (Db.exec mongoose6) inTurns).threads[0]? = some th :=
    ⟨_, rfl⟩
  exact ⟨th, hth, (serverPool_ends mongoose6 utc.runtime club homeAndAway inTurns hth rfl (by decide)).1⟩

end Pool

/-! ### The button -/

/-- The gate finds a user that was stored before the handler had a turn. -/
theorem AnsweredBetween.registered {m : Mongoose} {db₁ db₂ : Db} {body : Json} {email : String} {user : User}
    (h : AnsweredBetween m db₁ db₂ (identified body none)) (hemail : body.prop "email" = some (.str email))
    (hmem : user ∈ db₁.users.docs) : user.email ≠ email := by
  obtain ⟨db, fault, hearlier, hanswer, -⟩ := h
  obtain ⟨p, hp, hfind⟩ := find_of_answer hanswer.symm
  rw [hemail, m.matchEmail_str, Except.ok.injEq] at hp
  subst hp
  have hnone := List.find?_eq_none.mp hfind user (hearlier.users.subset hmem)
  simpa using hnone

namespace BookingSystem
variable {f : Foundation} {m : Mongoose} {rt : Runtime} {db : Db} {s s₁ s₂ : BookingSystem} {es : List SystemEvent}
  {i : Nat} {o : OpenScreen} {zone : Zone} {date : Date} {email : String}

theorem Handled.settled {r : Request} {n : Nat} {db₁ : Db} {turns : List (Turn Http)} {th : Thread Http Unit}
    (h : Handled m rt db r n db₁ turns s th) (hturns : r.rounds ≤ Pool.turnsOf n turns) : th.finished = true ∧
      (r.Unanswered rt th.calls ∧ th.sent = [] ∨ ¬r.Unanswered rt th.calls ∧ ∃ reply, th.sent = [reply]) := by
  obtain ⟨ts, hts, hcount⟩ := h.served
  have hth := hts.2 ▸ h.thread
  have hend := serverPool_ended hth h.request (hturns.trans hcount)
  exact ⟨hend, serverPool_settled hth h.request hend⟩

/-- A press of a signed-in user in the opening hours sends one request. -/
theorem press_receives (hs : s₁.step f m rt (.bookNowPressed i zone (some ⟨some email⟩) date) = some s₂)
    (hopen : 11 ≤ zone.hour date.time ∧ zone.hour date.time < 19) : ∃ screen : Screen,
      s₂.requests = (s₁.receive rt (.route .booking
        (bookCourt screen.facilityId (dateInput zone date) email))).requests ∧
      s₂.server = (s₁.receive rt (.route .booking
        (bookCourt screen.facilityId (dateInput zone date) email))).server := by
  obtain ⟨o, hi, hs⟩ := Option.bind_eq_some_iff.mp hs
  obtain ⟨v, hv, hs⟩ := Option.bind_eq_some_iff.mp hs
  obtain rfl := Option.some.inj hs
  obtain ⟨-, hv⟩ := BookingScreen.step_press.mp hv
  rw [BookingScreen.bookNowPressed_user _ hopen, Option.map_some, Option.some.injEq] at hv
  subst hv
  refine ⟨o.screen, ?_⟩
  simp only [BookingSystem.press, BookingScreen.request, List.getElem?_concat_length]
  exact ⟨rfl, rfl⟩

/-- A response that is there can be delivered, and enables the button. -/
theorem Fits.response {n j : Nat} {body : Json} {r : Reply} (hfits : Fits es s i o) (hserved : s.Served m rt db)
    (hi : s.screens[i]? = some o) (hj : o.waiting[j]? = some n) (hn : s.requests[n]? = some (.route .booking body))
    (hr : s.reply n = some r) : ∃ s', s.step f m rt (.response i j) = some s' ∧
      ∃ o', s'.screens[i]? = some o' ∧ o'.view.InPhase .ready ∧ o'.waiting = [] := by
  obtain ⟨⟨p, hp⟩, hparallel, -, -, -, -, -⟩ := hfits
  obtain ⟨th, hth, -, hsent⟩ := hserved.of_reply hr
  obtain ⟨success, msg, hbody, -⟩ := (hserved.ofBooking hn hth r (by simp [hsent])).confirms
  obtain ⟨fields, hjson, hmsg⟩ := Reply.json_msg hbody
  have hlt : j < o.view.outstanding.length := hparallel ▸ (List.getElem?_eq_some_iff.mp hj).1
  obtain ⟨v, hv⟩ : ∃ v, o.view.step f o.screen (.response j (some (.obj fields))) = some v :=
    ⟨_, (if_pos hlt).trans (by simp only [bookCourtResult, Json.ofData, Option.map_some]; rfl)⟩
  obtain rfl := hp.eq_waiting hlt
  obtain ⟨p', hnext, hready⟩ := BookingScreen.step_phase hp hv
  obtain ⟨-, body', hone⟩ := hp
  rw [hone, List.length_singleton] at hparallel hlt
  obtain rfl := Nat.lt_one_iff.mp hlt
  obtain ⟨n', hwaiting⟩ := List.length_eq_one_iff.mp hparallel
  refine ⟨s.setScreen i { o with view := v, waiting := o.waiting.eraseIdx 0, answered := o.answered ++ [n] }, ?_,
    { o with view := v, waiting := o.waiting.eraseIdx 0, answered := o.answered ++ [n] }, ?_, ?_, ?_⟩
  · simp only [step, hi, hj, hr, hjson, hv, Option.bind_eq_bind, Option.bind_some]
  · exact List.getElem?_set_self (List.getElem?_eq_some_iff.mp hi).1
  · cases hnext
    exact hready
  · rw [hwaiting]
    rfl

/-- Where a user whom the server knows has pressed the button in the opening hours, the request has its reply after 7
    turns of its handler, and the response enables the button. -/
theorem runs_unstuck (f : Foundation) (m : Mongoose) (rt : Runtime) (db : Db) (es₁ es₂ : List SystemEvent) {i j : Nat}
    {zone : Zone} {date : Date} {email : String} {o : OpenScreen} (h₁ : (start db).runs f m rt es₁ = some s₁)
    (hpress : s₁.step f m rt (.bookNowPressed i zone (some ⟨some email⟩) date) = some s₂)
    (hopen : 11 ≤ zone.hour date.time ∧ zone.hour date.time < 19)
    (hregistered : ∃ user ∈ s₁.server.store.users.docs, user.email = email)
    (h₂ : s₂.runs f m rt es₂ = some s)
    (hturns : 7 ≤ Pool.turnsOf s₁.requests.length (es₂.flatMap SystemEvent.turns))
    (hi : s.screens[i]? = some o) (hj : o.waiting[j]? = some s₁.requests.length) :
    ∃ s', s.step f m rt (.response i j) = some s' ∧
      ∃ o', s'.screens[i]? = some o' ∧ o'.view.InPhase .ready ∧ o'.waiting = [] := by
  have hinv : Inv m rt db (es₁ ++ .bookNowPressed i zone (some ⟨some email⟩) date :: es₂) s := runs_inv (f := f) (by
    rw [runs_append, h₁, Option.bind_some, runs_cons, hpress, Option.bind_some, h₂])
  obtain ⟨ts₁, hts₁⟩ := (runs_inv h₁).served
  obtain ⟨screen, hrequests, hserver⟩ := press_receives hpress hopen
  obtain ⟨th, hth⟩ := hts₁.handled hrequests hserver h₂
  rcases (hth.settled hturns).2 with ⟨hnone | ⟨-, ⟨e, he⟩, -⟩, -⟩ | ⟨-, reply, hsent⟩
  · obtain ⟨user, hmem, hemail⟩ := hregistered
    exact absurd hemail ((hth.between _ (hnone ▸ List.mem_singleton_self _)).registered rfl hmem)
  · cases he
  · exact (hinv.fits i o hi).response hinv.served hi hj hth.request (hth.reply hsent)

theorem runs_unstuck_club : ∃ s₁ s₂ s s',
    (start club).runs BookingScreen.plainFoundation mongoose6 utc.runtime [.viewDidLoad .badminton] = some s₁ ∧
      s₁.step BookingScreen.plainFoundation mongoose6 utc.runtime
        (.bookNowPressed 0 utc (some ⟨some "home@club.test"⟩) midsummer) = some s₂ ∧
      s₂.runs BookingScreen.plainFoundation mongoose6 utc.runtime (List.replicate 7 (.turn ⟨0, none⟩)) = some s ∧
      s.step BookingScreen.plainFoundation mongoose6 utc.runtime (.response 0 0) = some s' ∧
      ∃ o', s'.screens[0]? = some o' ∧ o'.view.InPhase .ready := by
  have hrun : (((start club).runs BookingScreen.plainFoundation mongoose6 utc.runtime [.viewDidLoad .badminton]).any
      fun s₁ => s₁.requests.length == 0 && s₁.server.store.users.docs.contains homePlayer &&
        (s₁.step BookingScreen.plainFoundation mongoose6 utc.runtime
          (.bookNowPressed 0 utc (some ⟨some "home@club.test"⟩) midsummer)).any fun s₂ =>
        (s₂.runs BookingScreen.plainFoundation mongoose6 utc.runtime (List.replicate 7 (.turn ⟨0, none⟩))).any
          fun s => s.screens[0]?.any fun o => o.waiting[0]? == some 0) = true := by decide +kernel
  obtain ⟨s₁, hs₁, hrun⟩ := (Option.any_eq_true _ _).mp hrun
  rw [Bool.and_eq_true, Bool.and_eq_true] at hrun
  obtain ⟨⟨hlength, hhome⟩, hrun⟩ := hrun
  obtain ⟨s₂, hs₂, hrun⟩ := (Option.any_eq_true _ _).mp hrun
  obtain ⟨s, hs, hrun⟩ := (Option.any_eq_true _ _).mp hrun
  obtain ⟨o, hi, hrun⟩ := (Option.any_eq_true _ _).mp hrun
  have hlength : s₁.requests.length = 0 := eq_of_beq hlength
  obtain ⟨s', hs', o', ho', hready, -⟩ := runs_unstuck BookingScreen.plainFoundation mongoose6 utc.runtime club
    [.viewDidLoad .badminton] (List.replicate 7 (.turn ⟨0, none⟩)) hs₁ hs₂ (by decide)
    ⟨homePlayer, List.contains_iff_mem.mp hhome, rfl⟩ hs (by rw [hlength]; decide) hi (by
      rw [hlength]
      exact eq_of_beq hrun)
  exact ⟨s₁, s₂, s, s', hs₁, hs₂, hs, hs', o', ho', hready⟩

end BookingSystem
end KhelaKaro
