import KhelaKaro.Async.Readers
import KhelaKaro.Async.Rounds
import KhelaKaro.BookingSystem
import KhelaKaro.Theorems.BookingButton
import KhelaKaro.Theorems.ProfileAgreement
import KhelaKaro.Theorems.Service

/-! # Confirmations

What the screens of all devices show of the bookings. The server of a running system is the server that has had all
requests from the start (`Inv.served`), so what holds of any mix of requests holds here. A screen shows the court of
each request that was granted one and whose response came through, once and in the order of the responses. -/

namespace KhelaKaro
open Async

/-! ### The replies of the booking route -/

def confirmation (court : Nat) : String := "Booked court " ++ toString court ++ " successfully!"

/-- The message begins like a confirmation. -/
def confirms (msg : String) : Bool := "Booked court ".toList.isPrefixOf msg.toList

theorem confirms_confirmation (court : Nat) : confirms (confirmation court) = true := by
  rw [confirms, confirmation, String.toList_append, String.toList_append, List.append_assoc,
    List.isPrefixOf_iff_prefix]
  exact List.prefix_append _ _

/-- The replies of the booking route without a court -/
def Reply.refusals : List Reply :=
  [.alreadyBooked, .bookedWithin24Hours, .allOccupied, .serverError,
    .message false "Email is not valid. Please log in again." 401]

/-- A reply of the booking route. For a `facilityId` without a property `_id`, the court is 1 if the query by an
    undefined facility has found nothing. -/
inductive Reply.OfBooking (body : Json) (calls : List (Call Http)) (r : Reply) : Prop where
  | refused (h : r ∈ refusals)
  | booked (court : Nat) (h : r = .booked court)
      (hone : (∀ v, body.prop "facilityId" = some v → v.prop "_id" = none) →
        (∀ read, fetched none read ∈ calls → read = []) → court = 1)

section Route
variable {rt : Runtime} {body : Json} {calls : List (Call Http)}

/-- A message to a screen confirms a court exactly when the reply has one. -/
theorem Reply.OfBooking.confirms {r : Reply} (h : r.OfBooking body calls) : ∃ success msg,
    r.body = .object success msg r.courtNumber none ∧
      [msg].filter KhelaKaro.confirms = r.courtNumber.toList.map confirmation := by
  cases h with
  | refused h =>
    simp only [refusals, List.mem_cons, List.not_mem_nil, or_false] at h
    rcases h with rfl | rfl | rfl | rfl | rfl
    all_goals exact ⟨_, _, rfl, by decide +kernel⟩
  | booked court h hone =>
    subst h
    exact ⟨true, confirmation court, rfl, by simp [confirms_confirmation, Reply.booked, Reply.courtNumber]⟩

theorem courtNumber_of_mem_refusals {r : Reply} (h : r ∈ Reply.refusals) : r.courtNumber = none := by
  have hall : ∀ r ∈ Reply.refusals, r.courtNumber = none := by decide
  exact hall r h

theorem allocate_nil_eq {s e : Number} {count : Option ℚ} {court : Nat} (h : allocate s e count [] = some court) :
    court = 1 := by
  have hfree : ¬Reaches (meeting s e []).length count := by
    rw [← allocate_eq_none_iff, h]
    exact Option.some_ne_none court
  rw [allocate_eq_some hfree, Option.some.injEq] at h
  rw [← h, meeting_nil, List.map_nil, bookCourtNumber]
  simp only [List.not_mem_nil, not_false_eq_true, decide_true]
  cases count.elim 0 fun q => q.floor.toNat with
  | zero => rfl
  | succ n => rfl

theorem serveBooking_replies : (serveBooking rt body).Along (fun _ => True)
    (fun th : Thread Http Unit => ∀ r ∈ th.sent, Reply.OfBooking body th.calls r) [] [] := by
  have hnone : ∀ {calls : List (Call Http)}, ∀ r ∈ ([] : List Reply), Reply.OfBooking body calls r := by simp
  have hrefused : ∀ {r : Reply} {calls : List (Call Http)}, r ∈ Reply.refusals →
      ∀ r' ∈ [r], Reply.OfBooking body calls r' :=
    fun hr => List.forall_mem_singleton.mpr (.refused hr)
  have herror : ∀ {calls : List (Call Http)}, ∀ r ∈ [Reply.serverError], Reply.OfBooking body calls r :=
    hrefused (by decide)
  refine ⟨hnone, fun user _ => ?_, fun _ _ => hrefused (by decide)⟩
  cases user with
  | none => exact hnone
  | some user =>
  cases hd : newDate rt (body.prop "startDateTime") with
  | error e =>
    simp only [postBooking_throws hd]
    exact hnone
  | ok d =>
  simp only [postBooking_eq hd]
  refine ⟨hnone, fun _ _ => ⟨hnone, fun facility _ => ?_, fun _ _ => herror⟩, fun _ _ => herror⟩
  cases href : Json.get (body.prop "facilityId") "_id" with
  | error e => exact herror
  | ok ref =>
  refine ⟨hnone, fun read _ => ⟨hnone, fun b _ => ?_, fun _ _ => herror⟩, fun _ _ => herror⟩
  cases b with
  | some b => exact hrefused (by decide)
  | none =>
  cases facility with
  | none => exact herror
  | some facility =>
  refine ⟨hnone, fun sport _ => ?_, fun _ _ => herror⟩
  dsimp only
  split
  · exact hrefused (by decide)
  cases halloc : allocate (getTime d) (getTime d + .val slotLength) facility.count read with
  | none => exact hrefused (by decide)
  | some court =>
    refine ⟨hnone, fun _ _ => List.forall_mem_singleton.mpr (.booked court rfl fun hid hread => ?_), fun _ _ => herror⟩
    obtain rfl := ref_eq_none href hid
    obtain rfl := hread read (by simp [fetched])
    exact allocate_nil_eq halloc

end Route

/-! ### What a screen shows -/

/-- The confirmations among the alerts -/
def BookingScreen.shown (v : BookingScreen) : List String := (v.alerts.map Alert.message).filter confirms

section Screens
variable {v v' : BookingScreen} {f : Foundation} {screen : Screen} {zone : Zone} {currentUser : Option FirebaseUser}
  {date : Date}

theorem completion_shown (result : String) : (v.completion f result).shown = v.shown ++ [result].filter confirms := by
  unfold BookingScreen.completion
  split
  · simp [BookingScreen.shown, BookingScreen.showErrorMsg]
  · rename_i hempty
    rw [ne_eq, not_not] at hempty
    rw [hempty, show [""].filter confirms = [] by decide +kernel, List.append_nil]
    rfl

/-- A press at rest sends one request for an hour that is offered, or none; it confirms nothing. -/
theorem press_cases (hready : v.InPhase .ready)
    (hs : v.step f screen (.press zone currentUser date) = some v') : v'.shown = v.shown ∧
      (v'.outstanding = [] ∨ (11 ≤ zone.hour date.time ∧ zone.hour date.time < 19) ∧
        ∃ email, currentUser = some ⟨some email⟩ ∧
          v'.outstanding = [bookCourt screen.facilityId (dateInput zone date) email]) := by
  obtain ⟨henabled, hs⟩ := BookingScreen.step_press.mp hs
  obtain ⟨-, hnil⟩ := hready
  by_cases hopen : 11 ≤ zone.hour date.time ∧ zone.hour date.time < 19
  · cases currentUser with
    | none =>
      rw [BookingScreen.bookNowPressed_nobody hopen, Option.some.injEq] at hs
      subst hs
      exact ⟨rfl, Or.inl hnil⟩
    | some user =>
      rw [BookingScreen.bookNowPressed_user user hopen, Option.map_eq_some_iff] at hs
      obtain ⟨email, hemail, rfl⟩ := hs
      refine ⟨rfl, Or.inr ⟨hopen, email, congrArg some (congrArg FirebaseUser.mk hemail), ?_⟩⟩
      simp only [BookingScreen.request, hnil, List.nil_append]
  · rw [BookingScreen.bookNowPressed_shut hopen, Option.some.injEq] at hs
    subst hs
    refine ⟨?_, Or.inl hnil⟩
    have hshut : confirms "Please choose timings between 11am to 7pm" = false := by decide +kernel
    simp [BookingScreen.shown, BookingScreen.showErrorMsg, hshut]

theorem response_shown {i : Nat} {data : Option Json} (hs : v.step f screen (.response i data) = some v') :
    ∃ result, bookCourtResult f data = some result ∧ v'.shown = v.shown ++ [result].filter confirms := by
  obtain ⟨-, hs⟩ := Option.ite_none_right_eq_some.mp hs
  obtain ⟨result, hresult, rfl⟩ := Option.map_eq_some_iff.mp hs
  exact ⟨result, hresult, completion_shown result⟩

end Screens

namespace BookingSystem
variable {f : Foundation} {m : Mongoose} {rt : Runtime} {db : Db} {s s' : BookingSystem}

/-! ### The server -/

/-- The server has had all its requests from the start, and these turns. -/
def ServedBy (m : Mongoose) (rt : Runtime) (db : Db) (ts : List (Turn Http)) (s : BookingSystem) : Prop :=
  (∀ t ∈ ts, t.thread < s.requests.length) ∧ s.server = (serverPool rt db s.requests).runs (Db.exec m) ts

def Served (m : Mongoose) (rt : Runtime) (db : Db) (s : BookingSystem) : Prop := ∃ ts, s.ServedBy m rt db ts

theorem serverPool_concat (rs : List Request) (r : Request) :
    serverPool rt db (rs ++ [r]) = (serverPool rt db rs).receive (r.serve rt) := by
  rw [serverPool, List.map_append, List.map_singleton, Pool.start_concat]
  rfl

theorem length_serverPool (rs : List Request) : (serverPool rt db rs).threads.length = rs.length := by
  rw [serverPool, Pool.start, List.length_map, List.length_map]

theorem ServedBy.receive {ts : List (Turn Http)} (h : s.ServedBy m rt db ts) (r : Request) :
    (s.receive rt r).ServedBy m rt db ts := by
  obtain ⟨hts, hserver⟩ := h
  refine ⟨fun t ht => ?_, ?_⟩
  · have hlt := hts t ht
    simp only [BookingSystem.receive, List.length_append]
    omega
  · simp only [BookingSystem.receive, hserver]
    rw [serverPool_concat, Pool.runs_receive (by rw [length_serverPool]; exact hts)]

/-- A turn is one of a request that has arrived, or it does nothing. -/
theorem ServedBy.turn_cases {ts : List (Turn Http)} (h : s.ServedBy m rt db ts) (t : Turn Http) :
    (t.thread < s.requests.length ∧ { s with server := s.server.step (Db.exec m) t }.ServedBy m rt db (ts ++ [t])) ∨
      (s.requests.length ≤ t.thread ∧ { s with server := s.server.step (Db.exec m) t } = s) := by
  obtain ⟨hts, hserver⟩ := h
  rcases lt_or_ge t.thread s.requests.length with hlt | hge
  · refine Or.inl ⟨hlt, fun t' ht' => ?_, ?_⟩
    · rcases List.mem_append.mp ht' with ht' | ht'
      · exact hts t' ht'
      · obtain rfl := List.mem_singleton.mp ht'
        exact hlt
    · rw [Pool.runs_concat, ← hserver]
  · have hnone : s.server.threads[t.thread]? = none := by
      rw [List.getElem?_eq_none_iff, hserver, Pool.runs_length, length_serverPool]
      exact hge
    exact Or.inr ⟨hge, by rw [Pool.step_none hnone]⟩

theorem ServedBy.turn {ts : List (Turn Http)} (h : s.ServedBy m rt db ts) (t : Turn Http) :
    ∃ us, { s with server := s.server.step (Db.exec m) t }.ServedBy m rt db (ts ++ us) ∧
      ∀ n < s.requests.length, Pool.turnsOf n us = Pool.turnsOf n [t] := by
  rcases h.turn_cases t with ⟨-, hserved⟩ | ⟨hge, hsame⟩
  · exact ⟨[t], hserved, fun _ _ => rfl⟩
  · refine ⟨[], by rwa [hsame, List.append_nil], fun n hn => ?_⟩
    have hne : t.thread ≠ n := (hn.trans_le hge).ne'
    simp [Pool.turnsOf, hne]

theorem Served.receive (h : s.Served m rt db) (r : Request) : (s.receive rt r).Served m rt db := by
  obtain ⟨ts, hts⟩ := h
  exact ⟨ts, hts.receive r⟩

theorem Served.turn (h : s.Served m rt db) (t : Turn Http) :
    { s with server := s.server.step (Db.exec m) t }.Served m rt db := by
  obtain ⟨ts, hts⟩ := h
  obtain ⟨us, hus, -⟩ := hts.turn t
  exact ⟨ts ++ us, hus⟩

/-- Later, as far as the screens can tell: no request and no reply is lost. -/
structure Extends (s s' : BookingSystem) : Prop where
  requests : s.requests <+: s'.requests
  reply : ∀ n r, s.reply n = some r → s'.reply n = some r

theorem Served.length (h : s.Served m rt db) : s.server.threads.length = s.requests.length := by
  obtain ⟨ts, -, hserver⟩ := h
  rw [hserver, Pool.runs_length, length_serverPool]

/-- The thread of a request that has a reply has ended, with this reply. -/
theorem Served.of_reply (h : s.Served m rt db) {n : Nat} {reply : Reply} (hr : s.reply n = some reply) :
    ∃ th, s.server.threads[n]? = some th ∧ th.finished = true ∧ th.sent = [reply] := by
  obtain ⟨ts, -, hserver⟩ := h
  obtain ⟨th, hth, hhead⟩ := Option.bind_eq_some_iff.mp hr
  have hth' := hserver ▸ hth
  obtain ⟨r, hr'⟩ := serverPool_request hth'
  have hnone : th.sent ≠ [] := by
    rintro hsent
    rw [hsent] at hhead
    cases hhead
  cases serverPool_along hth' hr' r.serve_replied with
  | going hgoing hsent => exact absurd hsent hnone
  | reply hend reply' hsent h =>
    rw [hsent, List.head?_cons, Option.some.injEq] at hhead
    exact ⟨th, hth, hend, hhead ▸ hsent⟩
  | unanswered hend hsent h => exact absurd hsent hnone
  | vanished body user hsent h => exact absurd hsent hnone

theorem Served.extends_receive (h : s.Served m rt db) (r : Request) : Extends s (s.receive rt r) where
  requests := List.prefix_append _ _
  reply n reply hr := by
    obtain ⟨th, hth, -, hsent⟩ := h.of_reply hr
    have hlt := (List.getElem?_eq_some_iff.mp hth).1
    have hsame : (s.receive rt r).server.threads[n]? = some th := (List.getElem?_append_left hlt).trans hth
    rw [BookingSystem.reply, hsame, Option.bind_some, hsent, List.head?_cons]

theorem receive_request {r r' : Request} {n : Nat} (h : (s.receive rt r).requests[n]? = some r') :
    s.requests[n]? = some r' ∨ r' = r := by
  rcases lt_or_ge n s.requests.length with hlt | hge
  · exact Or.inl ((List.getElem?_append_left hlt).symm.trans h)
  · have hlast := (List.getElem?_append_right hge).symm.trans h
    rw [List.getElem?_singleton, Option.ite_none_right_eq_some] at hlast
    exact Or.inr (Option.some.inj hlast.2).symm

theorem Served.ofBooking (h : s.Served m rt db) {n : Nat} {body : Json} {th : Thread Http Unit}
    (hn : s.requests[n]? = some (.route .booking body)) (hth : s.server.threads[n]? = some th) :
    ∀ r ∈ th.sent, Reply.OfBooking body th.calls r := by
  obtain ⟨ts, -, hserver⟩ := h
  exact serverPool_along (hserver ▸ hth) hn serveBooking_replies

theorem Served.extends_turn (h : s.Served m rt db) (t : Turn Http) :
    Extends s { s with server := s.server.step (Db.exec m) t } where
  requests := List.prefix_rfl
  reply n reply hr := by
    obtain ⟨th, hth, hfin, hsent⟩ := h.of_reply hr
    rw [BookingSystem.reply, Pool.step_finished t hth hfin, Option.bind_some, hsent, List.head?_cons]

/-! ### The screens -/

/-- The court that request number `n` has been granted -/
def court (s : BookingSystem) (n : Nat) : Option Nat := (s.reply n).bind Reply.courtNumber

/-- A press of a signed-in user for an hour that is offered stands behind the request. -/
def Picked (es : List SystemEvent) (i : Nat) (screen : Screen) (r : Request) : Prop :=
  ∃ (zone : Zone) (date : Date) (email : String), .bookNowPressed i zone (some ⟨some email⟩) date ∈ es ∧
    (11 ≤ zone.hour date.time ∧ zone.hour date.time < 19) ∧
    r = .route .booking (bookCourt screen.facilityId (dateInput zone date) email)

theorem Picked.mono {es es' : List SystemEvent} {i : Nat} {screen : Screen} {r : Request} (h : Picked es i screen r)
    (hes : es ⊆ es') : Picked es' i screen r := by
  obtain ⟨zone, date, email, hmem, hrest⟩ := h
  exact ⟨zone, date, email, hes hmem, hrest⟩

/-- What is so of screen number `i` -/
structure Fits (es : List SystemEvent) (s : BookingSystem) (i : Nat) (o : OpenScreen) : Prop where
  phase : ∃ p, o.view.InPhase p
  parallel : o.waiting.length = o.view.outstanding.length
  asked : ∀ n ∈ o.sent, ∃ r, s.requests[n]? = some r ∧ Picked es i o.screen r
  subset : ∀ n ∈ o.answered ++ o.waiting, n ∈ o.sent
  nodup : (o.answered ++ o.waiting).Nodup
  replied : ∀ n ∈ o.answered, ∃ r, s.reply n = some r
  shown : o.view.shown = (o.answered.filterMap s.court).map confirmation

theorem Extends.refl : Extends s s := ⟨List.prefix_rfl, fun _ _ h => h⟩

theorem Extends.court {n : Nat} {r : Reply} (h : Extends s s') (hr : s.reply n = some r) :
    s'.court n = s.court n := by
  rw [BookingSystem.court, BookingSystem.court, h.reply n r hr, hr]

theorem Extends.shown {answered : List Nat} (h : Extends s s') (hr : ∀ n ∈ answered, ∃ r, s.reply n = some r) :
    answered.filterMap s'.court = answered.filterMap s.court :=
  List.filterMap_congr fun n hn => by
    obtain ⟨r, hr⟩ := hr n hn
    exact h.court hr

theorem Extends.request {n : Nat} {r : Request} (h : Extends s s') (hr : s.requests[n]? = some r) :
    s'.requests[n]? = some r := by
  obtain ⟨hlt, rfl⟩ := List.getElem?_eq_some_iff.mp hr
  exact List.prefix_iff_getElem?.mp h.requests n hlt

theorem Fits.mono {es es' : List SystemEvent} {i : Nat} {o : OpenScreen} (h : Fits es s i o) (hs : Extends s s')
    (hes : es ⊆ es') : Fits es' s' i o where
  phase := h.phase
  parallel := h.parallel
  asked n hn := by
    obtain ⟨r, hr, hpicked⟩ := h.asked n hn
    exact ⟨r, hs.request hr, hpicked.mono hes⟩
  subset := h.subset
  nodup := h.nodup
  replied n hn := by
    obtain ⟨r, hr⟩ := h.replied n hn
    exact ⟨r, hs.reply n r hr⟩
  shown := by rw [h.shown, hs.shown h.replied]

/-! ### A step -/

/-- What holds after the events, from the start with the database. -/
structure Inv (m : Mongoose) (rt : Runtime) (db : Db) (es : List SystemEvent) (s : BookingSystem) : Prop where
  served : s.Served m rt db
  fits : ∀ (i : Nat) (o : OpenScreen), s.screens[i]? = some o → Fits es s i o
  sent : (s.screens.flatMap OpenScreen.sent).Nodup
  /-- No request comes from nowhere. -/
  origin : ∀ (n : Nat) (r : Request), s.requests[n]? = some r →
    .request r ∈ es ∨ ∃ (i : Nat) (o : OpenScreen), s.screens[i]? = some o ∧ Picked es i o.screen r

theorem flatMap_set_perm {α β : Type} {l : List α} {i : Nat} {a b : α} (g : α → List β) {new : List β}
    (h : l[i]? = some a) (hb : g b = g a ++ new) : ((l.set i b).flatMap g).Perm (l.flatMap g ++ new) := by
  obtain ⟨hlt, rfl⟩ := List.getElem?_eq_some_iff.mp h
  have hset := (List.set_perm_cons_eraseIdx hlt b).flatMap_right g
  have hget := (List.getElem_cons_eraseIdx_perm hlt).flatMap_right g
  rw [List.flatMap_cons, hb, List.append_assoc] at hset
  rw [List.flatMap_cons] at hget
  calc (l.set i b).flatMap g
    _ |>.Perm (g l[i] ++ (new ++ (l.eraseIdx i).flatMap g)) := hset
    _ |>.Perm (g l[i] ++ ((l.eraseIdx i).flatMap g ++ new)) := List.perm_append_comm.append_left _
    _ |>.Perm (l.flatMap g ++ new) := by
      rw [← List.append_assoc]
      exact hget.append_right new

section Steps
variable {es : List SystemEvent} {e : SystemEvent} {i : Nat} {o o' : OpenScreen}

theorem Inv.sent_lt (h : Inv m rt db es s) {n : Nat} (hn : n ∈ s.screens.flatMap OpenScreen.sent) :
    n < s.requests.length := by
  obtain ⟨o, ho, hn⟩ := List.mem_flatMap.mp hn
  obtain ⟨i, hi⟩ := List.mem_iff_getElem?.mp ho
  obtain ⟨r, hr, -⟩ := (h.fits i o hi).asked n hn
  exact (List.getElem?_eq_some_iff.mp hr).1

theorem setScreen_cases {k : Nat} {ok : OpenScreen} (hi : s.screens[i]? = some o)
    (hk : (s.setScreen i o').screens[k]? = some ok) : k = i ∧ ok = o' ∨ s.screens[k]? = some ok := by
  rcases eq_or_ne i k with rfl | hne
  · exact Or.inl ⟨rfl, (Option.some.inj
      ((List.getElem?_set_self (List.getElem?_eq_some_iff.mp hi).1).symm.trans hk)).symm⟩
  · exact Or.inr ((List.getElem?_set_ne hne).symm.trans hk)

/-- The server goes on, and the screens stay as they are. -/
theorem Inv.serverStep {s₁ : BookingSystem} (h : Inv m rt db es s) (hserved : s₁.Served m rt db) (hs : Extends s s₁)
    (hscreens : s₁.screens = s.screens)
    (hnew : ∀ (n : Nat) (r : Request), s₁.requests[n]? = some r → s.requests[n]? = some r ∨ .request r ∈ es ++ [e]) :
    Inv m rt db (es ++ [e]) s₁ where
  served := hserved
  fits i o ho := (h.fits i o (hscreens ▸ ho)).mono hs (List.subset_append_left _ _)
  sent := hscreens ▸ h.sent
  origin n r hr := by
    rcases hnew n r hr with hold | hmem
    · rcases h.origin n r hold with hmem | ⟨i, o, ho, hpicked⟩
      · exact Or.inl (List.mem_append_left _ hmem)
      · exact Or.inr ⟨i, o, hscreens ▸ ho, hpicked.mono (List.subset_append_left _ _)⟩
    · exact Or.inl hmem

/-- One screen goes on, perhaps with a request that the server has received. -/
theorem Inv.screenStep {s₁ : BookingSystem} (h : Inv m rt db es s) (hserved : s₁.Served m rt db) (hs : Extends s s₁)
    (hscreens : s₁.screens = s.screens) (hi : s.screens[i]? = some o) (hscreen : o'.screen = o.screen)
    {new : List Nat} (hsent : o'.sent = o.sent ++ new) (hnodup : new.Nodup) (hfresh : ∀ n ∈ new, s.requests.length ≤ n)
    (hfits : Fits (es ++ [e]) s₁ i o') (hnew : ∀ (n : Nat) (r : Request), s₁.requests[n]? = some r →
      s.requests[n]? = some r ∨ Picked (es ++ [e]) i o.screen r) : Inv m rt db (es ++ [e]) (s₁.setScreen i o') where
  served := hserved
  fits j oj hj := by
    have hkeep : Fits (es ++ [e]) s₁ j oj → Fits (es ++ [e]) (s₁.setScreen i o') j oj := fun hfits =>
      hfits.mono ⟨List.prefix_rfl, fun _ _ hr => hr⟩ (List.Subset.refl _)
    rcases setScreen_cases (hscreens ▸ hi) hj with ⟨rfl, rfl⟩ | hold
    · exact hkeep hfits
    · exact hkeep ((h.fits j oj (hscreens ▸ hold)).mono hs (List.subset_append_left _ _))
  sent := by
    simp only [setScreen, hscreens]
    rw [(flatMap_set_perm OpenScreen.sent hi hsent).nodup_iff, List.nodup_append']
    exact ⟨h.sent, hnodup, fun n hn hn' => absurd (h.sent_lt hn) (not_lt.mpr (hfresh n hn'))⟩
  origin n r hr := by
    have hlt := (List.getElem?_eq_some_iff.mp hi).1
    have hthere : ∃ oi, (s₁.setScreen i o').screens[i]? = some oi ∧ oi.screen = o.screen :=
      ⟨o', by simp only [setScreen, hscreens, List.getElem?_set_self hlt], hscreen⟩
    have hpicks : ∀ {j oj}, s.screens[j]? = some oj → Picked es j oj.screen r →
        ∃ (j : Nat) (oj : OpenScreen), (s₁.setScreen i o').screens[j]? = some oj ∧
          Picked (es ++ [e]) j oj.screen r := by
      intro j oj hj hpicked
      have hpicked := hpicked.mono (List.subset_append_left es [e])
      rcases eq_or_ne i j with rfl | hne
      · obtain ⟨oi, hoi, hscreen⟩ := hthere
        rw [hi, Option.some.injEq] at hj
        exact ⟨i, oi, hoi, hscreen ▸ hj ▸ hpicked⟩
      · exact ⟨j, oj, by simp only [setScreen, hscreens, List.getElem?_set_ne hne, hj], hpicked⟩
    rcases hnew n r hr with hold | hpicked
    · rcases h.origin n r hold with hmem | ⟨j, oj, hj, hpicked⟩
      · exact Or.inl (List.mem_append_left _ hmem)
      · exact Or.inr (hpicks hj hpicked)
    · obtain ⟨oi, hoi, hscreen⟩ := hthere
      exact Or.inr ⟨i, oi, hoi, hscreen ▸ hpicked⟩

theorem Inv.viewDidLoad (h : Inv m rt db es s) (screen : Screen) :
    Inv m rt db (es ++ [e]) { s with screens := s.screens ++ [⟨screen, .start, [], [], []⟩] } where
  served := h.served
  fits i o ho := by
    rcases lt_or_ge i s.screens.length with hlt | hge
    · rw [List.getElem?_append_left hlt] at ho
      exact (h.fits i o ho).mono ⟨List.prefix_rfl, fun _ _ hr => hr⟩ (List.subset_append_left _ _)
    · rw [List.getElem?_append_right hge, List.getElem?_singleton, Option.ite_none_right_eq_some] at ho
      obtain rfl := Option.some.inj ho.2
      exact ⟨⟨.ready, rfl, rfl⟩, rfl, by simp, by simp, List.nodup_nil, by simp, rfl⟩
  sent := by
    rw [List.flatMap_append]
    simpa using h.sent
  origin n r hr := by
    rcases h.origin n r hr with hmem | ⟨i, o, ho, hpicked⟩
    · exact Or.inl (List.mem_append_left _ hmem)
    · have hlt := (List.getElem?_eq_some_iff.mp ho).1
      exact Or.inr ⟨i, o, (List.getElem?_append_left hlt).trans ho, hpicked.mono (List.subset_append_left _ _)⟩

theorem Inv.press {zone : Zone} {currentUser : Option FirebaseUser} {date : Date} {v : BookingScreen}
    (h : Inv m rt db es s) (hi : s.screens[i]? = some o)
    (hs : o.view.step f o.screen (.press zone currentUser date) = some v) :
    Inv m rt db (es ++ [.bookNowPressed i zone currentUser date]) (s.press rt i o v) := by
  obtain ⟨⟨p, hp⟩, hparallel, hasked, hsubset, hnodup, hreplied, hshown⟩ := h.fits i o hi
  obtain rfl := hp.eq_ready (BookingScreen.step_press.mp hs).1
  obtain ⟨p', -, hp'⟩ := BookingScreen.step_phase hp hs
  obtain ⟨hsame, hout⟩ := press_cases hp hs
  obtain ⟨-, hnil⟩ := hp
  rw [hnil, List.length_nil, List.length_eq_zero_iff] at hparallel
  have hes := List.subset_append_left es [.bookNowPressed i zone currentUser date]
  rcases hout with hout | ⟨hopen, email, rfl, hout⟩
  · simp only [BookingSystem.press, hnil, hout, List.length_nil, List.getElem?_nil]
    refine h.screenStep h.served .refl rfl hi rfl (List.append_nil _).symm List.nodup_nil (by simp) ?_
      fun _ _ hr => Or.inl hr
    refine ⟨⟨p', hp'⟩, by rw [hparallel, hout]; rfl, fun n hn => ?_, hsubset, hnodup, hreplied, by rw [hsame, hshown]⟩
    obtain ⟨r, hr, hpicked⟩ := hasked n hn
    exact ⟨r, hr, hpicked.mono hes⟩
  · simp only [BookingSystem.press, hnil, hout, List.length_nil, List.getElem?_cons_zero]
    have hext := h.served.extends_receive (.route .booking (bookCourt o.screen.facilityId (dateInput zone date) email))
    have hpicked : Picked (es ++ [.bookNowPressed i zone (some ⟨some email⟩) date]) i o.screen
        (.route .booking (bookCourt o.screen.facilityId (dateInput zone date) email)) :=
      ⟨zone, date, email, by simp, hopen, rfl⟩
    refine h.screenStep (h.served.receive _) hext rfl hi rfl rfl (List.nodup_singleton _) (by simp) ?_ fun n r hr => ?_
    · rw [hparallel, List.append_nil] at hsubset hnodup
      refine ⟨⟨p', hp'⟩, by rw [hparallel, hout]; rfl, fun n hn => ?_, fun n hn => ?_, ?_, fun n hn => ?_, ?_⟩
      · rcases List.mem_append.mp hn with hn | hn
        · obtain ⟨r, hr, hold⟩ := hasked n hn
          exact ⟨r, hext.request hr, hold.mono hes⟩
        · obtain rfl := List.mem_singleton.mp hn
          exact ⟨_, List.getElem?_concat_length, hpicked⟩
      · rw [hparallel, List.nil_append] at hn
        exact List.mem_append.mpr ((List.mem_append.mp hn).imp_left (hsubset n))
      · rw [hparallel, List.nil_append]
        refine hnodup.append (List.nodup_singleton _) fun n hn hn' => ?_
        obtain rfl := List.mem_singleton.mp hn'
        obtain ⟨r, hr, -⟩ := hasked _ (hsubset _ hn)
        exact absurd (List.getElem?_eq_some_iff.mp hr).1 (lt_irrefl _)
      · obtain ⟨r, hr⟩ := hreplied n hn
        exact ⟨r, hext.reply n r hr⟩
      · rw [hsame, hshown, hext.shown hreplied]
    · rcases receive_request hr with hold | rfl
      · exact Or.inl hold
      · exact Or.inr hpicked

theorem Inv.response {j : Nat} {n : Nat} {reply : Reply} {data : Json} {v : BookingScreen} (h : Inv m rt db es s)
    (hi : s.screens[i]? = some o) (hj : o.waiting[j]? = some n) (hr : s.reply n = some reply)
    (hd : reply.json = some data) (hs : o.view.step f o.screen (.response j (some data)) = some v) :
    Inv m rt db (es ++ [e]) (s.setScreen i
      { o with view := v, waiting := o.waiting.eraseIdx j, answered := o.answered ++ [n] }) := by
  obtain ⟨⟨p, hp⟩, hparallel, hasked, hsubset, hnodup, hreplied, hshown⟩ := h.fits i o hi
  obtain ⟨p', -, hp'⟩ := BookingScreen.step_phase hp hs
  obtain ⟨hlt, -, herase⟩ := BookingScreen.step_response hs
  obtain ⟨hlt', rfl⟩ := List.getElem?_eq_some_iff.mp hj
  have hperm : (o.answered ++ [o.waiting[j]] ++ o.waiting.eraseIdx j).Perm (o.answered ++ o.waiting) := by
    rw [List.append_assoc]
    exact (List.getElem_cons_eraseIdx_perm hlt').append_left _
  refine h.screenStep h.served .refl rfl hi rfl (List.append_nil _).symm List.nodup_nil (by simp) ?_
    fun _ _ hr => Or.inl hr
  refine ⟨⟨p', hp'⟩, by rw [herase, List.length_eraseIdx_of_lt hlt, List.length_eraseIdx_of_lt hlt', hparallel],
    fun n hn => ?_, fun n hn => hsubset n (hperm.mem_iff.mp hn), hperm.nodup_iff.mpr hnodup, fun n hn => ?_, ?_⟩
  · obtain ⟨r, hr, hpicked⟩ := hasked n hn
    exact ⟨r, hr, hpicked.mono (List.subset_append_left _ _)⟩
  · rcases List.mem_append.mp hn with hn | hn
    · exact hreplied n hn
    · obtain rfl := List.mem_singleton.mp hn
      exact ⟨reply, hr⟩
  · have hmem := hsubset _ (List.mem_append_right _ (List.getElem_mem hlt'))
    obtain ⟨r, hr', zone, date, email, -, -, rfl⟩ := hasked _ hmem
    obtain ⟨th, hth, -, hsent⟩ := h.served.of_reply hr
    obtain ⟨success, msg, hbody, hconfirms⟩ := (h.served.ofBooking hr' hth reply (by simp [hsent])).confirms
    obtain ⟨fields, hjson, hmsg⟩ := Reply.json_msg hbody
    obtain ⟨result, hresult, hv⟩ := response_shown hs
    rw [hd, Option.some.injEq] at hjson
    subst hjson
    obtain rfl : msg = result := by simpa [bookCourtResult, Json.ofData, hmsg, Json.stringValue] using hresult
    have hcourt : s.court o.waiting[j] = reply.courtNumber := by rw [BookingSystem.court, hr, Option.bind_some]
    rw [hv, hshown, hconfirms, List.filterMap_append, List.map_append, List.filterMap_cons, hcourt]
    cases reply.courtNumber <;> rfl

theorem Inv.loseResponse {j : Nat} {v : BookingScreen} (h : Inv m rt db es s) (hi : s.screens[i]? = some o)
    (hs : o.view.step f o.screen (.response j none) = some v) :
    Inv m rt db (es ++ [e]) (s.setScreen i { o with view := v, waiting := o.waiting.eraseIdx j }) := by
  obtain ⟨⟨p, hp⟩, hparallel, hasked, hsubset, hnodup, hreplied, hshown⟩ := h.fits i o hi
  obtain ⟨p', -, hp'⟩ := BookingScreen.step_phase hp hs
  obtain ⟨hlt, -, herase⟩ := BookingScreen.step_response hs
  have hsub := (List.eraseIdx_sublist o.waiting j).append_left o.answered
  refine h.screenStep h.served .refl rfl hi rfl (List.append_nil _).symm List.nodup_nil (by simp) ?_
    fun _ _ hr => Or.inl hr
  refine ⟨⟨p', hp'⟩, ?_, fun n hn => ?_, fun n hn => hsubset n (hsub.subset hn), hsub.nodup hnodup, hreplied, ?_⟩
  · rw [herase, List.length_eraseIdx_of_lt hlt, List.length_eraseIdx_of_lt (hparallel ▸ hlt), hparallel]
  · obtain ⟨r, hr, hpicked⟩ := hasked n hn
    exact ⟨r, hr, hpicked.mono (List.subset_append_left _ _)⟩
  · obtain ⟨result, hresult, hv⟩ := response_shown hs
    obtain rfl := Option.some.inj hresult
    rw [hv, hshown, show [""].filter confirms = [] by decide +kernel, List.append_nil]

/-- Every event keeps the invariant. -/
theorem Inv.step (h : Inv m rt db es s) (hs : s.step f m rt e = some s') : Inv m rt db (es ++ [e]) s' := by
  cases e with
  | viewDidLoad screen =>
    obtain rfl := Option.some.inj hs
    exact h.viewDidLoad screen
  | bookNowPressed i zone currentUser date =>
    obtain ⟨o, hi, hs⟩ := Option.bind_eq_some_iff.mp hs
    obtain ⟨v, hv, hs⟩ := Option.bind_eq_some_iff.mp hs
    obtain rfl := Option.some.inj hs
    exact h.press hi hv
  | request r =>
    obtain rfl := Option.some.inj hs
    refine h.serverStep (h.served.receive r) (h.served.extends_receive r) rfl fun n r' hr => ?_
    rcases receive_request hr with hold | rfl
    · exact Or.inl hold
    · exact Or.inr (by simp)
  | turn t =>
    obtain rfl := Option.some.inj hs
    exact h.serverStep (h.served.turn t) (h.served.extends_turn t) rfl fun _ _ hr => Or.inl hr
  | response i j =>
    obtain ⟨o, hi, hs⟩ := Option.bind_eq_some_iff.mp hs
    obtain ⟨n, hj, hs⟩ := Option.bind_eq_some_iff.mp hs
    obtain ⟨reply, hr, hs⟩ := Option.bind_eq_some_iff.mp hs
    obtain ⟨data, hd, hs⟩ := Option.bind_eq_some_iff.mp hs
    obtain ⟨v, hv, hs⟩ := Option.bind_eq_some_iff.mp hs
    obtain rfl := Option.some.inj hs
    exact h.response hi hj hr hd hv
  | loseResponse i j =>
    obtain ⟨o, hi, hs⟩ := Option.bind_eq_some_iff.mp hs
    obtain ⟨v, hv, hs⟩ := Option.bind_eq_some_iff.mp hs
    obtain rfl := Option.some.inj hs
    exact h.loseResponse hi hv

/-! ### A run -/

theorem runs_snoc : (start db).runs f m rt (es ++ [e]) = ((start db).runs f m rt es).bind fun s => s.step f m rt e := by
  simp only [runs, List.foldlM_append, List.foldlM_cons, List.foldlM_nil, bind_pure, Option.bind_eq_bind]

theorem runs_inv (h : (start db).runs f m rt es = some s) : Inv m rt db es s := by
  induction es using List.reverseRecOn generalizing s with
  | nil =>
    cases h
    exact ⟨⟨[], by simp, rfl⟩, by simp [start], List.nodup_nil, by simp [start]⟩
  | append_singleton es e ih =>
    rw [runs_snoc] at h
    obtain ⟨s₀, hs₀, hs⟩ := Option.bind_eq_some_iff.mp h
    exact (ih hs₀).step hs

end Steps

/-! ### Bookings behind the confirmations -/

/-- The booking that request number `n` has added -/
def booking (s : BookingSystem) (n : Nat) : Option Booking :=
  s.server.threads[n]?.bind fun th => th.calls.findSome? storedBooking

/-- The bookings that the answered requests of the screen have added -/
def booked (s : BookingSystem) (o : OpenScreen) : List Booking := o.answered.filterMap s.booking

/-- The booking is one that a press on screen number `i` has asked for: of the user who was signed in, for the sport of
    the screen, from the start that the server reads in the text of the request. -/
structure BookedBy (rt : Runtime) (es : List SystemEvent) (i : Nat) (screen : Screen) (db : Db) (b : Booking) :
    Prop where
  pressed : ∃ (zone : Zone) (date : Date) (user : User),
    .bookNowPressed i zone (some ⟨some user.email⟩) date ∈ es ∧ user ∈ db.users.docs ∧ user._id = b.user ∧
    (11 ≤ zone.hour date.time ∧ zone.hour date.time < 19) ∧
    newDate rt (some (.str (dateInput zone date))) = .ok (some b.startDateTime)
  facility : ∃ facility ∈ db.facilities.docs, facility._id = b.facility ∧
    facility.facilityId = some (screen.number : ℚ)
  slot : b.endDateTime.time = b.startDateTime.time + slotLength
  court : b.courtNumber = 1

section Bookings
variable {rs : List Request} {ts : List (Turn Http)} {es : List SystemEvent} {i n : Nat} {o : OpenScreen}
  {th : Thread Http Unit} {screen : Screen} {r : Request} {c : Call Http} {b : Booking} {reply : Reply}

theorem fetched_none {read : List Booking} (hth : ((serverPool rt db rs).runs (Db.exec m) ts).threads[n]? = some th)
    (hc : fetched none read ∈ th.calls) : read = [] := by
  refine Pool.runs_answers (P := fun c => ∀ read, c = fetched none read → read = []) ?_ hth hc read rfl
  intro fault s op read hcall
  obtain ⟨rfl, hanswer⟩ := Call.mk.inj hcall
  obtain ⟨-, hanswer⟩ := answer_of_attempt (eq_of_heq hanswer)
  rw [exec_bookingFind_ref (q := fun _ => false) rfl, Except.ok.injEq] at hanswer
  rw [← hanswer]
  exact List.filter_eq_nil_iff.mpr fun _ _ => Bool.false_ne_true

theorem storedBooking_of_saved {doc : BookingDraft}
    (hth : ((serverPool rt db rs).runs (Db.exec m) ts).threads[n]? = some th)
    (hc : ⟨.bookingSave doc, .ok ()⟩ ∈ th.calls) : ∃ b, doc.booking = some b := by
  refine Pool.runs_answers (P := fun c : Call Http => ∀ doc, c = ⟨.bookingSave doc, .ok ()⟩ →
    ∃ b, doc.booking = some b) ?_ hth hc doc rfl
  intro fault s op doc hcall
  obtain ⟨rfl, hanswer⟩ := Call.mk.inj hcall
  obtain ⟨-, hanswer⟩ := answer_of_attempt (eq_of_heq hanswer)
  cases hsave : s.saveBooking doc with
  | error e =>
    simp only [Db.exec, hsave, Db.saved] at hanswer
    cases hanswer
  | ok db' =>
    obtain ⟨b, hb, -⟩ := saveBooking_eq_ok hsave
    exact ⟨b, hb⟩

theorem draft_courtNumber {user : User} {start : Option Date} {facility : Facility} {court : Nat}
    (h : (draft user start facility court).booking = some b) : b.courtNumber = court := by
  unfold BookingDraft.booking at h
  split at h
  · cases h
    rfl
  · cases h

/-- The booking of a request of a screen is at the facility of its sport. -/
theorem Served.placed (h : s.Served m rt db) (hn : s.requests[n]? = some r) (hpicked : Picked es i screen r)
    (hth : s.server.threads[n]? = some th) (hc : c ∈ th.calls) (hb : storedBooking c = some b) :
    ∃ facility, s.server.store.facilityOf screen = some facility ∧ b.facility = facility._id := by
  obtain ⟨zone, date, email, -, -, rfl⟩ := hpicked
  obtain ⟨ts, -, hserver⟩ := h
  rw [hserver] at hth ⊢
  obtain ⟨body, hbody, hprogress⟩ := serveBooking_booking hth hn hc hb
  cases hbody
  obtain ⟨user, facility, start, court, -, hfacility, -, hdraft, -⟩ := hprogress.stored hc hb
  obtain ⟨p, hp, hfind⟩ := (serverPool_attested hth _ hfacility).facility _ _ rfl
  obtain rfl : p = fun f => f == some (screen.number : ℚ) :=
    Except.ok.inj (hp.symm.trans (screen.matchFacilityId_facilityId m))
  exact ⟨facility, hfind, (booking_draft hdraft).2.1⟩

/-- The booking of a request that a press stands behind -/
theorem Served.bookedBy (h : s.Served m rt db) (hn : s.requests[n]? = some r) (hpicked : Picked es i screen r)
    (hth : s.server.threads[n]? = some th) (hc : c ∈ th.calls) (hb : storedBooking c = some b) :
    BookedBy rt es i screen s.server.store b ∧ th.sent = [.booked 1] := by
  obtain ⟨facility', hfind', hid'⟩ := h.placed hn hpicked hth hc hb
  obtain ⟨zone, date, email, hmem, hopen, rfl⟩ := hpicked
  have hof := h.ofBooking hn hth
  obtain ⟨ts, -, hserver⟩ := h
  rw [hserver] at hth hfind' ⊢
  obtain ⟨body, hbody, hprogress⟩ := serveBooking_booking hth hn hc hb
  cases hbody
  obtain ⟨user, facility, start, court, huser, -, hstart, hdraft, hsent⟩ := hprogress.stored hc hb
  obtain ⟨hid, -, hd⟩ := booking_draft hdraft
  obtain ⟨p, hp, hfind⟩ := (serverPool_attested hth _ huser).user _ _ rfl
  obtain rfl : p = fun e => e == email := by
    have hstr := m.matchEmail_str email
    exact Except.ok.inj (hp.symm.trans hstr)
  have hone : court = 1 := by
    cases hof (.booked court) (by simp [hsent]) with
    | refused hr => cases courtNumber_of_mem_refusals hr
    | booked court' hr hone =>
      obtain rfl : court = court' := Option.some.inj (congrArg Reply.courtNumber hr)
      refine hone (fun v hv => ?_) fun read hread => fetched_none hth hread
      obtain rfl := Option.some.inj hv
      rfl
  subst hone
  have hcourt := draft_courtNumber hdraft
  rw [Nat.cast_one] at hcourt
  refine ⟨⟨⟨zone, date, user, ?_, List.mem_of_find?_eq_some hfind, hid.symm, hopen, ?_⟩,
    ⟨facility', List.mem_of_find?_eq_some hfind', hid'.symm, by simpa using List.find?_some hfind'⟩, draft_ends hdraft,
    hcourt⟩, hsent⟩
  · rw [show user.email = email by simpa using List.find?_some hfind]
    exact hmem
  · rw [← hd]
    exact hstart

/-- A handler that has replied with a court has made a save that went through. -/
theorem BookingProgress.granted {body : Json} {calls : List (Call Http)} {stage : Stage Http}
    (h : BookingProgress rt body calls [reply] stage) {court : Nat} (hcourt : reply.courtNumber = some court) :
    ∃ doc, ⟨.bookingSave doc, .ok ()⟩ ∈ calls := by
  generalize hsent : [reply] = sent at h
  cases h with
  | gate => cases hsent
  | rejected e =>
    cases hsent
    cases hcourt
  | unknown => cases hsent
  | thrown user e => cases hsent
  | route user start hd hr =>
    cases hr with
    | listing => cases hsent
    | locating mine => cases hsent
    | fetching mine facility ref => cases hsent
    | checking mine facility ref read => cases hsent
    | comparing mine facility ref read => cases hsent
    | saving mine facility ref read sport court => cases hsent
    | booked mine facility ref read sport court => exact ⟨draft user start facility court, by simp [stored]⟩
    | refused calls reply' hcalls hreply =>
      cases hsent
      rw [hreply] at hcourt
      cases hcourt

theorem Served.court_eq (h : s.Served m rt db) (hn : s.requests[n]? = some r) (hpicked : Picked es i screen r)
    (hr : s.reply n = some reply) : s.court n = (s.booking n).map fun _ => 1 := by
  obtain ⟨th, hth, hfin, hsent⟩ := h.of_reply hr
  have hbooking : s.booking n = th.calls.findSome? storedBooking := by rw [booking, hth, Option.bind_some]
  have hcourt : s.court n = reply.courtNumber := by rw [BookingSystem.court, hr, Option.bind_some]
  rw [hbooking, hcourt]
  cases hb : th.calls.findSome? storedBooking with
  | some b =>
    obtain ⟨c, hc, hcb⟩ := List.exists_of_findSome?_eq_some hb
    have hbooked := (h.bookedBy hn hpicked hth hc hcb).2
    rw [hsent, List.cons.injEq] at hbooked
    rw [hbooked.1]
    rfl
  | none =>
    rw [List.findSome?_eq_none_iff] at hb
    cases hgrant : reply.courtNumber with
    | none => rfl
    | some court =>
      obtain ⟨zone, date, email, -, -, rfl⟩ := hpicked
      obtain ⟨ts, -, hserver⟩ := h
      rw [hserver] at hth
      have hprogress : BookingProgress rt _ th.calls th.sent th.proc.stage := serverPool_along hth hn serveBooking_along
      rw [hsent] at hprogress
      obtain ⟨doc, hdoc⟩ := BookingProgress.granted hprogress hgrant
      obtain ⟨b, hb'⟩ := storedBooking_of_saved hth hdoc
      have hnone : doc.booking = none := hb _ hdoc
      rw [hnone] at hb'
      cases hb'

end Bookings

section Results
variable {es : List SystemEvent} {i : Nat} {o : OpenScreen}

/-- A screen shows one confirmation, of court 1, for each booking that its answered requests have added, and nothing
    else is confirmed. -/
theorem runs_shown (f : Foundation) (m : Mongoose) (rt : Runtime) (db : Db) (es : List SystemEvent)
    (h : (start db).runs f m rt es = some s) {i : Nat} {o : OpenScreen} (hi : s.screens[i]? = some o) :
    o.view.shown = List.replicate (s.booked o).length (confirmation 1) ∧
      ∀ b ∈ s.booked o, BookedBy rt es i o.screen s.server.store b := by
  have hinv := runs_inv h
  obtain ⟨-, -, hasked, hsubset, -, hreplied, hshown⟩ := hinv.fits i o hi
  have hanswered : ∀ n ∈ o.answered, ∃ r, s.requests[n]? = some r ∧ Picked es i o.screen r := fun n hn =>
    hasked n (hsubset n (List.mem_append_left _ hn))
  constructor
  · have hcourts : o.answered.filterMap s.court = o.answered.filterMap fun n => (s.booking n).map fun _ => 1 := by
      refine List.filterMap_congr fun n hn => ?_
      obtain ⟨r, hr, hpicked⟩ := hanswered n hn
      obtain ⟨reply, hreply⟩ := hreplied n hn
      exact hinv.served.court_eq hr hpicked hreply
    rw [hshown, hcourts, ← List.map_filterMap, List.map_const', List.map_replicate]
    rfl
  · intro b hb
    obtain ⟨n, hn, hb⟩ := List.mem_filterMap.mp hb
    obtain ⟨r, hr, hpicked⟩ := hanswered n hn
    obtain ⟨th, hth, hb⟩ := Option.bind_eq_some_iff.mp hb
    obtain ⟨c, hc, hcb⟩ := List.exists_of_findSome?_eq_some hb
    exact (hinv.served.bookedBy hr hpicked hth hc hcb).1

/-- A press on the badminton screen, the turns of its handler, and the response -/
def middayBooked : List SystemEvent :=
  [.viewDidLoad .badminton, .bookNowPressed 0 utc (some ⟨some "home@club.test"⟩) midsummer] ++
    List.replicate 7 (.turn ⟨0, none⟩) ++ [.response 0 0]

theorem runs_middayBooked :
    ∃ s o b, (start club).runs BookingScreen.plainFoundation mongoose6 utc.runtime middayBooked = some s ∧
      s.screens[0]? = some o ∧ s.server.store.bookings = [b] ∧ (s.booked o).length = 1 := by
  have hrun : (((start club).runs BookingScreen.plainFoundation mongoose6 utc.runtime middayBooked).any fun s =>
      s.screens[0]?.any fun o => s.server.store.bookings.length == 1 && (s.booked o).length == 1) = true := by
    decide +kernel
  obtain ⟨s, hs, hrun⟩ := (Option.any_eq_true _ _).mp hrun
  obtain ⟨o, ho, hrun⟩ := (Option.any_eq_true _ _).mp hrun
  rw [Bool.and_eq_true] at hrun
  obtain ⟨b, hb⟩ := List.length_eq_one_iff.mp (eq_of_beq hrun.1)
  exact ⟨s, o, b, hs, ho, hb, eq_of_beq hrun.2⟩

theorem runs_shown_club :
    ∃ s o, (start club).runs BookingScreen.plainFoundation mongoose6 utc.runtime middayBooked = some s ∧
      s.screens[0]? = some o ∧ o.view.shown = [confirmation 1] ∧
      ∀ b ∈ s.booked o, BookedBy utc.runtime middayBooked 0 o.screen s.server.store b := by
  obtain ⟨s, o, b, hs, ho, -, hlength⟩ := runs_middayBooked
  obtain ⟨hshown, hbooked⟩ := runs_shown BookingScreen.plainFoundation mongoose6 utc.runtime club middayBooked hs ho
  rw [hlength] at hshown
  exact ⟨s, o, hs, ho, hshown, hbooked⟩

theorem Inv.booked (h : Inv m rt db es s) :
    (db.bookings ++ s.screens.flatMap s.booked).Subperm s.server.store.bookings := by
  obtain ⟨ts, -, hserver⟩ := id h.served
  have hbookings : s.server.store.bookings = db.bookings ++
      ((serverPool rt db s.requests).trace (Db.exec m) ts).filterMap fun e => storedBooking e.2 := by
    rw [hserver]
    exact runs_bookings _ ts
  have hfits : ∀ o ∈ s.screens, ∃ i, Fits es s i o := fun o ho => by
    obtain ⟨i, hi⟩ := List.mem_iff_getElem?.mp ho
    exact ⟨i, h.fits i o hi⟩
  -- No request belongs to two screens.
  have hnodup : (s.screens.flatMap OpenScreen.answered).Nodup := by
    obtain ⟨-, hdisjoint⟩ := List.nodup_flatMap.mp h.sent
    refine List.nodup_flatMap.mpr ⟨fun o ho => ?_, hdisjoint.imp_of_mem fun {o o'} ho ho' hoo n hn hn' => ?_⟩
    · obtain ⟨i, hfit⟩ := hfits o ho
      exact (List.nodup_append.mp hfit.nodup).1
    · obtain ⟨i, hfit⟩ := hfits o ho
      obtain ⟨i', hfit'⟩ := hfits o' ho'
      exact hoo (hfit.subset n (List.mem_append_left _ hn)) (hfit'.subset n (List.mem_append_left _ hn'))
  have hflat : s.screens.flatMap s.booked = (s.screens.flatMap OpenScreen.answered).filterMap s.booking :=
    List.filterMap_flatMap.symm
  rw [hbookings, hflat, List.subperm_append_left]
  refine Pool.filterMap_subperm hnodup fun n _ b hb => ?_
  obtain ⟨th, hth, hb⟩ := Option.bind_eq_some_iff.mp hb
  obtain ⟨c, hc, hcb⟩ := List.exists_of_findSome?_eq_some hb
  rw [hserver] at hth
  exact ⟨c, (Pool.mem_trace_iff hth).mpr hc, hcb⟩

/-- No booking stands behind two confirmations, of one screen or of two, and none was there at the start. -/
theorem runs_booked (f : Foundation) (m : Mongoose) (rt : Runtime) (db : Db) (es : List SystemEvent)
    (h : (start db).runs f m rt es = some s) :
    (db.bookings ++ s.screens.flatMap s.booked).Subperm s.server.store.bookings :=
  (runs_inv h).booked

/-- Two users book at once, each on a screen of its own. -/
def bothBooked : List SystemEvent :=
  [.viewDidLoad .badminton, .viewDidLoad .football, .bookNowPressed 0 utc (some ⟨some "home@club.test"⟩) midsummer,
      .bookNowPressed 1 utc (some ⟨some "away@club.test"⟩) midsummer] ++
    (List.range 14).map (fun n => .turn ⟨n % 2, none⟩) ++ [.response 1 0, .response 0 0]

theorem runs_booked_club :
    ∃ s, (start club).runs BookingScreen.plainFoundation mongoose6 utc.runtime bothBooked = some s ∧
      s.screens.map (fun o => (s.booked o).length) = [1, 1] ∧
      (club.bookings ++ s.screens.flatMap s.booked).Subperm s.server.store.bookings := by
  have hrun : (((start club).runs BookingScreen.plainFoundation mongoose6 utc.runtime bothBooked).any fun s =>
      s.screens.map (fun o => (s.booked o).length) == [1, 1]) = true := by decide +kernel
  obtain ⟨s, hs, hconfirmed⟩ := (Option.any_eq_true _ _).mp hrun
  exact ⟨s, hs, eq_of_beq hconfirmed,
    runs_booked BookingScreen.plainFoundation mongoose6 utc.runtime club bothBooked hs⟩

/-- Where a stored booking comes from: it was there at the start, or another client has asked for it, or a press. -/
inductive Stems (rt : Runtime) (db : Db) (es : List SystemEvent) (s : BookingSystem) (b : Booking) : Prop where
  | old (h : b ∈ db.bookings)
  | asked (body : Json) (h : .request (.route .booking body) ∈ es)
      (hstart : newDate rt (body.prop "startDateTime") = .ok (some b.startDateTime))
  | pressed (i : Nat) (o : OpenScreen) (hi : s.screens[i]? = some o)
      (h : BookedBy rt es i o.screen s.server.store b)

theorem Inv.stems (h : Inv m rt db es s) {b : Booking} (hb : b ∈ s.server.store.bookings) : Stems rt db es s b := by
  obtain ⟨ts, -, hserver⟩ := id h.served
  rw [hserver] at hb
  rcases (serverPool_bookings b).mp hb with hold | ⟨n, th, c, hth, hc, hcb⟩
  · exact .old hold
  obtain ⟨r, hr⟩ := serverPool_request hth
  rcases h.origin n r hr with hmem | ⟨i, o, hi, hpicked⟩
  · obtain ⟨body, rfl, hprogress⟩ := serveBooking_booking hth hr hc hcb
    obtain ⟨user, facility, start, court, -, -, hstart, hdraft, -⟩ := hprogress.stored hc hcb
    obtain ⟨-, -, rfl⟩ := booking_draft hdraft
    exact .asked body hmem hstart
  · rw [← hserver] at hth
    exact .pressed i o hi (h.served.bookedBy hr hpicked hth hc hcb).1

/-- No booking comes from nowhere. -/
theorem runs_stems (f : Foundation) (m : Mongoose) (rt : Runtime) (db : Db) (es : List SystemEvent)
    (h : (start db).runs f m rt es = some s) : ∀ b ∈ s.server.store.bookings, Stems rt db es s b :=
  fun _ hb => (runs_inv h).stems hb

theorem runs_stems_club :
    ∃ s, (start club).runs BookingScreen.plainFoundation mongoose6 utc.runtime middayBooked = some s ∧
      s.server.store.bookings ≠ [] ∧
      ∀ b ∈ s.server.store.bookings, Stems utc.runtime club middayBooked s b := by
  obtain ⟨s, o, b, hs, -, hbookings, -⟩ := runs_middayBooked
  refine ⟨s, hs, ?_, runs_stems BookingScreen.plainFoundation mongoose6 utc.runtime club middayBooked hs⟩
  rw [hbookings]
  exact List.cons_ne_nil b []

end Results

end BookingSystem
end KhelaKaro
