import KhelaKaro.App
import KhelaKaro.Query
import KhelaKaro.Theorems.BookingProgress

/-! # Bookings in flight

Any number of booking handlers on one database, in any order of their calls and with any calls failing. A handler looks
for a booking of its user and start, and saves its own some calls later; the two are not one step. Two bookings with
the same user and start come about exactly when another handler saves in between (`Race`). -/

namespace KhelaKaro
open Async

def bookingPool (rt : Runtime) (db : Db) (bodies : List Json) : Pool Http Db Unit :=
  Pool.start db (bodies.map (serveBooking rt))

section Pool
variable {m : Mongoose} {rt : Runtime} {db : Db} {bodies : List Json} {ts : List (Turn Http)}

/-- Each handler is where its progress allows, in every state that can be reached. -/
theorem bookingPool_progress {i : Nat} {th : Thread Http Unit}
    (h : ((bookingPool rt db bodies).runs (Db.exec m) ts).threads[i]? = some th) :
    ∃ body, bodies[i]? = some body ∧ BookingProgress rt body th.calls th.sent th.proc.stage := by
  have hkeeps : Pool.Keeps (fun _ => True) (fun _ => True)
      (fun i th => ∃ body, bodies[i]? = some body ∧ BookingProgress rt body th.calls th.sent th.proc.stage)
      (bookingPool rt db bodies) := by
    refine Pool.Keeps.start trivial fun i t ht => ?_
    simp only [List.getElem?_map, Option.map_eq_some_iff] at ht
    obtain ⟨body, hbody, rfl⟩ := ht
    exact serveBooking_along.mono fun th hth => ⟨body, hbody, hth⟩
  exact (hkeeps.runs ts fun _ _ _ _ _ _ _ _ _ _ _ => ⟨trivial, trivial⟩).here h

theorem runs_bookings (p : Pool Http Db Unit) (ts : List (Turn Http)) :
    (p.runs (Db.exec m) ts).store.bookings =
      p.store.bookings ++ (p.trace (Db.exec m) ts).filterMap fun e => storedBooking e.2 := by
  rw [List.filterMap_eq_flatMap_toList]
  exact Pool.runs_log Db.bookings (fun c => (storedBooking c).toList) (attempt_bookings m) p ts

end Pool

/-! ### Races -/

/-- No user has two bookings with the same start. -/
def OneStart (bookings : List Booking) : Prop :=
  bookings.Pairwise fun a b => a.user = b.user → a.startDateTime ≠ b.startDateTime

/-- The call finds no booking with this user and start. -/
def Checks (c : Call Http) (user : ObjectId) (start : Date) : Prop :=
  c = ⟨.bookingFindOne { startDateTime := getTime (some start), user := user }, .ok none⟩

/-- The call stores a booking with this user and start. -/
def Saves (c : Call Http) (user : ObjectId) (start : Date) : Prop :=
  ∃ b, storedBooking c = some b ∧ b.user = user ∧ b.startDateTime = start

/-- A handler finds no booking, another one saves one, and then the first saves its own. -/
def Race (trace : List (Nat × Call Http)) : Prop :=
  ∃ i j user start check theirs mine, i ≠ j ∧ Checks check user start ∧ Saves theirs user start ∧
    Saves mine user start ∧ [(i, check), (j, theirs), (i, mine)].Sublist trace

section Races
variable {m : Mongoose} {rt : Runtime} {db : Db} {bodies : List Json} {user : ObjectId} {start : Date}

theorem absent_of_checks {fault : Option JsError} {op : Op}
    (h : Checks ⟨op, (Proc.attempt (Db.exec m) fault db op).2⟩ user start) :
    storedBooking ⟨op, (Proc.attempt (Db.exec m) fault db op).2⟩ = none ∧
      ∀ b ∈ db.bookings, b.user = user → b.startDateTime ≠ start := by
  refine ⟨by rw [h]; rfl, fun b hb hu hs => ?_⟩
  obtain ⟨rfl, hans⟩ := Call.mk.inj h
  replace hans := eq_of_heq hans
  cases fault with
  | some e => cases hans
  | none =>
    rw [Proc.attempt_none, exec_bookingFindOne, Except.ok.injEq] at hans
    have := List.find?_eq_none.mp hans b hb
    simp [hu, hs] at this

/-- A booking that a check has not found was saved after the check. -/
theorem saved_after_check {p : Pool Http Db Unit} {ts : List (Turn Http)} {i : Nat} {check : Call Http}
    (hcheck : Checks check user start) (hi : (i, check) ∈ p.trace (Db.exec m) ts) {b : Booking}
    (hb : b ∈ (p.runs (Db.exec m) ts).store.bookings) (hu : b.user = user) (hs : b.startDateTime = start) :
    ∃ j theirs, Saves theirs user start ∧ [(i, check), (j, theirs)].Sublist (p.trace (Db.exec m) ts) := by
  induction ts using List.reverseRecOn with
  | nil => cases hi
  | append_singleton ts t ih =>
    rw [Pool.runs_concat] at hb
    rw [Pool.trace_concat] at hi ⊢
    rcases Pool.step_cases (Db.exec m) (p.runs (Db.exec m) ts) t with
      ⟨he, hst⟩ | ⟨th, op, next, reject, -, -, he, hst, -⟩
    · rw [hst] at hb
      rw [he, Option.toList_none, List.append_nil] at hi ⊢
      exact ih hi hb
    rw [hst, attempt_bookings, List.mem_append, Option.mem_toList] at hb
    rw [he, Option.toList_some] at hi ⊢
    rcases List.mem_append.mp hi with hi | hi
    · rcases hb with hb | hb
      · obtain ⟨j, theirs, hsaves, hsub⟩ := ih hi hb
        exact ⟨j, theirs, hsaves, hsub.trans (List.sublist_append_left _ _)⟩
      · exact ⟨t.thread, _, ⟨b, hb, hu, hs⟩, (List.singleton_sublist.mpr hi).append (List.Sublist.refl _)⟩
    · -- The check is the last call: it has seen all the bookings there are.
      rw [List.mem_singleton, Prod.mk.injEq] at hi
      obtain ⟨-, rfl⟩ := hi
      obtain ⟨hnone, habsent⟩ := absent_of_checks hcheck
      rcases hb with hb | hb
      · exact absurd hs (habsent b hb hu)
      · rw [hnone] at hb
        cases hb

/-- A handler that stores a booking has checked for one before, and has stored none. -/
theorem BookingProgress.checks {body : Json} {calls : List (Call Http)} {sent : List Reply} {op : Op}
    (h : BookingProgress rt body calls sent (.awaits op)) {answer : Except JsError op.Ans} {b : Booking}
    (hb : storedBooking ⟨op, answer⟩ = some b) :
    (∃ check ∈ calls, Checks check b.user b.startDateTime) ∧ ∀ c ∈ calls, storedBooking c = none := by
  cases h with
  | gate => cases hb
  | route user start hd hr =>
    obtain ⟨hu, rfl, hchecked, hnone⟩ := hr.stores hb
    refine ⟨⟨_, hchecked, ?_⟩, hnone⟩
    rw [hu]
    rfl

theorem oneStart_of_not_race (h0 : OneStart db.bookings) (ts : List (Turn Http))
    (h : ¬Race ((bookingPool rt db bodies).trace (Db.exec m) ts)) :
    OneStart ((bookingPool rt db bodies).runs (Db.exec m) ts).store.bookings := by
  induction ts using List.reverseRecOn with
  | nil => exact h0
  | append_singleton ts t ih =>
    rw [Pool.trace_concat] at h
    have ih := ih fun ⟨i, j, user, start, check, theirs, mine, hne, hc, ht, hm, hsub⟩ =>
      h ⟨i, j, user, start, check, theirs, mine, hne, hc, ht, hm, hsub.trans (List.sublist_append_left _ _)⟩
    rw [Pool.runs_concat]
    rcases Pool.step_cases (Db.exec m) ((bookingPool rt db bodies).runs (Db.exec m) ts) t with
      ⟨-, hst⟩ | ⟨th, op, next, reject, hth, hproc, he, hst, -⟩
    · rw [hst]
      exact ih
    rw [hst]
    unfold OneStart
    rw [attempt_bookings]
    refine List.pairwise_append.mpr ⟨ih, by cases storedBooking _ <;> simp, fun x hx b hb hu hs => h ?_⟩
    rw [Option.mem_toList] at hb
    obtain ⟨body, -, hprogress⟩ := bookingPool_progress hth
    rw [hproc] at hprogress
    obtain ⟨⟨check, hcalls, hcheck⟩, hnone⟩ := hprogress.checks hb
    have hmem := (Pool.mem_trace_iff hth).mpr hcalls
    obtain ⟨j, theirs, hsaves, hsub⟩ := saved_after_check hcheck hmem hx hu hs
    refine ⟨t.thread, j, b.user, b.startDateTime, check, theirs, _, ?_, hcheck, hsaves, ⟨b, hb, rfl, rfl⟩, ?_⟩
    · rintro rfl
      have hj : theirs ∈ th.calls := (Pool.mem_trace_iff hth).mp (hsub.subset (by simp))
      obtain ⟨b', hb', -⟩ := hsaves
      rw [hnone theirs hj] at hb'
      cases hb'
    · rw [he, Option.toList_some]
      exact hsub.append (List.Sublist.refl _)

theorem not_oneStart_of_race {p : Pool Http Db Unit} {ts : List (Turn Http)} (h : Race (p.trace (Db.exec m) ts)) :
    ¬OneStart (p.runs (Db.exec m) ts).store.bookings := by
  obtain ⟨i, j, user, start, check, theirs, mine, -, hcheck, ⟨b, hb, hu, hs⟩, ⟨b', hb', hu', hs'⟩, hsub⟩ := h
  have hnone : storedBooking check = none := by
    rw [hcheck]
    rfl
  have hstored := hsub.filterMap fun e => storedBooking e.2
  simp only [List.filterMap_cons, hnone, hb, hb', List.filterMap_nil] at hstored
  intro hone
  rw [runs_bookings] at hone
  have htwo := hone.sublist (hstored.trans (List.sublist_append_right _ _))
  exact List.rel_of_pairwise_cons htwo List.mem_cons_self (hu.trans hu'.symm) (hs.trans hs'.symm)

end Races

/-- No user has two bookings with the same start, in any state on the way, exactly when no save comes between
    another handler's check and save for the same user and start. -/
theorem oneStart_runs_iff (m : Mongoose) (rt : Runtime) (db : Db) (bodies : List Json) (ts : List (Turn Http))
    (h0 : OneStart db.bookings) :
    (∀ us, us <+: ts → OneStart ((bookingPool rt db bodies).runs (Db.exec m) us).store.bookings) ↔
      ¬Race ((bookingPool rt db bodies).trace (Db.exec m) ts) := by
  constructor
  · intro h hrace
    exact not_oneStart_of_race hrace (h ts (List.prefix_refl ts))
  · rintro h us ⟨vs, rfl⟩
    refine oneStart_of_not_race h0 us fun ⟨i, j, user, start, check, theirs, mine, hne, hc, ht, hm, hsub⟩ => h ?_
    refine ⟨i, j, user, start, check, theirs, mine, hne, hc, ht, hm, hsub.trans ?_⟩
    rw [Pool.trace_append]
    exact List.sublist_append_left _ _

def twoScreens : List Json :=
  [bookCourt "1" "Jan 01 2024 11:00:00" "home@club.test", bookCourt "2" "Jan 01 2024 11:00:00" "home@club.test"]

/-- Two handlers of seven calls, in turns -/
def lockstep : List (Turn Http) := (List.range 14).map fun n => ⟨n % 2, none⟩

theorem lockstep_bookings :
    ((bookingPool utc.runtime club twoScreens).runs (Db.exec mongoose6) lockstep).store.bookings =
      [⟨⟨1⟩, ⟨1⟩, 1, ⟨1704106800000, by decide⟩, ⟨1704106803600, by decide⟩⟩,
        ⟨⟨1⟩, ⟨2⟩, 1, ⟨1704106800000, by decide⟩, ⟨1704106803600, by decide⟩⟩] := by decide +kernel

theorem oneStart_runs_iff_lockstep :
    Race ((bookingPool utc.runtime club twoScreens).trace (Db.exec mongoose6) lockstep) := by
  by_contra h
  have hone := (oneStart_runs_iff mongoose6 utc.runtime club twoScreens lockstep List.Pairwise.nil).mpr h
    lockstep (List.prefix_refl _)
  rw [lockstep_bookings] at hone
  exact List.rel_of_pairwise_cons hone List.mem_cons_self rfl rfl

theorem not_oneStart_lockstep : OneStart club.bookings ∧
    ¬OneStart ((bookingPool utc.runtime club twoScreens).runs (Db.exec mongoose6) lockstep).store.bookings := by
  refine ⟨List.Pairwise.nil, fun hone => ?_⟩
  rw [lockstep_bookings] at hone
  exact List.rel_of_pairwise_cons hone List.mem_cons_self rfl rfl

end KhelaKaro
