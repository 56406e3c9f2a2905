import KhelaKaro.Theorems.ProfileReads

/-! # One booking at a time

The server does not guard the bookings of one user against each other, but the button does: it is disabled while the
screen waits. Where each user books on one screen, and a screen gives a response up only when the handler has ended,
the requests of one user never overlap, and the bookings of each user stay spaced (`runs_spaced`). -/

namespace KhelaKaro
open Async

/-! ### Requests that take turns -/

/-- Both requests are for bookings of the user with one email. -/
def SameUser (rs : List Request) (n n' : Nat) : Prop :=
  ∃ (email : String) (body body' : Json), rs[n]? = some (.route .booking body) ∧
    rs[n']? = some (.route .booking body') ∧ body.prop "email" = some (.str email) ∧
    body'.prop "email" = some (.str email)

/-- A request for a booking has ended before the next one of the same user has a turn. -/
def TakesTurns (m : Mongoose) (rt : Runtime) (db : Db) (rs : List Request) (ts : List (Turn Http)) : Prop :=
  ∀ before t rest, ts = before ++ t :: rest → ∀ n < t.thread, SameUser rs n t.thread →
    ∀ th, ((serverPool rt db rs).runs (Db.exec m) before).threads[n]? = some th → th.finished = true

def Request.OnlyReads : Request → Prop
  | .register _ | .route .booking _ | .route .facilityAdd _ => False
  | .route _ _ => True

/-- The request books, by a number of the facility and not by a reference. -/
def Request.Books (r : Request) : Prop := ∃ body email, r = .route .booking body ∧ r.OfUser email

section Pool
variable {m : Mongoose} {rt : Runtime} {db : Db} {rs : List Request} {ts : List (Turn Http)}

theorem Request.OnlyReads.calls {r : Request} (h : r.OnlyReads) : (r.serve rt).Calls fun op : Op => ¬op.Saves := by
  cases r with
  | register body => exact h.elim
  | route r body =>
    refine Route.serve_queries ?_ ?_
    · rintro rfl
      exact h
    · rintro rfl
      exact h

/-- The threads that book -/
def books (rs : List Request) (i : Nat) : Bool :=
  match rs[i]? with
  | some (.route .booking _) => true
  | _ => false

theorem books_iff {i : Nat} : books rs i = true ↔ ∃ body, rs[i]? = some (.route .booking body) := by
  unfold books
  split
  · rename_i body hbody
    exact iff_of_true rfl ⟨body, hbody⟩
  · rename_i hno
    exact iff_of_false Bool.false_ne_true fun ⟨body, hbody⟩ => hno body hbody

theorem filter_split {β : Type} {p : β → Bool} {l before rest : List β} {b : β}
    (h : l.filter p = before ++ b :: rest) :
    p b = true ∧ ∃ before' rest', l = before' ++ b :: rest' ∧ before'.filter p = before := by
  obtain ⟨l₁, l₂, rfl, rfl, hrest⟩ := List.filter_eq_append_iff.mp h
  obtain ⟨l₃, l₄, rfl, hnone, hb, -⟩ := List.filter_eq_cons_iff.mp hrest
  refine ⟨hb, l₁ ++ l₃, l₄, (List.append_assoc _ _ _).symm, ?_⟩
  rw [List.filter_append, List.filter_eq_nil_iff.mpr hnone, List.append_nil]

theorem Request.Books.ofUser {r : Request} {body : Json} (h : r.OnlyReads ∨ r.Books) (hr : r = .route .booking body) :
    ∃ email, r.OfUser email ∧ body.prop "email" = some (.str email) := by
  subst hr
  rcases h with h | ⟨body', email, -, hof⟩
  · exact h.elim
  · exact ⟨email, hof, hof.prop_email⟩

section Books
variable (hrs : ∀ r ∈ rs, r.OnlyReads ∨ r.Books)
include hrs

/-- Requests that only read can be left out. -/
theorem runs_books (ts : List (Turn Http)) :
    ((serverPool rt db rs).runs (Db.exec m) (ts.filter fun t => books rs t.thread)).store =
        ((serverPool rt db rs).runs (Db.exec m) ts).store ∧
      ∀ i, books rs i = true →
        ((serverPool rt db rs).runs (Db.exec m) (ts.filter fun t => books rs t.thread)).threads[i]? =
          ((serverPool rt db rs).runs (Db.exec m) ts).threads[i]? := by
  refine Pool.runs_filter (fun i u hi hu => ?_) ts
  obtain ⟨r, hr, rfl⟩ := Option.map_eq_some_iff.mp (List.getElem?_map.symm.trans hu)
  rcases hrs r (List.mem_of_getElem? hr) with hreads | ⟨body, email, rfl, -⟩
  · exact hreads.calls.mono fun op hop fault s => attempt_query m fault s hop
  · rw [books_iff.mpr ⟨body, hr⟩] at hi
    cases hi

/-- Among the turns of the requests that book, no save lands that a request under way could see. -/
theorem TakesTurns.savesUnseen (h : TakesTurns m rt db rs ts) :
    SavesUnseen m rt db rs (ts.filter fun t => books rs t.thread) := by
  intro before t rest hts hchange i th r r' hne hth hway hr hr'
  obtain ⟨ht, full, rest', rfl, rfl⟩ := filter_split hts
  have hsame : ∀ i, books rs i = true →
      ((serverPool rt db rs).runs (Db.exec m) (full.filter fun t => books rs t.thread)).threads[i]? =
        ((serverPool rt db rs).runs (Db.exec m) full).threads[i]? := (runs_books hrs full).2
  obtain ⟨body, hbody⟩ := books_iff.mp ht
  obtain ⟨email, hof, hemail⟩ := Request.Books.ofUser (hrs r (List.mem_of_getElem? hr))
    (Option.some.inj (hr.symm.trans hbody))
  -- The other request has had a turn, so it books too.
  obtain ⟨first, t', later, hsplit, rfl⟩ := Pool.turn_of_calls hth hway.2 hway.1
  obtain ⟨ht', first', later', hfull, -⟩ := filter_split hsplit
  obtain ⟨body', hbody'⟩ := books_iff.mp ht'
  obtain ⟨email', hof', hemail'⟩ := Request.Books.ofUser (hrs r' (List.mem_of_getElem? hr'))
    (Option.some.inj (hr'.symm.trans hbody'))
  rcases eq_or_ne email email' with rfl | hemails
  · exfalso
    rcases lt_or_gt_of_ne hne with hlt | hgt
    · have hend := h full t rest' rfl _ hlt ⟨email, body', body, hbody', hbody, hemail', hemail⟩ th
        ((hsame _ ht').symm.trans hth)
      rw [hway.2] at hend
      cases hend
    · have hlater : full ++ t :: rest' = first' ++ t' :: (later' ++ t :: rest') := by
        rw [hfull, List.append_assoc, List.cons_append]
      obtain ⟨th₀, hth₀⟩ : ∃ th₀, ((serverPool rt db rs).runs (Db.exec m) first').threads[t.thread]? = some th₀ := by
        refine ⟨_, List.getElem?_eq_getElem ?_⟩
        rw [Pool.runs_length, BookingSystem.length_serverPool]
        exact (List.getElem?_eq_some_iff.mp hr).1
      have hend := h first' t' _ hlater _ hgt ⟨email, body, body', hbody, hbody', hemail, hemail'⟩ th₀ hth₀
      have hstill : ((serverPool rt db rs).runs (Db.exec m) full).threads[t.thread]? = some th₀ := by
        rw [hfull, Pool.runs_append]
        exact Pool.runs_finished _ hth₀ hend
      have hgoing := Pool.going_of_changes hchange ((hsame _ ht).trans hstill)
      rw [hend] at hgoing
      cases hgoing
  · obtain rfl : r = .route .booking body := Option.some.inj (hr.symm.trans hbody)
    exact ⟨False.elim, fun _ => ⟨email, email', hemails, hof, hof'⟩⟩

theorem TakesTurns.spaced (h : TakesTurns m rt db rs ts) (h0 : db.Spaced) :
    ((serverPool rt db rs).runs (Db.exec m) ts).store.Spaced := by
  rw [← (runs_books hrs ts).1]
  exact (h.savesUnseen hrs).spaced h0

end Books

theorem SameUser.of_append {rs' : List Request} {n n' : Nat} (h : SameUser (rs ++ rs') n n') (hn : n < rs.length)
    (hn' : n' < rs.length) : SameUser rs n n' := by
  obtain ⟨email, body, body', hbody, hbody', hemails⟩ := h
  rw [List.getElem?_append_left hn] at hbody
  rw [List.getElem?_append_left hn'] at hbody'
  exact ⟨email, body, body', hbody, hbody', hemails⟩

theorem TakesTurns.receive (h : TakesTurns m rt db rs ts) (hts : ∀ t ∈ ts, t.thread < rs.length) (r : Request) :
    TakesTurns m rt db (rs ++ [r]) ts := by
  rintro before t rest rfl n hn hsame th hth
  have ht := hts t (by simp)
  rw [BookingSystem.serverPool_concat, Pool.runs_receive (by
      rw [BookingSystem.length_serverPool]
      exact fun t' ht' => hts t' (List.mem_append_left _ ht')), Pool.receive, List.getElem?_append_left (by
      rw [Pool.runs_length, BookingSystem.length_serverPool]
      exact hn.trans ht)] at hth
  exact h before t rest rfl n hn (hsame.of_append (hn.trans ht) ht) th hth

theorem TakesTurns.turn (h : TakesTurns m rt db rs ts) {t : Turn Http} (ht : ∀ n < t.thread, SameUser rs n t.thread →
    ∀ th, ((serverPool rt db rs).runs (Db.exec m) ts).threads[n]? = some th → th.finished = true) :
    TakesTurns m rt db rs (ts ++ [t]) := by
  intro before t' rest hsplit
  rcases Pool.split_concat hsplit with ⟨rfl, rfl⟩ | ⟨rest', hsplit⟩
  · exact ht
  · exact h before t' rest' hsplit

end Pool

/-! ### Screens that take turns -/

/-- No other client writes. -/
def OnlyReadsBesides (es : List SystemEvent) : Prop := ∀ r, .request r ∈ es → r.OnlyReads

/-- Each user books on one screen. -/
def OneScreenEach (es : List SystemEvent) : Prop :=
  ∀ i i' zone zone' email date date', .bookNowPressed i zone (some ⟨some email⟩) date ∈ es →
    .bookNowPressed i' zone' (some ⟨some email⟩) date' ∈ es → i = i'

namespace BookingSystem
variable {f : Foundation} {m : Mongoose} {rt : Runtime} {db : Db} {s s' : BookingSystem} {es : List SystemEvent}
  {e : SystemEvent} {i j n : Nat} {o o' : OpenScreen} {r : Request}

/-- The handler of the request has ended. -/
def Ended (s : BookingSystem) (n : Nat) : Prop := ∀ th, s.server.threads[n]? = some th → th.finished = true

/-- A screen gives up waiting only when the handler of its request has ended. -/
def GivesUpEnded (f : Foundation) (m : Mongoose) (rt : Runtime) (db : Db) (es : List SystemEvent) : Prop :=
  ∀ before i j rest, es = before ++ .loseResponse i j :: rest → ∀ s, (start db).runs f m rt before = some s →
    ∀ o n, s.screens[i]? = some o → o.waiting[j]? = some n → s.Ended n

/-- The requests of each user take turns: what a screen does not wait for has ended, and so have all requests of a user
    but the last. -/
structure Alone (m : Mongoose) (rt : Runtime) (db : Db) (s : BookingSystem) : Prop where
  sender : ∀ (n : Nat) (body : Json), s.requests[n]? = some (.route .booking body) →
    ∃ (i : Nat) (o : OpenScreen), s.screens[i]? = some o ∧ n ∈ o.sent
  done : ∀ (i : Nat) (o : OpenScreen), s.screens[i]? = some o → ∀ n ∈ o.sent, n ∉ o.waiting → s.Ended n
  earlier : ∀ n n', n < n' → SameUser s.requests n n' → s.Ended n
  turns : ∃ ts, s.ServedBy m rt db ts ∧ TakesTurns m rt db s.requests ts

theorem Ended.turn (h : s.Ended n) (t : Turn Http) :
    { s with server := s.server.step (Db.exec m) t }.Ended n := by
  intro th hth
  obtain ⟨th₀, h₀, -⟩ := Pool.step_thread hth
  have hend := h th₀ h₀
  obtain rfl := Option.some.inj ((Pool.step_finished t h₀ hend).symm.trans hth)
  exact hend

theorem Ended.receive (h : s.Ended n) (hn : n < s.server.threads.length) : (s.receive rt r).Ended n := by
  intro th hth
  rw [BookingSystem.receive, Pool.receive, List.getElem?_append_left hn] at hth
  exact h th hth

theorem Inv.ended_receive (hinv : Inv m rt db es s) (hi : s.screens[i]? = some o) (hn : n ∈ o.sent) (h : s.Ended n) :
    (s.receive rt r).Ended n := by
  refine h.receive ?_
  rw [hinv.served.length]
  exact hinv.sent_lt (List.mem_flatMap.mpr ⟨o, List.mem_of_getElem? hi, hn⟩)

theorem setScreen_sent {k : Nat} {ok : OpenScreen} (hi : s.screens[i]? = some o) (hsent : o.sent ⊆ o'.sent)
    (hk : s.screens[k]? = some ok) (hn : n ∈ ok.sent) :
    ∃ (k : Nat) (ok : OpenScreen), (s.setScreen i o').screens[k]? = some ok ∧ n ∈ ok.sent := by
  rcases eq_or_ne i k with rfl | hne
  · obtain rfl := Option.some.inj (hi.symm.trans hk)
    exact ⟨i, o', List.getElem?_set_self (List.getElem?_eq_some_iff.mp hi).1, hsent hn⟩
  · exact ⟨k, ok, (List.getElem?_set_ne hne).trans hk, hn⟩

section Steps
variable (h : s.Alone m rt db)
include h

theorem Alone.receive_turns (r : Request) : ∃ ts, (s.receive rt r).ServedBy m rt db ts ∧
    TakesTurns m rt db (s.receive rt r).requests ts := by
  obtain ⟨ts, hts, hturns⟩ := h.turns
  exact ⟨ts, hts.receive r, hturns.receive hts.1 r⟩

/-- A request that arrives leaves the earlier ones as they are. -/
theorem Alone.receive_earlier (hnew : ∀ n < s.requests.length, SameUser (s.requests ++ [r]) n s.requests.length →
    s.Ended n) : ∀ n n', n < n' → SameUser (s.receive rt r).requests n n' → (s.receive rt r).Ended n := by
  obtain ⟨ts, hts, -⟩ := h.turns
  intro n n' hlt hsame
  have hn' : n' < s.requests.length + 1 := by
    obtain ⟨email, body, body', -, hbody', -⟩ := hsame
    have hn' := (List.getElem?_eq_some_iff.mp hbody').1
    rwa [BookingSystem.receive, List.length_append] at hn'
  have hn : n < s.requests.length := by omega
  have hended : s.Ended n := by
    rcases Nat.lt_succ_iff_lt_or_eq.mp hn' with hold | rfl
    · exact h.earlier n n' hlt (hsame.of_append hn hold)
    · exact hnew n hn hsame
  exact hended.receive (by rw [Served.length ⟨ts, hts⟩]; exact hn)

theorem Alone.setScreen (hi : s.screens[i]? = some o) (hsent : o'.sent = o.sent)
    (hdone : ∀ n ∈ o.sent, n ∉ o'.waiting → s.Ended n) : (s.setScreen i o').Alone m rt db where
  sender n body hn := by
    obtain ⟨k, ok, hk, hmem⟩ := h.sender n body hn
    exact setScreen_sent hi (by rw [hsent]; exact List.Subset.refl _) hk hmem
  done k ok hk n hn hwaits := by
    rcases setScreen_cases hi hk with ⟨rfl, rfl⟩ | hold
    · exact hdone n (hsent ▸ hn) hwaits
    · exact h.done k ok hold n hn hwaits
  earlier := h.earlier
  turns := h.turns

/-- A screen that waits no longer for a request that has ended -/
theorem Alone.erase (hi : s.screens[i]? = some o) (hsent : o'.sent = o.sent)
    (hwaiting : o'.waiting = o.waiting.eraseIdx j) (hj : o.waiting[j]? = some n) (hn : s.Ended n) :
    (s.setScreen i o').Alone m rt db := by
  refine h.setScreen hi hsent fun n' hmem hwaits => ?_
  by_cases hold : n' ∈ o.waiting
  · obtain ⟨hlt, rfl⟩ := List.getElem?_eq_some_iff.mp hj
    rw [← (List.getElem_cons_eraseIdx_perm hlt).mem_iff, ← hwaiting] at hold
    obtain rfl := (List.mem_cons.mp hold).resolve_right hwaits
    exact hn
  · exact h.done i o hi n' hmem hold

theorem Alone.viewDidLoad (screen : Screen) :
    Alone m rt db { s with screens := s.screens ++ [⟨screen, .start, [], [], []⟩] } where
  sender n body hn := by
    obtain ⟨i, o, hi, hmem⟩ := h.sender n body hn
    exact ⟨i, o, (List.getElem?_append_left (List.getElem?_eq_some_iff.mp hi).1).trans hi, hmem⟩
  done i o hi n hn hwaits := by
    rcases lt_or_ge i s.screens.length with hlt | hge
    · rw [List.getElem?_append_left hlt] at hi
      exact h.done i o hi n hn hwaits
    · rw [List.getElem?_append_right hge, List.getElem?_singleton, Option.ite_none_right_eq_some] at hi
      obtain rfl := Option.some.inj hi.2
      cases hn
  earlier := h.earlier
  turns := h.turns

theorem Alone.turn (t : Turn Http) : { s with server := s.server.step (Db.exec m) t }.Alone m rt db := by
  obtain ⟨ts, hts, hturns⟩ := id h.turns
  rcases hts.turn_cases t with ⟨-, hserved⟩ | ⟨-, hsame⟩
  · refine ⟨h.sender, fun i o hi n hn hwaits => (h.done i o hi n hn hwaits).turn t,
      fun n n' hlt hsame => (h.earlier n n' hlt hsame).turn t, ts ++ [t], hserved, hturns.turn ?_⟩
    rw [← hts.2]
    exact fun n hn hsame => h.earlier n t.thread hn hsame
  · rw [hsame]
    exact h

theorem Alone.request (hinv : Inv m rt db es s) (hr : r.OnlyReads) : (s.receive rt r).Alone m rt db where
  sender n body hn := by
    rcases receive_request hn with hold | rfl
    · exact h.sender n body hold
    · exact hr.elim
  done i o hi n hn hwaits := hinv.ended_receive hi hn (h.done i o hi n hn hwaits)
  earlier := h.receive_earlier fun n _ hsame => by
    obtain ⟨email, body, body', -, hbody', -⟩ := hsame
    rw [List.getElem?_concat_length, Option.some.injEq] at hbody'
    exact absurd hr (hbody' ▸ id)
  turns := h.receive_turns r

/-- A screen that does not wait sends a request. -/
theorem Alone.send (hinv : Inv m rt db es s) (hi : s.screens[i]? = some o)
    (hsent : o'.sent = o.sent ++ [s.requests.length]) (hwaiting : o'.waiting = [s.requests.length])
    (hidle : o.waiting = [])
    (hmine : ∀ n < s.requests.length, SameUser (s.requests ++ [r]) n s.requests.length → n ∈ o.sent) :
    ((s.receive rt r).setScreen i o').Alone m rt db where
  sender n body hn := by
    rcases lt_or_ge n s.requests.length with hold | hge
    · obtain ⟨k, ok, hk, hmem⟩ := h.sender n body ((List.getElem?_append_left hold).symm.trans hn)
      exact setScreen_sent (s := s.receive rt r) hi (hsent ▸ List.subset_append_left _ _) hk hmem
    · have hn' := (List.getElem?_eq_some_iff.mp hn).1
      simp only [BookingSystem.setScreen, receive, List.length_append, List.length_singleton] at hn'
      obtain rfl : n = s.requests.length := by omega
      exact ⟨i, o', List.getElem?_set_self (List.getElem?_eq_some_iff.mp hi).1, hsent ▸ List.mem_concat_self⟩
  done k ok hk n hn hwaits := by
    rcases setScreen_cases (s := s.receive rt r) hi hk with ⟨rfl, rfl⟩ | hold
    · rw [hsent, List.mem_append] at hn
      rw [hwaiting] at hwaits
      have hn := hn.resolve_right hwaits
      exact hinv.ended_receive hi hn (h.done k o hi n hn (hidle ▸ List.not_mem_nil))
    · exact hinv.ended_receive hold hn (h.done k ok hold n hn hwaits)
  earlier := h.receive_earlier fun n hlt hsame =>
    h.done i o hi n (hmine n hlt hsame) (hidle ▸ List.not_mem_nil)
  turns := h.receive_turns r

theorem Alone.press {zone : Zone} {currentUser : Option FirebaseUser} {date : Date} {v : BookingScreen}
    (hinv : Inv m rt db es s) (hone : OneScreenEach (es ++ [.bookNowPressed i zone currentUser date]))
    (hi : s.screens[i]? = some o) (hs : o.view.step f o.screen (.press zone currentUser date) = some v) :
    (s.press rt i o v).Alone m rt db := by
  obtain ⟨⟨p, hp⟩, hparallel, -, -, -, -, -⟩ := hinv.fits i o hi
  obtain rfl := hp.eq_ready (BookingScreen.step_press.mp hs).1
  obtain ⟨-, hout⟩ := press_cases hp hs
  obtain ⟨-, hnil⟩ := hp
  rw [hnil, List.length_nil, List.length_eq_zero_iff] at hparallel
  rcases hout with hout | ⟨-, email, rfl, hout⟩
  · simp only [BookingSystem.press, hnil, hout, List.length_nil, List.getElem?_nil]
    exact h.setScreen hi rfl (h.done i o hi)
  · simp only [BookingSystem.press, hnil, hout, List.length_nil, List.getElem?_cons_zero]
    refine h.send hinv hi rfl (by rw [hparallel]; rfl) hparallel fun n hlt hsame => ?_
    obtain ⟨email', body, body', hbody, hbody', hemail, hemail'⟩ := hsame
    rw [List.getElem?_concat_length, Option.some.injEq] at hbody'
    cases hbody'
    cases hemail'
    rw [List.getElem?_append_left hlt] at hbody
    obtain ⟨k, ok, hk, hmem⟩ := h.sender n body hbody
    obtain ⟨r, hr, zone', date', email', hpress, -, rfl⟩ := (hinv.fits k ok hk).asked n hmem
    cases hbody.symm.trans hr
    cases hemail
    obtain rfl := hone k i zone' zone _ date' date (List.mem_append_left _ hpress) List.mem_concat_self
    obtain rfl := Option.some.inj (hi.symm.trans hk)
    exact hmem

/-- Every event keeps the requests of each user apart. -/
theorem Alone.step (hinv : Inv m rt db es s) (hreads : OnlyReadsBesides (es ++ [e])) (hone : OneScreenEach (es ++ [e]))
    (hends : ∀ i j, e = .loseResponse i j → ∀ o n, s.screens[i]? = some o → o.waiting[j]? = some n → s.Ended n)
    (hs : s.step f m rt e = some s') : s'.Alone m rt db := by
  cases e with
  | viewDidLoad screen =>
    obtain rfl := Option.some.inj hs
    exact h.viewDidLoad screen
  | bookNowPressed i zone currentUser date =>
    obtain ⟨o, hi, hs⟩ := Option.bind_eq_some_iff.mp hs
    obtain ⟨v, hv, hs⟩ := Option.bind_eq_some_iff.mp hs
    obtain rfl := Option.some.inj hs
    exact h.press hinv hone hi hv
  | request r =>
    obtain rfl := Option.some.inj hs
    exact h.request hinv (hreads r (by simp))
  | turn t =>
    obtain rfl := Option.some.inj hs
    exact h.turn t
  | response i j =>
    obtain ⟨o, hi, hs⟩ := Option.bind_eq_some_iff.mp hs
    obtain ⟨n, hj, hs⟩ := Option.bind_eq_some_iff.mp hs
    obtain ⟨reply, hr, hs⟩ := Option.bind_eq_some_iff.mp hs
    obtain ⟨data, hd, hs⟩ := Option.bind_eq_some_iff.mp hs
    obtain ⟨v, hv, hs⟩ := Option.bind_eq_some_iff.mp hs
    obtain rfl := Option.some.inj hs
    obtain ⟨th, hth, hend, -⟩ := hinv.served.of_reply hr
    refine h.erase hi rfl rfl hj fun th' hth' => ?_
    obtain rfl := Option.some.inj (hth.symm.trans hth')
    exact hend
  | loseResponse i j =>
    obtain ⟨o, hi, hs⟩ := Option.bind_eq_some_iff.mp hs
    obtain ⟨v, hv, hs⟩ := Option.bind_eq_some_iff.mp hs
    obtain rfl := Option.some.inj hs
    have hlt : j < o.waiting.length := by
      rw [(hinv.fits i o hi).parallel]
      exact (BookingScreen.step_response hv).1
    have hj : o.waiting[j]? = some o.waiting[j] := List.getElem?_eq_getElem hlt
    exact h.erase hi rfl rfl hj (hends i j rfl o _ hi hj)

end Steps

theorem runs_alone (h : (start db).runs f m rt es = some s) (hreads : OnlyReadsBesides es) (hone : OneScreenEach es)
    (hends : GivesUpEnded f m rt db es) : s.Alone m rt db := by
  induction es using List.reverseRecOn generalizing s with
  | nil =>
    cases h
    exact ⟨by simp [start], by simp [start], fun n n' _ ⟨_, _, _, hbody, _⟩ => by simp [start] at hbody,
      [], ⟨by simp, rfl⟩, fun before t rest h => by simp at h⟩
  | append_singleton es e ih =>
    rw [runs_snoc] at h
    obtain ⟨s₀, hs₀, hs⟩ := Option.bind_eq_some_iff.mp h
    refine (ih hs₀ (fun r hr => hreads r (List.mem_append_left _ hr)) (fun i i' zone zone' email date date' hi hi' =>
        hone i i' zone zone' email date date' (List.mem_append_left _ hi) (List.mem_append_left _ hi'))
      fun before i j rest hes => hends before i j (rest ++ [e]) (by rw [hes]; simp)).step (runs_inv hs₀) hreads hone
        ?_ hs
    rintro i j rfl
    exact hends es i j [] rfl s₀ hs₀

/-- Where each user books on one screen, a screen gives up waiting only when the handler of its request has ended, and
    no other client writes, the bookings of each user stay spaced, however the calls of all requests interleave. -/
theorem runs_spaced (f : Foundation) (m : Mongoose) (rt : Runtime) (db : Db) (es : List SystemEvent)
    (h : (start db).runs f m rt es = some s) (hreads : OnlyReadsBesides es) (hone : OneScreenEach es)
    (hends : GivesUpEnded f m rt db es) (h0 : db.Spaced) : s.server.store.Spaced := by
  obtain ⟨ts, hts, hturns⟩ := (runs_alone h hreads hone hends).turns
  rw [hts.2]
  refine hturns.spaced (fun r hr => ?_) h0
  obtain ⟨n, hn⟩ := List.mem_iff_getElem?.mp hr
  rcases (runs_inv h).origin n r hn with hmem | ⟨i, o, -, zone, date, email, -, -, rfl⟩
  · exact Or.inl (hreads r hmem)
  · refine Or.inr ⟨_, email, rfl, rfl, fun _ v hv => ?_⟩
    obtain rfl : v = .str o.screen.facilityId := (Option.some.inj hv).symm
    rfl

def twoDaysLater : Date := ⟨1718625630000, by decide⟩

/-- Two bookings of one user, the second not yet confirmed -/
def bookedTwice : List SystemEvent :=
  middayBooked ++
    .bookNowPressed 0 utc (some ⟨some "home@club.test"⟩) twoDaysLater :: List.replicate 7 (.turn ⟨1, none⟩)

theorem givesUpEnded_bookedTwice :
    GivesUpEnded BookingScreen.plainFoundation mongoose6 utc.runtime club (bookedTwice ++ [.loseResponse 0 0]) := by
  have hrun : (((start club).runs BookingScreen.plainFoundation mongoose6 utc.runtime bookedTwice).all fun s =>
      s.server.threads.all Thread.finished) = true := by decide +kernel
  intro before i j rest hes s hs o n hi hj th hth
  rcases Pool.split_concat hes with ⟨rfl, -⟩ | ⟨rest', hsplit⟩
  · rw [hs, Option.all_some] at hrun
    exact List.all_eq_true.mp hrun th (List.mem_of_getElem? hth)
  · have hmem : .loseResponse i j ∈ bookedTwice := hsplit ▸ by simp
    simp [bookedTwice, middayBooked] at hmem

theorem runs_spaced_club : ∃ s, (start club).runs BookingScreen.plainFoundation mongoose6 utc.runtime
    (bookedTwice ++ [.loseResponse 0 0]) = some s ∧ s.server.store.bookings.length = 2 ∧ s.server.store.Spaced := by
  have hrun : (((start club).runs BookingScreen.plainFoundation mongoose6 utc.runtime
      (bookedTwice ++ [.loseResponse 0 0])).any fun s => s.server.store.bookings.length == 2) = true := by
    decide +kernel
  obtain ⟨s, hs, hlength⟩ := (Option.any_eq_true _ _).mp hrun
  have hpress : ∀ i zone user date, .bookNowPressed i zone user date ∈ bookedTwice ++ [.loseResponse 0 0] → i = 0 := by
    intro i zone user date hmem
    simp only [bookedTwice, middayBooked, List.mem_append, List.mem_cons, List.mem_replicate, reduceCtorEq,
      SystemEvent.bookNowPressed.injEq, List.not_mem_nil, and_false, or_false, false_or] at hmem
    exact hmem.elim And.left And.left
  refine ⟨s, hs, eq_of_beq hlength, runs_spaced BookingScreen.plainFoundation mongoose6 utc.runtime club _ hs
    (fun r hr => ?_) (fun i i' _ _ _ _ _ hi hi' => (hpress _ _ _ _ hi).trans (hpress _ _ _ _ hi').symm)
    givesUpEnded_bookedTwice List.Pairwise.nil⟩
  simp [bookedTwice, middayBooked] at hr

end BookingSystem
end KhelaKaro
