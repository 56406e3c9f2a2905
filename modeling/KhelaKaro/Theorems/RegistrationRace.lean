import KhelaKaro.Query
import KhelaKaro.Theorems.BookingRoute
import KhelaKaro.Theorems.Effects

/-! # Registrations in flight

Any number of handlers of `POST /api/auth/register` with one email, in any order of their calls. Several may pass the
look-up together; the unique index lets one save through. Successful saves are counted against the documents with that
email, of which there is never more than one. -/

namespace KhelaKaro
open Async

namespace Reply

def userExists : Reply := message false "User already exists" 400

def registered : Reply := message true "User registered successfully"

end Reply

/-! ### The progress of a handler -/

def registerDraft (body : Json) : UserDraft :=
  ⟨body.prop "firstName", body.prop "lastName", body.prop "email", body.prop "contactNumber"⟩

/-- Where a handler can stand, whatever the answers to its calls. -/
inductive RegisterProgress (body : Json) : List (Call Http) → List Reply → Stage Http → Prop where
  | looking : RegisterProgress body [] [] (.awaits (.userFindOne (body.prop "email")))
  | lookFailed (e : JsError) :
    RegisterProgress body [⟨.userFindOne (body.prop "email"), .error e⟩] [.serverError] .done
  | taken (user : User) :
    RegisterProgress body [⟨.userFindOne (body.prop "email"), .ok (some user)⟩] [.userExists] .done
  | saving :
    RegisterProgress body [⟨.userFindOne (body.prop "email"), .ok none⟩] [] (.awaits (.userSave (registerDraft body)))
  | saveFailed (e : JsError) :
    RegisterProgress body
      [⟨.userFindOne (body.prop "email"), .ok none⟩, ⟨.userSave (registerDraft body), .error e⟩] [.serverError] .done
  | registered :
    RegisterProgress body
      [⟨.userFindOne (body.prop "email"), .ok none⟩, ⟨.userSave (registerDraft body), .ok ()⟩] [.registered] .done

theorem postRegister_along {body : Json} : (postRegister body).Along (fun _ => True)
    (fun th => RegisterProgress body th.calls th.sent th.proc.stage) [] [] := by
  refine ⟨.looking, fun user _ => ?_, fun e _ => .lookFailed e⟩
  cases user with
  | some user => exact .taken user
  | none => exact ⟨.saving, fun _ _ => .registered, fun e _ => .saveFailed e⟩

theorem RegisterProgress.sent_ne_nil {body : Json} {calls : List (Call Http)} {sent : List Reply} {stage : Stage Http}
    (h : RegisterProgress body calls sent stage) (hend : ∀ op, stage ≠ .awaits op) : sent ≠ [] := by
  cases h with
  | looking => exact absurd rfl (hend _)
  | saving => exact absurd rfl (hend _)
  | lookFailed e => exact List.cons_ne_nil _ _
  | taken user => exact List.cons_ne_nil _ _
  | saveFailed e => exact List.cons_ne_nil _ _
  | registered => exact List.cons_ne_nil _ _

/-- The handler of a registration that was confirmed has saved the user. -/
theorem RegisterProgress.saved {body : Json} {calls : List (Call Http)} {sent : List Reply} {stage : Stage Http}
    (h : RegisterProgress body calls sent stage) (hsent : sent = [.registered]) :
    ⟨.userSave (registerDraft body), .ok ()⟩ ∈ calls := by
  cases h with
  | registered => exact List.mem_cons_of_mem _ (List.mem_singleton_self _)
  | looking => cases hsent
  | lookFailed e => cases hsent
  | taken user => cases hsent
  | saving => cases hsent
  | saveFailed e => cases hsent

/-! ### Requests for one email -/

structure Registers (email : String) (body : Json) : Prop where
  firstName : ∃ s, s ≠ "" ∧ body.prop "firstName" = some (.str s)
  lastName : ∃ s, s ≠ "" ∧ body.prop "lastName" = some (.str s)
  email : body.prop "email" = some (.str email)
  contactNumber : ∃ s, body.prop "contactNumber" = some (.str s)

structure HasFields (user : User) (body : Json) : Prop where
  firstName : body.prop "firstName" = some (.str user.firstName)
  lastName : body.prop "lastName" = some (.str user.lastName)
  email : body.prop "email" = some (.str user.email)
  contactNumber : ∃ s, user.contactNumber = some s ∧ body.prop "contactNumber" = some (.str s)

theorem requiredString_str (m : Mongoose) {s : String} (h : s ≠ "") : m.requiredString (some (.str s)) = .ok s := by
  simp only [Mongoose.requiredString, Mongoose.castField, m.castString_str, Option.elim_some, ok_bind, if_neg h]

section Drafts
variable {m : Mongoose} {email : String} {body : Json}

theorem Registers.describes (h : Registers email body) (hne : email ≠ "") :
    ∃ user, Describes m (registerDraft body) user ∧ user.email = email := by
  obtain ⟨firstName, hfirst, hfirst'⟩ := h.firstName
  obtain ⟨lastName, hlast, hlast'⟩ := h.lastName
  obtain ⟨contactNumber, hnumber⟩ := h.contactNumber
  refine ⟨⟨⟨0⟩, firstName, lastName, email, some contactNumber⟩, ⟨?_, ?_, ?_, ?_⟩, rfl⟩
  · simp only [registerDraft, hfirst', requiredString_str m hfirst]
  · simp only [registerDraft, hlast', requiredString_str m hlast]
  · simp only [registerDraft, h.email, requiredString_str m hne]
  · simp only [registerDraft, hnumber, Mongoose.castField, m.castString_str, Option.elim_some]

theorem Describes.hasFields {user : User} (hd : Describes m (registerDraft body) user) (h : Registers email body)
    (hne : email ≠ "") : HasFields user body := by
  obtain ⟨firstName, hfirst, hfirst'⟩ := h.firstName
  obtain ⟨lastName, hlast, hlast'⟩ := h.lastName
  obtain ⟨contactNumber, hnumber⟩ := h.contactNumber
  have h1 := hd.firstName
  have h2 := hd.lastName
  have h3 := hd.email
  have h4 := hd.contactNumber
  simp only [registerDraft, hfirst', hlast', h.email, hnumber, requiredString_str m hfirst, requiredString_str m hlast,
    requiredString_str m hne, Mongoose.castField, m.castString_str, Option.elim_some, Except.ok.injEq] at h1 h2 h3 h4
  exact ⟨by rw [hfirst', h1], by rw [hlast', h2], by rw [h.email, h3], contactNumber, h4.symm, hnumber⟩

end Drafts

/-! ### The race -/

def registerPool (db : Db) (bodies : List Json) : Pool Http Db Unit := Pool.start db (bodies.map postRegister)

def Db.HasEmail (db : Db) (email : String) : Prop := ∃ u ∈ db.users.docs, u.email = email

/-- What the database attests of a call: an email that was found or refused is taken, and a user that was saved is
    there. -/
def Attests (m : Mongoose) (email : String) (db : Db) : Call Http → Prop
  | ⟨.userFindOne v, .ok (some _)⟩ => v = some (.str email) → db.HasEmail email
  | ⟨.userFindOne v, .error _⟩ => v = some (.str email) → db.HasEmail email
  | ⟨.userSave doc, .error _⟩ => (∃ user, Describes m doc user ∧ user.email = email) → db.HasEmail email
  | ⟨.userSave doc, .ok _⟩ => ∃ user ∈ db.users.docs, Describes m doc user
  | _ => True

def savesUser : Call Http → Nat
  | ⟨.userSave _, .ok _⟩ => 1
  | _ => 0

section Race
variable {m : Mongoose} {email : String} {db : Db} {bodies : List Json}

theorem Db.HasEmail.attempt (h : db.HasEmail email) (m : Mongoose) (fault : Option JsError) (op : Op) :
    (Proc.attempt (Db.exec m) fault db op).1.HasEmail email := by
  obtain ⟨u, hu, he⟩ := h
  exact ⟨u, mem_attempt_users m fault db op hu, he⟩

theorem Attests.mono {c : Call Http} (h : Attests m email db c) (fault : Option JsError) (op : Op) :
    Attests m email (Proc.attempt (Db.exec m) fault db op).1 c := by
  unfold Attests at h ⊢
  split
  · exact fun hv => (h hv).attempt m fault op
  · exact fun hv => (h hv).attempt m fault op
  · exact fun hd => (h hd).attempt m fault op
  · obtain ⟨user, hu, hd⟩ := h
    exact ⟨user, mem_attempt_users m fault db op hu, hd⟩
  · trivial

/-- A call that fails by itself is no harm once the email is taken. -/
theorem attests_attempt (m : Mongoose) {fault : Option JsError} (h : fault = none ∨ db.HasEmail email) (op : Op) :
    Attests m email (Proc.attempt (Db.exec m) fault db op).1 ⟨op, (Proc.attempt (Db.exec m) fault db op).2⟩ := by
  cases fault with
  | some e =>
    have hemail : db.HasEmail email := by simpa using h
    cases op <;> first | trivial | exact fun _ => hemail
  | none =>
  rw [Proc.attempt_none]
  cases op with
  | userFindOne v =>
    cases hp : m.matchEmail v with
    | error e =>
      rw [exec_userFindOne_error hp]
      rintro rfl
      rw [m.matchEmail_str] at hp
      cases hp
    | ok p =>
      rw [exec_userFindOne hp]
      cases hf : db.users.docs.find? (p ·.email) with
      | none => trivial
      | some u =>
        rintro rfl
        rw [m.matchEmail_str, Except.ok.injEq] at hp
        subst hp
        exact ⟨u, List.mem_of_find?_eq_some hf, by simpa using List.find?_some hf⟩
  | userSave doc =>
    rw [Db.exec]
    cases hs : m.saveUser db doc with
    | error e =>
      rintro ⟨user, hd, rfl⟩
      exact taken_of_saveUser_error hd hs
    | ok db' =>
      obtain ⟨user, hd, -, hu, -⟩ := saveUser_eq_ok hs
      exact ⟨user, by simp [Db.saved, hu], hd⟩
  | facilityFindOne facilityId => trivial
  | facilityFind => trivial
  | facilitySave doc => trivial
  | bookingFind filter => trivial
  | bookingFindOne filter => trivial
  | bookingSave doc => trivial

theorem savesUser_total (m : Mongoose) (db : Db) (bodies : List Json) (ts : List (Turn Http)) :
    ((registerPool db bodies).runs (Db.exec m) ts).store.users.docs.length =
      db.users.docs.length + Pool.total savesUser ((registerPool db bodies).runs (Db.exec m) ts).threads := by
  refine Pool.runs_total (fun db => db.users.docs.length) savesUser (fun fault db op => ?_) db _ ts
  rcases attempt_users m fault db op with ⟨hu, hnot⟩ | ⟨doc, user, hc, -, -, hu⟩
  · have hzero : savesUser ⟨op, (Proc.attempt (Db.exec m) fault db op).2⟩ = 0 := by
      unfold savesUser
      split
      · rename_i doc a hc
        exact absurd hc (hnot doc)
      · rfl
    rw [hu, hzero, Nat.add_zero]
  · rw [hc, hu, List.length_append]
    rfl

/-- Until a handler has saved the user, the users are the first ones; from then on there is that one more. -/
def OneMore (db : Db) (email : String) (db' : Db) : Prop :=
  db'.users.docs = db.users.docs ∨ ∃ user, user.email = email ∧ db'.users.docs = db.users.docs ++ [user]

theorem registerPool_keeps (db : Db) (ts : List (Turn Http)) (hne : email ≠ "")
    (hbodies : ∀ body ∈ bodies, Registers email body) :
    Pool.Keeps (OneMore db email) (fun _ => True)
      (fun i th => ∃ body, bodies[i]? = some body ∧ RegisterProgress body th.calls th.sent th.proc.stage)
      ((registerPool db bodies).runs (Db.exec m) ts) := by
  refine Pool.Keeps.runs (Pool.Keeps.start (show OneMore db email db from Or.inl rfl) fun i t ht => ?_) ts ?_
  · simp only [List.getElem?_map, Option.map_eq_some_iff] at ht
    obtain ⟨body, hbody, rfl⟩ := ht
    exact postRegister_along.mono fun th hth => ⟨body, hbody, hth⟩
  · rintro db' i th op next reject fault - hmore ⟨body, hbody, hp⟩ hproc
    refine ⟨?_, trivial⟩
    rw [hproc] at hp
    unfold OneMore
    rcases attempt_users m fault db' op with ⟨hu, -⟩ | ⟨doc, user, hc, hd, hnew, hu⟩
    · rw [hu]
      exact hmore
    · obtain ⟨rfl, -⟩ := Call.mk.inj hc
      generalize th.calls = calls, th.sent = sent at hp
      cases hp
      have hfields := hd.hasFields (hbodies body (List.mem_of_getElem? hbody)) hne
      have hemail : user.email = email := by
        have := hfields.email.symm.trans (hbodies body (List.mem_of_getElem? hbody)).email
        simpa using this
      rcases hmore with hsame | ⟨user', hemail', hmore⟩
      · exact Or.inr ⟨user, hemail, by rw [hu, hsame]⟩
      · exact absurd (hemail'.trans hemail.symm) (hnew user' (by simp [hmore]))

theorem registerPool_attests (m : Mongoose) (email : String) (db : Db) (bodies : List Json) {ts : List (Turn Http)}
    (hfaults : ∀ t ∈ ts, t.fault = none) {i : Nat} {th : Thread Http Unit}
    (hi : ((registerPool db bodies).runs (Db.exec m) ts).threads[i]? = some th) {c : Call Http} (hc : c ∈ th.calls) :
    Attests m email ((registerPool db bodies).runs (Db.exec m) ts).store c := by
  refine Pool.runs_calls (J := Attests m email) (fun db fault op c h => h.mono fault op) db (bodies.map postRegister) ts
    ?_ hi hc
  intro t ht db op
  rw [hfaults t ht]
  exact attests_attempt m (Or.inl rfl) op

/-- A handler that has answered has seen to it that the email is taken. -/
theorem RegisterProgress.hasEmail {body : Json} {calls : List (Call Http)} {sent : List Reply} {stage : Stage Http}
    (h : RegisterProgress body calls sent stage) (hsent : sent ≠ []) (hb : Registers email body) (hne : email ≠ "")
    (hc : ∀ c ∈ calls, Attests m email db c) : db.HasEmail email := by
  obtain ⟨draft, hdraft, hemail⟩ := hb.describes (m := m) hne
  cases h with
  | looking => exact absurd rfl hsent
  | saving => exact absurd rfl hsent
  | lookFailed e => exact hc _ List.mem_cons_self hb.email
  | taken user => exact hc _ List.mem_cons_self hb.email
  | saveFailed e => exact hc _ (List.mem_cons_of_mem _ List.mem_cons_self) ⟨draft, hdraft, hemail⟩
  | registered =>
    obtain ⟨user, hu, hd⟩ := hc _ (List.mem_cons_of_mem _ List.mem_cons_self)
    refine ⟨user, hu, ?_⟩
    have := hd.email.symm.trans hdraft.email
    rw [Except.ok.injEq] at this
    rw [this, hemail]

/-- What a handler has answered tells whether it has saved a user. -/
theorem RegisterProgress.saves {body : Json} {calls : List (Call Http)} {sent : List Reply} {stage : Stage Http}
    (h : RegisterProgress body calls sent stage) (hsent : sent ≠ []) :
    (calls.map savesUser).sum = 1 ∧ sent = [.registered] ∧ ⟨.userSave (registerDraft body), .ok ()⟩ ∈ calls ∨
      (calls.map savesUser).sum = 0 ∧ (sent = [.userExists] ∨ sent = [.serverError]) := by
  cases h with
  | looking => exact absurd rfl hsent
  | saving => exact absurd rfl hsent
  | lookFailed e => exact Or.inr ⟨rfl, Or.inr rfl⟩
  | taken user => exact Or.inr ⟨rfl, Or.inl rfl⟩
  | saveFailed e => exact Or.inr ⟨rfl, Or.inr rfl⟩
  | registered => exact Or.inl ⟨rfl, rfl, List.mem_cons_of_mem _ List.mem_cons_self⟩

end Race

/-- The outcome of a race: handler `i` has saved `user`, and all others are refused. -/
structure WonBy (db : Db) (email : String) (bodies : List Json) (q : Pool Http Db Unit) (i : Nat) (user : User) :
    Prop where
  won : ∃ th body, q.threads[i]? = some th ∧ bodies[i]? = some body ∧ th.sent = [.registered] ∧ HasFields user body
  lost : ∀ (j : Nat) (th : Thread Http Unit), j ≠ i → q.threads[j]? = some th →
    th.sent = [.userExists] ∨ th.sent = [.serverError]
  stored : q.store.users.docs = db.users.docs ++ [user]
  email : user.email = email

/-- When all handlers have answered, exactly one has registered its user, and there is no other new user. -/
theorem register_one_winner (m : Mongoose) (db : Db) (email : String) (bodies : List Json) (ts : List (Turn Http))
    (hbodies : ∀ body ∈ bodies, Registers email body) (hsome : bodies ≠ []) (hne : email ≠ "")
    (hnew : ¬db.HasEmail email) (hfaults : ∀ t ∈ ts, t.fault = none)
    (hdone : ∀ th ∈ ((registerPool db bodies).runs (Db.exec m) ts).threads, th.sent ≠ []) :
    ∃ i user, WonBy db email bodies ((registerPool db bodies).runs (Db.exec m) ts) i user := by
  have hkeeps := registerPool_keeps (m := m) db ts hne hbodies
  have htotal := savesUser_total m db bodies ts
  have hattests : ∀ (i : Nat) (th : Thread Http Unit),
      ((registerPool db bodies).runs (Db.exec m) ts).threads[i]? = some th → ∀ c ∈ th.calls,
        Attests m email ((registerPool db bodies).runs (Db.exec m) ts).store c := fun i th hi c hc =>
    registerPool_attests m email db bodies hfaults hi hc
  have hlen : ((registerPool db bodies).runs (Db.exec m) ts).threads.length = bodies.length := by
    rw [Pool.runs_length]
    simp [registerPool, Pool.start]
  generalize (registerPool db bodies).runs (Db.exec m) ts = q at *
  rcases hkeeps.store with hsame | ⟨user, hemail, hmore⟩
  · -- Someone has answered, so the email is taken.
    exfalso
    obtain ⟨th, hth⟩ : ∃ th, q.threads[0]? = some th := by
      rw [← List.length_pos_iff, ← hlen] at hsome
      exact ⟨_, List.getElem?_eq_getElem hsome⟩
    obtain ⟨body, hbody, hp⟩ := hkeeps.here hth
    obtain ⟨u, hu, he⟩ := hp.hasEmail (hdone th (List.mem_of_getElem? hth)) (hbodies body (List.mem_of_getElem? hbody))
      hne (hattests 0 th hth)
    rw [hsame] at hu
    exact hnew ⟨u, hu, he⟩
  · have hone : Pool.total savesUser q.threads = 1 := by
      rw [hmore, List.length_append, List.length_singleton] at htotal
      omega
    obtain ⟨i, th, hth, hsum, hothers⟩ := Pool.total_eq_one hone
    obtain ⟨body, hbody, hp⟩ := hkeeps.here hth
    have hregisters := hbodies body (List.mem_of_getElem? hbody)
    refine ⟨i, user, ⟨th, body, hth, hbody, ?_⟩, fun j th' hj hth' => ?_, hmore, hemail⟩
    · rcases hp.saves (hdone th (List.mem_of_getElem? hth)) with ⟨-, hsent, hcall⟩ | ⟨hzero, -⟩
      · obtain ⟨u, hu, hd⟩ := hattests i th hth _ hcall
        have hfields := hd.hasFields hregisters hne
        refine ⟨hsent, ?_⟩
        rw [hmore, List.mem_append, List.mem_singleton] at hu
        rcases hu with hu | rfl
        · have := hfields.email.symm.trans hregisters.email
          exact absurd ⟨u, hu, by simpa using this⟩ hnew
        · exact hfields
      · omega
    · obtain ⟨body', -, hp'⟩ := hkeeps.here hth'
      rcases hp'.saves (hdone th' (List.mem_of_getElem? hth')) with ⟨hone', -⟩ | ⟨-, hsent⟩
      · have := hothers j th' hj hth'
        omega
      · exact hsent

def newcomer (firstName : String) : Json :=
  .obj [("firstName", .str firstName), ("lastName", .str "Player"), ("email", .str "new@club.test"),
    ("contactNumber", .str "0123456789")]

theorem newcomer_registers {firstName : String} (h : firstName ≠ "") :
    Registers "new@club.test" (newcomer firstName) :=
  ⟨⟨firstName, h, rfl⟩, ⟨"Player", by decide, rfl⟩, rfl, ⟨"0123456789", rfl⟩⟩

def newcomerTurns : List (Turn Http) := [⟨0, none⟩, ⟨1, none⟩, ⟨1, none⟩, ⟨0, none⟩]

theorem register_one_winner_club : ∃ i user, WonBy club "new@club.test" [newcomer "First", newcomer "Second"]
    ((registerPool club [newcomer "First", newcomer "Second"]).runs (Db.exec mongoose6) newcomerTurns) i user := by
  have hdone : (((registerPool club [newcomer "First", newcomer "Second"]).runs (Db.exec mongoose6)
      newcomerTurns).threads.all fun th => th.sent ≠ []) = true := by decide +kernel
  refine register_one_winner mongoose6 club "new@club.test" _ newcomerTurns ?_ (by simp) (by decide) ?_ ?_ ?_
  · intro body hbody
    simp only [List.mem_cons, List.not_mem_nil, or_false] at hbody
    rcases hbody with rfl | rfl
    · exact newcomer_registers (by decide)
    · exact newcomer_registers (by decide)
  · rintro ⟨u, hu, he⟩
    simp only [club, List.mem_cons, List.not_mem_nil, or_false] at hu
    rcases hu with rfl | rfl
    · exact absurd he (by decide)
    · exact absurd he (by decide)
  · simp [newcomerTurns]
  · intro th hth
    simpa using List.all_eq_true.mp hdone th hth

end KhelaKaro
