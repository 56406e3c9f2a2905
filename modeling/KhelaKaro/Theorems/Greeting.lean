import KhelaKaro.ProfileScreen
import KhelaKaro.Theorems.Liveness

/-! # The name on the screens

What a user who has registered in the app sees as the own name, on the list of sports and on the profile. The screens
show whatever message the reply carries, so they greet with the error where a call has failed (`runs_greeting`). -/

namespace KhelaKaro
open Async

/-- Both screens show the name when the response carries the data. -/
structure Greets (f : Foundation) (data : Json) (name : String) : Prop where
  profile : ∀ v : ProfileScreen, v.nameResponse f (some data) = some { v with userName := some name }
  sportList : SportList.nameResponse f (some data) = some ⟨some ("Welcome " ++ name ++ "!")⟩

theorem Reply.greets (success : Bool) (msg : String) (status : Nat) (f : Foundation) :
    ∃ data, (Reply.message success msg status).json = some data ∧ Greets f data msg := by
  obtain ⟨fields, hjson, hmsg⟩ := Reply.json_msg (r := .message success msg status) rfl
  have hname : getName f (some (.obj fields)) = some msg := by
    simp only [getName, bookCourtResult, Json.ofData, Option.map_some, hmsg, Json.stringValue]
  refine ⟨_, hjson, fun v => ?_, ?_⟩
  · rw [ProfileScreen.nameResponse, hname, Option.map_some]
  · rw [SportList.nameResponse, hname, Option.map_some]

theorem Form.eq_of_describes {m : Mongoose} {form : Form} {user : User}
    (h : Describes m (registerDraft form.registerInMongo) user) :
    user.firstName = trimming form.firstName ∧ user.lastName = trimming form.lastName :=
  ⟨eq_of_requiredString h.firstName, eq_of_requiredString h.lastName⟩

/-- Who has the email of a stored user is not left without an answer. -/
theorem AnsweredBetween.found {m : Mongoose} {db₁ db₂ : Db} {body : Json} {email : String} {answer : Option User}
    {user : User} (h : AnsweredBetween m db₁ db₂ (identified body answer))
    (hemail : body.prop "email" = some (.str email)) (huser : db₁.users.docs.find? (·.email == email) = some user) :
    answer = some user := by
  obtain ⟨db, fault, hearlier, hanswer, -⟩ := h
  obtain ⟨p, hp, hfind⟩ := find_of_answer hanswer.symm
  rw [hemail, m.matchEmail_str, Except.ok.injEq] at hp
  subst hp
  exact hfind.symm.trans (hearlier.users.find?_eq_some huser)

namespace BookingSystem
variable {s₁ s : BookingSystem}

/-- Who has registered in the app is greeted by the name in the form after two turns of the handler, or by an error
    text when a call of it has failed. -/
theorem runs_greeting (f : Foundation) (m : Mongoose) (rt : Runtime) (db : Db) (es₁ es₂ : List SystemEvent) {k : Nat}
    {form : Form} (h₁ : (start db).runs f m rt es₁ = some s₁)
    (hk : s₁.requests[k]? = some (.register form.registerInMongo)) (hregistered : s₁.reply k = some .registered)
    (h : s₁.runs f m rt (.request (.route .getName (profileParameters (trimming form.email))) :: es₂) = some s)
    (hturns : 2 ≤ Pool.turnsOf s₁.requests.length (es₂.flatMap SystemEvent.turns)) :
    ∃ r data name, s.reply s₁.requests.length = some r ∧ r.json = some data ∧ Greets f data name ∧
      (name = trimming form.firstName ++ " " ++ trimming form.lastName ∨
        (name = "Email is not valid. Please log in again." ∨ name = "Server Error") ∧
          ∃ th, s.server.threads[s₁.requests.length]? = some th ∧ ∃ c ∈ th.calls, ∃ e, c.answer = .error e) := by
  obtain ⟨ts₁, hts₁⟩ := (runs_inv h₁).served
  -- The user is stored before the name is asked for.
  obtain ⟨user, hd, huser⟩ : ∃ user, Describes m (registerDraft form.registerInMongo) user ∧
      s₁.server.store.users.docs.find? (·.email == trimming form.email) = some user := by
    obtain ⟨th, hth, -, hsent⟩ := Served.of_reply ⟨_, hts₁⟩ hregistered
    rw [hts₁.2] at hth ⊢
    exact (serverPool_attested hth _ ((serverPool_along hth hk postRegister_along).saved hsent)).saved
      _ _ rfl rfl
  rw [runs_cons, BookingSystem.step, Option.bind_some] at h
  obtain ⟨th, hth⟩ := hts₁.handled rfl rfl h
  have hfound : ∀ answer, identified (profileParameters (trimming form.email)) answer ∈ th.calls →
      answer = some user := fun answer hc => (hth.between _ hc).found rfl huser
  have hreply : ∀ r, th.sent = [r] → s.reply s₁.requests.length = some r := fun r => hth.reply
  have hanswer := hth.along getName_along (hth.settled hturns).1
  have hth := hth.thread
  obtain ⟨calls, sent, proc⟩ := th
  dsimp only at hanswer hfound hreply
  cases hanswer with
  | gateFailed e =>
    obtain ⟨data, hdata, hgreets⟩ := Reply.greets false "Email is not valid. Please log in again." 401 f
    exact ⟨_, data, _, hreply _ rfl, hdata, hgreets, Or.inr ⟨Or.inl rfl, _, hth, _, List.mem_singleton_self _, e, rfl⟩⟩
  | unknown => cases hfound none (List.mem_singleton_self _)
  | lookFailed user' e =>
    obtain ⟨data, hdata, hgreets⟩ := Reply.greets false "Server Error" 500 f
    exact ⟨_, data, _, hreply _ rfl, hdata, hgreets,
      Or.inr ⟨Or.inr rfl, _, hth, _, List.mem_cons_of_mem _ (List.mem_singleton_self _), e, rfl⟩⟩
  | vanished user' => cases hfound none (List.mem_cons_of_mem _ (List.mem_singleton_self _))
  | named user' user'' =>
    obtain rfl := Option.some.inj (hfound (some user'') (List.mem_cons_of_mem _ (List.mem_singleton_self _)))
    obtain ⟨hfirst, hlast⟩ := Form.eq_of_describes hd
    obtain ⟨data, hdata, hgreets⟩ := Reply.greets true (user''.firstName ++ " " ++ user''.lastName) 200 f
    exact ⟨_, data, _, hreply _ rfl, hdata, hgreets, Or.inl (by rw [hfirst, hlast])⟩

/-- A form as it is filled in -/
def filledIn : Form := ⟨" New", "Player ", "new@club.test ", "0123456789", "secret1!", "secret1!"⟩

theorem runs_greeting_club : ∃ s₁ s r data,
    (start club).runs BookingScreen.plainFoundation mongoose6 utc.runtime
      [.request (.register filledIn.registerInMongo), .turn ⟨0, none⟩, .turn ⟨0, none⟩] = some s₁ ∧
    s₁.runs BookingScreen.plainFoundation mongoose6 utc.runtime
      [.request (.route .getName (profileParameters "new@club.test")), .turn ⟨1, none⟩, .turn ⟨1, none⟩] = some s ∧
    s.reply s₁.requests.length = some r ∧ r.json = some data ∧
      Greets BookingScreen.plainFoundation data "New Player" := by
  have hrun : (((start club).runs BookingScreen.plainFoundation mongoose6 utc.runtime
      [.request (.register filledIn.registerInMongo), .turn ⟨0, none⟩, .turn ⟨0, none⟩]).any fun s₁ =>
        s₁.requests.length == 1 && s₁.reply 0 == some .registered &&
        (s₁.runs BookingScreen.plainFoundation mongoose6 utc.runtime
          [.request (.route .getName (profileParameters "new@club.test")), .turn ⟨1, none⟩, .turn ⟨1, none⟩]).any
          fun s => s.server.threads.all fun th => th.calls.all fun c => c.answer.isOk) = true := by decide +kernel
  obtain ⟨s₁, hs₁, hrun⟩ := (Option.any_eq_true _ _).mp hrun
  rw [Bool.and_eq_true, Bool.and_eq_true] at hrun
  obtain ⟨⟨hlength, hregistered⟩, hrun⟩ := hrun
  obtain ⟨s, hs, hrun⟩ := (Option.any_eq_true _ _).mp hrun
  have hlength : s₁.requests.length = 1 := eq_of_beq hlength
  have hstart : (start club).runs BookingScreen.plainFoundation mongoose6 utc.runtime [] = some (start club) := rfl
  obtain ⟨ts, hts⟩ := (runs_inv hstart).served
  obtain ⟨r, data, name, hr, hdata, hgreets, hname⟩ := runs_greeting BookingScreen.plainFoundation mongoose6 utc.runtime
    club _ [.turn ⟨1, none⟩, .turn ⟨1, none⟩] hs₁ (hts.arrived hs₁) (eq_of_beq hregistered) hs
    (by rw [hlength]; decide)
  rcases hname with rfl | ⟨-, th, hth, c, hc, e, he⟩
  · exact ⟨s₁, s, r, data, hs₁, hs, hr, hdata, hgreets⟩
  · have hok := List.all_eq_true.mp (List.all_eq_true.mp hrun th (List.mem_of_getElem? hth)) c hc
    rw [he] at hok
    cases hok

end BookingSystem
end KhelaKaro
