import KhelaKaro.DateText
import KhelaKaro.Registration
import KhelaKaro.Theorems.RegistrationRace

/-! # Firebase and the API after registrations

When nothing is in flight any more, both stores know the user of each attempt that ended without an alert, provided no
request of such an attempt was lost and none of its calls failed before its email was stored. Every attempt carries
what is known of it at its stage (`AttemptOk`); the events of the others keep it. -/

namespace KhelaKaro
open Async

section Stores
variable [SwiftString]

/-- The event loses no request and breaks no call of an attempt that was not alerted, unless its email is stored. -/
def World.Harmless (m : Mongoose) (w : World) : RegisterEvent → Prop
  | .loseRequest i => ∀ a, w.attempts[i]? = some a → a.stage = .requested false → w.server.store.HasEmail a.email
  | .turn t => t.fault ≠ none → w.server.event (Db.exec m) t ≠ none → ∀ a ∈ w.attempts,
      a.stage = .serving false t.thread ∨ a.stage = .finished false t.thread → w.server.store.HasEmail a.email
  | _ => True

/-- Handler `k` serves the attempt; if there was no alert, the database attests all its calls. -/
def Served (m : Mongoose) (server : Pool Http Db Unit) (a : RegisterAttempt) (alerted : Bool) (k : Nat) : Prop :=
  ∃ th, server.threads[k]? = some th ∧ th.Settled ∧
    th.Along (fun _ => True) (fun th => RegisterProgress a.body th.calls th.sent th.proc.stage) ∧
    (alerted = false → ∀ c ∈ th.calls, Attests m a.email server.store c)

/-- What is known of an attempt at its stage. -/
def AttemptOk (m : Mongoose) (accounts : List String) (server : Pool Http Db Unit) (a : RegisterAttempt) : Prop :=
  match a.stage with
  | .creating | .created true | .refused => True
  | .created false | .requested _ => a.email ∈ accounts
  | .lost alerted => a.email ∈ accounts ∧ (alerted = false → server.store.HasEmail a.email)
  | .serving alerted k | .finished alerted k => a.email ∈ accounts ∧ Served m server a alerted k

def World.Ok (m : Mongoose) (w : World) : Prop := ∀ a ∈ w.attempts, AttemptOk m w.accounts w.server a

section Steps
variable {m : Mongoose} {w : World} {accounts accounts' : List String} {server server' : Pool Http Db Unit}
  {a : RegisterAttempt}

theorem AttemptOk.mono (h : AttemptOk m accounts server a) (haccounts : accounts ⊆ accounts')
    (hemail : server.store.HasEmail a.email → server'.store.HasEmail a.email)
    (hserved : ∀ alerted k, a.stage = .serving alerted k ∨ a.stage = .finished alerted k →
      Served m server a alerted k → Served m server' a alerted k) : AttemptOk m accounts' server' a := by
  unfold AttemptOk at h ⊢
  cases hs : a.stage with
  | creating => trivial
  | refused => trivial
  | created failed =>
    rw [hs] at h
    cases failed with
    | true => trivial
    | false => exact haccounts h
  | requested alerted =>
    rw [hs] at h
    exact haccounts h
  | lost alerted =>
    rw [hs] at h
    exact ⟨haccounts h.1, fun ha => hemail (h.2 ha)⟩
  | serving alerted k =>
    rw [hs] at h
    exact ⟨haccounts h.1, hserved alerted k (Or.inl hs) h.2⟩
  | finished alerted k =>
    rw [hs] at h
    exact ⟨haccounts h.1, hserved alerted k (Or.inr hs) h.2⟩

theorem AttemptOk.account (h : AttemptOk m accounts server a) (email : String) :
    AttemptOk m (email :: accounts) server a :=
  h.mono (List.subset_cons_self _ _) id fun _ _ _ => id

theorem Served.add {alerted : Bool} {k : Nat} (h : Served m server a alerted k) (th : Thread Http Unit) :
    Served m { server with threads := server.threads ++ [th] } a alerted k := by
  obtain ⟨th', hth', hrest⟩ := h
  exact ⟨th', by rw [List.getElem?_append_left (List.getElem?_eq_some_iff.mp hth').1]; exact hth', hrest⟩

theorem Served.start (m : Mongoose) (server : Pool Http Db Unit) (a : RegisterAttempt) (alerted : Bool) :
    Served m { server with threads := server.threads ++ [Thread.start (postRegister a.body)] } a alerted
      server.threads.length := by
  refine ⟨_, List.getElem?_concat_length, Thread.settle_not_send _ _ _, Thread.along_settle postRegister_along, ?_⟩
  intro _ c hc
  rw [Thread.start, Thread.settle_calls] at hc
  cases hc

theorem Served.turn {alerted : Bool} {k : Nat} (h : Served m server a alerted k) {t : Turn Http}
    (hfault : alerted = false → t.thread = k → t.fault ≠ none → server.event (Db.exec m) t ≠ none →
      server.store.HasEmail a.email) : Served m (server.step (Db.exec m) t) a alerted k := by
  rcases Pool.step_cases (Db.exec m) server t with ⟨-, hst⟩ | ⟨th, op, next, reject, hth, -, he, hst, hcalls⟩
  · rw [hst]
    exact h
  obtain ⟨th', hth', hsettled, halong, hattests⟩ := h
  rw [hst]
  have hold : alerted = false → ∀ c ∈ th'.calls,
      Attests m a.email (Proc.attempt (Db.exec m) t.fault server.store op).1 c :=
    fun ha c hc => (hattests ha c hc).mono t.fault op
  rcases eq_or_ne t.thread k with rfl | hne
  · rw [hth, Option.some.injEq] at hth'
    subst hth'
    refine ⟨_, List.getElem?_set_self (List.getElem?_eq_some_iff.mp hth).1, hsettled.turn _ _ _,
      halong.turn fun _ _ _ _ => trivial, fun ha c hc => ?_⟩
    rw [hcalls, List.mem_append, List.mem_singleton] at hc
    rcases hc with hc | rfl
    · exact hold ha c hc
    · refine attests_attempt m ?_ op
      by_cases hf : t.fault = none
      · exact Or.inl hf
      · exact Or.inr (hfault ha rfl hf (by rw [he]; exact nofun))
  · exact ⟨th', by rw [List.getElem?_set_ne hne]; exact hth', hsettled, halong, hold⟩

omit [SwiftString] in
theorem Db.HasEmail.step {email : String} (h : server.store.HasEmail email) (m : Mongoose) (t : Turn Http) :
    (server.step (Db.exec m) t).store.HasEmail email := by
  rcases Pool.step_cases (Db.exec m) server t with ⟨-, hst⟩ | ⟨th, op, next, reject, -, -, -, hst, -⟩
  · rw [hst]
    exact h
  · rw [hst]
    exact h.attempt m t.fault op

theorem World.Ok.setStage {i : Nat} {stage : AttemptStage} (h : w.Ok m)
    (ha : AttemptOk m w.accounts w.server { a with stage }) : (w.setStage i a stage).Ok m := by
  intro a' ha'
  rcases List.mem_or_eq_of_mem_set ha' with ha' | rfl
  · exact h a' ha'
  · exact ha

theorem RegisterAttempt.registers (a : RegisterAttempt) : Registers a.email a.body ∧ a.email ≠ "" := by
  obtain ⟨⟨hemail, hfirst, hlast, -⟩, -⟩ := Form.validateFields_eq_none_iff.mp a.valid
  exact ⟨⟨⟨_, hfirst, rfl⟩, ⟨_, hlast, rfl⟩, rfl, ⟨_, rfl⟩⟩, hemail⟩

theorem World.Ok.stepAttempt {i : Nat} {e : RegisterEvent} (h : w.Ok m) (hi : w.attempts[i]? = some a)
    (hharmless : ∀ j, e = .loseRequest j → a.stage = .requested false → w.server.store.HasEmail a.email) :
    (w.stepAttempt i a e).Ok m := by
  have ha := h a (List.mem_of_getElem? hi)
  have haccount : ∀ email, World.Ok m { w with accounts := email :: w.accounts } := fun email a' ha' =>
    (h a' ha').account email
  unfold World.stepAttempt
  split
  · rename_i j reply hs
    split
    · exact h.setStage trivial
    · cases reply with
      | created => exact (haccount a.email).setStage List.mem_cons_self
      | createdUnheard => exact (haccount a.email).setStage trivial
      | failed => exact h.setStage trivial
  · exact h.setStage trivial
  · rename_i j hs
    rw [AttemptOk, hs] at ha
    exact h.setStage ha
  · rename_i j alerted hs
    rw [AttemptOk, hs] at ha
    have hadd : (w.serve a.body).Ok m := fun a' ha' =>
      (h a' ha').mono (List.Subset.refl _) id fun _ _ _ hserved => hserved.add _
    exact hadd.setStage ⟨ha, Served.start m w.server _ alerted⟩
  · rename_i j alerted hs
    rw [AttemptOk, hs] at ha
    refine h.setStage ⟨ha, fun halerted => ?_⟩
    subst halerted
    exact hharmless j rfl hs
  · rename_i j alerted k hs
    rw [AttemptOk, hs] at ha
    split
    · rename_i message hanswer
      have hresult : World.Ok m { w with
          result := if message = "" then w.result else Function.update w.result a.controller message } := h
      exact hresult.setStage ha
    · exact h
  · rename_i j alerted k hs
    rw [AttemptOk, hs] at ha
    exact h.setStage ha
  · exact h

theorem World.Ok.step (h : w.Ok m) {e : RegisterEvent} (hharmless : w.Harmless m e) : (w.step m e).Ok m := by
  have hone : ∀ i, (∀ j, e = .loseRequest j → j = i) → (w.stepAt i e).Ok m := by
    intro i hj
    unfold World.stepAt
    split
    · rename_i a hi
      refine h.stepAttempt hi fun j he hs => ?_
      subst he
      exact hharmless a (by rw [hj j rfl]; exact hi) hs
    · exact h
  cases e with
  | registerPressed controller form =>
    unfold World.step
    dsimp only
    split
    · intro a ha
      rcases List.mem_append.mp ha with ha | ha
      · exact h a ha
      · rw [List.mem_singleton.mp ha]
        trivial
    · exact h
  | turn t =>
    intro a ha
    refine (h a ha).mono (List.Subset.refl _) (fun hemail => ?_) fun alerted k hs hserved => ?_
    · exact hemail.step m t
    · refine hserved.turn fun halerted ht hf hcall => hharmless hf hcall a ha ?_
      rw [ht, ← halerted]
      exact hs
  | createUser i reply => exact hone i nofun
  | completion i => exact hone i nofun
  | request i => exact hone i nofun
  | loseRequest i => exact hone i fun j hj => (RegisterEvent.loseRequest.inj hj).symm
  | response i => exact hone i nofun
  | loseResponse i => exact hone i nofun

theorem World.Ok.consistent (h : w.Ok m) (hquiet : w.Quiet) : w.Consistent := by
  intro a ha hsilent
  have hok := h a ha
  have hended := hquiet.1 a ha
  unfold AttemptOk at hok
  unfold RegisterAttempt.Ended at hended
  unfold RegisterAttempt.ReturnedSilently at hsilent
  cases hs : a.stage with
  | creating => rw [hs] at hended; exact hended.elim
  | created failed => rw [hs] at hended; exact hended.elim
  | refused => rw [hs] at hsilent; exact hsilent.elim
  | requested alerted => rw [hs] at hended; exact hended.elim
  | lost alerted =>
    rw [hs] at hok hsilent
    exact ⟨hok.1, hok.2 hsilent⟩
  | serving alerted k => rw [hs] at hended; exact hended.elim
  | finished alerted k =>
    rw [hs] at hok hsilent
    obtain ⟨haccount, th, hth, hsettled, halong, hattests⟩ := hok
    obtain ⟨hregisters, hne⟩ := a.registers
    have hfinished := hquiet.2 th (List.mem_of_getElem? hth)
    have hp := halong.here hsettled
    exact ⟨haccount, hp.hasEmail (hp.sent_ne_nil (hsettled.stage_ne hfinished)) hregisters hne (hattests hsilent)⟩

end Steps

def World.AlwaysHarmless (m : Mongoose) (w : World) (es : List RegisterEvent) : Prop :=
  ∀ es' e, es' ++ [e] <+: es → (w.runs m es').Harmless m e

/-- Each quiet state of the run is consistent. -/
def World.AlwaysConsistent (m : Mongoose) (w : World) (es : List RegisterEvent) : Prop :=
  ∀ es', es' <+: es → (w.runs m es').Quiet → (w.runs m es').Consistent

theorem World.Ok.runs {m : Mongoose} {w : World} (h : w.Ok m) {es : List RegisterEvent}
    (hharmless : w.AlwaysHarmless m es) : (w.runs m es).Ok m := by
  induction es using List.reverseRecOn with
  | nil => exact h
  | append_singleton es e ih =>
    have hbefore : w.AlwaysHarmless m es := fun es' e' hes => hharmless es' e' (hes.trans (List.prefix_append _ _))
    unfold World.runs
    rw [List.foldl_append]
    exact (ih hbefore).step (hharmless es e (List.prefix_refl _))

/-- Both stores know the users of all registrations, whatever the order of the messages, as long as nothing is lost
    that only an alert could have told. -/
theorem stores_consistent (m : Mongoose) (accounts : List String) (db : Db) (es : List RegisterEvent)
    (hharmless : (World.start accounts db).AlwaysHarmless m es) : (World.start accounts db).AlwaysConsistent m es := by
  intro es' hes hquiet
  have hbefore : (World.start accounts db).AlwaysHarmless m es' := fun es'' e he => hharmless es'' e (he.trans hes)
  have hstart : (World.start accounts db).Ok m := fun a ha => absurd ha (List.not_mem_nil)
  exact (hstart.runs hbefore).consistent hquiet

end Stores

def newForm : Form := ⟨"New", "Player", "new@club.test", "0123456789", "secret", "secret"⟩

def newRegistration (fault : Option JsError) : List RegisterEvent :=
  [.registerPressed 0 newForm, .createUser 0 .created, .completion 0, .request 0, .turn ⟨0, none⟩, .turn ⟨0, fault⟩,
    .response 0]

theorem stores_consistent_club :
    (World.start [] club).AlwaysConsistent mongoose6 (newRegistration none) := by
  refine stores_consistent mongoose6 [] club (newRegistration none) fun es e he => ?_
  have hmem : e ∈ newRegistration none := he.subset (List.mem_append_right _ List.mem_cons_self)
  simp only [newRegistration, List.mem_cons, List.not_mem_nil, or_false] at hmem
  rcases hmem with rfl | rfl | rfl | rfl | rfl | rfl | rfl
  all_goals first | trivial | exact fun h => absurd rfl h

def afterFailure : World := (World.start [] club).runs mongoose6 (newRegistration (some .unavailable))

/-- The call of the server fails, and nobody is told. -/
theorem not_stores_consistent_club :
    ¬(World.start [] club).AlwaysConsistent mongoose6 (newRegistration (some .unavailable)) := by
  intro h
  have hconsistent : afterFailure.Quiet → afterFailure.Consistent := h _ (List.prefix_refl _)
  have hattempts : afterFailure.attempts.map (fun a => (a.stage, a.email)) =
      [(.finished false 0, "new@club.test")] := by decide +kernel
  have hthreads : ∀ th ∈ afterFailure.server.threads, th.finished = true := by decide +kernel
  have husers : ∀ u ∈ afterFailure.server.store.users.docs, u.email ≠ "new@club.test" := by decide +kernel
  obtain ⟨a, ha, hpair⟩ := List.map_eq_singleton_iff.mp hattempts
  obtain ⟨hstage, hemail⟩ := Prod.mk.inj hpair
  have hquiet : afterFailure.Quiet := by
    refine ⟨fun a' ha' => ?_, hthreads⟩
    rw [ha, List.mem_singleton] at ha'
    subst ha'
    rw [RegisterAttempt.Ended, hstage]
    trivial
  have hsilent : a.ReturnedSilently := by rw [RegisterAttempt.ReturnedSilently, hstage]
  have hmem : a ∈ afterFailure.attempts := by
    rw [ha]
    exact List.mem_cons_self
  obtain ⟨-, u, hu, he⟩ := hconsistent hquiet a hmem hsilent
  exact husers u hu (he.trans hemail)

end KhelaKaro
