import KhelaKaro.Theorems.RegistrationStores
import KhelaKaro.Theorems.Service

/-! # Accounts and users

Firebase gives each email one account, so one attempt at most takes an email to the API (`World.Inv.once`). From there
on the users of the API are those of attempts: each was registered for the attempt that has its email, with the fields
of its form. Where every user has had an account from the start, the API never finds a user that exists. -/

namespace KhelaKaro
open Async

namespace AttemptStage

/-- Firebase has made the account of the attempt, and said so. -/
def Created : AttemptStage → Prop
  | created false | requested _ | lost _ | serving _ _ | finished _ _ => True
  | creating | created true | refused => False

/-- Handler `k` serves the attempt, or has served it. -/
def ServedBy (k : Nat) : AttemptStage → Prop
  | serving _ k' | finished _ k' => k' = k
  | _ => False

/-- There was an alert when the attempt came back to the root screen. -/
def Alerted : AttemptStage → Prop
  | requested alerted | lost alerted | serving alerted _ | finished alerted _ => alerted = true
  | _ => False

variable {stage : AttemptStage} {k k' : Nat}

theorem ServedBy.created (h : stage.ServedBy k) : stage.Created := by
  cases stage with
  | serving alerted k' => trivial
  | finished alerted k' => trivial
  | _ => exact h.elim

theorem Alerted.created (h : stage.Alerted) : stage.Created := by
  cases stage with
  | requested alerted => trivial
  | lost alerted => trivial
  | serving alerted k => trivial
  | finished alerted k => trivial
  | _ => exact h.elim

theorem ServedBy.unique (h : stage.ServedBy k) (h' : stage.ServedBy k') : k = k' := by
  cases stage with
  | serving alerted k'' => exact Eq.trans (Eq.symm h) h'
  | finished alerted k'' => exact Eq.trans (Eq.symm h) h'
  | _ => exact h.elim

end AttemptStage

namespace RegisterProgress
variable {body : Json} {calls : List (Call Http)} {sent : List Reply} {stage : Stage Http}

theorem of_saved (h : RegisterProgress body calls sent stage) {doc : UserDraft}
    (hc : ⟨.userSave doc, .ok ()⟩ ∈ calls) : doc = registerDraft body ∧ sent = [.registered] := by
  cases h with
  | registered =>
    simp only [List.mem_cons, Call.mk.injEq, reduceCtorEq, false_and, Op.userSave.injEq, List.not_mem_nil, or_false,
      false_or] at hc
    exact ⟨hc.1, rfl⟩
  | looking => cases hc
  | saving => simp at hc
  | lookFailed e => simp at hc
  | taken user => simp at hc
  | saveFailed e => simp at hc

theorem of_userExists (h : RegisterProgress body calls sent stage) (hs : .userExists ∈ sent) :
    ∃ user, calls = [⟨.userFindOne (body.prop "email"), .ok (some user)⟩] := by
  have hserver : Reply.userExists ≠ .serverError := by decide
  have hregistered : Reply.userExists ≠ .registered := by decide
  cases h with
  | taken user => exact ⟨user, rfl⟩
  | looking => cases hs
  | saving => cases hs
  | lookFailed e => exact absurd (List.mem_singleton.mp hs) hserver
  | saveFailed e => exact absurd (List.mem_singleton.mp hs) hserver
  | registered => exact absurd (List.mem_singleton.mp hs) hregistered

theorem sent_of_awaits {op : Op} (h : RegisterProgress body calls sent (.awaits op)) : sent = [] := by
  cases h with
  | looking => rfl
  | saving => rfl

theorem op_of_awaits {op : Op} (h : RegisterProgress body calls sent (.awaits op)) :
    op = .userFindOne (body.prop "email") ∨ op = .userSave (registerDraft body) := by
  cases h with
  | looking => exact Or.inl rfl
  | saving => exact Or.inr rfl

/-- A handler that has ended without an error has registered its user, or has found one. -/
theorem of_ok (h : RegisterProgress body calls sent stage) (hend : ∀ op, stage ≠ .awaits op)
    (hok : ∀ c ∈ calls, ∃ answer, c.answer = .ok answer) : sent = [.registered] ∨ sent = [.userExists] := by
  have herror : ∀ {c : Call Http} {e : JsError}, c ∈ calls → c.answer = .error e → False := by
    intro c e hc he
    obtain ⟨answer, ha⟩ := hok c hc
    rw [ha] at he
    cases he
  cases h with
  | looking => exact absurd rfl (hend _)
  | saving => exact absurd rfl (hend _)
  | lookFailed e => exact (herror (List.mem_singleton_self _) rfl).elim
  | taken user => exact Or.inr rfl
  | saveFailed e => exact (herror (List.mem_cons_of_mem _ (List.mem_singleton_self _)) rfl).elim
  | registered => exact Or.inl rfl

end RegisterProgress

theorem saveUser_ok {m : Mongoose} {db : Db} {user : User} {doc : UserDraft} (h : Describes m doc user)
    (hfresh : ∀ u ∈ db.users.docs, u.email ≠ user.email) : ∃ db', m.saveUser db doc = .ok db' := by
  have hany : (db.users.docs.any fun u => u.email == user.email) = false := by
    simpa [List.any_eq_false] using hfresh
  unfold Mongoose.saveUser
  simp only [h.firstName, h.lastName, h.email, h.contactNumber, ok_bind, hany, Bool.false_eq_true, ↓reduceIte]
  exact ⟨_, rfl⟩

section Worlds
variable [SwiftString] {m : Mongoose} {accounts : List String} {db : Db} {w : World} {a : RegisterAttempt}

/-- A user that an attempt has been answered to be registered for -/
def World.RegisteredFor (w : World) (user : User) : Prop :=
  ∃ (k : Nat) (th : Thread Http Unit) (a : RegisterAttempt), w.server.threads[k]? = some th ∧ a ∈ w.attempts ∧
    a.stage.ServedBy k ∧ th.sent = [.registered] ∧ HasFields user a.body

/-- What holds of every state, from the start with these accounts and this database. -/
structure World.Inv (accounts : List String) (db : Db) (w : World) : Prop where
  kept : accounts ⊆ w.accounts
  created : ∀ a ∈ w.attempts, a.stage.Created → a.email ∈ w.accounts ∧ a.email ∉ accounts
  once : ∀ (i j : Nat) (a b : RegisterAttempt), w.attempts[i]? = some a → w.attempts[j]? = some b → a.stage.Created →
    b.stage.Created → a.email = b.email → i = j
  threads : ∀ (k : Nat) (th : Thread Http Unit), w.server.threads[k]? = some th → ∃ a ∈ w.attempts, a.stage.ServedBy k ∧
    th.Settled ∧ th.Along (fun _ => True) fun th => RegisterProgress a.body th.calls th.sent th.proc.stage
  users : ∀ u ∈ w.server.store.users.docs, u ∈ db.users.docs ∨ w.RegisteredFor u
  fresh : (∀ u ∈ db.users.docs, u.email ∈ accounts) → ∀ th ∈ w.server.threads, .userExists ∉ th.sent

/-- One attempt moves on, and keeps what it has reached. -/
theorem World.Inv.setStage {i : Nat} {stage : AttemptStage} (h : w.Inv accounts db) (hi : w.attempts[i]? = some a)
    (hcreated : stage.Created → a.stage.Created) (hserved : ∀ k, a.stage.ServedBy k → stage.ServedBy k) :
    (w.setStage i a stage).Inv accounts db := by
  have hlt := (List.getElem?_eq_some_iff.mp hi).1
  have hmem : ∀ {b : RegisterAttempt} {k : Nat}, b ∈ w.attempts → b.stage.ServedBy k →
      ∃ b' ∈ w.attempts.set i { a with stage }, b'.stage.ServedBy k ∧ b'.body = b.body := by
    intro b k hb hk
    obtain ⟨j, hj⟩ := List.mem_iff_getElem?.mp hb
    rcases eq_or_ne i j with rfl | hne
    · obtain rfl := Option.some.inj (hi.symm.trans hj)
      exact ⟨_, List.mem_set hlt _, hserved k hk, rfl⟩
    · exact ⟨b, List.mem_of_getElem? ((List.getElem?_set_ne hne).trans hj), hk, rfl⟩
  have hback : ∀ {j : Nat} {b : RegisterAttempt}, (w.attempts.set i { a with stage })[j]? = some b → b.stage.Created →
      ∃ b₀, w.attempts[j]? = some b₀ ∧ b₀.stage.Created ∧ b₀.email = b.email := by
    intro j b hb hc
    rcases eq_or_ne i j with rfl | hne
    · rw [List.getElem?_set_self hlt, Option.some.injEq] at hb
      subst hb
      exact ⟨a, hi, hcreated hc, rfl⟩
    · rw [List.getElem?_set_ne hne] at hb
      exact ⟨b, hb, hc, rfl⟩
  refine ⟨h.kept, fun b hb hc => ?_, fun j j' b b' hb hb' hc hc' he => ?_, fun k th hth => ?_, fun u hu => ?_,
    h.fresh⟩
  · obtain ⟨j, hj⟩ := List.mem_iff_getElem?.mp hb
    obtain ⟨b₀, hb₀, hc₀, he⟩ := hback hj hc
    exact he ▸ h.created b₀ (List.mem_of_getElem? hb₀) hc₀
  · obtain ⟨b₀, hb₀, hc₀, he₀⟩ := hback hb hc
    obtain ⟨b₀', hb₀', hc₀', he₀'⟩ := hback hb' hc'
    exact h.once j j' b₀ b₀' hb₀ hb₀' hc₀ hc₀' (he₀.trans (he.trans he₀'.symm))
  · obtain ⟨b, hb, hk, hsettled, halong⟩ := h.threads k th hth
    obtain ⟨b', hb', hk', hbody⟩ := hmem hb hk
    exact ⟨b', hb', hk', hsettled, hbody ▸ halong⟩
  · refine (h.users u hu).imp_right fun ⟨k, th, b, hth, hb, hk, hsent, hfields⟩ => ?_
    obtain ⟨b', hb', hk', hbody⟩ := hmem hb hk
    exact ⟨k, th, b', hth, hb', hk', hsent, hbody ▸ hfields⟩

/-- Firebase makes an account for an email that had none. -/
theorem World.Inv.account (h : w.Inv accounts db) (email : String) :
    World.Inv accounts db { w with accounts := email :: w.accounts } where
  kept := List.subset_cons_of_subset _ h.kept
  created b hb hc := by
    obtain ⟨hin, hnot⟩ := h.created b hb hc
    exact ⟨List.mem_cons_of_mem _ hin, hnot⟩
  once := h.once
  threads := h.threads
  users := h.users
  fresh := h.fresh

theorem World.Inv.create {i : Nat} (h : w.Inv accounts db) (hi : w.attempts[i]? = some a) (hs : a.stage = .creating)
    (hnew : a.email ∉ w.accounts) :
    (World.setStage { w with accounts := a.email :: w.accounts } i a (.created false)).Inv accounts db := by
  have hlt := (List.getElem?_eq_some_iff.mp hi).1
  have hnot : ¬a.stage.Created := by
    rw [hs]
    exact id
  -- The email of the attempt is that of no attempt before.
  have hback : ∀ {j : Nat} {b : RegisterAttempt},
      (w.attempts.set i { a with stage := .created false })[j]? = some b → b.stage.Created →
      i = j ∧ b.email = a.email ∨ i ≠ j ∧ w.attempts[j]? = some b ∧ b.email ∈ w.accounts ∧ b.email ∉ accounts := by
    intro j b hb hc
    rcases eq_or_ne i j with rfl | hne
    · rw [List.getElem?_set_self hlt, Option.some.injEq] at hb
      exact Or.inl ⟨rfl, hb ▸ rfl⟩
    · rw [List.getElem?_set_ne hne] at hb
      exact Or.inr ⟨hne, hb, h.created b (List.mem_of_getElem? hb) hc⟩
  have hkeep : ∀ {b : RegisterAttempt} {k : Nat}, b ∈ w.attempts → b.stage.ServedBy k →
      b ∈ w.attempts.set i { a with stage := .created false } := by
    intro b k hb hk
    obtain ⟨j, hj⟩ := List.mem_iff_getElem?.mp hb
    rcases eq_or_ne i j with rfl | hne
    · obtain rfl := Option.some.inj (hi.symm.trans hj)
      exact absurd hk.created hnot
    · exact List.mem_of_getElem? ((List.getElem?_set_ne hne).trans hj)
  refine ⟨List.subset_cons_of_subset _ h.kept, fun b hb hc => ?_, fun j j' b b' hb hb' hc hc' he => ?_,
    fun k th hth => ?_, fun u hu => ?_, h.fresh⟩
  · obtain ⟨j, hj⟩ := List.mem_iff_getElem?.mp hb
    rcases hback hj hc with ⟨-, he⟩ | ⟨-, -, hin, hout⟩
    · rw [he]
      exact ⟨List.mem_cons_self, fun hin => hnew (h.kept hin)⟩
    · exact ⟨List.mem_cons_of_mem _ hin, hout⟩
  · rcases hback hb hc with ⟨rfl, hea⟩ | ⟨hne, hold, hin, -⟩ <;>
      rcases hback hb' hc' with ⟨rfl, hea'⟩ | ⟨hne', hold', hin', -⟩
    · rfl
    · exact absurd (hea ▸ he ▸ hin') hnew
    · exact absurd (hea' ▸ he ▸ hin) hnew
    · exact h.once j j' b b' hold hold' hc hc' he
  · obtain ⟨b, hb, hk, hrest⟩ := h.threads k th hth
    exact ⟨b, hkeep hb hk, hk, hrest⟩
  · refine (h.users u hu).imp_right fun ⟨k, th, b, hth, hb, hk, hsent, hfields⟩ => ?_
    exact ⟨k, th, b, hth, hkeep hb hk, hk, hsent, hfields⟩

/-- The server receives the request of an attempt. -/
theorem World.Inv.serve {i : Nat} {alerted : Bool} (h : w.Inv accounts db) (hi : w.attempts[i]? = some a)
    (hs : a.stage = .requested alerted) :
    ((w.serve a.body).setStage i a (.serving alerted w.server.threads.length)).Inv accounts db := by
  have hset : (w.setStage i a (.serving alerted w.server.threads.length)).Inv accounts db := by
    refine h.setStage hi (fun _ => ?_) fun k hk => ?_
    · rw [hs]
      trivial
    · rw [hs] at hk
      exact hk.elim
  have hlt := (List.getElem?_eq_some_iff.mp hi).1
  have hkeep : ∀ {k : Nat} {th : Thread Http Unit}, w.server.threads[k]? = some th →
      (w.server.threads ++ [Thread.start (postRegister a.body)])[k]? = some th := fun hth =>
    (List.getElem?_append_left (List.getElem?_eq_some_iff.mp hth).1).trans hth
  refine ⟨hset.kept, hset.created, hset.once, fun k th hth => ?_, fun u hu => ?_, fun h0 th hth => ?_⟩
  · rcases lt_or_ge k w.server.threads.length with hlt' | hge
    · exact hset.threads k th ((List.getElem?_append_left hlt').symm.trans hth)
    · have hlast := (List.getElem?_append_right hge).symm.trans hth
      rw [List.getElem?_singleton, Option.ite_none_right_eq_some] at hlast
      obtain ⟨hk, hlast⟩ := hlast
      obtain rfl := Option.some.inj hlast
      refine ⟨_, List.mem_set hlt _, ?_, Thread.settle_not_send _ _ _, Thread.along_settle postRegister_along⟩
      exact le_antisymm hge (Nat.sub_eq_zero_iff_le.mp hk)
  · refine (hset.users u hu).imp_right fun ⟨k, th, b, hth, hrest⟩ => ⟨k, th, b, hkeep hth, hrest⟩
  · rcases List.mem_append.mp hth with hth | hth
    · exact hset.fresh h0 th hth
    · obtain rfl := List.mem_singleton.mp hth
      exact List.not_mem_nil

theorem RegisterAttempt.matchEmail (m : Mongoose) (a : RegisterAttempt) :
    m.matchEmail (a.body.prop "email") = .ok fun e => e == a.email := by
  rw [a.registers.1.email, m.matchEmail_str]

/-- Two attempts with one email whose accounts are made are one. -/
theorem World.Inv.eq_of_email {b : RegisterAttempt} (h : w.Inv accounts db) (ha : a ∈ w.attempts) (hb : b ∈ w.attempts)
    (hca : a.stage.Created) (hcb : b.stage.Created) (he : a.email = b.email) : a = b := by
  obtain ⟨i, hi⟩ := List.mem_iff_getElem?.mp ha
  obtain ⟨j, hj⟩ := List.mem_iff_getElem?.mp hb
  obtain rfl := h.once i j a b hi hj hca hcb he
  exact Option.some.inj (hi.symm.trans hj)

/-- A handler that has made no call finds no user, where every user has had an account from the start. -/
theorem World.Inv.finds_none {k : Nat} {th : Thread Http Unit} {user : User} (h : w.Inv accounts db)
    (h0 : ∀ u ∈ db.users.docs, u.email ∈ accounts) (hth : w.server.threads[k]? = some th) (ha : a ∈ w.attempts)
    (hk : a.stage.ServedBy k) (hsent : th.sent = []) (hu : user ∈ w.server.store.users.docs) :
    user.email ≠ a.email := by
  intro he
  rcases h.users user hu with hold | ⟨k', th', b, hth', hb, hk', hsent', hfields⟩
  · exact (h.created a ha hk.created).2 (he ▸ h0 user hold)
  · have hemail : user.email = b.email := by
      have hsame := hfields.email.symm.trans b.registers.1.email
      exact Json.str.inj (Option.some.inj hsame)
    obtain rfl := h.eq_of_email ha hb hk.created hk'.created (he.symm.trans hemail)
    obtain rfl := hk.unique hk'
    obtain rfl := Option.some.inj (hth.symm.trans hth')
    rw [hsent] at hsent'
    cases hsent'

theorem World.Inv.turn (h : w.Inv accounts db) (m : Mongoose) (t : Turn Http) :
    World.Inv accounts db { w with server := w.server.step (Db.exec m) t } := by
  rcases Pool.step_cases (Db.exec m) w.server t with ⟨-, hst⟩ | ⟨th, op, next, reject, hth, hproc, -, hst, hcalls⟩
  · rw [hst]
    exact h
  obtain ⟨a, ha, hk, hsettled, halong⟩ := h.threads t.thread th hth
  obtain ⟨hregisters, hne⟩ := a.registers
  have hlt := (List.getElem?_eq_some_iff.mp hth).1
  have hbefore := halong.here hsettled
  have hsent : th.sent = [] := by
    rw [hproc] at hbefore
    exact hbefore.sent_of_awaits
  have halong' : Thread.Along (fun _ => True) (fun th => RegisterProgress a.body th.calls th.sent th.proc.stage)
      (th.turn (Db.exec m) t.fault w.server.store).2 := halong.turn fun _ _ _ _ => trivial
  have hsettled' := hsettled.turn (Db.exec m) t.fault w.server.store
  have hafter := halong'.here hsettled'
  rw [hst]
  generalize (th.turn (Db.exec m) t.fault w.server.store).2 = th' at halong' hsettled' hafter hcalls
  have hthread : ∀ {k : Nat} {thk : Thread Http Unit}, w.server.threads[k]? = some thk → thk.sent ≠ [] →
      (w.server.threads.set t.thread th')[k]? = some thk := by
    intro k thk hk hne
    rcases eq_or_ne t.thread k with rfl | hk'
    · obtain rfl := Option.some.inj (hth.symm.trans hk)
      exact absurd hsent hne
    · exact (List.getElem?_set_ne hk').trans hk
  refine ⟨h.kept, h.created, h.once, fun k thk hthk => ?_, fun u hu => ?_, fun h0 thk hthk => ?_⟩
  · rcases eq_or_ne t.thread k with rfl | hk'
    · obtain rfl := Option.some.inj ((List.getElem?_set_self hlt).symm.trans hthk)
      exact ⟨a, ha, hk, hsettled', halong'⟩
    · exact h.threads k thk ((List.getElem?_set_ne hk').symm.trans hthk)
  · have hold : u ∈ w.server.store.users.docs → u ∈ db.users.docs ∨ World.RegisteredFor { w with
        server := ⟨(Proc.attempt (Db.exec m) t.fault w.server.store op).1, w.server.threads.set t.thread th'⟩ } u := by
      intro hu
      refine (h.users u hu).imp_right fun ⟨k, thk, b, hthk, hb, hkb, hs, hfields⟩ => ?_
      exact ⟨k, thk, b, hthread hthk (by rw [hs]; exact List.cons_ne_nil _ _), hb, hkb, hs, hfields⟩
    rcases attempt_users m t.fault w.server.store op with ⟨husers, -⟩ | ⟨doc, user, hcall, hd, -, husers⟩
    · exact hold (husers ▸ hu)
    · dsimp only at hu
      rw [husers] at hu
      rcases List.mem_append.mp hu with hu | hu
      · exact hold hu
      · obtain rfl := List.mem_singleton.mp hu
        obtain ⟨rfl, hregistered⟩ := hafter.of_saved (by rw [hcalls, hcall]; exact List.mem_concat_self)
        exact Or.inr ⟨t.thread, th', a, List.getElem?_set_self hlt, ha, hk, hregistered, hd.hasFields hregisters hne⟩
  · rcases List.mem_or_eq_of_mem_set hthk with hthk | rfl
    · exact h.fresh h0 thk hthk
    · intro hexists
      obtain ⟨user, hfound⟩ := hafter.of_userExists hexists
      rw [hcalls] at hfound
      have hcall := List.singleton_inj.mp (List.append_eq_singleton_iff.mp hfound |>.resolve_right (by simp)).2
      obtain ⟨rfl, hanswer⟩ := Call.mk.inj hcall
      obtain ⟨p, hp, hfind⟩ := find_of_answer (eq_of_heq hanswer)
      rw [a.matchEmail m, Except.ok.injEq] at hp
      subst hp
      exact h.finds_none h0 hth ha hk hsent (List.mem_of_find?_eq_some hfind) (by simpa using List.find?_some hfind)

theorem World.Inv.stepAttempt {i : Nat} (h : w.Inv accounts db) (hi : w.attempts[i]? = some a) (e : RegisterEvent) :
    (w.stepAttempt i a e).Inv accounts db := by
  unfold World.stepAttempt
  split
  · rename_i j reply hs
    have hnone : ∀ {w' : World}, w'.Inv accounts db → w'.attempts = w.attempts →
        (w'.setStage i a (.created true)).Inv accounts db := fun h' hw' =>
      h'.setStage (hw' ▸ hi) False.elim fun k hk => by
        rw [hs] at hk
        exact hk.elim
    split
    · exact hnone h rfl
    · rename_i hnew
      cases reply with
      | created => exact h.create hi hs hnew
      | createdUnheard => exact hnone (h.account a.email) rfl
      | failed => exact hnone h rfl
  · rename_i j hs
    refine h.setStage hi False.elim fun k hk => ?_
    rw [hs] at hk
    exact hk.elim
  · rename_i j hs
    refine h.setStage hi (fun _ => by rw [hs]; trivial) fun k hk => ?_
    rw [hs] at hk
    exact hk.elim
  · rename_i j alerted hs
    exact h.serve hi hs
  · rename_i j alerted hs
    refine h.setStage hi (fun _ => by rw [hs]; trivial) fun k hk => ?_
    rw [hs] at hk
    exact hk.elim
  · rename_i j alerted k hs
    split
    · rename_i message hanswer
      have hresult : World.Inv accounts db { w with
          result := if message = "" then w.result else Function.update w.result a.controller message } :=
        ⟨h.kept, h.created, h.once, h.threads, h.users, h.fresh⟩
      refine hresult.setStage hi (fun _ => by rw [hs]; trivial) fun k' hk => ?_
      rw [hs] at hk
      exact hk
    · exact h
  · rename_i j alerted k hs
    refine h.setStage hi (fun _ => by rw [hs]; trivial) fun k' hk => ?_
    rw [hs] at hk
    exact hk
  · exact h

theorem World.Inv.press (h : w.Inv accounts db) (controller : Nat) (form : Form)
    (valid : form.validateFields = none) : World.Inv accounts db
      { w with attempts := w.attempts ++ [⟨controller, form, valid, .creating⟩] } := by
  have hold : ∀ {j : Nat} {b : RegisterAttempt},
      (w.attempts ++ [⟨controller, form, valid, .creating⟩])[j]? = some b → b.stage.Created →
      w.attempts[j]? = some b := by
    intro j b hb hc
    rcases lt_or_ge j w.attempts.length with hlt | hge
    · exact (List.getElem?_append_left hlt).symm.trans hb
    · have hlast := (List.getElem?_append_right hge).symm.trans hb
      rw [List.getElem?_singleton, Option.ite_none_right_eq_some] at hlast
      obtain rfl := Option.some.inj hlast.2
      exact hc.elim
  refine ⟨h.kept, fun b hb hc => ?_, fun j j' b b' hb hb' hc hc' he => ?_, fun k th hth => ?_, fun u hu => ?_, h.fresh⟩
  · obtain ⟨j, hj⟩ := List.mem_iff_getElem?.mp hb
    exact h.created b (List.mem_of_getElem? (hold hj hc)) hc
  · exact h.once j j' b b' (hold hb hc) (hold hb' hc') hc hc' he
  · obtain ⟨b, hb, hrest⟩ := h.threads k th hth
    exact ⟨b, List.mem_append_left _ hb, hrest⟩
  · refine (h.users u hu).imp_right fun ⟨k, th, b, hth, hb, hrest⟩ => ?_
    exact ⟨k, th, b, hth, List.mem_append_left _ hb, hrest⟩

/-- Every event keeps the invariant. -/
theorem World.Inv.step (h : w.Inv accounts db) (m : Mongoose) (e : RegisterEvent) :
    (w.step m e).Inv accounts db := by
  have hone : ∀ i, (w.stepAt i e).Inv accounts db := by
    intro i
    unfold World.stepAt
    split
    · rename_i a hi
      exact h.stepAttempt hi e
    · exact h
  cases e with
  | registerPressed controller form =>
    unfold World.step
    dsimp only
    split
    · rename_i valid
      exact h.press controller form valid
    · exact h
  | turn t => exact h.turn m t
  | createUser i reply => exact hone i
  | completion i => exact hone i
  | request i => exact hone i
  | loseRequest i => exact hone i
  | response i => exact hone i
  | loseResponse i => exact hone i

theorem World.runs_inv (m : Mongoose) (accounts : List String) (db : Db) (es : List RegisterEvent) :
    ((World.start accounts db).runs m es).Inv accounts db := by
  induction es using List.reverseRecOn with
  | nil =>
    exact ⟨List.Subset.refl _, by simp [World.runs, World.start], by simp [World.runs, World.start],
      by simp [World.runs, World.start], fun u hu => Or.inl hu, by simp [World.runs, World.start]⟩
  | append_singleton es e ih =>
    unfold World.runs
    rw [List.foldl_append]
    exact ih.step m e

/-! ### Handlers without failing calls -/

/-- No call of a handler was answered with an error. -/
def World.Unfailing (w : World) : Prop :=
  ∀ th ∈ w.server.threads, ∀ c ∈ th.calls, ∃ answer, c.answer = .ok answer

theorem World.Unfailing.turn (h : w.Unfailing) (hinv : w.Inv accounts db) (h0 : ∀ u ∈ db.users.docs, u.email ∈ accounts)
    (m : Mongoose) {t : Turn Http} (hfault : t.fault = none) :
    World.Unfailing { w with server := w.server.step (Db.exec m) t } := by
  rcases Pool.step_cases (Db.exec m) w.server t with ⟨-, hst⟩ | ⟨th, op, next, reject, hth, hproc, -, hst, hcalls⟩
  · rw [hst]
    exact h
  obtain ⟨a, ha, hk, hsettled, halong⟩ := hinv.threads t.thread th hth
  obtain ⟨hregisters, hne⟩ := a.registers
  have hbefore := halong.here hsettled
  rw [hproc] at hbefore
  have hsent := hbefore.sent_of_awaits
  have hanswer : ∃ answer, (Proc.attempt (Db.exec m) t.fault w.server.store op).2 = .ok answer := by
    rw [hfault, Proc.attempt_none]
    rcases hbefore.op_of_awaits with rfl | rfl
    · rw [exec_userFindOne (a.matchEmail m)]
      exact ⟨_, rfl⟩
    · obtain ⟨user, hd, hemail⟩ := hregisters.describes (m := m) hne
      obtain ⟨db', hsave⟩ := saveUser_ok hd fun u hu => hemail ▸ hinv.finds_none h0 hth ha hk hsent hu
      exact ⟨(), by simp only [Db.exec, hsave, Db.saved]⟩
  rw [hst]
  intro thk hthk c hc
  rcases List.mem_or_eq_of_mem_set hthk with hthk | rfl
  · exact h thk hthk c hc
  · rw [hcalls] at hc
    rcases List.mem_append.mp hc with hc | hc
    · exact h th (List.mem_of_getElem? hth) c hc
    · obtain rfl := List.mem_singleton.mp hc
      exact hanswer

theorem World.Unfailing.stepAttempt {i : Nat} (h : w.Unfailing) (e : RegisterEvent) :
    (w.stepAttempt i a e).Unfailing := by
  unfold World.stepAttempt
  split
  · split
    · exact h
    · split <;> exact h
  · exact h
  · exact h
  · intro th hth
    rcases List.mem_append.mp hth with hth | hth
    · exact h th hth
    · obtain rfl := List.mem_singleton.mp hth
      intro c hc
      rw [Thread.start, Thread.settle_calls] at hc
      cases hc
  · exact h
  · split <;> exact h
  · exact h
  · exact h

theorem World.Unfailing.step (h : w.Unfailing) (hinv : w.Inv accounts db) (h0 : ∀ u ∈ db.users.docs, u.email ∈ accounts)
    (m : Mongoose) {e : RegisterEvent} (he : ∀ t, e = .turn t → t.fault = none) : (w.step m e).Unfailing := by
  have hone : ∀ i, (w.stepAt i e).Unfailing := by
    intro i
    unfold World.stepAt
    split
    · exact h.stepAttempt e
    · exact h
  cases e with
  | registerPressed controller form =>
    unfold World.step
    dsimp only
    split <;> exact h
  | turn t => exact h.turn hinv h0 m (he t rfl)
  | createUser i reply => exact hone i
  | completion i => exact hone i
  | request i => exact hone i
  | loseRequest i => exact hone i
  | response i => exact hone i
  | loseResponse i => exact hone i

theorem World.runs_unfailing (m : Mongoose) {es : List RegisterEvent} (h0 : ∀ u ∈ db.users.docs, u.email ∈ accounts)
    (hes : ∀ t, .turn t ∈ es → t.fault = none) : ((World.start accounts db).runs m es).Unfailing := by
  induction es using List.reverseRecOn with
  | nil => simp [World.Unfailing, World.runs, World.start]
  | append_singleton es e ih =>
    have hinv := World.runs_inv m accounts db es
    have ih := ih fun t ht => hes t (List.mem_append_left _ ht)
    unfold World.runs at hinv ih ⊢
    rw [List.foldl_append]
    exact ih.step hinv h0 m fun t ht => hes t (by simp [ht])

/-! ### Alerts -/

/-- The API has answered an attempt, and the screen has read the message. -/
def World.Answered (w : World) (a : RegisterAttempt) (msg : String) : Prop :=
  ∃ alerted k, a.stage = .finished alerted k ∧ w.answer k = some msg

structure World.Alerts (w : World) : Prop where
  result : ∀ c, w.result c ≠ "" → ∃ a ∈ w.attempts, a.controller = c ∧ w.Answered a (w.result c)
  alerted : ∀ (i : Nat) (a : RegisterAttempt), w.attempts[i]? = some a → a.stage.Alerted →
    ∃ (j : Nat) (b : RegisterAttempt) (msg : String), j ≠ i ∧ w.attempts[j]? = some b ∧ b.controller = a.controller ∧
      msg ≠ "" ∧ w.Answered b msg

/-- The server goes on, and what it has answered stays. -/
theorem World.Alerts.serverStep {server : Pool Http Db Unit} (h : w.Alerts)
    (hanswer : ∀ k msg, w.answer k = some msg → World.answer { w with server } k = some msg) :
    World.Alerts { w with server } := by
  have hmono : ∀ {a : RegisterAttempt} {msg : String}, w.Answered a msg → World.Answered { w with server } a msg := by
    rintro a msg ⟨alerted, k, hs, hk⟩
    exact ⟨alerted, k, hs, hanswer k msg hk⟩
  refine ⟨fun c hc => ?_, fun i a hi ha => ?_⟩
  · obtain ⟨a, ha, hcontroller, hanswered⟩ := h.result c hc
    exact ⟨a, ha, hcontroller, hmono hanswered⟩
  · obtain ⟨j, b, msg, hne, hj, hcontroller, hmsg, hanswered⟩ := h.alerted i a hi ha
    exact ⟨j, b, msg, hne, hj, hcontroller, hmsg, hmono hanswered⟩

/-- An attempt that had not been answered moves on. -/
theorem World.Alerts.setStage {i : Nat} {stage : AttemptStage} (h : w.Alerts) (hi : w.attempts[i]? = some a)
    (hopen : ∀ alerted k, a.stage ≠ .finished alerted k)
    (halert : stage.Alerted → a.stage.Alerted ∨ w.result a.controller ≠ "") : (w.setStage i a stage).Alerts := by
  have hlt := (List.getElem?_eq_some_iff.mp hi).1
  have hkeep : ∀ {j : Nat} {b : RegisterAttempt} {msg : String}, w.attempts[j]? = some b → w.Answered b msg →
      j ≠ i ∧ (w.attempts.set i { a with stage })[j]? = some b ∧ (w.setStage i a stage).Answered b msg := by
    rintro j b msg hj ⟨alerted, k, hs, hk⟩
    have hne : i ≠ j := by
      rintro rfl
      obtain rfl := Option.some.inj (hi.symm.trans hj)
      exact hopen _ _ hs
    exact ⟨hne.symm, (List.getElem?_set_ne hne).trans hj, alerted, k, hs, hk⟩
  refine ⟨fun c hc => ?_, fun j b hj hb => ?_⟩
  · obtain ⟨b, hb, hcontroller, hanswered⟩ := h.result c hc
    obtain ⟨j, hj⟩ := List.mem_iff_getElem?.mp hb
    obtain ⟨-, hj', hanswered'⟩ := hkeep hj hanswered
    exact ⟨b, List.mem_of_getElem? hj', hcontroller, hanswered'⟩
  · have hother : ∀ {j : Nat} {b : RegisterAttempt}, w.attempts[j]? = some b → b.stage.Alerted →
        ∃ (j' : Nat) (b' : RegisterAttempt) (msg : String), j' ≠ j ∧
          (w.attempts.set i { a with stage })[j']? = some b' ∧ b'.controller = b.controller ∧ msg ≠ "" ∧
          (w.setStage i a stage).Answered b' msg := by
      intro j b hj hb
      obtain ⟨j', b', msg, hne, hj', hcontroller, hmsg, hanswered⟩ := h.alerted j b hj hb
      obtain ⟨-, hj'', hanswered'⟩ := hkeep hj' hanswered
      exact ⟨j', b', msg, hne, hj'', hcontroller, hmsg, hanswered'⟩
    rcases eq_or_ne i j with rfl | hne
    · simp only [World.setStage, List.getElem?_set_self hlt, Option.some.injEq] at hj
      subst hj
      rcases halert hb with hold | hresult
      · obtain ⟨j, b, msg, hearlier⟩ := hother hi hold
        exact ⟨j, b, msg, hearlier⟩
      · obtain ⟨b, hb, hcontroller, hanswered⟩ := h.result _ hresult
        obtain ⟨j, hj⟩ := List.mem_iff_getElem?.mp hb
        obtain ⟨hne, hj', hanswered'⟩ := hkeep hj hanswered
        exact ⟨j, b, _, hne, hj', hcontroller, hresult, hanswered'⟩
    · simp only [World.setStage, List.getElem?_set_ne hne] at hj
      exact hother hj hb

/-- The answer to an attempt is read. -/
theorem World.Alerts.read {i : Nat} {alerted : Bool} {k : Nat} {message : String} (h : w.Alerts)
    (hi : w.attempts[i]? = some a) (hs : a.stage = .serving alerted k) (hanswer : w.answer k = some message) :
    (World.setStage { w with
      result := if message = "" then w.result else Function.update w.result a.controller message } i a
        (.finished alerted k)).Alerts := by
  have hset : (w.setStage i a (.finished alerted k)).Alerts :=
    h.setStage hi (fun _ _ hf => by rw [hs] at hf; cases hf) fun ha => Or.inl (by rw [hs]; exact ha)
  by_cases hempty : message = ""
  · rw [if_pos hempty]
    exact hset
  rw [if_neg hempty]
  refine ⟨fun c hc => ?_, hset.alerted⟩
  rcases eq_or_ne c a.controller with rfl | hne
  · have hlt := (List.getElem?_eq_some_iff.mp hi).1
    refine ⟨_, List.mem_set hlt _, rfl, alerted, k, rfl, ?_⟩
    simp only [World.setStage, Function.update_self]
    exact hanswer
  · simp only [World.setStage, Function.update_of_ne hne] at hc ⊢
    exact hset.result c hc

theorem World.Alerts.stepAttempt {i : Nat} (h : w.Alerts) (hi : w.attempts[i]? = some a) (e : RegisterEvent) :
    (w.stepAttempt i a e).Alerts := by
  unfold World.stepAttempt
  split
  · rename_i j reply hs
    have hopen : ∀ alerted k, a.stage ≠ .finished alerted k := fun _ _ hf => by rw [hs] at hf; cases hf
    have haccount : World.Alerts { w with accounts := a.email :: w.accounts } := ⟨h.result, h.alerted⟩
    split
    · exact h.setStage hi hopen False.elim
    · cases reply with
      | created => exact haccount.setStage hi hopen False.elim
      | createdUnheard => exact haccount.setStage hi hopen False.elim
      | failed => exact h.setStage hi hopen False.elim
  · rename_i j hs
    exact h.setStage hi (fun _ _ hf => by rw [hs] at hf; cases hf) False.elim
  · rename_i j hs
    exact h.setStage hi (fun _ _ hf => by rw [hs] at hf; cases hf) fun ha => Or.inr (of_decide_eq_true ha)
  · rename_i j alerted hs
    have hserve : (w.serve a.body).Alerts := h.serverStep fun k msg hk => by
      unfold World.answer at hk ⊢
      dsimp only
      split at hk
      · rename_i th hth
        rw [List.getElem?_append_left (List.getElem?_eq_some_iff.mp hth).1, hth]
        exact hk
      · cases hk
    exact hserve.setStage hi (fun _ _ hf => by rw [hs] at hf; cases hf) fun ha => Or.inl (by rw [hs]; exact ha)
  · rename_i j alerted hs
    exact h.setStage hi (fun _ _ hf => by rw [hs] at hf; cases hf) fun ha => Or.inl (by rw [hs]; exact ha)
  · rename_i j alerted k hs
    split
    · rename_i message hanswer
      exact h.read hi hs hanswer
    · exact h
  · rename_i j alerted k hs
    exact h.setStage hi (fun _ _ hf => by rw [hs] at hf; cases hf) fun ha => Or.inl (by rw [hs]; exact ha)
  · exact h

/-- A handler that has ended stays as it is. -/
theorem World.answer_turn (m : Mongoose) (t : Turn Http) {k : Nat} {msg : String} (h : w.answer k = some msg) :
    World.answer { w with server := w.server.step (Db.exec m) t } k = some msg := by
  unfold World.answer at h ⊢
  dsimp only
  cases hth : w.server.threads[k]? with
  | none =>
    rw [hth] at h
    cases h
  | some th =>
    have hsame : (w.server.step (Db.exec m) t).threads[k]? = some th := by
      rcases eq_or_ne t.thread k with rfl | hne
      · rcases th.turn_cases (Db.exec m) t.fault w.server.store with ⟨-, hturn⟩ | ⟨op, next, reject, hproc, -, -⟩
        · rw [(Pool.step_self hth).2, hturn]
        · rw [hth] at h
          simp only [Thread.finished, hproc] at h
          cases h
      · rw [Pool.step_other hne, hth]
    rw [hsame]
    rw [hth] at h
    exact h

theorem World.Alerts.step (h : w.Alerts) (m : Mongoose) (e : RegisterEvent) : (w.step m e).Alerts := by
  have hone : ∀ i, (w.stepAt i e).Alerts := by
    intro i
    unfold World.stepAt
    split
    · rename_i a hi
      exact h.stepAttempt hi e
    · exact h
  cases e with
  | registerPressed controller form =>
    unfold World.step
    dsimp only
    split
    · rename_i valid
      refine ⟨fun c hc => ?_, fun j b hj hb => ?_⟩
      · obtain ⟨a, ha, hrest⟩ := h.result c hc
        exact ⟨a, List.mem_append_left _ ha, hrest⟩
      · rcases lt_or_ge j w.attempts.length with hlt | hge
        · obtain ⟨j', b', msg, hne, hj', hrest⟩ := h.alerted j b ((List.getElem?_append_left hlt).symm.trans hj) hb
          exact ⟨j', b', msg, hne, (List.getElem?_append_left (List.getElem?_eq_some_iff.mp hj').1).trans hj', hrest⟩
        · have hlast := (List.getElem?_append_right hge).symm.trans hj
          rw [List.getElem?_singleton, Option.ite_none_right_eq_some] at hlast
          obtain rfl := Option.some.inj hlast.2
          exact hb.elim
    · exact h
  | turn t => exact h.serverStep fun k msg hk => World.answer_turn m t hk
  | createUser i reply => exact hone i
  | completion i => exact hone i
  | request i => exact hone i
  | loseRequest i => exact hone i
  | response i => exact hone i
  | loseResponse i => exact hone i

/-! ### Results -/

/-- No email goes to the API twice: the attempts whose accounts Firebase has made have emails of their own, which had no
    account at the start. -/
theorem World.runs_once (m : Mongoose) (accounts : List String) (db : Db) (es : List RegisterEvent) :
    (((World.start accounts db).runs m es).attempts.Pairwise fun a b =>
      a.stage.Created → b.stage.Created → a.email ≠ b.email) ∧
    ∀ a ∈ ((World.start accounts db).runs m es).attempts, a.stage.Created →
      a.email ∈ ((World.start accounts db).runs m es).accounts ∧ a.email ∉ accounts := by
  have hinv := World.runs_inv m accounts db es
  refine ⟨List.pairwise_iff_getElem.mpr fun i j hi hj hlt hc hc' he => ?_, hinv.created⟩
  have hij := hinv.once i j _ _ (List.getElem?_eq_getElem hi) (List.getElem?_eq_getElem hj) hc hc' he
  exact absurd hij (Nat.ne_of_lt hlt)

/-- Every user that is stored was there at the start, or has been registered for an attempt, with the fields of its
    form. -/
theorem World.runs_registeredFor (m : Mongoose) (accounts : List String) (db : Db) (es : List RegisterEvent) :
    ∀ u ∈ ((World.start accounts db).runs m es).server.store.users.docs,
      u ∈ db.users.docs ∨ ((World.start accounts db).runs m es).RegisteredFor u :=
  (World.runs_inv m accounts db es).users

/-- Where every user has had an account from the start, every user has one in every state, and no handler answers that
    the user exists; it registers its user if no call fails. -/
theorem World.runs_fresh (m : Mongoose) (accounts : List String) (db : Db) (es : List RegisterEvent)
    (h0 : ∀ u ∈ db.users.docs, u.email ∈ accounts) :
    (∀ u ∈ ((World.start accounts db).runs m es).server.store.users.docs,
      u.email ∈ ((World.start accounts db).runs m es).accounts) ∧
    ∀ th ∈ ((World.start accounts db).runs m es).server.threads, .userExists ∉ th.sent ∧
      ((∀ t, .turn t ∈ es → t.fault = none) → th.finished = true → th.sent = [.registered]) := by
  have hinv := World.runs_inv m accounts db es
  refine ⟨fun u hu => ?_, fun th hth => ⟨hinv.fresh h0 th hth, fun hes hend => ?_⟩⟩
  · rcases hinv.users u hu with hold | ⟨k, th, a, -, ha, hk, -, hfields⟩
    · exact hinv.kept (h0 u hold)
    · have hemail : u.email = a.email := Json.str.inj (Option.some.inj (hfields.email.symm.trans a.registers.1.email))
      rw [hemail]
      exact (hinv.created a ha hk.created).1
  · obtain ⟨k, hk⟩ := List.mem_iff_getElem?.mp hth
    obtain ⟨a, -, -, hsettled, halong⟩ := hinv.threads k th hk
    rcases (halong.here hsettled).of_ok (hsettled.stage_ne hend) (World.runs_unfailing m h0 hes th hth) with
      hsent | hsent
    · exact hsent
    · exact absurd (hsent ▸ List.mem_singleton_self _) (hinv.fresh h0 th hth)

/-- The alert at the end of a registration is about another one: the API had answered an earlier attempt of the same
    screen, with another email. -/
theorem World.runs_alerts (m : Mongoose) (accounts : List String) (db : Db) (es : List RegisterEvent) :
    ∀ a ∈ ((World.start accounts db).runs m es).attempts, a.stage.Alerted →
      ∃ b ∈ ((World.start accounts db).runs m es).attempts, b.controller = a.controller ∧ b.email ≠ a.email ∧
        ∃ msg, msg ≠ "" ∧ ((World.start accounts db).runs m es).Answered b msg := by
  have hinv := World.runs_inv m accounts db es
  have halerts : ((World.start accounts db).runs m es).Alerts := by
    induction es using List.reverseRecOn with
    | nil => exact ⟨fun c hc => absurd rfl hc, by simp [World.runs, World.start]⟩
    | append_singleton es e ih =>
      unfold World.runs
      rw [List.foldl_append]
      exact (ih (World.runs_inv m accounts db es)).step m e
  intro a ha halerted
  obtain ⟨i, hi⟩ := List.mem_iff_getElem?.mp ha
  obtain ⟨j, b, msg, hne, hj, hcontroller, hmsg, alerted, k, hs, hk⟩ := halerts.alerted i a hi halerted
  refine ⟨b, List.mem_of_getElem? hj, hcontroller, fun he => hne ?_, msg, hmsg, alerted, k, hs, hk⟩
  exact hinv.once j i b a hj hi (by rw [hs]; trivial) halerted.created he

end Worlds

def clubAccounts : List String := ["home@club.test", "away@club.test"]

theorem runs_fresh_club :
    (∀ u ∈ ((World.start clubAccounts club).runs mongoose6 (newRegistration none)).server.store.users.docs,
      u.email ∈ ((World.start clubAccounts club).runs mongoose6 (newRegistration none)).accounts) ∧
    ∀ th ∈ ((World.start clubAccounts club).runs mongoose6 (newRegistration none)).server.threads,
      .userExists ∉ th.sent ∧
      ((∀ t, .turn t ∈ newRegistration none → t.fault = none) → th.finished = true → th.sent = [.registered]) :=
  World.runs_fresh mongoose6 clubAccounts club (newRegistration none) (by decide)

theorem runs_registeredFor_club :
    ∃ u ∈ ((World.start clubAccounts club).runs mongoose6 (newRegistration none)).server.store.users.docs,
      ((World.start clubAccounts club).runs mongoose6 (newRegistration none)).RegisteredFor u := by
  have hnew : (((World.start clubAccounts club).runs mongoose6 (newRegistration none)).server.store.users.docs.any
      fun u => u.email == "new@club.test") = true := by decide +kernel
  have hold : ∀ u ∈ club.users.docs, u.email ≠ "new@club.test" := by decide
  obtain ⟨u, hu, hemail⟩ := List.any_eq_true.mp hnew
  rcases World.runs_registeredFor mongoose6 clubAccounts club (newRegistration none) u hu with h | h
  · exact absurd (eq_of_beq hemail) (hold u h)
  · exact ⟨u, hu, h⟩

/-- Two presses on one form, the second with another email, before Firebase answers the first -/
def secondRegistration : List RegisterEvent :=
  .registerPressed 0 newForm :: .registerPressed 0 { newForm with email := "other@club.test" } ::
    (newRegistration none).tail ++ [.createUser 1 .created, .completion 1]

theorem runs_alerts_club :
    ∃ a ∈ ((World.start [] club).runs mongoose6 secondRegistration).attempts, a.stage.Alerted ∧
      ∃ b ∈ ((World.start [] club).runs mongoose6 secondRegistration).attempts, b.controller = a.controller ∧
        b.email ≠ a.email ∧ ∃ msg, msg ≠ "" ∧
          ((World.start [] club).runs mongoose6 secondRegistration).Answered b msg := by
  have hsecond : (((World.start [] club).runs mongoose6 secondRegistration).attempts.any fun a =>
      a.stage == .requested true) = true := by decide +kernel
  obtain ⟨a, ha, hstage⟩ := List.any_eq_true.mp hsecond
  have halerted : a.stage.Alerted := by
    rw [eq_of_beq hstage]
    rfl
  exact ⟨a, ha, halerted, World.runs_alerts mongoose6 [] club secondRegistration a ha halerted⟩

end KhelaKaro
