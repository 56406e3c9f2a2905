import Mathlib.Tactic.Common

/-! # Async procedures

A procedure is the body of an `async` function over a shared store. Between two awaits it runs without
interruption: it computes, sends messages, or throws. An await hands one operation to the store and goes on
with the operation's answer or, when the operation is rejected, with the error. The operations, their answers,
the errors and the messages are parameters (`Interface`). -/

namespace KhelaKaro.Async

/-- What a procedure exchanges with its surroundings. -/
structure Interface where
  /-- the operations it can await -/
  Op : Type
  /-- the answer of each operation -/
  Ans : Op → Type
  /-- the errors it can throw or be given -/
  Err : Type
  /-- the messages it can send -/
  Out : Type

inductive Proc (I : Interface) (α : Type) where
  | pure (a : α)
  | throw (e : I.Err)
  | send (r : I.Out) (next : Proc I α)
  | await (op : I.Op) (next : I.Ans op → Proc I α) (reject : I.Err → Proc I α)

namespace Proc
variable {I : Interface} {α β : Type}

def bind : Proc I α → (α → Proc I β) → Proc I β
  | pure a, f => f a
  | throw e, _ => throw e
  | send r next, f => send r (next.bind f)
  | await op next reject, f => await op (fun a => (next a).bind f) (fun e => (reject e).bind f)

/-- `try t catch e => handler e`: a rejected await inside `t` throws there. -/
def tryCatch : Proc I α → (I.Err → Proc I α) → Proc I α
  | pure a, _ => pure a
  | throw e, handler => handler e
  | send r next, handler => send r (next.tryCatch handler)
  | await op next reject, handler =>
    await op (fun a => (next a).tryCatch handler) (fun e => (reject e).tryCatch handler)

instance : Monad (Proc I) where
  pure := pure
  bind := bind

instance : MonadExceptOf I.Err (Proc I) where
  throw := throw
  tryCatch := tryCatch

section Equations
variable (f : α → Proc I β) (handler : I.Err → Proc I α) (e : I.Err) (r : I.Out) (op : I.Op) (next : Proc I α)
  (k : I.Ans op → Proc I α) (reject : I.Err → Proc I α)

@[simp] theorem pure_bind (a : α) : (pure a : Proc I α) >>= f = f a := rfl
@[simp] theorem throw_bind : (throw e : Proc I α) >>= f = throw e := rfl
@[simp] theorem await_bind :
    await op k reject >>= f = await op (fun a => k a >>= f) (fun e => reject e >>= f) := rfl

@[simp] theorem tryCatch_pure (a : α) : (pure a : Proc I α).tryCatch handler = pure a := rfl
@[simp] theorem tryCatch_throw : (throw e : Proc I α).tryCatch handler = handler e := rfl
@[simp] theorem tryCatch_send : (send r next).tryCatch handler = send r (next.tryCatch handler) := rfl
@[simp] theorem tryCatch_await :
    (await op k reject).tryCatch handler =
      await op (fun a => (k a).tryCatch handler) (fun e => (reject e).tryCatch handler) := rfl

theorem tryCatch_ite (p : Prop) [Decidable p] (t u : Proc I α) :
    (if p then t else u).tryCatch handler = if p then t.tryCatch handler else u.tryCatch handler := by
  split <;> rfl

end Equations

/-! ## Running alone -/

/-- What is left of a procedure that ran to its end: the store, the messages sent, and its value or the error that
    escaped from it. -/
structure Outcome (I : Interface) (σ α : Type) where
  store : σ
  sent : List I.Out
  result : Except I.Err α

/-- How the store answers an operation. -/
abbrev Exec (I : Interface) (σ : Type) := σ → (op : I.Op) → σ × Except I.Err (I.Ans op)

variable {σ : Type}

/-- The store's answer, or the rejection with `e` that leaves the operation undone when `fault = some e`. -/
def attempt (exec : Exec I σ) (fault : Option I.Err) (s : σ) (op : I.Op) : σ × Except I.Err (I.Ans op) :=
  match fault with
  | some e => (s, .error e)
  | none => exec s op

@[simp] theorem attempt_none (exec : Exec I σ) (s : σ) (op : I.Op) : attempt exec none s op = exec s op := rfl

/-- The procedure run to its end with no other procedure between its awaits; `faults n` says whether its await number
    `n` fails. -/
def run (exec : Exec I σ) : Proc I α → (Nat → Option I.Err) → σ → Outcome I σ α
  | pure a, _, s => ⟨s, [], .ok a⟩
  | throw e, _, s => ⟨s, [], .error e⟩
  | send r next, faults, s =>
    let o := next.run exec faults s
    { o with sent := r :: o.sent }
  | await op next reject, faults, s =>
    match (attempt exec (faults 0) s op).2 with
    | .ok a => (next a).run exec (fun n => faults (n + 1)) (attempt exec (faults 0) s op).1
    | .error e => (reject e).run exec (fun n => faults (n + 1)) (attempt exec (faults 0) s op).1

/-- No call fails. -/
def noFaults : Nat → Option I.Err := fun _ => none

section Run
variable (exec : Exec I σ) (faults : Nat → Option I.Err) (s : σ)

@[simp] theorem run_pure (a : α) : (pure a : Proc I α).run exec faults s = ⟨s, [], .ok a⟩ := rfl
@[simp] theorem run_throw (e : I.Err) : (throw e : Proc I α).run exec faults s = ⟨s, [], .error e⟩ := rfl
@[simp] theorem run_send (r : I.Out) (next : Proc I α) :
    (send r next).run exec faults s =
      { next.run exec faults s with sent := r :: (next.run exec faults s).sent } := rfl

variable {exec faults s}

theorem run_await_ok {op : I.Op} {next : I.Ans op → Proc I α} {reject : I.Err → Proc I α} {s' : σ}
    {a : I.Ans op} (h : attempt exec (faults 0) s op = (s', .ok a)) :
    (await op next reject).run exec faults s = (next a).run exec (fun n => faults (n + 1)) s' := by
  simp only [run, h]

theorem run_await_error {op : I.Op} {next : I.Ans op → Proc I α} {reject : I.Err → Proc I α} {s' : σ}
    {e : I.Err} (h : attempt exec (faults 0) s op = (s', .error e)) :
    (await op next reject).run exec faults s = (reject e).run exec (fun n => faults (n + 1)) s' := by
  simp only [run, h]

theorem run_noFaults_ok {op : I.Op} {next : I.Ans op → Proc I α} {reject : I.Err → Proc I α} {s' : σ}
    {a : I.Ans op} (h : exec s op = (s', .ok a)) :
    (await op next reject).run exec noFaults s = (next a).run exec noFaults s' :=
  run_await_ok h

theorem run_noFaults_error {op : I.Op} {next : I.Ans op → Proc I α} {reject : I.Err → Proc I α} {s' : σ}
    {e : I.Err} (h : exec s op = (s', .error e)) :
    (await op next reject).run exec noFaults s = (reject e).run exec noFaults s' :=
  run_await_error h

end Run

/-! ## One reply -/

/-- On every path the procedure sends one message and ends, or it throws an error of `E` with nothing sent. -/
def Replies (E : I.Err → Prop) : Proc I α → Prop
  | pure _ => False
  | throw e => E e
  | send _ next => ∃ a, next = pure a
  | await _ next reject => (∀ a, (next a).Replies E) ∧ ∀ e, (reject e).Replies E

section Replies
variable {E E' : I.Err → Prop} {t : Proc I α} {handler : I.Err → Proc I α}

theorem Replies.tryCatch (h : t.Replies E) (hh : ∀ e, E e → (handler e).Replies E') :
    (t.tryCatch handler).Replies E' := by
  induction t with
  | pure a => exact h.elim
  | throw e => exact hh e h
  | send r next ih =>
    obtain ⟨a, rfl⟩ := h
    exact ⟨a, rfl⟩
  | await op next reject ihn ihr => exact ⟨fun a => ihn a (h.1 a), fun e => ihr e (h.2 e)⟩

theorem Replies.run (h : t.Replies E) (exec : Exec I σ) (faults : Nat → Option I.Err) (s : σ) :
    (∃ r a, (t.run exec faults s).sent = [r] ∧ (t.run exec faults s).result = .ok a) ∨
      ∃ e, E e ∧ (t.run exec faults s).sent = [] ∧ (t.run exec faults s).result = .error e := by
  induction t generalizing faults s with
  | pure a => exact h.elim
  | throw e => exact Or.inr ⟨e, h, rfl, rfl⟩
  | send r next ih =>
    obtain ⟨a, rfl⟩ := h
    exact Or.inl ⟨r, a, rfl, rfl⟩
  | await op next reject ihn ihr =>
    cases hr : attempt exec (faults 0) s op with
    | mk s' answer =>
      cases answer with
      | ok a =>
        rw [run_await_ok hr]
        exact ihn a (h.1 a) _ s'
      | error e =>
        rw [run_await_error hr]
        exact ihr e (h.2 e) _ s'

end Replies

/-! ## What every call keeps -/

/-- Every call on every path is one of `P`. -/
def Calls (P : I.Op → Prop) : Proc I α → Prop
  | pure _ | throw _ => True
  | send _ next => next.Calls P
  | await op next reject => P op ∧ (∀ a, (next a).Calls P) ∧ ∀ e, (reject e).Calls P

section Calls
variable {exec : Exec I σ} {faults : Nat → Option I.Err} {s : σ} {t : Proc I α} {P : I.Op → Prop} {Q : σ → Prop}

theorem calls_true : t.Calls fun _ => True := by
  induction t with
  | pure a => trivial
  | throw e => trivial
  | send r next ih => exact ih
  | await op next reject ihn ihr => exact ⟨trivial, ihn, ihr⟩

theorem Calls.run (h : t.Calls P) (hs : Q s)
    (hkeep : ∀ s op fault, P op → Q s → Q (attempt exec fault s op).1) : Q (t.run exec faults s).store := by
  induction t generalizing faults s with
  | pure a => exact hs
  | throw e => exact hs
  | send r next ih => exact ih h hs
  | await op next reject ihn ihr =>
    obtain ⟨hop, hnext, hreject⟩ := h
    have hs' := hkeep s op (faults 0) hop hs
    cases hr : attempt exec (faults 0) s op with
    | mk s' answer =>
      rw [hr] at hs'
      cases answer with
      | ok a =>
        rw [run_await_ok hr]
        exact ihn a (hnext a) hs'
      | error e =>
        rw [run_await_error hr]
        exact ihr e (hreject e) hs'

end Calls

/-! ## Runs on two stores -/

/-- What follows a call is the same for answers that `E` relates. -/
def Respects (E : (op : I.Op) → I.Ans op → I.Ans op → Prop) : Proc I α → Prop
  | pure _ | throw _ => True
  | send _ next => next.Respects E
  | await op next reject =>
    (∀ a a', E op a a' → next a = next a') ∧ (∀ a, (next a).Respects E) ∧ ∀ e, (reject e).Respects E

/-- The answers are related by `E`, or are the same error. -/
def SameAnswer (E : (op : I.Op) → I.Ans op → I.Ans op → Prop) {op : I.Op} :
    Except I.Err (I.Ans op) → Except I.Err (I.Ans op) → Prop
  | .ok a, .ok a' => E op a a'
  | .error e, .error e' => e = e'
  | _, _ => False

section Respects
variable {exec : Exec I σ} {E : (op : I.Op) → I.Ans op → I.Ans op → Prop} {R : σ → σ → Prop} {t : Proc I α}

theorem SameAnswer.of_eq {op : I.Op} {r r' : Except I.Err (I.Ans op)} (hE : ∀ a, E op a a) (h : r = r') :
    SameAnswer E r r' := by
  subst h
  cases r with
  | error e => rfl
  | ok a => exact hE a

theorem Respects.tryCatch {handler : I.Err → Proc I α} (h : t.Respects E) (hh : ∀ e, (handler e).Respects E) :
    (t.tryCatch handler).Respects E := by
  induction t with
  | pure a => trivial
  | throw e => exact hh e
  | send r next ih => exact ih h
  | await op next reject ihn ihr =>
    obtain ⟨heq, hnext, hreject⟩ := h
    refine ⟨fun a a' ha => ?_, fun a => ihn a (hnext a), fun e => ihr e (hreject e)⟩
    exact congrArg (fun next : Proc I α => next.tryCatch handler) (heq a a' ha)

/-- Stores that stay related, with related answers, tell no difference. -/
theorem Respects.run (h : t.Respects E)
    (hexec : ∀ s s' op, R s s' → R (exec s op).1 (exec s' op).1 ∧ SameAnswer E (exec s op).2 (exec s' op).2)
    (faults : Nat → Option I.Err) {s s' : σ} (hR : R s s') :
    R (t.run exec faults s).store (t.run exec faults s').store ∧
      (t.run exec faults s).sent = (t.run exec faults s').sent ∧
      (t.run exec faults s).result = (t.run exec faults s').result := by
  induction t generalizing faults s s' with
  | pure a => exact ⟨hR, rfl, rfl⟩
  | throw e => exact ⟨hR, rfl, rfl⟩
  | send r next ih =>
    obtain ⟨hstore, hsent, hresult⟩ := ih h faults hR
    exact ⟨hstore, congrArg (r :: ·) hsent, hresult⟩
  | await op next reject ihn ihr =>
    obtain ⟨heq, hnext, hreject⟩ := h
    cases hf : faults 0 with
    | some e =>
      have hfail : ∀ s, attempt exec (faults 0) s op = (s, .error e) := by
        intro s
        rw [hf]
        rfl
      rw [run_await_error (hfail s), run_await_error (hfail s')]
      exact ihr e (hreject e) _ hR
    | none =>
      have hdone : ∀ s, attempt exec (faults 0) s op = exec s op := by
        intro s
        rw [hf]
        rfl
      obtain ⟨hstore, hanswer⟩ := hexec s s' op hR
      rcases hr : exec s op with ⟨u, _ | a⟩ <;> rcases hr' : exec s' op with ⟨u', _ | a'⟩ <;>
        rw [hr, hr'] at hstore hanswer
      · obtain rfl := hanswer
        rw [run_await_error ((hdone s).trans hr), run_await_error ((hdone s').trans hr')]
        exact ihr _ (hreject _) _ hstore
      · exact hanswer.elim
      · exact hanswer.elim
      · rw [run_await_ok ((hdone s).trans hr), run_await_ok ((hdone s').trans hr'), heq a a' hanswer]
        exact ihn a' (hnext a') _ hstore

end Respects

/-! ## Failing calls -/

/-- No call is left. -/
def Still : Proc I α → Prop
  | pure _ | throw _ => True
  | send _ next => next.Still
  | await _ _ _ => False

/-- The number of calls of the run in which none fails -/
def awaits (exec : Exec I σ) : Proc I α → σ → Nat
  | pure _, _ | throw _, _ => 0
  | send _ next, s => next.awaits exec s
  | await op next reject, s =>
    1 + match (exec s op).2 with
      | .ok a => (next a).awaits exec (exec s op).1
      | .error e => (reject e).awaits exec (exec s op).1

/-- A rejected call goes on with `u`, and a call that changes the store is the last one. -/
def Recovers (exec : Exec I σ) (s : σ) : Proc I α → Proc I α → Prop
  | pure _, _ | throw _, _ => True
  | send _ next, _ => next.Still
  | await op next reject, u =>
    (∀ e, reject e = u) ∧ ∀ a, (next a).Still ∨ (exec s op).1 = s ∧ (next a).Recovers exec s u

section Recovers
variable {exec : Exec I σ} {s : σ} {t u : Proc I α}

theorem awaits_ok {op : I.Op} {next : I.Ans op → Proc I α} {reject : I.Err → Proc I α} {s' : σ} {a : I.Ans op}
    (h : exec s op = (s', .ok a)) : (await op next reject).awaits exec s = 1 + (next a).awaits exec s' := by
  simp only [awaits, h]

theorem awaits_error {op : I.Op} {next : I.Ans op → Proc I α} {reject : I.Err → Proc I α} {s' : σ} {e : I.Err}
    (h : exec s op = (s', .error e)) : (await op next reject).awaits exec s = 1 + (reject e).awaits exec s' := by
  simp only [awaits, h]

theorem Still.awaits (h : t.Still) : t.awaits exec s = 0 := by
  induction t with
  | pure a => rfl
  | throw e => rfl
  | send r next ih => exact ih h
  | await op next reject ihn ihr => exact h.elim

theorem Still.run (h : t.Still) (faults faults' : Nat → Option I.Err) :
    t.run exec faults s = t.run exec faults' s := by
  induction t with
  | pure a => rfl
  | throw e => rfl
  | send r next ih => rw [run_send, run_send, ih h]
  | await op next reject ihn ihr => exact h.elim

/-- The run whose calls all answer is the one without failures. -/
theorem run_eq_noFaults {faults : Nat → Option I.Err} (h : ∀ n < t.awaits exec s, faults n = none) :
    t.run exec faults s = t.run exec noFaults s := by
  induction t generalizing faults s with
  | pure a => rfl
  | throw e => rfl
  | send r next ih => rw [run_send, run_send, ih h]
  | await op next reject ihn ihr =>
    have h0 : faults 0 = none := h 0 (by rw [Proc.awaits]; omega)
    cases hr : exec s op with
    | mk s' answer =>
      cases answer with
      | error e =>
        rw [run_await_error (by rw [h0]; exact hr), run_noFaults_error hr]
        rw [awaits_error hr] at h
        exact ihr e fun n hn => h (n + 1) (by omega)
      | ok a =>
        rw [run_await_ok (by rw [h0]; exact hr), run_noFaults_ok hr]
        rw [awaits_ok hr] at h
        exact ihn a fun n hn => h (n + 1) (by omega)

/-- A failing call ends the run in `u`, on the store it started from. -/
theorem Recovers.run (h : t.Recovers exec s u) (hu : u.Still) {faults : Nat → Option I.Err} {n : Nat}
    (hn : n < t.awaits exec s) (hf : faults n ≠ none) : t.run exec faults s = u.run exec noFaults s := by
  induction t generalizing faults n with
  | pure a => exact absurd hn (Nat.not_lt_zero n)
  | throw e => exact absurd hn (Nat.not_lt_zero n)
  | send r next ih =>
    rw [Still.awaits (t := send r next) h] at hn
    exact absurd hn (Nat.not_lt_zero n)
  | await op next reject ihn ihr =>
    obtain ⟨hreject, hnext⟩ := h
    cases h0 : faults 0 with
    | some e =>
      have hfail : attempt exec (faults 0) s op = (s, .error e) := by
        rw [h0]
        rfl
      rw [run_await_error hfail, hreject]
      exact hu.run _ _
    | none =>
      cases n with
      | zero => exact absurd h0 hf
      | succ n =>
      cases hr : exec s op with
      | mk s' answer =>
        cases answer with
        | error e =>
          rw [awaits_error hr, hreject, hu.awaits] at hn
          omega
        | ok a =>
          rw [awaits_ok hr] at hn
          rcases hnext a with hstill | ⟨hs, hrec⟩
          · rw [hstill.awaits] at hn
            omega
          · rw [hr] at hs
            dsimp only at hs
            subst hs
            rw [run_await_ok (by rw [h0]; exact hr)]
            exact ihn a hrec (n := n) (by omega) hf

end Recovers
end Proc
end KhelaKaro.Async
