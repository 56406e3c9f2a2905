import KhelaKaro.Api
import KhelaKaro.App
import KhelaKaro.Async.Pool

/-! # Registration

The three parties of a registration and the messages between them: `RegisterViewController` on any number of devices,
Firebase Auth, and the handlers of `POST /api/auth/register` on the server. Messages are delivered in any order. The
request to the API and its answer may be lost, calls of the server to its database may fail, and Firebase may refuse
an account, or make it and be heard to have failed. -/

namespace KhelaKaro
open Async

/-- How far an attempt has come. -/
inductive AttemptStage where
  /-- `createUser` is on its way to Firebase -/
  | creating
  /-- its callback is on its way, with `err != nil` if `failed` -/
  | created (failed : Bool)
  /-- the alert "Error creating user" is shown, the form stays -/
  | refused
  /-- back at the root screen, after an alert if `alerted`; the request to the API is on its way -/
  | requested (alerted : Bool)
  /-- the request is lost -/
  | lost (alerted : Bool)
  /-- handler `k` of the server serves the request -/
  | serving (alerted : Bool) (k : Nat)
  /-- the answer of handler `k` has been read, or is lost -/
  | finished (alerted : Bool) (k : Nat)
  deriving DecidableEq

variable [SwiftString]

/-- A press of the button with a form that passes `validateFields`. -/
structure RegisterAttempt where
  controller : Nat
  form : Form
  valid : form.validateFields = none
  stage : AttemptStage

namespace RegisterAttempt
variable (a : RegisterAttempt)

def email : String := trimming a.form.email

def body : Json := a.form.registerInMongo

/-- The attempt has ended at the root screen without an alert. -/
def ReturnedSilently : Prop :=
  match a.stage with
  | .requested alerted | .lost alerted | .serving alerted _ | .finished alerted _ => alerted = false
  | _ => False

/-- Nothing of the attempt is on its way any more. -/
def Ended : Prop :=
  match a.stage with
  | .refused | .lost _ | .finished _ _ => True
  | _ => False

end RegisterAttempt

structure World where
  accounts : List String
  server : Pool Http Db Unit
  /-- `self.result` of each controller -/
  result : Nat → String
  attempts : List RegisterAttempt

/-- What Firebase does with a `createUser` for an email without an account. -/
inductive FirebaseReply where
  | created
  | createdUnheard
  | failed

inductive RegisterEvent where
  | registerPressed (controller : Nat) (form : Form)
  | createUser (i : Nat) (reply : FirebaseReply)
  | completion (i : Nat)
  | request (i : Nat)
  | loseRequest (i : Nat)
  | turn (t : Turn Http)
  | response (i : Nat)
  | loseResponse (i : Nat)

namespace World
variable (w : World)

def start (accounts : List String) (db : Db) : World := ⟨accounts, ⟨db, []⟩, fun _ => "", []⟩

def setStage (i : Nat) (a : RegisterAttempt) (stage : AttemptStage) : World :=
  { w with attempts := w.attempts.set i { a with stage } }

/-- The server with one more request -/
def serve (body : Json) : World :=
  { w with server := { w.server with threads := w.server.threads ++ [Thread.start (postRegister body)] } }

/-- `msg` of the answer of handler `k`, once it has finished -/
def answer (k : Nat) : Option String :=
  match w.server.threads[k]? with
  | some th =>
    if th.finished then
      match th.sent with
      | ⟨_, .object _ msg _ _⟩ :: _ => some msg
      | _ => none
    else none
  | none => none

/-- The effect of an event on attempt `i`. -/
def stepAttempt (i : Nat) (a : RegisterAttempt) (e : RegisterEvent) : World :=
  match e, a.stage with
  | .createUser _ reply, .creating =>
    if a.email ∈ w.accounts then w.setStage i a (.created true)
    else match reply with
      | .created => { w with accounts := a.email :: w.accounts }.setStage i a (.created false)
      | .createdUnheard => { w with accounts := a.email :: w.accounts }.setStage i a (.created true)
      | .failed => w.setStage i a (.created true)
  | .completion _, .created true => w.setStage i a .refused
  -- `registerInMongo` only sends the request, so the test of `self.result` sees what earlier attempts have left.
  | .completion _, .created false => w.setStage i a (.requested (w.result a.controller ≠ ""))
  | .request _, .requested alerted =>
    (w.serve a.body).setStage i a (.serving alerted w.server.threads.length)
  | .loseRequest _, .requested alerted => w.setStage i a (.lost alerted)
  | .response _, .serving alerted k =>
    match w.answer k with
    | some message =>
      { w with result := if message = "" then w.result else Function.update w.result a.controller message }.setStage i
        a (.finished alerted k)
    | none => w
  | .loseResponse _, .serving alerted k => w.setStage i a (.finished alerted k)
  | _, _ => w

def stepAt (i : Nat) (e : RegisterEvent) : World :=
  match w.attempts[i]? with
  | some a => w.stepAttempt i a e
  | none => w

def step (m : Mongoose) (e : RegisterEvent) : World :=
  match e with
  | .registerPressed controller form =>
    if valid : form.validateFields = none then
      { w with attempts := w.attempts ++ [⟨controller, form, valid, .creating⟩] }
    else w
  | .turn t => { w with server := w.server.step (Db.exec m) t }
  | .createUser i _ | .completion i | .request i | .loseRequest i | .response i | .loseResponse i => w.stepAt i e

def runs (m : Mongoose) (es : List RegisterEvent) : World := es.foldl (fun w e => w.step m e) w

/-- No message is in flight, and no handler at work. -/
def Quiet : Prop := (∀ a ∈ w.attempts, a.Ended) ∧ ∀ th ∈ w.server.threads, th.finished = true

/-- Both stores know every user whose attempt ended without an alert. -/
def Consistent : Prop :=
  ∀ a ∈ w.attempts, a.ReturnedSilently → a.email ∈ w.accounts ∧ ∃ u ∈ w.server.store.users.docs, u.email = a.email

end World
end KhelaKaro
