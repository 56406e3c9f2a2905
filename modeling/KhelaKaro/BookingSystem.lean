import KhelaKaro.Async.Along
import KhelaKaro.Theorems.SameStores
import KhelaKaro.Wire

/-! # Bookings from press to alert

The sport screens of any number of devices and the server that they book at. A press sends its request to the server;
the handlers of the server go on in any order, beside those of all other requests that it is sent; a response is
delivered when the handler has replied, or it is lost at any time. A step is `none` where the event cannot occur, and
where the app traps. -/

namespace KhelaKaro
open Async

/-- A sport screen on some device, with the numbers that its requests have at the server: all of them, those of the
    outstanding ones, and those whose response has been delivered. -/
structure OpenScreen where
  screen : Screen
  view : BookingScreen
  sent : List Nat
  waiting : List Nat
  answered : List Nat

structure BookingSystem where
  screens : List OpenScreen
  requests : List Request
  server : Pool Http Db Unit

inductive SystemEvent where
  | viewDidLoad (screen : Screen)
  | bookNowPressed (i : Nat) (zone : Zone) (currentUser : Option FirebaseUser) (date : Date)
  /-- a request of another screen or client -/
  | request (r : Request)
  | turn (t : Turn Http)
  | response (i j : Nat)
  | loseResponse (i j : Nat)

namespace BookingSystem

def start (db : Db) : BookingSystem := ⟨[], [], ⟨db, []⟩⟩

variable (s : BookingSystem) (f : Foundation) (m : Mongoose) (rt : Runtime)

/-- The server with one more request -/
def receive (r : Request) : BookingSystem :=
  { s with requests := s.requests ++ [r], server := s.server.receive (r.serve rt) }

def setScreen (i : Nat) (o : OpenScreen) : BookingSystem := { s with screens := s.screens.set i o }

/-- The reply to request number `n`, once it is sent -/
def reply (n : Nat) : Option Reply := s.server.threads[n]?.bind fun th => th.sent.head?

/-- The screen after a press: the request that it has sent is served. -/
def press (i : Nat) (o : OpenScreen) (v : BookingScreen) : BookingSystem :=
  match v.outstanding[o.view.outstanding.length]? with
  | some body => (s.receive rt (.route .booking body)).setScreen i
      { o with view := v, sent := o.sent ++ [s.requests.length], waiting := o.waiting ++ [s.requests.length] }
  | none => s.setScreen i { o with view := v }

def step : SystemEvent → Option BookingSystem
  | .viewDidLoad screen => some { s with screens := s.screens ++ [⟨screen, .start, [], [], []⟩] }
  | .bookNowPressed i zone currentUser date => do
    let o ← s.screens[i]?
    let v ← o.view.step f o.screen (.press zone currentUser date)
    some (s.press rt i o v)
  | .request r => some (s.receive rt r)
  | .turn t => some { s with server := s.server.step (Db.exec m) t }
  | .response i j => do
    let o ← s.screens[i]?
    let n ← o.waiting[j]?
    let reply ← s.reply n
    let data ← reply.json
    let v ← o.view.step f o.screen (.response j (some data))
    some (s.setScreen i { o with view := v, waiting := o.waiting.eraseIdx j, answered := o.answered ++ [n] })
  | .loseResponse i j => do
    let o ← s.screens[i]?
    let v ← o.view.step f o.screen (.response j none)
    some (s.setScreen i { o with view := v, waiting := o.waiting.eraseIdx j })

def runs (es : List SystemEvent) : Option BookingSystem := es.foldlM (fun s e => s.step f m rt e) s

end BookingSystem
end KhelaKaro
