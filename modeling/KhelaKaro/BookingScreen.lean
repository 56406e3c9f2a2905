import KhelaKaro.App

/-! # A sport screen at work

The button of a sport screen, its requests and its alerts, from event to event. A step is `none` where the event cannot
occur, and where the app traps. -/

namespace KhelaKaro

/-- What a sport screen leaves to Foundation. -/
structure Foundation where
  /-- `stringValue` of an `NSNumber` -/
  stringValue : ℚ → String
  /-- `contains`, of a text in a text -/
  contains : String → String → Bool

structure FirebaseUser where
  email : Option String

structure Alert where
  title : String
  message : String
  deriving DecidableEq

/-! ## The answer -/

namespace Json

/-- `JSON(data:)` without options, which throws on a value that is no array and no object -/
def ofData : Json → Option Json
  | arr xs => some (arr xs)
  | obj fields => some (obj fields)
  | _ => none

/-- `stringValue`, where a missing value is null -/
def stringValue (f : Foundation) : Option Json → String
  | some (str s) => s
  | some (num q) => f.stringValue q
  | some (bool b) => toString b
  | _ => ""

end Json

/-- The result with which `bookCourt` calls its completion, for the data of the response. An empty message leaves the
    result as it was, which is empty too. -/
def bookCourtResult (f : Foundation) : Option Json → Option String
  | some data => data.ofData.map fun responseJSON => Json.stringValue f (responseJSON.prop "msg")
  | none => some ""

/-! ## The screen -/

/-- `isEnabled` of `bookNowButton`, the bodies of the requests without a response so far, and the alerts in their
    order. -/
structure BookingScreen where
  isEnabled : Bool
  outstanding : List Json
  alerts : List Alert

/-- A press comes with the picked date, the offset of the device's zone at that date, and `Auth.auth().currentUser`; a
    response answers the `i`-th outstanding request. -/
inductive ScreenEvent where
  | press (zone : Zone) (currentUser : Option FirebaseUser) (date : Date)
  | response (i : Nat) (data : Option Json)

namespace BookingScreen
variable (v : BookingScreen) (f : Foundation) (screen : Screen)

/-- The storyboards enable the button. -/
def start : BookingScreen := ⟨true, [], []⟩

def showErrorMsg (errorMsg : String) (success : Bool) : BookingScreen :=
  { v with alerts := v.alerts ++ [⟨if success = false then "Error" else "Message", errorMsg⟩] }

/-- `AF.request` of `bookCourt` -/
def request (body : Json) : BookingScreen := { v with outstanding := v.outstanding ++ [body] }

/-- The hour is unwrapped by force. -/
def bookNowPressed (zone : Zone) (currentUser : Option FirebaseUser) (date : Date) : Option BookingScreen :=
  let v := { v with isEnabled := false }
  (timeHrInt zone date).bind fun timeHr =>
    if 19 ≤ timeHr ∨ timeHr < 11 then
      some (v.showErrorMsg "Please choose timings between 11am to 7pm" false)
    else match currentUser with
      | some user => user.email.map fun userEmail =>
        v.request (bookCourt screen.facilityId (dateInput zone date) userEmail)
      | none => some v

/-- The closure that `bookNowPressed` hands to `bookCourt` -/
def completion (result : String) : BookingScreen :=
  let v := if result ≠ "" then v.showErrorMsg result (f.contains result "successfully!") else v
  { v with isEnabled := true }

def step : ScreenEvent → Option BookingScreen
  | .press zone currentUser date => if v.isEnabled then v.bookNowPressed screen zone currentUser date else none
  | .response i data =>
    if i < v.outstanding.length then
      (bookCourtResult f data).map fun result => { v with outstanding := v.outstanding.eraseIdx i }.completion f result
    else none

def runs (es : List ScreenEvent) : Option BookingScreen := es.foldlM (fun v e => v.step f screen e) start

end BookingScreen
end KhelaKaro
