import KhelaKaro.BookingScreen
import KhelaKaro.IsoText

/-! # The profile screen at work

`ProfileViewController`, from the requests that it sends when it is loaded to the labels and the table that it makes of
their answers. A trap is `none`. The device is in some zone at each instant. -/

namespace KhelaKaro
open Calendar

namespace Json

/-- What a `for` loop goes over: nothing in a missing value, or in one that is no array and no object. -/
def elements : Option Json → List Json
  | some (arr xs) => xs
  | some (obj fields) => fields.map Prod.snd
  | _ => []

def isEmpty (v : Option Json) : Bool := (elements v).isEmpty

end Json

structure Bookings where
  sport : String
  date : String
  time : String
  deriving DecidableEq

/-- `dd/MM/` and the year -/
def dayText (z : Zone) (t year : Int) : String :=
  String.ofList (padded 2 (dayOf (z.day t)) ++ '/' :: (padded 2 (monthOf (z.day t)) ++ '/' :: decimals 4 year.toNat))

/-- `dateFormat = "dd/MM/YYYY"`, where `YYYY` is the year of the week -/
def dateBooking (z : Zone) (t : Int) : String := dayText z t (weekYear (z.day t))

/-- `dateFormat = "HH:mm"` -/
def timeBooking (z : Zone) (t : Int) : String := dateFormatter [.HH, .text ":", .mm] z t

/-- The row for `dateInput` -/
def Bookings.of (zone : Int → Zone) (row : String × Int) : Bookings :=
  ⟨row.1, dateBooking (zone row.2) row.2, timeBooking (zone row.2) row.2⟩

/-- The name of the image for `maxPlayed` -/
def changeImage (result : String) : String :=
  match result with
  | "Badminton" => "Badminton"
  | "Tennis" => "Tennis"
  | "Table Tennis" => "TableTennis"
  | "Football" => "Football"
  | _ => "Gym"

/-- The result with which `getName` calls its completion: its closure is that of `bookCourt`. -/
def getName (f : Foundation) (data : Option Json) : Option String := bookCourtResult f data

/-- The texts of the labels, `none` before they are set, the name of the image, and the rows of the table -/
structure ProfileScreen where
  userEmail : String
  userName : Option String
  frequentSport : Option String
  streakDays : Option String
  profileImage : Option String
  bookingsArray : List Bookings

namespace ProfileScreen
variable (cal : FormatterCalendar) (zone : Int → Zone) (f : Foundation) (v : ProfileScreen)

/-- The screen, and the bodies of the requests to `getname` and `stats/profile` -/
def viewDidLoad (currentUser : Option FirebaseUser) : Option (ProfileScreen × Json × Json) := do
  let user ← currentUser
  let email ← user.email
  return (⟨email, none, none, none, none, []⟩, profileParameters email, profileParameters email)

/-- The response to the request to `getname` -/
def nameResponse (data : Option Json) : Option ProfileScreen :=
  (getName f data).map fun result => { v with userName := some result }

/-- The body of the four loops, which differ in the sport -/
def thisBooking (row : SportRow Json) : Option Bookings :=
  match row.startDateTime with
  | .str test => (cal.inputRow ⟨row.sport, test⟩).map (Bookings.of zone)
  | _ => none

/-- What the closure of `fetchData` computes of the data: the rows to append, `maxPlayed` and `length`. -/
def profileData (responseJSON : Json) : Option (List Bookings × String × Nat) :=
  let message := responseJSON.prop "data"
  if Json.isEmpty message then some ([], "", 0) else do
    let dates (key : String) := Json.elements (message.bind (·.prop key))
    let (rows, maxPlayed, length) := sportTable (dates "s1") (dates "s2") (dates "s3") (dates "s4")
    return (← rows.mapM (thisBooking cal zone), maxPlayed, length)

/-- The response to the request of `fetchData`, and the closure that `viewDidLoad` hands to it. A lost response calls
    nothing. -/
def dataResponse : Option Json → Option ProfileScreen
  | none => some v
  | some data => do
    let responseJSON ← data.ofData
    let (rows, result, result2) ← profileData cal zone responseJSON
    return { v with
      bookingsArray := v.bookingsArray ++ rows
      frequentSport := some result
      profileImage := some (changeImage result)
      streakDays := some (toString result2) }

end ProfileScreen

/-! ### The list of sports -/

/-- The label of the screen that a login leads to, `none` before it is set -/
structure SportList where
  welcomemsg : Option String

namespace SportList
variable (f : Foundation)

/-- The screen, and the body of its request to `getname` -/
def viewDidLoad (currentUser : Option FirebaseUser) : Option (SportList × Json) := do
  let user ← currentUser
  let email ← user.email
  return (⟨none⟩, profileParameters email)

/-- The response to the request to `getname` -/
def nameResponse (data : Option Json) : Option SportList :=
  (getName f data).map fun result => ⟨some ("Welcome " ++ result ++ "!")⟩

end SportList
end KhelaKaro
