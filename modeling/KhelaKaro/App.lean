import KhelaKaro.Api
import KhelaKaro.DateText

/-! # The app

The view controllers of the app as far as they reach the API: the four sport screens, the profile screen and the form
of the registration screen. Layout and alerts that depend on nothing are left out. -/

namespace KhelaKaro

/-! ## The sport screens

`BadmintonViewController`, `TennisViewController`, `TableTennisViewController` and `FootballViewController` differ in
the identity of their facility alone. -/

inductive Screen where
  | badminton
  | tennis
  | tableTennis
  | football
  deriving DecidableEq

namespace Screen

def facilityId : Screen → String
  | badminton => "1"
  | tennis => "2"
  | tableTennis => "3"
  | football => "4"

/-- The label that the profile screen gives to a booking. -/
def sport : Screen → String
  | badminton => "Badminton"
  | tennis => "Tennis"
  | tableTennis => "Table Tennis"
  | football => "Football"

end Screen

/-- `parameters` of `bookCourt`, as the body of the request -/
def bookCourt (facilityId startDateTime email : String) : Json :=
  .obj [("facilityId", .str facilityId), ("startDateTime", .str startDateTime), ("email", .str email)]

/-- `dateFormat = "MMM dd YYYY HH:mm:00"` -/
def startFormat : List Field :=
  [.MMM, .text " ", .dd, .text " ", .YYYY, .text " ", .HH, .text ":", .mm, .text ":00"]

/-- `dateInput`, for the date of the picker -/
def dateInput (z : Zone) (date : Date) : String := dateFormatter startFormat z date.time

/-- `Int(timeHr)` -/
def timeHrInt (z : Zone) (date : Date) : Option Nat :=
  match number (dateFormatter [.HH] z date.time).toList with
  | some (n, []) => some n
  | _ => none

/-! ## The profile screen -/

/-- `parameters` of `fetchData`, as the body of the request -/
def profileParameters (email : String) : Json := .obj [("email", .str email)]

/-- A row of the table, with the start in place of the two texts made from it. An answer may hold the start as a date, a
    text or any JSON. -/
structure SportRow (δ : Type) where
  sport : String
  startDateTime : δ
  deriving DecidableEq

abbrev BookingRow := SportRow Date

/-- `maxPlayed` of the numbers of bookings -/
def maxPlayed (badminton tennis tableTennis football : Nat) : String :=
  if badminton ≥ tennis ∧ badminton ≥ tableTennis ∧ badminton ≥ football then "Badminton"
  else if tennis ≥ badminton ∧ tennis ≥ tableTennis ∧ tennis ≥ football then "Tennis"
  else if tableTennis ≥ badminton ∧ tableTennis ≥ tennis ∧ tableTennis ≥ football then "Table Tennis"
  else if football ≥ badminton ∧ football ≥ tableTennis ∧ football ≥ tennis then "Football"
  else ""

/-- What `fetchData` makes of the starts of the four sports: the rows, `maxPlayed` and `length`. -/
def sportTable {δ : Type} (badminton tennis tableTennis football : List δ) : List (SportRow δ) × String × Nat :=
  (badminton.map (⟨"Badminton", ·⟩) ++ tennis.map (⟨"Tennis", ·⟩) ++ tableTennis.map (⟨"Table Tennis", ·⟩) ++
      football.map (⟨"Football", ·⟩),
    maxPlayed badminton.length tennis.length tableTennis.length football.length,
    badminton.length + tennis.length + tableTennis.length + football.length)

theorem mem_sportTable {δ : Type} {s1 s2 s3 s4 : List δ} {row : SportRow δ} (h : row ∈ (sportTable s1 s2 s3 s4).1) :
    row.startDateTime ∈ s1 ++ s2 ++ s3 ++ s4 := by
  simp only [sportTable, List.mem_append, List.mem_map] at h ⊢
  rcases h with ((⟨d, hd, rfl⟩ | ⟨d, hd, rfl⟩) | ⟨d, hd, rfl⟩) | ⟨d, hd, rfl⟩
  · exact Or.inl (Or.inl (Or.inl hd))
  · exact Or.inl (Or.inl (Or.inr hd))
  · exact Or.inl (Or.inr hd)
  · exact Or.inr hd

theorem sportTable_map {δ ε : Type} (g : δ → ε) (s1 s2 s3 s4 : List δ) :
    sportTable (s1.map g) (s2.map g) (s3.map g) (s4.map g) =
      ((sportTable s1 s2 s3 s4).1.map fun row => ⟨row.sport, g row.startDateTime⟩, (sportTable s1 s2 s3 s4).2) := by
  simp only [sportTable, List.map_append, List.map_map, List.length_map, Function.comp_def]

/-- `fetchData`, of the answer -/
def fetchData (reply : Reply) : List BookingRow × String × Nat :=
  match reply.body with
  | .object _ _ _ (some data) => sportTable data.s1 data.s2 data.s3 data.s4
  | _ => ([], "", 0)

/-! ## The registration form -/

structure Form where
  firstName : String
  lastName : String
  email : String
  contactNumber : String
  password : String
  rePassword : String

/-- `CharacterSet.whitespacesAndNewlines` -/
def isWhitespaceOrNewline (c : Char) : Bool :=
  c ∈ [' ', '\t', '\n', '\x0b', '\x0c', '\r', '\u0085', '\u00a0', '\u1680', '\u2028', '\u2029', '\u202f', '\u205f',
    '\u3000'] || ('\u2000' ≤ c && c ≤ '\u200a')

/-- `trimmingCharacters(in: .whitespacesAndNewlines)` -/
def trimming (s : String) : String :=
  String.ofList ((s.toList.dropWhile isWhitespaceOrNewline).rdropWhile isWhitespaceOrNewline)

/-- What a Swift `String` owes to the tables of Unicode. -/
class SwiftString where
  /-- `count`, the number of extended grapheme clusters -/
  count : String → Nat
  /-- `==`, up to canonical equivalence -/
  equal : String → String → Bool
  count_digits : ∀ s, (∀ c ∈ s.toList, c.isDigit = true) → count s = s.length
  count_pos : ∀ s, s ≠ "" → 0 < count s
  /-- no cluster goes over from white space to a digit, or from a digit to white space -/
  count_append : ∀ s t c d, s.toList.getLast? = some c → t.toList.head? = some d →
    isWhitespaceOrNewline c ∧ d.isDigit ∨ c.isDigit ∧ isWhitespaceOrNewline d → count (s ++ t) = count s + count t

/-- Strings in which every scalar is a character of its own. -/
instance : SwiftString where
  count := String.length
  equal s t := s == t
  count_digits _ _ := rfl
  count_pos s h := by
    rw [Nat.pos_iff_ne_zero, ne_eq, String.length_eq_zero_iff]
    exact h
  count_append s t _ _ _ _ _ := String.length_append s t

def isLetter (c : Char) : Bool := ('A' ≤ c && c ≤ 'Z') || ('a' ≤ c && c ≤ 'z')

/-- The ways to cut a text in two. -/
def cuts (cs : List Char) : List (List Char × List Char) := (List.range (cs.length + 1)).map cs.splitAt

/-- The text matches `[A-Z0-9a-z._%+-]+@[A-Za-z0-9.-]+\.[A-Za-z]{2,64}`. -/
def isValidEmail (email : String) : Bool :=
  (cuts email.toList).any fun (name, rest) =>
    name ≠ [] && name.all (fun c => isLetter c || c.isDigit || c ∈ ['.', '_', '%', '+', '-']) &&
      match rest with
      | '@' :: rest => (cuts rest).any fun (domain, rest) =>
        domain ≠ [] && domain.all (fun c => isLetter c || c.isDigit || c ∈ ['.', '-']) &&
          match rest with
          | '.' :: rest => 2 ≤ rest.length && rest.length ≤ 64 && rest.all isLetter
          | _ => false
      | _ => false

namespace Form
variable [SwiftString]

/-- `validateFields`: the message, or nil -/
def validateFields (f : Form) : Option String :=
  if trimming f.email = "" ∨ trimming f.firstName = "" ∨ trimming f.lastName = "" ∨ trimming f.password = "" ∨
      trimming f.rePassword = "" ∨ trimming f.contactNumber = "" then some "Please fill in all fields"
  else if isValidEmail f.email = false then some "Please enter valid email"
  else if SwiftString.equal f.password f.rePassword = false then some "Passwords do not match"
  else if SwiftString.count f.password < 6 then some "Password must be atleast 6 characters long"
  else if SwiftString.count f.contactNumber ≠ 10 then some "Enter 10 digit contact number"
  else none

theorem validateFields_eq_none_iff {f : Form} : f.validateFields = none ↔
    (trimming f.email ≠ "" ∧ trimming f.firstName ≠ "" ∧ trimming f.lastName ≠ "" ∧ trimming f.password ≠ "" ∧
      trimming f.rePassword ≠ "" ∧ trimming f.contactNumber ≠ "") ∧
    isValidEmail f.email = true ∧ SwiftString.equal f.password f.rePassword = true ∧
    6 ≤ SwiftString.count f.password ∧ SwiftString.count f.contactNumber = 10 := by
  unfold validateFields
  simp only [ite_eq_iff, reduceCtorEq, and_false, false_or, and_true, not_or, Bool.not_eq_false, not_lt, not_not]

/-- `parameters` of `registerInMongo`, as the body of the request -/
def registerInMongo (f : Form) : Json :=
  .obj [("firstName", .str (trimming f.firstName)), ("lastName", .str (trimming f.lastName)),
    ("email", .str (trimming f.email)), ("contactNumber", .str (trimming f.contactNumber))]

end Form

/-- The values that `registerPressed` sends: the email and the password to Firebase, all but the password to the API. -/
structure CleanedFields where
  firstName : String
  lastName : String
  email : String
  password : String
  phoneNo : String

/-- The cleaned versions of the data -/
def Form.cleaned (f : Form) : CleanedFields :=
  ⟨trimming f.firstName, trimming f.lastName, trimming f.email, trimming f.password, trimming f.contactNumber⟩

end KhelaKaro
