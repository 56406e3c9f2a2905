import KhelaKaro.BookingScreen
import KhelaKaro.IsoText

/-! # Replies on the wire

What `res.json` writes of a reply. -/

namespace KhelaKaro

/-- The starts of one sport: `JSON.stringify` writes a date as its `toISOString()`. -/
def datesJson (dates : List Date) : Json := .arr (dates.map fun d => .str (toISOString d))

def ProfileData.json (data : ProfileData) : Json :=
  .obj [("s1", datesJson data.s1), ("s2", datesJson data.s2), ("s3", datesJson data.s3), ("s4", datesJson data.s4)]

/-- `res.json(...)` of an object. The list of facilities goes to no screen. -/
def Reply.json (r : Reply) : Option Json :=
  match r.body with
  | .object success msg courtNumber data => some (.obj
      ([("success", .bool success)] ++ (courtNumber.map fun court => ("courtNumber", Json.num court)).toList ++
        [("msg", .str msg)] ++ (data.map fun data => ("data", data.json)).toList))
  | .facilities _ => none

theorem Reply.json_msg {r : Reply} {success : Bool} {msg : String} {court : Option Nat} {data : Option ProfileData}
    (h : r.body = .object success msg court data) : ∃ fields, r.json = some (.obj fields) ∧
      (Json.obj fields).prop "msg" = some (.str msg) := by
  refine ⟨_, by rw [Reply.json, h], ?_⟩
  cases court <;> simp [Json.prop, List.lookup_cons]

end KhelaKaro
