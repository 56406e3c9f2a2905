import KhelaKaro.Store

/-! # Query values

Mongoose as the API configures it, on the values a request can put into a filter: a plain value asks for equality, an
array for one of its elements, and an object whose keys start with a dollar sign is a conjunction of operators.
Operators other than comparisons, `$in`, `$nin` and `$exists` are left out. -/

namespace KhelaKaro
namespace Query

def castString : Json → Option (Option String)
  | .null => some none
  | .bool b => some (some (if b then "true" else "false"))
  | .num q => some (some (numberToString q))
  | .str s => some (some s)
  | .arr _ => none
  | .obj fields =>
    match fields.lookup "_id" with
    | some (.str s) => if s = "" then none else some (some s)
    | _ => none

/-- The cast of a value that is no document -/
def castPlainNumber : Json → Option (Option ℚ)
  | .null => some none
  | .bool b => some (some (if b then 1 else 0))
  | .num q => some (some q)
  | .str s =>
    if s = "" then some none else
      match stringToNumber s with
      | .val q => some (some q)
      | .nan => none
  | .arr _ | .obj _ => none

/-- An object with an `_id` is cast as the document with that identity. -/
def castNumber : Json → Option (Option ℚ)
  | .obj fields => (fields.lookup "_id").bind castPlainNumber
  | v => castPlainNumber v

/-- The cast to `ObjectId`, of the 24 hexadecimal digits of an identity -/
def castObjectId : Json → Option (Option ObjectId)
  | .null => some none
  | .str s =>
    if s.length = 24 ∧ s.toList.all (digitValue · < 16) then
      some (some ⟨s.toList.foldl (fun v c => v * 16 + digitValue c) 0⟩)
    else none
  | _ => none

section Filter
variable {α : Type} [DecidableEq α] (cast : Json → Option (Option α)) (lt : α → α → Bool)

/-- A comparison holds between two values, and never with null. -/
def compare (r : α → α → Bool) : Option α → Option α → Bool
  | some a, some b => r a b
  | _, _ => false

/-- The stored values that an operator admits. -/
def operator (name : String) (v : Json) : Option (Option α → Bool) :=
  match name with
  | "$eq" => (cast v).map fun a x => x == a
  | "$ne" => (cast v).map fun a x => x != a
  | "$gt" => (cast v).map fun a x => compare lt a x
  | "$gte" => (cast v).map fun a x => compare lt a x || x == a
  | "$lt" => (cast v).map fun a x => compare lt x a
  | "$lte" => (cast v).map fun a x => compare lt x a || x == a
  | "$in" =>
    match v with
    | .arr vs => (vs.mapM cast).map fun as x => as.contains x
    | v => (cast v).map fun a x => x == a
  | "$nin" =>
    match v with
    | .arr vs => (vs.mapM cast).map fun as x => !as.contains x
    | v => (cast v).map fun a x => x != a
  | "$exists" =>
    match v with
    | .bool b => some fun x => x.isSome == b
    | _ => none
  | _ => none

/-- The stored values that the value of a filter admits. -/
def filter : Json → Option (Option α → Bool)
  | .arr vs => (vs.mapM cast).map fun as x => as.contains x
  | .obj fields =>
    if fields.any fun field => field.1.toList.head? == some '$' then
      (fields.mapM fun field => operator cast lt field.1 field.2).map fun ps x => ps.all (· x)
    else (cast (.obj fields)).map fun a x => x == a
  | v => (cast v).map fun a x => x == a

end Filter
end Query

/-- Mongoose 6 without `sanitizeFilter` -/
def mongoose6 : Mongoose where
  emailFilter v := (Query.filter Query.castString (fun a b => a < b) v).map fun p e => p (some e)
  emailFilter_str s := by
    simp only [Query.filter, Query.castString, Option.map_some, Option.some_beq_some]
  facilityIdFilter := Query.filter Query.castNumber fun a b => a < b
  facilityIdFilter_num q := rfl
  facilityIdFilter_str s q hq hs := by
    simp only [Query.filter, Query.castNumber, Query.castPlainNumber, hs, ↓reduceIte, hq, Option.map_some]
  refFilter v := (Query.filter Query.castObjectId (fun a b => a.val < b.val) v).map fun p i => p (some i)
  castString := Query.castString
  castString_str s := rfl
  castNumber := Query.castNumber
  castNumber_num q := rfl

/-! ## A small club

Two users and one facility for each sport, before the first booking. -/

def homePlayer : User := ⟨⟨1⟩, "Home", "Player", "home@club.test", none⟩

def awayPlayer : User := ⟨⟨2⟩, "Away", "Player", "away@club.test", none⟩

def clubFacilities : List Facility :=
  [⟨⟨1⟩, some 1, some "Badminton", some 2⟩, ⟨⟨2⟩, some 2, some "Tennis", some 2⟩,
    ⟨⟨3⟩, some 3, some "Table Tennis", some 4⟩, ⟨⟨4⟩, some 4, some "Football", some 1⟩]

def club : Db := ⟨⟨[homePlayer, awayPlayer], by decide⟩, ⟨clubFacilities, by decide⟩, []⟩

end KhelaKaro
