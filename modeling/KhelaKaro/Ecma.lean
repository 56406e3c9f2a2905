import Mathlib.Algebra.Order.Ring.Rat
import Mathlib.Data.Int.Log
import Mathlib.Data.List.DropRight
import Mathlib.Data.Rat.Floor
import Mathlib.Tactic.Linarith

/-! # ECMAScript values

The values and coercions of the language that the API relies on: JSON values as `express.json` hands them over,
numbers with NaN, dates as time values, and the conversions between them. Numbers are exact rationals; the
infinities and the rounding of doubles are left out. What the standard leaves to the implementation is a
parameter (`Runtime`). -/

namespace KhelaKaro

inductive JsError where
  | typeError
  | castError
  | validationError
  | duplicateKey
  | unavailable
  deriving DecidableEq

theorem ok_bind {α β : Type} (a : α) (f : α → Except JsError β) : (Except.ok a >>= f) = f a := rfl

theorem error_bind {α β : Type} (e : JsError) (f : α → Except JsError β) : (Except.error e >>= f) = .error e := rfl

/-! ## Numbers -/

inductive Number where
  | nan
  | val (q : ℚ)
  deriving DecidableEq

namespace Number

def lift₂ (f : ℚ → ℚ → ℚ) : Number → Number → Number
  | val a, val b => val (f a b)
  | _, _ => nan

instance : Add Number := ⟨lift₂ (· + ·)⟩
instance : Sub Number := ⟨lift₂ (· - ·)⟩
instance : Mul Number := ⟨lift₂ (· * ·)⟩
instance : Div Number := ⟨lift₂ (· / ·)⟩
instance (n : Nat) : OfNat Number n := ⟨val n⟩

def abs : Number → Number
  | val a => val |a|
  | nan => nan

def le : Number → Number → Bool
  | val a, val b => a ≤ b
  | _, _ => false

def lt : Number → Number → Bool
  | val a, val b => a < b
  | _, _ => false

@[simp] theorem val_add (a b : ℚ) : val a + val b = val (a + b) := rfl
@[simp] theorem val_sub (a b : ℚ) : val a - val b = val (a - b) := rfl
@[simp] theorem val_mul (a b : ℚ) : val a * val b = val (a * b) := rfl
@[simp] theorem val_div (a b : ℚ) : val a / val b = val (a / b) := rfl
@[simp] theorem abs_val (a : ℚ) : abs (val a) = val |a| := rfl
@[simp] theorem le_val (a b : ℚ) : le (val a) (val b) = decide (a ≤ b) := rfl
@[simp] theorem le_nan (a : Number) : le a nan = false := by cases a <;> rfl
@[simp] theorem lt_val (a b : ℚ) : lt (val a) (val b) = decide (a < b) := rfl
theorem ofNat_eq (n : Nat) : (OfNat.ofNat n : Number) = val (n : ℚ) := rfl

end Number

/-! ## The number a string denotes -/

def isWhite (c : Char) : Bool :=
  c ∈ [' ', '\t', '\n', '\r', '\x0b', '\x0c', '\u00a0', '\u1680', '\u2028', '\u2029', '\u202f', '\u205f', '\u3000',
    '\ufeff'] || ('\u2000' ≤ c && c ≤ '\u200a')

/-- The digits at the start: their value, how many, and the rest. -/
def digits : List Char → Nat → Nat → Nat × Nat × List Char
  | [], v, n => (v, n, [])
  | c :: cs, v, n => if c.isDigit then digits cs (v * 10 + (c.toNat - 48)) (n + 1) else (v, n, c :: cs)

/-- An exponent part, after its `e`. -/
def exponent (m : ℚ) (cs : List Char) : Number :=
  let (neg, cs) := match cs with
    | '-' :: cs => (true, cs)
    | '+' :: cs => (false, cs)
    | cs => (false, cs)
  match digits cs 0 0 with
  | (_, 0, _) => .nan
  | (v, _, []) => .val (if neg then m / 10 ^ v else m * 10 ^ v)
  | _ => .nan

/-- An unsigned decimal literal: digits, a fraction and an exponent, with a digit before or after the point. -/
def decimal (cs : List Char) : Number :=
  let (i, ni, rest) := digits cs 0 0
  let (f, nf, rest) := match rest with
    | '.' :: rest => digits rest 0 0
    | rest => (0, 0, rest)
  if ni + nf = 0 then .nan else
    let m : ℚ := i + f / 10 ^ nf
    match rest with
    | [] => .val m
    | c :: rest => if c = 'e' ∨ c = 'E' then exponent m rest else .nan

def digitValue (c : Char) : Nat :=
  if c.isDigit then c.toNat - 48
  else if 'a' ≤ c ∧ c ≤ 'f' then c.toNat - 87
  else if 'A' ≤ c ∧ c ≤ 'F' then c.toNat - 55
  else 16

def radix (base : Nat) (cs : List Char) : Number :=
  if cs = [] ∨ cs.any fun c => base ≤ digitValue c then .nan
  else .val ((cs.foldl (fun v c => v * base + digitValue c) 0 : Nat) : ℚ)

/-- `Number(s)` -/
def stringToNumber (s : String) : Number :=
  match (s.toList.dropWhile isWhite).rdropWhile isWhite with
  | [] => 0
  | '0' :: 'x' :: cs | '0' :: 'X' :: cs => radix 16 cs
  | '0' :: 'o' :: cs | '0' :: 'O' :: cs => radix 8 cs
  | '0' :: 'b' :: cs | '0' :: 'B' :: cs => radix 2 cs
  | '-' :: cs => 0 - decimal cs
  | '+' :: cs => decimal cs
  | cs => decimal cs

/-! ## The string of a number -/

/-- `String(q)`, of a positive number. It has the 17 digits that a double may need, less the zeros at their end; the
    point is after the first `n` of them. -/
def positiveToString (q : ℚ) : List Char :=
  let e := Int.log 10 q
  let ds := Nat.toDigits 10 ⌊q * 10 ^ (16 - e).toNat / 10 ^ (e - 16).toNat + 1 / 2⌋₊
  let n := e + ds.length - 16
  let ds := ds.rdropWhile (· = '0')
  if ds.length ≤ n ∧ n ≤ 21 then ds ++ List.replicate (n.toNat - ds.length) '0'
  else if 0 < n ∧ n ≤ 21 then ds.take n.toNat ++ '.' :: ds.drop n.toNat
  else if -6 < n ∧ n ≤ 0 then '0' :: '.' :: (List.replicate n.natAbs '0' ++ ds)
  else
    let fraction := if ds.length = 1 then [] else '.' :: ds.drop 1
    ds.take 1 ++ fraction ++ 'e' :: (if 0 < n then '+' else '-') :: Nat.toDigits 10 (n - 1).natAbs

/-- `String(q)` -/
def numberToString (q : ℚ) : String :=
  if q = 0 then "0"
  else String.ofList (if q < 0 then '-' :: positiveToString (-q) else positiveToString q)

example : [0, 1, 3 / 2, -1200, 1 / 8, 10 ^ 21, 12 / 10 ^ 8].map numberToString =
    ["0", "1", "1.5", "-1200", "0.125", "1e+21", "1.2e-7"] := by decide +kernel

/-! ## Dates -/

/-- The largest time value, in milliseconds on either side of the epoch. -/
def maxTime : Nat := 8640000000000000

/-- A valid `Date`: its time value in milliseconds. An invalid one is `none` of `Option Date`. -/
@[ext] structure Date where
  time : Int
  valid : time.natAbs ≤ maxTime
  deriving DecidableEq

def getTime : Option Date → Number
  | none => .nan
  | some d => .val d.time

theorem tdiv_natAbs_le {q : ℚ} {n : Nat} (h : |q| ≤ n) : (q.num.tdiv q.den).natAbs ≤ n := by
  have hden : (0 : ℚ) < q.den := by exact_mod_cast q.den_pos
  have hnum : (q.num.natAbs : ℚ) ≤ n * q.den := by
    have : |q| = q.num.natAbs / q.den := by
      conv_lhs => rw [← Rat.num_div_den q]
      rw [abs_div, abs_of_pos hden, Nat.cast_natAbs, Int.cast_abs]
    rw [this, div_le_iff₀ hden] at h
    exact h
  have hnum : q.num.natAbs ≤ n * q.den := by exact_mod_cast hnum
  rw [Int.natAbs_tdiv, Int.natAbs_natCast]
  exact Nat.div_le_of_le_mul (by rw [mul_comm]; exact hnum)

/-- The date of a number: it is invalid out of range, and a fraction of a millisecond is dropped. -/
def timeClip (q : ℚ) : Option Date :=
  if h : |q| ≤ (maxTime : ℚ) then some ⟨q.num.tdiv q.den, tdiv_natAbs_le h⟩ else none

def Number.toDate : Number → Option Date
  | .nan => none
  | .val q => timeClip q

theorem timeClip_int (t : Int) : timeClip t = if h : t.natAbs ≤ maxTime then some ⟨t, h⟩ else none := by
  have hiff : |(t : ℚ)| ≤ (maxTime : ℚ) ↔ t.natAbs ≤ maxTime := by
    rw [← Int.cast_abs, ← Int.natCast_natAbs]
    norm_cast
  unfold timeClip
  by_cases h : t.natAbs ≤ maxTime
  · simp [h, hiff.mpr h]
  · simp [h, mt hiff.mp h]

/-- What ECMAScript leaves to the engine and to the server's time zone. -/
structure Runtime where
  /-- `Date.parse`, whose formats beyond ISO are the engine's own -/
  parse : String → Option Date
  numberToString : ℚ → String
  /-- `Date.prototype.toString`, in the server's time zone -/
  dateToString : Date → String
  /-- it starts with the name of the weekday -/
  dateToString_weekday : ∀ d, ∃ w ∈ ["Sun", "Mon", "Tue", "Wed", "Thu", "Fri", "Sat"], ∃ rest,
    dateToString d = w ++ rest

/-- A primitive operand of a comparison. -/
inductive Prim where
  | num (n : Number)
  | str (s : String)

def Prim.toNumber : Prim → Number
  | .num n => n
  | .str s => stringToNumber s

/-- `d + n`: a `Date` operand of `+` becomes its string, so the sum is a concatenation. -/
def datePlus (rt : Runtime) (d : Date) (n : ℚ) : Prim := .str (rt.dateToString d ++ rt.numberToString n)

/-! ## JSON values -/

inductive Json where
  | null
  | bool (b : Bool)
  | num (q : ℚ)
  | str (s : String)
  | arr (xs : List Json)
  | obj (fields : List (String × Json))

namespace Json

/-- `v.key` of a value other than null; `none` is `undefined` -/
def prop : Json → String → Option Json
  | obj fields, key => fields.lookup key
  | _, _ => none

/-- `v.key`, which throws on `undefined` and null -/
def get (v : Option Json) (key : String) : Except JsError (Option Json) :=
  match v with
  | none | some null => .error .typeError
  | some v => .ok (v.prop key)

mutual

/-- `String(v)`. An own property `toString` of a JSON object is no function, and then no conversion is left. -/
def toText (rt : Runtime) : Json → Except JsError String
  | null => .ok "null"
  | bool b => .ok (if b then "true" else "false")
  | num q => .ok (rt.numberToString q)
  | str s => .ok s
  | arr xs => (joinTexts rt xs).map (",".intercalate ·)
  | obj fields => if (fields.lookup "toString").isSome then .error .typeError else .ok "[object Object]"

/-- The elements of an array as `join` writes them: null is empty. -/
def joinTexts (rt : Runtime) : List Json → Except JsError (List String)
  | [] => .ok []
  | null :: xs => (joinTexts rt xs).map ("" :: ·)
  | x :: xs =>
    match toText rt x with
    | .error e => .error e
    | .ok s => (joinTexts rt xs).map (s :: ·)

end

end Json

/-- `new Date(v)` -/
def newDate (rt : Runtime) : Option Json → Except JsError (Option Date)
  | none => .ok none
  | some .null => .ok (timeClip 0)
  | some (.bool b) => .ok (timeClip (if b then 1 else 0))
  | some (.num q) => .ok (timeClip q)
  | some v => (v.toText rt).map rt.parse

/-! ## The sum of a date and a number is no number -/

theorem decimal_letter {c : Char} {cs : List Char} (hd : c.isDigit = false) (hp : c ≠ '.') :
    decimal (c :: cs) = .nan := by
  unfold decimal
  simp only [digits, hd, Bool.false_eq_true, ↓reduceIte]
  split
  · rename_i h
    cases h
    exact absurd rfl hp
  · simp

/-- A text denotes no number when it starts with neither a blank, a digit, a sign nor a point. -/
theorem stringToNumber_nan {s : String} {c : Char} {cs : List Char} (hs : s.toList = c :: cs)
    (hw : isWhite c = false) (hd : c.isDigit = false) (hc : c ∉ ['+', '-', '.']) : stringToNumber s = .nan := by
  simp only [List.mem_cons, List.not_mem_nil, or_false, not_or] at hc
  have hzero : c ≠ '0' := by
    rintro rfl
    simp at hd
  -- Trimming keeps the first character, which no other literal starts with.
  obtain ⟨cs', htrim⟩ : ∃ cs', (s.toList.dropWhile isWhite).rdropWhile isWhite = c :: cs' := by
    rw [hs, List.dropWhile_cons_of_neg (by simp [hw])]
    rcases h : (c :: cs).rdropWhile isWhite with _ | ⟨c', cs'⟩
    · have := List.rdropWhile_eq_nil_iff.mp h c List.mem_cons_self
      simp [hw] at this
    · have hpre := List.rdropWhile_prefix isWhite (l := c :: cs)
      rw [h] at hpre
      obtain ⟨rfl, -⟩ := List.cons_prefix_cons.mp hpre
      exact ⟨cs', rfl⟩
  unfold stringToNumber
  rw [htrim]
  split
  case h_10 => exact decimal_letter hd hc.2.2
  all_goals rename_i h; simp_all

/-- The text of a date denotes no number, whatever follows it. -/
theorem datePlus_toNumber (rt : Runtime) (d : Date) (n : ℚ) : (datePlus rt d n).toNumber = .nan := by
  obtain ⟨w, hw, rest, h⟩ := rt.dateToString_weekday d
  simp only [datePlus, Prim.toNumber, h, String.append_assoc]
  simp only [List.mem_cons, List.not_mem_nil, or_false] at hw
  rcases hw with rfl | rfl | rfl | rfl | rfl | rfl | rfl <;>
    exact stringToNumber_nan (String.toList_append ..) (by decide) (by decide) (by decide)

end KhelaKaro
