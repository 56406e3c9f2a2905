import KhelaKaro.Calendar
import KhelaKaro.Ecma
import Mathlib.Data.List.GetD
import Mathlib.Data.Nat.Log

/-! # Dates as text

The two ends of the text in which the app sends a start: `DateFormatter` with its field patterns, and the texts
`Mon dd yyyy HH:mm:ss` that `new Date` reads as local civil time. Both ends use one zone of constant offset. -/

namespace KhelaKaro
open Calendar

/-- A time zone of constant offset, in minutes east of UTC. -/
structure Zone where
  minutes : Int
  bounded : minutes.natAbs < 24 * 60

def msPerDay : Int := 86400000

namespace Zone
variable (z : Zone) (t : Int)

/-- The civil clock of the zone at instant `t`, in milliseconds. -/
def clock : Int := t + z.minutes * 60000

def day : Int := z.clock t / msPerDay
def hour : Nat := (z.clock t % msPerDay / 3600000).toNat
def minute : Nat := (z.clock t % msPerDay / 60000 % 60).toNat
def second : Nat := (z.clock t % msPerDay / 1000 % 60).toNat

end Zone

/-! ## Digits -/

def digitChar (n : Nat) : Char := Char.ofNat (48 + n)

/-- The last `w` decimal digits of `n`. -/
def padded : Nat → Nat → List Char
  | 0, _ => []
  | w + 1, n => padded w (n / 10) ++ [digitChar (n % 10)]

/-- All decimal digits of `n`, and at least `w`. -/
def decimals (w n : Nat) : List Char := padded (max w (Nat.log 10 n + 1)) n

theorem digitChar_spec {n : Nat} (h : n < 10) : (digitChar n).isDigit = true ∧ (digitChar n).toNat - 48 = n := by
  interval_cases n <;> decide

/-- Reading digits takes up the digits written. -/
theorem digits_padded (w n v k : Nat) (rest : List Char) :
    digits (padded w n ++ rest) v k = digits rest (v * 10 ^ w + n % 10 ^ w) (k + w) := by
  induction w generalizing n rest with
  | zero => simp [padded, Nat.mod_one]
  | succ w ih =>
    obtain ⟨hdigit, hvalue⟩ := digitChar_spec (Nat.mod_lt n (by decide : 0 < 10))
    have hmod : n % 10 ^ (w + 1) = n % 10 + 10 * (n / 10 % 10 ^ w) := by
      rw [Nat.pow_succ', Nat.mod_mul]
    rw [padded, List.append_assoc, ih, List.singleton_append, digits, if_pos hdigit, hvalue, hmod]
    congr 1
    rw [Nat.pow_succ']
    ring

theorem digits_stop {c : Char} (hc : c.isDigit = false) (v k : Nat) (rest : List Char) :
    digits (c :: rest) v k = (v, k, c :: rest) := by
  simp [digits, hc]

/-! ## Formatting -/

def monthNames : List (List Char) :=
  ["Jan", "Feb", "Mar", "Apr", "May", "Jun", "Jul", "Aug", "Sep", "Oct", "Nov", "Dec"].map String.toList

def monthName (month : Nat) : List Char := monthNames.getD (month - 1) []

/-- The fields of a `dateFormat`. `YYYY` is the year of the week, `yyyy` the calendar year. -/
inductive Field where
  | MMM | dd | YYYY | yyyy | HH | mm | ss
  | text (s : String)

def Field.write (z : Zone) (t : Int) : Field → List Char
  | MMM => monthName (monthOf (z.day t))
  | dd => padded 2 (dayOf (z.day t))
  | YYYY => decimals 4 (weekYear (z.day t)).toNat
  | yyyy => decimals 4 (yearOf (z.day t)).toNat
  | HH => padded 2 (z.hour t)
  | mm => padded 2 (z.minute t)
  | ss => padded 2 (z.second t)
  | text s => s.toList

/-- `dateFormatter.string(from:)` in the locale `en_US_POSIX` -/
def dateFormatter (dateFormat : List Field) (z : Zone) (t : Int) : String :=
  String.ofList (dateFormat.flatMap (·.write z t))

/-! ## Reading -/

def expect (c : Char) : List Char → Option (List Char)
  | [] => none
  | d :: cs => if d = c then some cs else none

def number (cs : List Char) : Option (Nat × List Char) :=
  match digits cs 0 0 with
  | (_, 0, _) => none
  | (v, _, rest) => some (v, rest)

def readMonth : List Char → Option (Nat × List Char)
  | a :: b :: c :: cs => (monthNames.idxOf? [a, b, c]).map fun i => (i + 1, cs)
  | _ => none

structure Civil where
  year : Nat
  month : Nat
  day : Nat
  hour : Nat
  minute : Nat
  second : Nat
  deriving DecidableEq

namespace Civil

structure Valid (c : Civil) : Prop where
  year : 1000 ≤ c.year
  month : 1 ≤ c.month ∧ c.month ≤ 12
  day : 1 ≤ c.day ∧ c.day ≤ 31
  hour : c.hour < 24
  minute : c.minute < 60
  second : c.second < 60

/-- `Mon dd yyyy HH:mm:ss` -/
def text (c : Civil) : List Char :=
  monthName c.month ++ ' ' :: (padded 2 c.day ++ ' ' :: (decimals 4 c.year ++ ' ' :: (padded 2 c.hour ++ ':' ::
    (padded 2 c.minute ++ ':' :: padded 2 c.second))))

def time (z : Zone) (c : Civil) : Int :=
  dayNumber c.year c.month c.day * msPerDay + c.hour * 3600000 + c.minute * 60000 + c.second * 1000 -
    z.minutes * 60000

end Civil

/-- A text `Mon dd yyyy HH:mm:ss`, read back. -/
def readCivil (s : String) : Option Civil := do
  let (month, cs) ← readMonth s.toList
  let (day, cs) ← number (← expect ' ' cs)
  let (year, cs) ← number (← expect ' ' cs)
  let (hour, cs) ← number (← expect ' ' cs)
  let (minute, cs) ← number (← expect ':' cs)
  let (second, cs) ← number (← expect ':' cs)
  if cs = [] then some ⟨year, month, day, hour, minute, second⟩ else none

/-- The engine runs in zone `z`: it reads the texts `Mon dd yyyy HH:mm:ss` as civil times of the zone. -/
def Runtime.ReadsCivil (rt : Runtime) (z : Zone) : Prop :=
  ∀ c : Civil, c.Valid → rt.parse (String.ofList c.text) = timeClip (c.time z)

theorem number_padded {w n : Nat} (hw : w ≠ 0) (hn : n < 10 ^ w) {c : Char} (hc : c.isDigit = false)
    (rest : List Char) : number (padded w n ++ c :: rest) = some (n, c :: rest) := by
  unfold number
  rw [digits_padded, digits_stop hc, Nat.zero_mul, Nat.zero_add, Nat.zero_add, Nat.mod_eq_of_lt hn]
  obtain ⟨w, rfl⟩ := Nat.exists_eq_succ_of_ne_zero hw
  rfl

theorem number_decimals (w n : Nat) {c : Char} (hc : c.isDigit = false) (rest : List Char) :
    number (decimals w n ++ c :: rest) = some (n, c :: rest) := by
  refine number_padded (by omega) (lt_of_lt_of_le (Nat.lt_pow_succ_log_self (show 1 < 10 by decide) n) ?_) hc rest
  exact Nat.pow_le_pow_right (by decide) (le_max_right _ _)

theorem number_end {w n : Nat} (hw : w ≠ 0) (hn : n < 10 ^ w) : number (padded w n) = some (n, []) := by
  have h := digits_padded w n 0 0 []
  rw [List.append_nil, Nat.zero_mul, Nat.zero_add, Nat.zero_add, Nat.mod_eq_of_lt hn] at h
  unfold number
  rw [h]
  obtain ⟨w, rfl⟩ := Nat.exists_eq_succ_of_ne_zero hw
  rfl

theorem readMonth_monthName {month : Nat} (h₁ : 1 ≤ month) (h₂ : month ≤ 12) (cs : List Char) :
    readMonth (monthName month ++ cs) = some (month, cs) := by
  interval_cases month <;> rfl

theorem expect_self (c : Char) (cs : List Char) : expect c (c :: cs) = some cs := if_pos rfl

theorem some_bind {α β : Type} (a : α) (f : α → Option β) : (some a >>= f) = f a := rfl

/-- A separator and the field behind it -/
theorem expect_number {w n : Nat} (hw : w ≠ 0) (hn : n < 10 ^ w) (c : Char) {d : Char} (hd : d.isDigit = false)
    (rest : List Char) {β : Type} (f : Nat × List Char → Option β) :
    (expect c (c :: (padded w n ++ d :: rest)) >>= fun cs => number cs >>= f) = f (n, d :: rest) := by
  rw [expect_self, some_bind, number_padded hw hn hd, some_bind]

theorem readCivil_text {c : Civil} (h : c.Valid) : readCivil (String.ofList c.text) = some c := by
  have htwo : ∀ n, n < 60 → n < 10 ^ 2 := by omega
  have hday : c.day < 60 := by
    have := h.day
    omega
  have hhour : c.hour < 60 := h.hour.trans (by decide)
  unfold readCivil Civil.text
  rw [String.toList_ofList, readMonth_monthName h.month.1 h.month.2, some_bind]
  dsimp only
  rw [expect_number two_ne_zero (htwo _ hday) ' ' (by decide)]
  dsimp only
  rw [expect_self, some_bind, number_decimals 4 c.year (by decide), some_bind]
  dsimp only
  rw [expect_number two_ne_zero (htwo _ hhour) ' ' (by decide)]
  dsimp only
  rw [expect_number two_ne_zero (htwo _ h.minute) ':' (by decide)]
  dsimp only
  rw [expect_self, some_bind, number_end two_ne_zero (htwo _ h.second), some_bind]
  dsimp only
  rw [if_pos rfl]

/-! ## An engine -/

def weekdayNames : List String := ["Sun", "Mon", "Tue", "Wed", "Thu", "Fri", "Sat"]

/-- An engine that runs in the zone and reads no other texts as dates. -/
def Zone.runtime (z : Zone) : Runtime where
  parse s := (readCivil s).bind fun c => timeClip (c.time z)
  numberToString := KhelaKaro.numberToString
  dateToString d :=
    weekdayNames.getD (weekday (z.day d.time)).toNat "" ++ dateFormatter
      [.text " ", .MMM, .text " ", .dd, .text " ", .yyyy, .text " ", .HH, .text ":", .mm, .text ":", .ss] z d.time
  dateToString_weekday d := by
    have hlt : (weekday (z.day d.time)).toNat < weekdayNames.length := by
      have : weekday (z.day d.time) < 7 := Int.emod_lt_of_pos _ (by decide)
      simp only [weekdayNames, List.length_cons, List.length_nil]
      omega
    rw [List.getD_eq_getElem weekdayNames "" hlt]
    exact ⟨_, List.getElem_mem hlt, _, rfl⟩

theorem Zone.readsCivil (z : Zone) : z.runtime.ReadsCivil z := fun c h => by
  simp only [Zone.runtime, readCivil_text h, Option.bind_some]

def utc : Zone := ⟨0, by decide⟩

end KhelaKaro
