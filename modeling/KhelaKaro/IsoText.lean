import KhelaKaro.App
import Mathlib.Data.List.Forall2

/-! # Dates of the profile as text

The two ends of the texts in which the profile answers the starts: `Date.prototype.toISOString`, as `res.json` writes a
date, and `DateFormatter` with the pattern `yyyy-MM-dd'T'HH:mm:ss.000Z`, as `fetchData` reads it. -/

namespace KhelaKaro
open Calendar

/-! ## Writing -/

def millisecond (t : Int) : Nat := (t % 1000).toNat

/-- Four digits, or a sign and six -/
def isoYear (y : Int) : List Char :=
  if 0 ≤ y ∧ y ≤ 9999 then padded 4 y.toNat
  else (if y < 0 then '-' else '+') :: padded 6 y.natAbs

def toISOString (d : Date) : String :=
  String.ofList (isoYear (yearOf (utc.day d.time)) ++ '-' :: (padded 2 (monthOf (utc.day d.time)) ++ '-' ::
    (padded 2 (dayOf (utc.day d.time)) ++ 'T' :: (padded 2 (utc.hour d.time) ++ ':' ::
      (padded 2 (utc.minute d.time) ++ ':' :: (padded 2 (utc.second d.time) ++ '.' ::
        (padded 3 (millisecond d.time) ++ ['Z'])))))))

/-! ## Reading -/

/-- 15 October 1582 -/
def gregorianStart : Int := dayNumber 1582 10 15

/-- The calendar of a `DateFormatter`: the day of a civil date, if there is one. It is Gregorian from `gregorianStart`
    on; what it takes for the dates before is its own. -/
structure FormatterCalendar where
  day : Nat → Nat → Nat → Option Int
  gregorian : ∀ n, gregorianStart ≤ n → day (yearOf n).toNat (monthOf n) (dayOf n) = some n

namespace FormatterCalendar
variable (cal : FormatterCalendar)

/-- `dateFormatter.date(from:)` for `yyyy-MM-dd'T'HH:mm:ss.000Z`: the instant, in milliseconds. Fields are digits, so a
    year with a sign is none, and `.000` is text. -/
def date (s : String) : Option Int := do
  let (year, cs) ← number s.toList
  let (month, cs) ← number (← expect '-' cs)
  let (day, cs) ← number (← expect '-' cs)
  let (hour, cs) ← number (← expect 'T' cs)
  let (minute, cs) ← number (← expect ':' cs)
  let (second, cs) ← number (← expect ':' cs)
  if cs = ['.', '0', '0', '0', 'Z'] ∧ hour < 24 ∧ minute < 60 ∧ second < 60 then
    let n ← cal.day year month day
    some (n * msPerDay + hour * 3600000 + minute * 60000 + second * 1000)
  else none

/-- The body of the loops of `fetchData`, up to the two texts made from `dateInput`. A `dateInput!` that traps is
    `none`. -/
def inputRow (row : SportRow String) : Option (String × Int) :=
  (cal.date row.startDateTime).map fun dateInput => (row.sport, dateInput)

/-- The loops of `fetchData`, over the starts of the answer as it writes them -/
def fetchData (reply : Reply) : Option (List (String × Int)) :=
  (KhelaKaro.fetchData reply).1.mapM fun row => cal.inputRow ⟨row.sport, toISOString row.startDateTime⟩

end FormatterCalendar

/-! ## A calendar -/

def julianMonthStart (y month : Nat) : Int := monthStart (if y % 4 = 0 then 4 else 1) month

/-- The day of a date of the Julian calendar. -/
def julianDay (y month day : Nat) : Int :=
  365 * ((y : Int) - 1) + ((y : Int) - 1) / 4 - 719164 + julianMonthStart y month + day - 1

theorem yearOf_pos {n : Int} (h : gregorianStart ≤ n) : 1 ≤ yearOf n := by
  have hstart : yearStart 1 ≤ gregorianStart := by decide
  exact le_yearOf_iff.mpr (hstart.trans h)

/-- The calendar that changes over from Julian to Gregorian dates, with no date for the days in between. -/
def changeover : FormatterCalendar where
  day y month day :=
    if y = 0 ∨ month = 0 ∨ 12 < month ∨ day = 0 then none
    else if gregorianStart ≤ dayNumber y month day then
      if day ≤ monthStart y (month + 1) - monthStart y month then some (dayNumber y month day) else none
    else if day ≤ julianMonthStart y (month + 1) - julianMonthStart y month ∧
        julianDay y month day < gregorianStart then
      some (julianDay y month day)
    else none
  gregorian n h := by
    obtain ⟨⟨hm₁, hm₂⟩, -, hhigh⟩ := monthOf_spec n
    have hday := dayOf_spec n
    have hpos := yearOf_pos h
    have hyear : ((yearOf n).toNat : Int) = yearOf n := Int.toNat_of_nonneg (by omega)
    have hfields := dayNumber_fields n
    rw [hyear, hfields, if_neg (by omega), if_pos h, if_pos]
    unfold dayNumber at hfields
    omega

end KhelaKaro
