/-!
# Calendar days

Days are counted from the first of January 1970. The conversions between a count and a date of the
Gregorian calendar treat a year as beginning in March, so that a leap day ends the year, and work
in cycles of 400 years, which all have the same number of days.
-/

namespace Outreach.Time

structure Date where
  year : Int
  month : Nat
  day : Nat
  deriving DecidableEq, Repr

def isLeapYear (y : Int) : Bool :=
  y % 4 == 0 && (y % 100 != 0 || y % 400 == 0)

def daysInMonth (y : Int) (m : Nat) : Nat :=
  if m = 2 then (if isLeapYear y then 29 else 28)
  else if m = 4 ∨ m = 6 ∨ m = 9 ∨ m = 11 then 30
  else 31

namespace Date

/-- The day exists in the calendar. -/
def isValid (d : Date) : Bool :=
  decide (1 ≤ d.month) && decide (d.month ≤ 12) && decide (1 ≤ d.day) &&
    decide (d.day ≤ daysInMonth d.year d.month)

/-- Days of the year from March on, before the given month and day. -/
def dayOfYear (d : Date) : Nat :=
  let m := if d.month ≤ 2 then d.month + 9 else d.month - 3
  (153 * m + 2) / 5 + d.day - 1

def toDays (d : Date) : Int :=
  let y := if d.month ≤ 2 then d.year - 1 else d.year
  let cycle := y / 400
  let yearOfCycle := y % 400
  let dayOfCycle := yearOfCycle * 365 + yearOfCycle / 4 - yearOfCycle / 100 + d.dayOfYear
  cycle * 146097 + dayOfCycle - 719468

def ofDays (n : Int) : Date :=
  let z := n + 719468
  let cycle := z / 146097
  let day := (z % 146097).toNat
  let year := (day - day / 1460 + day / 36524 - day / 146096) / 365
  let rest := day - (365 * year + year / 4 - year / 100)
  let m := (5 * rest + 2) / 153
  let month := if m < 10 then m + 3 else m - 9
  let y := (year : Int) + cycle * 400
  ⟨if month ≤ 2 then y + 1 else y, month, rest - (153 * m + 2) / 5 + 1⟩

end Date

end Outreach.Time
