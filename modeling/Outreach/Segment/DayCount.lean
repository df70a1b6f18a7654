import Outreach.Json.Basic
import Outreach.Text.Blank
import Outreach.Time.Instant

/-!
# Day counts

A rule about the last purchase counts days back from the present. A whole number is a day count, a
float is cut to its whole part, and a text counts by the integer at its start, after blanks and
one sign. Numbers beyond 64 bits are cut to the nearest that fits, while a text whose integer
does not fit is no day count.
-/

namespace Outreach.Segment

def minWord : Int := -(Int.pow 2 63)

def maxWord : Int := Int.pow 2 63 - 1

/-- The nearest 64-bit integer. -/
def clampWord (z : Int) : Int :=
  max minWord (min z maxWord)

def digitsValue (ds : List Char) : Nat :=
  ds.foldl (fun n c => 10 * n + (c.toNat - '0'.toNat)) 0

/-- The number that the digits at the start of a text denote. -/
def leadingNat? (cs : List Char) : Option Nat :=
  match cs.takeWhile Char.isDigit with
  | [] => none
  | ds => some (digitsValue ds)

def withinWord? (z : Int) : Option Int :=
  if minWord ≤ z ∧ z ≤ maxWord then some z else none

/-- The integer at the start of a text, after blanks. -/
def startingInteger? (cs : List Char) : Option Int :=
  match Text.dropLeading cs with
  | '-' :: rest => (leadingNat? rest).bind fun n => withinWord? (-(n : Int))
  | '+' :: rest => (leadingNat? rest).bind fun n => withinWord? n
  | rest => (leadingNat? rest).bind fun n => withinWord? n

/-- The number of days that a value stands for. -/
def dayCount? : Json → Option Int
  | .int z => some (clampWord z)
  | .float x => (Decimal.truncate? x).map clampWord
  | .text s => startingInteger? s.toList
  | _ => none

/-- The instant that lies the given number of days before the present. -/
def cutoff? (value : Json) (now : Instant) : Option Instant :=
  (dayCount? value).bind now.subDays?

/-- True and the text of it are taken for true, everything else for false. -/
def truthOf : Json → Bool
  | .bool b => b
  | .text s => s == "true"
  | _ => false

end Outreach.Segment
