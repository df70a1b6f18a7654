import Outreach.Time.Calendar

/-!
# Dates and times in settings tables

A date, a time of day, or both with an optional offset may stand as a value. Settings have no use
for moments as such, so that one is kept as its text: a T between date and time, no needless zeros
behind the point, nine digits there at most, and a capital Z.
-/

namespace Outreach.Toml

/-- A reader of one part of a moment. It answers the part in its kept form, and what follows it. -/
abbrev MomentPart := List Char → Option (List Char × List Char)

def valueOf (digits : List Char) : Nat :=
  digits.foldl (fun n c => 10 * n + (c.toNat - '0'.toNat)) 0

/-- A number of a fixed count of digits. -/
def digits? (count : Nat) : MomentPart := fun cs =>
  if (cs.takeWhile Char.isDigit).length < count then none
  else some (cs.take count, cs.drop count)

/-- A number of two digits up to a limit. -/
def upTo? (limit : Nat) : MomentPart := fun cs =>
  (digits? 2 cs).filter fun (ds, _) => decide (valueOf ds ≤ limit)

def mark? (c : Char) : List Char → Option (List Char)
  | d :: rest => if d = c then some rest else none
  | [] => none

def date? : MomentPart := fun cs => do
  let (year, rest) ← digits? 4 cs
  let (month, rest) ← digits? 2 (← mark? '-' rest)
  let (day, rest) ← digits? 2 (← mark? '-' rest)
  if (Time.Date.mk (valueOf year) (valueOf month) (valueOf day)).isValid then
    some (year ++ '-' :: month ++ '-' :: day, rest)
  else none

/-- The fraction of a second without zeros at its end. A fraction of nothing is left out. -/
def keptFraction (ds : List Char) : List Char :=
  match ((ds.take 9).reverse.dropWhile (· == '0')).reverse with
  | [] => []
  | kept => '.' :: kept

def fraction? : MomentPart
  | '.' :: rest =>
    match rest.takeWhile Char.isDigit with
    | [] => none
    | ds => some (keptFraction ds, rest.dropWhile Char.isDigit)
  | rest => some ([], rest)

def time? : MomentPart := fun cs => do
  let (hour, rest) ← upTo? 23 cs
  let (minute, rest) ← upTo? 59 (← mark? ':' rest)
  let (second, rest) ← upTo? 60 (← mark? ':' rest)
  let (fraction, rest) ← fraction? rest
  some (hour ++ ':' :: minute ++ ':' :: second ++ fraction, rest)

/-- An offset from universal time in its kept form. The offset of nothing has no minus. -/
def offset? : List Char → Option (List Char)
  | [] => some []
  | ['Z'] | ['z'] => some ['Z']
  | sign :: cs => do
    let (hour, rest) ← upTo? 23 cs
    let (minute, rest) ← upTo? 59 (← mark? ':' rest)
    let kept := hour ++ ':' :: minute
    if !rest.isEmpty || (sign != '+' && sign != '-') then none
    else if valueOf hour = 0 ∧ valueOf minute = 0 then some ('+' :: kept)
    else some (sign :: kept)

/-- The kept form of a run of characters that denotes a moment. -/
def moment? (cs : List Char) : Option String :=
  match date? cs with
  | some (date, []) => some (String.ofList date)
  | some (date, c :: rest) =>
    if c = 'T' ∨ c = 't' ∨ c = ' ' then do
      let (time, rest) ← time? rest
      let offset ← offset? rest
      some (String.ofList (date ++ 'T' :: time ++ offset))
    else none
  | none =>
    match time? cs with
    | some (time, []) => some (String.ofList time)
    | _ => none

end Outreach.Toml
