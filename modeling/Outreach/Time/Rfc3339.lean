import Outreach.Text.Blank
import Outreach.Time.Instant

/-!
# Written form of instants

Instants are written in RFC 3339 in universal time, with the fewest of 0, 3, 6 or 9 digits for the
part of a second that lose nothing, and years beyond four digits with a sign. Reading is more
liberal. Numbers need not be padded, blanks may stand around them, a space may stand for the T, and
any offset below a day is accepted. Digits after the ninth are dropped.
-/

namespace Outreach.Time

def padded (width n : Nat) : List Char :=
  let digits := Nat.toDigits 10 n
  List.replicate (width - digits.length) '0' ++ digits

def writeYear (y : Int) : List Char :=
  if y < 0 then '-' :: padded 4 y.natAbs
  else if 9999 < y then '+' :: padded 4 y.natAbs
  else padded 4 y.natAbs

/-- The part of a second after the point, or nothing for a whole second. -/
def writeFraction (nanos : Nat) : List Char :=
  if nanos = 0 then []
  else if nanos % 1000000 = 0 then '.' :: padded 3 (nanos / 1000000)
  else if nanos % 1000 = 0 then '.' :: padded 6 (nanos / 1000)
  else '.' :: padded 9 nanos

def write (i : Instant) : String :=
  let date := Date.ofDays (i.seconds / 86400)
  let time := (i.seconds % 86400).toNat
  let second := time % 60 + i.nanos / Instant.nanosPerSecond
  String.ofList (writeYear date.year ++ '-' :: padded 2 date.month ++ '-' :: padded 2 date.day ++
    'T' :: padded 2 (time / 3600) ++ ':' :: padded 2 (time / 60 % 60) ++ ':' :: padded 2 second ++
    writeFraction (i.nanos % Instant.nanosPerSecond) ++ ['Z'])

namespace Reading

/-- Up to `limit` digits at the start of a text, at least one, as a number. -/
def number? (limit : Nat) (cs : List Char) : Option (Nat × List Char) :=
  let digits := (cs.takeWhile Char.isDigit).take limit
  if digits.isEmpty then none
  else
    some (digits.foldl (fun n c => 10 * n + (c.toNat - '0'.toNat)) 0, cs.drop digits.length)

/-- A number with leading blanks, within bounds. -/
def field? (low high : Nat) (cs : List Char) : Option (Nat × List Char) := do
  let (n, rest) ← number? 2 (Text.dropLeading cs)
  if low ≤ n ∧ n ≤ high then some (n, rest) else none

/-- A year has up to four digits, or any number of them after a sign. -/
def year? (cs : List Char) : Option (Int × List Char) :=
  match Text.dropLeading cs with
  | '-' :: rest => (number? rest.length rest).map fun (n, r) => (-(n : Int), r)
  | '+' :: rest => (number? rest.length rest).map fun (n, r) => ((n : Int), r)
  | cs => (number? 4 cs).map fun (n, r) => ((n : Int), r)

/-- A separator with blanks before it. -/
def mark? (c : Char) (cs : List Char) : Option (List Char) :=
  match Text.dropLeading cs with
  | d :: rest => if d = c then some rest else none
  | [] => none

/-- Nanoseconds after a point, or none at all. -/
def fraction? (cs : List Char) : Option (Nat × List Char) :=
  match cs with
  | '.' :: rest => do
    let (n, _) ← number? 9 rest
    let digits := (rest.takeWhile Char.isDigit).take 9
    some (n * Nat.pow 10 (9 - digits.length), rest.dropWhile Char.isDigit)
  | _ => some (0, cs)

def isOffsetGap (c : Char) : Bool :=
  c == ':' || Text.isBlankChar c

/-- Two digits that stand for a number below a bound. -/
def pair? (bound : Nat) : List Char → Option (Nat × List Char)
  | c :: d :: rest =>
    if c.isDigit && d.isDigit then
      let n := 10 * (c.toNat - '0'.toNat) + (d.toNat - '0'.toNat)
      if n < bound then some (n, rest) else none
    else none
  | _ => none

/-- Seconds that local time is ahead of universal time. -/
def offset? (cs : List Char) : Option (Int × List Char) :=
  let signed (negative : Bool) (cs : List Char) : Option (Int × List Char) := do
    let (hours, rest) ← pair? 24 cs
    let (minutes, rest) ← pair? 60 (rest.dropWhile isOffsetGap)
    let seconds : Int := (hours * 3600 + minutes * 60 : Nat)
    some (if negative then -seconds else seconds, rest)
  match Text.dropLeading cs with
  | '+' :: rest => signed false rest
  | c :: rest =>
    if c = '-' ∨ c.toNat = 0x2212 then signed true rest
    else if c = 'Z' ∨ c = 'z' then some (0, rest)
    else
      match c :: rest with
      | u :: t :: z :: rest =>
        if u.toLower = 'u' ∧ t.toLower = 't' ∧ z.toLower = 'c' then some (0, rest) else none
      | _ => none
  | [] => none

def dateSeparator? : List Char → Option (List Char)
  | c :: rest => if c = 'T' ∨ c = 't' ∨ c = ' ' then some rest else none
  | [] => none

end Reading

open Reading in
/-- The instant that a text names. -/
def read? (s : String) : Option Instant := do
  let (year, cs) ← year? s.toList
  let cs ← mark? '-' cs
  let (month, cs) ← field? 1 12 cs
  let cs ← mark? '-' cs
  let (day, cs) ← field? 1 31 cs
  let cs ← dateSeparator? cs
  let (hour, cs) ← field? 0 23 cs
  let cs ← mark? ':' cs
  let (minute, cs) ← field? 0 59 cs
  let cs ← mark? ':' cs
  let (second, cs) ← field? 0 60 cs
  let (nanos, cs) ← fraction? cs
  let (offset, cs) ← offset? cs
  let date : Date := ⟨year, month, day⟩
  let leap := if second = 60 then Instant.nanosPerSecond else 0
  let local' : Int := date.toDays * 86400 + (hour * 3600 + minute * 60 + min second 59 : Nat)
  let i : Instant := ⟨local' - offset, nanos + leap⟩
  if Text.dropLeading cs = [] ∧ date.isValid ∧ Instant.inRange ⟨local', 0⟩ ∧ i.inRange then some i
  else none

end Outreach.Time
