import Outreach.Json.Basic

/-!
# Numbers in data texts

A number without fraction and exponent is whole if it fits a signed or an unsigned 64-bit integer.
Every other number is a float: as many leading digits as fit 64 bits are taken as a whole number,
and one multiplication or division by a power of ten puts the point in its place. Numbers beyond
the largest float are refused, and minus zero is a float.
-/

namespace Outreach.Json

/-- A number as written: sign, digits before and after the point, and exponent. -/
structure Numeral where
  negative : Bool
  whole : List Nat
  fraction : List Nat
  /-- A fraction or an exponent is written. -/
  isFloat : Bool
  exponent : Int

def maxWord : Nat :=
  Nat.pow 2 64 - 1

def digit? (c : Char) : Option Nat :=
  if c.isDigit then some (c.toNat - '0'.toNat) else none

/-- The longest run of digits at the start of a text, and what follows. -/
def takeDigits (cs : List Char) : List Nat × List Char :=
  ((cs.takeWhile Char.isDigit).filterMap digit?, cs.dropWhile Char.isDigit)

def natOfDigits (ds : List Nat) : Nat :=
  ds.foldl (fun n d => 10 * n + d) 0

/-- The part from the exponent mark on. Nothing at all is the exponent zero. -/
def exponent? (cs : List Char) : Option (Bool × Int) :=
  match cs with
  | [] => some (false, 0)
  | e :: rest =>
    if e ≠ 'e' ∧ e ≠ 'E' then none
    else
      let (negative, rest) :=
        match rest with
        | '+' :: r => (false, r)
        | '-' :: r => (true, r)
        | r => (false, r)
      match takeDigits rest with
      | (d :: ds, []) =>
        let n : Int := natOfDigits (d :: ds)
        some (true, if negative then -n else n)
      | _ => none

/-- A numeral follows the grammar of data texts: no leading zeros, digits on both sides of a
point, digits after an exponent mark. -/
def numeral? (cs : List Char) : Option Numeral :=
  let (negative, cs) :=
    match cs with
    | '-' :: r => (true, r)
    | r => (false, r)
  match takeDigits cs with
  | ([], _) => none
  | (0 :: _ :: _, _) => none
  | (whole, '.' :: rest) =>
    match takeDigits rest with
    | ([], _) => none
    | (fraction, tail) =>
      (exponent? tail).map fun (_, e) => ⟨negative, whole, fraction, true, e⟩
  | (whole, tail) =>
    (exponent? tail).map fun (written, e) => ⟨negative, whole, [], written, e⟩

/-- Leading digits as a word, with the power of ten that they are to be scaled by. -/
structure Leading where
  value : Nat
  exponent : Int
  full : Bool

namespace Leading

def pushWhole (l : Leading) (d : Nat) : Leading :=
  if l.full || decide (maxWord < l.value * 10 + d) then ⟨l.value, l.exponent + 1, true⟩
  else ⟨l.value * 10 + d, l.exponent, false⟩

def pushFraction (l : Leading) (d : Nat) : Leading :=
  if l.full || decide (maxWord < l.value * 10 + d) then { l with full := true }
  else ⟨l.value * 10 + d, l.exponent - 1, false⟩

def ofNumeral (n : Numeral) : Leading :=
  let whole := n.whole.foldl pushWhole ⟨0, 0, false⟩
  let all := n.fraction.foldl pushFraction { whole with full := false }
  { all with exponent := all.exponent + n.exponent }

end Leading

def powerOfTen (n : Nat) : Float :=
  Float.ofScientific 1 false n

/-- Division by a power of ten, in steps that each fit a float. -/
def scaleDown (x : Float) (n : Nat) : Float :=
  if n ≤ 308 then x / powerOfTen n
  else if x == 0.0 then x
  else scaleDown (x / powerOfTen 308) (n - 308)
termination_by n

/-- A word times a power of ten, unless that lies beyond the largest float. -/
def scale? (word : Nat) (exponent : Int) : Option Float :=
  let x := (UInt64.ofNat word).toFloat
  match exponent with
  | .negSucc n => some (scaleDown x (n + 1))
  | .ofNat n =>
    if n ≤ 308 then
      let y := x * powerOfTen n
      if Decimal.isFinite y then some y else none
    else if x == 0.0 then some x
    else none

namespace Numeral

def float? (n : Numeral) : Option Json :=
  let l := Leading.ofNumeral n
  (scale? l.value l.exponent).map fun x => .float (if n.negative then -x else x)

/-- The value of a numeral. -/
def value? (n : Numeral) : Option Json :=
  let l := Leading.ofNumeral n
  if n.isFloat || decide (l.exponent ≠ 0) then n.float?
  else if n.negative then
    if l.value = 0 ∨ Nat.pow 2 63 < l.value then n.float? else some (.int (-(l.value : Int)))
  else some (.int l.value)

end Numeral

end Outreach.Json
