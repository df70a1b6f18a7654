import Outreach.Decimal.Nearest
import Outreach.Json.Token

/-!
# Numbers in settings tables

A whole number is decimal with an optional sign, or has a base prefix and no sign, and it fits a
signed 64-bit integer. A float has a fraction or an exponent, or is a name of infinity or of what
is not a number. Underscores may stand between digits, and a decimal whole part has no needless
zero in front.
-/

namespace Outreach.Toml

open Json

/-- The characters without underscores, which may only stand between digits. -/
def joined? (isDigit : Char → Bool) : Bool → List Char → Option (List Char)
  | _, [] => some []
  | afterDigit, '_' :: d :: rest =>
    if afterDigit && isDigit d then (joined? isDigit true rest).map (d :: ·) else none
  | _, c :: rest => if c = '_' then none else (joined? isDigit (isDigit c) rest).map (c :: ·)

/-- A whole part has no needless zero in front. -/
def isPlainWhole (cs : List Char) : Bool :=
  match cs.takeWhile Char.isDigit with
  | [] => false
  | '0' :: _ :: _ => false
  | _ => true

/-- Digits follow a point. -/
def hasFraction (cs : List Char) : Bool :=
  match cs.dropWhile Char.isDigit with
  | '.' :: d :: _ => d.isDigit
  | '.' :: [] => false
  | _ => true

/-- A whole number within the signed range. -/
def ofInt? (z : Int) : Option Json :=
  if -Int.pow 2 63 ≤ z ∧ z < Int.pow 2 63 then some (.int z) else none

/-- A float from its digits. Those of a positive number must not stand for infinity. -/
def ofDigits? (cs : List Char) : Option Json :=
  ((Decimal.read? (String.ofList cs)).filter fun x => Decimal.isFinite x || Decimal.signBit x).map
    .float

/-- A whole number from its digits to a base. -/
def inBase? (base : Nat) (cs : List Char) : Option Json := do
  let isDigit (c : Char) : Bool := (hexDigit? c).any (· < base)
  let cs ← joined? isDigit false cs
  if cs.isEmpty || !cs.all isDigit then none
  else ofInt? ((cs.filterMap hexDigit?).foldl (fun n d => base * n + d) 0 : Nat)

def decimal? (cs : List Char) : Option Json := do
  let cs ← joined? Char.isDigit false cs
  match (Decimal.takeSign cs).2 with
  | ['i', 'n', 'f'] | ['n', 'a', 'n'] => (Decimal.read? (String.ofList cs)).map .float
  | magnitude =>
    if !isPlainWhole magnitude || !hasFraction magnitude then none
    else
      match Decimal.int? cs with
      | some z => ofInt? z
      | none => ofDigits? cs

/-- The number that a run of characters denotes. -/
def number? : List Char → Option Json
  | '0' :: 'x' :: cs => inBase? 16 cs
  | '0' :: 'o' :: cs => inBase? 8 cs
  | '0' :: 'b' :: cs => inBase? 2 cs
  | cs => decimal? cs

end Outreach.Toml
