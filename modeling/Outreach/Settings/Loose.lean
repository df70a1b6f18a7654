import Outreach.Decimal.Layout
import Outreach.Decimal.Nearest
import Outreach.Json.Shape
import Outreach.Text.LowerCase

/-!
# Loose readings of settings

Settings come from places that know texts only, so a value need not be of the kind that is asked
for. A number may be given as a text or a truth value, and a text as a number or a truth value. A
float given for a whole number is rounded, a half away from zero, and kept within the range of the
number. A whole number beyond the signed 64-bit range counts as a float. A record given as an array
may have more items than parts.
-/

namespace Outreach.Loose

/-- The words for true and false. -/
def truth? (s : String) : Option Bool :=
  match String.ofList (Text.lowerCase s) with
  | "true" | "on" | "yes" => some true
  | "false" | "off" | "no" => some false
  | _ => none

/-- A number without sign, except that a plus may stand in front. -/
def unsigned? (s : String) : Option Nat :=
  match s.toList with
  | '+' :: cs => Decimal.nat? cs
  | cs => Decimal.nat? cs

def isWord (n : Nat) : Bool :=
  decide (n ≤ Json.maxWord)

/-- The whole number nearest to a float within the range of a word. What is not a number counts as
zero. -/
def wordOfFloat (x : Float) : Nat :=
  match Decimal.rounded? x with
  | some z => min z.toNat Json.maxWord
  | none => if Decimal.compare? x 0.0 = some .gt then Json.maxWord else 0

/-- The value with a whole number beyond the signed range as a float. -/
def signed : Json → Json
  | .int z => if Int.pow 2 63 ≤ z then .float (Decimal.ofInt z) else .int z
  | j => j

def word? (j : Json) : Option Nat :=
  match signed j with
  | .int z => if 0 ≤ z then some z.toNat else none
  | .bool b => some b.toNat
  | .float x => some (wordOfFloat x)
  | .text s =>
    match truth? s with
    | some b => some b.toNat
    | none => (unsigned? s).filter isWord
  | _ => none

def float? (j : Json) : Option Float :=
  match signed j with
  | .float x => some x
  | .int z => some (Decimal.ofInt z)
  | .bool b => some (if b then 1.0 else 0.0)
  | .text s =>
    match truth? s with
    | some b => some (if b then 1.0 else 0.0)
    | none => Decimal.read? s
  | _ => none

def text? (j : Json) : Option String :=
  match signed j with
  | .text s => some s
  | .bool b => some (toString b)
  | .int z => some (toString z)
  | .float x => some (Decimal.Layout.message.write x)
  | _ => none

/-- The parts of a record. Items of an array beyond the last part are passed over. -/
def parts? (layout : List Json.Part) : Json → Option (List (Option Json))
  | .array items => Json.parts? layout (.array (items.take layout.length))
  | j => Json.parts? layout j

def reading : Json.Reading := ⟨parts?, word?, float?, text?⟩

end Outreach.Loose
