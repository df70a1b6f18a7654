import Outreach.Decimal.Binary64
import Outreach.Sorted

/-!
# Data values

A data value is null, a truth value, a number, a text, an array or an object. Whole numbers and
floats are told apart, since a number written without a fraction keeps all its digits. An object as
read keeps its fields in the order of the text and may name one twice. In canonical form its fields
are sorted by name and the last of several with one name has won.

A text can also hold what no value stands for. Such a part is kept as unreadable, so that it does no
harm where nobody looks at it, and a value that is kept as it is must have none.
-/

namespace Outreach

inductive Json
  | null
  | bool (b : Bool)
  | int (z : Int)
  | float (x : Float)
  | text (s : String)
  | array (items : List Json)
  | object (fields : List (String × Json))
  /-- A part that follows the grammar of data texts but has no value. -/
  | unreadable

namespace Json

/-- Adds a field unless one with the same name is there already. -/
def putIfAbsent (name : String) (j : Json) (fields : List (String × Json)) : List (String × Json) :=
  match Sorted.get? Prod.fst name fields with
  | some _ => fields
  | none => Sorted.put Prod.fst (name, j) fields

mutual

def canonical : Json → Json
  | .array items => .array (canonicalItems items)
  | .object fields => .object (canonicalFields fields)
  | .null => .null
  | .bool b => .bool b
  | .int z => .int z
  | .float x => .float x
  | .text s => .text s
  | .unreadable => .unreadable

def canonicalItems : List Json → List Json
  | [] => []
  | j :: rest => j.canonical :: canonicalItems rest

/-- Fields sorted by name, the last of several with one name winning. -/
def canonicalFields : List (String × Json) → List (String × Json)
  | [] => []
  | (name, j) :: rest => putIfAbsent name j.canonical (canonicalFields rest)

end

mutual

/-- No part is unreadable. -/
def isReadable : Json → Bool
  | .array items => areReadable items
  | .object fields => haveReadable fields
  | .unreadable => false
  | .null | .bool _ | .int _ | .float _ | .text _ => true

def areReadable : List Json → Bool
  | [] => true
  | j :: rest => j.isReadable && areReadable rest

def haveReadable : List (String × Json) → Bool
  | [] => true
  | (_, j) :: rest => j.isReadable && haveReadable rest

end

/-- The value in canonical form, if all of it is readable. -/
def whole? (j : Json) : Option Json :=
  if j.isReadable then some j.canonical else none

/-- The value of an optional part, null standing for its absence. -/
def ofOption {α : Type} (encode : α → Json) : Option α → Json
  | some a => encode a
  | none => .null

def ofNat (n : Nat) : Json :=
  .int n

/-- A float as data. One that is infinite or no number at all has no form and becomes null. -/
def ofFloat (x : Float) : Json :=
  if Decimal.isFinite x then .float x else .null

/-- Fields of an optional part that is left out when absent. -/
def optionalField (name : String) : Option String → List (String × Json)
  | some s => [(name, .text s)]
  | none => []

end Json

end Outreach
