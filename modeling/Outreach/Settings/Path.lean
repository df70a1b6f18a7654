import Outreach.Json.Number
import Outreach.Text.LowerCase

/-!
# Places in settings

A place in settings is given by a path: a name, and then further names behind points and positions
in brackets. Names consist of letters, digits, blanks, underscores and hyphens. A position counts
from the start of a list, or from its end if it is negative.

A value can be put at any place. What is no section or no list on the way becomes one, and a list
grows as far as the position demands. A section put at a name is laid over the one that is there.
-/

namespace Outreach.Settings

inductive Step
  | name (s : String)
  | position (p : Int)
  deriving DecidableEq, Repr

abbrev Path := List Step

namespace Path

def isNameChar (c : Char) : Bool :=
  c.isAlphanum || c == '_' || c == '-' || c == ' '

def isBlank (c : Char) : Bool :=
  c == ' ' || c == '\t'

/-- A name, and what follows it. -/
def name? (cs : List Char) : Option (Step × List Char) :=
  match cs.takeWhile isNameChar with
  | [] => none
  | name => some (.name (String.ofList name), cs.dropWhile isNameChar)

/-- A position behind its opening bracket, and what follows the closing one. -/
def position? (cs : List Char) : Option (Step × List Char) :=
  let (negative, cs) :=
    match cs.dropWhile isBlank with
    | '-' :: rest => (true, rest)
    | rest => (false, rest)
  match Json.takeDigits cs with
  | ([], _) => none
  | (digits, rest) =>
    let n : Int := Json.natOfDigits digits
    let p := if negative then -n else n
    match rest.dropWhile isBlank with
    | ']' :: rest =>
      if -Int.pow 2 63 ≤ p ∧ p < Int.pow 2 63 then some (.position p, rest) else none
    | _ => none

/-- The steps after the first one. There are at most as many as characters. -/
def steps? : Nat → List Char → Option Path
  | _, [] => some []
  | 0, _ :: _ => none
  | fuel + 1, c :: rest => do
    let (step, rest) ← if c = '.' then name? rest else if c = '[' then position? rest else none
    let path ← steps? fuel rest
    some (step :: path)

/-- The path that a text denotes. -/
def read? (cs : List Char) : Option Path := do
  let (step, rest) ← name? cs
  let path ← steps? rest.length rest
  some (step :: path)

def fieldsOf : Json → List (String × Json)
  | .object fields => fields
  | _ => []

def itemsOf : Json → List Json
  | .array items => items
  | _ => []

/-- The items with as many nulls more as it takes to have the position. -/
def extended (p : Int) (items : List Json) : List Json :=
  let n := p.natAbs
  if 0 ≤ p then items ++ List.replicate (n + 1 - items.length) .null
  else List.replicate (n - items.length) .null ++ items

/-- The number of items before a position of a list that has it. -/
def index (p : Int) (items : List Json) : Nat :=
  if 0 ≤ p then p.natAbs else items.length - p.natAbs

mutual

/-- A value laid over what is at its place. Sections are laid field by field, with names in lower
case, and everything else replaces what was there. -/
def laid : Json → Option Json → Json
  | .object [], some old => old
  | .object fields, old => .object (laidFields fields (fieldsOf (old.getD .null)))
  | j, _ => j

def laidFields : List (String × Json) → List (String × Json) → List (String × Json)
  | [], fields => fields
  | (name, j) :: rest, fields =>
    let name := String.ofList (Text.lowerCase name)
    let old := (Sorted.get? Prod.fst name fields).map Prod.snd
    laidFields rest (Sorted.put Prod.fst (name, laid j old) fields)

end

/-- The settings with a value at a place. -/
def place (value : Json) : Path → Json → Json
  | [], _ => value
  | .name name :: rest, j =>
    let fields := fieldsOf j
    let old := (Sorted.get? Prod.fst name fields).map Prod.snd
    let new := if rest.isEmpty then laid value old else place value rest (old.getD .null)
    .object (Sorted.put Prod.fst (name, new) fields)
  | .position p :: rest, j =>
    let items := extended p (itemsOf j)
    .array (items.modify (index p items) (place value rest))

end Path

end Outreach.Settings
