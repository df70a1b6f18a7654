import Outreach.Json.Basic
import Outreach.Time.Rfc3339
import Outreach.Uuid

/-!
# Shapes of data values

Reading a record from a data value follows one set of rules. A record is an object whose parts are
found by name, or an array of the parts in their declared order. Unknown names are passed over, and
a part named twice is refused. A missing part is refused, stands for null or takes its default, as
its declaration says. In an array only trailing parts with a default may be left off.
-/

namespace Outreach.Json

/-- What a record without a certain part means. -/
inductive Missing
  | refused
  | null
  | default
  deriving DecidableEq

structure Part where
  /-- The names under which the part may be given. -/
  names : List String
  missing : Missing

namespace Part

def required (name : String) : Part := ⟨[name], .refused⟩

def optional (name : String) : Part := ⟨[name], .null⟩

def defaulted (name : String) : Part := ⟨[name], .default⟩

/-- The part as given by the fields of an object. The inner option is empty when the default is
to be used. -/
def ofFields? (p : Part) (fields : List (String × Json)) : Option (Option Json) :=
  match fields.filter (fun f => p.names.contains f.1) with
  | [] =>
    match p.missing with
    | .refused => none
    | .null => some (some .null)
    | .default => some none
  | [f] => some (some f.2)
  | _ => none

end Part

/-- The parts of a record that is given as an array. -/
def partsOfItems? : List Part → List Json → Option (List (Option Json))
  | [], [] => some []
  | [], _ :: _ => none
  | _ :: ps, j :: js => (partsOfItems? ps js).map (some j :: ·)
  | p :: ps, [] =>
    if p.missing = .default then (partsOfItems? ps []).map (none :: ·) else none

/-- The parts of a record that is given as an object. -/
def partsOfFields? (layout : List Part) (fields : List (String × Json)) :
    Option (List (Option Json)) :=
  layout.mapM (·.ofFields? fields)

/-- The parts of a record in declared order. -/
def parts? (layout : List Part) : Json → Option (List (Option Json))
  | .object fields => partsOfFields? layout fields
  | .array items => partsOfItems? layout items
  | _ => none

/-- The field belongs to a record of the given layout. -/
def isOwn (layout : List Part) (field : String × Json) : Bool :=
  layout.any fun p => p.names.contains field.1

/-- The parts of a record that shares one object with another record. All fields that are not its
own are kept for the other, so they must be readable. -/
def ownParts? (layout : List Part) : Json → Option (List (Option Json))
  | .object fields =>
    if fields.all fun f => isOwn layout f || f.2.isReadable then partsOfFields? layout fields
    else none
  | _ => none

/-- The value of a part that has no default. -/
def given? {α : Type} (decode : Json → Option α) (part : Option Json) : Option α :=
  part.bind decode

/-- The value of a part, or its default when it is left out. -/
def givenOr? {α : Type} (default : α) (decode : Json → Option α) : Option Json → Option α
  | some j => decode j
  | none => some default

def bool? : Json → Option Bool
  | .bool b => some b
  | _ => none

def text? : Json → Option String
  | .text s => some s
  | _ => none

/-- A whole number below a bound. -/
def natBelow? (bound : Nat) : Json → Option Nat
  | .int z => if 0 ≤ z ∧ z < bound then some z.toNat else none
  | _ => none

def word64? (j : Json) : Option Nat :=
  j.natBelow? (Nat.pow 2 64)

def word32? (j : Json) : Option UInt32 :=
  (j.natBelow? (Nat.pow 2 32)).map UInt32.ofNat

/-- Any number, a whole one as the nearest float. -/
def float? : Json → Option Float
  | .int z => some (Decimal.ofInt z)
  | .float x => some x
  | _ => none

def option? {α : Type} (decode : Json → Option α) : Json → Option (Option α)
  | .null => some none
  | j => (decode j).map some

def list? {α : Type} (decode : Json → Option α) : Json → Option (List α)
  | .array items => items.mapM decode
  | _ => none

/-- A case without contents: its name, or an object that maps the name to null. -/
def caseName? : Json → Option String
  | .text s => some s
  | .object [(s, .null)] => some s
  | _ => none

/-- A case without contents in a record that shares its object with another one: an empty object
does in place of null. -/
def sharedCaseName? : Json → Option String
  | .object [(s, .object [])] => some s
  | j => j.caseName?

def instant? (j : Json) : Option Instant :=
  j.text?.bind Time.read?

def uuid? (j : Json) : Option Uuid :=
  j.text?.bind Uuid.ofText?

/-- A choice of how exactly the values of a record have to fit their parts. -/
structure Reading where
  parts? : List Part → Json → Option (List (Option Json))
  /-- A whole number below `2 ^ 64`. -/
  word? : Json → Option Nat
  float? : Json → Option Float
  text? : Json → Option String

/-- Every value must be of the kind that its part asks for. -/
def Reading.strict : Reading := ⟨Json.parts?, Json.word64?, Json.float?, Json.text?⟩

/-- An object with arbitrary names, in canonical form. -/
def fields? (j : Json) : Option (List (String × Json)) :=
  match j.whole? with
  | some (.object fields) => some fields
  | _ => none

def ofInstant (i : Instant) : Json :=
  .text (Time.write i)

def ofUuid (u : Uuid) : Json :=
  .text u.toText

end Outreach.Json
