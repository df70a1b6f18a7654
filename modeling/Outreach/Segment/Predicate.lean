import Outreach.Segment.Operand
import Outreach.Text.LowerCase

/-!
# Predicates over customers

A predicate is a boolean expression over the fields of a customer. It is what a rule set stands for
at an instant. A customer without the field that a comparison looks at satisfies it only if the
operator is inequality.
-/

namespace Outreach.Segment

inductive Predicate
  /-- Every part holds. Without parts it holds of every customer. -/
  | all (parts : List Predicate)
  /-- Some part holds. Without parts it holds of no customer. -/
  | any (parts : List Predicate)
  | compare (path : FieldPath) (op : Comparison) (operand : Operand)
  /-- The field holds a text in which the needle occurs, letter case disregarded. -/
  | contains (path : FieldPath) (needle : String)
  | unconstrained

/-- The value of a field of a customer, if it is there and has no parts. -/
def valueAt? (c : Customer) : FieldPath → Option Operand
  | .known .totalSpent => some (.number c.stats.totalSpent)
  | .known .orderCount => some (.number (Decimal.ofInt c.stats.orderCount.toNat))
  | .known .lastPurchase => c.stats.lastPurchase.map .timestamp
  | .known .city => c.address.city.map .text
  | .known .isActive => some (.bool c.isActive)
  | .known .age => c.demographics.age.map fun a => .number (Decimal.ofInt a.toNat)
  | .known .gender => c.demographics.gender.map .text
  | .known .occupation => c.demographics.occupation.map .text
  | .custom name => (c.attribute? name).bind Operand.ofJson?

namespace Predicate

/-- A comparison with a field that may be missing. -/
def compareMatches (value : Option Operand) (op : Comparison) (operand : Operand) : Bool :=
  op.holds (value.bind (·.compare? operand))

def containsMatches (value : Option Operand) (needle : String) : Bool :=
  match value with
  | some (.text s) => Text.containsFolded s needle
  | _ => false

mutual

/-- The predicate holds of the customer. -/
def satisfied (c : Customer) : Predicate → Bool
  | .all parts => allSatisfied c parts
  | .any parts => anySatisfied c parts
  | .compare path op operand => compareMatches (valueAt? c path) op operand
  | .contains path needle => containsMatches (valueAt? c path) needle
  | .unconstrained => true

def allSatisfied (c : Customer) : List Predicate → Bool
  | [] => true
  | p :: rest => p.satisfied c && allSatisfied c rest

def anySatisfied (c : Customer) : List Predicate → Bool
  | [] => false
  | p :: rest => p.satisfied c || anySatisfied c rest

end

theorem allSatisfied_eq (c : Customer) (parts : List Predicate) :
    allSatisfied c parts = parts.all (·.satisfied c) := by
  induction parts with
  | nil => simp [allSatisfied]
  | cons p rest ih => simp [allSatisfied, ih]

theorem anySatisfied_eq (c : Customer) (parts : List Predicate) :
    anySatisfied c parts = parts.any (·.satisfied c) := by
  induction parts with
  | nil => simp [anySatisfied]
  | cons p rest ih => simp [anySatisfied, ih]

mutual

def encode : Predicate → Json
  | .all parts => .object [("all", .array (encodeAll parts))]
  | .any parts => .object [("any", .array (encodeAll parts))]
  | .compare path op operand =>
    .object [("compare",
      .object [("path", path.encode), ("op", op.encode), ("operand", operand.encode)])]
  | .contains path needle =>
    .object [("contains", .object [("path", path.encode), ("needle", .text needle)])]
  | .unconstrained => .text "unconstrained"

def encodeAll : List Predicate → List Json
  | [] => []
  | p :: rest => p.encode :: encodeAll rest

end

def decodeCompare? (j : Json) : Option Predicate :=
  match j.parts? [.required "path", .required "op", .required "operand"] with
  | some [path, op, operand] => do
    let path ← Json.given? FieldPath.decode? path
    let op ← Json.given? Comparison.decode? op
    let operand ← Json.given? Operand.decode? operand
    some (.compare path op operand)
  | _ => none

def decodeContains? (j : Json) : Option Predicate :=
  match j.parts? [.required "path", .required "needle"] with
  | some [path, needle] => do
    let path ← Json.given? FieldPath.decode? path
    let needle ← Json.given? Json.text? needle
    some (.contains path needle)
  | _ => none

mutual

/-- A predicate is an object with one field that names its form, or a bare name. -/
def decode? : Json → Option Predicate
  | .text s => if s = "unconstrained" then some .unconstrained else none
  | .object [(name, j)] =>
    if name = "all" then
      match j with
      | .array items => (decodeAll? items).map .all
      | _ => none
    else if name = "any" then
      match j with
      | .array items => (decodeAll? items).map .any
      | _ => none
    else if name = "compare" then decodeCompare? j
    else if name = "contains" then decodeContains? j
    else if name = "unconstrained" then
      match j with
      | .null => some .unconstrained
      | _ => none
    else none
  | _ => none

def decodeAll? : List Json → Option (List Predicate)
  | [] => some []
  | j :: rest => do
    let p ← decode? j
    let ps ← decodeAll? rest
    some (p :: ps)

end

end Predicate

end Outreach.Segment
