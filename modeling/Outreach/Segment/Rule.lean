import Outreach.Answer
import Outreach.Json.Writer
import Outreach.Segment.DayCount
import Outreach.Segment.Predicate

/-!
# Rules and their predicates

A rule compares a field with a value, and a rule set joins rules by conjunction or disjunction. A
rule set is valid if it has a rule and every rule names a field and has a value without parts.
Any rule set, valid or not, stands for a predicate as of an instant.

Rules about the last purchase read as days since then. A longer time since means an earlier
instant, so the operator is flipped on the stored instant.
-/

namespace Outreach.Segment

structure Rule where
  field : String
  operator : String
  value : Json
  /-- How an editor shows the value. It has no part in the rule's meaning. -/
  valueType : Option String

inductive Combinator
  | and
  | or
  deriving DecidableEq, Repr

structure RuleSet where
  combinator : Combinator
  rules : List Rule

namespace Rule

def make (field operator : String) (value : Json) : Rule :=
  ⟨field, operator, value, none⟩

def layout : List Json.Part :=
  [.required "field", .required "operator", .required "value", .defaulted "value_type"]

def encode (r : Rule) : Json :=
  .object ([("field", .text r.field), ("operator", .text r.operator), ("value", r.value)] ++
    Json.optionalField "value_type" r.valueType)

def decode? (j : Json) : Option Rule :=
  match j.parts? layout with
  | some [field, operator, value, valueType] => do
    let field ← Json.given? Json.text? field
    let operator ← Json.given? Json.text? operator
    let value ← Json.given? Json.whole? value
    let valueType ← Json.givenOr? none (Json.option? Json.text?) valueType
    some { field, operator, value, valueType }
  | _ => none

def containsSymbol : String := "contains"

/-- The text that a rule with the operator for occurrence looks for. -/
def needle : Json → String
  | .text s => s
  | j => j.write

/-- The right side of a comparison. Values with parts compare as their text. -/
def operand (path : FieldPath) (value : Json) : Operand :=
  if path = .known .isActive then .bool (truthOf value)
  else (Operand.ofJson? value).getD (.text value.write)

/-- A comparison of the field with the value, as of an instant. -/
def comparison (path : FieldPath) (op : Comparison) (value : Json) (now : Instant) : Predicate :=
  if path = .known .lastPurchase then
    match cutoff? value now with
    | some i => .compare path op.flipped (.timestamp i)
    | none => .compare path op (operand path value)
  else .compare path op (operand path value)

/-- The predicate of one rule. An operator that is not known imposes nothing. -/
def toPredicate (r : Rule) (now : Instant) : Predicate :=
  let path := FieldPath.ofRuleName r.field
  if r.operator = containsSymbol then .contains path (needle r.value)
  else
    match Comparison.ofSymbol? r.operator with
    | some op => comparison path op r.value now
    | none => .unconstrained

/-- What is wrong with the rule at a position of its set. -/
def fault? (index : Nat) (r : Rule) : Option Error :=
  if Text.isBlank r.field then some (.validation s!"rule {index}: field is required")
  else if (Operand.ofJson? r.value).isNone then
    some (.validation (s!"rule {index}: value for '" ++ r.field ++ "' must be a primitive"))
  else none

end Rule

namespace Combinator

def name : Combinator → String
  | and => "AND"
  | or => "OR"

/-- A combinator is written in capitals and read in capitals or small letters. -/
def ofName? (s : String) : Option Combinator :=
  if s = "AND" ∨ s = "and" then some and
  else if s = "OR" ∨ s = "or" then some or
  else none

def encode (c : Combinator) : Json :=
  .text c.name

def decode? (j : Json) : Option Combinator :=
  j.caseName?.bind ofName?

end Combinator

namespace RuleSet

def layout : List Json.Part :=
  [⟨["combinator", "condition"], .refused⟩, .required "rules"]

def encode (s : RuleSet) : Json :=
  .object [("combinator", s.combinator.encode), ("rules", .array (s.rules.map Rule.encode))]

def decode? (j : Json) : Option RuleSet :=
  match j.parts? layout with
  | some [combinator, rules] => do
    let combinator ← Json.given? Combinator.decode? combinator
    let rules ← Json.given? (Json.list? Rule.decode?) rules
    some { combinator, rules }
  | _ => none

/-- The fault of the first rule that has one. -/
def firstFault? (index : Nat) : List Rule → Option Error
  | [] => none
  | r :: rest =>
    match r.fault? index with
    | some e => some e
    | none => firstFault? (index + 1) rest

def validate (s : RuleSet) : Answer Unit :=
  if s.rules.isEmpty then .error (.validation "at least one rule is required")
  else
    match firstFault? 0 s.rules with
    | some e => .error e
    | none => .ok ()

/-- The predicate of a rule set as of an instant. -/
def toPredicate (s : RuleSet) (now : Instant) : Predicate :=
  let parts := s.rules.map (·.toPredicate now)
  match s.combinator with
  | .and => .all parts
  | .or => .any parts

end RuleSet

end Outreach.Segment
