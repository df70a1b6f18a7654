import Outreach.Customer

/-!
# Fields that rules speak about

Eight fields of a customer record are known to the rule language. Each has a name in rules and a
path under which predicates refer to it. Any other name refers to a customer attribute, so
that a rule can speak about attributes nobody has declared.
-/

namespace Outreach.Segment

inductive Field
  | totalSpent
  | orderCount
  | lastPurchase
  | city
  | isActive
  | age
  | gender
  | occupation
  deriving DecidableEq, Repr

namespace Field

/-- All known fields in declared order. -/
def all : List Field :=
  [totalSpent, orderCount, lastPurchase, city, isActive, age, gender, occupation]

/-- The name of the field in rules. -/
def ruleName : Field → String
  | totalSpent => "total_spent"
  | orderCount => "order_count"
  | lastPurchase => "last_purchase"
  | city => "city"
  | isActive => "is_active"
  | age => "age"
  | gender => "gender"
  | occupation => "occupation"

/-- The place of the field in a customer record. -/
def dataPath : Field → String
  | totalSpent => "stats.total_spent"
  | orderCount => "stats.order_count"
  | lastPurchase => "stats.last_purchase"
  | city => "address.city"
  | isActive => "is_active"
  | age => "demographics.age"
  | gender => "demographics.gender"
  | occupation => "demographics.occupation"

def ofRuleName? (name : String) : Option Field :=
  all.find? fun f => f.ruleName == name

def ofDataPath? (path : String) : Option Field :=
  all.find? fun f => f.dataPath == path

theorem ofRuleName?_ruleName (f : Field) : ofRuleName? f.ruleName = some f := by
  cases f <;> decide

theorem ofDataPath?_dataPath (f : Field) : ofDataPath? f.dataPath = some f := by
  cases f <;> decide

end Field

/-- What a rule or a predicate looks at. -/
inductive FieldPath
  | known (f : Field)
  /-- A customer attribute, looked up under exactly this name. -/
  | custom (name : String)
  deriving DecidableEq, Repr

namespace FieldPath

/-- The path that a name in a rule stands for. -/
def ofRuleName (name : String) : FieldPath :=
  match Field.ofRuleName? name with
  | some f => known f
  | none => custom name

/-- The path that a written predicate refers to. -/
def ofDataPath (path : String) : FieldPath :=
  match Field.ofDataPath? path with
  | some f => known f
  | none => custom path

def dataPath : FieldPath → String
  | known f => f.dataPath
  | custom name => name

def encode (p : FieldPath) : Json :=
  .text p.dataPath

def decode? (j : Json) : Option FieldPath :=
  j.text?.map ofDataPath

end FieldPath

end Outreach.Segment
