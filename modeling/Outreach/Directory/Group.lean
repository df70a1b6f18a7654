import Outreach.Directory.Basic

/-!
# Grouped totals

Customers that satisfy a predicate are grouped by a recorded value or by a band. Each group has one
row with its counts and sums. Rows come in the order of their keys, with the group of customers
that lack the value first, and sums run over the customers in the order of their ids.
-/

namespace Outreach

open Segment

/-- What customers are grouped by. -/
inductive Grouping
  /-- One group for all. -/
  | all
  | gender
  | city
  | occupation
  | ageRange
  | purchaseFrequency
  deriving DecidableEq, Repr

structure GroupTotals where
  key : Option String
  count : Nat
  totalSpent : Float
  minSpent : Float
  maxSpent : Float
  totalOrders : Nat
  active : Nat

def ageRange (age : Nat) : String :=
  if age ≤ 17 then "Under 18"
  else if age ≤ 24 then "18-24"
  else if age ≤ 34 then "25-34"
  else if age ≤ 44 then "35-44"
  else if age ≤ 54 then "45-54"
  else if age ≤ 64 then "55-64"
  else "65+"

def orderRange (orders : Nat) : String :=
  if orders = 0 then "No Orders"
  else if orders = 1 then "1 Order"
  else if orders ≤ 3 then "2-3 Orders"
  else if orders ≤ 5 then "4-5 Orders"
  else "5+ Orders"

namespace Grouping

def name : Grouping → String
  | all => "all"
  | gender => "gender"
  | city => "city"
  | occupation => "occupation"
  | ageRange => "age_band"
  | purchaseFrequency => "purchase_frequency"

def cases : List Grouping :=
  [all, gender, city, occupation, ageRange, purchaseFrequency]

def encode (k : Grouping) : Json :=
  .text k.name

def decode? (j : Json) : Option Grouping :=
  j.caseName?.bind fun s => cases.find? fun k => k.name == s

/-- The key of the group that a customer belongs to. An unknown age counts as zero. -/
def ofCustomer (k : Grouping) (c : Customer) : Option String :=
  match k with
  | all => none
  | gender => c.demographics.gender
  | city => c.address.city
  | occupation => c.demographics.occupation
  | ageRange => some (Outreach.ageRange ((c.demographics.age.map UInt32.toNat).getD 0))
  | purchaseFrequency => some (orderRange c.stats.orderCount.toNat)

end Grouping

namespace GroupTotals

def infinity : Float :=
  Float.ofBits 0x7FF0000000000000

/-- The row of a group without members. -/
def empty (key : Option String) : GroupTotals :=
  ⟨key, 0, 0.0, infinity, -infinity, 0, 0⟩

def lesser (x y : Float) : Float :=
  if Decimal.compare? y x = some .lt then y else x

def greater (x y : Float) : Float :=
  if Decimal.compare? y x = some .gt then y else x

/-- The row after one more customer. -/
def add (r : GroupTotals) (c : Customer) : GroupTotals where
  key := r.key
  count := r.count + 1
  totalSpent := r.totalSpent + c.stats.totalSpent
  minSpent := lesser r.minSpent c.stats.totalSpent
  maxSpent := greater r.maxSpent c.stats.totalSpent
  totalOrders := r.totalOrders + c.stats.orderCount.toNat
  active := r.active + if c.isActive then 1 else 0

/-- The row of a group with the given members. -/
def ofMembers (key : Option String) (members : List Customer) : GroupTotals :=
  members.foldl add (empty key)

def layout : List Json.Part :=
  [.optional "key", .required "count", .required "total_spent", .required "min_spent",
    .required "max_spent", .required "total_orders", .required "active"]

def encode (r : GroupTotals) : Json :=
  .object [("key", .ofOption .text r.key), ("count", .ofNat r.count),
    ("total_spent", .ofFloat r.totalSpent), ("min_spent", .ofFloat r.minSpent),
    ("max_spent", .ofFloat r.maxSpent), ("total_orders", .ofNat r.totalOrders),
    ("active", .ofNat r.active)]

def decode? (j : Json) : Option GroupTotals :=
  match j.parts? layout with
  | some [key, count, totalSpent, minSpent, maxSpent, totalOrders, active] => do
    let key ← Json.given? (Json.option? Json.text?) key
    let count ← Json.given? Json.word64? count
    let totalSpent ← Json.given? Json.float? totalSpent
    let minSpent ← Json.given? Json.float? minSpent
    let maxSpent ← Json.given? Json.float? maxSpent
    let totalOrders ← Json.given? Json.word64? totalOrders
    let active ← Json.given? Json.word64? active
    some { key, count, totalSpent, minSpent, maxSpent, totalOrders, active }
  | _ => none

theorem count_foldl_add (r : GroupTotals) (members : List Customer) :
    (members.foldl add r).count = r.count + members.length := by
  induction members generalizing r with
  | nil => rfl
  | cons c rest ih => simp only [List.foldl_cons, ih, add, List.length_cons]; omega

theorem count_ofMembers (key : Option String) (members : List Customer) :
    (ofMembers key members).count = members.length := by
  simp [ofMembers, count_foldl_add, empty]

end GroupTotals

namespace Directory

/-- A missing key comes before all others. -/
instance : DecidableLT (Option String) := fun a b =>
  inferInstanceAs (Decidable (Option.lt (· < ·) a b))

/-- The keys of the groups that have members, in order and each once. -/
def groupKeys (key : Grouping) (members : List Customer) : List (Option String) :=
  Sorted.ofList id (members.map key.ofCustomer)

/-- One row for each group of the customers that satisfy a predicate. -/
def groups (d : Directory) (p : Predicate) (key : Grouping) : List GroupTotals :=
  let members := d.select p
  (groupKeys key members).map fun k =>
    GroupTotals.ofMembers k (members.filter fun c => key.ofCustomer c == k)

end Directory

end Outreach
