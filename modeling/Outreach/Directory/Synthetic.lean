import Outreach.Customer
import Outreach.Random.Generator

/-!
# Synthetic customers

A directory for trials is filled with customers whose data are drawn from a generator. Four in five
are active. Whoever has ordered has also purchased, a whole number of days ago and within the last
year. The draws of one customer follow each other in a fixed order, so a seed fixes all customers.
-/

namespace Outreach.Synthetic

def cities : List String := ["Lyon", "Porto", "Leeds", "Utrecht", "Graz"]

def occupations : List String := ["Engineer", "Teacher", "Nurse", "Designer", "Accountant"]

def genders : List String := ["female", "male", "non-binary"]

/-- A number with zeros in front, so that it has at least the given length. -/
def padded (length n : Nat) : String :=
  let digits := toString n
  String.ofList (List.replicate (length - digits.length) '0') ++ digits

/-- An amount rounded to hundredths, a half away from zero. -/
def roundCents (x : Float) : Float :=
  match Decimal.rounded? (x * 100.0) with
  | some cents => Decimal.ofInt cents / 100.0
  | none => x

def drawStats (now : Instant) (g : Generator) : PurchaseHistory × Generator :=
  let (spent, g) := g.floatBelow 3000.0
  let (orders, g) := g.uniform 32 0 12
  let (lastPurchase, g) :=
    if orders = 0 then (none, g)
    else
      let (days, g) := g.uniform 64 0 365
      (now.subDays? days, g)
  (⟨roundCents spent, UInt32.ofNat orders, lastPurchase⟩, g)

def drawDemographics (g : Generator) : Demographics × Generator :=
  let (age, g) := g.uniform 32 16 80
  let (gender, g) := g.element? genders
  let (occupation, g) := g.element? occupations
  (⟨some (UInt32.ofNat age), gender, occupation⟩, g)

/-- The customer with a given number. -/
def drawCustomer (now : Instant) (index : Nat) (g : Generator) : Customer × Generator :=
  let (isActive, g) := g.chance 0.8
  let (stats, g) := drawStats now g
  let (demographics, g) := drawDemographics g
  let (city, g) := g.element? cities
  let number := toString index
  ({ Customer.named ("cust-" ++ padded 6 index) ("Customer " ++ number) with
     email := some ("customer" ++ number ++ "@example.com")
     isActive, stats, demographics
     address := ⟨city⟩ }, g)

/-- The customers with the numbers from `index` on. -/
def drawCustomers (now : Instant) : Nat → Nat → Generator → List Customer
  | 0, _, _ => []
  | count + 1, index, g =>
    let (c, g) := drawCustomer now index g
    c :: drawCustomers now count (index + 1) g

/-- A number of customers drawn from a seed. -/
def customers (now : Instant) (count : Nat) (seed : UInt64) : List Customer :=
  drawCustomers now count 0 (.seeded seed)

end Outreach.Synthetic
