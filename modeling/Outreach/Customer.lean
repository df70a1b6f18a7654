import Outreach.Json.Shape

/-!
# Customers

A customer record holds what the directory knows of a person: purchases, demographics, an address,
and attributes under arbitrary names. Attributes are kept sorted by name. Everything but the id and
the name may be missing from a record as read.
-/

namespace Outreach

structure PurchaseHistory where
  totalSpent : Float
  orderCount : UInt32
  lastPurchase : Option Instant

structure Demographics where
  age : Option UInt32
  gender : Option String
  occupation : Option String

structure Address where
  city : Option String

structure Customer where
  id : String
  name : String
  email : Option String
  isActive : Bool
  stats : PurchaseHistory
  demographics : Demographics
  address : Address
  attributes : List (String × Json)

namespace PurchaseHistory

def empty : PurchaseHistory := ⟨0.0, 0, none⟩

def layout : List Json.Part :=
  [.required "total_spent", .required "order_count", .optional "last_purchase"]

def encode (s : PurchaseHistory) : Json :=
  .object [("total_spent", .ofFloat s.totalSpent), ("order_count", .ofNat s.orderCount.toNat),
    ("last_purchase", .ofOption .ofInstant s.lastPurchase)]

def decode? (j : Json) : Option PurchaseHistory :=
  match j.parts? layout with
  | some [spent, orders, last] => do
    let totalSpent ← Json.given? Json.float? spent
    let orderCount ← Json.given? Json.word32? orders
    let lastPurchase ← Json.given? (Json.option? Json.instant?) last
    some { totalSpent, orderCount, lastPurchase }
  | _ => none

end PurchaseHistory

namespace Demographics

def empty : Demographics := ⟨none, none, none⟩

def layout : List Json.Part :=
  [.optional "age", .optional "gender", .optional "occupation"]

def encode (d : Demographics) : Json :=
  .object [("age", .ofOption (fun a => .ofNat a.toNat) d.age), ("gender", .ofOption .text d.gender),
    ("occupation", .ofOption .text d.occupation)]

def decode? (j : Json) : Option Demographics :=
  match j.parts? layout with
  | some [age, gender, occupation] => do
    let age ← Json.given? (Json.option? Json.word32?) age
    let gender ← Json.given? (Json.option? Json.text?) gender
    let occupation ← Json.given? (Json.option? Json.text?) occupation
    some { age, gender, occupation }
  | _ => none

end Demographics

namespace Address

def empty : Address := ⟨none⟩

def layout : List Json.Part := [.optional "city"]

def encode (a : Address) : Json :=
  .object [("city", .ofOption .text a.city)]

def decode? (j : Json) : Option Address :=
  match j.parts? layout with
  | some [city] => (Json.given? (Json.option? Json.text?) city).map Address.mk
  | _ => none

end Address

namespace Customer

/-- A customer of whom only the id and the name are known. -/
def named (id name : String) : Customer :=
  ⟨id, name, none, false, .empty, .empty, .empty, []⟩

def layout : List Json.Part :=
  [.required "id", .required "name", .defaulted "email", .defaulted "is_active",
    .defaulted "stats", .defaulted "demographics", .defaulted "address", .defaulted "attributes"]

def encode (c : Customer) : Json :=
  .object [("id", .text c.id), ("name", .text c.name), ("email", .ofOption .text c.email),
    ("is_active", .bool c.isActive), ("stats", c.stats.encode),
    ("demographics", c.demographics.encode), ("address", c.address.encode),
    ("attributes", .object c.attributes)]

def decode? (j : Json) : Option Customer :=
  match j.parts? layout with
  | some [id, name, email, active, stats, demographics, address, attributes] => do
    let id ← Json.given? Json.text? id
    let name ← Json.given? Json.text? name
    let email ← Json.givenOr? none (Json.option? Json.text?) email
    let isActive ← Json.givenOr? false Json.bool? active
    let stats ← Json.givenOr? .empty PurchaseHistory.decode? stats
    let demographics ← Json.givenOr? .empty Demographics.decode? demographics
    let address ← Json.givenOr? .empty Address.decode? address
    let attributes ← Json.givenOr? [] Json.fields? attributes
    some { id, name, email, isActive, stats, demographics, address, attributes }
  | _ => none

def attribute? (c : Customer) (name : String) : Option Json :=
  (Sorted.get? Prod.fst name c.attributes).map Prod.snd

end Customer

end Outreach
