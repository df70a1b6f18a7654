import Outreach.Directory.Group

/-!
# Segment overviews

An overview shows whom a rule set would reach: how many customers, a few of them, and how they are
distributed over gender, age, occupation, city and order count. Occupations and cities are cut to
the largest groups, where equal groups keep the order of their keys. Customers without a recorded
value are counted under one label of their own.
-/

namespace Outreach

open Segment

structure Bucket where
  label : String
  count : Nat
  deriving DecidableEq, Repr

structure Breakdown where
  gender : List Bucket
  ageGroups : List Bucket
  occupation : List Bucket

structure SpendingSummary where
  avgSpent : Float
  maxSpent : Float
  minSpent : Float
  totalSpent : Float

structure ActivitySummary where
  avgOrders : Float
  activeCustomers : Nat

structure Overview where
  totalCount : Nat
  sampleCustomers : List Customer
  demographics : Breakdown
  cityDistribution : List Bucket
  spendingStats : SpendingSummary
  activityStats : ActivitySummary
  purchaseFrequency : List Bucket

/-- How much of a segment an overview shows. -/
structure OverviewSettings where
  sampleSize : Nat
  topN : Nat
  deriving DecidableEq, Repr

namespace OverviewSettings

def default : OverviewSettings := ⟨5, 5⟩

def layout : List Json.Part :=
  [.defaulted "preview_sample_size", .defaulted "preview_top_n"]

def encode (s : OverviewSettings) : Json :=
  .object [("preview_sample_size", .ofNat s.sampleSize), ("preview_top_n", .ofNat s.topN)]

def decodeWith? (r : Json.Reading) (j : Json) : Option OverviewSettings :=
  match r.parts? layout j with
  | some [size, top] => do
    let sampleSize ← Json.givenOr? default.sampleSize r.word? size
    let topN ← Json.givenOr? default.topN r.word? top
    some { sampleSize, topN }
  | _ => none

def decode? : Json → Option OverviewSettings :=
  decodeWith? .strict

end OverviewSettings

namespace Bucket

def unknownLabel : String := "Unknown"

def ofRow (r : GroupTotals) : Bucket :=
  ⟨r.key.getD unknownLabel, r.count⟩

/-- The largest buckets first, equal ones in their given order. -/
def largest (n : Nat) (buckets : List Bucket) : List Bucket :=
  (buckets.mergeSort fun a b => decide (b.count ≤ a.count)).take n

def encode (b : Bucket) : Json :=
  .object [("label", .text b.label), ("count", .ofNat b.count)]

def decode? (j : Json) : Option Bucket :=
  match j.parts? [.required "label", .required "count"] with
  | some [label, count] => do
    let label ← Json.given? Json.text? label
    let count ← Json.given? Json.word64? count
    some { label, count }
  | _ => none

def encodeList (buckets : List Bucket) : Json :=
  .array (buckets.map encode)

def decodeList? (j : Json) : Option (List Bucket) :=
  j.list? decode?

end Bucket

namespace Breakdown

def encode (d : Breakdown) : Json :=
  .object [("gender", Bucket.encodeList d.gender), ("age_groups", Bucket.encodeList d.ageGroups),
    ("occupation", Bucket.encodeList d.occupation)]

def decode? (j : Json) : Option Breakdown :=
  match j.parts? [.required "gender", .required "age_groups", .required "occupation"] with
  | some [gender, ageGroups, occupation] => do
    let gender ← Json.given? Bucket.decodeList? gender
    let ageGroups ← Json.given? Bucket.decodeList? ageGroups
    let occupation ← Json.given? Bucket.decodeList? occupation
    some { gender, ageGroups, occupation }
  | _ => none

end Breakdown

namespace SpendingSummary

def zero : SpendingSummary := ⟨0.0, 0.0, 0.0, 0.0⟩

def ofRow (r : GroupTotals) : SpendingSummary :=
  ⟨r.totalSpent / Decimal.ofInt r.count, r.maxSpent, r.minSpent, r.totalSpent⟩

def encode (s : SpendingSummary) : Json :=
  .object [("avg_spent", .ofFloat s.avgSpent), ("max_spent", .ofFloat s.maxSpent),
    ("min_spent", .ofFloat s.minSpent), ("total_spent", .ofFloat s.totalSpent)]

def decode? (j : Json) : Option SpendingSummary :=
  match j.parts? [.required "avg_spent", .required "max_spent", .required "min_spent",
      .required "total_spent"] with
  | some [avg, max, min, total] => do
    let avgSpent ← Json.given? Json.float? avg
    let maxSpent ← Json.given? Json.float? max
    let minSpent ← Json.given? Json.float? min
    let totalSpent ← Json.given? Json.float? total
    some { avgSpent, maxSpent, minSpent, totalSpent }
  | _ => none

end SpendingSummary

namespace ActivitySummary

def zero : ActivitySummary := ⟨0.0, 0⟩

def ofRow (r : GroupTotals) : ActivitySummary :=
  ⟨Decimal.ofInt r.totalOrders / Decimal.ofInt r.count, r.active⟩

def encode (s : ActivitySummary) : Json :=
  .object [("avg_orders", .ofFloat s.avgOrders), ("active_customers", .ofNat s.activeCustomers)]

def decode? (j : Json) : Option ActivitySummary :=
  match j.parts? [.required "avg_orders", .required "active_customers"] with
  | some [avg, active] => do
    let avgOrders ← Json.given? Json.float? avg
    let activeCustomers ← Json.given? Json.word64? active
    some { avgOrders, activeCustomers }
  | _ => none

end ActivitySummary

namespace Overview

def layout : List Json.Part :=
  [.required "total_count", .required "sample_customers", .required "demographics",
    .required "city_distribution", .required "spending_stats", .required "activity_stats",
    .required "purchase_frequency"]

def encode (p : Overview) : Json :=
  .object [("total_count", .ofNat p.totalCount),
    ("sample_customers", .array (p.sampleCustomers.map Customer.encode)),
    ("demographics", p.demographics.encode),
    ("city_distribution", Bucket.encodeList p.cityDistribution),
    ("spending_stats", p.spendingStats.encode), ("activity_stats", p.activityStats.encode),
    ("purchase_frequency", Bucket.encodeList p.purchaseFrequency)]

def decode? (j : Json) : Option Overview :=
  match j.parts? layout with
  | some [total, sample, demographics, cities, spending, activity, purchases] => do
    let totalCount ← Json.given? Json.word64? total
    let sampleCustomers ← Json.given? (Json.list? Customer.decode?) sample
    let demographics ← Json.given? Breakdown.decode? demographics
    let cityDistribution ← Json.given? Bucket.decodeList? cities
    let spendingStats ← Json.given? SpendingSummary.decode? spending
    let activityStats ← Json.given? ActivitySummary.decode? activity
    let purchaseFrequency ← Json.given? Bucket.decodeList? purchases
    some { totalCount, sampleCustomers, demographics, cityDistribution, spendingStats,
           activityStats, purchaseFrequency }
  | _ => none

end Overview

namespace Directory

/-- The buckets of all groups, in the order of their keys. -/
def distribution (d : Directory) (p : Predicate) (key : Grouping) : List Bucket :=
  (d.groups p key).map Bucket.ofRow

/-- The overview of the customers that satisfy a predicate. -/
def overview (d : Directory) (p : Predicate) (s : OverviewSettings) : Overview :=
  let overall := (d.groups p .all).head?
  { totalCount := d.count p
    sampleCustomers := d.find p (some s.sampleSize)
    demographics :=
      { gender := d.distribution p .gender
        ageGroups := d.distribution p .ageRange
        occupation := Bucket.largest s.topN (d.distribution p .occupation) }
    cityDistribution := Bucket.largest s.topN (d.distribution p .city)
    spendingStats := (overall.map SpendingSummary.ofRow).getD .zero
    activityStats := (overall.map ActivitySummary.ofRow).getD .zero
    purchaseFrequency := d.distribution p .purchaseFrequency }

end Directory

end Outreach
