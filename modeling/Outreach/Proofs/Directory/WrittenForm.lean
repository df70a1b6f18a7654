import Outreach.Directory.Overview
import Outreach.Proofs.Json.Reading

/-!
# Customers and overviews read back

A customer is read back from what has been written of it if its amounts are finite, the instant of
the last purchase can be represented, and its attributes are in canonical form. The rows of grouped
totals and the overviews that are made of them are read back if their amounts are finite and their
counts fit words.
-/

namespace Outreach

open Json

/-! ## Customers -/

structure PurchaseHistory.Storable (s : PurchaseHistory) : Prop where
  totalSpent : Decimal.isFinite s.totalSpent = true
  lastPurchase : ∀ i ∈ s.lastPurchase, i.Storable

structure Customer.Storable (c : Customer) : Prop where
  stats : c.stats.Storable
  attributes : (Json.object c.attributes).Plain

theorem PurchaseHistory.reads {s : PurchaseHistory} (h : s.Storable) :
    Reads decode? s.encode s := by
  intro sorted
  have hspent := reads_float h.totalSpent sorted
  have horders := reads_word32 s.orderCount sorted
  have hlast := reads_optionalInstant h.lastPurchase sorted
  rw [decode?, encode, parts?_held_all (by simp) rfl]
  simp only [List.map_cons, List.map_nil, given?, Option.bind_eq_bind, Option.bind_some, hspent,
    horders, hlast]

theorem Demographics.reads (d : Demographics) : Reads decode? d.encode d := by
  intro sorted
  have hage : Reads (option? word32?) (ofOption (fun a => .ofNat a.toNat) d.age) d.age :=
    reads_option rfl fun a _ => reads_word32 a
  have hgender := reads_optionalText d.gender sorted
  have hoccupation := reads_optionalText d.occupation sorted
  rw [decode?, encode, parts?_held_all (by simp) rfl]
  simp only [List.map_cons, List.map_nil, given?, Option.bind_eq_bind, Option.bind_some,
    hage sorted, hgender, hoccupation]

theorem Address.reads (a : Address) : Reads decode? a.encode a := by
  intro sorted
  have hcity := reads_optionalText a.city sorted
  rw [decode?, encode, parts?_held_all (by simp) rfl]
  simp only [List.map_cons, List.map_nil, given?, Option.bind_some, hcity, Option.map_some]

theorem Customer.reads {c : Customer} (h : c.Storable) : Reads decode? c.encode c := by
  intro sorted
  have hid := reads_text c.id sorted
  have hname := reads_text c.name sorted
  have hemail := reads_optionalText c.email sorted
  have hactive := reads_bool c.isActive sorted
  have hstats := PurchaseHistory.reads h.stats sorted
  have hdemographics := c.demographics.reads sorted
  have haddress := c.address.reads sorted
  have hattributes := reads_fields h.attributes sorted
  rw [decode?, encode, parts?_held_all (by simp) rfl]
  simp only [List.map_cons, List.map_nil, given?, givenOr?, Option.bind_eq_bind, Option.bind_some,
    hid, hname, hemail, hactive, hstats, hdemographics, haddress, hattributes]

/-! ## Grouped totals -/

structure GroupTotals.Storable (r : GroupTotals) : Prop where
  count : r.count < 2 ^ 64
  totalSpent : Decimal.isFinite r.totalSpent = true
  minSpent : Decimal.isFinite r.minSpent = true
  maxSpent : Decimal.isFinite r.maxSpent = true
  totalOrders : r.totalOrders < 2 ^ 64
  active : r.active < 2 ^ 64

theorem GroupTotals.reads {r : GroupTotals} (h : r.Storable) : Reads decode? r.encode r := by
  intro sorted
  have hkey := reads_optionalText r.key sorted
  have hcount := reads_word64 h.count sorted
  have htotal := reads_float h.totalSpent sorted
  have hmin := reads_float h.minSpent sorted
  have hmax := reads_float h.maxSpent sorted
  have horders := reads_word64 h.totalOrders sorted
  have hactive := reads_word64 h.active sorted
  rw [decode?, encode, parts?_held_all (by simp) rfl]
  simp only [List.map_cons, List.map_nil, given?, Option.bind_eq_bind, Option.bind_some, hkey,
    hcount, htotal, hmin, hmax, horders, hactive]

/-! ## Overviews -/

def Bucket.Storable (b : Bucket) : Prop :=
  b.count < 2 ^ 64

structure Breakdown.Storable (d : Breakdown) : Prop where
  gender : ∀ b ∈ d.gender, b.Storable
  ageGroups : ∀ b ∈ d.ageGroups, b.Storable
  occupation : ∀ b ∈ d.occupation, b.Storable

structure SpendingSummary.Storable (s : SpendingSummary) : Prop where
  avgSpent : Decimal.isFinite s.avgSpent = true
  maxSpent : Decimal.isFinite s.maxSpent = true
  minSpent : Decimal.isFinite s.minSpent = true
  totalSpent : Decimal.isFinite s.totalSpent = true

structure ActivitySummary.Storable (s : ActivitySummary) : Prop where
  avgOrders : Decimal.isFinite s.avgOrders = true
  activeCustomers : s.activeCustomers < 2 ^ 64

structure Overview.Storable (p : Overview) : Prop where
  totalCount : p.totalCount < 2 ^ 64
  sampleCustomers : ∀ c ∈ p.sampleCustomers, c.Storable
  demographics : p.demographics.Storable
  cityDistribution : ∀ b ∈ p.cityDistribution, b.Storable
  spendingStats : p.spendingStats.Storable
  activityStats : p.activityStats.Storable
  purchaseFrequency : ∀ b ∈ p.purchaseFrequency, b.Storable

namespace Bucket

theorem reads {b : Bucket} (h : b.Storable) : Reads decode? b.encode b := by
  intro sorted
  have hlabel := reads_text b.label sorted
  have hcount := reads_word64 h sorted
  rw [decode?, encode, parts?_held_all (by simp) rfl]
  simp only [List.map_cons, List.map_nil, given?, Option.bind_eq_bind, Option.bind_some, hlabel,
    hcount]

theorem reads_encodeList {buckets : List Bucket} (h : ∀ b ∈ buckets, b.Storable) :
    Reads decodeList? (encodeList buckets) buckets :=
  reads_list fun b hb => reads (h b hb)

end Bucket

theorem Breakdown.reads {d : Breakdown} (h : d.Storable) : Reads decode? d.encode d := by
  intro sorted
  have hgender := Bucket.reads_encodeList h.gender sorted
  have hage := Bucket.reads_encodeList h.ageGroups sorted
  have hoccupation := Bucket.reads_encodeList h.occupation sorted
  rw [decode?, encode, parts?_held_all (by simp) rfl]
  simp only [List.map_cons, List.map_nil, given?, Option.bind_eq_bind, Option.bind_some, hgender,
    hage, hoccupation]

theorem SpendingSummary.reads {s : SpendingSummary} (h : s.Storable) :
    Reads decode? s.encode s := by
  intro sorted
  have havg := reads_float h.avgSpent sorted
  have hmax := reads_float h.maxSpent sorted
  have hmin := reads_float h.minSpent sorted
  have htotal := reads_float h.totalSpent sorted
  rw [decode?, encode, parts?_held_all (by simp) rfl]
  simp only [List.map_cons, List.map_nil, given?, Option.bind_eq_bind, Option.bind_some, havg, hmax,
    hmin, htotal]

theorem ActivitySummary.reads {s : ActivitySummary} (h : s.Storable) :
    Reads decode? s.encode s := by
  intro sorted
  have havg := reads_float h.avgOrders sorted
  have hactive := reads_word64 h.activeCustomers sorted
  rw [decode?, encode, parts?_held_all (by simp) rfl]
  simp only [List.map_cons, List.map_nil, given?, Option.bind_eq_bind, Option.bind_some, havg,
    hactive]

theorem Overview.reads {p : Overview} (h : p.Storable) : Reads decode? p.encode p := by
  intro sorted
  have htotal := reads_word64 h.totalCount sorted
  have hsample := reads_list (fun c hc => Customer.reads (h.sampleCustomers c hc)) sorted
  have hdemographics := Breakdown.reads h.demographics sorted
  have hcities := Bucket.reads_encodeList h.cityDistribution sorted
  have hspending := SpendingSummary.reads h.spendingStats sorted
  have hactivity := ActivitySummary.reads h.activityStats sorted
  have hpurchases := Bucket.reads_encodeList h.purchaseFrequency sorted
  rw [decode?, encode, parts?_held_all (by simp) rfl]
  simp only [List.map_cons, List.map_nil, given?, Option.bind_eq_bind, Option.bind_some, htotal,
    hsample, hdemographics, hcities, hspending, hactivity, hpurchases]

end Outreach
