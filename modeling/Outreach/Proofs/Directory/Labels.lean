import Outreach.Proofs.Directory.Ranking

/-!
# Labels of buckets

A customer is counted under the value that the record holds, or under the band of an age or an order
count. Whoever lacks the value is counted as unknown, apart from the age, which counts as zero where
it is not known. A recorded text may itself be the word for what is unknown. Next to customers who
lack the value it makes a second bucket with that label, and nothing is said of the two.
-/

namespace Outreach

namespace Grouping

/-- The value that a customer has recorded, as its band if there are bands. -/
def recorded? (key : Grouping) (c : Customer) : Option String :=
  match key with
  | all => none
  | gender => c.demographics.gender
  | city => c.address.city
  | occupation => c.demographics.occupation
  | ageRange => c.demographics.age.map fun a => Outreach.ageRange a.toNat
  | purchaseFrequency => some (orderRange c.stats.orderCount.toNat)

/-- The label for customers who lack the value. -/
def missingLabel : Grouping → String
  | ageRange => "Under 18"
  | _ => "Unknown"

/-- The label under which a customer is counted. -/
def label (key : Grouping) (c : Customer) : String :=
  (key.recorded? c).getD key.missingLabel

/-- Some of the customers lack the value, and others have recorded the word for
what is unknown. -/
def Mixed (key : Grouping) (members : List Customer) : Prop :=
  (∃ c ∈ members, key.recorded? c = none) ∧ ∃ c ∈ members, key.recorded? c = some "Unknown"

variable {key : Grouping} {members : List Customer} {c c' : Customer}

theorem getD_ofCustomer (key : Grouping) (c : Customer) :
    (key.ofCustomer c).getD "Unknown" = key.label c := by
  cases key with
  | ageRange =>
    rw [label, recorded?, ofCustomer]
    cases c.demographics.age <;> rfl
  | all => rfl
  | gender => rfl
  | city => rfl
  | occupation => rfl
  | purchaseFrequency => rfl

theorem mixed_of_ofCustomer (hc : c ∈ members) (hc' : c' ∈ members)
    (missing : key.ofCustomer c = none) (unknown : key.ofCustomer c' = some "Unknown") :
    key.Mixed members := by
  cases key with
  | gender => exact ⟨⟨c, hc, missing⟩, c', hc', unknown⟩
  | city => exact ⟨⟨c, hc, missing⟩, c', hc', unknown⟩
  | occupation => exact ⟨⟨c, hc, missing⟩, c', hc', unknown⟩
  | all => cases unknown
  | ageRange => cases missing
  | purchaseFrequency => cases missing

theorem ageRange_ne_unknown (n : Nat) : Outreach.ageRange n ≠ "Unknown" := by
  rw [Outreach.ageRange]
  repeat' split
  all_goals decide

/-- Bands are never mixed up with what is unknown. -/
theorem not_mixed_of_bands (banded : key = ageRange ∨ key = purchaseFrequency) :
    ¬ key.Mixed members := by
  rintro ⟨⟨c, -, missing⟩, c', -, unknown⟩
  rcases banded with rfl | rfl
  · obtain ⟨a, -, ha⟩ := Option.map_eq_some_iff.mp unknown
    exact ageRange_ne_unknown _ ha
  · cases missing

/-- Customers that come under one label have one key, unless labels are mixed up. -/
theorem ofCustomer_eq_of_label (hc : c ∈ members) (hc' : c' ∈ members)
    (same : key.label c = key.label c') (clear : key.label c = "Unknown" → ¬ key.Mixed members) :
    key.ofCustomer c = key.ofCustomer c' := by
  rw [← getD_ofCustomer, ← getD_ofCustomer] at same
  rw [← getD_ofCustomer] at clear
  cases hk : key.ofCustomer c with
  | none =>
    cases hk' : key.ofCustomer c' with
    | none => rfl
    | some s =>
      rw [hk, hk'] at same
      obtain rfl : "Unknown" = s := same
      exact absurd (mixed_of_ofCustomer hc hc' hk hk') (clear (by rw [hk]; rfl))
  | some s =>
    cases hk' : key.ofCustomer c' with
    | none =>
      rw [hk, hk'] at same
      obtain rfl : s = "Unknown" := same
      exact absurd (mixed_of_ofCustomer hc' hc hk' hk) (clear (by rw [hk]; rfl))
    | some t =>
      rw [hk, hk'] at same
      exact congrArg some same

end Grouping

/-- Each bucket counts the customers that come under its label, and no two buckets have one label.
Where labels are mixed up, nothing is said of those for what is unknown. -/
structure Classifies (members : List Customer) (key : Grouping) (buckets : List Bucket) :
    Prop where
  distinct : buckets.Pairwise fun a b =>
    a.label = b.label → a.label = "Unknown" ∧ key.Mixed members
  counts : ∀ b ∈ buckets, (b.label = "Unknown" → ¬ key.Mixed members) →
    b.count = members.countP (fun c => key.label c == b.label) ∧ 1 ≤ b.count

/-- Every customer comes under the label of a bucket. -/
def Covers (members : List Customer) (key : Grouping) (buckets : List Bucket) : Prop :=
  ∀ c ∈ members, ∃ b ∈ buckets, b.label = key.label c

namespace GroupTotals

variable {key : Grouping} {members : List Customer}

theorem exists_label {r : GroupTotals} (h : r ∈ table key members) :
    ∃ c ∈ members, key.ofCustomer c = r.key ∧ (Bucket.ofRow r).label = key.label c := by
  obtain ⟨-, c, hc, hkey⟩ := mem_table h
  refine ⟨c, hc, hkey, ?_⟩
  rw [← Grouping.getD_ofCustomer, hkey]
  rfl

theorem classifies_table (key : Grouping) (members : List Customer) :
    Classifies members key ((table key members).map Bucket.ofRow) where
  distinct := by
    rw [List.pairwise_map]
    refine (pairwise_table key members).imp_of_mem fun {a b} ha hb hlt same => ?_
    obtain ⟨c, hc, hkey, hlabel⟩ := exists_label ha
    obtain ⟨c', hc', hkey', hlabel'⟩ := exists_label hb
    by_contra hclear
    rw [hlabel, hlabel'] at same
    have hkeys := Grouping.ofCustomer_eq_of_label hc hc' same fun hunknown mixed =>
      hclear ⟨hlabel.trans hunknown, mixed⟩
    rw [hkey, hkey'] at hkeys
    exact Std.ne_of_lt hlt hkeys
  counts := by
    intro b hb clear
    obtain ⟨r, hr, rfl⟩ := List.mem_map.mp hb
    obtain ⟨c, hc, hkey, hlabel⟩ := exists_label hr
    have hsums := (table_tabulates key members).each r hr
    have hcount : (Bucket.ofRow r).count =
        (members.filter fun c => key.ofCustomer c == r.key).length := hsums.count
    refine ⟨?_, hsums.inhabited⟩
    rw [hcount, ← List.countP_eq_length_filter]
    apply List.countP_congr
    intro c' hc'
    rw [beq_iff_eq, beq_iff_eq, hlabel, ← hkey]
    constructor
    · intro hsame
      rw [← Grouping.getD_ofCustomer, ← Grouping.getD_ofCustomer, hsame]
    · intro hsame
      exact Grouping.ofCustomer_eq_of_label hc' hc hsame fun hunknown =>
        clear (hlabel.trans (hsame.symm.trans hunknown))

theorem covers_table (key : Grouping) (members : List Customer) :
    Covers members key ((table key members).map Bucket.ofRow) := by
  intro c hc
  obtain ⟨r, hr, hkey⟩ := List.mem_map.mp ((table_tabulates key members).covered c hc)
  refine ⟨Bucket.ofRow r, List.mem_map_of_mem hr, ?_⟩
  rw [← Grouping.getD_ofCustomer, ← hkey]
  rfl

end GroupTotals

variable {members : List Customer} {key : Grouping} {buckets : List Bucket}

theorem Bucket.mem_of_mem_largest {limit : Nat} {b : Bucket} (h : b ∈ Bucket.largest limit buckets) :
    b ∈ buckets :=
  (List.mergeSort_perm _ _).mem_iff.mp (List.mem_of_mem_take h)

theorem Classifies.largest (h : Classifies members key buckets) (limit : Nat) :
    Classifies members key (Bucket.largest limit buckets) where
  distinct := by
    refine List.Pairwise.sublist (List.take_sublist _ _) ?_
    refine (List.mergeSort_perm _ _).symm.pairwise h.distinct ?_
    intro a b hab same
    rw [same]
    exact hab same.symm
  counts b hb := h.counts b (Bucket.mem_of_mem_largest hb)

theorem Covers.largest {limit : Nat} (h : Covers members key buckets)
    (all : (Bucket.largest limit buckets).length < limit) :
    Covers members key (Bucket.largest limit buckets) := by
  have hwhole : Bucket.largest limit buckets =
      buckets.mergeSort fun a b => decide (b.count ≤ a.count) := by
    rw [Bucket.largest, List.length_take] at all
    exact List.take_of_length_le (by omega)
  intro c hc
  obtain ⟨b, hb, hlabel⟩ := h c hc
  rw [hwhole]
  exact ⟨b, (List.mergeSort_perm _ _).mem_iff.mpr hb, hlabel⟩

/-- The lists of buckets of an overview that are whole. -/
def Overview.wholeLists (v : Overview) : List (Grouping × List Bucket) :=
  [(.gender, v.demographics.gender), (.ageRange, v.demographics.ageGroups),
    (.purchaseFrequency, v.purchaseFrequency)]

/-- The lists of buckets of an overview that are cut to the largest groups. -/
def Overview.cutLists (v : Overview) : List (Grouping × List Bucket) :=
  [(.occupation, v.demographics.occupation), (.city, v.cityDistribution)]

namespace Directory

open Segment

/-- The buckets of an overview classify the customers that satisfy the predicate, each under one
label: that of the recorded value or band, the word for what is unknown where there is none, and the
lowest band where there is no age. Ages and order counts are never mixed up with
what is unknown. -/
theorem overview_classifies (d : Directory) (p : Predicate) (s : OverviewSettings) :
    let v := d.overview p s
    let found := d.find p none
    (∀ l ∈ v.wholeLists, Classifies found l.1 l.2 ∧ Covers found l.1 l.2) ∧
      (∀ l ∈ v.cutLists, Classifies found l.1 l.2 ∧
        (l.2.length < s.topN → Covers found l.1 l.2)) ∧
      ¬ Grouping.ageRange.Mixed found ∧ ¬ Grouping.purchaseFrequency.Mixed found := by
  intro v found
  have hclassifies (key : Grouping) : Classifies found key (d.distribution p key) :=
    GroupTotals.classifies_table key found
  have hcovers (key : Grouping) : Covers found key (d.distribution p key) :=
    GroupTotals.covers_table key found
  refine ⟨?_, ?_, Grouping.not_mixed_of_bands (.inl rfl), Grouping.not_mixed_of_bands (.inr rfl)⟩
  · intro l hl
    simp only [Overview.wholeLists, List.mem_cons, List.not_mem_nil, or_false] at hl
    rcases hl with rfl | rfl | rfl
    · exact ⟨hclassifies .gender, hcovers .gender⟩
    · exact ⟨hclassifies .ageRange, hcovers .ageRange⟩
    · exact ⟨hclassifies .purchaseFrequency, hcovers .purchaseFrequency⟩
  · intro l hl
    simp only [Overview.cutLists, List.mem_cons, List.not_mem_nil, or_false] at hl
    rcases hl with rfl | rfl
    · exact ⟨(hclassifies .occupation).largest s.topN, (hcovers .occupation).largest⟩
    · exact ⟨(hclassifies .city).largest s.topN, (hcovers .city).largest⟩

/-- A city that is called like what is unknown makes a second bucket of that label beside the
customers without a city, and a customer without an age is counted under the lowest band, not
as unknown. -/
theorem unknown_recurs :
    let d := ofList [Customer.named "cust-00" "Customer 0",
      { Customer.named "cust-01" "Customer 1" with
        demographics := ⟨some 30, none, none⟩, address := ⟨some "Unknown"⟩ }]
    let v := d.overview .unconstrained .default
    let found := d.find .unconstrained none
    ¬ (v.cityDistribution.map Bucket.label).Nodup ∧
      ¬ ∀ b ∈ v.demographics.ageGroups,
        b.count = found.countP fun c => (Grouping.ageRange.recorded? c).getD "Unknown" == b.label := by
  intro d v found
  constructor
  · have hdistribution : d.distribution .unconstrained .city = [⟨"Unknown", 1⟩, ⟨"Unknown", 1⟩] := by
      decide +kernel
    have hsorted : Bucket.largest 5 (d.distribution .unconstrained .city) =
        d.distribution .unconstrained .city := by
      rw [hdistribution, Bucket.largest, List.mergeSort_of_pairwise (by decide)]
      rfl
    have hcities : v.cityDistribution = [⟨"Unknown", 1⟩, ⟨"Unknown", 1⟩] :=
      hsorted.trans hdistribution
    rw [hcities]
    decide
  · decide +kernel

end Directory

end Outreach
