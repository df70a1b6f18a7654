import Outreach.Directory.Overview
import Outreach.Proofs.Directory.Queries

/-!
# An overview and the customers it is about

An overview is put together from several queries, and all of them speak of the customers that
satisfy the predicate. Its full lists of buckets add up to their number. The lists of the largest
groups are the front of a ranking: all groups by size, those of one size in the order of their keys.
The ranking is the stable sort of the groups, which are in the order of their keys before.
-/

namespace Outreach

/-! ## Stable sorting by weight -/

section Weight

variable {α : Type} (weight : α → Nat)

theorem weight_trans (a b c : α) (hab : decide (weight b ≤ weight a) = true)
    (hbc : decide (weight c ≤ weight b) = true) : decide (weight c ≤ weight a) = true := by
  rw [decide_eq_true_eq] at *
  exact Nat.le_trans hbc hab

theorem weight_total (a b : α) :
    (decide (weight b ≤ weight a) || decide (weight a ≤ weight b)) = true := by
  rw [Bool.or_eq_true, decide_eq_true_eq, decide_eq_true_eq]
  exact Nat.le_total _ _

/-- Sorting by falling weight leaves entries of one weight in their order. -/
theorem filter_mergeSort_weight (entries : List α) (n : Nat) :
    (entries.mergeSort fun a b => decide (weight b ≤ weight a)).filter (weight · == n) =
      entries.filter (weight · == n) := by
  let sorted := entries.mergeSort fun a b => decide (weight b ≤ weight a)
  have hequal : (entries.filter (weight · == n)).Pairwise fun a b =>
      decide (weight b ≤ weight a) = true := by
    refine List.pairwise_of_forall_mem_list fun a ha b hb => ?_
    have haw : weight a = n := by simpa using (List.mem_filter.mp ha).2
    have hbw : weight b = n := by simpa using (List.mem_filter.mp hb).2
    exact decide_eq_true (by omega)
  have hsub : (entries.filter (weight · == n)).Sublist sorted :=
    List.sublist_mergeSort (weight_trans weight) (weight_total weight) hequal List.filter_sublist
  have hfiltered := hsub.filter (weight · == n)
  rw [List.filter_filter] at hfiltered
  simp only [Bool.and_self] at hfiltered
  have hperm : (sorted.filter (weight · == n)).Perm (entries.filter (weight · == n)) :=
    (List.mergeSort_perm _ _).filter _
  exact (hfiltered.eq_of_length hperm.length_eq.symm).symm

variable {weight}

/-- Entries that are in some order are, after sorting by falling weight, in the order of
weight and then in the order that they were in. -/
theorem pairwise_mergeSort_weight {R : α → α → Prop} {entries : List α} (h : entries.Pairwise R) :
    (entries.mergeSort fun a b => decide (weight b ≤ weight a)).Pairwise fun a b =>
      weight b < weight a ∨ weight a = weight b ∧ R a b := by
  have hsorted := List.pairwise_mergeSort (weight_trans weight) (weight_total weight) entries
  rw [List.pairwise_iff_forall_sublist] at h hsorted ⊢
  intro a b hab
  rcases Nat.lt_or_eq_of_le (of_decide_eq_true (hsorted hab)) with hlt | heq
  · exact .inl hlt
  · -- two entries of one weight stand in the sorted list as they did before
    have hclass := hab.filter (weight · == weight a)
    rw [filter_mergeSort_weight, List.filter_eq_self.mpr (by simp [heq])] at hclass
    exact .inr ⟨heq.symm, h (hclass.trans List.filter_sublist)⟩

end Weight

/-! ## Rankings -/

/-- All groups of some customers with their sizes, by the text that the customers have recorded. The
larger groups come first and groups of one size in the order of their texts, of which a
missing one is the first. -/
structure Ranking (members : List Customer) (recorded : Customer → Option String)
    (groups : List (Option String × Nat)) : Prop where
  sizes : ∀ g ∈ groups, g.2 = members.countP (fun c => recorded c == g.1) ∧ 1 ≤ g.2
  covered : ∀ c ∈ members, recorded c ∈ groups.map Prod.fst
  ordered : groups.Pairwise fun a b => b.2 < a.2 ∨ a.2 = b.2 ∧ a.1 < b.1

/-- The buckets are those of the first groups of a ranking, and no group left out is larger. -/
def Leading (members : List Customer) (recorded : Customer → Option String) (limit : Nat)
    (buckets : List Bucket) : Prop :=
  ∃ groups, Ranking members recorded groups ∧
    buckets = (groups.take limit).map (fun g => ⟨g.1.getD "Unknown", g.2⟩) ∧
    ∀ kept ∈ groups.take limit, ∀ omitted ∈ groups.drop limit, omitted.2 ≤ kept.2

variable {members : List Customer} {recorded : Customer → Option String}
  {groups : List (Option String × Nat)}

theorem Ranking.omitted_le (h : Ranking members recorded groups) (limit : Nat) :
    ∀ kept ∈ groups.take limit, ∀ omitted ∈ groups.drop limit, omitted.2 ≤ kept.2 := by
  intro kept hkept omitted homitted
  have hordered := h.ordered
  rw [← List.take_append_drop limit groups, List.pairwise_append] at hordered
  rcases hordered.2.2 kept hkept omitted homitted with hlt | ⟨heq, -⟩
  · exact Nat.le_of_lt hlt
  · exact Nat.le_of_eq heq.symm

namespace GroupTotals

variable {key : Grouping}

/-- The rows by falling count. -/
def ranked (key : Grouping) (members : List Customer) : List GroupTotals :=
  (table key members).mergeSort fun a b => decide (b.count ≤ a.count)

theorem mem_ranked {r : GroupTotals} : r ∈ ranked key members ↔ r ∈ table key members :=
  (List.mergeSort_perm _ _).mem_iff

theorem ranking_ranked (key : Grouping) (members : List Customer) :
    Ranking members key.ofCustomer ((ranked key members).map fun r => (r.key, r.count)) where
  sizes := by
    intro g hg
    obtain ⟨r, hr, rfl⟩ := List.mem_map.mp hg
    have hsums := (table_tabulates key members).each r (mem_ranked.mp hr)
    rw [List.countP_eq_length_filter]
    exact ⟨hsums.count, hsums.inhabited⟩
  covered := by
    intro c hc
    obtain ⟨r, hr, hkey⟩ := List.mem_map.mp ((table_tabulates key members).covered c hc)
    rw [List.map_map]
    exact List.mem_map.mpr ⟨r, mem_ranked.mpr hr, hkey⟩
  ordered := by
    rw [List.pairwise_map]
    exact pairwise_mergeSort_weight (pairwise_table key members)

theorem largest_table (limit : Nat) :
    Bucket.largest limit ((table key members).map Bucket.ofRow) =
      ((ranked key members).take limit).map Bucket.ofRow := by
  have hmap : ((table key members).map Bucket.ofRow).mergeSort
      (fun a b => decide (b.count ≤ a.count)) = (ranked key members).map Bucket.ofRow := by
    refine (List.map_mergeSort (f := Bucket.ofRow) ?_).symm
    exact fun _ _ _ _ => rfl
  rw [Bucket.largest, hmap, List.map_take]

theorem leading_largest (key : Grouping) (members : List Customer) (limit : Nat) :
    Leading members key.ofCustomer limit
      (Bucket.largest limit ((table key members).map Bucket.ofRow)) := by
  have hranking := ranking_ranked key members
  refine ⟨_, hranking, ?_, hranking.omitted_le limit⟩
  rw [largest_table, ← List.map_take, List.map_map]
  rfl

theorem sum_buckets (key : Grouping) (members : List Customer) :
    (((table key members).map Bucket.ofRow).map Bucket.count).sum = members.length := by
  rw [List.map_map]
  exact (table_tabulates key members).counts

/-- All customers are in the one group of the grouping that does not distinguish them. -/
theorem head?_table_all :
    (table .all members).head? = if members = [] then none else some (ofMembers none members) := by
  cases members with
  | nil => rfl
  | cons c rest =>
    rw [if_neg (List.cons_ne_nil c rest)]
    have htabulates := table_tabulates .all (c :: rest)
    obtain ⟨r, hr, hkey⟩ := List.mem_map.mp (htabulates.covered c List.mem_cons_self)
    have hnone : r.key = none := hkey
    have hrow := (mem_table hr).1
    rw [hnone, List.filter_eq_self.mpr (by simp [Grouping.ofCustomer])] at hrow
    rw [htabulates.missing_first r hr hnone, hrow]

end GroupTotals

/-! ## Overviews -/

/-- The overview is one of these customers. -/
structure Overview.Describes (v : Overview) (members : List Customer) (s : OverviewSettings) :
    Prop where
  total : v.totalCount = members.length
  sample : v.sampleCustomers = members.take s.sampleSize
  sampleSize : v.sampleCustomers.length = min s.sampleSize v.totalCount
  genders : (v.demographics.gender.map Bucket.count).sum = v.totalCount
  ages : (v.demographics.ageGroups.map Bucket.count).sum = v.totalCount
  purchases : (v.purchaseFrequency.map Bucket.count).sum = v.totalCount
  occupations : Leading members (fun c => c.demographics.occupation) s.topN v.demographics.occupation
  cities : Leading members (fun c => c.address.city) s.topN v.cityDistribution
  active : v.activityStats.activeCustomers = members.countP Customer.isActive
  unspent : members = [] → v.spendingStats = ⟨0.0, 0.0, 0.0, 0.0⟩
  idle : members = [] → v.activityStats = ⟨0.0, 0⟩

namespace Directory

open Segment

theorem overview_describes (d : Directory) (p : Predicate) (s : OverviewSettings) :
    (d.overview p s).Describes (d.select p) s := by
  have hcount : d.count p = (d.select p).length := d.count_eq_length_select p
  have hall : (d.groups p .all).head? =
      if d.select p = [] then none else some (GroupTotals.ofMembers none (d.select p)) :=
    GroupTotals.head?_table_all
  constructor
  case total => exact hcount
  case sample => rfl
  case sampleSize =>
    rw [overview, hcount]
    exact List.length_take
  case genders => exact (GroupTotals.sum_buckets .gender _).trans hcount.symm
  case ages => exact (GroupTotals.sum_buckets .ageRange _).trans hcount.symm
  case purchases => exact (GroupTotals.sum_buckets .purchaseFrequency _).trans hcount.symm
  case occupations => exact GroupTotals.leading_largest .occupation _ s.topN
  case cities => exact GroupTotals.leading_largest .city _ s.topN
  case active =>
    simp only [overview, hall]
    split
    · rename_i hnone
      rw [hnone]
      rfl
    · exact GroupTotals.active_ofMembers none _
  case unspent =>
    intro hnone
    simp only [overview, hall, hnone, if_true]
    rfl
  case idle =>
    intro hnone
    simp only [overview, hall, hnone, if_true]
    rfl

theorem pairwise_select (puts : List Customer) (p : Predicate) :
    ((puts.foldl put empty).select p).Pairwise fun a b => a.id < b.id := by
  have hordered : (puts.foldl put empty).customers.Pairwise fun a b => a.id < b.id := by
    rw [customers_foldl_put]
    exact Sorted.pairwise_ofList Customer.id puts
  exact hordered.filter _

/-- Whatever has been put into a directory, an overview is one of the customers that
satisfy the predicate, in the order of their ids. -/
theorem overview_agrees (puts : List Customer) (p : Predicate) (s : OverviewSettings) :
    let d := puts.foldl put empty
    let found := d.find p none
    (∀ c, c ∈ found ↔ Stands c puts ∧ p.satisfied c = true) ∧
      (found.Pairwise fun a b => a.id < b.id) ∧
      (d.overview p s).Describes found s := by
  intro d found
  refine ⟨?_, pairwise_select puts p, overview_describes d p s⟩
  intro c
  rw [← mem_foldl_put]
  exact mem_select

end Directory

end Outreach
