import Mathlib.Algebra.GroupWithZero.Nat
import Mathlib.Data.List.Perm.Basic
import Outreach.Directory.Group
import Outreach.Proofs.Sorted

/-!
# What the queries of a directory have in common

Counting, finding and grouping speak of the same customers, whatever has been put before. The rows
of a grouping divide the customers that were found: put one after the other, the groups are these
customers in another order. So whatever is added up within the groups adds up to the whole. The rows
are also what one pass over the customers makes, which enters each of them in the row of its group.
-/

namespace Outreach

/-! ## Keys of groups -/

instance isLinearOrder_optionString : Std.IsLinearOrder (Option String) where
  le_refl
    | none => trivial
    | some s => Std.le_refl s
  le_trans
    | none, _, none, _, _ => trivial
    | none, _, some _, _, _ => trivial
    | some _, some _, some _, hab, hbc => Std.le_trans (α := String) hab hbc
  le_antisymm
    | none, none, _, _ => rfl
    | some _, some _, hab, hba => congrArg some (Std.le_antisymm (α := String) hab hba)
  le_total
    | none, none => Or.inl trivial
    | none, some _ => Or.inl trivial
    | some _, none => Or.inr trivial
    | some a, some b => Std.le_total (a := a) (b := b)

instance lawfulOrderLT_optionString : Std.LawfulOrderLT (Option String) where
  lt_iff
    | none, none => by simp
    | none, some _ => by simp
    | some _, none => by simp
    | some a, some b => by
      rw [Option.some_lt_some, Option.some_le_some, Option.some_le_some]
      exact Std.LawfulOrderLT.lt_iff a b

/-- Groups that are put one after the other are the entries in another order, if every entry has
one of the keys. -/
theorem flatMap_groups_perm {α κ : Type} [BEq κ] [LawfulBEq κ] (key : α → κ) {keys : List κ}
    (distinct : keys.Nodup) {entries : List α} (covered : ∀ a ∈ entries, key a ∈ keys) :
    (keys.flatMap fun k => entries.filter fun a => key a == k).Perm entries := by
  induction keys generalizing entries with
  | nil =>
    have hnone : entries = [] :=
      List.eq_nil_iff_forall_not_mem.mpr fun a ha => List.not_mem_nil (covered a ha)
    rw [hnone]
    exact List.Perm.refl _
  | cons k rest ih =>
    obtain ⟨hk, hrest⟩ := List.nodup_cons.mp distinct
    let others := entries.filter fun a => !(key a == k)
    have hcovered : ∀ a ∈ others, key a ∈ rest := by
      intro a ha
      obtain ⟨hmem, hne⟩ := List.mem_filter.mp ha
      exact (List.mem_cons.mp (covered a hmem)).resolve_left (by simpa using hne)
    -- the other groups do not miss the entries of the first one
    have hsame : (rest.flatMap fun j => entries.filter fun a => key a == j) =
        rest.flatMap fun j => others.filter fun a => key a == j := by
      apply List.flatMap_congr
      intro j hj
      rw [List.filter_filter]
      apply List.filter_congr
      intro a _
      by_cases ha : key a = j
      · have hne : j ≠ k := fun he => hk (he ▸ hj)
        simp [ha, hne]
      · simp [ha]
    rw [List.flatMap_cons, hsame]
    exact ((ih hrest hcovered).append_left _).trans (List.filter_append_perm _ entries)

namespace GroupTotals

/-! ## The row of a group -/

theorem totalSpent_ofMembers (key : Option String) (members : List Customer) :
    (ofMembers key members).totalSpent =
      (members.map fun c => c.stats.totalSpent).foldl (· + ·) 0.0 := by
  rw [List.foldl_map]
  exact (List.foldl_hom totalSpent fun _ _ => rfl).symm

theorem totalOrders_ofMembers (key : Option String) (members : List Customer) :
    (ofMembers key members).totalOrders =
      (members.map fun c => c.stats.orderCount.toNat).sum := by
  rw [List.sum_eq_foldl, List.foldl_map]
  exact (List.foldl_hom totalOrders fun _ _ => rfl).symm

theorem active_ofMembers (key : Option String) (members : List Customer) :
    (ofMembers key members).active = members.countP Customer.isActive := by
  have hfold : ∀ r : GroupTotals,
      (members.foldl add r).active = r.active + members.countP Customer.isActive := by
    induction members with
    | nil => exact fun _ => rfl
    | cons c rest ih =>
      intro r
      have hadd : (r.add c).active = r.active + if c.isActive then 1 else 0 := rfl
      rw [List.foldl_cons, ih, hadd, List.countP_cons]
      omega
  rw [ofMembers, hfold, empty, Nat.zero_add]

theorem key_ofMembers (key : Option String) (members : List Customer) :
    (ofMembers key members).key = key := by
  have hfold : ∀ r : GroupTotals, (members.foldl add r).key = r.key := by
    induction members with
    | nil => exact fun _ => rfl
    | cons c rest ih => exact fun r => ih (r.add c)
  exact hfold (empty key)

/-- The row tells of some customers, of whom there is at least one. Their spending is added up in
their order. -/
structure Sums (r : GroupTotals) (members : List Customer) : Prop where
  inhabited : 1 ≤ r.count
  count : r.count = members.length
  totalSpent : r.totalSpent = (members.map fun c => c.stats.totalSpent).foldl (· + ·) 0.0
  totalOrders : r.totalOrders = (members.map fun c => c.stats.orderCount.toNat).sum
  active : r.active = members.countP Customer.isActive

theorem sums_ofMembers (key : Option String) {members : List Customer}
    (some_member : members ≠ []) : (ofMembers key members).Sums members where
  inhabited := by
    rw [count_ofMembers]
    exact List.length_pos_iff.mpr some_member
  count := count_ofMembers key members
  totalSpent := totalSpent_ofMembers key members
  totalOrders := totalOrders_ofMembers key members
  active := active_ofMembers key members

/-- The rows tell how some customers are divided into groups. -/
structure Tabulates (members : List Customer) (key : Grouping) (rows : List GroupTotals) :
    Prop where
  increasing : rows.Pairwise fun a b => a.key < b.key
  distinct : (rows.map GroupTotals.key).Nodup
  missing_first : ∀ r ∈ rows, r.key = none → rows.head? = some r
  each : ∀ r ∈ rows, r.Sums (members.filter fun c => key.ofCustomer c == r.key)
  covered : ∀ c ∈ members, key.ofCustomer c ∈ rows.map GroupTotals.key
  counts : (rows.map count).sum = members.length
  orders : (rows.map totalOrders).sum = (members.map fun c => c.stats.orderCount.toNat).sum
  actives : (rows.map active).sum = members.countP Customer.isActive

/-- The rows after one more customer, who is added to the row of its group. -/
def enter (key : Grouping) (rows : List GroupTotals) (c : Customer) : List GroupTotals :=
  let k := key.ofCustomer c
  Sorted.put GroupTotals.key (((Sorted.get? GroupTotals.key k rows).getD (empty k)).add c) rows

end GroupTotals

namespace Directory

open Segment

variable {key : Grouping} {members : List Customer}

/-! ## The keys of the groups -/

theorem mem_groupKeys {k : Option String} :
    k ∈ groupKeys key members ↔ ∃ c ∈ members, key.ofCustomer c = k := by
  rw [groupKeys, Sorted.mem_ofList, ← List.mem_map]
  constructor
  · exact fun h => List.mem_reverse.mp (List.mem_of_find?_eq_some h)
  · intro h
    cases hfound : (members.map key.ofCustomer).reverse.find? fun b => decide (id b = id k) with
    | none => simpa using List.find?_eq_none.mp hfound k (List.mem_reverse.mpr h)
    | some j =>
      have hj : j = k := by simpa using List.find?_some hfound
      rw [hj]

theorem groupKeys_pairwise (key : Grouping) (members : List Customer) :
    (groupKeys key members).Pairwise (· < ·) :=
  Sorted.pairwise_ofList id _

theorem groupKeys_nodup (key : Grouping) (members : List Customer) :
    (groupKeys key members).Nodup :=
  (groupKeys_pairwise key members).imp fun hlt => Std.ne_of_lt hlt

/-- The groups divide the members among them. -/
theorem groups_perm (key : Grouping) (members : List Customer) :
    ((groupKeys key members).flatMap fun k => members.filter fun c => key.ofCustomer c == k).Perm
      members :=
  flatMap_groups_perm key.ofCustomer (groupKeys_nodup key members) fun c hc =>
    mem_groupKeys.mpr ⟨c, hc, rfl⟩

end Directory

/-! ## The rows -/

namespace GroupTotals

variable {key : Grouping} {members : List Customer}

/-- One row for each group of some customers. -/
def table (key : Grouping) (members : List Customer) : List GroupTotals :=
  (Directory.groupKeys key members).map fun k =>
    ofMembers k (members.filter fun c => key.ofCustomer c == k)

theorem keys_table (key : Grouping) (members : List Customer) :
    (table key members).map GroupTotals.key = Directory.groupKeys key members := by
  rw [table, List.map_map]
  exact List.map_id'' (fun k => key_ofMembers k _) _

theorem pairwise_table (key : Grouping) (members : List Customer) :
    (table key members).Pairwise fun a b => a.key < b.key := by
  have hkeys := Directory.groupKeys_pairwise key members
  rwa [← keys_table, List.pairwise_map] at hkeys

theorem mem_table {r : GroupTotals} (h : r ∈ table key members) :
    r = ofMembers r.key (members.filter fun c => key.ofCustomer c == r.key) ∧
      ∃ c ∈ members, key.ofCustomer c = r.key := by
  obtain ⟨k, hk, rfl⟩ := List.mem_map.mp h
  rw [key_ofMembers]
  exact ⟨rfl, Directory.mem_groupKeys.mp hk⟩

/-- What is added up in every group adds up to the whole. -/
theorem sum_table (key : Grouping) (members : List Customer) {field : GroupTotals → Nat}
    {weight : Customer → Nat} (row : ∀ k own, field (ofMembers k own) = (own.map weight).sum) :
    ((table key members).map field).sum = (members.map weight).sum := by
  rw [← ((Directory.groups_perm key members).map weight).sum_nat, List.map_flatMap,
    List.flatMap_def, List.sum_flatten, List.map_map, table, List.map_map]
  congr 1
  apply List.map_congr_left
  intro k _
  exact row k _

theorem table_tabulates (key : Grouping) (members : List Customer) :
    Tabulates members key (table key members) where
  increasing := pairwise_table key members
  distinct := by
    rw [keys_table]
    exact Directory.groupKeys_nodup key members
  missing_first := by
    intro r hr hnone
    have hrows := pairwise_table key members
    generalize table key members = rows at hr hrows
    cases hr with
    | head rest => rfl
    | tail a hlater =>
      have hbefore := (List.pairwise_cons.mp hrows).1 r hlater
      rw [hnone] at hbefore
      exact absurd hbefore Option.not_lt_none
  each := by
    intro r hr
    obtain ⟨hrow, c, hc, hown⟩ := mem_table hr
    have hsome : members.filter (fun c => key.ofCustomer c == r.key) ≠ [] :=
      List.ne_nil_of_mem (List.mem_filter.mpr ⟨hc, by simpa using hown⟩)
    have hsums := sums_ofMembers r.key hsome
    rwa [← hrow] at hsums
  covered := by
    intro c hc
    rw [keys_table]
    exact Directory.mem_groupKeys.mpr ⟨c, hc, rfl⟩
  counts := by
    have hone : ∀ (k : Option String) (own : List Customer),
        (ofMembers k own).count = (own.map fun _ => 1).sum := by simp [count_ofMembers]
    simpa using sum_table key members hone
  orders := sum_table key members totalOrders_ofMembers
  actives := by
    have hsum : ∀ own : List Customer, own.countP Customer.isActive =
        (own.map fun c => if c.isActive then 1 else 0).sum := by
      intro own
      induction own with
      | nil => rfl
      | cons c rest ih => rw [List.countP_cons, ih, List.map_cons, List.sum_cons, Nat.add_comm]
    rw [hsum]
    exact sum_table key members fun k own => (active_ofMembers k own).trans (hsum own)

/-! ## One pass over the customers -/

theorem get?_table (key : Grouping) (members : List Customer) (k : Option String) :
    Sorted.get? GroupTotals.key k (table key members) =
      if members.any fun c => key.ofCustomer c == k then
        some (ofMembers k (members.filter fun c => key.ofCustomer c == k))
      else none := by
  split
  · rename_i hany
    obtain ⟨c, hc, hown⟩ := List.any_eq_true.mp hany
    have hmem : ofMembers k (members.filter fun c => key.ofCustomer c == k) ∈ table key members :=
      List.mem_map.mpr ⟨k, Directory.mem_groupKeys.mpr ⟨c, hc, by simpa using hown⟩, rfl⟩
    have hget := Sorted.get?_of_mem (table_tabulates key members).distinct hmem
    rwa [key_ofMembers] at hget
  · rename_i hnone
    rw [Sorted.get?_eq_none]
    intro r hr hkey
    obtain ⟨-, c, hc, hown⟩ := mem_table hr
    exact hnone (List.any_eq_true.mpr ⟨c, hc, by simp [hown, hkey]⟩)

/-- The row of a group, before it is made, is the row without members. -/
theorem getD_get?_table (key : Grouping) (members : List Customer) (k : Option String) :
    (Sorted.get? GroupTotals.key k (table key members)).getD (empty k) =
      ofMembers k (members.filter fun c => key.ofCustomer c == k) := by
  rw [get?_table]
  split
  · rfl
  · rename_i hnone
    have hfilter : members.filter (fun c => key.ofCustomer c == k) = [] := by
      rw [List.filter_eq_nil_iff]
      exact fun c hc hown => hnone (List.any_eq_true.mpr ⟨c, hc, hown⟩)
    rw [hfilter]
    rfl

theorem table_concat (key : Grouping) (members : List Customer) (c : Customer) :
    table key (members ++ [c]) = enter key (table key members) c := by
  let row := (ofMembers (key.ofCustomer c)
    (members.filter fun b => key.ofCustomer b == key.ofCustomer c)).add c
  have hrow : enter key (table key members) c =
      Sorted.put GroupTotals.key row (table key members) := by
    rw [enter, getD_get?_table]
  have hkey : row.key = key.ofCustomer c := key_ofMembers _ _
  rw [hrow]
  refine Sorted.eq_of_get? (pairwise_table key _)
    (Sorted.pairwise_put row (pairwise_table key members)) fun k => ?_
  by_cases hk : key.ofCustomer c = k
  · subst hk
    rw [← hkey, Sorted.get?_put_self, hkey, get?_table, if_pos (by simp)]
    simp [row, ofMembers, List.filter_append]
  · rw [Sorted.get?_put_of_ne (by rwa [hkey]), get?_table, get?_table]
    simp [hk, List.filter_append]

/-- Entering one customer after the other makes the rows. -/
theorem foldl_enter (key : Grouping) (members : List Customer) :
    members.foldl (enter key) [] = table key members := by
  induction members using List.reverseRecOn with
  | nil => rfl
  | append_singleton rest c ih => rw [List.foldl_concat, ih, table_concat]

end GroupTotals

namespace Directory

open Segment

/-- The customer has been put and nothing has been put in its place. -/
def Stands (c : Customer) (puts : List Customer) : Prop :=
  ∃ before after, puts = before ++ c :: after ∧ ∀ b ∈ after, b.id ≠ c.id

theorem customers_foldl_put (puts : List Customer) :
    (puts.foldl put empty).customers = Sorted.ofList Customer.id puts :=
  (List.foldl_hom Directory.customers fun _ _ => rfl).symm

theorem mem_foldl_put {puts : List Customer} {c : Customer} :
    c ∈ (puts.foldl put empty).customers ↔ Stands c puts := by
  rw [customers_foldl_put, Sorted.mem_ofList, List.find?_eq_some_iff_append]
  constructor
  · rintro ⟨-, later, earlier, hputs, hlater⟩
    refine ⟨earlier.reverse, later.reverse, ?_, ?_⟩
    · rw [← List.reverse_reverse puts, hputs]
      simp
    · intro b hb
      simpa using hlater b (List.mem_reverse.mp hb)
  · rintro ⟨before, after, rfl, hafter⟩
    refine ⟨by simp, after.reverse, before.reverse, by simp, ?_⟩
    intro b hb
    simpa using hafter b (List.mem_reverse.mp hb)

/-- All queries of a directory speak of the same customers, whatever has been put: those that
satisfy the predicate, in the order of their ids. A limit cuts their list off, and a grouping tells
how they are divided. -/
theorem queries_agree (puts : List Customer) (p : Predicate) (key : Grouping) :
    let d := puts.foldl put empty
    let found := d.find p none
    d.count p = found.length ∧
      (∀ c, c ∈ found ↔ Stands c puts ∧ p.satisfied c = true) ∧
      (found.Pairwise fun a b => a.id < b.id) ∧
      (∀ n, d.find p (some n) <+: found ∧ (d.find p (some n)).length = min n (d.count p)) ∧
      GroupTotals.Tabulates found key (d.groups p key) ∧
      d.groups p key = found.foldl (GroupTotals.enter key) [] := by
  intro d found
  have hcount : d.count p = found.length := d.count_eq_length_select p
  refine ⟨hcount, ?_, ?_, ?_, GroupTotals.table_tabulates key found,
    (GroupTotals.foldl_enter key found).symm⟩
  · intro c
    rw [← mem_foldl_put]
    exact mem_select
  · have hordered : d.customers.Pairwise fun a b => a.id < b.id := by
      rw [customers_foldl_put]
      exact Sorted.pairwise_ofList Customer.id puts
    exact hordered.filter _
  · intro n
    rw [hcount]
    exact ⟨List.take_prefix n found, List.length_take⟩

end Directory

end Outreach
