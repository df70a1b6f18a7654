import Outreach.Directory.Overview
import Outreach.Proofs.Directory.Queries

/-!
# The order of loading

What a directory answers depends on the customers that it was loaded with and not on their order. It
answers like a search through the customers in whatever order they are held, which counts those that
satisfy the predicate and sorts them by id before it lists them or adds anything up. The sorting is
what makes the sums agree to the last bit, since a floating point sum depends on the order of its
terms.
-/

namespace Outreach.Directory

open Segment

/-- The order of ids. -/
def inOrder (a b : Customer) : Bool :=
  decide (a.id ≤ b.id)

/-- The customers that satisfy a predicate, among customers held in any order, sorted by id. -/
def gather (held : List Customer) (p : Predicate) : List Customer :=
  (held.filter (p.satisfied ·)).mergeSort inOrder

/-- The directory answers like a search through customers that are held in a given order. -/
structure AnswersFrom (d : Directory) (held : List Customer) : Prop where
  count : ∀ p, d.count p = held.countP (p.satisfied ·)
  all : ∀ p, d.find p none = gather held p
  first : ∀ p n, d.find p (some n) = (gather held p).take n
  groups : ∀ p key, d.groups p key = (gather held p).foldl (GroupTotals.enter key) []

variable {d e : Directory} {loaded held : List Customer}

theorem pairwise_gather (held : List Customer) (p : Predicate) :
    (gather held p).Pairwise fun a b => a.id ≤ b.id := by
  have hsorted : (gather held p).Pairwise fun a b => inOrder a b = true := by
    refine List.pairwise_mergeSort ?_ ?_ _
    · intro a b c hab hbc
      rw [inOrder, decide_eq_true_eq] at *
      exact Std.le_trans hab hbc
    · intro a b
      rw [Bool.or_eq_true, inOrder, inOrder, decide_eq_true_eq, decide_eq_true_eq]
      exact Std.le_total
  exact hsorted.imp of_decide_eq_true

/-- Where ids are distinct, the customers that a directory finds are those gathered from any
arrangement of what it was loaded with. -/
theorem select_ofList (distinct : (loaded.map Customer.id).Nodup) (arranged : held.Perm loaded)
    (p : Predicate) : (ofList loaded).select p = gather held p := by
  have hloaded : (ofList loaded).customers.Perm loaded := Sorted.ofList_perm distinct
  have hperm : ((ofList loaded).select p).Perm (gather held p) :=
    ((hloaded.trans arranged.symm).filter _).trans (List.mergeSort_perm _ _).symm
  have hsorted : ((ofList loaded).select p).Pairwise fun a b => a.id ≤ b.id :=
    ((Sorted.pairwise_ofList Customer.id loaded).filter _).imp Std.le_of_lt
  refine hperm.eq_of_pairwise ?_ hsorted (pairwise_gather held p)
  -- two customers that neither precedes share an id, and so are one
  intro a b ha hb hab hba
  have ha' : a ∈ loaded := hloaded.mem_iff.mp (mem_select.mp ha).1
  have hb' : b ∈ loaded := hloaded.mem_iff.mp (mem_select.mp (hperm.mem_iff.mpr hb)).1
  exact List.inj_on_of_nodup_map distinct ha' hb' (Std.le_antisymm hab hba)

theorem answersFrom_ofList (distinct : (loaded.map Customer.id).Nodup)
    (arranged : held.Perm loaded) : (ofList loaded).AnswersFrom held where
  count p := (((Sorted.ofList_perm distinct).trans arranged.symm).countP_eq _)
  all p := select_ofList distinct arranged p
  first p n := congrArg (List.take n) (select_ofList distinct arranged p)
  groups p key := by
    rw [GroupTotals.foldl_enter, ← select_ofList distinct arranged p]
    rfl

/-- An overview is made of what the queries answer. -/
theorem overview_of_answers {p : Predicate} (count : d.count p = e.count p)
    (find : ∀ limit, d.find p limit = e.find p limit)
    (groups : ∀ key, d.groups p key = e.groups p key) (s : OverviewSettings) :
    d.overview p s = e.overview p s := by
  simp only [overview, distribution, count, find, groups]

/-- Directories that answer from the same customers answer alike. -/
theorem AnswersFrom.alike (hd : d.AnswersFrom held) (he : e.AnswersFrom held) (p : Predicate) :
    d.count p = e.count p ∧ (∀ limit, d.find p limit = e.find p limit) ∧
      ∀ key, d.groups p key = e.groups p key := by
  refine ⟨(hd.count p).trans (he.count p).symm, ?_, fun key =>
    (hd.groups p key).trans (he.groups p key).symm⟩
  intro limit
  cases limit with
  | none => exact (hd.all p).trans (he.all p).symm
  | some n => exact (hd.first p n).trans (he.first p n).symm

/-- Customers with distinct ids may be loaded in any order and held in any order. The count, the
customers found, the rows of every grouping and the overview come out the same, sums included. -/
theorem loading_order_is_irrelevant {loaded reordered : List Customer}
    (distinct : (loaded.map Customer.id).Nodup) (perm : reordered.Perm loaded) (p : Predicate)
    (limit : Option Nat) (key : Grouping) (s : OverviewSettings) :
    let d := ofList loaded
    let e := ofList reordered
    d.count p = e.count p ∧ d.find p limit = e.find p limit ∧ d.groups p key = e.groups p key ∧
      d.overview p s = e.overview p s ∧
      ∀ held, held.Perm loaded → d.AnswersFrom held ∧ e.AnswersFrom held := by
  intro d e
  have hdistinct : (reordered.map Customer.id).Nodup :=
    (perm.map Customer.id).nodup_iff.mpr distinct
  have hanswers : ∀ held, held.Perm loaded → d.AnswersFrom held ∧ e.AnswersFrom held :=
    fun held arranged => ⟨answersFrom_ofList distinct arranged,
      answersFrom_ofList hdistinct (arranged.trans perm.symm)⟩
  obtain ⟨hd, he⟩ := hanswers loaded (List.Perm.refl loaded)
  obtain ⟨hcount, hfind, hgroups⟩ := hd.alike he p
  exact ⟨hcount, hfind limit, hgroups key, overview_of_answers hcount hfind hgroups s, hanswers⟩

/-- A customer of whom only the spending is known. -/
def spender (id : String) (spent : Float) : Customer :=
  { Customer.named id id with stats := ⟨spent, 1, none⟩ }

/-- Added up in the order of loading, these sums would differ. -/
theorem unequal_sums_come_out_the_same :
    let loaded := [spender "a" 0.1, spender "b" 0.2, spender "c" 0.3]
    let reordered := [spender "c" 0.3, spender "b" 0.2, spender "a" 0.1]
    (loaded.map fun c => c.stats.totalSpent).foldl (· + ·) 0.0 ≠
        (reordered.map fun c => c.stats.totalSpent).foldl (· + ·) 0.0 ∧
      (loaded.map Customer.id).Nodup ∧ reordered.Perm loaded ∧
      (ofList loaded).count .unconstrained = 3 ∧
      (ofList loaded).groups .unconstrained .all = (ofList reordered).groups .unconstrained .all ∧
      (ofList loaded).overview .unconstrained .default =
        (ofList reordered).overview .unconstrained .default := by
  intro loaded reordered
  have distinct : (loaded.map Customer.id).Nodup := by decide
  have perm : reordered.Perm loaded := List.reverse_perm loaded
  obtain ⟨-, -, hgroups, hoverview, -⟩ :=
    loading_order_is_irrelevant distinct perm .unconstrained none .all .default
  exact ⟨by decide +kernel, distinct, perm, by decide +kernel, hgroups, hoverview⟩

end Outreach.Directory
