import Mathlib.Data.List.Basic
import Outreach.Segment.Rule

/-!
# Rules put together

A conjunction of rules is satisfied if each rule is, and a disjunction if one is. So neither the
order of the rules nor how often a rule is named has any part in it. The same is so of their
validity, which is that of each rule for itself, though there must be one.
-/

namespace Outreach.Segment

variable {s t : RuleSet} {now : Instant} {c : Customer}

namespace Rule

/-- The rule names a field, and its value has no parts. -/
def Valid (r : Rule) : Prop :=
  Text.isBlank r.field = false ∧ (Operand.ofJson? r.value).isSome

theorem fault?_eq_none (index : Nat) (r : Rule) : r.fault? index = none ↔ r.Valid := by
  rw [fault?, Valid]
  split_ifs with blank compound
  · simp [blank]
  · simp [Option.isNone_iff_eq_none.mp compound]
  · simpa [blank, Option.isSome_iff_ne_none] using compound

end Rule

namespace RuleSet

theorem firstFault?_eq_none (index : Nat) (rules : List Rule) :
    firstFault? index rules = none ↔ ∀ r ∈ rules, r.Valid := by
  induction rules generalizing index with
  | nil => simp [firstFault?]
  | cons r rest ih =>
    rw [firstFault?, List.forall_mem_cons, ← r.fault?_eq_none index]
    cases r.fault? index with
    | some e => simp
    | none => simp [ih]

theorem validate_eq_ok : s.validate = .ok () ↔ s.rules ≠ [] ∧ ∀ r ∈ s.rules, r.Valid := by
  rw [validate, ← firstFault?_eq_none 0]
  cases s.rules with
  | nil => simp
  | cons r rest =>
    simp only [List.isEmpty_cons, Bool.false_eq_true, if_false]
    cases firstFault? 0 (r :: rest) with
    | none => simp
    | some e => simp

theorem satisfied_and (rules : List Rule) : ((mk .and rules).toPredicate now).satisfied c = true ↔
    ∀ r ∈ rules, (r.toPredicate now).satisfied c = true := by
  simp [toPredicate, Predicate.satisfied, Predicate.allSatisfied_eq]

theorem satisfied_or (rules : List Rule) : ((mk .or rules).toPredicate now).satisfied c = true ↔
    ∃ r ∈ rules, (r.toPredicate now).satisfied c = true := by
  simp [toPredicate, Predicate.satisfied, Predicate.anySatisfied_eq]

variable {combinator : Combinator} {rules rules' before after : List Rule} {r : Rule}

/-! ## More rules and fewer -/

theorem satisfied_and_of_subset (subset : rules ⊆ rules')
    (h : ((mk .and rules').toPredicate now).satisfied c = true) :
    ((mk .and rules).toPredicate now).satisfied c = true := by
  rw [satisfied_and] at h ⊢
  exact fun r hr => h r (subset hr)

theorem satisfied_or_of_subset (subset : rules ⊆ rules')
    (h : ((mk .or rules).toPredicate now).satisfied c = true) :
    ((mk .or rules').toPredicate now).satisfied c = true := by
  rw [satisfied_or] at h ⊢
  obtain ⟨r, hr, satisfied⟩ := h
  exact ⟨r, subset hr, satisfied⟩

theorem satisfied_or_of_and (nonempty : rules ≠ [])
    (h : ((mk .and rules).toPredicate now).satisfied c = true) :
    ((mk .or rules).toPredicate now).satisfied c = true := by
  rw [satisfied_and] at h
  rw [satisfied_or]
  obtain ⟨r, hr⟩ := List.exists_mem_of_ne_nil _ nonempty
  exact ⟨r, hr, h r hr⟩

/-- The combinator has no part in validity. -/
theorem valid_under (valid : (mk combinator rules).validate = .ok ()) (other : Combinator) :
    (mk other rules).validate = .ok () :=
  validate_eq_ok.mpr (validate_eq_ok.mp valid)

theorem valid_further (valid : (mk combinator (before ++ after)).validate = .ok ())
    (further : (mk combinator [r]).validate = .ok ()) (other : Combinator) :
    (mk other (before ++ r :: after)).validate = .ok () := by
  rw [validate_eq_ok] at valid further ⊢
  obtain ⟨-, each⟩ := valid
  refine ⟨by simp, fun r' hr' => ?_⟩
  rcases List.mem_cons.mp (List.perm_middle.mem_iff.mp hr') with rfl | hkept
  · exact further.2 r' List.mem_cons_self
  · exact each r' hkept

/-! ## The same rules -/

/-- The rule sets have the same rules, whatever their order and number. -/
structure Alike (s t : RuleSet) : Prop where
  combinator : t.combinator = s.combinator
  rules : ∀ r, r ∈ t.rules ↔ r ∈ s.rules

theorem Alike.satisfied (h : s.Alike t) (now : Instant) (c : Customer) :
    (t.toPredicate now).satisfied c = (s.toPredicate now).satisfied c := by
  obtain ⟨first, rules⟩ := s
  obtain ⟨second, rules'⟩ := t
  have hsame : second = first := h.combinator
  subst hsame
  rw [Bool.eq_iff_iff]
  cases second with
  | and =>
    rw [satisfied_and, satisfied_and]
    exact forall_congr' fun r => imp_congr_left (h.rules r)
  | or =>
    rw [satisfied_or, satisfied_or]
    exact exists_congr fun r => and_congr_left' (h.rules r)

theorem Alike.valid (h : s.Alike t) (valid : s.validate = .ok ()) : t.validate = .ok () := by
  rw [validate_eq_ok] at valid ⊢
  obtain ⟨nonempty, each⟩ := valid
  refine ⟨?_, fun r hr => each r ((h.rules r).mp hr)⟩
  obtain ⟨r, hr⟩ := List.exists_mem_of_ne_nil _ nonempty
  exact List.ne_nil_of_mem ((h.rules r).mpr hr)

end RuleSet

end Outreach.Segment
