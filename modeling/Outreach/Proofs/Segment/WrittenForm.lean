import Outreach.Proofs.Json.Reading
import Outreach.Segment.Catalog

/-!
# Segments read back

A rule is read back from what has been written of it if its value is in canonical form, and a rule
set if all of its rules are. Nothing is asked of the names and operators of rules, since they are
texts like any other.
-/

namespace Outreach

open Json

namespace Segment

/-- The value of every rule is in canonical form. -/
def RuleSet.Storable (s : RuleSet) : Prop :=
  ∀ r ∈ s.rules, r.value.Plain

theorem Rule.reads {r : Rule} (h : r.value.Plain) : Reads decode? r.encode r := by
  intro sorted
  have hfield := reads_text r.field sorted
  have hoperator := reads_text r.operator sorted
  have hvalue := reads_whole h sorted
  have hvalueType := givenOr?_optional r.valueType sorted
  rw [decode?, encode, parts?_held_optional (by simp) fun x => by cases x <;> rfl]
  simp only [List.map_cons, List.map_nil, List.cons_append, List.nil_append, given?,
    Option.bind_eq_bind, Option.bind_some, hfield, hoperator, hvalue, hvalueType]

theorem Combinator.reads (c : Combinator) : Reads decode? c.encode c :=
  reads_case caseName?_text (by cases c <;> decide)

theorem RuleSet.reads {s : RuleSet} (h : s.Storable) : Reads decode? s.encode s := by
  intro sorted
  have hcombinator := s.combinator.reads sorted
  have hrules := reads_list (fun r hr => Rule.reads (h r hr)) sorted
  rw [decode?, encode, parts?_held_all (by simp) rfl]
  simp only [List.map_cons, List.map_nil, given?, Option.bind_eq_bind, Option.bind_some,
    hcombinator, hrules]

end Segment

structure Segment.Storable (s : Segment) : Prop where
  id : s.id.Storable
  rules : s.rules.Storable
  estimatedCount : s.estimatedCount < 2 ^ 64
  createdAt : s.createdAt.Storable
  updatedAt : s.updatedAt.Storable

theorem Segment.reads {s : Segment} (h : s.Storable) : Reads decode? s.encode s := by
  intro sorted
  have hid := reads_uuid h.id sorted
  have hname := reads_text s.name sorted
  have hdescription := reads_optionalText s.description sorted
  have hrules := RuleSet.reads h.rules sorted
  have hestimated := reads_word64 h.estimatedCount sorted
  have hcreatedBy := reads_text s.createdBy sorted
  have hdynamic := reads_bool s.isDynamic sorted
  have hcreatedAt := reads_instant h.createdAt sorted
  have hupdatedAt := reads_instant h.updatedAt sorted
  rw [decode?, encode, parts?_held_all (by simp) rfl]
  simp only [List.map_cons, List.map_nil, given?, Option.bind_eq_bind, Option.bind_some, hid,
    hname, hdescription, hrules, hestimated, hcreatedBy, hdynamic, hcreatedAt, hupdatedAt]

theorem SegmentRequest.reads {s : SegmentRequest} (h : s.rules.Storable) :
    Reads decode? s.encode s := by
  intro sorted
  have hname := reads_text s.name sorted
  have hdescription := reads_optionalText s.description sorted
  have hrules := Segment.RuleSet.reads h sorted
  rw [decode?, encode, parts?_held_all (by simp) rfl]
  simp only [List.map_cons, List.map_nil, given?, givenOr?, Option.bind_eq_bind, Option.bind_some,
    hname, hdescription, hrules]

end Outreach
