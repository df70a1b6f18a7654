import Outreach.Proofs.Decimal.Integers
import Outreach.Proofs.Segment.Meaning
import Outreach.Proofs.Segment.Widening

/-!
# Integers in attributes

An attribute and the value of a rule are numbers of one kind, floats. Two integers compare as the
integers that the nearest floats stand for, so in the way of the integers themselves wherever these
are equal or have different floats. Different integers with the same float compare as equal. There
are none up to `2 ^ 53`, and beyond that none with fifty-three binary digits.
-/

namespace Outreach.Segment

/-- The integers that data can hold: words of 64 bits, signed or unsigned. -/
def IsWord (z : Int) : Prop :=
  -(2 ^ 63) ≤ z ∧ z < 2 ^ 64
  deriving Decidable

theorem IsWord.log2_lt {z : Int} (h : IsWord z) : z.natAbs.log2 < 1023 := by
  by_cases hzero : z.natAbs = 0
  · rw [hzero]
    decide
  · have hlog : z.natAbs.log2 < 65 := by
      rw [Nat.log2_lt hzero]
      obtain ⟨least, most⟩ := h
      omega
    omega

/-- Integers with different floats are related as these are. -/
theorem Comparison.relates_nearest {a b : Int}
    (apart : a = b ∨ Decimal.nearest a ≠ Decimal.nearest b) (op : Comparison) :
    op.Relates (Decimal.nearest a) (Decimal.nearest b) ↔ op.Relates a b := by
  rcases apart with rfl | apart
  · cases op <;> simp [Relates]
  · rcases lt_trichotomy a b with h | rfl | h
    · have hle := Decimal.nearest_mono h.le
      cases op <;> simp only [Relates] <;> omega
    · exact absurd rfl apart
    · have hle := Decimal.nearest_mono h.le
      cases op <;> simp only [Relates] <;> omega

namespace Rule

variable {name : String} {op : Comparison} {a b : Int} {c : Customer} {now : Instant}
  {hint : Option String}

theorem toPredicate_comparing (unknown : ∀ f : Field, f.ruleName ≠ name) (op : Comparison)
    (value : Json) (hint : Option String) (now : Instant) :
    (comparing name op value hint).toPredicate now =
      .compare (.custom name) op (operand (.custom name) value) := by
  have hcontains : op.symbol ≠ containsSymbol := op.symbol_ne_contains
  simp only [toPredicate, comparing, hcontains, if_false, FieldPath.ofRuleName_unknown unknown,
    Comparison.ofSymbol?_symbol, comparison]
  rfl

/-- Integers compare as the integers that the nearest floats stand for. -/
theorem matches_integer_iff (unknown : ∀ f : Field, f.ruleName ≠ name) (ha : IsWord a)
    (hb : IsWord b) (given : c.attribute? name = some (.int a)) :
    (comparing name op (.int b) hint).Matches now c ↔
      op.Relates (Decimal.nearest a) (Decimal.nearest b) := by
  have hshown : valueAt? c (.custom name) = some (.number (Decimal.ofInt a)) := by
    rw [valueAt?, given]
    rfl
  have hcompare := Decimal.compare?_ofInt ha.log2_lt hb.log2_lt
  rw [Matches, toPredicate_comparing unknown, Predicate.satisfied, Predicate.compareMatches, hshown,
    ← op.accepts_compare, ← Comparison.holds, ← hcompare]
  rfl

/-- Rules with an integer value relate an attribute that holds an integer as these two are related,
if they are equal or their nearest floats differ, and so whenever floats can stand for both. Otherwise
the two are taken for equal. A rule for equality never matches two customers whose integers have
different floats. -/
theorem integers_meet_in_floats (unknown : ∀ f : Field, f.ruleName ≠ name) (ha : IsWord a)
    (hb : IsWord b) (given : c.attribute? name = some (.int a)) :
    (a = b ∨ Decimal.nearest a ≠ Decimal.nearest b → ∀ op hint now,
        (comparing name op (.int b) hint).Matches now c ↔ op.Relates a b) ∧
      (Decimal.Exact a → Decimal.Exact b → ∀ op hint now,
        (comparing name op (.int b) hint).Matches now c ↔ op.Relates a b) ∧
      (Decimal.nearest a = Decimal.nearest b → ∀ op hint now,
        (comparing name op (.int b) hint).Matches now c ↔
          op = .equal ∨ op = .greaterOrEqual ∨ op = .lessOrEqual) ∧
      ∀ c' a', IsWord a' → c'.attribute? name = some (.int a') → ∀ hint now,
        (comparing name .equal (.int b) hint).Matches now c →
        (comparing name .equal (.int b) hint).Matches now c' →
        Decimal.nearest a = Decimal.nearest a' := by
  have hmatches : ∀ op hint now, (comparing name op (.int b) hint).Matches now c ↔
      op.Relates (Decimal.nearest a) (Decimal.nearest b) :=
    fun _ _ _ => matches_integer_iff unknown ha hb given
  refine ⟨?_, ?_, ?_, ?_⟩
  · intro apart op hint now
    rw [hmatches, op.relates_nearest apart]
  · intro exact_a exact_b op hint now
    rw [hmatches, Decimal.nearest_of_exact exact_a, Decimal.nearest_of_exact exact_b]
  · intro same op hint now
    rw [hmatches, same, ← op.accepts_compare, compare_eq_iff_eq.mpr rfl, op.accepts_eq]
  · intro c' a' ha' given' hint now matched matched'
    rw [hmatches] at matched
    rw [matches_integer_iff unknown ha' hb given'] at matched'
    exact matched.trans matched'.symm

/-- Two neighbours beyond `2 ^ 53` have one float, and a rule for the one matches a customer with the
other. -/
theorem neighbours_meet :
    let customer : Customer :=
      { Customer.named "cust-00" "Customer 0" with attributes := [("visits", .int 9007199254740993)] }
    let rule : Rule := comparing "visits" .equal (.int 9007199254740992) none
    (∀ f : Field, f.ruleName ≠ "visits") ∧ IsWord 9007199254740993 ∧ IsWord 9007199254740992 ∧
      customer.attribute? "visits" = some (.int 9007199254740993) ∧
      rule.Matches ⟨0, 0⟩ customer ∧
      ¬ Comparison.equal.Relates (9007199254740993 : Int) 9007199254740992 := by
  intro customer rule
  have unknown : ∀ f : Field, f.ruleName ≠ "visits" := by
    intro f
    cases f <;> decide
  refine ⟨unknown, by decide, by decide, rfl, by decide +kernel, ?_⟩
  simp [Comparison.Relates]

/-- The next neighbour but one has a float of its own. -/
theorem second_neighbours_differ :
    let customer : Customer :=
      { Customer.named "cust-00" "Customer 0" with attributes := [("visits", .int 9007199254740994)] }
    let rule (op : Comparison) : Rule := comparing "visits" op (.int 9007199254740992) none
    Decimal.nearest 9007199254740994 ≠ Decimal.nearest 9007199254740992 ∧
      ¬ (rule .equal).Matches ⟨0, 0⟩ customer ∧ (rule .greater).Matches ⟨0, 0⟩ customer := by
  intro customer rule
  have unknown : ∀ f : Field, f.ruleName ≠ "visits" := by
    intro f
    cases f <;> decide
  have apart : Decimal.nearest 9007199254740994 ≠ Decimal.nearest 9007199254740992 := by
    decide +kernel
  have given : customer.attribute? "visits" = some (.int 9007199254740994) := rfl
  have hrelated := (integers_meet_in_floats (b := 9007199254740992) unknown (by decide) (by decide)
    given).1 (.inr apart)
  refine ⟨apart, ?_, ?_⟩
  · rw [hrelated]
    simp [Comparison.Relates]
  · rw [hrelated]
    simp [Comparison.Relates]

end Rule

end Outreach.Segment
