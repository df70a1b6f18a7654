import Outreach.Proofs.Decimal.Bits
import Outreach.Proofs.Segment.Comparison

/-!
# The algebra of comparisons

The six operators answer as one comparison does. Three of them name an outcome each, at most one of
these holds, and the others are put together from them. None of the three holds where there is
nothing to compare: a missing value, one of another kind, or one that is not a number. Inequality
alone holds then.
-/

namespace Outreach.Segment

namespace Comparison

/-- The operator that holds of one outcome and no other. -/
def exactly : Ordering → Comparison
  | .lt => less
  | .eq => equal
  | .gt => greater

/-- The operators go together, as far as there is anything to compare. -/
structure Lawful (holds : Comparison → Prop) (comparable : Prop) : Prop where
  notEqual : holds .notEqual ↔ ¬ holds .equal
  greaterOrEqual : holds .greaterOrEqual ↔ holds .greater ∨ holds .equal
  lessOrEqual : holds .lessOrEqual ↔ holds .less ∨ holds .equal
  atMostOne : ∀ o o', holds (exactly o) → holds (exactly o') → o = o'
  exactlyOne : (∃! o, holds (exactly o)) ↔ comparable
  otherwise : (∀ o, ¬ holds (exactly o)) → ∀ op, holds op ↔ op = .notEqual

variable {o : Ordering} {result : Option Ordering}

theorem exactly_holds : (exactly o).holds result = true ↔ result = some o := by
  cases result with
  | none => cases o <;> simp [exactly, holds]
  | some r => cases o <;> cases r <;> simp [exactly, holds, accepts]

theorem holds_flipped (op : Comparison) (result : Option Ordering) :
    op.flipped.holds (result.map Ordering.swap) = op.holds result := by
  cases result with
  | none => cases op <;> rfl
  | some o => exact op.accepts_flipped o

theorem lawful_holds (result : Option Ordering) :
    Lawful (fun op => op.holds result = true) (∃ o, result = some o) := by
  constructor
  · cases result with
    | none => simp [holds]
    | some o => simp [holds, accepts_notEqual]
  · cases result with
    | none => simp [holds]
    | some o => cases o <;> simp [holds, accepts]
  · cases result with
    | none => simp [holds]
    | some o => cases o <;> simp [holds, accepts]
  · intro o o' h h'
    rw [exactly_holds] at h h'
    exact Option.some.inj (h.symm.trans h')
  · simp only [exactly_holds]
    constructor
    · rintro ⟨o, h, -⟩
      exact ⟨o, h⟩
    · rintro ⟨o, h⟩
      exact ⟨o, h, fun o' h' => Option.some.inj (h'.symm.trans h)⟩
  · intro none op
    cases result with
    | none => simp [holds]
    | some o => exact absurd (exactly_holds.mpr rfl) (none o)

end Comparison

namespace Operand

inductive Kind
  | null
  | bool
  | number
  | text
  | timestamp
  deriving DecidableEq

def kind : Operand → Kind
  | .null => .null
  | .bool _ => .bool
  | .number _ => .number
  | .text _ => .text
  | .timestamp _ => .timestamp

/-- The operand is a float that is not a number. -/
def IsNaN (a : Operand) : Prop :=
  ∃ x : Float, a = .number x ∧ x.isNaN = true

/-- The operands are of one kind, and neither is not a number. -/
structure Comparable (a b : Operand) : Prop where
  kind : a.kind = b.kind
  left : ¬ a.IsNaN
  right : ¬ b.IsNaN

theorem units?_isSome {x : Float} (number : ¬ (Operand.number x).IsNaN) :
    ∃ i, Decimal.units? x = some i := by
  have hrank : Decimal.rank? x ≠ none :=
    fun none => number ⟨x, rfl, (Decimal.rank?_eq_none_iff x).mp none⟩
  obtain ⟨z, hz⟩ := Option.ne_none_iff_exists'.mp hrank
  exact ⟨_, by rw [Decimal.units?_eq, hz, Option.map_some]⟩

theorem not_isNaN {x : Float} {i : Int} (value : Decimal.units? x = some i) :
    ¬ (Operand.number x).IsNaN := by
  rintro ⟨_, ⟨⟩, nan⟩
  rw [Decimal.units?_eq, (Decimal.rank?_eq_none_iff x).mpr nan] at value
  cases value

theorem comparable_iff_alike (a b : Operand) : a.Comparable b ↔ a.Alike b := by
  constructor
  · rintro ⟨kind, left, right⟩
    cases a <;> cases b <;> cases kind
    case null.null.refl => exact .null
    case bool.bool.refl x y => exact .bool x y
    case number.number.refl x y =>
      obtain ⟨i, hi⟩ := units?_isSome left
      obtain ⟨j, hj⟩ := units?_isSome right
      exact .number hi hj
    case text.text.refl x y => exact .text x y
    case timestamp.timestamp.refl x y => exact .timestamp x y
  · intro alike
    have plain : ∀ a : Operand, a.kind ≠ .number → ¬ a.IsNaN := by
      rintro _ other ⟨x, rfl, -⟩
      exact other rfl
    cases alike with
    | null => exact ⟨rfl, plain _ (by decide), plain _ (by decide)⟩
    | bool x y => exact ⟨rfl, plain _ (by simp [kind]), plain _ (by simp [kind])⟩
    | number hx hy => exact ⟨rfl, not_isNaN hx, not_isNaN hy⟩
    | text x y => exact ⟨rfl, plain _ (by simp [kind]), plain _ (by simp [kind])⟩
    | timestamp x y => exact ⟨rfl, plain _ (by simp [kind]), plain _ (by simp [kind])⟩

theorem compare?_swap (a b : Operand) : b.compare? a = (a.compare? b).map Ordering.swap := by
  -- Operands of different kinds do not compare either way.
  cases a <;> cases b <;> try rfl
  case bool.bool x y => exact congrArg some Std.OrientedOrd.eq_swap
  case number.number x y =>
    simp only [compare?, Decimal.compare?]
    cases Decimal.rank? x with
    | none => cases Decimal.rank? y <;> rfl
    | some i =>
      cases Decimal.rank? y with
      | none => rfl
      | some j => exact congrArg some Std.OrientedOrd.eq_swap
  case text.text x y => exact congrArg some Std.OrientedOrd.eq_swap
  case timestamp.timestamp x y =>
    simp only [compare?, Option.map_some, Instant.compare, Ordering.swap_then]
    rw [Std.OrientedOrd.eq_swap (a := y.seconds), Std.OrientedOrd.eq_swap (a := y.nanos)]

end Operand

/-- Of any field and operand, the six comparisons obey the laws of one comparison, which there is if
the customer has the field and its value is comparable. Exchanging sides flips the operator. -/
theorem comparisons_are_lawful (path : FieldPath) (b : Operand) (c : Customer) :
    Comparison.Lawful (fun op => (Predicate.compare path op b).satisfied c = true)
        (∃ a, valueAt? c path = some a ∧ a.Comparable b) ∧
      ∀ (op : Comparison) (a b : Operand),
        op.holds (a.compare? b) = true ↔ op.flipped.holds (b.compare? a) = true := by
  constructor
  · have hcomparable : (∃ a, valueAt? c path = some a ∧ a.Comparable b) ↔
        ∃ o, (valueAt? c path).bind (·.compare? b) = some o := by
      simp only [Option.bind_eq_some_iff, Operand.comparable_iff_alike, Operand.alike_iff]
      exact ⟨fun ⟨a, ha, o, ho⟩ => ⟨o, a, ha, ho⟩, fun ⟨o, a, ha, ho⟩ => ⟨a, ha, o, ho⟩⟩
    rw [hcomparable]
    exact Comparison.lawful_holds _
  · intro op a b
    rw [a.compare?_swap b, Comparison.holds_flipped]

end Outreach.Segment
