import Mathlib.Data.Int.Order.Basic
import Mathlib.Data.String.Basic
import Mathlib.Order.BooleanAlgebra.Basic
import Mathlib.Order.Compare
import Outreach.Proofs.Decimal
import Outreach.Proofs.Instant
import Outreach.Segment.Predicate

/-!
# What operators say about operands

An operator stands for a relation on an ordered type: on truth values, on the values of numbers, on
texts by code points and on instants. Operands stand in the relation if they are of one kind and
their values do, and a null value equals itself. Operands of different kinds are unequal and nothing
else, and so is a missing value to any other.
-/

namespace Outreach

namespace Segment

namespace Comparison

/-- The relation that the operator stands for. -/
def Relates {α : Type} [LT α] [LE α] (op : Comparison) (a b : α) : Prop :=
  match op with
  | greater => b < a
  | less => a < b
  | greaterOrEqual => b ≤ a
  | lessOrEqual => a ≤ b
  | equal => a = b
  | notEqual => a ≠ b

theorem accepts_compare {α : Type} [LinearOrder α] (op : Comparison) (a b : α) :
    op.accepts (compare a b) = true ↔ op.Relates a b := by
  rcases lt_trichotomy a b with h | rfl | h
  · have hc : compare a b = .lt := compare_lt_iff_lt.mpr h
    cases op <;> simp [accepts, Relates, hc, h, h.le, h.ne, h.asymm]
  · cases op <;> simp [accepts, Relates]
  · have hc : compare a b = .gt := compare_gt_iff_gt.mpr h
    cases op <;> simp [accepts, Relates, hc, h, h.le, h.ne', h.asymm]

theorem accepts_eq (op : Comparison) :
    op.accepts .eq = true ↔ op = .equal ∨ op = .greaterOrEqual ∨ op = .lessOrEqual := by
  cases op <;> simp [accepts]

theorem accepts_compareInstant (op : Comparison) (a b : Instant) :
    op.accepts (a.compare b) = true ↔ op.Relates a b := by
  rcases a.compare_spec b with ⟨hc, h⟩ | ⟨hc, rfl⟩ | ⟨hc, h⟩
  · have hle : a ≤ b ∧ a ≠ b ∧ ¬ b < a ∧ ¬ b ≤ a := Instant.of_lt h
    cases op <;> simp [accepts, Relates, hc, h, hle]
  · have hirrefl : ¬ a < a := by
      rw [Instant.lt_iff]
      omega
    cases op <;> simp [accepts, Relates, hc, hirrefl, Instant.le_refl]
  · have hle : b ≤ a ∧ b ≠ a ∧ ¬ a < b ∧ ¬ a ≤ b := Instant.of_lt h
    cases op <;> simp [accepts, Relates, hc, h, hle, hle.2.1.symm]

theorem ofSymbol?_eq_some {s : String} {op : Comparison} (h : ofSymbol? s = some op) :
    op.symbol = s := by
  simpa using List.find?_some h

theorem ofSymbol?_eq_none {s : String} (h : ofSymbol? s = none) (op : Comparison) :
    op.symbol ≠ s := by
  rintro rfl
  rw [ofSymbol?_symbol] at h
  cases h

end Comparison

namespace Operand

/-- The operands are of one kind and have values that compare. -/
inductive Alike : Operand → Operand → Prop
  | null : Alike .null .null
  | bool (a b : Bool) : Alike (.bool a) (.bool b)
  | number {x y : Float} {i j : Int} (hx : Decimal.units? x = some i)
      (hy : Decimal.units? y = some j) : Alike (.number x) (.number y)
  | text (a b : String) : Alike (.text a) (.text b)
  | timestamp (a b : Instant) : Alike (.timestamp a) (.timestamp b)

/-- The values of the operands stand in the relation of an operator. -/
inductive Related (op : Comparison) : Operand → Operand → Prop
  | null (reflexive : op = .equal ∨ op = .greaterOrEqual ∨ op = .lessOrEqual) :
      Related op .null .null
  | bool {a b : Bool} (holds : op.Relates a b) : Related op (.bool a) (.bool b)
  | number {x y : Float} {i j : Int} (hx : Decimal.units? x = some i)
      (hy : Decimal.units? y = some j) (holds : op.Relates i j) :
      Related op (.number x) (.number y)
  | text {a b : String} (holds : op.Relates a b) : Related op (.text a) (.text b)
  | timestamp {a b : Instant} (holds : op.Relates a b) :
      Related op (.timestamp a) (.timestamp b)

theorem alike_iff (a b : Operand) : a.Alike b ↔ ∃ o, a.compare? b = some o := by
  constructor
  · rintro (_ | _ | ⟨hx, hy⟩ | _ | _)
    case number => exact ⟨_, by rw [compare?, Decimal.compare?_eq, hx, hy]; rfl⟩
    all_goals exact ⟨_, rfl⟩
  · rintro ⟨o, h⟩
    cases a with
    | null =>
      cases b with
      | null => exact .null
      | _ => cases h
    | bool x =>
      cases b with
      | bool y => exact .bool x y
      | _ => cases h
    | number x =>
      cases b with
      | number y =>
        rw [compare?, Decimal.compare?_eq] at h
        obtain ⟨i, hx, h⟩ := Option.bind_eq_some_iff.mp h
        obtain ⟨j, hy, _⟩ := Option.map_eq_some_iff.mp h
        exact .number hx hy
      | _ => cases h
    | text x =>
      cases b with
      | text y => exact .text x y
      | _ => cases h
    | timestamp x =>
      cases b with
      | timestamp y => exact .timestamp x y
      | _ => cases h

theorem related_iff {op : Comparison} {a b : Operand} {o : Ordering}
    (h : a.compare? b = some o) : a.Related op b ↔ op.accepts o = true := by
  constructor
  · rintro (reflexive | holds | ⟨hx, hy, holds⟩ | holds | holds)
    · cases h
      exact op.accepts_eq.mpr reflexive
    · cases h
      exact (op.accepts_compare _ _).mpr holds
    · rw [compare?, Decimal.compare?_eq, hx, hy] at h
      cases h
      exact (op.accepts_compare _ _).mpr holds
    · cases h
      exact (op.accepts_compare _ _).mpr holds
    · cases h
      exact (op.accepts_compareInstant _ _).mpr holds
  · intro accepts
    cases (alike_iff a b).mpr ⟨o, h⟩ with
    | null =>
      cases h
      exact .null (op.accepts_eq.mp accepts)
    | bool x y =>
      cases h
      exact .bool ((op.accepts_compare x y).mp accepts)
    | number hx hy =>
      rw [compare?, Decimal.compare?_eq, hx, hy] at h
      cases h
      exact .number hx hy ((op.accepts_compare _ _).mp accepts)
    | text x y =>
      cases h
      exact .text ((op.accepts_compare x y).mp accepts)
    | timestamp x y =>
      cases h
      exact .timestamp ((op.accepts_compareInstant x y).mp accepts)

theorem Related.alike {op : Comparison} {a b : Operand} (h : a.Related op b) : a.Alike b := by
  cases h with
  | null _ => exact .null
  | bool _ => exact .bool _ _
  | number hx hy _ => exact .number hx hy
  | text _ => exact .text _ _
  | timestamp _ => exact .timestamp _ _

/-- An operator holds of two operands that it relates, and inequality of any that are not alike. -/
theorem holds_compare? (op : Comparison) (a b : Operand) :
    op.holds (a.compare? b) = true ↔ a.Related op b ∨ op = .notEqual ∧ ¬ a.Alike b := by
  cases h : a.compare? b with
  | none =>
    have hunlike : ¬ a.Alike b := by
      rw [alike_iff, h]
      rintro ⟨o, ⟨⟩⟩
    have hunrelated : ¬ a.Related op b := fun related => hunlike related.alike
    simp [Comparison.holds, hunlike, hunrelated]
  | some o =>
    have halike : a.Alike b := (alike_iff a b).mpr ⟨o, h⟩
    simp [Comparison.holds, related_iff h, halike]

end Operand

/-- A comparison with a value that may be missing holds if the value is there and related, and for
inequality also if there is no value that is alike. -/
theorem Predicate.compareMatches_iff (value : Option Operand) (op : Comparison) (b : Operand) :
    Predicate.compareMatches value op b = true ↔
      (∃ a, value = some a ∧ a.Related op b) ∨
        op = .notEqual ∧ ∀ a, value = some a → ¬ a.Alike b := by
  cases value with
  | none => simp [Predicate.compareMatches, Comparison.holds]
  | some a => simp [Predicate.compareMatches, Operand.holds_compare?]

theorem Predicate.containsMatches_iff (value : Option Operand) (needle : String) :
    Predicate.containsMatches value needle = true ↔
      ∃ s, value = some (.text s) ∧ Text.lowerCase needle <:+: Text.lowerCase s := by
  constructor
  · intro h
    cases value with
    | none => cases h
    | some a =>
      cases a with
      | text s => exact ⟨s, rfl, (Text.occursIn_iff_infix _ _).mp h⟩
      | null => cases h
      | bool _ => cases h
      | number _ => cases h
      | timestamp _ => cases h
  · rintro ⟨s, rfl, occurs⟩
    exact (Text.occursIn_iff_infix _ _).mpr occurs

end Segment

end Outreach
