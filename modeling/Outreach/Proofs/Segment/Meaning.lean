import Outreach.Proofs.Segment.Comparison
import Outreach.Proofs.Segment.DayCount
import Outreach.Segment.Rule

/-!
# What rules say about customers

The meaning of a rule is told here without predicates. A rule reads a field of the customer and
relates it to its value. A rule about the last purchase whose value counts days relates the time
since that purchase to so many times 24 hours. The predicate of a rule set, for which the operator
of such a rule is flipped and the count is turned into an instant, holds of exactly the customers of
whom the rules hold.
-/

namespace Outreach.Segment

/-! ## Reading fields and values -/

/-- A value without parts is an operand. -/
inductive Denotes : Json → Operand → Prop
  | null : Denotes .null .null
  | bool (b : Bool) : Denotes (.bool b) (.bool b)
  | int (z : Int) : Denotes (.int z) (.number (Decimal.ofInt z))
  | float (x : Float) : Denotes (.float x) (.number x)
  | text (s : String) : Denotes (.text s) (.text s)

theorem denotes_iff (value : Json) (a : Operand) :
    Denotes value a ↔ Operand.ofJson? value = some a := by
  constructor
  · intro h
    cases h <;> rfl
  · intro h
    cases value with
    | null => cases h; exact .null
    | bool b => cases h; exact .bool b
    | int z => cases h; exact .int z
    | float x => cases h; exact .float x
    | text s => cases h; exact .text s
    | array _ => cases h
    | object _ => cases h
    | unreadable => cases h

/-- What a customer shows under a name that rules use. A name that is not known leads to an
attribute, and an attribute with parts shows nothing. -/
inductive Shows (c : Customer) : String → Operand → Prop
  | totalSpent : Shows c "total_spent" (.number c.stats.totalSpent)
  | orderCount : Shows c "order_count" (.number (Decimal.ofInt c.stats.orderCount.toNat))
  | lastPurchase {t : Instant} (given : c.stats.lastPurchase = some t) :
      Shows c "last_purchase" (.timestamp t)
  | city {s : String} (given : c.address.city = some s) : Shows c "city" (.text s)
  | isActive : Shows c "is_active" (.bool c.isActive)
  | age {n : UInt32} (given : c.demographics.age = some n) :
      Shows c "age" (.number (Decimal.ofInt n.toNat))
  | gender {s : String} (given : c.demographics.gender = some s) : Shows c "gender" (.text s)
  | occupation {s : String} (given : c.demographics.occupation = some s) :
      Shows c "occupation" (.text s)
  | custom {name : String} {value : Json} {a : Operand}
      (unknown : ∀ f : Field, f.ruleName ≠ name) (given : c.attribute? name = some value)
      (denotes : Denotes value a) : Shows c name a

theorem FieldPath.ofRuleName_known (f : Field) : FieldPath.ofRuleName f.ruleName = .known f := by
  rw [FieldPath.ofRuleName, Field.ofRuleName?_ruleName]

theorem FieldPath.ofRuleName_unknown {name : String} (unknown : ∀ f : Field, f.ruleName ≠ name) :
    FieldPath.ofRuleName name = .custom name := by
  have hnone : Field.ofRuleName? name = none := by
    rw [Field.ofRuleName?, List.find?_eq_none]
    intro f _
    simpa using unknown f
  rw [FieldPath.ofRuleName, hnone]

theorem FieldPath.ofRuleName_eq_known {name : String} {f : Field} :
    FieldPath.ofRuleName name = .known f ↔ name = f.ruleName := by
  constructor
  · intro h
    by_cases known : ∃ g : Field, g.ruleName = name
    · obtain ⟨g, rfl⟩ := known
      rw [ofRuleName_known] at h
      cases h
      rfl
    · rw [ofRuleName_unknown fun g hg => known ⟨g, hg⟩] at h
      cases h
  · rintro rfl
    exact ofRuleName_known f

theorem valueAt?_known (c : Customer) (f : Field) :
    valueAt? c (FieldPath.ofRuleName f.ruleName) = valueAt? c (.known f) :=
  congrArg (valueAt? c) (FieldPath.ofRuleName_known f)

/-- A customer shows exactly the value that is found at the path of the name. -/
theorem shows_iff (c : Customer) (name : String) (a : Operand) :
    Shows c name a ↔ valueAt? c (FieldPath.ofRuleName name) = some a := by
  constructor
  · intro h
    cases h with
    | totalSpent => exact valueAt?_known c .totalSpent
    | orderCount => exact valueAt?_known c .orderCount
    | lastPurchase given =>
      exact (valueAt?_known c .lastPurchase).trans (congrArg (Option.map Operand.timestamp) given)
    | city given =>
      exact (valueAt?_known c .city).trans (congrArg (Option.map Operand.text) given)
    | isActive => exact valueAt?_known c .isActive
    | age given =>
      exact (valueAt?_known c .age).trans
        (congrArg (Option.map fun n : UInt32 => Operand.number (Decimal.ofInt n.toNat)) given)
    | gender given =>
      exact (valueAt?_known c .gender).trans (congrArg (Option.map Operand.text) given)
    | occupation given =>
      exact (valueAt?_known c .occupation).trans (congrArg (Option.map Operand.text) given)
    | custom unknown given denotes =>
      rw [FieldPath.ofRuleName_unknown unknown, valueAt?, given]
      exact (denotes_iff _ a).mp denotes
  · intro h
    by_cases known : ∃ f : Field, f.ruleName = name
    · obtain ⟨f, rfl⟩ := known
      rw [FieldPath.ofRuleName_known] at h
      cases f with
      | totalSpent => cases h; exact .totalSpent
      | orderCount => cases h; exact .orderCount
      | lastPurchase =>
        obtain ⟨t, given, rfl⟩ := Option.map_eq_some_iff.mp h
        exact .lastPurchase given
      | city =>
        obtain ⟨s, given, rfl⟩ := Option.map_eq_some_iff.mp h
        exact .city given
      | isActive => cases h; exact .isActive
      | age =>
        obtain ⟨n, given, rfl⟩ := Option.map_eq_some_iff.mp h
        exact .age given
      | gender =>
        obtain ⟨s, given, rfl⟩ := Option.map_eq_some_iff.mp h
        exact .gender given
      | occupation =>
        obtain ⟨s, given, rfl⟩ := Option.map_eq_some_iff.mp h
        exact .occupation given
    · have unknown : ∀ f : Field, f.ruleName ≠ name := fun f hf => known ⟨f, hf⟩
      rw [FieldPath.ofRuleName_unknown unknown] at h
      obtain ⟨value, given, denotes⟩ := Option.bind_eq_some_iff.mp h
      exact .custom unknown given ((denotes_iff value a).mpr denotes)

/-- What the value of a rule stands for next to a field. For the field that is true or false it is
true if it says so, and a value with parts stands for its text. -/
inductive Stands (name : String) (value : Json) : Operand → Prop
  | affirmed (truth : name = "is_active") (yes : value = .bool true ∨ value = .text "true") :
      Stands name value (.bool true)
  | denied (truth : name = "is_active") (no : ¬ (value = .bool true ∨ value = .text "true")) :
      Stands name value (.bool false)
  | plain {a : Operand} (other : name ≠ "is_active") (denotes : Denotes value a) :
      Stands name value a
  | composite (other : name ≠ "is_active") (parts : ∀ a, ¬ Denotes value a) :
      Stands name value (.text value.write)

theorem truthOf_eq_true (value : Json) :
    truthOf value = true ↔ value = .bool true ∨ value = .text "true" := by
  cases value <;> simp [truthOf]

theorem operand_truth {name : String} (truth : name = "is_active") (value : Json) :
    Rule.operand (FieldPath.ofRuleName name) value = .bool (truthOf value) :=
  if_pos (FieldPath.ofRuleName_eq_known.mpr truth)

theorem operand_other {name : String} (other : name ≠ "is_active") (value : Json) :
    Rule.operand (FieldPath.ofRuleName name) value =
      (Operand.ofJson? value).getD (.text value.write) :=
  if_neg fun known => other (FieldPath.ofRuleName_eq_known.mp known)

theorem Stands.eq_operand {name : String} {value : Json} {a : Operand} (h : Stands name value a) :
    a = Rule.operand (FieldPath.ofRuleName name) value := by
  cases h with
  | affirmed truth yes => rw [operand_truth truth, (truthOf_eq_true value).mpr yes]
  | denied truth no =>
    have hfalse : truthOf value = false := by
      simpa using fun htrue => no ((truthOf_eq_true value).mp htrue)
    rw [operand_truth truth, hfalse]
  | plain other denotes =>
    rw [operand_other other, (denotes_iff value a).mp denotes]
    rfl
  | composite other parts =>
    rw [operand_other other]
    cases hj : Operand.ofJson? value with
    | none => rfl
    | some b => exact absurd ((denotes_iff value b).mpr hj) (parts b)

theorem stands_operand (name : String) (value : Json) :
    Stands name value (Rule.operand (FieldPath.ofRuleName name) value) := by
  by_cases truth : name = "is_active"
  · rw [operand_truth truth]
    cases ht : truthOf value with
    | true => exact .affirmed truth ((truthOf_eq_true value).mp ht)
    | false =>
      refine .denied truth fun yes => ?_
      rw [(truthOf_eq_true value).mpr yes] at ht
      cases ht
  · rw [operand_other truth]
    cases hj : Operand.ofJson? value with
    | none =>
      refine .composite truth fun b denotes => ?_
      rw [(denotes_iff value b).mp denotes] at hj
      cases hj
    | some b => exact .plain truth ((denotes_iff value b).mpr hj)

/-! ## Rules -/

/-- The rule is about the last purchase, and its value counts days back to an instant that can be
represented. -/
structure Rule.CountsDays (r : Rule) (now : Instant) (n : Int) : Prop where
  field : r.field = "last_purchase"
  counts : Counts r.value n
  represented : ∃ i : Instant, i.IsDaysBefore now n

/-- The rule holds of a customer at an instant. -/
inductive Rule.Holds (now : Instant) (c : Customer) (r : Rule) : Prop
  /-- An operator that is not known asks for nothing. -/
  | unknown (occurrence : r.operator ≠ "contains")
      (comparison : ∀ op : Comparison, op.symbol ≠ r.operator)
  | contains {s : String} (operator : r.operator = "contains") (shown : Shows c r.field (.text s))
      (occurs : Text.lowerCase (Rule.needle r.value) <:+: Text.lowerCase s)
  /-- The longer ago the purchase was, the more time is compared with the days. -/
  | elapsed {op : Comparison} {n : Int} {t : Instant} (operator : op.symbol = r.operator)
      (days : r.CountsDays now n) (purchase : c.stats.lastPurchase = some t)
      (relates : op.Relates (now.nanosSince t) (n * Instant.nanosPerDay))
  | never {n : Int} (operator : r.operator = "!=") (days : r.CountsDays now n)
      (purchase : c.stats.lastPurchase = none)
  | related {op : Comparison} {a b : Operand} (operator : op.symbol = r.operator)
      (plain : ∀ n, ¬ r.CountsDays now n) (shown : Shows c r.field a)
      (stands : Stands r.field r.value b) (related : a.Related op b)
  /-- What is missing, or of another kind, is different. -/
  | unlike {b : Operand} (operator : r.operator = "!=") (plain : ∀ n, ¬ r.CountsDays now n)
      (stands : Stands r.field r.value b) (unlike : ∀ a, Shows c r.field a → ¬ a.Alike b)

/-- All rules hold, or one of them at least. -/
def RuleSet.Holds (now : Instant) (c : Customer) (s : RuleSet) : Prop :=
  match s.combinator with
  | .and => ∀ r ∈ s.rules, r.Holds now c
  | .or => ∃ r ∈ s.rules, r.Holds now c

variable {now : Instant} {c : Customer} {r : Rule}

theorem Rule.CountsDays.cutoff? (represented : now.inRange = true)
    (plain : now.nanos < Instant.nanosPerSecond) {n : Int} (h : r.CountsDays now n) :
    ∃ i, cutoff? r.value now = some i ∧ i.IsDaysBefore now n := by
  obtain ⟨i, hbefore⟩ := h.represented
  exact ⟨i, (cutoff?_eq_some represented plain).mpr ⟨n, h.counts, hbefore⟩, hbefore⟩

theorem Rule.cutoff?_eq_none (represented : now.inRange = true)
    (plain : now.nanos < Instant.nanosPerSecond) (field : r.field = "last_purchase")
    (h : ∀ n, ¬ r.CountsDays now n) : Segment.cutoff? r.value now = none := by
  cases hcutoff : Segment.cutoff? r.value now with
  | none => rfl
  | some i =>
    obtain ⟨n, counts, hbefore⟩ := (cutoff?_eq_some represented plain).mp hcutoff
    exact absurd ⟨field, counts, i, hbefore⟩ (h n)

/-- To be earlier is to have more time since. -/
theorem Comparison.relates_flipped {t i : Instant} (ht : t.nanos < Instant.nanosPerSecond)
    (hi : i.nanos < Instant.nanosPerSecond) (op : Comparison) (now : Instant) :
    op.flipped.Relates t i ↔ op.Relates (now.nanosSince t) (now.nanosSince i) := by
  obtain ⟨seconds, nanos⟩ := t
  obtain ⟨seconds', nanos'⟩ := i
  simp only [Instant.nanosPerSecond] at ht hi
  cases op <;>
    simp only [flipped, Relates, Instant.lt_iff, Instant.le_iff, Instant.nanosSince,
      Instant.nanosPerSecond, Instant.mk.injEq, ne_eq] <;>
    omega

theorem Comparison.symbol_injective {op op' : Comparison} (h : op.symbol = op'.symbol) :
    op = op' := by
  have hsome := ofSymbol?_symbol op
  rw [h, ofSymbol?_symbol] at hsome
  exact (Option.some.inj hsome).symm

theorem Comparison.symbol_ne_contains (op : Comparison) : op.symbol ≠ "contains" := by
  cases op <;> decide

theorem Comparison.flipped_eq_notEqual {op : Comparison} :
    op.flipped = .notEqual ↔ op = .notEqual := by
  cases op <;> simp [flipped]

/-- A rule about days holds if the time since the last purchase is related to so many times 24
hours, and for inequality also if there was no purchase. -/
theorem Rule.satisfied_days (represented : now.inRange = true)
    (plain : now.nanos < Instant.nanosPerSecond)
    (purchased : ∀ t, c.stats.lastPurchase = some t → t.nanos < Instant.nanosPerSecond)
    {op : Comparison} (operator : op.symbol = r.operator) {n : Int} (days : r.CountsDays now n) :
    (Rule.comparison (.ofRuleName r.field) op r.value now).satisfied c = true ↔
      r.Holds now c := by
  obtain ⟨i, hcutoff, hbefore⟩ := days.cutoff? represented plain
  have hpath : FieldPath.ofRuleName r.field = .known .lastPurchase :=
    FieldPath.ofRuleName_eq_known.mpr days.field
  have hrelates : ∀ t, c.stats.lastPurchase = some t →
      (op.flipped.Relates t i ↔ op.Relates (now.nanosSince t) (n * Instant.nanosPerDay)) := by
    intro t ht
    rw [← hbefore.elapsed]
    exact Comparison.relates_flipped (purchased t ht) hbefore.plain op now
  rw [Rule.comparison, if_pos hpath, hcutoff, Predicate.satisfied, hpath,
    Predicate.compareMatches_iff, Comparison.flipped_eq_notEqual]
  constructor
  · rintro (⟨a, ha, related⟩ | ⟨rfl, unlike⟩)
    · obtain ⟨t, ht, rfl⟩ := Option.map_eq_some_iff.mp ha
      cases related with
      | timestamp relates => exact .elapsed operator days ht ((hrelates t ht).mp relates)
    · refine .never operator.symm days ?_
      cases ht : c.stats.lastPurchase with
      | none => rfl
      | some t => exact absurd (.timestamp t i) (unlike (.timestamp t) (by rw [valueAt?, ht]; rfl))
  · intro holds
    cases holds with
    | unknown _ comparison => exact absurd operator (comparison op)
    | contains contains _ _ => exact absurd (operator.trans contains) op.symbol_ne_contains
    | @elapsed op' n' t operator' days' purchase relates =>
      left
      cases Comparison.symbol_injective (operator'.trans operator.symm)
      obtain ⟨i', hcutoff', hbefore'⟩ := days'.cutoff? represented plain
      rw [hcutoff] at hcutoff'
      cases hcutoff'
      rw [← hbefore'.elapsed, hbefore.elapsed] at relates
      exact ⟨.timestamp t, by rw [valueAt?, purchase]; rfl,
        .timestamp ((hrelates t purchase).mpr relates)⟩
    | never inequality _ purchase =>
      right
      refine ⟨Comparison.symbol_injective (operator.trans inequality), ?_⟩
      intro a ha
      rw [valueAt?, purchase] at ha
      cases ha
    | related _ plain' _ _ _ => exact absurd days (plain' n)
    | unlike _ plain' _ _ => exact absurd days (plain' n)

/-- Any other comparison holds if the customer shows a value that is related to that of the rule,
and for inequality also if the customer shows none that is alike. -/
theorem Rule.satisfied_plain (represented : now.inRange = true)
    (plain : now.nanos < Instant.nanosPerSecond) {op : Comparison}
    (operator : op.symbol = r.operator) (other : ∀ n, ¬ r.CountsDays now n) :
    (Rule.comparison (.ofRuleName r.field) op r.value now).satisfied c = true ↔
      r.Holds now c := by
  have stands := stands_operand r.field r.value
  have hcomparison : Rule.comparison (.ofRuleName r.field) op r.value now =
      .compare (.ofRuleName r.field) op (Rule.operand (.ofRuleName r.field) r.value) := by
    rw [Rule.comparison]
    split
    · rename_i hpath
      rw [Rule.cutoff?_eq_none represented plain (FieldPath.ofRuleName_eq_known.mp hpath) other]
    · rfl
  rw [hcomparison, Predicate.satisfied, Predicate.compareMatches_iff]
  constructor
  · rintro (⟨a, ha, related⟩ | ⟨rfl, unlike⟩)
    · exact .related operator other ((shows_iff c r.field a).mpr ha) stands related
    · refine .unlike operator.symm other stands ?_
      intro a shown
      exact unlike a ((shows_iff c r.field a).mp shown)
  · intro holds
    cases holds with
    | unknown _ comparison => exact absurd operator (comparison op)
    | contains contains _ _ => exact absurd (operator.trans contains) op.symbol_ne_contains
    | elapsed _ days _ _ => exact absurd days (other _)
    | never _ days _ => exact absurd days (other _)
    | @related op' a b' operator' _ shown stands' related =>
      left
      cases Comparison.symbol_injective (operator'.trans operator.symm)
      cases stands'.eq_operand
      exact ⟨a, (shows_iff c r.field a).mp shown, related⟩
    | @unlike b' inequality _ stands' unlike =>
      right
      cases stands'.eq_operand
      refine ⟨Comparison.symbol_injective (operator.trans inequality), ?_⟩
      intro a ha
      exact unlike a ((shows_iff c r.field a).mpr ha)

theorem Rule.satisfied_contains (operator : r.operator = "contains") :
    (Predicate.contains (.ofRuleName r.field) (Rule.needle r.value)).satisfied c = true ↔
      r.Holds now c := by
  rw [Predicate.satisfied, Predicate.containsMatches_iff]
  constructor
  · rintro ⟨s, hs, occurs⟩
    exact .contains operator ((shows_iff _ _ _).mpr hs) occurs
  · intro holds
    cases holds with
    | unknown occurrence _ => exact absurd operator occurrence
    | contains _ shown occurs => exact ⟨_, (shows_iff _ _ _).mp shown, occurs⟩
    | elapsed operator' _ _ _ =>
      exact absurd (operator'.trans operator) (Comparison.symbol_ne_contains _)
    | never operator' _ _ => exact absurd (operator.symm.trans operator') (by decide)
    | related operator' _ _ _ _ =>
      exact absurd (operator'.trans operator) (Comparison.symbol_ne_contains _)
    | unlike operator' _ _ _ => exact absurd (operator.symm.trans operator') (by decide)

/-- The predicate of a rule holds of exactly the customers of whom the rule holds. -/
theorem Rule.satisfied_toPredicate (represented : now.inRange = true)
    (plain : now.nanos < Instant.nanosPerSecond)
    (purchased : ∀ t, c.stats.lastPurchase = some t → t.nanos < Instant.nanosPerSecond)
    (r : Rule) : (r.toPredicate now).satisfied c = true ↔ r.Holds now c := by
  by_cases hcontains : r.operator = Rule.containsSymbol
  · rw [Rule.toPredicate, if_pos hcontains]
    exact Rule.satisfied_contains hcontains
  · rw [Rule.toPredicate, if_neg hcontains]
    cases hop : Comparison.ofSymbol? r.operator with
    | none =>
      constructor
      · intro _
        exact .unknown hcontains (Comparison.ofSymbol?_eq_none hop)
      · intro _
        rfl
    | some op =>
      have operator := Comparison.ofSymbol?_eq_some hop
      by_cases days : ∃ n, r.CountsDays now n
      · obtain ⟨n, days⟩ := days
        exact Rule.satisfied_days represented plain purchased operator days
      · exact Rule.satisfied_plain represented plain operator fun n hn => days ⟨n, hn⟩

/-- At any instant that can be represented, leap seconds apart, the predicate of a rule set holds of
exactly the customers of whom the rules hold in the way they are combined. -/
theorem RuleSet.satisfied_iff_holds (represented : now.inRange = true)
    (plain : now.nanos < Instant.nanosPerSecond)
    (purchased : ∀ t, c.stats.lastPurchase = some t → t.nanos < Instant.nanosPerSecond)
    (s : RuleSet) : (s.toPredicate now).satisfied c = true ↔ s.Holds now c := by
  have hrule := Rule.satisfied_toPredicate represented plain purchased
  cases hcombinator : s.combinator with
  | and =>
    rw [RuleSet.toPredicate, RuleSet.Holds, hcombinator]
    simp only [Predicate.satisfied, Predicate.allSatisfied_eq, List.all_map, List.all_eq_true,
      Function.comp_apply, hrule]
  | or =>
    rw [RuleSet.toPredicate, RuleSet.Holds, hcombinator]
    simp only [Predicate.satisfied, Predicate.anySatisfied_eq, List.any_map, List.any_eq_true,
      Function.comp_apply, hrule]

/-- A rule that asks for more than thirty days since the last purchase holds on the day after the
thirtieth and not before, next to a rule that is met and one that asks for nothing. -/
theorem RuleSet.holds_after_thirty_days :
    let customer : Customer := ⟨"cust-00", "Customer 0", none, true, ⟨0.0, 1, some ⟨0, 0⟩⟩,
      ⟨none, none, none⟩, ⟨some "New York"⟩, []⟩
    let rules : RuleSet := ⟨.and, [.make "last_purchase" ">" (.text " +30 days"),
      .make "city" "contains" (.text "YORK"), .make "city" "resembles" (.text "Boston")]⟩
    let day (n : Int) : Instant := ⟨n * 86400, 0⟩
    rules.Holds (day 31) customer ∧ ¬ rules.Holds (day 30) customer := by
  intro customer rules day
  have purchased : ∀ t, customer.stats.lastPurchase = some t →
      t.nanos < Instant.nanosPerSecond := by
    rintro t ⟨⟩
    decide
  have hlater : (rules.toPredicate (day 31)).satisfied customer = true ↔ _ :=
    RuleSet.satisfied_iff_holds (by decide) (by decide) purchased rules
  have hearlier : (rules.toPredicate (day 30)).satisfied customer = true ↔ _ :=
    RuleSet.satisfied_iff_holds (by decide) (by decide) purchased rules
  constructor
  · exact hlater.mp (by decide +kernel)
  · intro holds
    exact absurd (hearlier.mpr holds) (by decide +kernel)

end Outreach.Segment
