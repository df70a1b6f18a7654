import Outreach.Proofs.Segment.Comparison
import Outreach.Proofs.Segment.DayCount
import Outreach.Segment.Rule

/-!
# Wider and narrower day counts

A rule about the days since the last purchase compares the instant of the purchase with the instant
so many days before the present. More days lead to an earlier instant, so a rule that asks for fewer
days than a count matches more customers as the count grows, and one that asks for more days matches
more as it falls. That ends where the instant can no longer be represented: a rule with such a count
is left as a comparison of an instant with a number, and it matches nobody.
-/

namespace Outreach

namespace Instant

variable {a b c : Instant}

theorem lt_of_le_of_lt (h : a ≤ b) (k : b < c) : a < c := by
  simp only [le_iff, lt_iff] at *
  omega

theorem lt_of_lt_of_le (h : a < b) (k : b ≤ c) : a < c := by
  simp only [le_iff, lt_iff] at *
  omega

/-- To leave a leap second shifts the seconds by one at most. -/
theorem seconds_subDays (i : Instant) (n : Int) :
    i.seconds - n * 86400 ≤ (i.subDays n).seconds ∧
      (i.subDays n).seconds ≤ i.seconds + 1 - n * 86400 := by
  simp only [subDays]
  split
  · split
    · simp only
      omega
    · simp only
      omega
  · simp only
    omega

theorem subDays_le_subDays {m n : Int} (i : Instant) (h : m ≤ n) : i.subDays n ≤ i.subDays m := by
  rcases h.lt_or_eq with hlt | rfl
  · left
    have hm := i.seconds_subDays m
    have hn := i.seconds_subDays n
    omega
  · exact le_refl _

/-- The instant a number of days before the present can be represented. -/
def Dated (now : Instant) (days : Int) : Prop :=
  (now.subDays days).inRange = true
  deriving Decidable

end Instant

namespace Segment

/-- The rule that compares the days since the last purchase with a number. -/
def Rule.sincePurchase (op : Comparison) (days : Int) : Rule :=
  .make "last_purchase" op.symbol (.int days)

/-- The rule that compares a field with a value. -/
def Rule.comparing (field : String) (op : Comparison) (value : Json) (hint : Option String) : Rule :=
  ⟨field, op.symbol, value, hint⟩

/-- The rule matches the customer as of the present. -/
def Rule.Matches (r : Rule) (now : Instant) (c : Customer) : Prop :=
  (r.toPredicate now).satisfied c = true
  deriving Decidable

namespace Comparison

/-- The operators that ask for fewer days than a number. -/
def AsksForFewer (op : Comparison) : Prop :=
  op = less ∨ op = lessOrEqual

/-- The operators that ask for more days than a number. -/
def AsksForMore (op : Comparison) : Prop :=
  op = greater ∨ op = greaterOrEqual

variable {op : Comparison} {t i j : Instant}

theorem AsksForFewer.ordered (h : op.AsksForFewer) : op ≠ .notEqual := by
  rcases h with rfl | rfl <;> decide

theorem AsksForMore.ordered (h : op.AsksForMore) : op ≠ .notEqual := by
  rcases h with rfl | rfl <;> decide

theorem AsksForFewer.relates (h : op.AsksForFewer) (earlier : j ≤ i)
    (relates : op.flipped.Relates t i) : op.flipped.Relates t j := by
  rcases h with rfl | rfl
  · exact Instant.lt_of_le_of_lt earlier relates
  · exact Instant.le_trans earlier relates

theorem AsksForMore.relates (h : op.AsksForMore) (later : i ≤ j)
    (relates : op.flipped.Relates t i) : op.flipped.Relates t j := by
  rcases h with rfl | rfl
  · exact Instant.lt_of_lt_of_le relates later
  · exact Instant.le_trans relates later

end Comparison

namespace Rule

variable {op : Comparison} {now : Instant} {c : Customer} {m n : Int}

theorem cutoff?_int (least : minWord ≤ n) (most : n ≤ maxWord) :
    cutoff? (.int n) now = now.subDays? n := by
  have hclamp : clampWord n = n := by
    rw [clampWord]
    omega
  rw [cutoff?, dayCount?, hclamp, Option.bind_some]

/-- A rule about the last purchase compares it with the instant that its value counts back to, or
with the value as it is. -/
theorem toPredicate_purchase {r : Rule} (field : r.field = "last_purchase")
    (operator : r.operator = op.symbol) (now : Instant) :
    r.toPredicate now =
      match cutoff? r.value now with
      | some i => .compare (.known .lastPurchase) op.flipped (.timestamp i)
      | none => .compare (.known .lastPurchase) op (operand (.known .lastPurchase) r.value) := by
  have hcontains : op.symbol ≠ containsSymbol := by cases op <;> decide
  have hpath : FieldPath.ofRuleName "last_purchase" = .known .lastPurchase := by decide
  have hcompared : r.toPredicate now = comparison (.known .lastPurchase) op r.value now := by
    simp only [toPredicate, field, operator, hcontains, if_false, hpath, Comparison.ofSymbol?_symbol]
  exact hcompared.trans (if_pos rfl)

theorem toPredicate_sincePurchase (op : Comparison) (days : Int) (now : Instant) :
    (sincePurchase op days).toPredicate now =
      match cutoff? (.int days) now with
      | some i => .compare (.known .lastPurchase) op.flipped (.timestamp i)
      | none => .compare (.known .lastPurchase) op (.number (Decimal.ofInt days)) :=
  toPredicate_purchase rfl rfl now

/-- A rule about days, other than for inequality, matches the customers whose last purchase lies on
the right side of the day that is told by its count. Without that day it matches nobody. -/
theorem matches_sincePurchase_iff (ordered : op ≠ .notEqual) (least : minWord ≤ n)
    (most : n ≤ maxWord) :
    (sincePurchase op n).Matches now c ↔
      now.Dated n ∧ ∃ t, c.stats.lastPurchase = some t ∧ op.flipped.Relates t (now.subDays n) := by
  rw [Matches, toPredicate_sincePurchase, cutoff?_int least most, Instant.subDays?, Instant.Dated]
  by_cases dated : (now.subDays n).inRange = true
  · have hflipped : op.flipped ≠ .notEqual := by
      intro h
      cases op <;> simp [Comparison.flipped] at h ordered
    simp only [dated, if_true, true_and, Predicate.satisfied, valueAt?,
      Predicate.compareMatches_iff, hflipped, false_and, or_false]
    constructor
    · rintro ⟨a, ha, related⟩
      obtain ⟨t, ht, rfl⟩ := Option.map_eq_some_iff.mp ha
      cases related with
      | timestamp relates => exact ⟨t, ht, relates⟩
    · rintro ⟨t, ht, relates⟩
      exact ⟨.timestamp t, by rw [ht]; rfl, .timestamp relates⟩
  · simp only [dated, if_false, false_and, iff_false, Predicate.satisfied, valueAt?,
      Predicate.compareMatches_iff, ordered, or_false, Bool.false_eq_true]
    rintro ⟨a, ha, related⟩
    obtain ⟨t, -, rfl⟩ := Option.map_eq_some_iff.mp ha
    cases related

theorem dated_of_matches (ordered : op ≠ .notEqual) (least : minWord ≤ n) (most : n ≤ maxWord)
    (matched : (sincePurchase op n).Matches now c) : now.Dated n :=
  ((matches_sincePurchase_iff ordered least most).mp matched).1

/-- A customer whom a rule for fewer days matches is matched with a larger count exactly if that
count tells a day. -/
theorem matches_more_days_iff (op_fewer : op.AsksForFewer) (least : minWord ≤ m) (order : m ≤ n)
    (most : n ≤ maxWord) (matched : (sincePurchase op m).Matches now c) :
    (sincePurchase op n).Matches now c ↔ now.Dated n := by
  obtain ⟨-, t, ht, relates⟩ :=
    (matches_sincePurchase_iff op_fewer.ordered least (order.trans most)).mp matched
  rw [matches_sincePurchase_iff op_fewer.ordered (least.trans order) most]
  constructor
  · exact And.left
  · intro dated
    exact ⟨dated, t, ht, op_fewer.relates (now.subDays_le_subDays order) relates⟩

/-- A customer whom a rule for more days matches is matched with a smaller count exactly if that
count tells a day. -/
theorem matches_fewer_days_iff (op_more : op.AsksForMore) (least : minWord ≤ m) (order : m ≤ n)
    (most : n ≤ maxWord) (matched : (sincePurchase op n).Matches now c) :
    (sincePurchase op m).Matches now c ↔ now.Dated m := by
  obtain ⟨-, t, ht, relates⟩ :=
    (matches_sincePurchase_iff op_more.ordered (least.trans order) most).mp matched
  rw [matches_sincePurchase_iff op_more.ordered least (order.trans most)]
  constructor
  · exact And.left
  · intro dated
    exact ⟨dated, t, ht, op_more.relates (now.subDays_le_subDays order) relates⟩

/-- A customer whose last purchase lies at an instant. -/
def purchaserAt (i : Instant) : Customer :=
  { Customer.named "cust-00" "Customer 0" with stats := ⟨0.0, 1, some i⟩ }

theorem matches_purchaserAt (reflexive : op = .lessOrEqual ∨ op = .greaterOrEqual)
    (least : minWord ≤ n) (most : n ≤ maxWord) (dated : now.Dated n) :
    (sincePurchase op n).Matches now (purchaserAt (now.subDays n)) := by
  have ordered : op ≠ .notEqual := by
    rcases reflexive with rfl | rfl <;> decide
  rw [matches_sincePurchase_iff ordered least most]
  refine ⟨dated, now.subDays n, rfl, ?_⟩
  rcases reflexive with rfl | rfl
  · exact Instant.le_refl _
  · exact Instant.le_refl _

/-- No customer is lost when the days of a rule grow, for a rule that asks for fewer, or fall, for
one that asks for more, exactly if the new count tells a day wherever the old one does. -/
theorem widening_loses_nobody_iff (least : minWord ≤ m) (order : m ≤ n) (most : n ≤ maxWord)
    (now : Instant) :
    ((∀ c op, op.AsksForFewer → (sincePurchase op m).Matches now c →
        (sincePurchase op n).Matches now c) ↔ (now.Dated m → now.Dated n)) ∧
      ((∀ c op, op.AsksForMore → (sincePurchase op n).Matches now c →
        (sincePurchase op m).Matches now c) ↔ (now.Dated n → now.Dated m)) := by
  refine ⟨⟨?_, ?_⟩, ⟨?_, ?_⟩⟩
  · intro keeps dated
    have matched := matches_purchaserAt (.inl rfl) least (order.trans most) dated
    exact dated_of_matches (by decide) (least.trans order) most (keeps _ _ (.inr rfl) matched)
  · intro dates c op op_fewer matched
    rw [matches_more_days_iff op_fewer least order most matched]
    exact dates (dated_of_matches op_fewer.ordered least (order.trans most) matched)
  · intro keeps dated
    have matched := matches_purchaserAt (.inr rfl) (least.trans order) most dated
    exact dated_of_matches (by decide) least (order.trans most) (keeps _ _ (.inr rfl) matched)
  · intro dates c op op_more matched
    rw [matches_fewer_days_iff op_more least order most matched]
    exact dates (dated_of_matches op_more.ordered (least.trans order) most matched)

/-- Yesterday's purchase lies fewer than thirty days back, and for a rule with a number of days
beyond all calendars it does not. Sixty days lose nobody whom thirty days match. -/
theorem yesterday_is_lost :
    let now : Instant := ⟨1717200000, 0⟩
    let yesterday : Customer := purchaserAt ⟨1717113600, 0⟩
    (sincePurchase .less 30).Matches now yesterday ∧
      ¬ (sincePurchase .less 1000000000).Matches now yesterday ∧
      ¬ (∀ c op, op.AsksForFewer → (sincePurchase op 30).Matches now c →
        (sincePurchase op 1000000000).Matches now c) ∧
      ∀ c op, op.AsksForFewer → (sincePurchase op 30).Matches now c →
        (sincePurchase op 60).Matches now c := by
  intro now yesterday
  have hthirty : now.Dated 30 := by decide
  have hbeyond : ¬ now.Dated 1000000000 := by decide
  have hmatched : (sincePurchase .less 30).Matches now yesterday := by decide +kernel
  have hlost : ¬ (sincePurchase .less 1000000000).Matches now yesterday := by decide +kernel
  refine ⟨hmatched, hlost, ?_, ?_⟩
  · rw [(widening_loses_nobody_iff (by decide) (by decide) (by decide) now).1]
    exact fun dates => hbeyond (dates hthirty)
  · rw [(widening_loses_nobody_iff (by decide) (by decide) (by decide) now).1]
    exact fun _ => by decide

end Rule

end Segment

end Outreach
