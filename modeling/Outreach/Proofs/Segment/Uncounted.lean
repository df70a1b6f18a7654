import Outreach.Proofs.Segment.Widening

/-!
# Values that say no number of days

A rule about the last purchase whose value is neither an integer nor a text that starts with one is
left as a comparison of an instant with that value. It matches nobody, and for inequality everybody.
Numbers with a fraction are not left so: they count days by their whole part, wherever that leads to
an instant that can be represented.
-/

namespace Outreach.Segment

/-- The value is an integer, or a text that starts with one after blanks and a sign. -/
inductive SaysInteger : Json → Prop
  | number (z : Int) : SaysInteger (.int z)
  | text {s : String} {n : Int} (starts : StartsWith s.toList n) : SaysInteger (.text s)

namespace Rule

variable {op : Comparison} {value : Json} {now : Instant} {c : Customer} {r : Rule} {n : Int}

theorem operand_ne_timestamp (value : Json) (i : Instant) :
    operand (.known .lastPurchase) value ≠ .timestamp i := by
  cases value <;> simp [operand, Operand.ofJson?]

/-- An instant is different from whatever counts no days, and in no other way related to it. -/
theorem matches_uncounted_iff (uncounted : cutoff? value now = none) (hint : Option String) :
    (comparing "last_purchase" op value hint).Matches now c ↔ op = .notEqual := by
  have hunlike : ∀ a, valueAt? c (.known .lastPurchase) = some a →
      ¬ a.Alike (operand (.known .lastPurchase) value) := by
    intro a ha alike
    obtain ⟨t, -, rfl⟩ := Option.map_eq_some_iff.mp ha
    generalize hb : operand (.known .lastPurchase) value = b at alike
    cases alike with
    | timestamp _ i => exact operand_ne_timestamp value i hb
  have hpredicate : (comparing "last_purchase" op value hint).toPredicate now =
      .compare (.known .lastPurchase) op (operand (.known .lastPurchase) value) := by
    rw [toPredicate_purchase rfl rfl now]
    simp only [comparing, uncounted]
  rw [Matches, hpredicate, Predicate.satisfied, Predicate.compareMatches_iff]
  constructor
  · rintro (⟨a, ha, related⟩ | ⟨inequality, -⟩)
    · exact absurd related.alike (hunlike a ha)
    · exact inequality
  · intro inequality
    exact Or.inr ⟨inequality, hunlike⟩

theorem within_of_dated (represented : now.inRange = true) (dated : now.Dated n) :
    minWord < n ∧ n < maxWord := by
  have hshift := now.seconds_subDays n
  have hmin : minWord = -9223372036854775808 := by decide
  have hmax : maxWord = 9223372036854775807 := by decide
  have hfirst : Instant.first.seconds = -8334601228800 := by decide
  have hlast : Instant.lastSecond = 8210266876799 := by decide
  rw [Instant.Dated] at dated
  simp only [Instant.inRange, Bool.and_eq_true, decide_eq_true_eq, hfirst, hlast] at represented dated
  omega

theorem dated_clampWord (represented : now.inRange = true) :
    now.Dated (clampWord n) ↔ now.Dated n := by
  constructor
  · intro dated
    have hwithin := within_of_dated represented dated
    have hsame : clampWord n = n := by
      rw [clampWord] at hwithin ⊢
      omega
    rwa [hsame] at dated
  · intro dated
    have hwithin := within_of_dated represented dated
    have hsame : clampWord n = n := by
      rw [clampWord]
      omega
    rwa [hsame]

theorem cutoff?_float {x : Float} (whole : Decimal.truncate? x = some n) :
    cutoff? (.float x) now = cutoff? (.int n) now := by
  rw [cutoff?, cutoff?, dayCount?, dayCount?, whole, Option.map_some]

theorem cutoff?_int_eq_none_iff (represented : now.inRange = true) :
    cutoff? (.int n) now = none ↔ ¬ now.Dated n := by
  rw [← dated_clampWord represented, Instant.Dated, cutoff?, dayCount?, Option.bind_some,
    Instant.subDays?]
  simp

theorem cutoff?_eq_none_iff (represented : now.inRange = true) (other : ¬ SaysInteger value) :
    cutoff? value now = none ↔
      ∀ x n, value = .float x → Decimal.truncate? x = some n → ¬ now.Dated n := by
  constructor
  · rintro uncounted x n rfl whole
    rwa [cutoff?_float whole, cutoff?_int_eq_none_iff represented] at uncounted
  · intro undated
    cases value with
    | int z => exact absurd (.number z) other
    | text s =>
      have hnone : startingInteger? s.toList = none := by
        cases hstart : startingInteger? s.toList with
        | none => rfl
        | some n => exact absurd (.text (startsWith_of_startingInteger? hstart).1) other
      rw [cutoff?, dayCount?, hnone, Option.bind_none]
    | float x =>
      cases whole : Decimal.truncate? x with
      | none => rw [cutoff?, dayCount?, whole, Option.map_none, Option.bind_none]
      | some n =>
        rw [cutoff?_float whole, cutoff?_int_eq_none_iff represented]
        exact undated x n rfl whole
    | null => rfl
    | bool _ => rfl
    | array _ => rfl
    | object _ => rfl
    | unreadable => rfl

/-- A number with a fraction counts the days of its whole part. -/
theorem matches_whole_part_iff {x : Float} (whole : Decimal.truncate? x = some n)
    (hint : Option String) :
    (comparing "last_purchase" op (.float x) hint).Matches now c ↔ (sincePurchase op n).Matches now c := by
  cases counted : cutoff? (.int n) now with
  | none =>
    have huncounted : cutoff? (.float x) now = none := (cutoff?_float whole).trans counted
    rw [matches_uncounted_iff huncounted hint]
    exact (matches_uncounted_iff counted none).symm
  | some i =>
    have hfloat : cutoff? (comparing "last_purchase" op (.float x) hint).value now = some i :=
      (cutoff?_float whole).trans counted
    have hwhole : cutoff? (sincePurchase op n).value now = some i := counted
    rw [Matches, Matches, toPredicate_purchase rfl rfl now, toPredicate_purchase rfl rfl now]
    simp only [hfloat, hwhole]

/-- A rule whose value says no integer matches nobody, and everybody for inequality, exactly if the
value has no whole part that leads back to an instant which can be represented. With such a whole
part it matches as the rule of the whole part does. -/
theorem uncounted_matches_nobody_iff (represented : now.inRange = true)
    (other : ¬ SaysInteger value) :
    ((∀ op hint c, (comparing "last_purchase" op value hint).Matches now c ↔ op = .notEqual) ↔
        ∀ x n, value = .float x → Decimal.truncate? x = some n → ¬ now.Dated n) ∧
      ∀ x n, value = .float x → Decimal.truncate? x = some n → ∀ op hint c,
        (comparing "last_purchase" op value hint).Matches now c ↔ (sincePurchase op n).Matches now c := by
  refine ⟨⟨?_, ?_⟩, ?_⟩
  · rintro nobody x n rfl whole dated
    obtain ⟨hleast, hmost⟩ := within_of_dated represented dated
    -- A purchase at the very instant would be matched.
    have matched := matches_purchaserAt (.inl rfl) hleast.le hmost.le dated
    rw [← matches_whole_part_iff whole none] at matched
    exact absurd ((nobody _ _ _).mp matched) (by decide)
  · intro undated op hint c
    exact matches_uncounted_iff ((cutoff?_eq_none_iff represented other).mpr undated) hint
  · rintro x n rfl whole op hint c
    exact matches_whole_part_iff whole hint

/-- Thirty and a half days are taken for thirty, so that yesterday's purchase lies fewer days back.
A truth value is taken for no number of days. -/
theorem half_a_day_is_dropped :
    let now : Instant := ⟨1717200000, 0⟩
    let yesterday : Customer := purchaserAt ⟨1717113600, 0⟩
    let halved (op : Comparison) (hint : Option String) : Rule :=
      comparing "last_purchase" op (.float 30.5) hint
    now.inRange = true ∧ ¬ SaysInteger (.float 30.5) ∧ (halved .less none).Matches now yesterday ∧
      ¬ (∀ op hint c, (halved op hint).Matches now c ↔ op = .notEqual) ∧
      (∀ op hint c, (halved op hint).Matches now c ↔ (sincePurchase op 30).Matches now c) ∧
      ∀ op hint c, (comparing "last_purchase" op (.bool true) hint).Matches now c ↔
        op = .notEqual := by
  intro now yesterday halved
  have represented : now.inRange = true := by decide
  have hhalf : ¬ SaysInteger (.float 30.5) := by
    rintro ⟨⟩
  have htruth : ¬ SaysInteger (.bool true) := by
    rintro ⟨⟩
  have hwhole : Decimal.truncate? 30.5 = some 30 := by decide +kernel
  have hdated : now.Dated 30 := by decide
  refine ⟨represented, hhalf, by decide +kernel, ?_, ?_, ?_⟩
  · rw [(uncounted_matches_nobody_iff represented hhalf).1]
    exact fun undated => undated 30.5 30 rfl hwhole hdated
  · exact (uncounted_matches_nobody_iff represented hhalf).2 30.5 30 rfl hwhole
  · rw [(uncounted_matches_nobody_iff represented htruth).1]
    rintro x n ⟨⟩

end Rule

end Outreach.Segment
