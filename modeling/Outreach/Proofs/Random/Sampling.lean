import Mathlib.Algebra.BigOperators.Group.Finset.Basic
import Mathlib.Algebra.Order.Floor.Div
import Mathlib.Data.Set.Card
import Mathlib.Order.Interval.Finset.Nat
import Outreach.Proofs.Delivery.Delays

/-!
# Numbers of a range from words of 64 bits

A number of a range is drawn by widening multiplication. The range is shifted to the top of a word,
a drawn word is multiplied with it, and the upper half of the product counts from the beginning of
the range if the lower half lies below the shifted range. Otherwise the word is passed over and the
next one is tried. No intermediate result leaves the 64 bits, whatever the word, and all numbers of
the range are taken for equally many words, which together are at least half of all.
-/

namespace Outreach.Generator

/-- A whole number as a word of 64 bits, if it fits into one. -/
def word? (z : Int) : Option UInt64 :=
  if 0 ≤ z ∧ z < 2 ^ 64 then some (UInt64.ofNat z.toNat) else none

/-- What is made of a drawn word for the numbers from `low` on and below `high`, with every
intermediate result in a word. There is nothing if one of them does not fit, no number if the word
is passed over, and else the number that is taken. -/
def attempt? (low high v : UInt64) : Option (Option UInt64) := do
  let range ← word? (high.toNat - low.toNat)
  let shifted ← word? (range.toNat * 2 ^ (63 - range.toNat.log2) : Nat)
  let zone ← word? (shifted.toNat - 1)
  let upper ← word? (v.toNat * range.toNat / 2 ^ 64 : Nat)
  let lower ← word? (v.toNat * range.toNat % 2 ^ 64 : Nat)
  if lower ≤ zone then
    let d ← word? (low.toNat + upper.toNat)
    return some d
  else
    return none

/-- What fits into a word is passed on unchanged. -/
theorem bind_word? {z : Int} {n : Nat} (natural : z = n) (fits : n < 2 ^ 64) :
    ∃ w, w.toNat = n ∧ ∀ f : UInt64 → Option (Option UInt64), (word? z).bind f = f w := by
  subst natural
  have hbounds : (0 : Int) ≤ n ∧ (n : Int) < 2 ^ 64 := by omega
  refine ⟨UInt64.ofNat n, UInt64.toNat_ofNat_of_lt' fits, fun f => ?_⟩
  rw [word?, if_pos hbounds]
  rfl

/-! ## The shifted range -/

section Range

variable {r : Nat}

theorem shift_bounds (positive : 0 < r) (small : r < 2 ^ 64) :
    2 ^ 63 ≤ r * 2 ^ (63 - r.log2) ∧ r * 2 ^ (63 - r.log2) < 2 ^ 64 := by
  have hlog : r.log2 < 64 := (Nat.log2_lt positive.ne').mpr small
  constructor
  · calc 2 ^ 63 = 2 ^ r.log2 * 2 ^ (63 - r.log2) := by rw [← Nat.pow_add]; congr 1; omega
      _ ≤ r * 2 ^ (63 - r.log2) := Nat.mul_le_mul_right _ (Nat.log2_self_le positive.ne')
  · calc r * 2 ^ (63 - r.log2) < 2 ^ (r.log2 + 1) * 2 ^ (63 - r.log2) :=
        Nat.mul_lt_mul_of_pos_right Nat.lt_log2_self (Nat.two_pow_pos _)
      _ = 2 ^ 64 := by rw [← Nat.pow_add]; congr 1; omega

theorem le_zone_iff (positive : 0 < r) (small : r < 2 ^ 64) (lower : Nat) :
    lower ≤ zone 64 r ↔ lower < r * 2 ^ (63 - r.log2) := by
  have hshift := (shift_bounds positive small).1
  have hzone : zone 64 r = r * 2 ^ (63 - r.log2) - 1 := rfl
  omega

end Range

/-- The upper half of the product is taken from the beginning of the range on, unless the word is
passed over. Nothing leaves the 64 bits on the way. -/
theorem attempt?_spec {low high : UInt64} (ordered : low < high) (v : UInt64) {r : Nat}
    (range : r = high.toNat - low.toNat) :
    ∃ answer, attempt? low high v = some answer ∧ answer.map UInt64.toNat =
      if v.toNat * r % 2 ^ 64 ≤ zone 64 r then some (low.toNat + v.toNat * r / 2 ^ 64)
      else none := by
  have hordered : low.toNat < high.toNat := UInt64.lt_iff_toNat_lt.mp ordered
  have hhigh := high.toNat_lt
  have hpositive : 0 < r := by omega
  have hsmall : r < 2 ^ 64 := by omega
  obtain ⟨hleast, hmost⟩ := shift_bounds hpositive hsmall
  have hupper : v.toNat * r / 2 ^ 64 < r :=
    Nat.div_lt_of_lt_mul (Nat.mul_lt_mul_of_pos_right v.toNat_lt hpositive)
  have hlower : v.toNat * r % 2 ^ 64 < 2 ^ 64 := Nat.mod_lt _ (Nat.two_pow_pos 64)
  obtain ⟨width, rfl, hwidth⟩ := bind_word? (z := high.toNat - low.toNat) (by omega) hsmall
  obtain ⟨shifted, hs, hshifted⟩ := bind_word? rfl hmost
  obtain ⟨zone, hz, hzone⟩ := bind_word? (z := shifted.toNat - 1) (n := shifted.toNat - 1)
    (by omega) (by omega)
  obtain ⟨upper, hupper, hu⟩ := bind_word? rfl (hupper.trans hsmall)
  obtain ⟨lower, hlower, hl⟩ := bind_word? rfl hlower
  obtain ⟨d, hsum, hd⟩ := bind_word? (z := low.toNat + upper.toNat) (n := low.toNat + upper.toNat)
    (by omega) (by omega)
  have haccepted : lower ≤ zone ↔
      v.toNat * width.toNat % 2 ^ 64 ≤ Generator.zone 64 width.toNat := by
    rw [UInt64.le_iff_toNat_le, hlower, hz, hs, le_zone_iff hpositive hsmall]
    omega
  simp only [attempt?, Option.bind_eq_bind, hwidth, hshifted, hzone, hu, hl, hd]
  by_cases htaken : lower ≤ zone
  · rw [if_pos htaken, if_pos (haccepted.mp htaken)]
    exact ⟨some d, rfl, by rw [Option.map_some, hsum, hupper]⟩
  · rw [if_neg htaken, if_neg (mt haccepted.mpr htaken)]
    exact ⟨none, rfl, rfl⟩

variable {low high d : UInt64}

theorem attempt?_eq_some_iff (ordered : low < high) (v : UInt64) {r : Nat}
    (range : r = high.toNat - low.toNat) :
    attempt? low high v = some (some d) ↔
      low.toNat + v.toNat * r / 2 ^ 64 = d.toNat ∧ v.toNat * r % 2 ^ 64 ≤ zone 64 r := by
  obtain ⟨answer, hanswer, hvalue⟩ := attempt?_spec ordered v range
  rw [hanswer, Option.some.injEq]
  constructor
  · rintro rfl
    rw [Option.map_some] at hvalue
    split at hvalue
    · exact ⟨(Option.some.inj hvalue).symm, by assumption⟩
    · cases hvalue
  · rintro ⟨hd, htaken⟩
    rw [if_pos htaken, hd, Option.map_eq_some_iff] at hvalue
    obtain ⟨e, rfl, he⟩ := hvalue
    rw [UInt64.toNat_inj.mp he]

theorem attempt?_eq_none_iff (ordered : low < high) (v : UInt64) {r : Nat}
    (range : r = high.toNat - low.toNat) :
    attempt? low high v = some none ↔ ¬ v.toNat * r % 2 ^ 64 ≤ zone 64 r := by
  obtain ⟨answer, hanswer, hvalue⟩ := attempt?_spec ordered v range
  rw [hanswer, Option.some.injEq, ← Option.map_eq_none_iff (f := UInt64.toNat), hvalue]
  simp

/-- A number that is taken lies in the range. -/
theorem attempt?_bounds (ordered : low < high) {v : UInt64}
    (taken : attempt? low high v = some (some d)) : low ≤ d ∧ d < high := by
  obtain ⟨hd, -⟩ := (attempt?_eq_some_iff ordered v rfl).mp taken
  have hordered : low.toNat < high.toNat := UInt64.lt_iff_toNat_lt.mp ordered
  have hupper : v.toNat * (high.toNat - low.toNat) / 2 ^ 64 < high.toNat - low.toNat :=
    Nat.div_lt_of_lt_mul (Nat.mul_lt_mul_of_pos_right v.toNat_lt (by omega))
  rw [UInt64.le_iff_toNat_le, UInt64.lt_iff_toNat_lt]
  omega

/-! ## Word after word -/

section Words

variable {g : Generator} {tries : Nat}

/-- The generator after so many words of 64 bits. -/
def after (g : Generator) (words : Nat) : Generator :=
  { g with position := g.position + 2 * words }

/-- The words of 64 bits that follow, from zero on. -/
def wordAt (g : Generator) (i : Nat) : UInt64 :=
  UInt64.ofNat (g.after i).long.1

theorem after_after (g : Generator) (i j : Nat) : (g.after i).after j = g.after (i + j) := by
  simp only [after, Nat.mul_add, Nat.add_assoc]

theorem wordAt_after (g : Generator) (i j : Nat) : (g.after i).wordAt j = g.wordAt (i + j) := by
  simp only [wordAt, after_after]

theorem long_eq (g : Generator) : g.long = ((g.wordAt 0).toNat, g.after 1) := by
  have hword : (g.wordAt 0).toNat = g.long.1 := UInt64.toNat_ofNat_of_lt' g.long_lt
  rw [hword]
  rfl

/-- The first word that is not passed over decides: it comes after so many others, and `d` is taken
for it. -/
structure Answers (g : Generator) (low high : UInt64) (tries : Nat) (d : UInt64) : Prop where
  passed : ∀ i < tries, attempt? low high (g.wordAt i) = some none
  taken : attempt? low high (g.wordAt tries) = some (some d)

theorem answers_zero_iff :
    Answers g low high 0 d ↔ attempt? low high (g.wordAt 0) = some (some d) :=
  ⟨fun h => h.taken, fun h => ⟨fun i hi => absurd hi (Nat.not_lt_zero i), h⟩⟩

theorem answers_succ_iff :
    Answers g low high (tries + 1) d ↔
      attempt? low high (g.wordAt 0) = some none ∧ Answers (g.after 1) low high tries d := by
  have hnext : ∀ i, (g.after 1).wordAt i = g.wordAt (i + 1) := by
    intro i
    rw [wordAt_after, Nat.add_comm]
  constructor
  · intro h
    refine ⟨h.passed 0 (Nat.succ_pos tries), fun i hi => ?_, ?_⟩
    · rw [hnext]
      exact h.passed (i + 1) (by omega)
    · rw [hnext]
      exact h.taken
  · rintro ⟨hfirst, hrest⟩
    refine ⟨fun i hi => ?_, ?_⟩
    · cases i with
      | zero => exact hfirst
      | succ i =>
        rw [← hnext]
        exact hrest.passed i (by omega)
    · rw [← hnext]
      exact hrest.taken

/-- A word that is not passed over ends the search, at the latest. -/
theorem exists_answers (ordered : low < high) {i : Nat}
    (taken : attempt? low high (g.wordAt i) = some (some d)) :
    ∃ tries ≤ i, ∃ e, Answers g low high tries e := by
  induction i generalizing g with
  | zero => exact ⟨0, Nat.le_refl 0, d, answers_zero_iff.mpr taken⟩
  | succ i ih =>
    obtain ⟨answer, hanswer, -⟩ := attempt?_spec ordered (g.wordAt 0) rfl
    cases answer with
    | some e => exact ⟨0, Nat.zero_le _, e, answers_zero_iff.mpr hanswer⟩
    | none =>
      rw [Nat.add_comm, ← wordAt_after] at taken
      obtain ⟨tries, htries, e, hrest⟩ := ih taken
      exact ⟨tries + 1, by omega, e, answers_succ_iff.mpr ⟨hanswer, hrest⟩⟩

theorem below_succ (r fuel : Nat) (g : Generator) :
    below 64 r (fuel + 1) g =
      if (g.wordAt 0).toNat * r % 2 ^ 64 ≤ zone 64 r then
        ((g.wordAt 0).toNat * r / 2 ^ 64, g.after 1)
      else below 64 r fuel (g.after 1) := by
  have hdraw : g.draw 64 = ((g.wordAt 0).toNat, g.after 1) := g.long_eq
  rw [below, hdraw]
  rfl

/-- The search gives the number that is taken for the first word not passed over. -/
theorem Answers.below_eq (h : Answers g low high tries d) (ordered : low < high) {r fuel : Nat}
    (range : r = high.toNat - low.toNat) (enough : tries < fuel) :
    below 64 r fuel g = (d.toNat - low.toNat, g.after (tries + 1)) := by
  -- The fuel is spent on the words passed over, one for each.
  induction tries generalizing g fuel with
  | zero =>
    obtain ⟨fuel, rfl⟩ := Nat.exists_eq_add_one.mpr enough
    obtain ⟨hd, htaken⟩ := (attempt?_eq_some_iff ordered _ range).mp h.taken
    rw [below_succ, if_pos htaken, ← hd, Nat.add_sub_cancel_left]
  | succ tries ih =>
    obtain ⟨fuel, rfl⟩ := Nat.exists_eq_add_one.mpr (Nat.zero_lt_of_lt enough)
    obtain ⟨hfirst, hrest⟩ := answers_succ_iff.mp h
    have hpassed := (attempt?_eq_none_iff ordered _ range).mp hfirst
    rw [below_succ, if_neg hpassed, ih hrest (by omega), after_after, Nat.add_comm 1]

end Words

/-! ## How many words end the search -/

section Count

variable {r k s : Nat}

/-- The words with a given upper half of the product and a lower half in the shifted range follow
one another. -/
theorem halves_iff (positive : 0 < r) (small : r * 2 ^ s ≤ 2 ^ 64) (v : Nat) :
    v * r / 2 ^ 64 = k ∧ v * r % 2 ^ 64 < r * 2 ^ s ↔
      k * 2 ^ 64 ⌈/⌉ r ≤ v ∧ v < k * 2 ^ 64 ⌈/⌉ r + 2 ^ s := by
  have hleast : ∀ w, k * 2 ^ 64 ⌈/⌉ r ≤ w ↔ k * 2 ^ 64 ≤ r * w := fun w =>
    ceilDiv_le_iff_le_mul positive
  have hproduct : v * r / 2 ^ 64 = k ∧ v * r % 2 ^ 64 < r * 2 ^ s ↔
      k * 2 ^ 64 ≤ r * v ∧ r * v < k * 2 ^ 64 + r * 2 ^ s := by
    rw [Nat.mul_comm v]
    omega
  rw [hproduct, hleast]
  refine and_congr_right fun hfirst => ?_
  by_cases hshort : v < 2 ^ s
  · have hbelow : r * v < r * 2 ^ s := Nat.mul_lt_mul_of_pos_left hshort positive
    omega
  · have hrest := hleast (v - 2 ^ s)
    have hdiff : r * (v - 2 ^ s) = r * v - r * 2 ^ s := Nat.mul_sub ..
    have hmost : r * 2 ^ s ≤ r * v := Nat.mul_le_mul_left r (by omega)
    omega

/-- Every upper half below the range is taken for equally many words. -/
theorem card_taken (positive : 0 < r) (small : r < 2 ^ 64) (below : k < r) :
    ((Finset.range (2 ^ 64)).filter fun v =>
      v * r % 2 ^ 64 ≤ zone 64 r ∧ v * r / 2 ^ 64 = k).card = 2 ^ (63 - r.log2) := by
  have hwords : ((Finset.range (2 ^ 64)).filter fun v =>
      v * r % 2 ^ 64 ≤ zone 64 r ∧ v * r / 2 ^ 64 = k) =
        Finset.Ico (k * 2 ^ 64 ⌈/⌉ r) (k * 2 ^ 64 ⌈/⌉ r + 2 ^ (63 - r.log2)) := by
    ext v
    rw [Finset.mem_filter, Finset.mem_range, Finset.mem_Ico, le_zone_iff positive small,
      ← halves_iff positive (shift_bounds positive small).2.le]
    constructor
    · rintro ⟨-, hlower, hupper⟩
      exact ⟨hupper, hlower⟩
    · rintro ⟨hupper, hlower⟩
      have hproduct : v * r < 2 ^ 64 * r := by omega
      exact ⟨Nat.lt_of_mul_lt_mul_right hproduct, hlower, hupper⟩
  rw [hwords, Nat.card_Ico, Nat.add_sub_cancel_left]

/-- As many words end the search as the shifted range is long. -/
theorem card_accepted (positive : 0 < r) (small : r < 2 ^ 64) :
    ((Finset.range (2 ^ 64)).filter fun v => v * r % 2 ^ 64 ≤ zone 64 r).card =
      r * 2 ^ (63 - r.log2) := by
  have hupper : ∀ v ∈ (Finset.range (2 ^ 64)).filter fun v => v * r % 2 ^ 64 ≤ zone 64 r,
      v * r / 2 ^ 64 ∈ Finset.range r := fun v hv =>
    Finset.mem_range.mpr (Nat.div_lt_of_lt_mul
      (Nat.mul_lt_mul_of_pos_right (Finset.mem_range.mp (Finset.mem_filter.mp hv).1) positive))
  rw [Finset.card_eq_sum_card_fiberwise hupper]
  calc ∑ k ∈ Finset.range r, (((Finset.range (2 ^ 64)).filter fun v =>
        v * r % 2 ^ 64 ≤ zone 64 r).filter fun v => v * r / 2 ^ 64 = k).card
      = ∑ k ∈ Finset.range r, 2 ^ (63 - r.log2) := Finset.sum_congr rfl fun k hk => by
        rw [Finset.filter_filter, card_taken positive small (Finset.mem_range.mp hk)]
    _ = r * 2 ^ (63 - r.log2) := by
      rw [Finset.sum_const, Finset.card_range, smul_eq_mul]

/-- Words are counted by the numbers they stand for. -/
theorem ncard_words (P : Nat → Prop) [DecidablePred P] :
    {v : UInt64 | P v.toNat}.ncard = ((Finset.range (2 ^ 64)).filter P).card := by
  have himage : UInt64.toNat '' {v : UInt64 | P v.toNat} =
      ((Finset.range (2 ^ 64)).filter P : Finset Nat) := by
    ext n
    simp only [Set.mem_image, Set.mem_ofPred_eq, Finset.coe_filter, Finset.mem_range]
    constructor
    · rintro ⟨v, hv, rfl⟩
      exact ⟨v.toNat_lt, hv⟩
    · rintro ⟨hn, hp⟩
      have hword : (UInt64.ofNat n).toNat = n := UInt64.toNat_ofNat_of_lt' hn
      exact ⟨UInt64.ofNat n, by rwa [hword], hword⟩
  have hinjective : Function.Injective UInt64.toNat := fun _ _ => UInt64.toNat_inj.mp
  rw [← Set.ncard_coe_finset, ← himage, Set.ncard_image_of_injective _ hinjective]

/-- Each number of the range is taken for equally many words. -/
theorem ncard_taken (ordered : low < high) (least : low ≤ d) (most : d < high) :
    {v : UInt64 | attempt? low high v = some (some d)}.ncard =
      2 ^ (63 - (high.toNat - low.toNat).log2) := by
  have hleast := UInt64.le_iff_toNat_le.mp least
  have hmost := UInt64.lt_iff_toNat_lt.mp most
  have hhigh := high.toNat_lt
  rw [← card_taken (k := d.toNat - low.toNat) (by omega) (by omega) (by omega), ← ncard_words]
  congr 1
  ext v
  rw [Set.mem_ofPred_eq, Set.mem_ofPred_eq, attempt?_eq_some_iff ordered v rfl]
  omega

/-- At least half of all words end the search. -/
theorem half_le_ncard_taken (ordered : low < high) :
    2 ^ 63 ≤ {v : UInt64 | ∃ d, attempt? low high v = some (some d)}.ncard := by
  have hordered := UInt64.lt_iff_toNat_lt.mp ordered
  have hhigh := high.toNat_lt
  have hpositive : 0 < high.toNat - low.toNat := by omega
  have hsmall : high.toNat - low.toNat < 2 ^ 64 := by omega
  have hwords : {v : UInt64 | ∃ d, attempt? low high v = some (some d)}.ncard =
      {v : UInt64 | v.toNat * (high.toNat - low.toNat) % 2 ^ 64 ≤
        zone 64 (high.toNat - low.toNat)}.ncard := by
    congr 1
    ext v
    obtain ⟨answer, hanswer, -⟩ := attempt?_spec ordered v rfl
    have hnone := attempt?_eq_none_iff ordered v rfl
    rw [Set.mem_ofPred_eq, Set.mem_ofPred_eq, ← not_iff_not, ← hnone, hanswer]
    cases answer <;> simp
  rw [hwords, ncard_words fun n => n * (high.toNat - low.toNat) % 2 ^ 64 ≤
    zone 64 (high.toNat - low.toNat), card_accepted hpositive hsmall]
  exact (shift_bounds hpositive hsmall).1

end Count

end Outreach.Generator
