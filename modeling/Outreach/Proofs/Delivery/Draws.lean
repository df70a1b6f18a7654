import Outreach.Proofs.Random.Chance
import Outreach.Proofs.Random.Sampling

/-!
# What can be relied on in draws

A delay that is drawn from a range lies in it, whatever the words of the generator, and is the one
that sampling with words of 64 bits takes. A range that is empty gives its beginning and leaves the
generator alone. A probability of at least one always comes true, one of at most zero never does,
and a larger probability comes true wherever a smaller one does.
-/

namespace Outreach

/-- The delays from one word on and below another. -/
def DelayRange.between (low high : UInt64) : DelayRange where
  minMs := low.toNat
  maxMs := high.toNat

namespace Generator

/-- What a draw from a range comes to that is not empty. -/
structure DrawsWithin (g : Generator) (low high : UInt64) : Prop where
  /-- Whatever the word, nothing leaves the 64 bits, and what is taken lies in the range. -/
  fits (v : UInt64) : ∃ answer, attempt? low high v = some answer ∧ ∀ d ∈ answer, low ≤ d ∧ d < high
  /-- Words that are passed over are never more than the others. -/
  half : 2 ^ 63 ≤ {v : UInt64 | ∃ d, attempt? low high v = some (some d)}.ncard
  /-- The first of the others ends the search. -/
  ends {i : Nat} {d : UInt64} (taken : attempt? low high (g.wordAt i) = some (some d)) :
    ∃ tries ≤ i, ∃ e, Answers g low high tries e
  /-- What the search ends with is the answer. -/
  answer {tries : Nat} {d : UInt64} (found : Answers g low high tries d) :
    low ≤ d ∧ d < high ∧
      (tries < maxDraws → (DelayRange.between low high).draw g = (d.toNat, g.after (tries + 1)))
  /-- There is an answer in the range in any case. -/
  least : low.toNat ≤ ((DelayRange.between low high).draw g).1
  most : ((DelayRange.between low high).draw g).1 < high.toNat

variable {g : Generator} {low high : UInt64}

theorem draw_between (ordered : low < high) (g : Generator) :
    (DelayRange.between low high).draw g =
      (low.toNat + (below 64 (high.toNat - low.toNat) maxDraws g).1,
        (below 64 (high.toNat - low.toNat) maxDraws g).2) := by
  have hwide : ¬ high.toNat ≤ low.toNat := Nat.not_le.mpr (UInt64.lt_iff_toNat_lt.mp ordered)
  exact (if_neg hwide).trans rfl

theorem drawsWithin (g : Generator) (ordered : low < high) : DrawsWithin g low high := by
  have hordered := UInt64.lt_iff_toNat_lt.mp ordered
  have hbelow := below_lt (Nat.sub_pos_of_lt hordered) maxDraws g
  constructor
  case fits =>
    intro v
    obtain ⟨answer, hanswer, -⟩ := attempt?_spec ordered v rfl
    refine ⟨answer, hanswer, fun d hd => ?_⟩
    rw [Option.mem_def] at hd
    exact attempt?_bounds ordered (hanswer.trans (congrArg some hd))
  case half => exact half_le_ncard_taken ordered
  case ends => exact exists_answers ordered
  case answer =>
    intro tries d found
    obtain ⟨hleast, hmost⟩ := attempt?_bounds ordered found.taken
    refine ⟨hleast, hmost, fun henough => ?_⟩
    rw [draw_between ordered, found.below_eq ordered rfl henough,
      Nat.add_sub_cancel' (UInt64.le_iff_toNat_le.mp hleast)]
  case least =>
    rw [draw_between ordered]
    exact Nat.le_add_right _ _
  case most =>
    rw [draw_between ordered]
    omega

end Generator

/-- What is drawn keeps to its range and to its probability, for all words of the generator. -/
theorem draws_keep_their_contracts (g : Generator) :
    (∀ low high : UInt64, low < high → g.DrawsWithin low high) ∧
      (∀ low high : UInt64, high ≤ low → (DelayRange.between low high).draw g = (low.toNat, g)) ∧
      (∀ p : Float, 1.0 ≤ p → (g.chance p).1 = true) ∧
      (∀ p : Float, p ≤ 0.0 ∨ p.isNaN = true → (g.chance p).1 = false) ∧
      ∀ p q : Float, p ≤ q → (g.chance p).1 = true → (g.chance q).1 = true := by
  refine ⟨fun low high ordered => Generator.drawsWithin g ordered, fun low high reversed => ?_,
    fun p high => Generator.chance_of_one_le high g, fun p low => ?_,
    fun p q le met => Generator.chance_mono le met⟩
  · exact if_pos (UInt64.le_iff_toNat_le.mp reversed)
  · rcases low with low | nan
    · exact Generator.chance_of_le_zero low g
    · rw [Generator.chance_of_isNaN nan]

/-- A generator whose first word of 64 bits lies a little above the middle, and the next near
zero. -/
def Generator.middling : Generator where
  stream i := [2, 2147483648, 4].getD i 0
  position := 0

theorem word_above_the_middle_is_passed_over :
    (Generator.Answers .middling 0 9223372036854775809 1 2 ∧
      (DelayRange.between 0 9223372036854775809).draw .middling =
        (2, Generator.middling.after 2)) ∧
      (DelayRange.between 7 7).draw .middling = (7, .middling) ∧
      (Generator.middling.chance 7.5).1 = true ∧
      (Generator.middling.chance (-0.5)).1 = false ∧
      (Generator.middling.chance (0.0 / 0.0)).1 = false ∧
      (Generator.middling.chance 0.5).1 = false ∧
      (Generator.middling.chance 0.75).1 = true ∧ (Generator.middling.chance 0.9).1 = true := by
  obtain ⟨hwithin, hempty, hone, hzero, hmono⟩ := draws_keep_their_contracts .middling
  have hfound : Generator.Answers .middling 0 9223372036854775809 1 2 := by
    refine ⟨fun i hi => ?_, by decide +kernel⟩
    obtain rfl : i = 0 := by omega
    decide +kernel
  have hmet : (Generator.middling.chance 0.75).1 = true := by decide +kernel
  exact ⟨⟨hfound, ((hwithin _ _ (by decide)).answer hfound).2.2 (by decide)⟩,
    hempty 7 7 (by decide), hone 7.5 (by decide +kernel), hzero (-0.5) (.inl (by decide +kernel)),
    hzero (0.0 / 0.0) (.inr (by decide +kernel)), by decide +kernel, hmet,
    hmono 0.75 0.9 (by decide +kernel) hmet⟩

end Outreach
