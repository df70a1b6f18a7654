import Outreach.Proofs.Decimal.Order
import Outreach.Proofs.Delivery.Delays

/-!
# When a chance comes true

A chance comes true if the probability is at least the part of all draws that the number drawn makes
up with those below it. The probability enters by its value alone, so a larger one comes true
wherever a smaller one does.
-/

namespace Outreach

theorem Decimal.Dyadic.le_wholePart_iff (d : Dyadic) {n : Nat} (reach : 0 ≤ d.exponent + n)
    (w : Nat) : w ≤ d.wholePart ↔ w * 2 ^ n ≤ d.mantissa * 2 ^ (d.exponent + n).toNat := by
  have hscale : ∀ a b k : Nat, a ≤ b ↔ a * 2 ^ k ≤ b * 2 ^ k := fun a b k =>
    (Nat.mul_le_mul_right_iff (Nat.two_pow_pos k)).symm
  obtain ⟨negative, m, e⟩ := d
  cases e with
  | ofNat e =>
    have hsum : (Int.ofNat e + n).toNat = e + n := by
      simp only [Int.ofNat_eq_natCast]
      omega
    simp only [wholePart, hsum]
    rw [hscale w _ n, Nat.pow_add, ← Nat.mul_assoc]
    rfl
  | negSucc e =>
    obtain ⟨k, rfl⟩ : ∃ k, n = k + (e + 1) := ⟨n - (e + 1), by simp only at reach; omega⟩
    have hsum : (Int.negSucc e + ((k + (e + 1) : Nat) : Int)).toNat = k := by omega
    simp only [wholePart, hsum]
    change w ≤ m / 2 ^ (e + 1) ↔ _
    rw [Nat.le_div_iff_mul_le (Nat.two_pow_pos _), hscale _ m k, Nat.mul_assoc, ← Nat.pow_add,
      Nat.add_comm (e + 1)]

namespace Generator

open Decimal

/-- The probability of a single draw of 64 bits is this power of two, in units of the least positive
float. -/
@[irreducible]
def gap : Nat :=
  1010

theorem units?_one : units? 1.0 = some ((2 ^ 64 * 2 ^ gap : Nat) : Int) := by
  decide +kernel

theorem units?_zero : units? 0.0 = some 0 := by
  decide +kernel

/-- No number that is drawn goes beyond a probability of one. -/
theorem drawn_le_one (g : Generator) : (g.long.1 + 1) * 2 ^ gap ≤ 2 ^ 64 * 2 ^ gap :=
  Nat.mul_le_mul_right _ g.long_lt

variable {p q : Float}

theorem lt_hits_iff {u : Int} (value : units? p = some u) (small : u < (2 ^ 64 * 2 ^ gap : Nat))
    (v : Nat) : v < hits p ↔ (((v + 1) * 2 ^ gap : Nat) : Int) ≤ u := by
  have hpositive : 0 < (v + 1) * 2 ^ gap := Nat.mul_pos (Nat.succ_pos v) (Nat.two_pow_pos gap)
  cases hd : dyadic? p with
  | none =>
    -- Of what is no finite number only minus infinity has a value below one.
    have hlarge : infinityBits ≤ magnitudeBits p := by
      by_contra hfinite
      rw [dyadic?, if_neg hfinite] at hd
      split at hd <;> cases hd
    have hbits : 2 ^ 64 * 2 ^ gap ≤ unitsOfBits (magnitudeBits p) := by
      have hleast : 2 ^ 64 * 2 ^ gap ≤ unitsOfBits infinityBits := by decide +kernel
      exact hleast.trans (unitsOfBits_strictMono.monotone hlarge)
    have hnegative : u ≤ 0 := by
      rw [units?] at value
      split at value
      · cases value
      · rw [Option.some.injEq] at value
        split at value <;> omega
    have hnone : hits p = 0 := by rw [hits, hd]
    rw [hnone]
    omega
  | some d =>
    obtain ⟨hexponent, hvalue⟩ := units?_of_dyadic? hd
    rw [value, Option.some.injEq] at hvalue
    cases hsign : d.negative with
    | true =>
      have hnone : hits p = 0 := by simp [hits, hd, hsign]
      rw [Dyadic.signed, if_pos hsign] at hvalue
      rw [hnone]
      omega
    | false =>
      have hwhole : hits p = Dyadic.wholePart { d with exponent := d.exponent + 64 } := by
        simp [hits, hd, hsign]
      have hsum : d.exponent + 64 + gap = d.exponent + 1074 := by
        rw [gap]
        omega
      have hreach : 0 ≤ d.exponent + 64 + gap := by omega
      rw [Dyadic.signed, if_neg (by simp [hsign])] at hvalue
      rw [hwhole, hvalue, ← Nat.succ_le_iff,
        Dyadic.le_wholePart_iff { d with exponent := d.exponent + 64 } hreach]
      simp only [hsum]
      exact Int.ofNat_le.symm

/-- A chance comes true if the number drawn lies below the scaled value of the probability. -/
theorem chance_iff (p : Float) (g : Generator) :
    (g.chance p).1 = true ↔
      ∃ u, units? p = some u ∧ (((g.long.1 + 1) * 2 ^ gap : Nat) : Int) ≤ u := by
  rw [chance, compare?_eq, units?_one]
  cases hu : units? p with
  | none =>
    refine iff_of_false Bool.false_ne_true ?_
    rintro ⟨u, hvalue, -⟩
    cases hvalue
  | some u =>
    simp only [Option.bind_some, Option.map_some, Option.some.injEq, exists_eq_left']
    have hdrawn := Int.ofNat_le.mpr g.drawn_le_one
    rcases lt_trichotomy u (2 ^ 64 * 2 ^ gap : Nat) with h | h | h
    · rw [compare_lt_iff_lt.mpr h]
      exact decide_eq_true_iff.trans (lt_hits_iff hu h g.long.1)
    · rw [compare_eq_iff_eq.mpr h, h]
      exact iff_of_true rfl hdrawn
    · rw [compare_gt_iff_gt.mpr h]
      exact iff_of_true rfl (hdrawn.trans h.le)

theorem chance_of_one_le (high : 1.0 ≤ p) (g : Generator) : (g.chance p).1 = true := by
  obtain ⟨i, j, hi, hj, hle⟩ := (le_iff 1.0 p).mp high
  obtain rfl : ((2 ^ 64 * 2 ^ gap : Nat) : Int) = i := Option.some.inj (units?_one.symm.trans hi)
  exact (chance_iff p g).mpr ⟨j, hj, (Int.ofNat_le.mpr g.drawn_le_one).trans hle⟩

theorem chance_of_le_zero (low : p ≤ 0.0) (g : Generator) : (g.chance p).1 = false := by
  obtain ⟨i, j, hi, hj, hle⟩ := (le_iff p 0.0).mp low
  obtain rfl : (0 : Int) = j := Option.some.inj (units?_zero.symm.trans hj)
  have hpositive : 0 < (g.long.1 + 1) * 2 ^ gap :=
    Nat.mul_pos (Nat.succ_pos _) (Nat.two_pow_pos gap)
  refine Bool.eq_false_iff.mpr fun htrue => ?_
  obtain ⟨u, hu, hdrawn⟩ := (chance_iff p g).mp htrue
  obtain rfl : i = u := Option.some.inj (hi.symm.trans hu)
  omega

theorem chance_of_isNaN (nan : p.isNaN = true) (g : Generator) : g.chance p = (false, g) := by
  have hvalue : units? p = none := (units?_eq_none_iff p).mpr nan
  simp only [chance, compare?_eq, hvalue, Option.bind_none]

/-- What comes true with a probability comes true with every larger one. -/
theorem chance_mono (le : p ≤ q) {g : Generator} (met : (g.chance p).1 = true) :
    (g.chance q).1 = true := by
  obtain ⟨i, j, hi, hj, hle⟩ := (le_iff p q).mp le
  obtain ⟨u, hu, hdrawn⟩ := (chance_iff p g).mp met
  obtain rfl : i = u := Option.some.inj (hi.symm.trans hu)
  exact (chance_iff q g).mpr ⟨j, hj, hdrawn.trans hle⟩

end Generator

end Outreach
