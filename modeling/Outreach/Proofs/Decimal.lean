import Mathlib.Algebra.Group.Nat.Defs
import Mathlib.Order.Monotone.Basic
import Outreach.Decimal.Binary64

/-!
# The order of floats is the order of their values

Every finite float is a whole multiple of the least positive one, and the multiple is its value in
that unit. A longer magnitude stands for a larger value, so two floats compare as their values do.
Infinity comes out as a value above all finite ones, and what is not a number has no value.
-/

namespace Outreach.Decimal

/-- The value of a magnitude in units of the least positive float. -/
def unitsOfBits (m : Nat) : Nat :=
  if m < 2 ^ 52 then m else (m % 2 ^ 52 + 2 ^ 52) * 2 ^ (m / 2 ^ 52 - 1)

theorem unitsOfBits_of_lt {m : Nat} (small : m < 2 ^ 52) : unitsOfBits m = m :=
  if_pos small

theorem unitsOfBits_of_not_lt {m : Nat} (large : ¬ m < 2 ^ 52) :
    unitsOfBits m = (m % 2 ^ 52 + 2 ^ 52) * 2 ^ (m / 2 ^ 52 - 1) :=
  if_neg large

/-- The value of a float in units of the least positive one. -/
def units? (x : Float) : Option Int :=
  let m := magnitudeBits x
  if infinityBits < m then none
  else some (if signBit x then -(unitsOfBits m : Int) else unitsOfBits m)

/-- The value is the one that the sign, the mantissa and the exponent spell out. -/
theorem units?_of_dyadic? {x : Float} {d : Dyadic} (h : dyadic? x = some d) :
    0 ≤ d.exponent + 1074 ∧
      units? x = some (d.signed (d.mantissa * 2 ^ (d.exponent + 1074).toNat)) := by
  have hpow : Nat.pow 2 52 = 2 ^ 52 := rfl
  by_cases hfinite : infinityBits ≤ magnitudeBits x
  · simp [dyadic?, hfinite] at h
  · have hnumber : ¬ infinityBits < magnitudeBits x := by omega
    by_cases hsmall : magnitudeBits x < 2 ^ 52
    · simp only [dyadic?, hfinite, hpow, hsmall, if_true, if_false, Option.some.injEq] at h
      subst h
      simp [units?, hnumber, unitsOfBits_of_lt hsmall, Dyadic.signed]
    · simp only [dyadic?, hfinite, hpow, hsmall, if_false, Option.some.injEq] at h
      subst h
      have hexponent : ((magnitudeBits x / 2 ^ 52 : Nat) : Int) - 1075 + 1074 =
          ((magnitudeBits x / 2 ^ 52 - 1 : Nat) : Int) := by omega
      constructor
      · rw [hexponent]
        omega
      · simp only [hexponent, Int.toNat_natCast]
        simp [units?, hnumber, unitsOfBits_of_not_lt hsmall, Dyadic.signed]

theorem unitsOfBits_lt_succ (m : Nat) : unitsOfBits m < unitsOfBits (m + 1) := by
  by_cases hsmall : m < 2 ^ 52
  · by_cases hnext : m + 1 < 2 ^ 52
    · rw [unitsOfBits_of_lt hsmall, unitsOfBits_of_lt hnext]
      omega
    · have hlast : m + 1 = 2 ^ 52 := by omega
      have hfirst : unitsOfBits (m + 1) = 2 ^ 52 := by
        rw [hlast]
        rfl
      rw [hfirst, unitsOfBits_of_lt hsmall]
      exact hsmall
  · have hnext : ¬ m + 1 < 2 ^ 52 := by omega
    rw [unitsOfBits_of_not_lt hsmall, unitsOfBits_of_not_lt hnext]
    by_cases hlast : m % 2 ^ 52 + 1 = 2 ^ 52
    · -- The mantissa is full, and the exponent goes up by one.
      have hmod : (m + 1) % 2 ^ 52 = 0 := by omega
      have hdiv : (m + 1) / 2 ^ 52 - 1 = (m / 2 ^ 52 - 1) + 1 := by omega
      rw [hmod, hdiv, Nat.pow_succ]
      have hpos : 0 < 2 ^ (m / 2 ^ 52 - 1) := Nat.two_pow_pos _
      have hfull : m % 2 ^ 52 + 2 ^ 52 < 2 ^ 52 * 2 := by omega
      calc (m % 2 ^ 52 + 2 ^ 52) * 2 ^ (m / 2 ^ 52 - 1)
          < (2 ^ 52 * 2) * 2 ^ (m / 2 ^ 52 - 1) := Nat.mul_lt_mul_of_pos_right hfull hpos
        _ = (0 + 2 ^ 52) * (2 ^ (m / 2 ^ 52 - 1) * 2) := by
          rw [Nat.zero_add, Nat.mul_assoc, Nat.mul_comm 2]
    · have hmod : (m + 1) % 2 ^ 52 = m % 2 ^ 52 + 1 := by omega
      have hdiv : (m + 1) / 2 ^ 52 = m / 2 ^ 52 := by omega
      rw [hmod, hdiv]
      have hpos : 0 < 2 ^ (m / 2 ^ 52 - 1) := Nat.two_pow_pos _
      exact Nat.mul_lt_mul_of_pos_right (by omega) hpos

theorem unitsOfBits_strictMono : StrictMono unitsOfBits :=
  strictMono_nat_of_lt_succ unitsOfBits_lt_succ

/-- The value at a position in the order of all floats. -/
def unitsOfRank (z : Int) : Int :=
  if z < 0 then -(unitsOfBits z.natAbs : Int) else unitsOfBits z.natAbs

theorem units?_eq (x : Float) : units? x = (rank? x).map unitsOfRank := by
  by_cases hnan : infinityBits < magnitudeBits x
  · simp [units?, rank?, hnan]
  · by_cases hsign : signBit x = true
    · by_cases hzero : magnitudeBits x = 0
      · simp [units?, rank?, hsign, hzero, unitsOfRank, unitsOfBits]
      · have hneg : -(magnitudeBits x : Int) < 0 := by omega
        rw [units?, rank?, if_neg hnan, if_neg hnan, if_pos hsign, if_pos hsign, Option.map_some,
          unitsOfRank, if_pos hneg, Int.natAbs_neg, Int.natAbs_natCast]
    · have hnonneg : ¬ (magnitudeBits x : Int) < 0 := by omega
      simp [units?, rank?, hnan, hsign, unitsOfRank, hnonneg]

theorem unitsOfRank_lt {a b : Int} (hab : a < b) : unitsOfRank a < unitsOfRank b := by
  have hzero : unitsOfBits 0 = 0 := rfl
  have hmono : ∀ m n, m < n → unitsOfBits m < unitsOfBits n :=
    fun m n hlt => unitsOfBits_strictMono hlt
  simp only [unitsOfRank]
  by_cases hb : b < 0
  · have ha : a < 0 := by omega
    have hlt := hmono b.natAbs a.natAbs (by omega)
    rw [if_pos ha, if_pos hb]
    omega
  · by_cases ha : a < 0
    · have hlt := hmono 0 a.natAbs (by omega)
      rw [if_pos ha, if_neg hb]
      omega
    · have hlt := hmono a.natAbs b.natAbs (by omega)
      rw [if_neg ha, if_neg hb]
      omega

/-- Floats that have values compare as these do. -/
theorem compare?_eq (x y : Float) :
    compare? x y = (units? x).bind fun i => (units? y).map fun j => compare i j := by
  rw [units?_eq, units?_eq, compare?]
  cases rank? x with
  | none => rfl
  | some a =>
    cases rank? y with
    | none => rfl
    | some b =>
      simp only [Option.map_some, Option.bind_some, Option.some.injEq]
      rcases lt_trichotomy a b with h | rfl | h
      · rw [compare_lt_iff_lt.mpr h, compare_lt_iff_lt.mpr (unitsOfRank_lt h)]
      · rw [compare_eq_iff_eq.mpr rfl, compare_eq_iff_eq.mpr rfl]
      · rw [compare_gt_iff_gt.mpr h, compare_gt_iff_gt.mpr (unitsOfRank_lt h)]

end Outreach.Decimal
