import Outreach.Proofs.Decimal
import Outreach.Proofs.Decimal.Bits

/-!
# The order of floats and their place in the order

One float is below another if its value is, and what is not a number is neither below anything nor
above it. The order is found on the parts of a float: its sign, its exponent and its mantissa. For
floats of one sign the exponent comes first and the mantissa after it, and that is the order of the
bits themselves.
-/

namespace Outreach.Decimal

open Float.Model Float.Model.UnpackedFloat

/-- The parts of a float that has a sign and a magnitude. Mantissas are as long as they can be,
unless the exponent is the least. -/
inductive Spells (s : Sign) : UnpackedFloat → Nat → Prop
  | notANumber {m : Nat} (beyond : infinityBits < m) : Spells s .notANumber m
  | infinity : Spells s (.infinity s) infinityBits
  | zero : Spells s (.zero s) 0
  | finite {m k : Nat} {e : Int} {positive : 0 < m} (long : k = 0 ∨ 2 ^ 52 ≤ m) (short : m < 2 ^ 53)
      (exponent : e = k - 1074) (below : k * 2 ^ 52 + m < infinityBits) :
      Spells s (.finite s m e positive) (k * 2 ^ 52 + m)

theorem ofBitVec_unpackSign (bits : BitVec Format.binary64.numBits) :
    Sign.ofBitVec (unpackSign bits) = if 2 ^ 63 ≤ bits.toNat then .negative else .positive := by
  have hwidth : bits.toNat < 2 ^ 64 := bits.isLt
  have hzero : unpackSign bits = 0#1 ↔ bits.toNat < 2 ^ 63 := by
    rw [← BitVec.toNat_inj]
    simp [unpackSign, Nat.shiftRight_eq_div_pow]
    omega
  rw [Sign.ofBitVec]
  by_cases h : bits.toNat < 2 ^ 63
  · rw [if_pos (hzero.mpr h), if_neg (by omega)]
  · rw [if_neg (mt hzero.mp h), if_pos (by omega)]

/-- The bits of a float spell its sign and its magnitude. -/
theorem spells_unpack (x : Float) :
    Spells (if signBit x then .negative else .positive) x.toModel.unpack (magnitudeBits x) := by
  obtain ⟨bits, hbits⟩ : ∃ bits : BitVec Format.binary64.numBits, bits = x.toBits.toBitVec :=
    ⟨_, rfl⟩
  have hsign : (if signBit x then .negative else .positive) = Sign.ofBitVec (unpackSign bits) := by
    have hbit : signBit x = decide (2 ^ 63 ≤ bits.toNat) := by
      rw [hbits]
      rfl
    simp only [ofBitVec_unpackSign, hbit, decide_eq_true_eq]
  have hmagnitude : magnitudeBits x = bits.toNat % 2 ^ 63 := by
    rw [hbits]
    rfl
  have hunpack : x.toModel.unpack = UnpackedFloat.unpack Format.binary64 bits := by
    rw [hbits]
    rfl
  have hbound : infinityBits = 2047 * 2 ^ 52 := rfl
  have htop : (-1#11).toNat = 2047 := rfl
  have hnone : (0#11).toNat = 0 := rfl
  have hempty : (0#52).toNat = 0 := rfl
  have hbias : Format.binary64.exponentBias = 1023 := rfl
  have hmantissa : bits.toNat % 2 ^ 52 = (unpackMantissa bits).toNat := mantissa_eq_iff.mp rfl
  have hexponent : bits.toNat / 2 ^ 52 % 2 ^ 11 = (unpackExponent bits).toNat :=
    exponent_eq_iff.mp rfl
  rw [hsign, hmagnitude, hunpack, UnpackedFloat.unpack]
  by_cases hlast : unpackExponent bits = -1#11
  · simp only [hlast, if_true]
    rw [hlast] at hexponent
    by_cases hfull : unpackMantissa bits = 0#52
    · rw [hfull] at hmantissa
      have hinfinity : bits.toNat % 2 ^ 63 = infinityBits := by omega
      rw [if_pos hfull, hinfinity]
      exact .infinity
    · have hsome : (unpackMantissa bits).toNat ≠ (0#52).toNat := mt BitVec.toNat_inj.mp hfull
      rw [if_neg hfull]
      exact .notANumber (by omega)
  · have hless : (unpackExponent bits).toNat ≠ (-1#11).toNat := mt BitVec.toNat_inj.mp hlast
    simp only [hlast, if_false]
    by_cases hfirst : unpackExponent bits = 0#11
    · simp only [hfirst, if_true]
      rw [hfirst] at hexponent
      by_cases hzero : unpackMantissa bits = 0#52
      · rw [hzero] at hmantissa
        have hmagnitude : bits.toNat % 2 ^ 63 = 0 := by omega
        rw [dif_pos hzero, hmagnitude]
        exact .zero
      · have hmagnitude : bits.toNat % 2 ^ 63 = 0 * 2 ^ 52 + (unpackMantissa bits).toNat := by omega
        rw [dif_neg hzero, hmagnitude]
        exact .finite (.inl rfl) (by omega) (by rw [hbias]; rfl) (by omega)
    · have hsome : (unpackExponent bits).toNat ≠ (0#11).toNat := mt BitVec.toNat_inj.mp hfirst
      have hvalue : (1#1 ++ unpackMantissa bits).toNat = 2 ^ 52 + (unpackMantissa bits).toNat := by
        rw [BitVec.toNat_append, ← Nat.shiftLeft_add_eq_or_of_lt (unpackMantissa bits).isLt]
        rfl
      have hmagnitude : bits.toNat % 2 ^ 63 = ((unpackExponent bits).toNat - 1) * 2 ^ 52 +
          (1#1 ++ unpackMantissa bits).toNat := by omega
      rw [if_neg hfirst, hmagnitude]
      exact .finite (.inr (by omega)) (by omega) (by rw [hbias]; omega) (by omega)

/-! ## Comparing parts -/

theorem compare_parts {k k' m m' : Nat} (long : k = 0 ∨ 2 ^ 52 ≤ m) (short : m < 2 ^ 53)
    (long' : k' = 0 ∨ 2 ^ 52 ≤ m') (short' : m' < 2 ^ 53) :
    (compare ((k : Int) - 1074) (k' - 1074)).then (compare m m') =
      compare (k * 2 ^ 52 + m) (k' * 2 ^ 52 + m') := by
  rcases lt_trichotomy k k' with h | rfl | h
  · have hexponent : compare ((k : Int) - 1074) (k' - 1074) = .lt :=
      compare_lt_iff_lt.mpr (by omega)
    have hall : compare (k * 2 ^ 52 + m) (k' * 2 ^ 52 + m') = .lt :=
      compare_lt_iff_lt.mpr (by omega)
    rw [hexponent, hall]
    rfl
  · have hexponent : compare ((k : Int) - 1074) (k - 1074) = .eq := compare_eq_iff_eq.mpr rfl
    rw [hexponent]
    change compare m m' = _
    rcases lt_trichotomy m m' with h | rfl | h
    · rw [compare_lt_iff_lt.mpr h, compare_lt_iff_lt.mpr (by omega)]
    · rw [compare_eq_iff_eq.mpr rfl, compare_eq_iff_eq.mpr rfl]
    · rw [compare_gt_iff_gt.mpr h, compare_gt_iff_gt.mpr (by omega)]
  · have hexponent : compare ((k : Int) - 1074) (k' - 1074) = .gt :=
      compare_gt_iff_gt.mpr (by omega)
    have hall : compare (k * 2 ^ 52 + m) (k' * 2 ^ 52 + m') = .gt :=
      compare_gt_iff_gt.mpr (by omega)
    rw [hexponent, hall]
    rfl

/-- Finite floats other than zero are ordered by their magnitudes with the signs. -/
theorem le_finite {s s' : Sign} {m m' a b : Nat} {e e' : Int} {positive : 0 < m}
    {positive' : 0 < m'} (parts : (compare e e').then (compare m m') = compare a b) (ha : 0 < a) (hb : 0 < b) :
    (UnpackedFloat.finite s m e positive).le (.finite s' m' e' positive') = true ↔
      s.apply a ≤ s'.apply b := by
  cases s with
  | negative =>
    cases s' with
    | negative =>
      simp only [UnpackedFloat.le, UnpackedFloat.compare, Sign.apply, parts, Option.any_some,
        Ordering.isLE_swap, Nat.isGE_compare]
      omega
    | positive =>
      simp only [UnpackedFloat.le, UnpackedFloat.compare, Sign.apply, Option.any_some,
        Ordering.isLE_lt, true_iff]
      omega
  | positive =>
    cases s' with
    | negative =>
      simp only [UnpackedFloat.le, UnpackedFloat.compare, Sign.apply, Option.any_some,
        Ordering.isLE_gt, Bool.false_eq_true, false_iff]
      omega
    | positive =>
      simp only [UnpackedFloat.le, UnpackedFloat.compare, Sign.apply, parts, Option.any_some,
        Nat.isLE_compare]
      omega

theorem le_notANumber (u : UnpackedFloat) : u.le .notANumber = false := by
  cases u with
  | infinity s => cases s <;> rfl
  | _ => rfl

/-- The order of floats is that of their magnitudes with the signs, as far as they are numbers. -/
theorem le_of_spells {s s' : Sign} {u v : UnpackedFloat} {m n : Nat} (hu : Spells s u m)
    (hv : Spells s' v n) :
    u.le v = true ↔ m ≤ infinityBits ∧ n ≤ infinityBits ∧ s.apply m ≤ s'.apply n := by
  have hpositive : 0 < infinityBits := by decide
  cases hv with
  | notANumber beyond => exact iff_of_false (by simp [le_notANumber]) (by omega)
  | infinity =>
    cases hu with
    | notANumber beyond => exact iff_of_false Bool.false_ne_true (by omega)
    | infinity =>
      cases s <;> cases s' <;> simp [UnpackedFloat.le, UnpackedFloat.compare, Sign.apply, compare]
      omega
    | zero =>
      cases s <;> cases s' <;> simp [UnpackedFloat.le, UnpackedFloat.compare, Sign.apply] <;> omega
    | @finite m k e positive long short exponent below =>
      generalize k * 2 ^ 52 + m = n at *
      cases s <;> cases s' <;> simp [UnpackedFloat.le, UnpackedFloat.compare, Sign.apply] <;> omega
  | zero =>
    cases hu with
    | notANumber beyond => exact iff_of_false Bool.false_ne_true (by omega)
    | infinity =>
      cases s <;> cases s' <;> simp [UnpackedFloat.le, UnpackedFloat.compare, Sign.apply] <;> omega
    | zero =>
      cases s <;> cases s' <;> simp [UnpackedFloat.le, UnpackedFloat.compare, Sign.apply]
    | @finite m k e positive long short exponent below =>
      generalize hn : k * 2 ^ 52 + m = n at *
      cases s <;> cases s' <;> simp [UnpackedFloat.le, UnpackedFloat.compare, Sign.apply] <;> omega
  | @finite m' k' e' positive' long' short' exponent' below' =>
    cases hu with
    | notANumber beyond => exact iff_of_false Bool.false_ne_true (by omega)
    | infinity =>
      generalize k' * 2 ^ 52 + m' = n at *
      cases s <;> cases s' <;> simp [UnpackedFloat.le, UnpackedFloat.compare, Sign.apply] <;> omega
    | zero =>
      generalize hn : k' * 2 ^ 52 + m' = n at *
      cases s <;> cases s' <;> simp [UnpackedFloat.le, UnpackedFloat.compare, Sign.apply] <;> omega
    | @finite m k e positive long short exponent below =>
      have hparts := compare_parts long short long' short'
      rw [← exponent, ← exponent'] at hparts
      rw [le_finite hparts (by omega) (by omega)]
      omega

/-! ## The order of values -/

/-- The value of a number is told by its magnitude with the sign. -/
theorem units?_of_number {x : Float} (number : magnitudeBits x ≤ infinityBits) :
    units? x = some (unitsOfRank ((if signBit x then Sign.negative else .positive).apply
      (magnitudeBits x))) := by
  rw [units?_eq, rank?, if_neg (by omega), Option.map_some]
  cases signBit x <;> rfl

theorem unitsOfRank_le {a b : Int} : unitsOfRank a ≤ unitsOfRank b ↔ a ≤ b := by
  constructor
  · intro h
    by_contra hlt
    have hless := unitsOfRank_lt (Int.not_le.mp hlt)
    omega
  · intro h
    rcases Int.lt_or_eq_of_le h with hlt | rfl
    · exact (unitsOfRank_lt hlt).le
    · exact le_refl _

/-- One float is at most another if both are numbers and their values are in this order. -/
theorem le_iff (x y : Float) :
    x ≤ y ↔ ∃ i j, units? x = some i ∧ units? y = some j ∧ i ≤ j := by
  have hmodel : x ≤ y ↔ x.toModel.unpack.le y.toModel.unpack = true := decide_eq_true_iff
  rw [hmodel, le_of_spells (spells_unpack x) (spells_unpack y)]
  constructor
  · rintro ⟨hx, hy, hle⟩
    exact ⟨_, _, units?_of_number hx, units?_of_number hy, unitsOfRank_le.mpr hle⟩
  · rintro ⟨i, j, hi, hj, hle⟩
    have hnumber : ∀ {z : Float} {k : Int}, units? z = some k → magnitudeBits z ≤ infinityBits := by
      intro z k hk
      by_contra hbeyond
      rw [units?, if_pos (by omega)] at hk
      cases hk
    have hx := hnumber hi
    have hy := hnumber hj
    rw [units?_of_number hx, Option.some.injEq] at hi
    rw [units?_of_number hy, Option.some.injEq] at hj
    rw [← hi, ← hj, unitsOfRank_le] at hle
    exact ⟨hx, hy, hle⟩

theorem units?_eq_none_iff (x : Float) : units? x = none ↔ x.isNaN = true := by
  rw [units?_eq, Option.map_eq_none_iff, rank?_eq_none_iff]

end Outreach.Decimal
