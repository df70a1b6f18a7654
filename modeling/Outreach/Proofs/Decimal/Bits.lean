import Mathlib
import Outreach.Decimal.Binary64

/-!
# Floats and their bits

A float is told by its bits: a sign, eleven bits of exponent and fifty-two of mantissa. Bits that
spell out a finite magnitude are kept as they are. The largest exponent is left for the infinities
and for what is not a number, and among floats only the latter has no place in the order.
-/

namespace Outreach.Decimal

open Float.Model Float.Model.UnpackedFloat

variable {bits : BitVec Format.binary64.numBits}

theorem exponent_eq_iff {e : BitVec 11} :
    unpackExponent bits = e ↔ bits.toNat / 2 ^ 52 % 2 ^ 11 = e.toNat := by
  rw [← BitVec.toNat_inj]
  simp [unpackExponent, Nat.shiftRight_eq_div_pow]

theorem mantissa_eq_iff {m : BitVec 52} :
    unpackMantissa bits = m ↔ bits.toNat % 2 ^ 52 = m.toNat := by
  rw [← BitVec.toNat_inj]
  simp [unpackMantissa]

theorem packComponents_eq {e : BitVec 11} {m : BitVec 52}
    (exponent : bits.toNat / 2 ^ 52 % 2 ^ 11 = e.toNat)
    (mantissa : bits.toNat % 2 ^ 52 = m.toNat) :
    packComponents Format.binary64 (Sign.ofBitVec (unpackSign bits)) e m = bits := by
  rw [← exponent_eq_iff.mpr exponent, ← mantissa_eq_iff.mpr mantissa]
  exact packComponents_unpackSign_unpackExponent_unpackMantissa bits

theorem pack_subnormal (s : Sign) {m : Nat} (positive : 0 < m) (small : m < 2 ^ 52) :
    UnpackedFloat.pack Format.binary64 (.finite s m (-1074) positive) =
      packComponents Format.binary64 s 0#11 (BitVec.ofNat 52 m) := by
  have hlog : m.log2 < 52 := (Nat.log2_lt (by omega)).mpr small
  have hwidth : Format.binary64.mantissaBits = 53 := rfl
  have hexponent : ¬ 2 ^ Format.binary64.exponentBits ≤ ((-1074 : Int) +
      Format.binary64.exponentBias + Format.binary64.mantissaBitsWithoutImplicit).toNat + 1 := by
    decide
  rw [UnpackedFloat.pack, if_neg hexponent, if_neg (by omega)]

theorem pack_normal (s : Sign) {m e : Nat} (positive : 0 < m) (least : 2 ^ 52 ≤ m)
    (most : m < 2 ^ 53) (below : e < 2047) :
    UnpackedFloat.pack Format.binary64 (.finite s m (e - 1075) positive) =
      packComponents Format.binary64 s (BitVec.ofNat 11 e) (BitVec.ofNat 52 m) := by
  have hlog : m.log2 = 52 := (Nat.log2_eq_iff (by omega)).mpr ⟨least, most⟩
  have hwidth : Format.binary64.mantissaBits = 53 := rfl
  have hbias : ((e : Int) - 1075 + Format.binary64.exponentBias +
      Format.binary64.mantissaBitsWithoutImplicit).toNat = e := by
    have hsum : Format.binary64.exponentBias = 1023 := rfl
    simp only [hsum]
    omega
  have hexponent : ¬ 2 ^ Format.binary64.exponentBits ≤ e + 1 := by
    have htop : 2 ^ Format.binary64.exponentBits = 2048 := rfl
    omega
  rw [UnpackedFloat.pack]
  simp only [hbias, hexponent, hlog, hwidth, if_true, if_false]

/-- Bits of a finite magnitude come out of the number that they spell. -/
theorem pack_unpack (finite : bits.toNat % 2 ^ 63 < infinityBits) :
    UnpackedFloat.pack Format.binary64 (UnpackedFloat.unpack Format.binary64 bits) = bits := by
  have hbound : infinityBits = 2047 * 2 ^ 52 := rfl
  have htop : (-1#11).toNat = 2047 := rfl
  have hnone : (0#11).toNat = 0 := rfl
  have hempty : (0#52).toNat = 0 := rfl
  have hbelow : unpackExponent bits ≠ -1#11 := by
    rw [Ne, exponent_eq_iff]
    omega
  rw [UnpackedFloat.unpack]
  simp only [hbelow, if_false]
  by_cases hsubnormal : unpackExponent bits = 0#11
  · have hexponent := exponent_eq_iff.mp hsubnormal
    rw [if_pos hsubnormal]
    by_cases hzero : unpackMantissa bits = 0#52
    · rw [dif_pos hzero]
      exact packComponents_eq hexponent (mantissa_eq_iff.mp hzero)
    · rw [dif_neg hzero, hsubnormal]
      refine (pack_subnormal _ _ (unpackMantissa bits).isLt).trans (packComponents_eq hexponent ?_)
      rw [BitVec.ofNat_toNat, BitVec.setWidth_eq]
      exact mantissa_eq_iff.mp rfl
  · have hmantissa : (unpackMantissa bits).toNat < 2 ^ 52 := (unpackMantissa bits).isLt
    have hexponent : (unpackExponent bits).toNat < 2047 := by
      have hwidth : (unpackExponent bits).toNat < 2048 := (unpackExponent bits).isLt
      have hne : (unpackExponent bits).toNat ≠ (-1#11).toNat := mt BitVec.toNat_inj.mp hbelow
      omega
    have hvalue : (1#1 ++ unpackMantissa bits).toNat = 2 ^ 52 + (unpackMantissa bits).toNat := by
      rw [BitVec.toNat_append, ← Nat.shiftLeft_add_eq_or_of_lt hmantissa]
      rfl
    rw [if_neg hsubnormal]
    refine (pack_normal _ _ (by omega) (by omega) hexponent).trans (packComponents_eq ?_ ?_)
    · rw [BitVec.ofNat_toNat, BitVec.setWidth_eq]
      exact exponent_eq_iff.mp rfl
    · rw [BitVec.toNat_ofNat, hvalue, mantissa_eq_iff.mp rfl]
      omega

theorem toBits_ofBits {b : UInt64} (finite : b.toNat % 2 ^ 63 < infinityBits) :
    (Float.ofBits b).toBits = b :=
  UInt64.toBitVec_inj.mp (pack_unpack finite)

theorem isNaN_unpack : (UnpackedFloat.unpack Format.binary64 bits).isNaN = true ↔
    unpackExponent bits = -1#11 ∧ unpackMantissa bits ≠ 0#52 := by
  rw [UnpackedFloat.unpack]
  by_cases htop : unpackExponent bits = -1#11
  · by_cases hempty : unpackMantissa bits = 0#52
    · simp [htop, hempty, UnpackedFloat.isNaN]
    · simp [htop, hempty, UnpackedFloat.isNaN]
  · simp only [htop, if_false, false_and, iff_false, Bool.not_eq_true]
    split_ifs <;> rfl

theorem isNaN_iff (x : Float) : x.isNaN = true ↔ infinityBits < magnitudeBits x := by
  have hbound : infinityBits = 2047 * 2 ^ 52 := rfl
  have hmagnitude : magnitudeBits x = x.toBits.toBitVec.toNat % 2 ^ 63 := rfl
  have htop : (-1#11).toNat = 2047 := rfl
  have hempty : (0#52).toNat = 0 := rfl
  change (UnpackedFloat.unpack Format.binary64 x.toBits.toBitVec).isNaN = true ↔ _
  rw [isNaN_unpack, Ne, exponent_eq_iff, mantissa_eq_iff]
  omega

/-- Whatever is a number has a place in the order. -/
theorem rank?_eq_none_iff (x : Float) : rank? x = none ↔ x.isNaN = true := by
  rw [isNaN_iff, rank?]
  simp

end Outreach.Decimal
