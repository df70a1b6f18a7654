import Outreach.Proofs.Decimal
import Outreach.Proofs.Decimal.Bits

/-!
# Integers as floats

An integer becomes the float that is nearest to it, a tie going to the even mantissa. Floats hold
the integers with fifty-three binary digits, zeros at the end apart. Those come out as they are, and
any other comes out as one of its two neighbours among them. The order is kept, though
integers with the same neighbour become one.
-/

namespace Outreach.Decimal

/-! ## Rounding a quotient -/

variable {n d : Nat}

/-- A quotient is rounded by half a unit at most. -/
theorem divideToEven_error (positive : 0 < d) :
    2 * ((divideToEven n d * d : Nat) - n : Int).natAbs ≤ d := by
  have hdivided := Nat.div_add_mod n d
  have hrest := Nat.mod_lt n positive
  have hup : (n / d + 1) * d = d * (n / d) + d := by rw [Nat.succ_mul, Nat.mul_comm]
  have hdown : n / d * d = d * (n / d) := Nat.mul_comm _ _
  simp only [divideToEven]
  split_ifs
  · omega
  · omega
  · omega
  · omega

/-- No multiple of the divisor is nearer. -/
theorem divideToEven_nearest (positive : 0 < d) (k : Nat) :
    ((divideToEven n d * d : Nat) - n : Int).natAbs ≤ ((k * d : Nat) - n : Int).natAbs := by
  have herror := divideToEven_error (n := n) positive
  rcases lt_trichotomy k (divideToEven n d) with h | rfl | h
  · have hapart := Nat.mul_le_mul_right d h
    rw [Nat.succ_mul] at hapart
    omega
  · exact le_rfl
  · have hapart := Nat.mul_le_mul_right d h
    rw [Nat.succ_mul] at hapart
    omega

theorem divideToEven_mul_right {c : Nat} (positive : 0 < c) :
    divideToEven (n * c) (d * c) = divideToEven n d := by
  have hrest : 2 * (n * c % (d * c)) = 2 * (n % d) * c := by
    rw [Nat.mul_mod_mul_right, Nat.mul_assoc]
  simp only [divideToEven, hrest, Nat.mul_div_mul_right _ _ positive, Nat.mul_lt_mul_right positive]

theorem divideToEven_one (n : Nat) : divideToEven n 1 = n := by
  simp [divideToEven, Nat.mod_one]

/-! ## The nearest float -/

/-- The step from one float to the next around a natural number, at least one. -/
def spacing (n : Nat) : Nat :=
  2 ^ (n.log2 - 52)

def nearestNat (n : Nat) : Nat :=
  divideToEven n (spacing n) * spacing n

/-- The integer that the float nearest to an integer stands for. -/
def nearest (z : Int) : Int :=
  if z < 0 then -(nearestNat z.natAbs : Int) else nearestNat z.natAbs

/-- A float can stand for the integer: it has no more than fifty-three binary digits, zeros at the
end apart. -/
def Exact (z : Int) : Prop :=
  ∃ (m : Int) (e : Nat), m.natAbs ≤ 2 ^ 53 ∧ z = m * 2 ^ e

theorem spacing_pos (n : Nat) : 0 < spacing n :=
  Nat.two_pow_pos _

theorem spacing_of_small (small : n < 2 ^ 53) : spacing n = 1 := by
  by_cases hzero : n = 0
  · subst hzero
    rfl
  · have hlog : n.log2 < 53 := (Nat.log2_lt hzero).mpr small
    rw [spacing, show n.log2 - 52 = 0 by omega, Nat.pow_zero]

theorem nearestNat_of_small (small : n < 2 ^ 53) : nearestNat n = n := by
  rw [nearestNat, spacing_of_small small, divideToEven_one, Nat.mul_one]

/-- Above the small numbers there are fifty-two binary digits and more of units. -/
theorem spacing_bounds (large : 2 ^ 52 ≤ n) : 2 ^ 52 * spacing n ≤ n ∧ n < 2 ^ 53 * spacing n := by
  have hzero : n ≠ 0 := by omega
  have hlog : 52 ≤ n.log2 := (Nat.le_log2 hzero).mpr large
  have hlow := Nat.log2_self_le hzero
  have hhigh := Nat.lt_log2_self (n := n)
  rw [spacing, ← Nat.pow_add, ← Nat.pow_add]
  rw [show 52 + (n.log2 - 52) = n.log2 by omega, show 53 + (n.log2 - 52) = n.log2 + 1 by omega]
  exact ⟨hlow, hhigh⟩

theorem mantissa_bounds (large : 2 ^ 52 ≤ n) :
    2 ^ 52 ≤ divideToEven n (spacing n) ∧ divideToEven n (spacing n) ≤ 2 ^ 53 := by
  have hpositive := spacing_pos n
  have herror := divideToEven_error (n := n) hpositive
  obtain ⟨hlow, hhigh⟩ := spacing_bounds large
  constructor
  · by_contra hless
    have hbelow := Nat.mul_le_mul_right (spacing n) (Nat.lt_of_not_le hless)
    rw [Nat.succ_mul] at hbelow
    omega
  · by_contra hmore
    have habove := Nat.mul_le_mul_right (spacing n) (Nat.lt_of_not_le hmore)
    rw [Nat.succ_mul] at habove
    omega

theorem exact_of_small {z : Int} (small : z.natAbs ≤ 2 ^ 53) : Exact z :=
  ⟨z, 0, small, by simp⟩

theorem Exact.natAbs {z : Int} (h : Exact z) : Exact z.natAbs := by
  obtain ⟨m, e, hm, rfl⟩ := h
  refine ⟨m.natAbs, e, hm, ?_⟩
  rw [Int.natAbs_mul, Int.natAbs_pow]
  simp

theorem Exact.neg {z : Int} (h : Exact z) : Exact (-z) := by
  obtain ⟨m, e, hm, rfl⟩ := h
  exact ⟨-m, e, by rwa [Int.natAbs_neg], (Int.neg_mul _ _).symm⟩

theorem exact_nearestNat (n : Nat) : Exact (nearestNat n) := by
  by_cases large : 2 ^ 52 ≤ n
  · refine ⟨divideToEven n (spacing n), n.log2 - 52, ?_, ?_⟩
    · rw [Int.natAbs_natCast]
      exact (mantissa_bounds large).2
    · rw [nearestNat, spacing]
      push_cast
      rfl
  · rw [nearestNat_of_small (by omega)]
    exact exact_of_small (by omega)

theorem exact_nearest (z : Int) : Exact (nearest z) := by
  rw [nearest]
  split
  · exact (exact_nearestNat _).neg
  · exact exact_nearestNat _

/-- What a float can stand for is counted in the units around a number, or lies below all numbers
with these units. -/
theorem Exact.dvd_or_le {y : Nat} (h : Exact y) (n : Nat) :
    spacing n ∣ y ∨ y ≤ 2 ^ 52 * spacing n := by
  obtain ⟨m, e, hm, hvalue⟩ := h
  have hy : y = m.natAbs * 2 ^ e := by
    have habs := congrArg Int.natAbs hvalue
    rwa [Int.natAbs_natCast, Int.natAbs_mul, Int.natAbs_pow] at habs
  rw [spacing, hy]
  rcases Nat.lt_or_ge e (n.log2 - 52) with h | h
  · right
    calc m.natAbs * 2 ^ e ≤ 2 ^ 53 * 2 ^ e := Nat.mul_le_mul_right _ hm
      _ = 2 ^ 52 * 2 ^ (e + 1) := by rw [← Nat.pow_add, ← Nat.pow_add]; congr 1; omega
      _ ≤ 2 ^ 52 * 2 ^ (n.log2 - 52) :=
        Nat.mul_le_mul_left _ (Nat.pow_le_pow_right (by decide) h)
  · exact Or.inl ((Nat.pow_dvd_pow 2 h).mul_left _)

/-- No integer that a float can stand for is nearer. -/
theorem nearestNat_nearest {y : Nat} (held : Exact y) (n : Nat) :
    ((nearestNat n : Int) - n).natAbs ≤ ((y : Int) - n).natAbs := by
  by_cases large : 2 ^ 52 ≤ n
  · have hmultiple := divideToEven_nearest (n := n) (spacing_pos n)
    rcases held.dvd_or_le n with ⟨k, rfl⟩ | hsmall
    · rw [Nat.mul_comm]
      exact hmultiple k
    · -- The least number with these units lies between the two.
      have hleast := hmultiple (2 ^ 52)
      have hlow := (spacing_bounds large).1
      rw [nearestNat]
      omega
  · rw [nearestNat_of_small (by omega)]
    omega

theorem nearest_nearest {y : Int} (held : Exact y) (z : Int) :
    (nearest z - z).natAbs ≤ (y - z).natAbs := by
  have habs := nearestNat_nearest held.natAbs z.natAbs
  rw [nearest]
  split
  · omega
  · omega

theorem nearest_of_exact {z : Int} (h : Exact z) : nearest z = z := by
  have hself := nearest_nearest h z
  omega

theorem nearest_mono : Monotone nearest := by
  intro a b hab
  have ha := nearest_nearest (exact_nearest b) a
  have hb := nearest_nearest (exact_nearest a) b
  rcases hab.lt_or_eq with h | rfl
  · omega
  · exact le_rfl

/-! ## The bits of an integer -/

theorem unitsOfBits_eq {e m : Nat} (least : 2 ^ 52 ≤ m) (most : m ≤ 2 ^ 53) :
    unitsOfBits (e * 2 ^ 52 + m) = m * 2 ^ e := by
  have hlarge : ¬ e * 2 ^ 52 + m < 2 ^ 52 := by omega
  rw [unitsOfBits_of_not_lt hlarge]
  rcases most.lt_or_eq with h | rfl
  · have hrest : (e * 2 ^ 52 + m) % 2 ^ 52 + 2 ^ 52 = m := by omega
    have hexponent : (e * 2 ^ 52 + m) / 2 ^ 52 - 1 = e := by omega
    rw [hrest, hexponent]
  · -- Rounding up has filled the mantissa, and the exponent is one more.
    have hrest : (e * 2 ^ 52 + 2 ^ 53) % 2 ^ 52 + 2 ^ 52 = 2 ^ 52 := by omega
    have hexponent : (e * 2 ^ 52 + 2 ^ 53) / 2 ^ 52 - 1 = e + 1 := by omega
    rw [hrest, hexponent, ← Nat.pow_add, ← Nat.pow_add, show 52 + (e + 1) = 53 + e by omega]

theorem mantissa_of_large (large : 2 ^ 52 ≤ n) :
    divideToEven (n * 2 ^ 52) (2 ^ n.log2) = divideToEven n (spacing n) := by
  have hlog : 52 ≤ n.log2 := (Nat.le_log2 (by omega)).mpr large
  have hpow : 2 ^ n.log2 = spacing n * 2 ^ 52 := by
    rw [spacing, ← Nat.pow_add]
    congr 1
    omega
  rw [hpow]
  exact divideToEven_mul_right (Nat.two_pow_pos 52)

theorem mantissa_of_small (small : n.log2 ≤ 52) :
    divideToEven (n * 2 ^ 52) (2 ^ n.log2) = n * 2 ^ (52 - n.log2) := by
  have hpow : n * 2 ^ 52 = n * 2 ^ (52 - n.log2) * 2 ^ n.log2 := by
    rw [Nat.mul_assoc, ← Nat.pow_add]
    congr 2
    omega
  have hone := divideToEven_mul_right (n := n * 2 ^ (52 - n.log2)) (d := 1)
    (Nat.two_pow_pos n.log2)
  rwa [Nat.one_mul, divideToEven_one, ← hpow] at hone

/-- The mantissa of a natural number, with fifty-three binary digits before rounding. -/
theorem mantissa_spec (nonzero : n ≠ 0) :
    let m := divideToEven (n * 2 ^ 52) (2 ^ n.log2)
    2 ^ 52 ≤ m ∧ m ≤ 2 ^ 53 ∧ m * 2 ^ (n.log2 + 1022) = nearestNat n * 2 ^ 1074 := by
  intro m
  by_cases large : 2 ^ 52 ≤ n
  · have hlog : 52 ≤ n.log2 := (Nat.le_log2 nonzero).mpr large
    have hm : m = divideToEven n (spacing n) := mantissa_of_large large
    rw [hm]
    refine ⟨(mantissa_bounds large).1, (mantissa_bounds large).2, ?_⟩
    rw [nearestNat, spacing, Nat.mul_assoc, ← Nat.pow_add,
      show n.log2 - 52 + 1074 = n.log2 + 1022 by omega]
  · have hlow := Nat.log2_self_le nonzero
    have hhigh := Nat.lt_log2_self (n := n)
    have hlog : n.log2 < 52 := (Nat.log2_lt nonzero).mpr (by omega)
    have hm : m = n * 2 ^ (52 - n.log2) := mantissa_of_small hlog.le
    have hfirst : 2 ^ n.log2 * 2 ^ (52 - n.log2) = 2 ^ 52 := by
      rw [← Nat.pow_add]
      congr 1
      omega
    rw [hm, nearestNat_of_small (by omega)]
    refine ⟨?_, ?_, ?_⟩
    · rw [← hfirst]
      exact Nat.mul_le_mul_right _ hlow
    · calc n * 2 ^ (52 - n.log2) ≤ 2 ^ (n.log2 + 1) * 2 ^ (52 - n.log2) :=
          Nat.mul_le_mul_right _ hhigh.le
        _ = 2 ^ 53 := by
          rw [Nat.pow_succ, Nat.mul_right_comm, hfirst]
          rfl
    · rw [Nat.mul_assoc, ← pow_add, show 52 - n.log2 + (n.log2 + 1022) = 1074 by omega]

theorem unitsOfBits_bitsOfNat (n : Nat) : unitsOfBits (bitsOfNat n) = nearestNat n * 2 ^ 1074 := by
  by_cases nonzero : n = 0
  · subst nonzero
    rw [nearestNat_of_small (by decide), Nat.zero_mul]
    rfl
  · obtain ⟨least, most, hvalue⟩ := mantissa_spec nonzero
    rw [← hvalue, ← unitsOfBits_eq least most, bitsOfNat, if_neg nonzero]
    rfl

theorem bitsOfNat_lt (bound : n.log2 < 1023) : bitsOfNat n < infinityBits := by
  by_cases nonzero : n = 0
  · subst nonzero
    decide
  · obtain ⟨-, most, -⟩ := mantissa_spec nonzero
    have hpow : ∀ k, Nat.pow 2 k = 2 ^ k := fun _ => rfl
    rw [bitsOfNat, if_neg nonzero]
    simp only [hpow, infinityBits]
    omega

theorem toBits_ofInt {z : Int} (bound : z.natAbs.log2 < 1023) :
    (ofInt z).toBits.toNat = (if z < 0 then 2 ^ 63 else 0) + bitsOfNat z.natAbs := by
  have hbits := bitsOfNat_lt bound
  have hinfinity : infinityBits = 2047 * 2 ^ 52 := rfl
  let bits := (if z < 0 then 2 ^ 63 else 0) + bitsOfNat z.natAbs
  have hword : (UInt64.ofNat bits).toNat = bits := by
    rw [UInt64.toNat_ofNat']
    apply Nat.mod_eq_of_lt
    simp only [bits]
    split <;> omega
  have hfinite : (UInt64.ofNat bits).toNat % 2 ^ 63 < infinityBits := by
    rw [hword]
    simp only [bits]
    split <;> omega
  exact (congrArg UInt64.toNat (toBits_ofBits hfinite)).trans hword

theorem magnitudeBits_ofInt {z : Int} (bound : z.natAbs.log2 < 1023) :
    magnitudeBits (ofInt z) = bitsOfNat z.natAbs := by
  have hbits := bitsOfNat_lt bound
  have hinfinity : infinityBits = 2047 * 2 ^ 52 := rfl
  change (ofInt z).toBits.toNat % 2 ^ 63 = _
  rw [toBits_ofInt bound]
  split <;> omega

theorem signBit_ofInt {z : Int} (bound : z.natAbs.log2 < 1023) :
    signBit (ofInt z) = decide (z < 0) := by
  have hbits := bitsOfNat_lt bound
  have hinfinity : infinityBits = 2047 * 2 ^ 52 := rfl
  change decide (2 ^ 63 ≤ (ofInt z).toBits.toNat) = _
  rw [toBits_ofInt bound, decide_eq_decide]
  split <;> omega

/-- The float of an integer stands for the nearest integer that a float can stand for. -/
theorem units?_ofInt {z : Int} (bound : z.natAbs.log2 < 1023) :
    units? (ofInt z) = some (nearest z * 2 ^ 1074) := by
  have hbits := bitsOfNat_lt bound
  have hcast : ((nearestNat z.natAbs * 2 ^ 1074 : Nat) : Int) = nearestNat z.natAbs * 2 ^ 1074 := by
    rw [Nat.cast_mul, Nat.cast_pow, Nat.cast_ofNat]
  rw [units?, magnitudeBits_ofInt bound, signBit_ofInt bound]
  simp only [decide_eq_true_eq, unitsOfBits_bitsOfNat, nearest, hbits.not_gt, if_false, hcast]
  split
  · rw [Int.neg_mul]
  · rfl

theorem compare_mul_right {u : Int} (positive : 0 < u) (x y : Int) :
    compare (x * u) (y * u) = compare x y := by
  rcases lt_trichotomy x y with h | rfl | h
  · rw [compare_lt_iff_lt.mpr h, compare_lt_iff_lt.mpr (Int.mul_lt_mul_of_pos_right h positive)]
  · rw [compare_eq_iff_eq.mpr rfl, compare_eq_iff_eq.mpr rfl]
  · rw [compare_gt_iff_gt.mpr h, compare_gt_iff_gt.mpr (Int.mul_lt_mul_of_pos_right h positive)]

/-- Floats of integers compare as the nearest integers that floats can stand for. -/
theorem compare?_ofInt {a b : Int} (ha : a.natAbs.log2 < 1023) (hb : b.natAbs.log2 < 1023) :
    compare? (ofInt a) (ofInt b) = some (compare (nearest a) (nearest b)) := by
  rw [compare?_eq, units?_ofInt ha, units?_ofInt hb, Option.bind_some, Option.map_some,
    compare_mul_right (by positivity)]

end Outreach.Decimal
