import Mathlib.Algebra.Order.Group.Nat
import Mathlib.Data.Int.Order.Basic
import Mathlib.Order.Compare
import Outreach.Time.Instant

/-!
# The order of instants

Instants are ordered by second and part. Two of them need not keep their order when both are moved
on by the same time, since one of them may lie inside a leap second. The instants that lie whole
milliseconds after one and the same instant do keep it: they come in the order of the milliseconds,
and moving on twice is moving on by the sum.
-/

namespace Outreach.Instant

variable {a b c : Instant}

theorem compare_spec (a b : Instant) :
    (a.compare b = .lt ∧ a < b) ∨ (a.compare b = .eq ∧ a = b) ∨ (a.compare b = .gt ∧ b < a) := by
  rcases lt_trichotomy a.seconds b.seconds with h | h | h
  · left
    exact ⟨by rw [compare, compare_lt_iff_lt.mpr h]; rfl, Or.inl h⟩
  · rcases lt_trichotomy a.nanos b.nanos with k | k | k
    · left
      refine ⟨?_, Or.inr ⟨h, k⟩⟩
      rw [compare, compare_eq_iff_eq.mpr h, compare_lt_iff_lt.mpr k]
      rfl
    · right
      left
      refine ⟨?_, ?_⟩
      · rw [compare, compare_eq_iff_eq.mpr h, compare_eq_iff_eq.mpr k]
        rfl
      · cases a
        cases b
        simp_all
    · right
      right
      refine ⟨?_, Or.inr ⟨h.symm, k⟩⟩
      rw [compare, compare_eq_iff_eq.mpr h, compare_gt_iff_gt.mpr k]
      rfl
  · right
    right
    exact ⟨by rw [compare, compare_gt_iff_gt.mpr h]; rfl, Or.inl h⟩

theorem of_lt (h : a < b) : a ≤ b ∧ a ≠ b ∧ ¬ b < a ∧ ¬ b ≤ a := by
  simp only [lt_iff, le_iff] at *
  refine ⟨by omega, ?_, by omega, by omega⟩
  rintro rfl
  omega

theorem not_lt : ¬ a < b ↔ b ≤ a := by
  simp only [lt_iff, le_iff]
  omega

theorem not_le : ¬ a ≤ b ↔ b < a := by
  simp only [lt_iff, le_iff]
  omega

theorem le_antisymm (h : a ≤ b) (k : b ≤ a) : a = b := by
  obtain ⟨seconds, nanos⟩ := a
  obtain ⟨seconds', nanos'⟩ := b
  simp only [le_iff, mk.injEq] at h k ⊢
  omega

/-! ## Whole milliseconds -/

/-- An instant that is moved on inside its leap second stays at that second. -/
theorem addMillis_inside {n : Nat} (leap : nanosPerSecond ≤ a.nanos)
    (inside : a.nanos + n * 1000000 < 2 * nanosPerSecond) :
    a.addMillis n = ⟨a.seconds, a.nanos + n * 1000000⟩ := by
  have hpart : n % 1000 = n := Nat.mod_eq_of_lt (by simp only [nanosPerSecond] at *; omega)
  rw [addMillis, hpart, if_neg (by omega), if_neg (by simp only [nanosPerSecond] at *; omega)]

/-- Any other instant comes to lie in an ordinary second, as far on as it was moved. -/
theorem addMillis_outside {n : Nat}
    (outside : a.nanos < nanosPerSecond ∨ 2 * nanosPerSecond ≤ a.nanos + n * 1000000) :
    (a.addMillis n).nanos < nanosPerSecond ∧
      (a.addMillis n).seconds * nanosPerSecond + (a.addMillis n).nanos =
        a.seconds * nanosPerSecond + (if a.nanos < nanosPerSecond then a.nanos
          else a.nanos - nanosPerSecond : Nat) + n * 1000000 := by
  by_cases plain : a.nanos < nanosPerSecond
  · rw [addMillis, if_pos plain, if_pos plain]
    simp only [nanosPerSecond] at *
    omega
  · have hleaves : 1000 ≤ n ∨ 2 * nanosPerSecond ≤ a.nanos + n % 1000 * 1000000 := by
      simp only [nanosPerSecond] at *
      omega
    rw [addMillis, if_neg plain, if_neg plain, if_pos hleaves]
    simp only [nanosPerSecond] at *
    omega

/-- In ordinary seconds an instant is told by the nanoseconds that have passed. -/
theorem eq_of_plain (ha : a.nanos < nanosPerSecond) (hb : b.nanos < nanosPerSecond)
    (same : a.seconds * nanosPerSecond + a.nanos = b.seconds * nanosPerSecond + b.nanos) :
    a = b := by
  obtain ⟨seconds, nanos⟩ := a
  obtain ⟨seconds', nanos'⟩ := b
  simp only [nanosPerSecond, mk.injEq] at *
  omega

theorem addMillis_addMillis (a : Instant) (m n : Nat) :
    (a.addMillis m).addMillis n = a.addMillis (m + n) := by
  by_cases hall : a.nanos < nanosPerSecond ∨ 2 * nanosPerSecond ≤ a.nanos + (m + n) * 1000000
  · obtain ⟨hplain, htotal⟩ := addMillis_outside hall
    by_cases hfirst : a.nanos < nanosPerSecond ∨ 2 * nanosPerSecond ≤ a.nanos + m * 1000000
    · obtain ⟨hplain', htotal'⟩ := addMillis_outside hfirst
      obtain ⟨hplain'', htotal''⟩ := addMillis_outside (n := n) (Or.inl hplain')
      refine eq_of_plain hplain'' hplain ?_
      rw [if_pos hplain'] at htotal''
      omega
    · have hleap : ¬ a.nanos + m * 1000000 < nanosPerSecond := by omega
      rw [addMillis_inside (n := m) (by omega) (by omega)]
      obtain ⟨hplain', htotal'⟩ := addMillis_outside (n := n)
        (a := ⟨a.seconds, a.nanos + m * 1000000⟩) (Or.inr (by simp only; omega))
      refine eq_of_plain hplain' hplain ?_
      rw [if_neg (by omega)] at htotal htotal'
      simp only at htotal'
      omega
  · rw [addMillis_inside (n := m) (by omega) (by omega), addMillis_inside (n := m + n) (by omega)
      (by omega), addMillis_inside (by simp only; omega) (by simp only; omega)]
    simp only [mk.injEq, true_and]
    omega

theorem addMillis_lt_addMillis {m n : Nat} (h : m < n) : a.addMillis m < a.addMillis n := by
  by_cases hlater : a.nanos < nanosPerSecond ∨ 2 * nanosPerSecond ≤ a.nanos + n * 1000000
  · obtain ⟨hplain, htotal⟩ := addMillis_outside hlater
    by_cases hearlier : a.nanos < nanosPerSecond ∨ 2 * nanosPerSecond ≤ a.nanos + m * 1000000
    · obtain ⟨hplain', htotal'⟩ := addMillis_outside hearlier
      simp only [lt_iff, nanosPerSecond] at *
      omega
    · rw [addMillis_inside (n := m) (by omega) (by omega)]
      rw [if_neg (by omega)] at htotal
      simp only [lt_iff, nanosPerSecond] at *
      omega
  · rw [addMillis_inside (n := m) (by omega) (by omega), addMillis_inside (n := n) (by omega)
      (by omega)]
    exact Or.inr ⟨rfl, by simp only; omega⟩

theorem addMillis_le_addMillis_iff {m n : Nat} : a.addMillis m ≤ a.addMillis n ↔ m ≤ n := by
  constructor
  · intro h
    by_contra hlt
    exact (of_lt (addMillis_lt_addMillis (a := a) (Nat.lt_of_not_le hlt))).2.2.2 h
  · intro h
    rcases Nat.lt_or_eq_of_le h with hlt | rfl
    · exact (of_lt (addMillis_lt_addMillis hlt)).1
    · exact le_refl _

/-- The later instant is the earlier one or lies whole milliseconds after it. -/
def Reaches (a b : Instant) : Prop :=
  b = a ∨ ∃ ms, b = a.addMillis ms

theorem Reaches.refl (a : Instant) : a.Reaches a := Or.inl rfl

theorem reaches_addMillis (a : Instant) (ms : Nat) : a.Reaches (a.addMillis ms) := Or.inr ⟨ms, rfl⟩

theorem Reaches.le (h : a.Reaches b) : a ≤ b := by
  rcases h with rfl | ⟨ms, rfl⟩
  · exact le_refl _
  · exact le_addMillis a ms

theorem Reaches.trans (h : a.Reaches b) (k : b.Reaches c) : a.Reaches c := by
  rcases h with rfl | ⟨m, rfl⟩
  · exact k
  · rcases k with rfl | ⟨n, rfl⟩
    · exact Or.inr ⟨m, rfl⟩
    · exact Or.inr ⟨m + n, addMillis_addMillis a m n⟩

/-- Of two instants in a row with an earlier one, the first reaches the second. -/
theorem Reaches.of_le (ha : c.Reaches a) (hb : c.Reaches b) (h : a ≤ b) : a.Reaches b := by
  rcases ha with rfl | ⟨m, rfl⟩
  · exact hb
  · rcases hb with rfl | ⟨n, rfl⟩
    · exact Or.inl (le_antisymm (le_addMillis b m) h)
    · have hle := addMillis_le_addMillis_iff.mp h
      right
      refine ⟨n - m, ?_⟩
      rw [addMillis_addMillis, Nat.add_sub_cancel' hle]

/-- What is added to an earlier instant is not later than as much and more added to
the later one. -/
theorem Reaches.addMillis_le (h : a.Reaches b) {m n : Nat} (hle : m ≤ n) :
    a.addMillis m ≤ b.addMillis n := by
  rcases h with rfl | ⟨k, rfl⟩
  · exact addMillis_le_addMillis_iff.mpr hle
  · rw [addMillis_addMillis]
    exact addMillis_le_addMillis_iff.mpr (by omega)

end Outreach.Instant
