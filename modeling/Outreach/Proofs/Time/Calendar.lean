import Mathlib.Data.Int.Order.Basic
import Outreach.Time.Calendar

/-!
# Days and their dates

A cycle of 400 years that begin in March has four centuries. A century has 25 groups of four years,
and a group has four years of 365 days. The one day that is left over ends the last year of a group,
except in the last group of a century, and it ends the last century. The conversion of a day finds
these parts of it, so the date that it gives exists and stands for that day.
-/

namespace Outreach.Time

/-- A day of a cycle comes after some centuries, groups and years of it and days of its year. -/
structure InCycle (day century group year rest : Nat) : Prop where
  century_lt : century < 4
  group_lt : group < 25
  year_lt : year < 4
  sum : day = 36524 * century + 1461 * group + 365 * year + rest
  rest_lt : rest < 365 ∨ rest = 365 ∧ year = 3 ∧ (group < 24 ∨ century = 3)

theorem exists_inCycle {day : Nat} (h : day < 146097) :
    ∃ century group year rest, InCycle day century group year rest := by
  let century := min 3 (day / 36524)
  let inCentury := day - 36524 * century
  let year := min 3 (inCentury % 1461 / 365)
  refine ⟨century, inCentury / 1461, year, inCentury % 1461 - 365 * year, ?_⟩
  constructor <;> omega

variable {day century group year rest : Nat}

/-- The divisors stand for the lengths of the parts without the days left over. Each left-over
day that has passed is taken off, so that 365 divides evenly. -/
theorem InCycle.year_eq (h : InCycle day century group year rest) :
    (day - day / 1460 + day / 36524 - day / 146096) / 365 = 100 * century + 4 * group + year := by
  obtain ⟨hcentury, hgroup, hyear, hsum, hrest⟩ := h
  have hgroups : day / 1460 = 25 * century + group +
      (24 * century + group + 365 * year + rest) / 1460 := by
    omega
  have hcarry : (24 * century + group + 365 * year + rest) / 1460 ≤ 1 := by
    omega
  by_cases hlast : day = 146096
  · have hcenturies : day / 36524 = 4 := by omega
    have hcycles : day / 146096 = 1 := by omega
    rw [hgroups, hcenturies, hcycles]
    omega
  · have hcenturies : day / 36524 = century := by omega
    have hcycles : day / 146096 = 0 := by omega
    rw [hgroups, hcenturies, hcycles]
    omega

/-- The date of a day in terms of the parts of the day. -/
theorem InCycle.ofDays_eq {n : Int}
    (h : InCycle ((n + 719468) % 146097).toNat century group year rest) :
    let m := (5 * rest + 2) / 153
    let y := ((100 * century + 4 * group + year : Nat) : Int) + (n + 719468) / 146097 * 400
    Date.ofDays n =
      ⟨if m < 10 then y else y + 1, if m < 10 then m + 3 else m - 9,
        rest - (153 * m + 2) / 5 + 1⟩ := by
  have hyear := h.year_eq
  obtain ⟨hcentury, hgroup, hyear_lt, hsum, hrest⟩ := h
  have hleft : ((n + 719468) % 146097).toNat -
      (365 * (100 * century + 4 * group + year) + (100 * century + 4 * group + year) / 4 -
        (100 * century + 4 * group + year) / 100) = rest := by
    omega
  simp only [Date.ofDays, hyear, hleft]
  by_cases hm : (5 * rest + 2) / 153 < 10
  · simp only [if_pos hm, Date.mk.injEq, and_true]
    rw [if_neg (by omega)]
  · simp only [if_neg hm, Date.mk.injEq, and_true]
    rw [if_pos (by omega)]

theorem exists_parts (n : Int) : ∃ century group year rest,
    InCycle ((n + 719468) % 146097).toNat century group year rest :=
  exists_inCycle (by omega)

/-- The days of a cycle before a year of it. -/
theorem days_before_year (hcentury : century < 4) (hgroup : group < 25) (hyear : year < 4)
    (cycle : Int) :
    let y := ((100 * century + 4 * group + year : Nat) : Int) + cycle * 400
    y / 400 = cycle ∧ y % 400 * 365 + y % 400 / 4 - y % 400 / 100 =
      (36524 * century + 1461 * group + 365 * year : Nat) := by
  intro y
  have hcycle : y / 400 = cycle := by omega
  have hleft : y % 400 = (100 * century + 4 * group + year : Nat) := by omega
  refine ⟨hcycle, ?_⟩
  rw [hleft]
  omega

theorem toDays_ofDays (n : Int) : (Date.ofDays n).toDays = n := by
  obtain ⟨century, group, year, rest, h⟩ := exists_parts n
  rw [h.ofDays_eq]
  obtain ⟨hcentury, hgroup, hyear, hsum, hrest⟩ := h
  obtain ⟨hcycle, hbefore⟩ :=
    days_before_year hcentury hgroup hyear ((n + 719468) / 146097)
  by_cases hm : (5 * rest + 2) / 153 < 10
  · simp only [if_pos hm, Date.toDays, Date.dayOfYear]
    rw [if_neg (by omega), if_neg (by omega), hcycle, hbefore, Nat.add_sub_cancel]
    omega
  · simp only [if_neg hm, Date.toDays, Date.dayOfYear]
    rw [if_pos (by omega), if_pos (by omega), Int.add_sub_cancel, hcycle, hbefore,
      Nat.sub_add_cancel (by omega)]
    omega

theorem month_ofDays (n : Int) : 1 ≤ (Date.ofDays n).month ∧ (Date.ofDays n).month ≤ 12 := by
  obtain ⟨century, group, year, rest, h⟩ := exists_parts n
  rw [h.ofDays_eq]
  have hrest := h.rest_lt
  by_cases hm : (5 * rest + 2) / 153 < 10
  · simp only [if_pos hm]
    omega
  · simp only [if_neg hm]
    omega

/-- The year that a left-over day ends is followed by the January and February of a leap year. -/
theorem isLeapYear_after (h : InCycle day century group year 365) (cycle : Int) :
    isLeapYear (((100 * century + 4 * group + year : Nat) : Int) + cycle * 400 + 1) = true := by
  obtain ⟨hcentury, hgroup, hyear, -, hrest⟩ := h
  simp only [isLeapYear, Bool.and_eq_true, Bool.or_eq_true, beq_iff_eq, bne_iff_ne]
  omega

theorem day_ofDays (n : Int) : 1 ≤ (Date.ofDays n).day ∧
    (Date.ofDays n).day ≤ daysInMonth (Date.ofDays n).year (Date.ofDays n).month := by
  obtain ⟨century, group, year, rest, h⟩ := exists_parts n
  rw [h.ofDays_eq]
  have hrest := h.rest_lt
  refine ⟨Nat.le_add_left 1 _, ?_⟩
  by_cases hm : (5 * rest + 2) / 153 < 10
  · simp only [if_pos hm, daysInMonth]
    rw [if_neg (by omega)]
    split
    · omega
    · omega
  · simp only [if_neg hm, daysInMonth]
    split
    · split
      · omega
      · rename_i common
        have hlast : rest ≠ 365 := by
          rintro rfl
          exact common (isLeapYear_after h _)
        omega
    · rw [if_neg (by omega)]
      omega

theorem isValid_ofDays (n : Int) : (Date.ofDays n).isValid = true := by
  simp only [Date.isValid, Bool.and_eq_true, decide_eq_true_eq]
  exact ⟨⟨month_ofDays n, (day_ofDays n).1⟩, (day_ofDays n).2⟩

end Outreach.Time
