import Mathlib.Data.List.TakeWhile
import Outreach.Segment.DayCount

/-!
# Days before the present

A value counts days by its whole part or by the integer that it starts with. The count may be
any integer, and it is of use if the instant that many days before the present can be
represented. The cut to 64 bits is never seen there, since counts of that size lead out of all
that can be represented.
-/

namespace Outreach

namespace Instant

/-- Nanoseconds from an earlier instant to a later one. -/
def nanosSince (later earlier : Instant) : Int :=
  (later.seconds - earlier.seconds) * nanosPerSecond + (later.nanos - earlier.nanos)

/-- Nanoseconds in 24 hours. -/
def nanosPerDay : Int :=
  24 * 60 * 60 * nanosPerSecond

/-- The instant lies a number of days before the present. -/
structure IsDaysBefore (i now : Instant) (days : Int) : Prop where
  represented : i.inRange = true
  plain : i.nanos < nanosPerSecond
  elapsed : now.nanosSince i = days * nanosPerDay

theorem isDaysBefore_iff {i now : Instant} (plain : now.nanos < nanosPerSecond) (days : Int) :
    i.IsDaysBefore now days ↔ now.subDays? days = some i := by
  have hleap : now.inLeapSecond = false := by
    simp only [inLeapSecond, decide_eq_false_iff_not]
    omega
  have hsub : now.subDays days = ⟨now.seconds - days * 86400, now.nanos⟩ := by
    simp [subDays, hleap]
  simp only [subDays?, hsub]
  constructor
  · rintro ⟨represented, hi, elapsed⟩
    have hsame : i = ⟨now.seconds - days * 86400, now.nanos⟩ := by
      obtain ⟨seconds, nanos⟩ := i
      simp only [nanosSince, nanosPerDay, nanosPerSecond] at *
      have hseconds : seconds = now.seconds - days * 86400 := by omega
      have hnanos : nanos = now.nanos := by omega
      rw [hseconds, hnanos]
    rw [hsame] at represented
    rw [if_pos represented, hsame]
  · intro h
    split at h
    · rename_i represented
      cases Option.some.inj h
      refine ⟨represented, plain, ?_⟩
      simp only [nanosSince, nanosPerDay, nanosPerSecond]
      omega
    · cases h

end Instant

namespace Segment

/-! ## Integers at the start of a text -/

/-- Digits, one at least. -/
structure IsDigits (ds : List Char) : Prop where
  nonempty : ds ≠ []
  digits : ∀ c ∈ ds, c.isDigit = true

/-- Digits after at most one sign, with the integer that they denote. -/
inductive Numeral : List Char → Int → Prop
  | unsigned {ds : List Char} (digits : IsDigits ds) : Numeral ds (digitsValue ds)
  | plus {ds : List Char} (digits : IsDigits ds) : Numeral ('+' :: ds) (digitsValue ds)
  | minus {ds : List Char} (digits : IsDigits ds) : Numeral ('-' :: ds) (-(digitsValue ds : Int))

/-- A text starts, after blanks, with a numeral that ends where the digits end. -/
structure StartsWith (cs : List Char) (n : Int) : Prop where
  split : ∃ blanks numeral rest, cs = blanks ++ (numeral ++ rest) ∧
    (∀ c ∈ blanks, Text.isBlankChar c = true) ∧ Numeral numeral n ∧
    ∀ c ∈ rest.head?, c.isDigit = false

theorem isDigit_bounds {c : Char} (h : c.isDigit = true) : 48 ≤ c.toNat ∧ c.toNat ≤ 57 := by
  simp only [Char.isDigit, Bool.and_eq_true, decide_eq_true_eq, UInt32.le_iff_toNat_le] at h
  exact h

theorem isBlankChar_of_isDigit {c : Char} (h : c.isDigit = true) : Text.isBlankChar c = false := by
  have hbounds := isDigit_bounds h
  simp [Text.isBlankChar, Text.inRanges, Text.blankRanges]
  omega

theorem takeWhile_isDigit {ds rest : List Char} (digits : IsDigits ds)
    (stops : ∀ c ∈ rest.head?, c.isDigit = false) : (ds ++ rest).takeWhile Char.isDigit = ds := by
  rw [List.takeWhile_append_of_pos digits.digits]
  cases rest with
  | nil => simp
  | cons c others =>
    have hc := stops c rfl
    simp [hc]

theorem leadingNat?_eq {ds rest : List Char} (digits : IsDigits ds)
    (stops : ∀ c ∈ rest.head?, c.isDigit = false) :
    leadingNat? (ds ++ rest) = some (digitsValue ds) := by
  rw [leadingNat?, takeWhile_isDigit digits stops]
  cases ds with
  | nil => exact absurd rfl digits.nonempty
  | cons c others => rfl

theorem digits_of_leadingNat? {cs : List Char} {n : Nat} (h : leadingNat? cs = some n) :
    ∃ ds rest, cs = ds ++ rest ∧ IsDigits ds ∧ n = digitsValue ds ∧
      ∀ c ∈ rest.head?, c.isDigit = false := by
  refine ⟨cs.takeWhile Char.isDigit, cs.dropWhile Char.isDigit,
    List.takeWhile_append_dropWhile.symm, ?_, ?_, ?_⟩
  · constructor
    · intro hnone
      simp [leadingNat?, hnone] at h
    · intro c hc
      exact List.mem_takeWhile_imp hc
  · rw [leadingNat?] at h
    cases htake : cs.takeWhile Char.isDigit with
    | nil =>
      rw [htake] at h
      cases h
    | cons c others =>
      rw [htake] at h
      exact (Option.some.inj h).symm
  · intro c hc
    have hhead := List.head?_dropWhile_not Char.isDigit cs
    rw [Option.mem_def.mp hc] at hhead
    simpa using hhead

theorem Numeral.ne_nil {numeral : List Char} {n : Int} (h : Numeral numeral n) : numeral ≠ [] := by
  cases h with
  | unsigned digits => exact digits.nonempty
  | plus _ => exact List.cons_ne_nil _ _
  | minus _ => exact List.cons_ne_nil _ _

theorem isBlankChar_of_numeral {numeral : List Char} {n : Int} (h : Numeral numeral n) :
    ∀ c ∈ numeral.head?, Text.isBlankChar c = false := by
  intro c hc
  cases h with
  | unsigned digits => exact isBlankChar_of_isDigit (digits.digits c (List.mem_of_head? hc))
  | plus _ =>
    cases Option.mem_some_iff.mp hc
    decide
  | minus _ =>
    cases Option.mem_some_iff.mp hc
    decide

theorem dropLeading_eq {blanks cs : List Char} (blank : ∀ c ∈ blanks, Text.isBlankChar c = true)
    (shows : ∀ c ∈ cs.head?, Text.isBlankChar c = false) :
    Text.dropLeading (blanks ++ cs) = cs := by
  rw [Text.dropLeading, List.dropWhile_append_of_pos blank]
  cases cs with
  | nil => rfl
  | cons c rest =>
    have hc := shows c rfl
    simp [hc]

theorem withinWord?_eq_some {z n : Int} (h : withinWord? z = some n) :
    z = n ∧ withinWord? n = some n := by
  have hz := h
  rw [withinWord?] at hz
  split at hz
  · cases hz
    exact ⟨rfl, h⟩
  · cases hz

/-- What is read off digits, with or without their sign, is told by digits that end
where they do. -/
theorem digits_of_withinWord? {cs : List Char} {sign : Nat → Int} {n : Int}
    (h : ((leadingNat? cs).bind fun m => withinWord? (sign m)) = some n) :
    ∃ ds rest, cs = ds ++ rest ∧ IsDigits ds ∧ (∀ c ∈ rest.head?, c.isDigit = false) ∧
      n = sign (digitsValue ds) ∧ withinWord? n = some n := by
  obtain ⟨m, hm, hn⟩ := Option.bind_eq_some_iff.mp h
  obtain ⟨ds, rest, hcs, digits, rfl, stops⟩ := digits_of_leadingNat? hm
  obtain ⟨hvalue, within⟩ := withinWord?_eq_some hn
  exact ⟨ds, rest, hcs, digits, stops, hvalue.symm, within⟩

theorem startsWith_of_startingInteger? {cs : List Char} {n : Int}
    (h : startingInteger? cs = some n) : StartsWith cs n ∧ withinWord? n = some n := by
  have hsplit : cs = cs.takeWhile Text.isBlankChar ++ Text.dropLeading cs :=
    List.takeWhile_append_dropWhile.symm
  have hblank : ∀ c ∈ cs.takeWhile Text.isBlankChar, Text.isBlankChar c = true :=
    fun c hc => List.mem_takeWhile_imp hc
  rw [startingInteger?] at h
  generalize Text.dropLeading cs = shown at h hsplit
  split at h
  · obtain ⟨ds, rest, rfl, digits, stops, rfl, within⟩ :=
      digits_of_withinWord? h
    exact ⟨⟨_, '-' :: ds, rest, hsplit, hblank, .minus digits, stops⟩, within⟩
  · obtain ⟨ds, rest, rfl, digits, stops, rfl, within⟩ := digits_of_withinWord? h
    exact ⟨⟨_, '+' :: ds, rest, hsplit, hblank, .plus digits, stops⟩, within⟩
  · obtain ⟨ds, rest, rfl, digits, stops, rfl, within⟩ := digits_of_withinWord? h
    exact ⟨⟨_, ds, rest, hsplit, hblank, .unsigned digits, stops⟩, within⟩

theorem startingInteger?_of_startsWith {cs : List Char} {n : Int} (h : StartsWith cs n)
    (within : withinWord? n = some n) : startingInteger? cs = some n := by
  obtain ⟨blanks, numeral, rest, rfl, hblank, denotes, stops⟩ := h.split
  have hhead : ∀ c ∈ (numeral ++ rest).head?, Text.isBlankChar c = false := by
    intro c hc
    refine isBlankChar_of_numeral denotes c ?_
    obtain ⟨first, others, rfl⟩ := List.exists_cons_of_ne_nil denotes.ne_nil
    exact hc
  rw [startingInteger?, dropLeading_eq hblank hhead]
  cases denotes with
  | plus digits => simp [leadingNat?_eq digits stops, within]
  | minus digits => simp [leadingNat?_eq digits stops, within]
  | unsigned digits =>
    have hleading := leadingNat?_eq digits stops
    obtain ⟨c, others, rfl⟩ := List.exists_cons_of_ne_nil digits.nonempty
    -- A digit is neither of the signs.
    have hbounds := isDigit_bounds (digits.digits c List.mem_cons_self)
    have hminus : c ≠ '-' := by
      rintro rfl
      revert hbounds
      decide
    have hplus : c ≠ '+' := by
      rintro rfl
      revert hbounds
      decide
    simp only [List.cons_append] at hleading ⊢
    split
    · rename_i hc
      exact absurd (List.cons.inj hc).1 hminus
    · rename_i hc
      exact absurd (List.cons.inj hc).1 hplus
    · rw [hleading]
      exact within

/-- A text starts with an integer exactly if a numeral says so, as far as the integer fits. -/
theorem startingInteger?_eq_some (cs : List Char) (n : Int) :
    startingInteger? cs = some n ↔ StartsWith cs n ∧ withinWord? n = some n :=
  ⟨startsWith_of_startingInteger?, fun h => startingInteger?_of_startsWith h.1 h.2⟩

/-! ## Day counts of values -/

/-- A value counts days by its whole part or by the integer that it starts with. -/
inductive Counts : Json → Int → Prop
  | int (z : Int) : Counts (.int z) z
  | float {x : Float} {n : Int} (whole : Decimal.truncate? x = some n) : Counts (.float x) n
  | text {s : String} {n : Int} (starts : StartsWith s.toList n) : Counts (.text s) n

theorem clampWord_of_withinWord? {z : Int} (h : withinWord? z = some z) : clampWord z = z := by
  rw [withinWord?] at h
  split at h
  · rw [clampWord]
    omega
  · cases h

theorem dayCount?_of_counts {value : Json} {n : Int} (h : Counts value n)
    (within : withinWord? n = some n) : dayCount? value = some n := by
  cases h with
  | int z => rw [dayCount?, clampWord_of_withinWord? within]
  | float whole => rw [dayCount?, whole, Option.map_some, clampWord_of_withinWord? within]
  | text starts => exact (startingInteger?_eq_some _ n).mpr ⟨starts, within⟩

/-- A day count is the integer that the value counts, or the bound that this exceeds. -/
theorem counts_of_dayCount? {value : Json} {n : Int} (h : dayCount? value = some n) :
    Counts value n ∨ n = minWord ∨ n = maxWord := by
  have hclamp : ∀ z, clampWord z = z ∨ clampWord z = minWord ∨ clampWord z = maxWord := by
    intro z
    simp only [clampWord]
    omega
  cases value with
  | int z =>
    cases Option.some.inj h
    rcases hclamp z with hz | hz
    · rw [hz]
      exact Or.inl (.int z)
    · exact Or.inr hz
  | float x =>
    obtain ⟨z, whole, rfl⟩ := Option.map_eq_some_iff.mp h
    rcases hclamp z with hz | hz
    · rw [hz]
      exact Or.inl (.float whole)
    · exact Or.inr hz
  | text s => exact Or.inl (.text ((startingInteger?_eq_some s.toList n).mp h).1)
  | null => cases h
  | bool _ => cases h
  | array _ => cases h
  | object _ => cases h
  | unreadable => cases h

/-- What can be represented lies within far fewer days than 64 bits count. -/
theorem within_of_isDaysBefore {i now : Instant} {n : Int} (represented : now.inRange = true)
    (plain : now.nanos < Instant.nanosPerSecond) (h : i.IsDaysBefore now n) :
    minWord < n ∧ n < maxWord := by
  have hi := h.represented
  have hplain := h.plain
  have elapsed := h.elapsed
  have hmin : minWord = -9223372036854775808 := by decide
  have hmax : maxWord = 9223372036854775807 := by decide
  have hfirst : Instant.first.seconds = -8334601228800 := by decide
  have hlast : Instant.lastSecond = 8210266876799 := by decide
  simp only [Instant.inRange, Bool.and_eq_true, decide_eq_true_eq, hfirst, hlast] at represented hi
  simp only [Instant.nanosSince, Instant.nanosPerDay, Instant.nanosPerSecond] at *
  omega

/-- The cutoff of a value lies as many days back as the value counts, and there is one whenever that
can be represented. -/
theorem cutoff?_eq_some {value : Json} {i now : Instant} (represented : now.inRange = true)
    (plain : now.nanos < Instant.nanosPerSecond) :
    cutoff? value now = some i ↔ ∃ n, Counts value n ∧ i.IsDaysBefore now n := by
  constructor
  · intro h
    obtain ⟨n, hcount, hsub⟩ := Option.bind_eq_some_iff.mp h
    have hbefore := (Instant.isDaysBefore_iff plain n).mpr hsub
    obtain ⟨hmin, hmax⟩ := within_of_isDaysBefore represented plain hbefore
    refine ⟨n, ?_, hbefore⟩
    rcases counts_of_dayCount? hcount with counts | rfl | rfl
    · exact counts
    · omega
    · omega
  · rintro ⟨n, counts, hbefore⟩
    obtain ⟨hmin, hmax⟩ := within_of_isDaysBefore represented plain hbefore
    have hwithin : withinWord? n = some n := if_pos ⟨by omega, by omega⟩
    rw [cutoff?, dayCount?_of_counts counts hwithin]
    exact (Instant.isDaysBefore_iff plain n).mp hbefore

end Segment

end Outreach
