import Mathlib.Algebra.Group.Nat.Defs
import Outreach.Proofs.Segment.DayCount
import Outreach.Proofs.Time.Calendar
import Outreach.Time.Rfc3339

/-!
# Reading what has been written

The reader of instants accepts many more texts than the writer produces. Of a text that the writer
has produced it finds each number where the writer has put it, since every number ends where its
digits end. So an instant that can be represented is read back as itself, also within a leap second,
as long as that stands where leap seconds are inserted.
-/

namespace Outreach

/-- A leap second is inserted at the end of a minute. Nowhere else does an instant lie in one. -/
def Instant.Proper (i : Instant) : Prop :=
  i.nanos < nanosPerSecond ∨ i.nanos < 2 * nanosPerSecond ∧ i.seconds % 60 = 59

namespace Time

open Segment Reading

variable {cs rest : List Char}

/-! ## Numbers -/

theorem stops_cons {c : Char} (h : c.isDigit = false) :
    ∀ d ∈ (c :: rest).head?, d.isDigit = false := by
  rintro d ⟨⟩
  exact h

theorem isDigits_padded {width : Nat} (n : Nat) : IsDigits (padded width n) := by
  have hdigits : ∀ c ∈ Nat.toDigits 10 n, c.isDigit = true :=
    fun c hc => Nat.isDigit_of_mem_toDigits (by decide) (by decide) hc
  constructor
  · intro hnone
    exact Nat.toDigits_ne_nil (List.append_eq_nil_iff.mp hnone).2
  · intro c hc
    rcases List.mem_append.mp hc with hzero | hdigit
    · rw [(List.mem_replicate.mp hzero).2]
      decide
    · exact hdigits c hdigit

theorem digitsValue_padded (width n : Nat) : digitsValue (padded width n) = n := by
  change Nat.ofDigitChars 10 (padded width n) 0 = n
  rw [padded, Nat.ofDigitChars_append, Nat.ofDigitChars_replicate_zero, Nat.mul_zero,
    Nat.ofDigitChars_ten_toDigits]

theorem length_padded {width n : Nat} (positive : 0 < width) (fits : n < 10 ^ width) :
    (padded width n).length = width := by
  have hshort : (Nat.toDigits 10 n).length ≤ width :=
    (Nat.length_toDigits_le_iff (by decide) positive).mpr fits
  rw [padded, List.length_append, List.length_replicate]
  omega

/-- A number is read off digits that end where something else begins. -/
theorem number?_eq {limit : Nat} {ds : List Char} (digits : IsDigits ds)
    (short : ds.length ≤ limit) (stops : ∀ c ∈ rest.head?, c.isDigit = false) :
    number? limit (ds ++ rest) = some (digitsValue ds, rest) := by
  have hnonempty : ds.isEmpty = false := List.isEmpty_eq_false_iff.mpr digits.nonempty
  simp only [number?, takeWhile_isDigit digits stops, List.take_of_length_le short, hnonempty,
    List.drop_left, digitsValue]
  rfl

/-- A number in two digits is read as a field that admits it. -/
theorem field?_padded {low high n : Nat} (fits : n < 100) (admitted : low ≤ n ∧ n ≤ high)
    (stops : ∀ c ∈ rest.head?, c.isDigit = false) :
    field? low high (padded 2 n ++ rest) = some (n, rest) := by
  have hdigits : IsDigits (padded 2 n) := isDigits_padded n
  obtain ⟨c, others, hcons⟩ := List.exists_cons_of_ne_nil hdigits.nonempty
  have hblank : Text.dropLeading (padded 2 n ++ rest) = padded 2 n ++ rest := by
    have hc : c.isDigit = true := hdigits.digits c (by rw [hcons]; exact List.mem_cons_self)
    rw [hcons, List.cons_append, Text.dropLeading, List.dropWhile_cons_of_neg]
    simp [isBlankChar_of_isDigit hc]
  have hnumber := number?_eq hdigits (length_padded (by decide) fits).le stops
  rw [digitsValue_padded] at hnumber
  simp only [field?, hblank, hnumber, Option.bind_eq_bind, Option.bind_some, if_pos admitted]

theorem mark?_cons {c : Char} (shows : Text.isBlankChar c = false) :
    mark? c (c :: rest) = some rest := by
  have hblank : Text.dropLeading (c :: rest) = c :: rest := by
    rw [Text.dropLeading, List.dropWhile_cons_of_neg]
    simp [shows]
  simp only [mark?, hblank, if_pos]

/-! ## The parts of a written instant -/

theorem year?_writeYear (y : Int) (stops : ∀ c ∈ rest.head?, c.isDigit = false) :
    year? (writeYear y ++ rest) = some (y, rest) := by
  have hdigits : IsDigits (padded 4 y.natAbs) := isDigits_padded y.natAbs
  have hlong : (padded 4 y.natAbs).length ≤ (padded 4 y.natAbs ++ rest).length := by
    rw [List.length_append]
    exact Nat.le_add_right _ _
  have hsigned := number?_eq hdigits hlong stops
  rw [digitsValue_padded] at hsigned
  have hshows : ∀ c, Text.isBlankChar c = false → ∀ l, Text.dropLeading (c :: l) = c :: l := by
    intro c hc l
    rw [Text.dropLeading, List.dropWhile_cons_of_neg]
    simp [hc]
  rw [writeYear]
  split
  · rename_i negative
    rw [List.cons_append, year?, hshows '-' (by decide)]
    simp only [hsigned, Option.map_some]
    congr 2
    omega
  · split
    · rename_i long
      rw [List.cons_append, year?, hshows '+' (by decide)]
      simp only [hsigned, Option.map_some]
      congr 2
      omega
    · rename_i positive short
      have hnumber := number?_eq hdigits (length_padded (n := y.natAbs) (by decide) (by omega)).le
        stops
      rw [digitsValue_padded] at hnumber
      obtain ⟨c, others, hcons⟩ := List.exists_cons_of_ne_nil hdigits.nonempty
      have hc : c.isDigit = true := hdigits.digits c (by rw [hcons]; exact List.mem_cons_self)
      rw [year?, hcons, List.cons_append, hshows c (isBlankChar_of_isDigit hc), ← List.cons_append,
        ← hcons]
      -- A digit is neither of the signs.
      split
      · rename_i he
        rw [hcons, List.cons_append, List.cons.injEq] at he
        rw [he.1] at hc
        exact absurd hc (by decide)
      · rename_i he
        rw [hcons, List.cons_append, List.cons.injEq] at he
        rw [he.1] at hc
        exact absurd hc (by decide)
      · have hy : ((y.natAbs : Nat) : Int) = y := by omega
        simp only [hnumber, Option.map_some, hy]

theorem fraction?_point {width n : Nat} (positive : 0 < width) (short : width ≤ 9)
    (fits : n < 10 ^ width) (stops : ∀ c ∈ rest.head?, c.isDigit = false) :
    fraction? ('.' :: padded width n ++ rest) = some (n * 10 ^ (9 - width), rest) := by
  have hdigits : IsDigits (padded width n) := isDigits_padded n
  have hlength := length_padded positive fits
  have hnumber := number?_eq hdigits (hlength.le.trans short) stops
  rw [digitsValue_padded] at hnumber
  have htake := takeWhile_isDigit hdigits stops
  have hdrop : (padded width n ++ rest).dropWhile Char.isDigit = rest := by
    have hsplit := List.takeWhile_append_dropWhile (p := Char.isDigit) (l := padded width n ++ rest)
    rw [htake] at hsplit
    exact List.append_cancel_left hsplit
  simp only [List.cons_append, fraction?, hnumber, Option.bind_eq_bind, Option.bind_some, htake,
    List.take_of_length_le (hlength.le.trans short), hlength, hdrop]
  rfl

theorem fraction?_writeFraction {nanos : Nat} (part : nanos < Instant.nanosPerSecond)
    (stops : ∀ c ∈ rest.head?, c.isDigit = false) (plain : rest.head? ≠ some '.') :
    fraction? (writeFraction nanos ++ rest) = some (nanos, rest) := by
  rw [Instant.nanosPerSecond] at part
  rw [writeFraction]
  split
  · rename_i whole
    rw [whole, List.nil_append, fraction?]
    rintro others rfl
    exact plain rfl
  · split
    · rw [fraction?_point (by decide) (by decide) (by omega) stops]
      congr 2
      omega
    · split
      · rw [fraction?_point (by decide) (by decide) (by omega) stops]
        congr 2
        omega
      · rw [fraction?_point (by decide) (by decide) (by omega) stops]
        congr 2
        omega

theorem offset?_universal : offset? ['Z'] = some (0, []) := by
  decide

/-! ## Instants -/

/-- Reading goes on with what has been read. -/
theorem bind_eq {α β : Type} {x : Option α} {a : α} {next : α → Option β} {r : Option β}
    (h : x = some a) (later : next a = r) : (x >>= next) = r := by
  rw [h]
  exact later

/-- The date and the time of day of a text in universal time are taken from its parts. -/
theorem read?_parts {date : Date} {hour minute second nanos : Nat} (hdate : date.isValid = true)
    (hhour : hour ≤ 23) (hminute : minute ≤ 59) (hsecond : second ≤ 60)
    (hpart : nanos < Instant.nanosPerSecond) :
    let i : Instant :=
      ⟨date.toDays * 86400 + (hour * 3600 + minute * 60 + min second 59 : Nat),
        nanos + if second = 60 then Instant.nanosPerSecond else 0⟩
    read? (String.ofList (writeYear date.year ++ '-' :: padded 2 date.month ++
      '-' :: padded 2 date.day ++ 'T' :: padded 2 hour ++ ':' :: padded 2 minute ++
      ':' :: padded 2 second ++ writeFraction nanos ++ ['Z'])) =
      if i.inRange then some i else none := by
  intro i
  have hmonth : 1 ≤ date.month ∧ date.month ≤ 12 := by
    simp only [Date.isValid, Bool.and_eq_true, decide_eq_true_eq] at hdate
    exact hdate.1.1
  have hday : 1 ≤ date.day ∧ date.day ≤ 31 := by
    simp only [Date.isValid, Bool.and_eq_true, decide_eq_true_eq] at hdate
    refine ⟨hdate.1.2, hdate.2.trans ?_⟩
    rw [daysInMonth]
    split_ifs <;> decide
  have hfraction : fraction? (writeFraction nanos ++ ['Z']) = some (nanos, ['Z']) :=
    fraction?_writeFraction hpart (by simp) (by simp)
  have hstops : ∀ c ∈ (writeFraction nanos ++ ['Z']).head?, c.isDigit = false := by
    rw [writeFraction]
    split_ifs <;> simp
  simp only [read?, String.toList_ofList, List.append_assoc, List.cons_append]
  refine bind_eq (year?_writeYear date.year (stops_cons rfl)) ?_
  refine bind_eq (mark?_cons rfl) ?_
  refine bind_eq (field?_padded (by omega) hmonth (stops_cons rfl)) ?_
  refine bind_eq (mark?_cons rfl) ?_
  refine bind_eq (field?_padded (by omega) hday (stops_cons rfl)) ?_
  refine bind_eq rfl ?_
  refine bind_eq (field?_padded (by omega) ⟨Nat.zero_le _, hhour⟩ (stops_cons rfl)) ?_
  refine bind_eq (mark?_cons rfl) ?_
  refine bind_eq (field?_padded (by omega) ⟨Nat.zero_le _, hminute⟩ (stops_cons rfl)) ?_
  refine bind_eq (mark?_cons rfl) ?_
  refine bind_eq (field?_padded (by omega) ⟨Nat.zero_le _, hsecond⟩ hstops) ?_
  refine bind_eq hfraction ?_
  refine bind_eq offset?_universal ?_
  simp only [Int.sub_zero]
  refine if_congr ⟨fun h => h.2.2.2, fun h => ?_⟩ rfl rfl
  exact ⟨rfl, hdate, h, h⟩

/-- The time of day of an instant, in the parts in which it is written, makes up the instant. -/
theorem parts_sum {i : Instant} (proper : i.Proper) :
    let time := (i.seconds % 86400).toNat
    let second := time % 60 + i.nanos / Instant.nanosPerSecond
    second ≤ 60 ∧
      i.seconds / 86400 * 86400 +
        (time / 3600 * 3600 + time / 60 % 60 * 60 + min second 59 : Nat) = i.seconds ∧
      i.nanos % Instant.nanosPerSecond + (if second = 60 then Instant.nanosPerSecond else 0) =
        i.nanos := by
  intro time second
  simp only [Instant.Proper, Instant.nanosPerSecond] at proper
  have htime : (time : Int) = i.seconds % 86400 := by omega
  by_cases plain : i.nanos < 1000000000
  · have hsecond : second = time % 60 := by
      simp only [second, Instant.nanosPerSecond]
      omega
    rw [hsecond, if_neg (by omega), Instant.nanosPerSecond]
    omega
  · have hsecond : second = 60 := by
      simp only [second, Instant.nanosPerSecond]
      omega
    rw [hsecond, if_pos rfl, Instant.nanosPerSecond]
    omega

/-- An instant that can be represented is read back from its written form. -/
theorem read?_write {i : Instant} (proper : i.Proper) (represented : i.inRange = true) :
    read? (write i) = some i := by
  obtain ⟨hsecond, hseconds, hnanos⟩ := parts_sum proper
  rw [write, read?_parts (isValid_ofDays _) (by omega) (by omega) hsecond
    (Nat.mod_lt _ (by decide)), toDays_ofDays, hseconds, hnanos, if_pos represented]

end Time

end Outreach
