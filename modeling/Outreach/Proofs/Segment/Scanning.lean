import Outreach.Proofs.Segment.DayCount

/-!
# Scanning a text for its day count

The integer at the start of a text is found by position: blanks are trimmed, a sign takes one byte,
the digits after it are counted as characters, and the text is cut after as many bytes. What is cut
off is read digit by digit in 64 bits. A digit and a sign take one byte each, so every cut comes to
lie between two characters, and the steps of the reading overflow only where the integer itself does
not fit. A text that starts with an integer therefore counts as that integer does.
-/

namespace Outreach

namespace Text

/-- The two parts of a text before and after a number of bytes. There are none where the text is
shorter, or where the bytes end within a character. -/
def cutAt? (s : String) (bytes : Nat) : Option (String × String) :=
  if h : String.Pos.Raw.IsValid s ⟨bytes⟩ then
    some ((s.sliceTo (s.pos ⟨bytes⟩ h)).copy, (s.sliceFrom (s.pos ⟨bytes⟩ h)).copy)
  else none

theorem cutAt?_append (s t : String) : cutAt? (s ++ t) s.utf8ByteSize = some (s, t) := by
  have hvalid : String.Pos.Raw.IsValid (s ++ t) ⟨s.utf8ByteSize⟩ :=
    String.Pos.Raw.isValid_iff_exists_append.mpr ⟨s, t, rfl, rfl⟩
  have hsplits : ((s ++ t).pos ⟨s.utf8ByteSize⟩ hvalid).Splits s t := ⟨rfl, rfl⟩
  rw [cutAt?, dif_pos hvalid, hsplits.copy_sliceTo_eq, hsplits.copy_sliceFrom_eq]

/-- Characters below 128 take one byte each. -/
theorem utf8ByteSize_ofList {cs : List Char} (short : ∀ c ∈ cs, c.toNat < 128) :
    (String.ofList cs).utf8ByteSize = cs.length := by
  induction cs with
  | nil => rfl
  | cons c rest ih =>
    have hbound : c.val.toNat ≤ 127 := Nat.le_of_lt_succ (short c List.mem_cons_self)
    have hone : c.utf8Size = 1 := if_pos (UInt32.le_iff_toNat_le.mpr hbound)
    have hfirst : (String.ofList [c]).utf8ByteSize = 1 := by
      rw [← String.singleton_eq_ofList, String.utf8ByteSize_singleton, hone]
    have hrest := ih fun d hd => short d (List.mem_cons_of_mem c hd)
    rw [← List.singleton_append, String.ofList_append, String.utf8ByteSize_append, hfirst, hrest,
      List.length_append, List.length_singleton]

theorem cutAt?_ofList {cs : List Char} (short : ∀ c ∈ cs, c.toNat < 128) (rest : List Char) :
    cutAt? (String.ofList (cs ++ rest)) cs.length =
      some (String.ofList cs, String.ofList rest) := by
  rw [String.ofList_append, ← utf8ByteSize_ofList short]
  exact cutAt?_append _ _

end Text

namespace Segment

def isSign (c : Char) : Bool :=
  c == '-' || c == '+'

/-! ## Reading digit by digit -/

/-- The 64-bit integer with one more digit, unless a step on the way to it leaves 64 bits. -/
def withDigit? (sign n : Int) (c : Char) : Option Int := do
  let tens ← withinWord? (10 * n)
  if c.isDigit then withinWord? (tens + sign * (c.toNat - '0'.toNat : Nat)) else none

/-- The 64-bit integer that a whole text spells, with a sign or without one. -/
def parseWord? (s : String) : Option Int :=
  match s.toList with
  | [] => none
  | '-' :: digits => if digits.isEmpty then none else digits.foldlM (withDigit? (-1)) 0
  | '+' :: digits => if digits.isEmpty then none else digits.foldlM (withDigit? 1) 0
  | digits => digits.foldlM (withDigit? 1) 0

/-- The integer at the start of a text, read by cutting it after a number of bytes. Without a result
of its own, not even that there is no integer, a cut was out of place. -/
def scan? (s : String) : Option (Option Int) := do
  let trimmed := String.ofList (Text.dropLeading s.toList)
  let signLength := if trimmed.toList.head?.any isSign then 1 else 0
  let (_, unsigned) ← Text.cutAt? trimmed signLength
  let digits := (unsigned.toList.takeWhile Char.isDigit).length
  if digits = 0 then return none
  let (numeral, _) ← Text.cutAt? trimmed (signLength + digits)
  return parseWord? numeral

theorem withDigit?_of_isDigit (sign n : Int) {c : Char} (digit : c.isDigit = true) :
    withDigit? sign n c = (withinWord? (10 * n)).bind fun tens =>
      withinWord? (tens + sign * (c.toNat - '0'.toNat : Nat)) := by
  simp only [withDigit?, digit, if_true]
  rfl

theorem withinWord?_eq_none {z : Int} : withinWord? z = none ↔ z < minWord ∨ maxWord < z := by
  rw [withinWord?]
  split <;> simp <;> omega

/-- What has left 64 bits does not come back further from zero. -/
theorem withinWord?_further {sign : Int} (unit : sign = 1 ∨ sign = -1) {j k : Nat} (hle : j ≤ k)
    (out : withinWord? (sign * j) = none) : withinWord? (sign * k) = none := by
  have hmin : minWord = -9223372036854775808 := by decide
  have hmax : maxWord = 9223372036854775807 := by decide
  rw [withinWord?_eq_none] at *
  rcases unit with rfl | rfl <;> omega

/-- The number that digits denote after a number that has been read before them. -/
def readOn (n : Nat) (ds : List Char) : Nat :=
  ds.foldl (fun n c => 10 * n + (c.toNat - '0'.toNat)) n

theorem le_readOn (n : Nat) (ds : List Char) : n ≤ readOn n ds := by
  induction ds generalizing n with
  | nil => exact le_refl n
  | cons c rest ih =>
    have hrest := ih (10 * n + (c.toNat - '0'.toNat))
    rw [readOn, List.foldl_cons]
    rw [readOn] at hrest
    omega

/-- The checked steps come to the integer that the digits denote, as far as it fits. -/
theorem foldlM_withDigit? {sign : Int} (unit : sign = 1 ∨ sign = -1) {ds : List Char}
    (digits : ∀ c ∈ ds, c.isDigit = true) {n : Nat}
    (within : withinWord? (sign * n) = some (sign * n)) :
    ds.foldlM (withDigit? sign) (sign * n) = withinWord? (sign * readOn n ds) := by
  induction ds generalizing n with
  | nil => exact within.symm
  | cons c rest ih =>
    have hc := digits c List.mem_cons_self
    have hrest := fun d hd => digits d (List.mem_cons_of_mem c hd)
    obtain ⟨next, hnext⟩ : ∃ next, next = 10 * n + (c.toNat - '0'.toNat) := ⟨_, rfl⟩
    have hread : readOn n (c :: rest) = readOn next rest := by rw [hnext]; rfl
    have hle := le_readOn next rest
    have htens : 10 * (sign * n) = sign * (10 * n : Nat) := by
      rw [Int.natCast_mul, Int.mul_left_comm]
      rfl
    have hsum : sign * (10 * n : Nat) + sign * (c.toNat - '0'.toNat : Nat) = sign * next := by
      rw [← Int.mul_add, ← Int.natCast_add, hnext]
    rw [List.foldlM_cons, withDigit?_of_isDigit _ _ hc, htens, hread]
    cases hten : withinWord? (sign * (10 * n : Nat)) with
    | none =>
      have hfar : 10 * n ≤ readOn next rest := by omega
      rw [withinWord?_further unit hfar hten]
      rfl
    | some tens =>
      obtain ⟨rfl, _⟩ := withinWord?_eq_some hten
      rw [Option.bind_some, hsum]
      cases hstep : withinWord? (sign * next) with
      | none =>
        rw [withinWord?_further unit hle hstep]
        rfl
      | some m =>
        obtain ⟨rfl, hwithin⟩ := withinWord?_eq_some hstep
        exact ih hrest hwithin

theorem ne_sign_of_isDigit {c : Char} (digit : c.isDigit = true) : c ≠ '-' ∧ c ≠ '+' := by
  constructor <;>
    · rintro rfl
      exact absurd digit (by decide)

/-- A numeral is read as the integer that it denotes, as far as this fits. -/
theorem parseWord?_numeral {numeral : List Char} {n : Int} (h : Numeral numeral n) :
    parseWord? (String.ofList numeral) = withinWord? n := by
  have hread : ∀ {sign : Int} {ds : List Char}, sign = 1 ∨ sign = -1 → IsDigits ds →
      ds.foldlM (withDigit? sign) 0 = withinWord? (sign * digitsValue ds) := by
    intro sign ds unit digits
    have hzero : withinWord? (sign * (0 : Nat)) = some (sign * (0 : Nat)) := by
      rcases unit with rfl | rfl <;> decide
    have hall := foldlM_withDigit? unit digits.digits hzero
    rwa [Int.natCast_zero, Int.mul_zero] at hall
  rw [parseWord?, String.toList_ofList]
  cases h with
  | plus digits =>
    simp only [List.isEmpty_iff, digits.nonempty, if_false]
    rw [hread (Or.inl rfl) digits, Int.one_mul]
  | minus digits =>
    simp only [List.isEmpty_iff, digits.nonempty, if_false]
    rw [hread (Or.inr rfl) digits, Int.neg_one_mul]
  | @unsigned ds digits =>
    obtain ⟨c, rest, rfl⟩ := List.exists_cons_of_ne_nil digits.nonempty
    have hsign := ne_sign_of_isDigit (digits.digits c List.mem_cons_self)
    split
    · contradiction
    · rename_i hc
      exact absurd (List.cons.inj hc).1 hsign.1
    · rename_i hc
      exact absurd (List.cons.inj hc).1 hsign.2
    · rw [hread (Or.inl rfl) digits, Int.one_mul]

/-! ## Cutting between characters -/

/-- After a sign or none, the scanner cuts off the digits and reads them with the sign. -/
theorem scan?_of_split {s : String} (sign : List Char) {rest : List Char}
    (shown : Text.dropLeading s.toList = sign ++ rest)
    (length : sign.length = if (sign ++ rest).head?.any isSign then 1 else 0)
    (short : ∀ c ∈ sign, c.toNat < 128) :
    scan? s = some (if rest.takeWhile Char.isDigit = [] then none
      else parseWord? (String.ofList (sign ++ rest.takeWhile Char.isDigit))) := by
  obtain ⟨ds, hds⟩ : ∃ ds, ds = rest.takeWhile Char.isDigit := ⟨_, rfl⟩
  have hall : ∀ c ∈ sign ++ ds, c.toNat < 128 := by
    intro c hc
    rcases List.mem_append.mp hc with hsign | hdigit
    · exact short c hsign
    · rw [hds] at hdigit
      have hbounds := isDigit_bounds (List.mem_takeWhile_imp hdigit)
      omega
  have hrest : sign ++ rest = (sign ++ ds) ++ rest.dropWhile Char.isDigit := by
    rw [List.append_assoc, hds, List.takeWhile_append_dropWhile]
  have hfirst := Text.cutAt?_ofList short rest
  have hsecond := Text.cutAt?_ofList hall (rest.dropWhile Char.isDigit)
  rw [← hrest, List.length_append] at hsecond
  rw [scan?, shown]
  simp only [String.toList_ofList, ← length, hfirst, hsecond, ← hds, Option.bind_eq_bind,
    Option.bind_some, List.length_eq_zero_iff]
  split <;> rfl

/-- What is cut off after a sign is read as the digits after it are, with the sign applied. -/
theorem parseWord?_cut (sign rest : List Char) (tell : Nat → Int)
    (denotes : ∀ {ds}, IsDigits ds → Numeral (sign ++ ds) (tell (digitsValue ds))) :
    (if rest.takeWhile Char.isDigit = [] then none
        else parseWord? (String.ofList (sign ++ rest.takeWhile Char.isDigit))) =
      (leadingNat? rest).bind fun n => withinWord? (tell n) := by
  rw [leadingNat?]
  cases hds : rest.takeWhile Char.isDigit with
  | nil => rfl
  | cons c others =>
    have hdigits : IsDigits (c :: others) := by
      refine ⟨List.cons_ne_nil c others, fun d hd => ?_⟩
      rw [← hds] at hd
      exact List.mem_takeWhile_imp hd
    rw [if_neg (List.cons_ne_nil c others), parseWord?_numeral (denotes hdigits)]
    rfl

/-- The scanner never cuts out of place, and it finds the integer that a text starts with. -/
theorem scan?_eq (s : String) : scan? s = some (startingInteger? s.toList) := by
  obtain ⟨shown, hshown⟩ : ∃ shown, Text.dropLeading s.toList = shown := ⟨_, rfl⟩
  rw [startingInteger?, hshown]
  split
  · rename_i rest
    rw [scan?_of_split ['-'] hshown rfl (by simp), parseWord?_cut _ _ (fun n => -(n : Int)) .minus]
  · rename_i rest
    rw [scan?_of_split ['+'] hshown rfl (by simp), parseWord?_cut _ _ Int.ofNat .plus]
    rfl
  · rename_i not_minus not_plus
    have hnone : shown.head?.any isSign = false := by
      cases shown with
      | nil => rfl
      | cons c others =>
        have hminus : c ≠ '-' := fun hc => not_minus others (by rw [hc])
        have hplus : c ≠ '+' := fun hc => not_plus others (by rw [hc])
        simp [isSign, hminus, hplus]
    rw [scan?_of_split [] hshown (by simp [hnone]) (by simp),
      parseWord?_cut _ _ Int.ofNat .unsigned]
    rfl

/-! ## Texts that count days -/

/-- A text that starts with a 64-bit integer after blanks counts the days of that integer, and no
other text counts any. The scanner comes to the same count, whatever the text is, and never cuts
out of place. -/
theorem texts_count_what_they_start_with (s : String) :
    (∀ n, minWord ≤ n → n ≤ maxWord → StartsWith s.toList n →
        ∀ now, cutoff? (.text s) now = cutoff? (.int n) now) ∧
      ((∀ n, minWord ≤ n → n ≤ maxWord → ¬ StartsWith s.toList n) →
        ∀ now, cutoff? (.text s) now = none) ∧
      scan? s = some (dayCount? (.text s)) := by
  refine ⟨?_, ?_, scan?_eq s⟩
  · intro n least most starts now
    have hwithin : withinWord? n = some n := if_pos ⟨least, most⟩
    have htext : dayCount? (.text s) = some n := dayCount?_of_counts (.text starts) hwithin
    have hint : dayCount? (.int n) = some n := dayCount?_of_counts (.int n) hwithin
    rw [cutoff?, cutoff?, htext, hint]
  · intro none_starts now
    have hnone : startingInteger? s.toList = none := by
      cases hstart : startingInteger? s.toList with
      | none => rfl
      | some n =>
        obtain ⟨starts, within⟩ := startsWith_of_startingInteger? hstart
        have hword : minWord ≤ n ∧ n ≤ maxWord := by
          by_contra hout
          rw [withinWord?, if_neg hout] at within
          cases within
        exact absurd starts (none_starts n hword.1 hword.2)
    rw [cutoff?, dayCount?, hnone, Option.bind_none]

/-- A wide blank, a sign, zeros in front and a letter behind make no difference. One more than the
largest 64-bit integer counts no days. -/
theorem wide_blank_and_zeros_are_skipped :
    let padded := "\u3000-0030日"
    let beyond := "9223372036854775808 days"
    (StartsWith padded.toList (-30) ∧
        ∀ now, cutoff? (.text padded) now = cutoff? (.int (-30)) now) ∧
      ((∀ n, minWord ≤ n → n ≤ maxWord → ¬ StartsWith beyond.toList n) ∧
        ∀ now, cutoff? (.text beyond) now = none) ∧
      scan? padded = some (some (-30)) ∧ scan? beyond = some none := by
  intro padded beyond
  have hpadded : startingInteger? padded.toList = some (-30) := by decide +kernel
  have hbeyond : startingInteger? beyond.toList = none := by decide +kernel
  have starts : StartsWith padded.toList (-30) := (startsWith_of_startingInteger? hpadded).1
  have none_starts : ∀ n, minWord ≤ n → n ≤ maxWord → ¬ StartsWith beyond.toList n := by
    intro n least most starts
    have hsome := startingInteger?_of_startsWith starts (if_pos ⟨least, most⟩)
    rw [hbeyond] at hsome
    cases hsome
  obtain ⟨counts, _, scanned⟩ := texts_count_what_they_start_with padded
  obtain ⟨_, counts_none, scanned_none⟩ := texts_count_what_they_start_with beyond
  refine ⟨⟨starts, counts (-30) (by decide) (by decide) starts⟩,
    ⟨none_starts, counts_none none_starts⟩, ?_, ?_⟩
  · rw [scanned, dayCount?, hpadded]
  · rw [scanned_none, dayCount?, hbeyond]

end Segment

end Outreach
