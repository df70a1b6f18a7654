import Mathlib.Algebra.Group.Nat.Defs
import Mathlib.Data.List.Basic
import Outreach.Uuid

/-!
# Reading identifiers back

An identifier of 128 bits is written as 32 digits in five groups. The groups are found where they
were put, the hyphens between them are dropped, and the digits give the number back.
-/

namespace Outreach.Uuid

theorem length_hexDigits (n count : Nat) : (hexDigits n count).length = count := by
  induction count generalizing n with
  | zero => rfl
  | succ count ih => rw [hexDigits, List.length_append, ih, List.length_singleton]

theorem hexDigit?_digitChar {d : Nat} (h : d < 16) : Json.hexDigit? (Nat.digitChar d) = some d := by
  have hall : ∀ d : Fin 16, Json.hexDigit? (Nat.digitChar d) = some d.val := by decide
  exact hall ⟨d, h⟩

/-- The digits of a number stand for the number, as far as they go. -/
theorem mapM_hexDigits (n count : Nat) :
    ∃ ds, (hexDigits n count).mapM Json.hexDigit? = some ds ∧
      ds.foldl (fun n d => 16 * n + d) 0 = n % 16 ^ count := by
  induction count generalizing n with
  | zero => exact ⟨[], rfl, (Nat.mod_one n).symm⟩
  | succ count ih =>
    obtain ⟨ds, hds, hvalue⟩ := ih (n / 16)
    refine ⟨ds ++ [n % 16], ?_, ?_⟩
    · rw [hexDigits, List.mapM_append, hds]
      simp [hexDigit?_digitChar (Nat.mod_lt n (by decide : 0 < 16))]
    · rw [List.foldl_concat, hvalue, Nat.pow_succ, Nat.mul_comm (16 ^ count), Nat.mod_mul]
      omega

theorem ofDigits?_digits {u : Uuid} (fits : u.value < 2 ^ 128) : ofDigits? u.digits = some u := by
  obtain ⟨ds, hds, hvalue⟩ := mapM_hexDigits u.value 32
  have hbound : u.value < 16 ^ 32 := fits
  have hnone : u.value / Nat.pow 16 32 = 0 := Nat.div_eq_of_lt hbound
  have hdigits : u.digits = hexDigits u.value 32 := by
    simp only [digits, hnone, if_pos, List.nil_append]
  rw [hdigits, ofDigits?, if_pos (length_hexDigits _ _), hds, Option.map_some, hvalue,
    Nat.mod_eq_of_lt hbound]

/-- Hyphens are dropped that stand between groups of 8, 4, 4, 4 and 12 digits. -/
theorem ofHyphenated?_groups {a b c d e : List Char} (ha : a.length = 8) (hb : b.length = 4)
    (hc : c.length = 4) (hd : d.length = 4) (he : e.length = 12) :
    ofHyphenated? (a ++ '-' :: b ++ '-' :: c ++ '-' :: d ++ '-' :: e) =
      ofDigits? (a ++ b ++ c ++ d ++ e) := by
  simp [ofHyphenated?, List.getElem?_append, List.drop_append, List.drop_of_length_le, ha, hb, hc,
    hd, he]

theorem ofText?_toText {u : Uuid} (fits : u.value < 2 ^ 128) : ofText? u.toText = some u := by
  have hdigits := ofDigits?_digits fits
  have hlength : u.digits.length = 32 := by
    by_contra other
    rw [ofDigits?, if_neg other] at hdigits
    cases hdigits
  have hgroup : ∀ n, (u.digits.drop n).take 4 ++ u.digits.drop (n + 4) = u.digits.drop n := by
    intro n
    rw [← List.drop_drop, List.take_append_drop]
  have hgroups : u.digits.take 8 ++ (u.digits.drop 8).take 4 ++ (u.digits.drop 12).take 4 ++
      (u.digits.drop 16).take 4 ++ u.digits.drop 20 = u.digits := by
    simp only [List.append_assoc, hgroup, List.take_append_drop]
  rw [ofText?, toText, hlength]
  simp only [String.toList_ofList]
  rw [if_neg (by simp [hlength]), if_pos (by simp [hlength]),
    ofHyphenated?_groups (by simp [hlength]) (by simp [hlength]) (by simp [hlength])
      (by simp [hlength]) (by simp [hlength]), hgroups, hdigits]

end Outreach.Uuid
