import Mathlib.Data.List.Infix
import Outreach.Text.LowerCase

/-!
# Lower case inside a longer text

Every character has one lower-case form wherever it stands, apart from the capital sigma, which
looks at its neighbours to see whether it ends a word. A part of a text therefore comes out inside
the text as it does alone, unless one of its capital sigmas ends a word in one of the two and not in
the other. The parts to which this cannot happen are told here by what stands around
their sigmas. They are exactly the needles that are found in every text in which they occur.
-/

namespace Outreach.Text

/-! ## The form of a capital sigma -/

def isCased (c : Char) : Bool :=
  inRanges casedRanges c

/-- The first character that word rules do not skip. -/
def firstHeeded? (cs : List Char) : Option Char :=
  cs.find? fun c => !isIgnorable c

/-- A capital sigma ends a word at a place, given what precedes it with the nearest first. -/
def endsWord (before after : List Char) : Bool :=
  startsCased before && !startsCased after

/-- Each capital sigma of a part ends a word in one surrounding exactly if it does in another. What
precedes the part is given with the nearest first. -/
def SigmasAgree (before after before' after' part : List Char) : Prop :=
  ∀ front back, part = front ++ 'Σ' :: back →
    endsWord (front.reverse ++ before) (back ++ after) =
      endsWord (front.reverse ++ before') (back ++ after')

/-- What precedes and follows a capital sigma settles whether it ends a word, whatever
stands further out. -/
inductive Settles (before after : List Char) : Prop
  | noneBefore {c : Char} (heeded : firstHeeded? before = some c) (uncased : isCased c = false)
  | someAfter {c : Char} (heeded : firstHeeded? after = some c) (cased : isCased c = true)
  | both {b c : Char} (heededBefore : firstHeeded? before = some b)
      (heededAfter : firstHeeded? after = some c)

/-- All capital sigmas of a part are settled within the part. -/
def Steady (part : List Char) : Prop :=
  ∀ front back, part = front ++ 'Σ' :: back → Settles front.reverse back

theorem startsCased_eq (cs : List Char) : startsCased cs = (firstHeeded? cs).any isCased := by
  rw [startsCased, firstHeeded?]
  induction cs with
  | nil => rfl
  | cons c rest ih =>
    rw [List.dropWhile_cons, List.find?_cons]
    cases isIgnorable c with
    | true => exact ih
    | false => rfl

theorem firstHeeded?_append (xs ys : List Char) :
    firstHeeded? (xs ++ ys) = (firstHeeded? xs).or (firstHeeded? ys) :=
  List.find?_append

theorem Settles.endsWord_append {before after : List Char} (h : Settles before after)
    (further beyond : List Char) :
    endsWord (before ++ further) (after ++ beyond) = endsWord before after := by
  simp only [endsWord, startsCased_eq, firstHeeded?_append]
  cases h with
  | noneBefore heeded uncased => simp [heeded, uncased]
  | someAfter heeded cased => simp [heeded, cased]
  | both heededBefore heededAfter => simp [heededBefore, heededAfter]

/-- A letter with case on one side changes a capital sigma that is not settled. -/
theorem endsWord_ne_of_not_settles {before after : List Char} (h : ¬ Settles before after) :
    (∀ z, isIgnorable z = false → isCased z = true →
        endsWord (before ++ [z]) after ≠ endsWord before after) ∨
      ∀ z, isIgnorable z = false → isCased z = true →
        endsWord before (after ++ [z]) ≠ endsWord before after := by
  have hletter : ∀ z, isIgnorable z = false → firstHeeded? [z] = some z := by
    intro z hz
    simp [firstHeeded?, hz]
  cases hbefore : firstHeeded? before with
  | none =>
    left
    intro z hz cased
    have hafter : (firstHeeded? after).any isCased = false := by
      cases ha : firstHeeded? after with
      | none => rfl
      | some c => simpa using fun hc : isCased c = true => h (.someAfter ha hc)
    simp [endsWord, startsCased_eq, firstHeeded?_append, hbefore, hafter, hletter z hz, cased]
  | some b =>
    right
    intro z hz cased
    have hafter : firstHeeded? after = none := by
      cases ha : firstHeeded? after with
      | none => rfl
      | some c => exact absurd (.both hbefore ha) h
    have hb : isCased b = true := by
      simpa using fun hb : isCased b = false => h (.noneBefore hbefore hb)
    simp [endsWord, startsCased_eq, firstHeeded?_append, hbefore, hafter, hletter z hz, cased, hb]

/-! ## Parts of a text -/

/-- The lower-case form of a character at a place in a text. -/
def lowerAt (before after : List Char) (c : Char) : List Char :=
  if c = 'Σ' then [if endsWord before after then 'ς' else 'σ'] else lowerChar c

/-- The lower-case form of a part of a text, given what stands around it. -/
def lowerWithin (before after : List Char) : List Char → List Char
  | [] => []
  | c :: rest => lowerAt before (rest ++ after) c ++ lowerWithin (c :: before) after rest

theorem lowerFrom_cons (before rest : List Char) (c : Char) :
    lowerFrom before (c :: rest) = lowerAt before rest c ++ lowerFrom (c :: before) rest := by
  have hcode : decide (c.toNat = 0x3A3) = decide (c = 'Σ') :=
    decide_eq_decide.mpr (Char.toNat_inj (d := 'Σ'))
  rw [lowerFrom, lowerAt, hcode, Bool.and_assoc, ← endsWord]
  congr 1
  by_cases hc : c = 'Σ'
  · have hsigma : lowerChar 'Σ' = ['σ'] := by decide
    simp only [hc, decide_true, Bool.true_and, if_true, hsigma]
    cases endsWord before rest <;> rfl
  · simp [hc]

theorem lowerFrom_append (before part after : List Char) :
    lowerFrom before (part ++ after) =
      lowerWithin before after part ++ lowerFrom (part.reverse ++ before) after := by
  induction part generalizing before with
  | nil => rfl
  | cons c rest ih =>
    rw [List.cons_append, lowerFrom_cons, ih, lowerWithin, List.append_assoc, List.reverse_cons,
      List.append_assoc]
    rfl

theorem lowerFrom_eq_lowerWithin (before part : List Char) :
    lowerFrom before part = lowerWithin before [] part := by
  have happend := lowerFrom_append before part []
  rwa [List.append_nil, lowerFrom, List.append_nil] at happend

theorem lowerCase_eq (s : String) : lowerCase s = lowerWithin [] [] s.toList :=
  lowerFrom_eq_lowerWithin [] _

theorem length_lowerAt (before after before' after' : List Char) (c : Char) :
    (lowerAt before after c).length = (lowerAt before' after' c).length := by
  simp only [lowerAt]
  split <;> rfl

theorem length_lowerWithin (before after before' after' part : List Char) :
    (lowerWithin before after part).length = (lowerWithin before' after' part).length := by
  induction part generalizing before before' with
  | nil => rfl
  | cons c rest ih =>
    rw [lowerWithin, lowerWithin, List.length_append, List.length_append,
      length_lowerAt before _ before' (rest ++ after') c, ih (c :: before) (c :: before')]

theorem lowerAt_inj {before after before' after' : List Char} {c : Char} :
    lowerAt before after c = lowerAt before' after' c ↔
      (c = 'Σ' → endsWord before after = endsWord before' after') := by
  simp only [lowerAt]
  split
  · rename_i hc
    simp only [hc, forall_const]
    cases endsWord before after <;> cases endsWord before' after' <;> decide
  · rename_i hc
    simp [hc]

theorem sigmasAgree_cons {before after before' after' rest : List Char} {c : Char} :
    SigmasAgree before after before' after' (c :: rest) ↔
      (c = 'Σ' → endsWord before (rest ++ after) = endsWord before' (rest ++ after')) ∧
        SigmasAgree (c :: before) after (c :: before') after' rest := by
  constructor
  · intro h
    refine ⟨fun hc => h [] rest (by rw [hc]; rfl), fun front back hrest => ?_⟩
    simpa using h (c :: front) back (by rw [hrest]; rfl)
  · rintro ⟨hfirst, hrest⟩ front back hpart
    cases front with
    | nil =>
      obtain ⟨hc, rfl⟩ := List.cons.inj hpart
      exact hfirst hc
    | cons d front =>
      obtain ⟨rfl, hsplit⟩ := List.cons.inj hpart
      simpa using hrest front back hsplit

/-- A part has one lower-case form in two surroundings exactly if its capital sigmas agree. -/
theorem lowerWithin_eq_iff {before after before' after' part : List Char} :
    lowerWithin before after part = lowerWithin before' after' part ↔
      SigmasAgree before after before' after' part := by
  induction part generalizing before before' with
  | nil => simp [lowerWithin, SigmasAgree]
  | cons c rest ih =>
    rw [sigmasAgree_cons, ← ih, ← lowerAt_inj, lowerWithin, lowerWithin]
    constructor
    · exact fun h => List.append_inj h (length_lowerAt _ _ _ _ c)
    · rintro ⟨hfirst, hrest⟩
      rw [hfirst, hrest]

/-! ## Occurrences -/

theorem containsFolded_iff (text needle : String) :
    containsFolded text needle = true ↔ lowerCase needle <:+: lowerCase text :=
  occursIn_iff_infix _ _

/-- A needle is found where it occurs, if its capital sigmas end words there as they do
in the needle. -/
theorem containsFolded_of_agree {text needle : String} {before after : List Char}
    (occurs : text.toList = before ++ needle.toList ++ after)
    (agree : SigmasAgree before.reverse after [] [] needle.toList) :
    containsFolded text needle = true := by
  rw [containsFolded_iff]
  refine ⟨lowerWithin [] (needle.toList ++ after) before,
    lowerFrom (needle.toList.reverse ++ before.reverse) after, ?_⟩
  have hneedle : lowerCase needle = lowerWithin before.reverse after needle.toList := by
    rw [lowerCase_eq]
    exact (lowerWithin_eq_iff.mpr agree).symm
  rw [hneedle, lowerCase, occurs, List.append_assoc before, lowerFrom_append, lowerFrom_append,
    List.append_assoc, List.append_nil]

theorem Steady.agree {part : List Char} (h : Steady part) (before after : List Char) :
    SigmasAgree before after [] [] part := by
  intro front back hpart
  rw [(h front back hpart).endsWord_append, (h front back hpart).endsWord_append]

theorem not_infix_cons {needle text : List Char} {z : Char} (length : needle.length = text.length)
    (differs : needle ≠ text) (head : needle.head? ≠ some z) : ¬ needle <:+: z :: text := by
  rw [List.infix_cons_iff]
  rintro (hfirst | hlater)
  · cases needle with
    | nil => exact differs (List.eq_nil_of_length_eq_zero length.symm).symm
    | cons c rest =>
      rw [List.cons_prefix_cons] at hfirst
      exact head (congrArg some hfirst.1)
  · exact differs (hlater.eq_of_length length)

theorem not_infix_concat {needle text : List Char} {z : Char}
    (length : needle.length = text.length) (differs : needle ≠ text)
    (last : needle.getLast? ≠ some z) : ¬ needle <:+: text ++ [z] := by
  rw [← List.reverse_infix, List.reverse_concat]
  refine not_infix_cons (by simpa using length) ?_ (by simpa using last)
  exact fun h => differs (List.reverse_injective h)

/-- A small letter, which is its own lower-case form. -/
structure IsSmallLetter (z : Char) : Prop where
  heeded : isIgnorable z = false
  cased : isCased z = true
  lower : ∀ before after, lowerAt before after z = [z]

/-- Whatever character is to be avoided, there is another small letter. -/
theorem exists_letter (avoided : Option Char) : ∃ z, IsSmallLetter z ∧ avoided ≠ some z := by
  have ha : IsSmallLetter 'a' := ⟨by decide +kernel, by decide +kernel, fun _ _ => rfl⟩
  have hb : IsSmallLetter 'b' := ⟨by decide +kernel, by decide +kernel, fun _ _ => rfl⟩
  by_cases h : avoided = some 'a'
  · exact ⟨'b', hb, by simp [h]⟩
  · exact ⟨'a', ha, h⟩

theorem missed_after {needle : String} {z : Char} (letter : IsSmallLetter z)
    (head : (lowerCase needle).head? ≠ some z)
    (disagree : ¬ SigmasAgree [] [] [z] [] needle.toList) :
    containsFolded (String.ofList (z :: needle.toList)) needle = false := by
  have htext : lowerCase (String.ofList (z :: needle.toList)) =
      z :: lowerWithin [z] [] needle.toList := by
    rw [lowerCase, String.toList_ofList, lowerFrom_cons, letter.lower, lowerFrom_eq_lowerWithin]
    rfl
  rw [← Bool.not_eq_true, containsFolded_iff, htext]
  rw [lowerCase_eq] at head ⊢
  refine not_infix_cons ?_ ?_ head
  · exact length_lowerWithin _ _ _ _ _
  · exact fun h => disagree (lowerWithin_eq_iff.mp h)

theorem missed_before {needle : String} {z : Char} (letter : IsSmallLetter z)
    (last : (lowerCase needle).getLast? ≠ some z)
    (disagree : ¬ SigmasAgree [] [] [] [z] needle.toList) :
    containsFolded (String.ofList (needle.toList ++ [z])) needle = false := by
  have htext : lowerCase (String.ofList (needle.toList ++ [z])) =
      lowerWithin [] [z] needle.toList ++ [z] := by
    rw [lowerCase, String.toList_ofList, lowerFrom_append, lowerFrom_cons, letter.lower]
    rfl
  rw [← Bool.not_eq_true, containsFolded_iff, htext]
  rw [lowerCase_eq] at last ⊢
  refine not_infix_concat ?_ ?_ last
  · exact length_lowerWithin _ _ _ _ _
  · exact fun h => disagree (lowerWithin_eq_iff.mp h)

/-- A needle with a capital sigma that is not settled is missed in a text that has just
one more letter. -/
theorem exists_missed {needle : String} (h : ¬ Steady needle.toList) :
    ∃ text : String, needle.toList <:+: text.toList ∧ containsFolded text needle = false := by
  have hunsettled : ∃ front back, needle.toList = front ++ 'Σ' :: back ∧
      ¬ Settles front.reverse back := by
    simpa [Steady] using h
  obtain ⟨front, back, hpart, hunsettled⟩ := hunsettled
  rcases endsWord_ne_of_not_settles hunsettled with hchanges | hchanges
  · obtain ⟨z, letter, havoided⟩ := exists_letter (lowerCase needle).head?
    refine ⟨String.ofList (z :: needle.toList), ?_, missed_after letter havoided ?_⟩
    · rw [String.toList_ofList]
      exact (List.suffix_cons z _).isInfix
    · intro agree
      have hsame := agree front back hpart
      rw [List.append_nil, List.append_nil] at hsame
      exact hchanges z letter.heeded letter.cased hsame.symm
  · obtain ⟨z, letter, havoided⟩ := exists_letter (lowerCase needle).getLast?
    refine ⟨String.ofList (needle.toList ++ [z]), ?_, missed_before letter havoided ?_⟩
    · rw [String.toList_ofList]
      exact (List.prefix_append _ _).isInfix
    · intro agree
      have hsame := agree front back hpart
      rw [List.append_nil, List.append_nil] at hsame
      exact hchanges z letter.heeded letter.cased hsame.symm

/-- The needles that are found wherever they occur are those whose capital sigmas
are all settled. -/
theorem found_everywhere_iff (needle : String) :
    (∀ text : String, needle.toList <:+: text.toList → containsFolded text needle = true) ↔
      Steady needle.toList := by
  constructor
  · intro hfound
    by_contra h
    obtain ⟨text, occurs, hmissed⟩ := exists_missed h
    rw [hfound text occurs] at hmissed
    cases hmissed
  · rintro hsteady text ⟨before, after, occurs⟩
    exact containsFolded_of_agree occurs.symm (hsteady.agree _ _)

end Outreach.Text
