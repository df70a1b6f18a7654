import Outreach.Proofs.Segment.Meaning
import Outreach.Proofs.Text.LowerCase

/-!
# Rules that look for a text

A rule with the operator for occurrence puts its needle and the text into lower case, each as a
whole. So it finds the needle wherever it occurs, letter case disregarded, as long as the needle
comes out inside the text as it does alone. Needles whose capital sigmas are settled always do,
among them all needles without one, and every other needle is missed in some text in which it
occurs.
-/

namespace Outreach.Segment

/-- A name that can show a text can show any text. -/
theorem Shows.any_text {c : Customer} {name s : String} (h : Shows c name (.text s)) (t : String) :
    ∃ c', Shows c' name (.text t) := by
  cases h with
  | city _ => exact ⟨{ c with address := ⟨some t⟩ }, .city rfl⟩
  | gender _ =>
    exact ⟨{ c with demographics := { c.demographics with gender := some t } }, .gender rfl⟩
  | occupation _ =>
    exact ⟨{ c with demographics := { c.demographics with occupation := some t } }, .occupation rfl⟩
  | custom unknown _ _ =>
    refine ⟨{ c with attributes := [(name, .text t)] }, .custom unknown ?_ (.text t)⟩
    simp [Customer.attribute?, Sorted.get?]

namespace Rule

variable {r : Rule} {c : Customer} {s : String}

theorem satisfied_of_shown (operator : r.operator = "contains")
    (shown : Shows c r.field (.text s)) (now : Instant) :
    (r.toPredicate now).satisfied c = Text.containsFolded s (needle r.value) := by
  have hsymbol : r.operator = containsSymbol := operator
  rw [toPredicate, if_pos hsymbol, Predicate.satisfied, (shows_iff c r.field (.text s)).mp shown]
  rfl

/-- A rule finds its needle in every text in which it occurs exactly if what stands around each
capital sigma of the needle settles its form. It finds any needle where the capital sigmas end words
in the text as they do in the needle. -/
theorem finds_occurrences_iff (operator : r.operator = "contains")
    (textual : ∃ c s, Shows c r.field (.text s)) :
    let sought := (needle r.value).toList
    ((∀ now c s, Shows c r.field (.text s) → sought <:+: s.toList →
        (r.toPredicate now).satisfied c = true) ↔ Text.Steady sought) ∧
      ∀ now c s before after, Shows c r.field (.text s) →
        s.toList = before ++ sought ++ after →
        Text.SigmasAgree before.reverse after [] [] sought →
        (r.toPredicate now).satisfied c = true := by
  intro sought
  refine ⟨?_, ?_⟩
  · rw [← Text.found_everywhere_iff]
    constructor
    · intro hfinds t occurs
      obtain ⟨c, s, shown⟩ := textual
      obtain ⟨c', shown'⟩ := shown.any_text t
      rw [← satisfied_of_shown operator shown' ⟨0, 0⟩]
      exact hfinds ⟨0, 0⟩ c' t shown' occurs
    · intro hfound now c s shown occurs
      rw [satisfied_of_shown operator shown]
      exact hfound s occurs
  · intro now c s before after shown occurs agree
    rw [satisfied_of_shown operator shown]
    exact Text.containsFolded_of_agree occurs agree

/-- In capitals, the first letters of a city are missed where they end in a sigma that does not end
the word. A needle in which the sigma is followed by a letter is found in every city. -/
theorem first_letters_are_missed :
    let resident (city : String) : Customer :=
      { Customer.named "cust-00" "Customer 0" with address := ⟨some city⟩ }
    let rule (needle : String) : Rule := .make "city" "contains" (.text needle)
    let day : Instant := ⟨0, 0⟩
    "ΘΕΣ".toList <:+: "ΘΕΣΣΑΛΟΝΙΚΗ".toList ∧
      ((rule "ΘΕΣ").toPredicate day).satisfied (resident "ΘΕΣΣΑΛΟΝΙΚΗ") = false ∧
      ¬ Text.Steady "ΘΕΣ".toList ∧
      ∀ city : String, "ΣΑΛ".toList <:+: city.toList →
        ((rule "ΣΑΛ").toPredicate day).satisfied (resident city) = true := by
  intro resident rule day
  have occurs : "ΘΕΣ".toList <:+: "ΘΕΣΣΑΛΟΝΙΚΗ".toList := ⟨[], "ΣΑΛΟΝΙΚΗ".toList, by decide⟩
  have missed : ((rule "ΘΕΣ").toPredicate day).satisfied (resident "ΘΕΣΣΑΛΟΝΙΚΗ") = false := by
    decide +kernel
  have textual : ∃ c s, Shows c "city" (.text s) := ⟨resident "", "", .city rfl⟩
  refine ⟨occurs, missed, ?_, ?_⟩
  · intro steady
    have hfinds := (finds_occurrences_iff (r := rule "ΘΕΣ") rfl textual).1.mpr steady
    rw [hfinds day (resident "ΘΕΣΣΑΛΟΝΙΚΗ") _ (.city rfl) occurs] at missed
    cases missed
  · have steady : Text.Steady "ΣΑΛ".toList := by
      intro front back hsplit
      cases front with
      | nil =>
        obtain ⟨-, rfl⟩ := List.cons.inj hsplit
        exact .someAfter (c := 'Α') (by decide +kernel) (by decide +kernel)
      | cons d front =>
        have hmem : 'Σ' ∈ ['Α', 'Λ'] := by
          rw [show ['Α', 'Λ'] = front ++ 'Σ' :: back from (List.cons.inj hsplit).2]
          simp
        exact absurd hmem (by decide)
    intro city hcity
    exact (finds_occurrences_iff (r := rule "ΣΑΛ") rfl textual).1.mpr steady day (resident city)
      city (.city rfl) hcity

end Rule

end Outreach.Segment
