import Outreach.Proofs.Desk.Operations
import Outreach.Proofs.Segment.RuleSets
import Outreach.Proofs.Sorted

/-!
# Changes to the rules of a segment

A further rule makes a conjunction narrower and a disjunction wider, and the estimates follow the
customers that are matched. To put the rules in another order or to name one again is no change at
all: a campaign on the segment goes to the same customers in the same order.
-/

namespace Outreach

open Segment

/-- The same rules in another order, or with one of them named once more. -/
inductive Segment.Rearranges (rules : List Rule) : List Rule → Prop
  | permuted {rules' : List Rule} (order : rules'.Perm rules) : Rearranges rules rules'
  | repeated (before after : List Rule) (r : Rule) (split : before ++ after = rules)
      (named : r ∈ rules) : Rearranges rules (before ++ r :: after)

theorem Segment.Rearranges.alike {rules rules' : List Rule} (h : Rearranges rules rules')
    (combinator : Combinator) : RuleSet.Alike ⟨combinator, rules⟩ ⟨combinator, rules'⟩ := by
  refine ⟨rfl, fun r => ?_⟩
  cases h with
  | permuted order => exact order.mem_iff
  | repeated before after again split named =>
    rw [List.perm_middle.mem_iff, split, List.mem_cons, or_iff_right_of_imp]
    rintro rfl
    exact named

namespace Desk

/-- The customers that satisfy the rules now. -/
def matched (s : Desk) (rules : RuleSet) : List Customer :=
  s.catalog.directory.select (rules.toPredicate s.now)

/-- The rules are estimated at a number, unless the directory cannot count. -/
def Estimates (s : Desk) (rules : RuleSet) (count : Nat) : Prop :=
  s.estimate rules = (fun _ => count) <$> s.outages.check .countCustomers

/-- The desk with other rules for one of its segments. -/
def redefine (s : Desk) (segment : Segment) (rules : RuleSet) : Desk :=
  { s with catalog := s.catalog.insert { segment with rules } }

/-- Whoever is matched by the first rules is matched by the second, so that the first are estimated
at no more than the second. -/
structure Narrower (s : Desk) (a b : RuleSet) : Prop where
  matched : (s.matched a).Sublist (s.matched b)
  estimates : s.Estimates a (s.matched a).length ∧ s.Estimates b (s.matched b).length ∧
    (s.matched a).length ≤ (s.matched b).length

/-- It makes no difference which of the two sets of rules a segment has. -/
structure Indifferent (s : Desk) (a b : RuleSet) : Prop where
  matched : s.matched b = s.matched a
  estimate : s.estimate b = s.estimate a
  recipients (segment : Segment) (rules : segment.rules = a) :
    s.recipients { segment with rules := b } = s.recipients segment
  campaigns (segment : Segment) (rules : segment.rules = a)
    (kept : s.catalog.get? segment.id = some segment) (request : CampaignRequest)
    (owner : String) :
    (s.redefine segment b).openCampaign request owner =
      (fun opened => (opened.1, opened.2.redefine segment b)) <$> s.openCampaign request owner

variable {s : Desk} {a b : RuleSet} {segment : Segment}

theorem estimates_matched (valid : a.validate = .ok ()) :
    s.Estimates a (s.matched a).length := by
  have hcount : s.catalog.directory.count (a.toPredicate s.now) = (s.matched a).length :=
    Directory.count_eq_length_select _ _
  rw [Estimates, estimate, Catalog.estimate, valid, hcount]
  rfl

theorem matched_sublist (implied : ∀ c, (a.toPredicate s.now).satisfied c = true →
    (b.toPredicate s.now).satisfied c = true) : (s.matched a).Sublist (s.matched b) :=
  List.monotone_filter_right _ implied

theorem narrower_of_implied (valid_a : a.validate = .ok ()) (valid_b : b.validate = .ok ())
    (implied : ∀ c, (a.toPredicate s.now).satisfied c = true →
      (b.toPredicate s.now).satisfied c = true) : s.Narrower a b where
  matched := matched_sublist implied
  estimates := ⟨estimates_matched valid_a, estimates_matched valid_b,
    (matched_sublist implied).length_le⟩

/-! ## Rules that say the same -/

theorem matched_of_alike (alike : a.Alike b) : s.matched b = s.matched a := by
  rw [matched, matched, Directory.select, Directory.select]
  exact List.filter_congr fun c _ => alike.satisfied s.now c

theorem estimate_of_alike (alike : a.Alike b) (valid : a.validate = .ok ()) :
    s.estimate b = s.estimate a := by
  rw [estimates_matched valid, estimates_matched (alike.valid valid), matched_of_alike alike]

theorem recipients_of_matched (same : s.matched b = s.matched segment.rules) :
    s.recipients { segment with rules := b } = s.recipients segment := by
  have hmembers : s.catalog.members s.outages { segment with rules := b } s.now =
      s.catalog.members s.outages segment s.now := by
    rw [matched, matched] at same
    rw [Catalog.members, Catalog.members, Directory.find_none, Directory.find_none, same]
  rw [recipients, recipients, hmembers]

theorem get?_redefine (s : Desk) (segment : Segment) (rules : RuleSet) (id : Uuid) :
    (s.redefine segment rules).catalog.get? id =
      if segment.id = id then some { segment with rules } else s.catalog.get? id := by
  split
  · rename_i hid
    subst hid
    exact Sorted.get?_put_self Segment.id { segment with rules } s.catalog.segments
  · rename_i hid
    have hother : Segment.id { segment with rules } ≠ id := hid
    exact Sorted.get?_put_of_ne hother s.catalog.segments

/-- To open a campaign is the same task whether the segment has its own rules or others that match
the same customers. -/
theorem opening_redefine (kept : s.catalog.get? segment.id = some segment)
    (valid : segment.rules.validate = .ok ()) (valid_b : b.validate = .ok ())
    (same : s.matched b = s.matched segment.rules) (request : CampaignRequest) (owner : String) :
    (s.redefine segment b).opening request owner = s.opening request owner := by
  rw [opening, opening]
  refine bind_congr fun asked => ?_
  simp only [Catalog.owned, get?_redefine]
  split_ifs with hid
  · -- The campaign is on the segment itself.
    rw [← hid, kept]
    dsimp only
    split_ifs with howner
    · have hrecipients : (s.redefine segment b).recipients { segment with rules := b } =
          s.recipients segment := recipients_of_matched same
      change (b.validate >>= fun _ => (s.redefine segment b).recipients _ >>= _) =
        (segment.rules.validate >>= fun _ => s.recipients segment >>= _)
      rw [valid, valid_b, hrecipients]
      rfl
    · rfl
  · rfl

theorem openCampaign_redefine (kept : s.catalog.get? segment.id = some segment)
    (valid : segment.rules.validate = .ok ()) (valid_b : b.validate = .ok ())
    (same : s.matched b = s.matched segment.rules) (request : CampaignRequest) (owner : String) :
    (s.redefine segment b).openCampaign request owner =
      (fun opened => (opened.1, opened.2.redefine segment b)) <$>
        s.openCampaign request owner := by
  rw [openCampaign_eq, openCampaign_eq, opening_redefine kept valid valid_b same, ← comp_map]
  rfl

theorem indifferent_of_alike (alike : a.Alike b) (valid : a.validate = .ok ()) :
    s.Indifferent a b where
  matched := matched_of_alike alike
  estimate := estimate_of_alike alike valid
  recipients segment rules := by
    subst rules
    exact recipients_of_matched (matched_of_alike alike)
  campaigns segment rules kept := by
    subst rules
    exact openCampaign_redefine kept valid (alike.valid valid) (matched_of_alike alike)

/-! ## Changes -/

variable {combinator : Combinator} {rules : List Rule}

/-- Further rules make a conjunction narrower and a disjunction wider, order and repetition of the
rules make no difference, and a conjunction is narrower than the disjunction of its rules. -/
theorem rules_move_one_way (s : Desk) (valid : (RuleSet.mk combinator rules).validate = .ok ()) :
    (∀ before r after, before ++ after = rules →
      (RuleSet.mk combinator [r]).validate = .ok () →
        s.Narrower ⟨.and, before ++ r :: after⟩ ⟨.and, rules⟩ ∧
        s.Narrower ⟨.or, rules⟩ ⟨.or, before ++ r :: after⟩) ∧
      (∀ rules', Rearranges rules rules' →
        ∀ combinator', s.Indifferent ⟨combinator', rules⟩ ⟨combinator', rules'⟩) ∧
      s.Narrower ⟨.and, rules⟩ ⟨.or, rules⟩ := by
  refine ⟨?_, ?_, ?_⟩
  · rintro before r after rfl further
    have hkept : before ++ after ⊆ before ++ r :: after :=
      ((List.sublist_cons_self r after).append_left before).subset
    constructor
    · exact narrower_of_implied (RuleSet.valid_further valid further .and)
        (RuleSet.valid_under valid .and) fun c => RuleSet.satisfied_and_of_subset hkept
    · exact narrower_of_implied (RuleSet.valid_under valid .or)
        (RuleSet.valid_further valid further .or) fun c => RuleSet.satisfied_or_of_subset hkept
  · intro rules' rearranged combinator'
    exact indifferent_of_alike (rearranged.alike combinator')
      (RuleSet.valid_under valid combinator')
  · have nonempty : rules ≠ [] := (RuleSet.validate_eq_ok.mp valid).1
    exact narrower_of_implied (RuleSet.valid_under valid .and) (RuleSet.valid_under valid .or)
      fun c => RuleSet.satisfied_or_of_and nonempty

/-- Of three customers two are active. One of the two lives in Oslo, where another lives who is not
active. -/
theorem oslo_narrows_and_widens :
    let customer (id city : String) (isActive : Bool) : Customer :=
      { Customer.named id id with isActive, address := ⟨some city⟩ }
    let directory := Directory.ofList
      [customer "ada" "Oslo" true, customer "ben" "Rome" true, customer "cay" "Oslo" false]
    let s : Desk := ⟨.start directory .default, .ofState (Sample.delivery 1)⟩
    let active : Rule := .make "is_active" "==" (.bool true)
    let inOslo : Rule := .make "city" "==" (.text "Oslo")
    ((RuleSet.mk .and [active]).validate = .ok () ∧ (RuleSet.mk .and [inOslo]).validate = .ok ()) ∧
      (s.Narrower ⟨.and, [inOslo, active]⟩ ⟨.and, [active]⟩ ∧
        s.Narrower ⟨.or, [active]⟩ ⟨.or, [inOslo, active]⟩) ∧
      s.Indifferent ⟨.or, [active]⟩ ⟨.or, [active, active]⟩ ∧
      s.Narrower ⟨.and, [active]⟩ ⟨.or, [active]⟩ ∧
      s.estimate ⟨.and, [inOslo, active]⟩ = .ok 1 ∧ s.estimate ⟨.and, [active]⟩ = .ok 2 ∧
      s.estimate ⟨.or, [inOslo, active]⟩ = .ok 3 := by
  intro customer directory s active inOslo
  have valid : (RuleSet.mk .and [active]).validate = .ok () := by decide
  have further : (RuleSet.mk .and [inOslo]).validate = .ok () := by decide
  obtain ⟨adding, rearranging, joining⟩ := rules_move_one_way s valid
  refine ⟨⟨valid, further⟩, adding [] inOslo [active] rfl further, ?_, joining, ?_, ?_, ?_⟩
  · have twice : Rearranges [active] [active, active] :=
      .repeated [] [active] active rfl List.mem_cons_self
    exact rearranging [active, active] twice .or
  · decide +kernel
  · decide +kernel
  · decide +kernel

end Desk

end Outreach
