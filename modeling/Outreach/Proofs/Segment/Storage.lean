import Outreach.Proofs.Segment.Meaning
import Outreach.Proofs.Time.WrittenForm

/-!
# Predicates that are kept as data

A predicate becomes a data value, and the data value becomes a predicate again. The form of the
predicate, its operators and its operands come back as they were. A field goes out by its place in a
customer record and comes back as whatever has that place. So a name in a rule that is not the name
of a known field, but reads like the place of one, is an attribute before and that field afterwards.
Rule sets whose fields have no such name are the ones whose predicates can be kept.
-/

namespace Outreach

theorem Instant.Proper.subDays {i : Instant} (h : i.Proper) (days : Int) :
    (i.subDays days).Proper := by
  rw [Instant.subDays]
  simp only [Proper] at *
  split
  · left
    dsimp only
    omega
  · dsimp only
    omega

namespace Segment

/-! ## What has a form as data -/

/-- Nothing of the operand is lost in its form as data. -/
def Operand.Storable : Operand → Prop
  | .number x => Decimal.isFinite x = true
  | .timestamp i => i.Proper ∧ i.inRange = true
  | .null | .bool _ | .text _ => True

theorem Operand.decode?_encode {a : Operand} (h : a.Storable) : decode? a.encode = some a := by
  cases a with
  | null => rfl
  | bool b => rfl
  | text s => rfl
  | number x =>
    have hx : Json.ofFloat x = .float x := if_pos h
    rw [encode, hx]
    rfl
  | timestamp i =>
    have hi : (Json.ofInstant i).instant? = some i := by
      rw [Json.ofInstant, Json.instant?, Json.text?, Option.bind_some, Time.read?_write h.1 h.2]
    rw [encode]
    generalize Json.ofInstant i = written at hi
    change written.instant?.map Operand.timestamp = _
    rw [hi, Option.map_some]

inductive Predicate.Storable : Predicate → Prop
  | all {parts : List Predicate} (storable : ∀ p ∈ parts, Storable p) : Storable (.all parts)
  | any {parts : List Predicate} (storable : ∀ p ∈ parts, Storable p) : Storable (.any parts)
  | compare {path : FieldPath} {op : Comparison} {operand : Operand}
      (storable : operand.Storable) : Storable (.compare path op operand)
  | contains {path : FieldPath} {needle : String} : Storable (.contains path needle)
  | unconstrained : Storable .unconstrained

/-! ## What comes back -/

/-- The path that the place of a path leads to. -/
def FieldPath.relocated (path : FieldPath) : FieldPath :=
  ofDataPath path.dataPath

theorem FieldPath.decode?_encode (path : FieldPath) : decode? path.encode = some path.relocated :=
  rfl

theorem Comparison.decode?_encode (op : Comparison) : decode? op.encode = some op :=
  ofSymbol?_symbol op

namespace Predicate

mutual

/-- The predicate with every path replaced by the one that its place leads to. -/
def relocated : Predicate → Predicate
  | .all parts => .all (relocatedAll parts)
  | .any parts => .any (relocatedAll parts)
  | .compare path op operand => .compare path.relocated op operand
  | .contains path needle => .contains path.relocated needle
  | .unconstrained => .unconstrained

def relocatedAll : List Predicate → List Predicate
  | [] => []
  | p :: rest => p.relocated :: relocatedAll rest

end

theorem relocatedAll_eq (parts : List Predicate) :
    relocatedAll parts = parts.map (·.relocated) := by
  induction parts with
  | nil => rw [relocatedAll, List.map_nil]
  | cons p rest ih => rw [relocatedAll, ih, List.map_cons]

theorem decodeCompare?_encode (path : FieldPath) (op : Comparison) {operand : Operand}
    (h : operand.Storable) :
    decodeCompare? (.object [("path", path.encode), ("op", op.encode),
      ("operand", operand.encode)]) = some (.compare path.relocated op operand) := by
  have hpath := FieldPath.decode?_encode path
  have hop := Comparison.decode?_encode op
  have hoperand := Operand.decode?_encode h
  generalize path.encode = writtenPath at hpath
  generalize op.encode = writtenOp at hop
  generalize operand.encode = writtenOperand at hoperand
  change ((FieldPath.decode? writtenPath).bind fun path => (Comparison.decode? writtenOp).bind
    fun op => (Operand.decode? writtenOperand).bind fun operand =>
      some (Predicate.compare path op operand)) = _
  rw [hpath, hop, hoperand]
  rfl

theorem decodeContains?_encode (path : FieldPath) (needle : String) :
    decodeContains? (.object [("path", path.encode), ("needle", .text needle)]) =
      some (.contains path.relocated needle) :=
  rfl

theorem decodeAll?_encodeAll {parts : List Predicate}
    (h : ∀ p ∈ parts, decode? p.encode = some p.relocated) :
    decodeAll? (encodeAll parts) = some (relocatedAll parts) := by
  induction parts with
  | nil => rw [encodeAll, decodeAll?, relocatedAll]
  | cons p rest ih =>
    have hrest := ih fun q hq => h q (List.mem_cons_of_mem p hq)
    rw [encodeAll, decodeAll?, h p List.mem_cons_self, hrest, relocatedAll]
    rfl

theorem decode?_encode {p : Predicate} (h : p.Storable) :
    decode? p.encode = some p.relocated := by
  induction h with
  | all _ ih => simp [encode, decode?, relocated, decodeAll?_encodeAll ih]
  | any _ ih => simp [encode, decode?, relocated, decodeAll?_encodeAll ih]
  | @compare path op operand storable =>
    simp [encode, decode?, relocated, decodeCompare?_encode path op storable]
  | @contains path needle => simp [encode, decode?, relocated, decodeContains?_encode]
  | unconstrained => simp [encode, decode?, relocated]

end Predicate

/-! ## Predicates of rules -/

/-- Every number among the values of the rules is finite. -/
def RuleSet.Finite (s : RuleSet) : Prop :=
  ∀ r ∈ s.rules, ∀ x, Operand.ofJson? r.value = some (.number x) → Decimal.isFinite x = true

variable {now : Instant}

theorem storable_cutoff {value : Json} {i : Instant} (proper : now.Proper)
    (h : cutoff? value now = some i) : (Operand.timestamp i).Storable := by
  obtain ⟨days, -, hi⟩ := Option.bind_eq_some_iff.mp h
  simp only [Instant.subDays?, Option.ite_none_right_eq_some, Option.some.injEq] at hi
  obtain ⟨represented, rfl⟩ := hi
  exact ⟨proper.subDays days, represented⟩

theorem storable_ofJson? {value : Json} {a : Operand} (h : Operand.ofJson? value = some a)
    (finite : ∀ x, Operand.ofJson? value = some (.number x) → Decimal.isFinite x = true) :
    a.Storable := by
  cases (denotes_iff value a).mpr h with
  | null => trivial
  | bool _ => trivial
  | int z => exact finite _ h
  | float x => exact finite x h
  | text _ => trivial

namespace Rule

theorem storable_operand {r : Rule} (path : FieldPath)
    (finite : ∀ x, Operand.ofJson? r.value = some (.number x) → Decimal.isFinite x = true) :
    (operand path r.value).Storable := by
  rw [operand]
  split
  · trivial
  · cases h : Operand.ofJson? r.value with
    | none => trivial
    | some a => exact storable_ofJson? h finite

theorem storable_toPredicate {r : Rule} (proper : now.Proper)
    (finite : ∀ x, Operand.ofJson? r.value = some (.number x) → Decimal.isFinite x = true) :
    (r.toPredicate now).Storable := by
  have hplain := storable_operand (FieldPath.ofRuleName r.field) finite
  rw [toPredicate]
  split
  · exact .contains
  · cases Comparison.ofSymbol? r.operator with
    | none => exact .unconstrained
    | some op =>
      dsimp only
      rw [comparison]
      split
      · cases hcutoff : cutoff? r.value now with
        | none => exact .compare hplain
        | some i => exact .compare (storable_cutoff proper hcutoff)
      · exact .compare hplain

/-- The one path that the predicate of a rule looks at is the path of the rule's field. -/
theorem relocated_toPredicate {r : Rule}
    (same : (FieldPath.ofRuleName r.field).relocated = FieldPath.ofRuleName r.field) :
    (r.toPredicate now).relocated = r.toPredicate now := by
  rw [toPredicate]
  split
  · rw [Predicate.relocated, same]
  · cases Comparison.ofSymbol? r.operator with
    | none => rw [Predicate.relocated]
    | some op =>
      dsimp only
      rw [comparison]
      split
      · cases cutoff? r.value now with
        | none => rw [Predicate.relocated, same]
        | some i => rw [Predicate.relocated, same]
      · rw [Predicate.relocated, same]

end Rule

theorem RuleSet.storable_toPredicate {s : RuleSet} (proper : now.Proper) (finite : s.Finite) :
    (s.toPredicate now).Storable := by
  have hparts : ∀ p ∈ s.rules.map (·.toPredicate now), p.Storable := by
    intro p hp
    obtain ⟨r, hr, rfl⟩ := List.mem_map.mp hp
    exact r.storable_toPredicate proper (finite r hr)
  rw [toPredicate]
  cases s.combinator with
  | and => exact .all hparts
  | or => exact .any hparts

theorem RuleSet.relocated_toPredicate {s : RuleSet}
    (same : ∀ r ∈ s.rules,
      (FieldPath.ofRuleName r.field).relocated = FieldPath.ofRuleName r.field) :
    (s.toPredicate now).relocated = s.toPredicate now := by
  have hparts : Predicate.relocatedAll (s.rules.map (·.toPredicate now)) =
      s.rules.map (·.toPredicate now) := by
    rw [Predicate.relocatedAll_eq, List.map_map]
    exact List.map_congr_left fun r hr => r.relocated_toPredicate (same r hr)
  rw [toPredicate]
  cases s.combinator with
  | and => simp only [Predicate.relocated, hparts]
  | or => simp only [Predicate.relocated, hparts]

/-! ## Names that lead back -/

/-- No field has this name for its place and another one in rules. -/
def Unambiguous (name : String) : Prop :=
  ∀ f : Field, f.dataPath = name → f.ruleName = name

theorem Unambiguous.relocated_eq {name : String} (h : Unambiguous name) :
    (FieldPath.ofRuleName name).relocated = FieldPath.ofRuleName name := by
  by_cases known : ∃ f : Field, f.ruleName = name
  · obtain ⟨f, rfl⟩ := known
    rw [FieldPath.ofRuleName_known, FieldPath.relocated, FieldPath.dataPath, FieldPath.ofDataPath,
      Field.ofDataPath?_dataPath]
  · have unknown : ∀ f : Field, f.ruleName ≠ name := fun f hf => known ⟨f, hf⟩
    have hnone : Field.ofDataPath? name = none := by
      rw [Field.ofDataPath?, List.find?_eq_none]
      intro f _
      simpa using fun hf => unknown f (h f hf)
    rw [FieldPath.ofRuleName_unknown unknown, FieldPath.relocated, FieldPath.dataPath,
      FieldPath.ofDataPath, hnone]

/-- A name in rules that is a place is the name of the field at that place, or of no field. -/
theorem ofRuleName_dataPath {f : Field} (other : f.ruleName ≠ f.dataPath) :
    FieldPath.ofRuleName f.dataPath = .custom f.dataPath := by
  apply FieldPath.ofRuleName_unknown
  intro g
  revert other
  cases f <;> cases g <;> decide

/-- The predicate of a rule that asks a customer for an attribute with a certain text. -/
theorem Rule.toPredicate_attribute {name : String}
    (unknown : FieldPath.ofRuleName name = .custom name) (t : String) (now : Instant) :
    (Rule.make name "==" (.text t)).toPredicate now = .compare (.custom name) .equal (.text t) := by
  have hop : Comparison.ofSymbol? "==" = some .equal := by decide
  have hother : ¬ "==" = containsSymbol := by decide
  simp only [toPredicate, make, unknown, if_neg hother, hop, comparison, operand, reduceCtorEq,
    if_false, Operand.ofJson?, Option.getD_some]

/-- The customer who has nothing but one empty text, under the name of a place. -/
def bearer (f : Field) : Customer :=
  ⟨"", "", none, true, .empty, .empty, ⟨none⟩, [(f.dataPath, .text "")]⟩

theorem bearer_satisfied (f : Field) :
    Predicate.satisfied (bearer f) (.all [.compare (.custom f.dataPath) .equal (.text "")]) =
      true := by
  cases f <;> rfl

/-- No known field of the customer holds a text. -/
theorem bearer_not_satisfied (f : Field) :
    Predicate.satisfied (bearer f) (.all [.compare (.known f) .equal (.text "")]) = false := by
  cases f <;> rfl

/-- The predicate of a rule set comes back with the same meaning for all rule sets over the given
names if and only if each of the names is unambiguous. -/
theorem RuleSet.toPredicate_survives_iff (names : List String) :
    (∀ (s : RuleSet) (now : Instant), now.Proper → s.Finite → (∀ r ∈ s.rules, r.field ∈ names) →
      ∃ p, Predicate.decode? (s.toPredicate now).encode = some p ∧
        ∀ c, p.satisfied c = (s.toPredicate now).satisfied c) ↔
      ∀ name ∈ names, Unambiguous name := by
  constructor
  · intro survives name hname f hf
    by_contra other
    subst hf
    let s : RuleSet := ⟨.and, [.make f.dataPath "==" (.text "")]⟩
    have hwithin : ∀ r ∈ s.rules, r.field ∈ names := by
      intro r hr
      rw [List.mem_singleton.mp hr]
      exact hname
    have hfinite : s.Finite := by
      intro r hr x hx
      rw [List.mem_singleton.mp hr] at hx
      cases hx
    have proper : Instant.Proper ⟨0, 0⟩ := .inl (by decide)
    have hpredicate : s.toPredicate ⟨0, 0⟩ =
        .all [.compare (.custom f.dataPath) .equal (.text "")] := by
      simp only [s, toPredicate, List.map_cons, List.map_nil,
        Rule.toPredicate_attribute (ofRuleName_dataPath other)]
    have hrelocated : (s.toPredicate ⟨0, 0⟩).relocated =
        .all [.compare (.known f) .equal (.text "")] := by
      rw [hpredicate]
      simp only [Predicate.relocated, Predicate.relocatedAll, FieldPath.relocated,
        FieldPath.dataPath, FieldPath.ofDataPath, Field.ofDataPath?_dataPath]
    obtain ⟨p, hp, agrees⟩ := survives s ⟨0, 0⟩ proper hfinite hwithin
    rw [Predicate.decode?_encode (s.storable_toPredicate proper hfinite), hrelocated,
      Option.some.injEq] at hp
    have hsame := agrees (bearer f)
    rw [← hp, hpredicate, bearer_satisfied, bearer_not_satisfied] at hsame
    cases hsame
  · intro unambiguous s now proper finite within
    refine ⟨s.toPredicate now, ?_, fun _ => rfl⟩
    rw [Predicate.decode?_encode (s.storable_toPredicate proper finite),
      s.relocated_toPredicate fun r hr => (unambiguous r.field (within r hr)).relocated_eq]

/-- A rule about the city comes back, next to one about an attribute. A rule about an attribute that
is named like the place of the city comes back as a rule about the city. -/
theorem RuleSet.city_survives :
    let now : Instant := ⟨1717200000, 0⟩
    let customer : Customer :=
      ⟨"cust-0", "Customer 0", none, true, .empty, .empty, ⟨none⟩, [("address.city", .text "Pune")]⟩
    let known : RuleSet := ⟨.or, [.make "city" "==" (.text "Pune"), .make "tier" ">" (.int 2)]⟩
    let mistaken : RuleSet := ⟨.or, [.make "address.city" "==" (.text "Pune")]⟩
    (∃ p, Predicate.decode? (known.toPredicate now).encode = some p ∧
      ∀ c, p.satisfied c = (known.toPredicate now).satisfied c) ∧
    ∃ p, Predicate.decode? (mistaken.toPredicate now).encode = some p ∧
      p.satisfied customer = false ∧ (mistaken.toPredicate now).satisfied customer = true := by
  intro now customer known mistaken
  constructor
  · have unambiguous : ∀ name ∈ ["city", "tier"], Unambiguous name := by
      simp only [List.mem_cons, List.not_mem_nil, or_false, forall_eq_or_imp, forall_eq]
      constructor <;> intro f <;> cases f <;> decide
    have proper : now.Proper := .inl (by decide)
    refine (toPredicate_survives_iff ["city", "tier"]).mpr unambiguous known now proper ?_ ?_
    · intro r hr x hx
      simp only [known, List.mem_cons, List.not_mem_nil, or_false] at hr
      rcases hr with rfl | rfl
      · cases hx
      · cases hx
        decide +kernel
    · simp [known, Rule.make]
  · exact ⟨_, rfl, rfl, rfl⟩

end Segment

end Outreach
