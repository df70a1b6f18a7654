import Outreach.Json.Shape
import Outreach.Proofs.Json.Canonical
import Outreach.Proofs.Time.WrittenForm
import Outreach.Proofs.Uuid

/-!
# Reading what a record has written

A record is read off its fields by name, so the order of the fields does not matter. What is written
with distinct names is therefore read alike as it stands and in canonical form. Of the values that
are no records each kind is read back under the condition that it has a form as data: floats that
are finite, counts that fit a word, instants that can be represented, identifiers of 128 bits, and
free values whose objects are sorted.
-/

namespace Outreach

/-- The identifier has 128 bits. -/
def Uuid.Storable (u : Uuid) : Prop :=
  u.value < 2 ^ 128

/-- The instant can be represented. -/
structure Instant.Storable (i : Instant) : Prop where
  proper : i.Proper
  represented : i.inRange = true

namespace Json

/-- The value as it is written, or in canonical form. -/
def held (sorted : Bool) (j : Json) : Json :=
  if sorted then j.canonical else j

/-- The value stands for something, as it is written and in canonical form. -/
def Reads {α : Type} (decode? : Json → Option α) (j : Json) (a : α) : Prop :=
  ∀ sorted, decode? (j.held sorted) = some a

/-! ## Parts of records -/

def heldField (sorted : Bool) (field : String × Json) : String × Json :=
  (field.1, field.2.held sorted)

section Parts

variable {fields others : List (String × Json)} {layout : List Part}

/-- Only the order of the fields depends on how the object is held. -/
theorem held_object (distinct : (fields.map Prod.fst).Nodup) (sorted : Bool) :
    ∃ others, (object fields).held sorted = object others ∧
      others.Perm (fields.map (heldField sorted)) := by
  cases sorted with
  | false =>
    have hsame : heldField false = id := rfl
    exact ⟨fields, rfl, by rw [hsame, List.map_id]⟩
  | true =>
    refine ⟨canonicalFields fields, ?_, canonicalFields_perm distinct⟩
    rw [held, if_pos rfl, canonical]

theorem Part.ofFields?_perm (p : Part) (h : fields.Perm others) :
    p.ofFields? fields = p.ofFields? others := by
  have hown := h.filter fun f => p.names.contains f.1
  rw [ofFields?, ofFields?]
  generalize fields.filter (fun f => p.names.contains f.1) = own at hown
  generalize others.filter (fun f => p.names.contains f.1) = own' at hown
  match own, hown with
  | [], hown => rw [hown.nil_eq]
  | [f], hown => rw [hown.singleton_eq]
  | f :: g :: rest, hown =>
    have hlength := hown.length_eq
    match own', hlength with
    | _ :: _ :: _, _ => rfl

theorem Part.ofFields?_heldField (p : Part) (fields : List (String × Json)) (sorted : Bool) :
    p.ofFields? (fields.map (heldField sorted)) =
      (p.ofFields? fields).map (Option.map (held sorted)) := by
  have hfilter : (fields.map (heldField sorted)).filter (fun f => p.names.contains f.1) =
      (fields.filter fun f => p.names.contains f.1).map (heldField sorted) := List.filter_map
  rw [ofFields?, ofFields?, hfilter]
  generalize fields.filter (fun f => p.names.contains f.1) = own
  match own with
  | [] =>
    cases p.missing with
    | refused => rfl
    | null => cases sorted <;> rfl
    | default => rfl
  | [_] => rfl
  | _ :: _ :: _ => rfl

theorem partsOfFields?_held {sorted : Bool} (h : others.Perm (fields.map (heldField sorted))) :
    partsOfFields? layout others =
      (partsOfFields? layout fields).map (List.map (Option.map (held sorted))) := by
  have hpart : ∀ p : Part, p.ofFields? others =
      (p.ofFields? fields).map (Option.map (held sorted)) := by
    intro p
    rw [p.ofFields?_perm h, p.ofFields?_heldField]
  induction layout with
  | nil => rfl
  | cons p rest ih =>
    simp only [partsOfFields?, List.mapM_cons, hpart] at ih ⊢
    rw [ih]
    cases p.ofFields? fields with
    | none => rfl
    | some part =>
      cases rest.mapM (·.ofFields? fields) with
      | none => rfl
      | some parts => rfl

variable {parts : List (Option Json)}

/-- The parts of a record that has written fields with distinct names. -/
theorem parts?_held (distinct : (fields.map Prod.fst).Nodup)
    (h : partsOfFields? layout fields = some parts) (sorted : Bool) :
    ((object fields).held sorted).parts? layout = some (parts.map (Option.map (held sorted))) := by
  obtain ⟨others, hheld, hperm⟩ := held_object distinct sorted
  rw [hheld, parts?, partsOfFields?_held hperm, h, Option.map_some]

/-- The parts of a record that has written just one field for each. -/
theorem parts?_held_all (distinct : (fields.map Prod.fst).Nodup)
    (h : partsOfFields? layout fields = some (fields.map fun f => some f.2)) (sorted : Bool) :
    ((object fields).held sorted).parts? layout =
      some (fields.map fun f => some (f.2.held sorted)) := by
  rw [parts?_held distinct h, List.map_map]
  rfl

/-- The parts of a record whose last field is left out when absent. -/
theorem parts?_held_optional {name : String} {x : Option String}
    (distinct : (fields.map Prod.fst ++ [name]).Nodup)
    (h : ∀ x, partsOfFields? layout (fields ++ optionalField name x) =
      some (fields.map (fun f => some f.2) ++ [x.map text])) (sorted : Bool) :
    ((object (fields ++ optionalField name x)).held sorted).parts? layout =
      some (fields.map (fun f => some (f.2.held sorted)) ++ [(x.map text).map (held sorted)]) := by
  have hnames : ((fields ++ optionalField name x).map Prod.fst).Nodup := by
    cases x with
    | none =>
      rw [optionalField, List.append_nil]
      exact (List.nodup_append.mp distinct).1
    | some s =>
      rw [optionalField, List.map_append]
      exact distinct
  rw [parts?_held hnames (h x), List.map_append, List.map_map]
  rfl

/-- Fields of another record in the same object make no difference. -/
theorem partsOfFields?_beside (apart : ∀ f ∈ others, isOwn layout f = false) :
    partsOfFields? layout (fields ++ others) = partsOfFields? layout fields := by
  have hpart : ∀ p ∈ layout, p.ofFields? (fields ++ others) = p.ofFields? fields := by
    intro p hp
    have hnone : others.filter (fun f => p.names.contains f.1) = [] := by
      rw [List.filter_eq_nil_iff]
      intro f hf hown
      have hany : isOwn layout f = true := List.any_eq_true.mpr ⟨p, hp, hown⟩
      rw [apart f hf] at hany
      cases hany
    rw [Part.ofFields?, Part.ofFields?, List.filter_append, hnone, List.append_nil]
  induction layout with
  | nil => rfl
  | cons p rest ih =>
    have hrest := ih (fun f hf => (Bool.or_eq_false_iff.mp (apart f hf)).2)
      fun q hq => hpart q (List.mem_cons_of_mem p hq)
    simp only [partsOfFields?, List.mapM_cons] at hrest ⊢
    rw [hpart p List.mem_cons_self, hrest]

/-- The parts of a record that has written its fields beside those of another one. -/
theorem ownParts?_held (distinct : (fields.map Prod.fst).Nodup)
    (readable : ∀ f ∈ fields, isOwn layout f = true ∨ f.2.isReadable = true)
    (h : partsOfFields? layout fields = some parts) (sorted : Bool) :
    ((object fields).held sorted).ownParts? layout =
      some (parts.map (Option.map (held sorted))) := by
  obtain ⟨others, hheld, hperm⟩ := held_object distinct sorted
  have hothers : (others.all fun f => isOwn layout f || f.2.isReadable) = true := by
    rw [List.all_eq_true]
    intro f hf
    obtain ⟨g, hg, rfl⟩ := List.mem_map.mp (hperm.mem_iff.mp hf)
    rw [Bool.or_eq_true]
    rcases readable g hg with hown | hreadable
    · exact .inl hown
    · right
      cases sorted with
      | false => exact hreadable
      | true => exact isReadable_canonical g.2 hreadable
  rw [hheld, ownParts?, if_pos hothers, partsOfFields?_held hperm, h, Option.map_some]

end Parts

/-! ## What every written form has -/

theorem isReadable_ofFloat (x : Float) : (ofFloat x).isReadable = true := by
  rw [ofFloat]
  split <;> rfl

theorem isReadable_ofOption {α : Type} {encode : α → Json} (x : Option α)
    (h : ∀ a, (encode a).isReadable = true) : (ofOption encode x).isReadable = true := by
  cases x with
  | none => rfl
  | some a => exact h a

theorem haveReadable_append {fields others : List (String × Json)}
    (hfields : haveReadable fields = true) (hothers : haveReadable others = true) :
    haveReadable (fields ++ others) = true := by
  rw [haveReadable_iff] at *
  intro f hf
  exact (List.mem_append.mp hf).elim (hfields f) (hothers f)

theorem haveReadable_optionalField (name : String) (x : Option String) :
    haveReadable (optionalField name x) = true := by
  cases x <;> rfl

/-! ## Values of each kind -/

theorem Plain.held_eq {j : Json} (h : j.Plain) (sorted : Bool) : j.held sorted = j := by
  cases sorted with
  | false => rfl
  | true => exact h.canonical_eq

variable {α : Type} {decode? : Json → Option α} {encode : α → Json}

/-- A value in canonical form need only be read once. -/
theorem Plain.reads {j : Json} {a : α} (h : j.Plain) (once : decode? j = some a) :
    Reads decode? j a := by
  intro sorted
  rw [h.held_eq sorted, once]

theorem reads_text (s : String) : Reads text? (.text s) s :=
  (Plain.text s).reads rfl

theorem reads_bool (b : Bool) : Reads bool? (.bool b) b :=
  (Plain.bool b).reads rfl

theorem reads_float {x : Float} (finite : Decimal.isFinite x = true) :
    Reads float? (.ofFloat x) x := by
  rw [ofFloat, if_pos finite]
  exact (Plain.float x).reads rfl

theorem natBelow?_ofNat {bound n : Nat} (fits : n < bound) :
    natBelow? bound (.ofNat n) = some n := by
  have hfits : (0 : Int) ≤ n ∧ (n : Int) < bound := by omega
  rw [ofNat, natBelow?, if_pos hfits, Int.toNat_natCast]

theorem reads_word64 {n : Nat} (fits : n < 2 ^ 64) : Reads word64? (.ofNat n) n :=
  (Plain.int n).reads (natBelow?_ofNat fits)

theorem reads_word32 (n : UInt32) : Reads word32? (.ofNat n.toNat) n := by
  have hn : natBelow? (Nat.pow 2 32) (.ofNat n.toNat) = some n.toNat := natBelow?_ofNat n.toNat_lt
  rw [ofNat] at hn ⊢
  apply (Plain.int n.toNat).reads
  rw [word32?, hn, Option.map_some, UInt32.ofNat_toNat]

theorem reads_instant {i : Instant} (h : i.Storable) : Reads instant? (.ofInstant i) i := by
  rw [ofInstant]
  apply (Plain.text _).reads
  rw [instant?, text?, Option.bind_some, Time.read?_write h.proper h.represented]

theorem reads_uuid {u : Uuid} (h : u.Storable) : Reads uuid? (.ofUuid u) u := by
  rw [ofUuid]
  apply (Plain.text _).reads
  rw [uuid?, text?, Option.bind_some, Uuid.ofText?_toText h]

theorem reads_whole {j : Json} (h : j.Plain) : Reads whole? j j :=
  h.reads h.whole?_eq

theorem reads_fields {fields : List (String × Json)} (h : (Json.object fields).Plain) :
    Reads fields? (.object fields) fields :=
  h.reads (by rw [fields?, h.whole?_eq])

theorem caseName?_text (s : String) : caseName? (.text s) = some s :=
  rfl

theorem sharedCaseName?_text (s : String) : sharedCaseName? (.text s) = some s :=
  rfl

/-- A case is read off its name, in whichever way a case is named. -/
theorem reads_case {caseName? : Json → Option String} {ofName? : String → Option α} {s : String}
    {a : α} (plain : ∀ s, caseName? (.text s) = some s) (h : ofName? s = some a) :
    Reads (fun j => (caseName? j).bind ofName?) (.text s) a :=
  (Plain.text s).reads (by rw [plain, Option.bind_some, h])

theorem reads_option {x : Option α} (empty : decode? .null = none)
    (h : ∀ a ∈ x, Reads decode? (encode a) a) : Reads (option? decode?) (ofOption encode x) x := by
  cases x with
  | none => exact Plain.null.reads rfl
  | some a =>
    intro sorted
    have ha := h a rfl sorted
    rw [ofOption]
    generalize (encode a).held sorted = j at ha
    cases j with
    | null =>
      rw [empty] at ha
      cases ha
    | _ => rw [option?, ha, Option.map_some]; rintro ⟨⟩

theorem reads_optionalText (x : Option String) : Reads (option? text?) (ofOption .text x) x :=
  reads_option rfl fun s _ => reads_text s

theorem reads_optionalInstant {x : Option Instant} (h : ∀ i ∈ x, i.Storable) :
    Reads (option? instant?) (ofOption ofInstant x) x :=
  reads_option rfl fun i hi => reads_instant (h i hi)

/-- A text that is left out when absent is read as its default. -/
theorem givenOr?_optional (x : Option String) (sorted : Bool) :
    givenOr? none (option? text?) ((x.map Json.text).map (held sorted)) = some x := by
  cases x with
  | none => rfl
  | some s => exact reads_optionalText (some s) sorted

theorem reads_list {xs : List α} (h : ∀ a ∈ xs, Reads decode? (encode a) a) :
    Reads (list? decode?) (.array (xs.map encode)) xs := by
  intro sorted
  have hheld : (Json.array (xs.map encode)).held sorted =
      .array (xs.map fun a => (encode a).held sorted) := by
    cases sorted with
    | false => rfl
    | true => rw [held, if_pos rfl, canonical, canonicalItems_eq_map, List.map_map]; rfl
  rw [hheld, list?]
  clear hheld
  induction xs with
  | nil => rfl
  | cons a rest ih =>
    have hrest := ih fun b hb => h b (List.mem_cons_of_mem a hb)
    rw [List.map_cons, List.mapM_cons, h a List.mem_cons_self sorted, hrest]
    rfl

end Json

end Outreach
