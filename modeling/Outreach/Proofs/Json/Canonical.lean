import Outreach.Json.Basic
import Outreach.Proofs.Sorted

/-!
# Canonical form

To bring an object into canonical form is to rearrange its fields, if none of their names is given
twice, and to bring their values into canonical form. A value whose objects are sorted by distinct
names is in canonical form already, and if all of it is readable it is kept as it is.
-/

namespace Outreach.Json

variable {name : String} {fields : List (String × Json)}

/-! ## Fields with distinct names -/

theorem putIfAbsent_eq (j : Json) (absent : ∀ f ∈ fields, f.1 ≠ name) :
    putIfAbsent name j fields = Sorted.put Prod.fst (name, j) fields := by
  have hnone : Sorted.get? Prod.fst name fields = none := Sorted.get?_eq_none.mpr absent
  rw [putIfAbsent, hnone]

theorem putIfAbsent_perm (j : Json) (absent : ∀ f ∈ fields, f.1 ≠ name) :
    (putIfAbsent name j fields).Perm ((name, j) :: fields) := by
  rw [putIfAbsent_eq j absent]
  exact Sorted.put_perm Prod.fst (name, j) absent

/-- A field with its value in canonical form. -/
def canonicalField (field : String × Json) : String × Json :=
  (field.1, field.2.canonical)

theorem canonicalFields_perm (distinct : (fields.map Prod.fst).Nodup) :
    (canonicalFields fields).Perm (fields.map canonicalField) := by
  induction fields with
  | nil => rw [canonicalFields, List.map_nil]
  | cons field rest ih =>
    obtain ⟨name, j⟩ := field
    obtain ⟨hname, hrest⟩ := List.nodup_cons.mp distinct
    have hperm := ih hrest
    have absent : ∀ f ∈ canonicalFields rest, f.1 ≠ name := by
      intro f hf he
      obtain ⟨g, hg, rfl⟩ := List.mem_map.mp (hperm.mem_iff.mp hf)
      exact hname (List.mem_map.mpr ⟨g, hg, he⟩)
    rw [canonicalFields, List.map_cons]
    exact (putIfAbsent_perm j.canonical absent).trans (hperm.cons _)

/-! ## Values in canonical form -/

/-- Every object is sorted by distinct names, and every part has a value. -/
inductive Plain : Json → Prop
  | null : Plain .null
  | bool (b : Bool) : Plain (.bool b)
  | int (z : Int) : Plain (.int z)
  | float (x : Float) : Plain (.float x)
  | text (s : String) : Plain (.text s)
  | array {items : List Json} (parts : ∀ j ∈ items, Plain j) : Plain (.array items)
  | object {fields : List (String × Json)} (parts : ∀ f ∈ fields, Plain f.2)
      (sorted : fields.Pairwise fun f g => f.1 < g.1) : Plain (.object fields)

theorem canonicalItems_eq_map (items : List Json) : canonicalItems items = items.map canonical := by
  induction items with
  | nil => rw [canonicalItems, List.map_nil]
  | cons j rest ih => rw [canonicalItems, ih, List.map_cons]

theorem canonicalFields_eq (h : ∀ f ∈ fields, f.2.canonical = f.2)
    (sorted : fields.Pairwise fun f g => f.1 < g.1) : canonicalFields fields = fields := by
  induction fields with
  | nil => rw [canonicalFields]
  | cons field rest ih =>
    obtain ⟨name, j⟩ := field
    obtain ⟨hfirst, hrest⟩ := List.pairwise_cons.mp sorted
    have absent : ∀ f ∈ rest, f.1 ≠ name := fun f hf => (Std.ne_of_lt (hfirst f hf)).symm
    rw [canonicalFields, ih (fun f hf => h f (List.mem_cons_of_mem _ hf)) hrest,
      h (name, j) List.mem_cons_self, putIfAbsent_eq j absent]
    cases rest with
    | nil => rfl
    | cons f others => rw [Sorted.put, if_pos (hfirst f List.mem_cons_self)]

theorem areReadable_iff {items : List Json} :
    areReadable items = true ↔ ∀ j ∈ items, j.isReadable = true := by
  induction items with
  | nil => simp [areReadable]
  | cons j rest ih => simp [areReadable, ih]

theorem haveReadable_iff : haveReadable fields = true ↔ ∀ f ∈ fields, f.2.isReadable = true := by
  induction fields with
  | nil => simp [haveReadable]
  | cons f rest ih => simp [haveReadable, ih]

namespace Plain

variable {j : Json}

theorem canonical_eq (h : j.Plain) : j.canonical = j := by
  induction h with
  | array _ ih => rw [canonical, canonicalItems_eq_map, List.map_congr_left ih, List.map_id']
  | object _ sorted ih => rw [canonical, canonicalFields_eq ih sorted]
  | _ => rw [canonical]

theorem isReadable (h : j.Plain) : j.isReadable = true := by
  induction h with
  | array _ ih => rw [Json.isReadable, areReadable_iff.mpr ih]
  | object _ _ ih => rw [Json.isReadable, haveReadable_iff.mpr ih]
  | _ => rw [Json.isReadable]

/-- A value in canonical form is kept as it is. -/
theorem whole?_eq (h : j.Plain) : j.whole? = some j := by
  rw [whole?, if_pos h.isReadable, h.canonical_eq]

end Plain

/-! ## What is unreadable -/

mutual

theorem isReadable_canonical : ∀ j : Json, j.isReadable = true → j.canonical.isReadable = true
  | .array items, h => by
    rw [isReadable] at h
    rw [canonical, isReadable, areReadable_canonicalItems items h]
  | .object fields, h => by
    rw [isReadable] at h
    rw [canonical, isReadable, haveReadable_canonicalFields fields h]
  | .unreadable, h => h
  | .null, h | .bool _, h | .int _, h | .float _, h | .text _, h => h

theorem areReadable_canonicalItems :
    ∀ items : List Json, areReadable items = true → areReadable (canonicalItems items) = true
  | [], _ => rfl
  | j :: rest, h => by
    rw [areReadable, Bool.and_eq_true] at h
    rw [canonicalItems, areReadable, isReadable_canonical j h.1,
      areReadable_canonicalItems rest h.2, Bool.and_self]

theorem haveReadable_canonicalFields : ∀ fields : List (String × Json),
    haveReadable fields = true → haveReadable (canonicalFields fields) = true
  | [], _ => rfl
  | (name, j) :: rest, h => by
    rw [haveReadable, Bool.and_eq_true] at h
    have hfirst := isReadable_canonical j h.1
    have hrest := haveReadable_canonicalFields rest h.2
    rw [canonicalFields, putIfAbsent]
    cases Sorted.get? Prod.fst name (canonicalFields rest) with
    | some _ => exact hrest
    | none =>
      rw [haveReadable_iff] at hrest ⊢
      intro f hf
      rcases Sorted.mem_put hf with rfl | hf
      · exact hfirst
      · exact hrest f hf

end

end Outreach.Json
