import Mathlib.Data.List.Induction
import Mathlib.Data.List.Nodup
import Outreach.Sorted

/-!
# Lists kept by a key: what putting and changing do

Putting an entry adds it to the entries that stay, and those are all entries with another key. Few
of the facts here ask the list to be in order, since a look-up stops at the first entry with its key
wherever that stands. A list that is built by putting is in order and has each key once, and of the
entries put with one key it has the last.
-/

namespace Outreach.Sorted

universe u v

variable {κ : Type u} {α : Type v} [DecidableEq κ]

theorem get?_eq_some {key : α → κ} {k : κ} {entries : List α} {a : α}
    (h : get? key k entries = some a) : a ∈ entries ∧ key a = k :=
  ⟨List.mem_of_find?_eq_some h, by simpa using List.find?_some h⟩

theorem get?_eq_none {key : α → κ} {k : κ} {entries : List α} :
    get? key k entries = none ↔ ∀ a ∈ entries, key a ≠ k := by
  simp [get?]

theorem get?_of_mem {key : α → κ} {entries : List α} (distinct : (entries.map key).Nodup) {a : α}
    (ha : a ∈ entries) : get? key (key a) entries = some a := by
  cases h : get? key (key a) entries with
  | none => exact absurd rfl (get?_eq_none.mp h a ha)
  | some b =>
    obtain ⟨hb, hkey⟩ := get?_eq_some h
    rw [List.inj_on_of_nodup_map distinct hb ha hkey]

/-- A change that keeps keys is seen by the look-up of exactly the key that it is for. -/
theorem get?_modify {key : α → κ} (change : α → α) (keeps : ∀ a, key (change a) = key a)
    (k j : κ) (entries : List α) :
    get? key j (modify key k change entries) =
      if j = k then (get? key j entries).map change else get? key j entries := by
  induction entries with
  | nil => simp [modify, get?]
  | cons b rest ih =>
    have hkey : key (if key b = k then change b else b) = key b := by
      split
      · exact keeps b
      · rfl
    have hcons : modify key k change (b :: rest) =
        (if key b = k then change b else b) :: modify key k change rest := rfl
    rw [hcons]
    by_cases hb : key b = j
    · subst hb
      by_cases hk : key b = k
      · simp [get?, keeps, hk]
      · simp [get?, hk]
    · have hskip : ∀ l, get? key j ((if key b = k then change b else b) :: l) = get? key j l := by
        intro l
        simp [get?, hkey, hb]
      have hold : get? key j (b :: rest) = get? key j rest := by
        simp [get?, hb]
      rw [hskip, hold, ih]

theorem get?_remove (key : α → κ) (k j : κ) (entries : List α) :
    get? key j (remove key k entries) = if j = k then none else get? key j entries := by
  rw [get?, remove, List.find?_filter]
  by_cases h : j = k
  · rw [if_pos h, List.find?_eq_none]
    intro a _
    simp [h]
  · rw [if_neg h, get?]
    congr 1
    funext a
    by_cases ha : key a = j
    · simp [ha, h]
    · simp [ha]

/-! ## Entries of one kind -/

theorem get?_filter {key : α → κ} {entries : List α} (distinct : (entries.map key).Nodup) (k : κ)
    (p : α → Bool) : get? key k (entries.filter p) = (get? key k entries).filter p := by
  cases h : get? key k entries with
  | none =>
    rw [Option.filter_none, get?_eq_none]
    exact fun b hb => get?_eq_none.mp h b (List.mem_filter.mp hb).1
  | some a =>
    obtain ⟨ha, rfl⟩ := get?_eq_some h
    by_cases hp : p a = true
    · have hdistinct : ((entries.filter p).map key).Nodup :=
        distinct.sublist (List.filter_sublist.map key)
      rw [get?_of_mem hdistinct (List.mem_filter.mpr ⟨ha, hp⟩), Option.filter_some, if_pos hp]
    · rw [Option.filter_some, if_neg hp, get?_eq_none]
      intro b hb he
      obtain ⟨hmem, hpb⟩ := List.mem_filter.mp hb
      rw [List.inj_on_of_nodup_map distinct hmem ha he] at hpb
      exact hp hpb

/-- A change of entries of another kind is not seen among those of one kind. -/
theorem filter_modify {key : α → κ} {k : κ} {change : α → α} {p : α → Bool} {entries : List α}
    (apart : ∀ b ∈ entries, key b = k → p b = false ∧ p (change b) = false) :
    (modify key k change entries).filter p = entries.filter p := by
  induction entries with
  | nil => rfl
  | cons b rest ih =>
    have hrest := ih fun c hc => apart c (List.mem_cons_of_mem b hc)
    rw [modify, List.map_cons, ← modify]
    by_cases hb : key b = k
    · obtain ⟨hbefore, hafter⟩ := apart b List.mem_cons_self hb
      rw [if_pos hb, List.filter_cons_of_neg (by simp [hafter]),
        List.filter_cons_of_neg (by simp [hbefore]), hrest]
    · rw [if_neg hb, List.filter_cons, List.filter_cons, hrest]

theorem filter_remove {key : α → κ} {k : κ} {p : α → Bool} {entries : List α}
    (apart : ∀ b ∈ entries, key b = k → p b = false) :
    (remove key k entries).filter p = entries.filter p := by
  rw [remove, List.filter_filter]
  apply List.filter_congr
  intro b hb
  by_cases hk : key b = k
  · simp [apart b hb hk]
  · simp [hk]

variable [LT κ] [DecidableLT κ]

theorem filter_put {key : α → κ} {a : α} {p : α → Bool} {entries : List α} (out : p a = false)
    (apart : ∀ b ∈ entries, key b = key a → p b = false) :
    (put key a entries).filter p = entries.filter p := by
  induction entries with
  | nil => simp [put, out]
  | cons b rest ih =>
    simp only [put]
    split
    · rw [List.filter_cons_of_neg (by simp [out])]
    · split
      · rename_i he
        have hb : p b = false := apart b List.mem_cons_self he.symm
        rw [List.filter_cons_of_neg (by simp [out]), List.filter_cons_of_neg (by simp [hb])]
      · rw [List.filter_cons, List.filter_cons,
          ih fun c hc => apart c (List.mem_cons_of_mem b hc)]

/-! ## Look-ups and putting -/

theorem get?_put_self (key : α → κ) (a : α) (entries : List α) :
    get? key (key a) (put key a entries) = some a := by
  induction entries with
  | nil => simp [put, get?]
  | cons b rest ih =>
    simp only [put]
    split
    · simp [get?]
    · split
      · simp [get?]
      · rename_i hne
        have hb : key b ≠ key a := fun he => hne he.symm
        simpa [get?, List.find?_cons, hb] using ih

theorem get?_put_of_ne {key : α → κ} {a : α} {k : κ} (hne : key a ≠ k) (entries : List α) :
    get? key k (put key a entries) = get? key k entries := by
  induction entries with
  | nil => simp [put, get?, hne]
  | cons b rest ih =>
    simp only [put]
    split
    · simp [get?, hne]
    · split
      · rename_i he
        have hb : key b ≠ k := fun h => hne (he.trans h)
        simp [get?, hne, hb]
      · by_cases hb : key b = k
        · simp [get?, hb]
        · simpa [get?, List.find?_cons, hb] using ih

/-- Among the entries of one kind, putting an entry replaces nothing if none of them has its key. -/
theorem filter_put_perm (key : α → κ) (a : α) (p : α → Bool) {entries : List α}
    (apart : ∀ b ∈ entries, p b = true → key b ≠ key a) :
    ((put key a entries).filter p).Perm ([a].filter p ++ entries.filter p) := by
  induction entries with
  | nil => simp [put]
  | cons b rest ih =>
    simp only [put]
    split
    · rw [List.filter_cons]
      split
      · rename_i hp
        simp [hp]
      · rename_i hp
        simp [hp]
    · split
      · rename_i he
        have hb : ¬ p b = true := fun hp => apart b List.mem_cons_self hp he.symm
        rw [List.filter_cons_of_neg hb, ← List.filter_append]
        exact List.Perm.refl _
      · have hrest := ih (fun c hc => apart c (List.mem_cons_of_mem _ hc))
        by_cases hp : p b = true
        · rw [List.filter_cons_of_pos hp, List.filter_cons_of_pos hp]
          exact (hrest.cons b).trans List.perm_middle.symm
        · rw [List.filter_cons_of_neg hp, List.filter_cons_of_neg hp]
          exact hrest

theorem put_perm (key : α → κ) (a : α) {entries : List α} (fresh : ∀ b ∈ entries, key b ≠ key a) :
    (put key a entries).Perm (a :: entries) := by
  simpa using filter_put_perm key a (fun _ => true) fun b hb _ => fresh b hb

/-- Where no key is put twice, nothing is replaced. -/
theorem ofList_perm {key : α → κ} {entries : List α} (distinct : (entries.map key).Nodup) :
    (ofList key entries).Perm entries := by
  induction entries using List.reverseRecOn with
  | nil => exact List.Perm.refl _
  | append_singleton rest a ih =>
    rw [List.map_append, List.nodup_append] at distinct
    obtain ⟨hrest, -, hnew⟩ := distinct
    have hperm := ih hrest
    have hfresh : ∀ b ∈ ofList key rest, key b ≠ key a := fun b hb =>
      hnew (key b) (List.mem_map_of_mem (hperm.mem_iff.mp hb)) (key a) (by simp)
    rw [ofList, List.foldl_concat, ← ofList]
    exact ((put_perm key a hfresh).trans (hperm.cons a)).trans
      (List.perm_append_singleton a rest).symm

/-- Of several entries with one key the last one put is found. -/
theorem get?_ofList (key : α → κ) (k : κ) (entries : List α) :
    get? key k (ofList key entries) = entries.reverse.find? fun a => decide (key a = k) := by
  induction entries using List.reverseRecOn with
  | nil => rfl
  | append_singleton rest a ih =>
    have hput : ofList key (rest ++ [a]) = put key a (ofList key rest) := by
      simp only [ofList, List.foldl_concat]
    rw [hput, List.reverse_concat, List.find?_cons]
    by_cases ha : key a = k
    · rw [← ha, get?_put_self]
      simp
    · rw [get?_put_of_ne ha, ih]
      simp [ha]

/-! ## Order -/

variable [LE κ] [Std.IsLinearOrder κ] [Std.LawfulOrderLT κ]

theorem pairwise_put {key : α → κ} (a : α) {entries : List α}
    (h : entries.Pairwise fun x y => key x < key y) :
    (put key a entries).Pairwise fun x y => key x < key y := by
  induction entries with
  | nil => exact List.pairwise_singleton _ a
  | cons b rest ih =>
    obtain ⟨hfirst, hrest⟩ := List.pairwise_cons.mp h
    simp only [put]
    split
    · rename_i hlt
      refine List.pairwise_cons.mpr ⟨?_, h⟩
      intro x hx
      rcases List.mem_cons.mp hx with rfl | hx
      · exact hlt
      · exact Std.lt_trans hlt (hfirst x hx)
    · rename_i hge
      split
      · rename_i heq
        refine List.pairwise_cons.mpr ⟨?_, hrest⟩
        intro x hx
        rw [heq]
        exact hfirst x hx
      · rename_i hne
        refine List.pairwise_cons.mpr ⟨?_, ih hrest⟩
        intro x hx
        rcases mem_put hx with rfl | hx
        · exact Std.lt_of_le_of_ne (Std.not_lt.mp hge) fun he => hne he.symm
        · exact hfirst x hx

theorem pairwise_ofList (key : α → κ) (entries : List α) :
    (ofList key entries).Pairwise fun x y => key x < key y := by
  have hfold : ∀ done : List α, (done.Pairwise fun x y => key x < key y) →
      (entries.foldl (fun done a => put key a done) done).Pairwise fun x y => key x < key y := by
    induction entries with
    | nil => exact fun done h => h
    | cons a rest ih => exact fun done h => ih (put key a done) (pairwise_put a h)
  exact hfold [] List.Pairwise.nil

omit [DecidableEq κ] [DecidableLT κ] [Std.IsLinearOrder κ] in
theorem nodup_keys {key : α → κ} {entries : List α}
    (h : entries.Pairwise fun x y => key x < key y) : (entries.map key).Nodup := by
  rw [List.Nodup, List.pairwise_map]
  exact h.imp fun hlt => Std.ne_of_lt hlt

theorem mem_ofList {key : α → κ} {entries : List α} {a : α} :
    a ∈ ofList key entries ↔ entries.reverse.find? (fun b => decide (key b = key a)) = some a := by
  rw [← get?_ofList]
  constructor
  · exact get?_of_mem (nodup_keys (pairwise_ofList key entries))
  · exact fun h => (get?_eq_some h).1

omit [DecidableLT κ] in
/-- Lists in the order of a key are equal where the same entries are found in them. -/
theorem eq_of_get? {key : α → κ} {xs ys : List α} (hxs : xs.Pairwise fun a b => key a < key b)
    (hys : ys.Pairwise fun a b => key a < key b) (same : ∀ k, get? key k xs = get? key k ys) :
    xs = ys := by
  have hmem : ∀ {l l' : List α}, (l.Pairwise fun a b => key a < key b) →
      (∀ k, get? key k l = get? key k l') → ∀ a ∈ l, a ∈ l' := by
    intro l l' hl hsame a ha
    have hget := get?_of_mem (nodup_keys hl) ha
    rw [hsame] at hget
    exact (get?_eq_some hget).1
  have hnodup : ∀ {l : List α}, (l.Pairwise fun a b => key a < key b) → l.Nodup :=
    fun hl => (nodup_keys hl).of_map key
  have hperm : xs.Perm ys := (List.perm_ext_iff_of_nodup (hnodup hxs) (hnodup hys)).mpr fun a =>
    ⟨hmem hxs same a, hmem hys (fun k => (same k).symm) a⟩
  refine hperm.eq_of_pairwise ?_ hxs hys
  intro a b _ _ hab hba
  exact absurd (Std.lt_trans hab hba) Std.lt_irrefl

end Outreach.Sorted
