/-!
# Lists kept in the order of a key

Directories and books keep their entries in a list that is strictly increasing by a key read off
each entry. Putting an entry replaces the one with the same key, so a list built by `put` alone has
each key once.
Answers that must come in key order are then the list itself.
-/

namespace Outreach.Sorted

universe u v

variable {κ : Type u} {α : Type v} [LT κ] [DecidableLT κ] [DecidableEq κ]

/-- Adds an entry at its place, or replaces the entry that has its key. -/
def put (key : α → κ) (a : α) : List α → List α
  | [] => [a]
  | b :: rest =>
    if key a < key b then a :: b :: rest
    else if key a = key b then a :: rest
    else b :: put key a rest

/-- The entry with a given key. -/
def get? (key : α → κ) (k : κ) (entries : List α) : Option α :=
  entries.find? fun a => decide (key a = k)

/-- The entries without the one that has the given key. -/
def remove (key : α → κ) (k : κ) (entries : List α) : List α :=
  entries.filter fun a => decide (key a ≠ k)

/-- Changes the entry that has the given key. The change must keep the key. -/
def modify (key : α → κ) (k : κ) (change : α → α) (entries : List α) : List α :=
  entries.map fun a => if key a = k then change a else a

/-- The list of all entries put one after the other, so that later ones win. -/
def ofList (key : α → κ) (entries : List α) : List α :=
  entries.foldl (fun done a => put key a done) []

theorem mem_put {key : α → κ} {a x : α} {entries : List α} (h : x ∈ put key a entries) :
    x = a ∨ x ∈ entries := by
  induction entries with
  | nil => simp_all [put]
  | cons b rest ih =>
    simp only [put] at h
    split at h
    · simpa using h
    · split at h
      · rcases List.mem_cons.mp h with h | h
        · exact .inl h
        · exact .inr (List.mem_cons_of_mem _ h)
      · rcases List.mem_cons.mp h with h | h
        · exact .inr (h ▸ List.mem_cons_self)
        · rcases ih h with h | h
          · exact .inl h
          · exact .inr (List.mem_cons_of_mem _ h)

theorem mem_put_self (key : α → κ) (a : α) (entries : List α) : a ∈ put key a entries := by
  induction entries with
  | nil => simp [put]
  | cons b rest ih =>
    simp only [put]
    split
    · exact List.mem_cons_self
    · split
      · exact List.mem_cons_self
      · exact List.mem_cons_of_mem _ ih

end Outreach.Sorted
