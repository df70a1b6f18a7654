import Outreach.Json.Basic

/-!
# Settings tables

Settings in tables are built up entry by entry. A table comes to be by its own header, on the way
of a longer header, or on the way of a dotted key, and what it may still take depends on that.

* A header opens a table that is new or has only been on the way of longer headers.
* A header in double brackets adds a table to the tables of its name.
* A dotted key passes through every table without a header of its own, but it may only end in one
  that came to be by a dotted key.
* No key stands twice.
-/

namespace Outreach.Toml

/-- How a table came to be. -/
inductive Origin
  | header
  | passage
  | dotted
  deriving DecidableEq, Repr

inductive Entry
  | value (j : Json)
  | table (origin : Origin) (entries : List (String × Entry))
  /-- Tables of one name, the last one apart and those before it with the latest first. -/
  | tables (last : List (String × Entry)) (earlier : List (List (String × Entry)))

/-- A table, sorted by name. -/
abbrev Table := List (String × Entry)

namespace Table

def get? (t : Table) (name : String) : Option Entry :=
  (Sorted.get? Prod.fst name t).map Prod.snd

def put (t : Table) (name : String) (e : Entry) : Table :=
  Sorted.put Prod.fst (name, e) t

/-- Adds a value under a new name. -/
def add? (name : String) (j : Json) (t : Table) : Option Table :=
  match t.get? name with
  | some _ => none
  | none => some (t.put name (.value j))

/-- Changes the table that the names of a header lead to. -/
def reach? (change : Table → Option Table) : List String → Table → Option Table
  | [], t => change t
  | name :: path, t => do
    let e ← match t.get? name with
      | none => (reach? change path []).map (.table .passage ·)
      | some (.value _) => none
      | some (.table origin inner) => (reach? change path inner).map (.table origin ·)
      | some (.tables last earlier) => (reach? change path last).map (.tables · earlier)
    some (t.put name e)

/-- Adds a value where a dotted key leads. -/
def insert? (j : Json) : List String → Table → Option Table
  | [], _ => none
  | [name], t => t.add? name j
  | name :: next :: path, t => do
    let e ← match t.get? name with
      | none => (insert? j (next :: path) []).map (.table .dotted ·)
      | some (.table .dotted inner) => (insert? j (next :: path) inner).map (.table .dotted ·)
      | some (.table .passage inner) =>
        if path.isEmpty then none
        else (insert? j (next :: path) inner).map (.table .passage ·)
      | some (.tables last earlier) =>
        if path.isEmpty then none
        else (insert? j (next :: path) last).map (.tables · earlier)
      | some (.table .header _) | some (.value _) => none
    some (t.put name e)

/-- Opens the table of a header under its last name. -/
def openTable? (name : String) (t : Table) : Option Table :=
  match t.get? name with
  | none => some (t.put name (.table .header []))
  | some (.table .passage inner) => some (t.put name (.table .header inner))
  | _ => none

/-- Opens one more table of a name. -/
def openItem? (name : String) (t : Table) : Option Table :=
  match t.get? name with
  | none => some (t.put name (.tables [] []))
  | some (.tables last earlier) => some (t.put name (.tables [] (last :: earlier)))
  | _ => none

end Table

mutual

def Entry.toJson : Entry → Json
  | .value j => j
  | .table _ entries => .object (fieldsOf entries)
  | .tables last earlier => .array (itemsOf earlier [.object (fieldsOf last)])

/-- The fields of an object with the entries of a table. -/
def fieldsOf : List (String × Entry) → List (String × Json)
  | [] => []
  | (name, e) :: rest => (name, e.toJson) :: fieldsOf rest

/-- Tables in order, given those with the latest first and what comes after them. -/
def itemsOf : List (List (String × Entry)) → List Json → List Json
  | [], later => later
  | t :: earlier, later => itemsOf earlier (.object (fieldsOf t) :: later)

end

end Outreach.Toml
