import Outreach.Segment.Predicate

/-!
# Customer directory

The directory holds one record per customer id and answers queries by predicate. It keeps its
records in the order of their ids, so every answer comes in that order and does not depend on the
order in which the records arrived.
-/

namespace Outreach

structure Directory where
  /-- Strictly increasing by id. -/
  customers : List Customer

namespace Directory

open Segment

def empty : Directory := ⟨[]⟩

/-- Adds a customer, or replaces the record with the same id. -/
def put (d : Directory) (c : Customer) : Directory :=
  ⟨Sorted.put Customer.id c d.customers⟩

def ofList (customers : List Customer) : Directory :=
  ⟨Sorted.ofList Customer.id customers⟩

def size (d : Directory) : Nat :=
  d.customers.length

def get? (d : Directory) (id : String) : Option Customer :=
  Sorted.get? Customer.id id d.customers

/-- The customers that satisfy a predicate, by id. -/
def select (d : Directory) (p : Predicate) : List Customer :=
  d.customers.filter (p.satisfied ·)

def count (d : Directory) (p : Predicate) : Nat :=
  d.customers.countP (p.satisfied ·)

/-- The first of the customers that satisfy a predicate, or all of them. -/
def find (d : Directory) (p : Predicate) (limit : Option Nat) : List Customer :=
  match limit with
  | some n => (d.select p).take n
  | none => d.select p

theorem count_eq_length_select (d : Directory) (p : Predicate) :
    d.count p = (d.select p).length := by
  simp [count, select, List.countP_eq_length_filter]

theorem find_none (d : Directory) (p : Predicate) : d.find p none = d.select p := rfl

theorem mem_select {d : Directory} {p : Predicate} {c : Customer} :
    c ∈ d.select p ↔ c ∈ d.customers ∧ p.satisfied c = true := by
  simp [select]

end Directory

end Outreach
