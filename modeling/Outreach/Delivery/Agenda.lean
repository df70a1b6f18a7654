import Outreach.Uuid

/-!
# The agenda of pending work

Each message record has at most one piece of work pending, which belongs to the campaign of the
record. The work itself is held by the entry, so that an entry is pending exactly while its work
can still go on, and removing the entry aborts the work. New work for a record replaces the old. A
cancelled campaign stays cancelled, and no work is accepted for it any more.
-/

namespace Outreach

structure PendingEntry (α : Type) where
  record : Uuid
  campaign : Uuid
  /-- Entries are numbered in the order in which they were accepted. -/
  ticket : Nat
  work : α

structure Agenda (α : Type) where
  /-- In the order of their tickets. -/
  pending : List (PendingEntry α)
  cancelled : List Uuid
  nextTicket : Nat

namespace Agenda

variable {α : Type}

def empty : Agenda α := ⟨[], [], 0⟩

def refuses (s : Agenda α) (campaign : Uuid) : Bool :=
  s.cancelled.contains campaign

def hasPending (s : Agenda α) (record : Uuid) : Bool :=
  s.pending.any fun e => e.record == record

def size (s : Agenda α) : Nat :=
  s.pending.length

def countFor (s : Agenda α) (campaign : Uuid) : Nat :=
  s.pending.countP fun e => e.campaign == campaign

/-- Accepts work for a record in place of what was pending for it, unless the campaign is
cancelled. Tells whether the work was accepted. -/
def schedule (s : Agenda α) (record campaign : Uuid) (work : α) : Bool × Agenda α :=
  if s.refuses campaign then (false, s)
  else
    (true,
      { s with
        pending := (s.pending.filter fun e => e.record != record) ++
          [⟨record, campaign, s.nextTicket, work⟩]
        nextTicket := s.nextTicket + 1 })

/-- Aborts the work pending for a record and tells whether there was any. -/
def cancel (s : Agenda α) (record : Uuid) : Bool × Agenda α :=
  (s.hasPending record, { s with pending := s.pending.filter fun e => e.record != record })

/-- The records of a campaign that have work pending. -/
def recordsOf (s : Agenda α) (campaign : Uuid) : List Uuid :=
  (s.pending.filter fun e => e.campaign == campaign).map PendingEntry.record

/-- Aborts the work pending for each of some records and tells for how many there was any. -/
def cancelEach : List Uuid → Agenda α → Nat × Agenda α
  | [], s => (0, s)
  | record :: rest, s =>
    let (found, s) := s.cancel record
    let (count, s) := cancelEach rest s
    (found.toNat + count, s)

/-- Aborts all work of a campaign for good and tells how much there was. -/
def cancelAll (s : Agenda α) (campaign : Uuid) : Nat × Agenda α :=
  let s := { s with cancelled := campaign :: s.cancelled }
  cancelEach (s.recordsOf campaign) s

/-- Takes an entry off the list because its work has ended. -/
def finish (s : Agenda α) (ticket : Nat) : Agenda α :=
  { s with pending := s.pending.filter fun e => e.ticket != ticket }

/-- Puts on record how far the work of an entry has come. -/
def progress (s : Agenda α) (ticket : Nat) (work : α) : Agenda α :=
  { s with pending := s.pending.map fun e => if e.ticket = ticket then { e with work } else e }

/-- Draws a ticket for work that is not bound to a record. -/
def takeTicket (s : Agenda α) : Nat × Agenda α :=
  (s.nextTicket, { s with nextTicket := s.nextTicket + 1 })

def describe (s : Agenda α) : String :=
  "FunnelScheduler \x7b pending: " ++ toString s.size ++ " \x7d"

theorem schedule_fst (s : Agenda α) (record campaign : Uuid) (work : α) :
    (s.schedule record campaign work).1 = !s.refuses campaign := by
  simp only [schedule]
  split <;> simp_all

theorem mem_recordsOf {s : Agenda α} {campaign record : Uuid} :
    record ∈ s.recordsOf campaign ↔
      ∃ e ∈ s.pending, e.campaign = campaign ∧ e.record = record := by
  simp [recordsOf, and_assoc]

/-- Records called off one after the other leave the work of all others. -/
theorem cancelEach_snd (records : List Uuid) (s : Agenda α) :
    (cancelEach records s).2 =
      { s with pending := s.pending.filter fun e => !records.contains e.record } := by
  induction records generalizing s with
  | nil =>
    have hall : s.pending.filter (fun _ => true) = s.pending :=
      List.filter_eq_self.mpr fun _ _ => rfl
    simp [cancelEach, hall]
  | cons record rest ih =>
    simp only [cancelEach, cancel, ih, List.filter_filter, List.contains_cons, Bool.not_or,
      Bool.and_comm]
    rfl

theorem cancelAll_snd (s : Agenda α) (campaign : Uuid) :
    (s.cancelAll campaign).2 =
      { s with
        pending := s.pending.filter fun e => !(s.recordsOf campaign).contains e.record
        cancelled := campaign :: s.cancelled } :=
  cancelEach_snd _ _

theorem refuses_cancelAll (s : Agenda α) (campaign : Uuid) :
    (s.cancelAll campaign).2.refuses campaign = true := by
  simp [cancelAll_snd, refuses]

end Agenda

end Outreach
