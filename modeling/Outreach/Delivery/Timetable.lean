import Outreach.Delivery.Agenda

/-!
# Timed tasks

A timetable runs tasks that each end after a fixed time. The tasks run by themselves. The agenda
only registers them, an entry holding nothing but the ticket of its task, which is the handle to
abort it. A task that ends takes the entry with its own ticket off the agenda.

The timetable keeps a clock in milliseconds and the list of tasks that have ended, with the times
of their ends. When the clock advances, every task due by then ends at its due time, in the order
of due times and, among equal ones, of acceptance.
-/

namespace Outreach

structure TimedTask where
  name : Nat
  record : Uuid
  ticket : Nat
  due : Nat
  deriving DecidableEq, Repr

structure Timetable where
  clock : Nat
  agenda : Agenda Unit
  /-- The tasks that run, in the order of their tickets. -/
  tasks : List TimedTask
  /-- Due time and name of every task that has ended, the first to end first. -/
  ended : List (Nat × Nat)

namespace Timetable

def start : Timetable := ⟨0, .empty, [], []⟩

/-- The tasks that go on when those behind the given entries are aborted. -/
def sparedBy (t : Timetable) (entries : List (PendingEntry Unit)) : List TimedTask :=
  t.tasks.filter fun task => entries.all fun e => e.ticket != task.ticket

/-- Accepts a task that ends after the given time, and aborts the task registered for the record
before. -/
def schedule (t : Timetable) (record campaign : Uuid) (ms name : Nat) : Bool × Timetable :=
  let (accepted, agenda) := t.agenda.schedule record campaign ()
  let previous := t.agenda.pending.filter fun e => e.record == record
  let task := ⟨name, record, t.agenda.nextTicket, t.clock + ms⟩
  if accepted then (true, { t with agenda, tasks := t.sparedBy previous ++ [task] })
  else (false, t)

def cancel (t : Timetable) (record : Uuid) : Bool × Timetable :=
  let (found, agenda) := t.agenda.cancel record
  let entries := t.agenda.pending.filter fun e => e.record == record
  (found, { t with agenda, tasks := t.sparedBy entries })

def cancelAll (t : Timetable) (campaign : Uuid) : Nat × Timetable :=
  let (count, agenda) := t.agenda.cancelAll campaign
  let entries := t.agenda.pending.filter fun e => e.campaign == campaign
  (count, { t with agenda, tasks := t.sparedBy entries })

/-- The tasks due by a time, in the order in which they end. -/
def dueBy (t : Timetable) (time : Nat) : List TimedTask :=
  (t.tasks.filter fun task => decide (task.due ≤ time)).mergeSort
    fun a b => decide (a.due ≤ b.due)

/-- A task ends and takes its own entry off the agenda. -/
def finish (t : Timetable) (task : TimedTask) : Timetable :=
  { t with
    agenda := t.agenda.finish task.ticket
    tasks := t.tasks.filter fun other => other.ticket != task.ticket
    ended := t.ended ++ [(task.due, task.name)] }

/-- Moves the clock on and ends every task that is due by then. -/
def advance (t : Timetable) (ms : Nat) : Timetable :=
  let time := t.clock + ms
  { (t.dueBy time).foldl finish t with clock := time }

end Timetable

end Outreach
