import Outreach.Delivery.Dispatch
import Outreach.Delivery.WalkStep

/-!
# Running deliveries through time

Walks and dispatches are tasks that take their steps in the background. Of all tasks that can take a
step by a given instant, the one that could take it first goes next, and among those the one that
began to wait first. A dispatch in the foreground goes before all of them. The clock moves only to
the instants at which tasks become ready and to the end of a run. Every task has a bounded number of
steps, so every run ends.
-/

namespace Outreach

/-- A dispatch in the background. -/
structure RunningDispatch where
  ticket : Nat
  /-- Nobody has asked for its end yet. -/
  registered : Bool
  dispatch : Dispatch

structure Simulation where
  state : DeliveryState
  /-- In the order of their tickets. -/
  running : List RunningDispatch

inductive Task
  | walk (entry : PendingEntry Walk)
  | dispatch (running : RunningDispatch)

namespace Task

def ready : Task → Instant
  | walk e => e.work.ready
  | dispatch r => r.dispatch.ready

def turn : Task → Nat
  | walk e => e.work.turn
  | dispatch r => r.dispatch.turn

def stepsLeft : Task → Nat
  | walk e => e.work.stepsLeft
  | dispatch r => r.dispatch.stepsLeft

/-- The order in which tasks take their steps. -/
def precedes (a b : Task) : Bool :=
  match a.ready.compare b.ready with
  | .lt => true
  | .eq => decide (a.turn < b.turn)
  | .gt => false

/-- The first of some tasks. -/
def first? : List Task → Option Task
  | [] => none
  | t :: rest => some (rest.foldl (fun best u => if u.precedes best then u else best) t)

end Task

namespace Simulation

def ofState (s : DeliveryState) : Simulation := ⟨s, []⟩

def now (s : Simulation) : Instant :=
  s.state.now

def withState (s : Simulation) (change : DeliveryState → DeliveryState) : Simulation :=
  { s with state := change s.state }

def tasks (s : Simulation) : List Task :=
  s.state.agenda.pending.map .walk ++ s.running.map .dispatch

/-- The task that goes next, of those that are ready in time. -/
def next? (s : Simulation) (inTime : Instant → Bool) : Option Task :=
  Task.first? (s.tasks.filter fun t => inTime t.ready)

/-- Moves the clock on to an instant, never back. -/
def moveTo (s : Simulation) (time : Instant) : Simulation :=
  if s.now < time then s.withState fun sim => { sim with now := time } else s

/-- Puts a dispatch in the place of its former state. One that has ended is dropped. -/
def replace (s : Simulation) (r : RunningDispatch) : Simulation :=
  { s with
    running :=
      if r.dispatch.isEnded then s.running.filter fun q => q.ticket != r.ticket
      else s.running.map fun q => if q.ticket = r.ticket then r else q }

def step (s : Simulation) : Task → Simulation
  | .walk e => s.withState fun sim => sim.stepWalk e
  | .dispatch r =>
    let (d, sim) := s.state.stepDispatch r.dispatch
    { s with state := sim }.replace { r with dispatch := d }

/-- A bound on the steps of all tasks and of those that they will start. -/
def stepsLeft (s : Simulation) : Nat :=
  s.tasks.foldl (fun n t => n + t.stepsLeft) 0

def runSteps (inTime : Instant → Bool) : Nat → Simulation → Simulation
  | 0, s => s
  | fuel + 1, s =>
    match s.next? inTime with
    | some t => runSteps inTime fuel ((s.moveTo t.ready).step t)
    | none => s

/-- Lets all tasks do what they can by an instant. -/
def runUntil (s : Simulation) (limit : Instant) : Simulation :=
  (runSteps (fun time => time ≤ limit) s.stepsLeft s).moveTo limit

/-- Lets all tasks do what they can before an instant. -/
def runBefore (s : Simulation) (limit : Instant) : Simulation :=
  (runSteps (fun time => time < limit) s.stepsLeft s).moveTo limit

/-- Lets all tasks do what they can now. -/
def settle (s : Simulation) : Simulation :=
  s.runUntil s.now

/-- Lets time pass. -/
def advance (s : Simulation) (ms : Nat) : Simulation :=
  s.runUntil (s.now.addMillis ms)

/-! ## Dispatches -/

def stepForeground : Nat → Dispatch → Simulation → Simulation
  | 0, _, s => s
  | fuel + 1, d, s =>
    if d.isEnded then s
    else
      let s := if d.ready ≤ s.now then s else s.runBefore d.ready
      let (d, sim) := s.state.stepDispatch d
      stepForeground fuel d { s with state := sim }

/-- Dispatches a campaign and waits for the end. The background goes on only while the dispatch
itself has to wait. -/
def dispatch (s : Simulation) (campaign : Uuid) (recipients : List String) : Simulation :=
  let d := Dispatch.start campaign recipients s.now 0
  stepForeground d.stepsLeft d s

/-- Begins to dispatch a campaign in the background. -/
def dispatchInBackground (s : Simulation) (campaign : Uuid) (recipients : List String) :
    Simulation :=
  let (ticket, agenda) := s.state.agenda.takeTicket
  let turn := s.state.turns
  { state := { s.state with agenda, turns := turn + 1 }
    running := s.running ++ [⟨ticket, true, .start campaign recipients s.now turn⟩] }

def isRegistered (s : Simulation) (campaign : Uuid) : Bool :=
  s.running.any fun r => r.registered && r.dispatch.campaign == campaign

/-- How many dispatches are registered. -/
def active (s : Simulation) : Nat :=
  s.running.countP (·.registered)

/-- Strikes a campaign's dispatch off the register. It keeps running. -/
def unregister (s : Simulation) (campaign : Uuid) : Simulation :=
  { s with
    running := s.running.map fun r =>
      if r.dispatch.campaign = campaign then { r with registered := false } else r }

def isRunning (s : Simulation) (campaign : Uuid) : Bool :=
  s.running.any fun r => r.dispatch.campaign == campaign

def runToEnd (campaign : Uuid) : Nat → Simulation → Simulation
  | 0, s => s
  | fuel + 1, s =>
    if s.isRunning campaign then
      match Task.first? s.tasks with
      | some t => runToEnd campaign fuel ((s.moveTo t.ready).step t)
      | none => s
    else s

/-- Strikes a campaign's dispatch off the register and waits for its end. Without one registered
there is nothing to wait for. -/
def wait (s : Simulation) (campaign : Uuid) : Simulation :=
  if s.isRegistered campaign then
    (runToEnd campaign s.stepsLeft (s.unregister campaign)).settle
  else s

/-- Aborts a campaign's dispatch, if one is registered. -/
def drop (s : Simulation) (campaign : Uuid) : Simulation :=
  { s with
    running := s.running.filter fun r => !(r.registered && r.dispatch.campaign == campaign) }

end Simulation

end Outreach
