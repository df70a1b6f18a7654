import Outreach.Proofs.Delivery.Clock
import Outreach.Proofs.Delivery.Renaming

/-!
# Deliveries in lockstep

While no dispatch is under way, two deliveries that are alike stay alike whatever happens to both of
them: time passes, receipts arrive, campaigns are recounted or cancelled, calls go out of order. The
clock lets the same walk go next in both, because the order of tasks does not depend on identifiers.
So nobody who cannot compare identifiers ever tells them apart.
-/

namespace Outreach

variable {σ : Equiv.Perm Uuid}

namespace Task

def renamed (σ : Equiv.Perm Uuid) : Task → Task
  | walk e => walk (e.renamed σ)
  | dispatch r => dispatch r

@[simp] theorem ready_renamed (σ : Equiv.Perm Uuid) (a : Task) :
    (a.renamed σ).ready = a.ready := by
  cases a <;> rfl

@[simp] theorem turn_renamed (σ : Equiv.Perm Uuid) (a : Task) : (a.renamed σ).turn = a.turn := by
  cases a <;> rfl

@[simp] theorem stepsLeft_renamed (σ : Equiv.Perm Uuid) (a : Task) :
    (a.renamed σ).stepsLeft = a.stepsLeft := by
  cases a <;> rfl

@[simp] theorem precedes_renamed (σ : Equiv.Perm Uuid) (a b : Task) :
    (a.renamed σ).precedes (b.renamed σ) = a.precedes b := by
  simp only [precedes, ready_renamed, turn_renamed]

theorem first?_renamed (σ : Equiv.Perm Uuid) (tasks : List Task) :
    first? (tasks.map (renamed σ)) = (first? tasks).map (renamed σ) := by
  cases tasks with
  | nil => rfl
  | cons first rest =>
    rw [List.map_cons, first?, first?, Option.map_some, Option.some_inj]
    induction rest generalizing first with
    | nil => rfl
    | cons second rest ih =>
      rw [List.map_cons, List.foldl_cons, List.foldl_cons, precedes_renamed]
      split
      · exact ih second
      · exact ih first

end Task

/-- Something that can happen to a delivery that has no dispatch under way. -/
inductive Incident
  | pass (ms : Nat)
  | receive (receipt : Receipt)
  | recompute (campaign : Uuid)
  | cancel (campaign : Uuid)
  | setOutages (outages : Outages)

namespace Simulation

def undergo (s : Simulation) : Incident → Simulation
  | .pass ms => s.advance ms
  | .receive receipt => s.act (.receive receipt)
  | .recompute campaign => s.act (.recompute campaign)
  | .cancel campaign => s.act (.cancel campaign)
  | .setOutages outages => s.act (.setOutages outages)

def undergoAll (s : Simulation) (incidents : List Incident) : Simulation :=
  incidents.foldl undergo s

variable {s t : Simulation}

/-- Two deliveries without dispatches whose states are alike. -/
structure Alike (σ : Equiv.Perm Uuid) (s t : Simulation) : Prop where
  state : s.state.Alike σ t.state
  none_running : s.running = []
  none_running_right : t.running = []

namespace Alike

theorem of_state (h : Alike σ s t) {u v : DeliveryState} (state : u.Alike σ v) :
    Alike σ { s with state := u } { t with state := v } :=
  ⟨state, h.none_running, h.none_running_right⟩

theorem tasks (h : Alike σ s t) : t.tasks = s.tasks.map (Task.renamed σ) := by
  rw [Simulation.tasks, Simulation.tasks, h.none_running, h.none_running_right, h.state.agenda,
    Agenda.renamed]
  simp only [List.map_nil, List.append_nil, List.map_map]
  rfl

theorem next? (h : Alike σ s t) (inTime : Instant → Bool) :
    t.next? inTime = (s.next? inTime).map (Task.renamed σ) := by
  rw [Simulation.next?, Simulation.next?, h.tasks, List.filter_map, ← Task.first?_renamed]
  congr 2
  apply List.filter_congr
  intro a _
  rw [Function.comp_apply, Task.ready_renamed]

theorem stepsLeft (h : Alike σ s t) : t.stepsLeft = s.stepsLeft := by
  simp only [Simulation.stepsLeft, h.tasks, List.foldl_map, Task.stepsLeft_renamed]

theorem moveTo (h : Alike σ s t) (time : Instant) : Alike σ (s.moveTo time) (t.moveTo time) := by
  have hnow : t.now = s.now := h.state.now
  rw [Simulation.moveTo, Simulation.moveTo, hnow]
  split
  · exact h.of_state (h.state.moveTo time)
  · exact h

theorem step (h : Alike σ s t) {a : Task} (present : a ∈ s.tasks) :
    Alike σ (s.step a) (t.step (a.renamed σ)) := by
  cases a with
  | walk e => exact h.of_state (h.state.stepWalk e)
  | dispatch r =>
    rw [Simulation.tasks, h.none_running] at present
    simp at present

theorem runSteps (h : Alike σ s t) (inTime : Instant → Bool) (fuel : Nat) :
    Alike σ (runSteps inTime fuel s) (runSteps inTime fuel t) := by
  induction fuel generalizing s t with
  | zero => exact h
  | succ fuel ih =>
    rw [Simulation.runSteps, Simulation.runSteps, h.next?]
    cases hnext : s.next? inTime with
    | none => exact h
    | some a =>
      have hpresent : a ∈ s.tasks := (List.mem_filter.mp (Task.mem_of_first? hnext)).1
      have hmoved := h.moveTo a.ready
      have hstep := hmoved.step (by rwa [tasks_moveTo])
      rw [Option.map_some]
      dsimp only
      rw [Task.ready_renamed]
      exact ih hstep

theorem advance (h : Alike σ s t) (ms : Nat) : Alike σ (s.advance ms) (t.advance ms) := by
  have hnow : t.now = s.now := h.state.now
  rw [Simulation.advance, Simulation.advance, hnow, runUntil, runUntil, h.stepsLeft]
  exact (h.runSteps _ s.stepsLeft).moveTo _

/-- A call that is answered alike is made alike. -/
theorem attempt {α : Type} (h : Alike σ s t) (call : DeliveryState → Answer (α × DeliveryState))
    (answered : Answer.Rel (fun x y => y.1 = x.1 ∧ DeliveryState.Alike σ x.2 y.2) (call s.state)
      (call t.state)) : Alike σ (s.attempt call) (t.attempt call) := by
  rw [Simulation.attempt, Simulation.attempt]
  generalize call s.state = answer at answered ⊢
  generalize call t.state = answer' at answered ⊢
  cases answered with
  | error _ => exact h
  | ok related => exact h.of_state related.2

theorem undergo (h : Alike σ s t) (i : Incident) : Alike σ (s.undergo i) (t.undergo i) := by
  cases i with
  | pass ms => exact h.advance ms
  | receive receipt => exact h.attempt (·.receive receipt) (h.state.receive receipt)
  | recompute campaign => exact h.attempt (·.recompute campaign) (h.state.recompute campaign)
  | cancel campaign => exact h.of_state (h.state.cancelAll campaign)
  | setOutages outages => exact h.of_state { h.state with outages := rfl }

/-- What happens to both leaves them alike. -/
theorem undergoAll (h : Alike σ s t) (incidents : List Incident) :
    Alike σ (s.undergoAll incidents) (t.undergoAll incidents) := by
  induction incidents generalizing s t with
  | nil => exact h
  | cons i rest ih => exact ih (h.undergo i)

end Alike

/-! ## What can be told apart -/

/-- The pending walks in the order in which they were scheduled, each with the record it belongs to,
all without identifiers. -/
def walks (s : Simulation) : List (PendingEntry Walk × Option MessageRecord) :=
  s.state.agenda.pending.map fun e =>
    ({ e with record := .nil }, (s.state.records.get? e.record).map MessageRecord.anonymous)

/-- Nobody who cannot compare identifiers tells the deliveries apart. -/
structure Indistinguishable (s t : Simulation) : Prop where
  now : t.now = s.now
  campaigns : t.state.campaigns = s.state.campaigns
  created : t.state.records.created.map MessageRecord.anonymous =
    s.state.records.created.map MessageRecord.anonymous
  records : (t.state.records.records.map MessageRecord.anonymous).Perm
    (s.state.records.records.map MessageRecord.anonymous)
  events : t.state.recorder.events.map Event.anonymous =
    s.state.recorder.events.map Event.anonymous
  walks : t.walks = s.walks
  generator : t.state.generator = s.state.generator
  receipts : ∀ r, (t.state.receive r).map Prod.fst = (s.state.receive r).map Prod.fst
  recounts : ∀ id, (t.state.recompute id).map Prod.fst = (s.state.recompute id).map Prod.fst

theorem indistinguishable_of_alike (h : s.state.Alike σ t.state) : s.Indistinguishable t := by
  have hfst : ∀ {α : Type} {x y : Answer (α × DeliveryState)},
      Answer.Rel (fun a b => b.1 = a.1 ∧ DeliveryState.Alike σ a.2 b.2) x y →
        y.map Prod.fst = x.map Prod.fst := by
    intro α x y answered
    cases answered with
    | error _ => rfl
    | ok related => exact congrArg Except.ok related.1
  constructor
  · exact h.now
  · exact h.campaigns
  · rw [h.records.created, List.map_map]
    rfl
  · have hperm := h.records.records.map MessageRecord.anonymous
    rwa [List.map_map] at hperm
  · exact h.recorder.events
  · rw [walks, walks, h.agenda, Agenda.renamed, List.map_map]
    apply List.map_congr_left
    intro e _
    have hget : t.state.records.get? (e.renamed σ).record =
        (s.state.records.get? e.record).map (·.renamed σ) := h.records.get? e.record
    rw [Function.comp_apply, hget, Option.map_map]
    rfl
  · exact h.generator
  · exact fun r => hfst (h.receive r)
  · exact fun id => hfst (h.recompute id)

end Simulation

end Outreach
