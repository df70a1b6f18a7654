import Outreach.Delivery.State

/-!
# Steps of a walk

A scheduled walk begins by drawing the delay of the first stage. When a delay has passed, the walk
draws whether its stage succeeds. On success the record advances, the stage is reported, and the
delay of the next stage is drawn. A walk ends with a miss, with a record that cannot be advanced, or
after the last stage.
-/

namespace Outreach.DeliveryState

/-- Lets a walk wait for a stage. -/
def awaitStage (s : DeliveryState) (e : PendingEntry Walk) (stage : Stage) : DeliveryState :=
  let (ms, s) := s.drawDelay (stage.delay s.settings)
  let (turn, s) := s.takeTurn e.work.turn ms
  let walk : Walk := { e.work with progress := .waiting stage (s.now.addMillis ms), turn }
  { s with agenda := s.agenda.progress e.ticket walk }

def endWalk (s : DeliveryState) (e : PendingEntry Walk) : DeliveryState :=
  { s with agenda := s.agenda.finish e.ticket }

/-- Reports that a walk has passed a stage and sends it on. -/
def passStage (s : DeliveryState) (e : PendingEntry Walk) (stage : Stage) : DeliveryState :=
  let s := s.emitMessage (.ofStatus stage.status) e.campaign e.work.customerId e.work.messageId
  match stage.next? with
  | some next => s.awaitStage e next
  | none => s.endWalk e

/-- Tries to take a walk past the stage that it has waited for. -/
def attemptStage (s : DeliveryState) (e : PendingEntry Walk) (stage : Stage) : DeliveryState :=
  let (hit, s) := s.chance (stage.probability s.settings)
  if hit then
    match s.advanceRecord e.record stage.status s.now with
    | .ok (.applied, s) => s.passStage e stage
    | .ok (_, s) => s.endWalk e
    | .error _ => s.endWalk e
  else s.endWalk e

/-- The next step of a pending walk. -/
def stepWalk (s : DeliveryState) (e : PendingEntry Walk) : DeliveryState :=
  match e.work.progress with
  | .scheduled _ => s.awaitStage e .delivered
  | .waiting stage _ => s.attemptStage e stage

end Outreach.DeliveryState
