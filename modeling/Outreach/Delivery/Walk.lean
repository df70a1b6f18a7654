import Outreach.Delivery.Settings

/-!
# Walks through the funnel

A walk takes one sent message through the stages of the funnel. Before a stage it waits for a drawn
delay. A walk that has only been scheduled has drawn nothing yet, so cancelling it then leaves the
generator alone.
-/

namespace Outreach

inductive WalkProgress
  /-- Not begun, and free to begin since an instant. -/
  | scheduled (since : Instant)
  /-- Waiting for a stage until an instant. -/
  | waiting (stage : Stage) (due : Instant)

structure Walk where
  customerId : String
  messageId : String
  progress : WalkProgress
  /-- Waits are numbered in the order in which they begin. -/
  turn : Nat

namespace Walk

/-- The instant from which the walk can take its next step. -/
def ready (w : Walk) : Instant :=
  match w.progress with
  | .scheduled since => since
  | .waiting _ due => due

/-- How many steps the walk can still take. -/
def stepsLeft (w : Walk) : Nat :=
  match w.progress with
  | .scheduled _ => 4
  | .waiting .delivered _ => 3
  | .waiting .opened _ => 2
  | .waiting .clicked _ => 1

end Walk

end Outreach
