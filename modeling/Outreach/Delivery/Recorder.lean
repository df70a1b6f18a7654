import Outreach.Delivery.Event

/-!
# Event recorders

Events are handed to a recorder as they happen. A capturing recorder keeps all of them in order, so
that a run can be examined afterwards. A silent one lets them go.
-/

namespace Outreach

structure EventRecorder where
  captures : Bool
  /-- The events kept, the latest first. -/
  kept : List Event

namespace EventRecorder

def capturing : EventRecorder := ⟨true, []⟩

def silent : EventRecorder := ⟨false, []⟩

def emit (s : EventRecorder) (e : Event) : EventRecorder :=
  if s.captures then { s with kept := e :: s.kept } else s

/-- The events kept, in the order in which they happened. -/
def events (s : EventRecorder) : List Event :=
  s.kept.reverse

def count (s : EventRecorder) (type : EventKind) : Nat :=
  s.kept.countP fun e => e.type == type

theorem events_emit {s : EventRecorder} (h : s.captures = true) (e : Event) :
    (s.emit e).events = s.events ++ [e] := by
  simp [emit, events, h]

end EventRecorder

end Outreach
