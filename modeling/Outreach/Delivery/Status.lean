import Outreach.Answer
import Outreach.Json.Shape

/-!
# Delivery status

A message is queued or failed when its record is created, and a queued message may later be
delivered, opened and clicked. These four stages form the funnel, ordered by rank. A failed message
stands outside it and has no rank.
-/

namespace Outreach

inductive DeliveryStatus
  | queued
  | failed
  | delivered
  | opened
  | clicked
  deriving DecidableEq, Repr

namespace DeliveryStatus

/-- Position along the funnel. -/
def rank? : DeliveryStatus → Option Nat
  | queued => some 0
  | delivered => some 1
  | opened => some 2
  | clicked => some 3
  | failed => none

def name : DeliveryStatus → String
  | queued => "queued"
  | failed => "failed"
  | delivered => "delivered"
  | opened => "opened"
  | clicked => "clicked"

def all : List DeliveryStatus := [queued, failed, delivered, opened, clicked]

def ofName? (s : String) : Option DeliveryStatus :=
  all.find? fun d => d.name == s

/-- The status with a given name, or the reason why there is none. -/
def ofName (s : String) : Answer DeliveryStatus :=
  match ofName? s with
  | some d => .ok d
  | none => .error (.validation ("unknown delivery status '" ++ s ++ "'"))

def encode (d : DeliveryStatus) : Json :=
  .text d.name

def decode? (j : Json) : Option DeliveryStatus :=
  j.caseName?.bind ofName?

theorem ofName?_name (d : DeliveryStatus) : ofName? d.name = some d := by
  cases d <;> decide

end DeliveryStatus

end Outreach
