import Outreach.Delivery.Status

/-!
# Delivery events

Every step in the life of a campaign and of its messages is reported as an event. What reports the
arrival of a message at a status is named after the status.
-/

namespace Outreach

inductive EventKind
  | campaignProcessing
  | campaignCompleted
  | campaignFailed
  | messageQueued
  | messageFailed
  | messageDelivered
  | messageOpened
  | messageClicked
  | receiptApplied
  deriving DecidableEq, Repr

structure Event where
  id : Uuid
  type : EventKind
  campaignId : Uuid
  customerId : Option String
  messageId : Option String
  nodeId : String
  timestamp : Instant
  deriving DecidableEq

namespace EventKind

def name : EventKind → String
  | campaignProcessing => "campaign_processing"
  | campaignCompleted => "campaign_completed"
  | campaignFailed => "campaign_failed"
  | messageQueued => "message_queued"
  | messageFailed => "message_failed"
  | messageDelivered => "message_delivered"
  | messageOpened => "message_opened"
  | messageClicked => "message_clicked"
  | receiptApplied => "receipt_applied"

def all : List EventKind :=
  [campaignProcessing, campaignCompleted, campaignFailed, messageQueued, messageFailed,
    messageDelivered, messageOpened, messageClicked, receiptApplied]

/-- The event that reports a message's arrival at a status. -/
def ofStatus : DeliveryStatus → EventKind
  | .queued => messageQueued
  | .failed => messageFailed
  | .delivered => messageDelivered
  | .opened => messageOpened
  | .clicked => messageClicked

def encode (t : EventKind) : Json :=
  .text t.name

def decode? (j : Json) : Option EventKind :=
  j.caseName?.bind fun name => all.find? fun t => t.name == name

end EventKind

namespace Event

def layout : List Json.Part :=
  [.required "event_id", .required "event_type", .required "campaign_id", .optional "customer_id",
    .optional "message_id", .required "node_id", .required "timestamp"]

def encode (e : Event) : Json :=
  .object [("event_id", .ofUuid e.id), ("event_type", e.type.encode),
    ("campaign_id", .ofUuid e.campaignId), ("customer_id", .ofOption .text e.customerId),
    ("message_id", .ofOption .text e.messageId), ("node_id", .text e.nodeId),
    ("timestamp", .ofInstant e.timestamp)]

def decode? (j : Json) : Option Event :=
  match j.parts? layout with
  | some [id, type, campaignId, customerId, messageId, nodeId, timestamp] => do
    let id ← Json.given? Json.uuid? id
    let type ← Json.given? EventKind.decode? type
    let campaignId ← Json.given? Json.uuid? campaignId
    let customerId ← Json.given? (Json.option? Json.text?) customerId
    let messageId ← Json.given? (Json.option? Json.text?) messageId
    let nodeId ← Json.given? Json.text? nodeId
    let timestamp ← Json.given? Json.instant? timestamp
    some { id, type, campaignId, customerId, messageId, nodeId, timestamp }
  | _ => none

end Event

end Outreach
