import Outreach.Delivery.State
import Outreach.Text.Blank

/-!
# Receipts and recounts

A receipt reports from outside that a message has reached a stage. It moves the record forward if it
is not there yet, and then takes the place of the record's walk. A recount derives a campaign's
statistics from its records again and keeps them.
-/

namespace Outreach

structure Receipt where
  messageId : String
  status : DeliveryStatus
  /-- When the stage was reached. The current instant stands in for a missing one. -/
  timestamp : Option Instant
  deriving DecidableEq

namespace Receipt

def encode (r : Receipt) : Json :=
  .object [("message_id", .text r.messageId), ("status", r.status.encode),
    ("timestamp", .ofOption .ofInstant r.timestamp)]

def decode? (j : Json) : Option Receipt :=
  match j.parts? [.required "message_id", .required "status", .defaulted "timestamp"] with
  | some [messageId, status, timestamp] => do
    let messageId ← Json.given? Json.text? messageId
    let status ← Json.given? DeliveryStatus.decode? status
    let timestamp ← Json.givenOr? none (Json.option? Json.instant?) timestamp
    some { messageId, status, timestamp }
  | _ => none

/-- A receipt names its message and one of the stages that follow the sending. -/
def validate (r : Receipt) : Answer Unit :=
  if Text.isBlank r.messageId then
    .error (.validation "Message ID and status are required")
  else
    match r.status with
    | .delivered | .opened | .clicked => .ok ()
    | .queued | .failed =>
      .error (.validation
        ("receipt status must be delivered, opened or clicked, got " ++ r.status.name))

def recordNotFound (r : Receipt) : Error :=
  .notFound "CommunicationLog" r.messageId

end Receipt

namespace DeliveryState

/-- Applies a receipt. One that comes too late is stale and changes nothing. -/
def receive (s : DeliveryState) (r : Receipt) : Answer (Outcome × DeliveryState) := do
  r.validate
  let record ← match ← s.findByMessage r.messageId with
    | some record => pure record
    | none => throw r.recordNotFound
  let (outcome, s) ← s.advanceRecord record.id r.status (r.timestamp.getD s.now)
  match outcome with
  | .applied =>
    let (_, s) := s.cancelWalk record.id
    return (outcome,
      s.emitMessage .receiptApplied record.campaignId record.customerId record.messageId)
  | .stale => return (outcome, s)
  | .notFound => throw r.recordNotFound

/-- Counts a campaign's records again and keeps the statistics. -/
def recompute (s : DeliveryState) (id : Uuid) : Answer (CampaignStats × DeliveryState) := do
  let campaign ← match ← s.fetchCampaign id with
    | some campaign => pure campaign
    | none => throw (.campaignNotFound id)
  let records ← s.findRecords (.campaign id)
  let stats := campaign.stats.refreshed records
  return (stats, ← s.setStats id stats)

end DeliveryState

end Outreach
