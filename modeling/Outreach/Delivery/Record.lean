import Outreach.Campaign.Counts
import Outreach.Delivery.Status

/-!
# Message records

One record stands for the attempt to deliver a campaign's message to one customer. A record only
moves forward through the funnel. A move stamps the instant of its stage and of every earlier
stage that has none yet. A failed message never moves.
-/

namespace Outreach

structure MessageRecord where
  id : Uuid
  campaignId : Uuid
  customerId : String
  messageId : String
  status : DeliveryStatus
  sentAt : Instant
  deliveredAt : Option Instant
  openedAt : Option Instant
  clickedAt : Option Instant
  failureReason : Option String
  deriving DecidableEq

/-- What became of a request to move a record forward. -/
inductive Outcome
  | applied
  /-- The record is at the requested stage or past it, or has failed. -/
  | stale
  | notFound
  deriving DecidableEq, Repr

namespace Outcome

def name : Outcome → String
  | applied => "applied"
  | stale => "stale"
  | notFound => "not_found"

end Outcome

namespace MessageRecord

/-- The stamp of a stage after a move to a given rank. -/
def stamp (stage target : Nat) (time : Instant) (old : Option Instant) : Option Instant :=
  if stage ≤ target then some (old.getD time) else old

/-- The record after a move to a status of the given rank. -/
def moved (r : MessageRecord) (status : DeliveryStatus) (target : Nat) (time : Instant) :
    MessageRecord :=
  { r with
    status
    deliveredAt := stamp 1 target time r.deliveredAt
    openedAt := stamp 2 target time r.openedAt
    clickedAt := stamp 3 target time r.clickedAt }

/-- Moves the record forward to a status at an instant, if that is forward. -/
def advance (r : MessageRecord) (status : DeliveryStatus) (time : Instant) :
    Outcome × MessageRecord :=
  match r.status.rank?, status.rank? with
  | some current, some target =>
    if current < target then (.applied, r.moved status target time) else (.stale, r)
  | _, _ => (.stale, r)

def layout : List Json.Part :=
  [.required "id", .required "campaign_id", .required "customer_id", .required "message_id",
    .required "status", .required "sent_at", .optional "delivered_at", .optional "opened_at",
    .optional "clicked_at", .defaulted "failure_reason"]

/-- The fields of a record, for records that hold more besides. -/
def fields (r : MessageRecord) : List (String × Json) :=
  [("id", .ofUuid r.id), ("campaign_id", .ofUuid r.campaignId),
    ("customer_id", .text r.customerId), ("message_id", .text r.messageId),
    ("status", r.status.encode), ("sent_at", .ofInstant r.sentAt),
    ("delivered_at", .ofOption .ofInstant r.deliveredAt),
    ("opened_at", .ofOption .ofInstant r.openedAt),
    ("clicked_at", .ofOption .ofInstant r.clickedAt)] ++
    Json.optionalField "failure_reason" r.failureReason

def encode (r : MessageRecord) : Json :=
  .object r.fields

/-- Reads a record, given the way to read the name of a case. -/
def decodeWith? (caseName? : Json → Option String) (j : Json) : Option MessageRecord :=
  match j.parts? layout with
  | some [id, campaignId, customerId, messageId, status, sentAt, deliveredAt, openedAt, clickedAt,
      reason] => do
    let id ← Json.given? Json.uuid? id
    let campaignId ← Json.given? Json.uuid? campaignId
    let customerId ← Json.given? Json.text? customerId
    let messageId ← Json.given? Json.text? messageId
    let status ← Json.given? (fun j => (caseName? j).bind DeliveryStatus.ofName?) status
    let sentAt ← Json.given? Json.instant? sentAt
    let deliveredAt ← Json.given? (Json.option? Json.instant?) deliveredAt
    let openedAt ← Json.given? (Json.option? Json.instant?) openedAt
    let clickedAt ← Json.given? (Json.option? Json.instant?) clickedAt
    let failureReason ← Json.givenOr? none (Json.option? Json.text?) reason
    some { id, campaignId, customerId, messageId, status, sentAt, deliveredAt, openedAt,
           clickedAt, failureReason }
  | _ => none

def decode? : Json → Option MessageRecord :=
  decodeWith? Json.caseName?

theorem stale_advance {r : MessageRecord} {status : DeliveryStatus} {time : Instant}
    (h : (r.advance status time).1 = .stale) : (r.advance status time).2 = r := by
  cases hc : r.status.rank? with
  | none => simp [advance, hc]
  | some current =>
    cases ht : status.rank? with
    | none => simp [advance, hc, ht]
    | some target =>
      by_cases lt : current < target
      · simp [advance, hc, ht, lt] at h
      · simp [advance, hc, ht, lt]

end MessageRecord

namespace StageCounts

/-- How many records carry the stamp of each stage. -/
def ofRecords (records : List MessageRecord) : StageCounts where
  delivered := records.countP (·.deliveredAt.isSome)
  opened := records.countP (·.openedAt.isSome)
  clicked := records.countP (·.clickedAt.isSome)

end StageCounts

namespace CampaignStats

/-- Counts a campaign's records again. Failures are carried over, since a creation that was
refused left no record behind. -/
def refreshed (s : CampaignStats) (records : List MessageRecord) : CampaignStats :=
  let sent := records.countP (·.status != .failed)
  { ofCounts s.totalRecipients ⟨sent, s.failed⟩ (.ofRecords records) with
    failureReason := s.failureReason }

end CampaignStats

end Outreach
