import Outreach.Json.Shape

/-!
# Campaign statistics

A campaign counts its recipients, the messages sent and failed, and how many messages reached each
stage of the funnel. Three rates relate neighbouring counts as percentages. A rate without anything
to relate to is zero.
-/

namespace Outreach

structure CampaignStats where
  totalRecipients : Nat
  sent : Nat
  failed : Nat
  delivered : Nat
  opened : Nat
  clicked : Nat
  deliveryRate : Float
  openRate : Float
  clickRate : Float
  failureReason : Option String
  deriving DecidableEq

/-- Outcomes of the messages that one dispatch has tried to send. -/
structure Tally where
  sent : Nat
  failed : Nat
  deriving DecidableEq, Repr

/-- How many messages reached each stage. A later stage counts for the earlier ones as well. -/
structure StageCounts where
  delivered : Nat
  opened : Nat
  clicked : Nat
  deriving DecidableEq, Repr

namespace Tally

def zero : Tally := ⟨0, 0⟩

def addSent (t : Tally) : Tally := { t with sent := t.sent + 1 }

def addFailed (t : Tally) : Tally := { t with failed := t.failed + 1 }

def attempted (t : Tally) : Nat := t.sent + t.failed

end Tally

/-- The share of `n` in `d` as a percentage. -/
def percentage (n d : Nat) : Float :=
  if d = 0 then 0.0 else Decimal.ofInt n / Decimal.ofInt d * 100.0

namespace CampaignStats

/-- The statistics of a campaign that has only its recipients. -/
def ofRecipients (total : Nat) : CampaignStats :=
  ⟨total, 0, 0, 0, 0, 0, 0.0, 0.0, 0.0, none⟩

/-- The statistics that follow from counts. -/
def ofCounts (total : Nat) (t : Tally) (f : StageCounts) : CampaignStats where
  totalRecipients := total
  sent := t.sent
  failed := t.failed
  delivered := f.delivered
  opened := f.opened
  clicked := f.clicked
  deliveryRate := percentage t.sent total
  openRate := percentage f.opened t.sent
  clickRate := percentage f.clicked f.opened
  failureReason := none

def layout : List Json.Part :=
  [.required "total_recipients", .required "sent", .required "failed", .required "delivered",
    .required "opened", .required "clicked", .required "delivery_rate", .required "open_rate",
    .required "click_rate", .defaulted "failure_reason"]

def encode (s : CampaignStats) : Json :=
  .object ([("total_recipients", .ofNat s.totalRecipients), ("sent", .ofNat s.sent),
    ("failed", .ofNat s.failed), ("delivered", .ofNat s.delivered), ("opened", .ofNat s.opened),
    ("clicked", .ofNat s.clicked), ("delivery_rate", .ofFloat s.deliveryRate),
    ("open_rate", .ofFloat s.openRate), ("click_rate", .ofFloat s.clickRate)] ++
    Json.optionalField "failure_reason" s.failureReason)

def decode? (j : Json) : Option CampaignStats :=
  match j.parts? layout with
  | some [total, sent, failed, delivered, opened, clicked, deliveryRate, openRate, clickRate,
      reason] => do
    let totalRecipients ← Json.given? Json.word64? total
    let sent ← Json.given? Json.word64? sent
    let failed ← Json.given? Json.word64? failed
    let delivered ← Json.given? Json.word64? delivered
    let opened ← Json.given? Json.word64? opened
    let clicked ← Json.given? Json.word64? clicked
    let deliveryRate ← Json.given? Json.float? deliveryRate
    let openRate ← Json.given? Json.float? openRate
    let clickRate ← Json.given? Json.float? clickRate
    let failureReason ← Json.givenOr? none (Json.option? Json.text?) reason
    some { totalRecipients, sent, failed, delivered, opened, clicked, deliveryRate, openRate,
           clickRate, failureReason }
  | _ => none

end CampaignStats

end Outreach
