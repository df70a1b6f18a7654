import Outreach.Campaign.Counts

/-!
# Campaigns

A campaign sends one message to every customer of a segment. It is drafted, processed while its
messages are sent, and ends completed or failed. Its owner is whoever created it.
-/

namespace Outreach

inductive CampaignStatus
  | draft
  | processing
  | completed
  | failed
  deriving DecidableEq, Repr

structure MessageTemplate where
  subject : String
  body : String
  deriving DecidableEq, Repr

structure Campaign where
  id : Uuid
  name : String
  segmentId : Uuid
  template : MessageTemplate
  status : CampaignStatus
  stats : CampaignStats
  createdBy : String
  createdAt : Instant
  updatedAt : Instant
  deriving DecidableEq

namespace CampaignStatus

def name : CampaignStatus → String
  | draft => "draft"
  | processing => "processing"
  | completed => "completed"
  | failed => "failed"

def all : List CampaignStatus := [draft, processing, completed, failed]

def encode (s : CampaignStatus) : Json :=
  .text s.name

def ofName? (s : String) : Option CampaignStatus :=
  all.find? fun status => status.name == s

def decode? (j : Json) : Option CampaignStatus :=
  j.caseName?.bind ofName?

end CampaignStatus

namespace MessageTemplate

def encode (t : MessageTemplate) : Json :=
  .object [("subject", .text t.subject), ("body", .text t.body)]

def decode? (j : Json) : Option MessageTemplate :=
  match j.parts? [.required "subject", .required "body"] with
  | some [subject, body] => do
    let subject ← Json.given? Json.text? subject
    let body ← Json.given? Json.text? body
    some { subject, body }
  | _ => none

end MessageTemplate

namespace Campaign

def layout : List Json.Part :=
  [.required "id", .required "name", .required "segment_id", .required "template",
    .required "status", .required "stats", .required "created_by", .required "created_at",
    .required "updated_at"]

/-- The fields of a campaign, for records that hold more besides. -/
def fields (c : Campaign) : List (String × Json) :=
  [("id", .ofUuid c.id), ("name", .text c.name), ("segment_id", .ofUuid c.segmentId),
    ("template", c.template.encode), ("status", c.status.encode), ("stats", c.stats.encode),
    ("created_by", .text c.createdBy), ("created_at", .ofInstant c.createdAt),
    ("updated_at", .ofInstant c.updatedAt)]

def encode (c : Campaign) : Json :=
  .object c.fields

/-- Reads a campaign, given the way to read the name of a case. -/
def decodeWith? (caseName? : Json → Option String) (j : Json) : Option Campaign :=
  match j.parts? layout with
  | some [id, name, segmentId, template, status, stats, createdBy, createdAt, updatedAt] => do
    let id ← Json.given? Json.uuid? id
    let name ← Json.given? Json.text? name
    let segmentId ← Json.given? Json.uuid? segmentId
    let template ← Json.given? MessageTemplate.decode? template
    let status ← Json.given? (fun j => (caseName? j).bind CampaignStatus.ofName?) status
    let stats ← Json.given? CampaignStats.decode? stats
    let createdBy ← Json.given? Json.text? createdBy
    let createdAt ← Json.given? Json.instant? createdAt
    let updatedAt ← Json.given? Json.instant? updatedAt
    some { id, name, segmentId, template, status, stats, createdBy, createdAt, updatedAt }
  | _ => none

def decode? : Json → Option Campaign :=
  decodeWith? Json.caseName?

end Campaign

/-- A campaign in a list, with the name and the estimate of its segment if that still exists. -/
structure CampaignListing where
  campaign : Campaign
  segmentName : Option String
  segmentEstimatedCount : Option Nat

namespace CampaignListing

def encode (s : CampaignListing) : Json :=
  .object (s.campaign.fields ++ [("segment_name", .ofOption .text s.segmentName),
    ("segment_estimated_count", .ofOption .ofNat s.segmentEstimatedCount)])

/-- A summary is one object in which the campaign's fields stand beside its own. -/
def decode? (j : Json) : Option CampaignListing :=
  match j.ownParts? [.optional "segment_name", .optional "segment_estimated_count"] with
  | some [name, count] => do
    let campaign ← Campaign.decodeWith? Json.sharedCaseName? j
    let segmentName ← Json.given? (Json.option? Json.text?) name
    let segmentEstimatedCount ← Json.given? (Json.option? Json.word64?) count
    some { campaign, segmentName, segmentEstimatedCount }
  | _ => none

end CampaignListing

end Outreach
