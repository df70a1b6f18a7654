import Outreach.Campaign.Basic
import Outreach.Answer

/-!
# Requests for campaigns

A request for a campaign names it, its segment and its message. The segment and the message may be
missing from a request as read, and checking a request finds them. Nothing in a request may be
blank, and every fault is reported in the same words.
-/

namespace Outreach

structure CampaignRequest where
  name : String
  segmentId : Option Uuid
  template : Option MessageTemplate
  deriving DecidableEq

namespace CampaignRequest

def layout : List Json.Part :=
  [.required "name", .optional "segment_id", .optional "template"]

def encode (r : CampaignRequest) : Json :=
  .object [("name", .text r.name), ("segment_id", .ofOption .ofUuid r.segmentId),
    ("template", .ofOption MessageTemplate.encode r.template)]

def decode? (j : Json) : Option CampaignRequest :=
  match j.parts? layout with
  | some [name, segmentId, template] => do
    let name ← Json.given? Json.text? name
    let segmentId ← Json.given? (Json.option? Json.uuid?) segmentId
    let template ← Json.given? (Json.option? MessageTemplate.decode?) template
    some { name, segmentId, template }
  | _ => none

def missingFields : Error := .validation "Missing required fields"

/-- The segment and the message of a complete request. -/
def validate (r : CampaignRequest) : Answer (Uuid × MessageTemplate) :=
  match r.segmentId, r.template with
  | some segmentId, some template =>
    if Text.isBlank r.name || Text.isBlank template.subject || Text.isBlank template.body then
      .error missingFields
    else .ok (segmentId, template)
  | _, _ => .error missingFields

end CampaignRequest

end Outreach
