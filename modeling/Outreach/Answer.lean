import Outreach.Uuid

/-!
# Errors

Every operation that can fail answers one of these causes. Rejections are the caller's fault, all
others are failures of a part that the operation relies on. The wording of each cause is fixed here
and nowhere else.
-/

namespace Outreach

inductive Error
  /-- The request breaks a rule. -/
  | validation (reason : String)
  | notFound (entity : String) (id : String)
  /-- The segment of a new campaign has no customers. -/
  | zeroMatch (segment : Uuid)
  | store (reason : String)
  | configuration (reason : String)
  | serialization (reason : String)
  | io (reason : String)
  | internal (reason : String)
  deriving DecidableEq, Repr

namespace Error

def message : Error → String
  | validation reason => "Validation error: " ++ reason
  | notFound entity id => entity ++ " " ++ id ++ " not found"
  | zeroMatch segment =>
    "Segment " ++ segment.toText ++ " matches 0 customers - cannot create campaign"
  | store reason => "Store error: " ++ reason
  | configuration reason => "Configuration error: " ++ reason
  | serialization reason => "Serialization error: " ++ reason
  | io reason => "IO error: " ++ reason
  | internal reason => "Internal error: " ++ reason

/-- The caller is at fault, so that trying again changes nothing. -/
def blamesCaller : Error → Bool
  | validation _ | notFound _ _ | zeroMatch _ => true
  | _ => false

def segmentNotFound (id : Uuid) : Error := .notFound "Segment" id.toText

def campaignNotFound (id : Uuid) : Error := .notFound "Campaign" id.toText

end Error

/-- What an operation that can fail answers. -/
abbrev Answer (α : Type) := Except Error α

end Outreach
