import Outreach.Directory.Overview
import Outreach.Outage
import Outreach.Segment.Rule

/-!
# The catalog of segments

A segment is a named rule set of an owner, with an estimate of how many customers it reaches. The
estimate is taken when the segment is created and again on request. Rules become a predicate anew at
the instant of each question, so that a segment's members follow the directory and the clock. An
owner sees no segments but their own.
-/

namespace Outreach

open Segment

structure Segment where
  id : Uuid
  name : String
  description : Option String
  rules : RuleSet
  estimatedCount : Nat
  createdBy : String
  isDynamic : Bool
  createdAt : Instant
  updatedAt : Instant

structure SegmentRequest where
  name : String
  description : Option String
  rules : RuleSet

namespace Segment

def layout : List Json.Part :=
  [.required "id", .required "name", .optional "description", .required "rules",
    .required "estimated_count", .required "created_by", .required "is_dynamic",
    .required "created_at", .required "updated_at"]

def encode (s : Segment) : Json :=
  .object [("id", .ofUuid s.id), ("name", .text s.name),
    ("description", .ofOption .text s.description), ("rules", s.rules.encode),
    ("estimated_count", .ofNat s.estimatedCount), ("created_by", .text s.createdBy),
    ("is_dynamic", .bool s.isDynamic), ("created_at", .ofInstant s.createdAt),
    ("updated_at", .ofInstant s.updatedAt)]

def decode? (j : Json) : Option Segment :=
  match j.parts? layout with
  | some [id, name, description, rules, estimated, createdBy, isDynamic, createdAt, updatedAt] => do
    let id ← Json.given? Json.uuid? id
    let name ← Json.given? Json.text? name
    let description ← Json.given? (Json.option? Json.text?) description
    let rules ← Json.given? RuleSet.decode? rules
    let estimatedCount ← Json.given? Json.word64? estimated
    let createdBy ← Json.given? Json.text? createdBy
    let isDynamic ← Json.given? Json.bool? isDynamic
    let createdAt ← Json.given? Json.instant? createdAt
    let updatedAt ← Json.given? Json.instant? updatedAt
    some { id, name, description, rules, estimatedCount, createdBy, isDynamic, createdAt,
           updatedAt }
  | _ => none

end Segment

namespace SegmentRequest

def layout : List Json.Part :=
  [.required "name", .defaulted "description", .required "rules"]

def encode (s : SegmentRequest) : Json :=
  .object [("name", .text s.name), ("description", .ofOption .text s.description),
    ("rules", s.rules.encode)]

def decode? (j : Json) : Option SegmentRequest :=
  match j.parts? layout with
  | some [name, description, rules] => do
    let name ← Json.given? Json.text? name
    let description ← Json.givenOr? none (Json.option? Json.text?) description
    let rules ← Json.given? RuleSet.decode? rules
    some { name, description, rules }
  | _ => none

end SegmentRequest

/-- The segments of all owners together with the directory that they select from. -/
structure Catalog where
  /-- Strictly increasing by id. -/
  segments : List Segment
  directory : Directory
  settings : OverviewSettings

namespace Catalog

def start (directory : Directory) (settings : OverviewSettings) : Catalog :=
  ⟨[], directory, settings⟩

/-- How many customers satisfy the rules at an instant. -/
def estimate (c : Catalog) (o : Outages) (rules : RuleSet) (now : Instant) : Answer Nat := do
  rules.validate
  o.check .countCustomers
  return c.directory.count (rules.toPredicate now)

def overview (c : Catalog) (o : Outages) (rules : RuleSet) (now : Instant) :
    Answer Overview := do
  rules.validate
  o.check .countCustomers
  o.check .findCustomers
  o.check .groupCustomers
  return c.directory.overview (rules.toPredicate now) c.settings

/-- The segment that a request describes, with its estimate at an instant. -/
def draft (c : Catalog) (o : Outages) (request : SegmentRequest) (id : Uuid) (owner : String)
    (now : Instant) : Answer Segment := do
  if Text.isBlank request.name then
    throw (.validation "Name and at least one rule are required")
  let count ← c.estimate o request.rules now
  return ⟨id, request.name, request.description, request.rules, count, owner, true, now, now⟩

def insert (c : Catalog) (s : Segment) : Catalog :=
  { c with segments := Sorted.put Segment.id s c.segments }

/-- Keeps a new segment under an unused id. -/
def create (c : Catalog) (o : Outages) (request : SegmentRequest) (id : Uuid) (owner : String)
    (now : Instant) : Answer (Segment × Catalog) := do
  let s ← c.draft o request id owner now
  return (s, c.insert s)

def get? (c : Catalog) (id : Uuid) : Option Segment :=
  Sorted.get? Segment.id id c.segments

/-- Takes the estimate of a segment again. -/
def refreshEstimate (c : Catalog) (o : Outages) (id : Uuid) (now : Instant) :
    Answer (Segment × Catalog) :=
  match c.get? id with
  | none => .error (.segmentNotFound id)
  | some s => do
    let count ← c.estimate o s.rules now
    let s := { s with estimatedCount := count, updatedAt := now }
    return (s, c.insert s)

/-- The segment with the given id if it belongs to the owner. -/
def owned (c : Catalog) (id : Uuid) (owner : String) : Answer Segment :=
  match c.get? id with
  | some s => if s.createdBy = owner then .ok s else .error (.segmentNotFound id)
  | none => .error (.segmentNotFound id)

/-- The customers that satisfy a segment's rules at an instant, by id. -/
def members (c : Catalog) (o : Outages) (s : Segment) (now : Instant) : Answer (List Customer) := do
  o.check .findCustomers
  return c.directory.find (s.rules.toPredicate now) none

/-- The segments of an owner, newest first and those of one instant by id. -/
def list (c : Catalog) (owner : String) : List Segment :=
  (c.segments.filter fun s => s.createdBy == owner).mergeSort
    fun a b => decide (b.createdAt ≤ a.createdAt)

/-- The customer with the given id, as far as the directory finds it. -/
def customer? (c : Catalog) (o : Outages) (id : String) : Answer (Option Customer) := do
  o.check .fetchCustomer
  return if id ∈ o.forgotten then none else c.directory.get? id

def put (c : Catalog) (customer : Customer) : Catalog :=
  { c with directory := c.directory.put customer }

end Catalog

end Outreach
