import Outreach.Campaign.Request
import Outreach.Delivery.Entry
import Outreach.Delivery.Receipt
import Outreach.Delivery.Simulation
import Outreach.Segment.Catalog
import Outreach.Settings.Basic

/-!
# The campaign desk

The desk ties segments, campaigns and deliveries together. Opening a campaign fixes its recipients
at once and dispatches it in the background. Owners work on what is theirs: segments and campaigns
of others are answered as if they did not exist. An operation that fails leaves the desk as it was.
-/

namespace Outreach

structure Desk where
  catalog : Catalog
  simulation : Simulation

namespace Desk

/-- A desk over a directory, at an instant. -/
def start (settings : Settings) (directory : Directory) (now : Instant) : Answer Desk := do
  let state ← DeliveryState.start settings.delivery settings.nodeId now
  return ⟨.start directory settings.segmentation, .ofState state⟩

def state (s : Desk) : DeliveryState :=
  s.simulation.state

def withState (s : Desk) (state : DeliveryState) : Desk :=
  { s with simulation := { s.simulation with state } }

def now (s : Desk) : Instant :=
  s.state.now

def outages (s : Desk) : Outages :=
  s.state.outages

def setOutages (s : Desk) (outages : Outages) : Desk :=
  s.withState { s.state with outages }

/-- Lets the background do what it can now. -/
def settle (s : Desk) : Desk :=
  { s with simulation := s.simulation.settle }

/-- Lets time pass. -/
def advance (s : Desk) (ms : Nat) : Desk :=
  { s with simulation := s.simulation.advance ms }

def put (s : Desk) (c : Customer) : Desk :=
  { s with catalog := s.catalog.put c }

/-! ## Segments -/

def defineSegment (s : Desk) (request : SegmentRequest) (owner : String) :
    Answer (Segment × Desk) := do
  let (id, state) := s.state.takeId
  let (segment, catalog) ← s.catalog.create s.outages request id owner s.now
  return (segment, { s with catalog }.withState state)

def estimate (s : Desk) (rules : Segment.RuleSet) : Answer Nat :=
  s.catalog.estimate s.outages rules s.now

def overview (s : Desk) (rules : Segment.RuleSet) : Answer Overview :=
  s.catalog.overview s.outages rules s.now

def refreshEstimate (s : Desk) (id : Uuid) : Answer (Segment × Desk) := do
  let (segment, catalog) ← s.catalog.refreshEstimate s.outages id s.now
  return (segment, { s with catalog })

def segmentsOf (s : Desk) (owner : String) : List Segment :=
  s.catalog.list owner

/-! ## Campaigns -/

/-- The customers that a campaign on a segment would reach now. There must be some. -/
def recipients (s : Desk) (segment : Segment) : Answer (List Customer) := do
  let members ← s.catalog.members s.outages segment s.now
  if members.isEmpty then throw (.zeroMatch segment.id)
  return members

/-- The campaign that a complete request describes. -/
def draft (s : Desk) (id : Uuid) (name : String) (segmentId : Uuid)
    (template : MessageTemplate) (owner : String) (recipients : Nat) : Campaign where
  id
  name
  segmentId
  template
  status := .draft
  stats := .ofRecipients recipients
  createdBy := owner
  createdAt := s.now
  updatedAt := s.now

/-- Enters a new campaign and begins to dispatch it to the customers given. -/
def launch (s : Desk) (campaign : Campaign) (customers : List Customer) : Desk :=
  let state := { s.state with campaigns := s.state.campaigns.insert campaign }
  let simulation := { s.simulation with state }
  { s with
    simulation := simulation.dispatchInBackground campaign.id (customers.map Customer.id) }

def openCampaign (s : Desk) (request : CampaignRequest) (owner : String) :
    Answer (Campaign × Desk) := do
  let (segmentId, template) ← request.validate
  let segment ← s.catalog.owned segmentId owner
  segment.rules.validate
  let customers ← s.recipients segment
  let (id, state) := s.state.takeId
  let campaign := s.draft id request.name segmentId template owner customers.length
  return (campaign, (s.withState state).launch campaign customers)

/-- How many dispatches are registered as running. -/
def dispatchCount (s : Desk) : Nat :=
  s.simulation.active

def pendingWalks (s : Desk) : Nat :=
  s.state.pendingWalks

/-- Waits for the end of a campaign's dispatch. -/
def awaitDispatch (s : Desk) (id : Uuid) : Desk :=
  { s with simulation := s.simulation.wait id }

def summary (s : Desk) (campaign : Campaign) : CampaignListing :=
  let segment := s.catalog.get? campaign.segmentId
  ⟨campaign, segment.map Segment.name, segment.map Segment.estimatedCount⟩

/-- The campaigns of an owner, newest first. -/
def campaignsOf (s : Desk) (owner : String) : List CampaignListing :=
  (s.state.campaigns.list owner).map s.summary

/-- The campaign with the given id if it belongs to the owner. -/
def ownedCampaign (s : Desk) (id : Uuid) (owner : String) : Answer Campaign :=
  match s.state.campaigns.get? id with
  | some c => if c.createdBy = owner then .ok c else .error (.campaignNotFound id)
  | none => .error (.campaignNotFound id)

def entry (s : Desk) (record : MessageRecord) : Answer LogEntry := do
  return ⟨record, ← s.catalog.customer? s.outages record.customerId⟩

/-- The records of a campaign with their customers, newest first. -/
def campaignLog (s : Desk) (id : Uuid) (owner : String) : Answer (List LogEntry) := do
  let _ ← s.ownedCampaign id owner
  let records ← s.state.findRecords (.campaign id)
  (records.mergeSort LogEntry.precedes).mapM s.entry

def receive (s : Desk) (receipt : Receipt) : Answer (Outcome × Desk) := do
  let (outcome, state) ← s.state.receive receipt
  return (outcome, s.withState state)

/-- Counts a campaign's records again and keeps the statistics. -/
def recompute (s : Desk) (id : Uuid) (owner : String) : Answer (CampaignStats × Desk) := do
  let _ ← s.ownedCampaign id owner
  let (stats, state) ← s.state.recompute id
  return (stats, s.withState state)

/-- Aborts a campaign's walks for good and tells how many there were. -/
def cancelAll (s : Desk) (id : Uuid) : Nat × Desk :=
  let (count, state) := s.state.cancelAll id
  (count, s.withState state)

/-- Stops all work on a campaign and tells how many walks were aborted. While a dispatch is being
aborted the rest of the background goes on. -/
def stop (s : Desk) (id : Uuid) : Nat × Desk :=
  let (before, s) := s.cancelAll id
  if s.simulation.isRegistered id then
    let s := { s with simulation := (s.simulation.drop id).settle }
    let (during, s) := s.cancelAll id
    (before + during, s)
  else (before, s)

/-- Deletes a campaign and tells how many of its walks were aborted. -/
def removeCampaign (s : Desk) (id : Uuid) (owner : String) : Answer (Nat × Desk) := do
  let _ ← s.ownedCampaign id owner
  let (count, s) := s.stop id
  let (_, campaigns) := s.state.campaigns.delete id
  return (count, s.withState { s.state with campaigns })

end Desk

end Outreach
