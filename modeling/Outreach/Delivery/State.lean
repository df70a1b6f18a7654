import Outreach.Campaign.Book
import Outreach.Delivery.RecordBook
import Outreach.Delivery.Agenda
import Outreach.Delivery.Recorder
import Outreach.Delivery.Walk
import Outreach.Outage

/-!
# The state of deliveries

The state holds everything that a delivery touches: the clock, the books of campaigns and of message
records, the agenda of walks, the generator and the event recorder. The calls to the books are here
as well, each of which fails when it is out of order. What a delivery does with them is told
elsewhere, step by step.
-/

namespace Outreach

structure DeliveryState where
  now : Instant
  settings : DeliverySettings
  /-- The node that events name as their source. -/
  nodeId : String
  /-- Milliseconds that the records of a batch take to be created. -/
  creationMs : Nat
  outages : Outages
  campaigns : CampaignBook
  records : RecordBook
  agenda : Agenda Walk
  generator : Generator
  recorder : EventRecorder
  /-- How many identifiers have been taken from the supply. -/
  issued : Nat
  /-- How many waits have begun. -/
  turns : Nat

/-- Names the message that a batch begun at an instant sends to a customer. -/
def messageName (time : Instant) (customer : String) : String :=
  "msg_" ++ toString time.micros ++ "_" ++ customer

namespace DeliveryState

/-- A state with empty books. Without a seed the generator starts from zero. -/
def start (settings : DeliverySettings) (nodeId : String) (now : Instant) :
    Answer DeliveryState := do
  settings.validate
  return {
    now, settings, nodeId
    creationMs := 0
    outages := .none
    campaigns := .empty
    records := .empty
    agenda := .empty
    generator := .seeded (settings.rngSeed.getD 0)
    recorder := .silent
    issued := 0
    turns := 0 }

/-- Takes an unused identifier. -/
def takeId (s : DeliveryState) : Uuid × DeliveryState :=
  (.fresh s.issued, { s with issued := s.issued + 1 })

/-- The number of a wait that begins. Nothing waits for zero milliseconds, so the number before
stays valid then. -/
def takeTurn (s : DeliveryState) (before ms : Nat) : Nat × DeliveryState :=
  if ms = 0 then (before, s) else (s.turns, { s with turns := s.turns + 1 })

def emit (s : DeliveryState) (type : EventKind) (campaign : Uuid)
    (customerId messageId : Option String) : DeliveryState :=
  let (id, s) := s.takeId
  let event : Event :=
    { id, type, campaignId := campaign, customerId, messageId, nodeId := s.nodeId
      timestamp := s.now }
  { s with recorder := s.recorder.emit event }

/-- Reports something that concerns a campaign as a whole. -/
def emitCampaign (s : DeliveryState) (type : EventKind) (campaign : Uuid) : DeliveryState :=
  s.emit type campaign none none

/-- Reports something that concerns one message. -/
def emitMessage (s : DeliveryState) (type : EventKind) (campaign : Uuid)
    (customerId messageId : String) : DeliveryState :=
  s.emit type campaign (some customerId) (some messageId)

def chance (s : DeliveryState) (p : Float) : Bool × DeliveryState :=
  let (hit, generator) := s.generator.chance p
  (hit, { s with generator })

def drawDelay (s : DeliveryState) (w : DelayRange) : Nat × DeliveryState :=
  let (ms, generator) := w.draw s.generator
  (ms, { s with generator })

/-! ## Calls to the campaign book -/

def fetchCampaign (s : DeliveryState) (id : Uuid) : Answer (Option Campaign) := do
  s.outages.check .fetchCampaign
  return s.campaigns.get? id

def startProcessing (s : DeliveryState) (id : Uuid) (total : Nat) : Answer DeliveryState := do
  s.outages.check .startProcessing
  return { s with campaigns := ← s.campaigns.startProcessing id total s.now }

def completeCampaign (s : DeliveryState) (id : Uuid) (stats : CampaignStats) :
    Answer DeliveryState := do
  s.outages.check .completeCampaign
  return { s with campaigns := ← s.campaigns.complete id stats s.now }

def failCampaign (s : DeliveryState) (id : Uuid) (reason : String) : Answer DeliveryState := do
  s.outages.check .failCampaign
  return { s with campaigns := ← s.campaigns.failCampaign id reason s.now }

def setStats (s : DeliveryState) (id : Uuid) (stats : CampaignStats) : Answer DeliveryState := do
  s.outages.check .setStats
  return { s with campaigns := ← s.campaigns.setStats id stats s.now }

/-! ## Calls to the record book -/

def addRecord (s : DeliveryState) (r : MessageRecord) : Answer DeliveryState := do
  s.outages.check .addRecord
  s.outages.check (.addRecordFor r.customerId)
  return { s with records := ← s.records.create r }

def findRecords (s : DeliveryState) (f : RecordFilter) : Answer (List MessageRecord) := do
  s.outages.check .findRecords
  return s.records.find f

def findByMessage (s : DeliveryState) (messageId : String) : Answer (Option MessageRecord) := do
  s.outages.check .findByMessage
  return s.records.findByMessage? messageId

def advanceRecord (s : DeliveryState) (id : Uuid) (status : DeliveryStatus) (time : Instant) :
    Answer (Outcome × DeliveryState) := do
  s.outages.check .advanceRecord
  s.outages.check (.advanceRecordTo status)
  if s.outages.recordsLost then return (.notFound, s)
  let (outcome, records) := s.records.advance id status time
  return (outcome, { s with records })

/-! ## Pending walks -/

def pendingWalks (s : DeliveryState) : Nat :=
  s.agenda.size

/-- Schedules the walk of a queued record, unless its campaign is cancelled. -/
def scheduleWalk (s : DeliveryState) (r : MessageRecord) : DeliveryState :=
  let walk : Walk := ⟨r.customerId, r.messageId, .scheduled s.now, s.turns⟩
  { s with
    agenda := (s.agenda.schedule r.id r.campaignId walk).2
    turns := s.turns + 1 }

/-- Aborts the walk of a record and tells whether there was one. -/
def cancelWalk (s : DeliveryState) (id : Uuid) : Bool × DeliveryState :=
  let (found, agenda) := s.agenda.cancel id
  (found, { s with agenda })

/-- Aborts the walks of a campaign for good and tells how many there were. -/
def cancelAll (s : DeliveryState) (id : Uuid) : Nat × DeliveryState :=
  let (count, agenda) := s.agenda.cancelAll id
  (count, { s with agenda })

def describe (s : DeliveryState) : String :=
  "DeliverySimulator \x7b batch_size: " ++ toString s.settings.batchSize ++ ", scheduler: " ++
    s.agenda.describe ++ " \x7d"

end DeliveryState

end Outreach
