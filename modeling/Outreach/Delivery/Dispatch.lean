import Outreach.Delivery.State

/-!
# Dispatches

A dispatch sends a campaign's message to its recipients, batch by batch. It asks the books one thing
at a time, and other work may go on between two of these calls. A record that cannot be created
counts as a failed message and stops nothing. Any other failure of a call fails the campaign. A
cancelled campaign's dispatch ends before its next batch and leaves the campaign as it is.
-/

namespace Outreach

/-- How a dispatch has ended. -/
inductive DispatchEnd
  | cancelled
  | completed (stats : CampaignStats)
  | failed (cause : Error)

inductive DispatchPhase
  /-- About to begin processing. -/
  | starting (recipients : List String)
  /-- About to create the next record of a batch, with more to follow. Those already tried are kept
  in order, without the record where it could not be created. -/
  | creating (next : MessageRecord) (more : List MessageRecord)
      (tried : List (Option MessageRecord)) (rest : List String) (tally : Tally)
  /-- About to count what the funnel has done so far. -/
  | counting (tally : Tally)
  /-- About to complete the campaign. -/
  | completing (stats : CampaignStats)
  /-- About to mark the campaign as failed. -/
  | aborting (cause : Error)
  | ended (how : DispatchEnd)

structure Dispatch where
  campaign : Uuid
  /-- The number of recipients. -/
  total : Nat
  phase : DispatchPhase
  /-- The instant from which the next step can be taken. -/
  ready : Instant
  /-- The number of the wait that the dispatch is in. -/
  turn : Nat

namespace Dispatch

def start (campaign : Uuid) (recipients : List String) (now : Instant) (turn : Nat) : Dispatch :=
  ⟨campaign, recipients.length, .starting recipients, now, turn⟩

def isEnded (d : Dispatch) : Bool :=
  match d.phase with
  | .ended _ => true
  | _ => false

/-- How many steps the dispatch, with the walks that it schedules, can still take. -/
def stepsLeft (d : Dispatch) : Nat :=
  match d.phase with
  | .starting recipients => 5 * recipients.length + 5
  | .creating _ more tried rest _ =>
    5 * more.length + 4 * tried.length + 5 * rest.length + 9
  | .counting _ => 3
  | .completing _ => 2
  | .aborting _ => 1
  | .ended _ => 0

end Dispatch

namespace DeliveryState

def failureReason : String := "Simulated failure"

/-- The record of an attempt to send. Whether it succeeds is drawn first. -/
def draftRecord (s : DeliveryState) (campaign : Uuid) (customer : String) :
    MessageRecord × DeliveryState :=
  let (sent, s) := s.chance s.settings.sendSuccessRate
  let (id, s) := s.takeId
  ({ id
     campaignId := campaign
     customerId := customer
     messageId := messageName s.now customer
     status := if sent then .queued else .failed
     sentAt := s.now
     deliveredAt := none
     openedAt := none
     clickedAt := none
     failureReason := if sent then none else some failureReason }, s)

def draftBatch (s : DeliveryState) (campaign : Uuid) :
    List String → List MessageRecord × DeliveryState
  | [] => ([], s)
  | customer :: rest =>
    let (r, s) := s.draftRecord campaign customer
    let (rs, s) := s.draftBatch campaign rest
    (r :: rs, s)

/-- Goes on with the next batch, which is never empty. Cancellation is noticed here and nowhere
else. -/
def nextBatch (s : DeliveryState) (d : Dispatch) (tally : Tally) :
    List String → Dispatch × DeliveryState
  | [] => ({ d with phase := .counting tally }, s)
  | customer :: others =>
    if s.agenda.refuses d.campaign then ({ d with phase := .ended .cancelled }, s)
    else
      let following := s.settings.batchSize - 1
      let (next, s) := s.draftRecord d.campaign customer
      let (more, s) := s.draftBatch d.campaign (others.take following)
      let (turn, s) := s.takeTurn d.turn s.creationMs
      ({ d with
         phase := .creating next more [] (others.drop following) tally
         ready := s.now.addMillis s.creationMs
         turn }, s)

/-- Counts and reports one attempt of a batch. A queued message begins its walk. -/
def settleAttempt (tally : Tally) (s : DeliveryState) :
    Option MessageRecord → Tally × DeliveryState
  | none => (tally.addFailed, s)
  | some r =>
    if r.status = .queued then
      (tally.addSent,
        (s.scheduleWalk r).emitMessage .messageQueued r.campaignId r.customerId r.messageId)
    else
      (tally.addFailed, s.emitMessage .messageFailed r.campaignId r.customerId r.messageId)

def settleBatch (tally : Tally) (s : DeliveryState) (tried : List (Option MessageRecord)) :
    Tally × DeliveryState :=
  tried.foldl (fun acc attempt => settleAttempt acc.1 acc.2 attempt) (tally, s)

/-- Goes on after a record has been tried. A batch is settled when all of its records are. -/
def afterAttempt (s : DeliveryState) (d : Dispatch) (tried : List (Option MessageRecord))
    (rest : List String) (tally : Tally) : List MessageRecord → Dispatch × DeliveryState
  | [] =>
    let (tally, s) := settleBatch tally s tried
    s.nextBatch d tally rest
  | next :: more => ({ d with phase := .creating next more tried rest tally }, s)

def abort (s : DeliveryState) (d : Dispatch) (cause : Error) : Dispatch × DeliveryState :=
  ({ d with phase := .aborting cause }, s)

/-- The next step of a dispatch, which makes at most one call to a book. -/
def stepDispatch (s : DeliveryState) (d : Dispatch) : Dispatch × DeliveryState :=
  match d.phase with
  | .starting recipients =>
    match s.startProcessing d.campaign d.total with
    | .ok s => (s.emitCampaign .campaignProcessing d.campaign).nextBatch d .zero recipients
    | .error e => s.abort d e
  | .creating next more tried rest tally =>
    match s.addRecord next with
    | .ok s => s.afterAttempt d (tried ++ [some next]) rest tally more
    | .error _ => s.afterAttempt d (tried ++ [none]) rest tally more
  | .counting tally =>
    match s.findRecords (.campaign d.campaign) with
    | .ok records =>
      let stats := CampaignStats.ofCounts d.total tally (.ofRecords records)
      ({ d with phase := .completing stats }, s)
    | .error e => s.abort d e
  | .completing stats =>
    match s.completeCampaign d.campaign stats with
    | .ok s =>
      ({ d with phase := .ended (.completed stats) }, s.emitCampaign .campaignCompleted d.campaign)
    | .error e => s.abort d e
  | .aborting cause =>
    let marked := (s.failCampaign d.campaign cause.message).toOption.getD s
    ({ d with phase := .ended (.failed cause) }, marked.emitCampaign .campaignFailed d.campaign)
  | .ended _ => (d, s)

end DeliveryState

end Outreach
