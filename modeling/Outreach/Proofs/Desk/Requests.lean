import Outreach.Proofs.Desk.Order

/-!
# Requests that are refused

A request is carried out in steps: it asks the directory and the books, and it changes the desk. A
step that fails ends the request there, and what the steps before it have changed would stay. But no
request changes anything before its last question is answered, so a request that is refused leaves
the desk as it was, down to the generator and the events. A receipt that comes too late leaves it so
as well.
-/

namespace Outreach

namespace CampaignRequest

/-- The request names its segment and its message, and nothing in it is blank. -/
structure Complete (r : CampaignRequest) (id : Uuid) (message : MessageTemplate) : Prop where
  segmentId : r.segmentId = some id
  template : r.template = some message
  name : Text.isBlank r.name = false
  subject : Text.isBlank message.subject = false
  body : Text.isBlank message.body = false

theorem validate_cases (r : CampaignRequest) :
    (∃ id message, r.Complete id message ∧ r.validate = .ok (id, message)) ∨
      (∀ id message, ¬ r.Complete id message) ∧ r.validate = .error missingFields := by
  cases hid : r.segmentId with
  | none =>
    right
    refine ⟨fun id message complete => ?_, by rw [validate, hid]⟩
    rw [complete.segmentId] at hid
    cases hid
  | some id =>
    cases hmessage : r.template with
    | none =>
      right
      refine ⟨fun _ message complete => ?_, by rw [validate, hid, hmessage]⟩
      rw [complete.template] at hmessage
      cases hmessage
    | some message =>
      cases hblank : Text.isBlank r.name || Text.isBlank message.subject ||
          Text.isBlank message.body with
      | true =>
        right
        refine ⟨fun _ given complete => ?_, by simp only [validate, hid, hmessage, hblank, if_true]⟩
        have hgiven := complete.template
        rw [hmessage, Option.some.injEq] at hgiven
        subst hgiven
        simp only [complete.name, complete.subject, complete.body, Bool.or_false] at hblank
        cases hblank
      | false =>
        left
        refine ⟨id, message, ?_, by simp [validate, hid, hmessage, hblank]⟩
        simp only [Bool.or_eq_false_iff] at hblank
        exact ⟨hid, hmessage, hblank.1.1, hblank.1.2, hblank.2⟩

theorem Complete.validate_eq {r : CampaignRequest} {id : Uuid} {message : MessageTemplate}
    (complete : r.Complete id message) : r.validate = .ok (id, message) := by
  rcases r.validate_cases with ⟨given, found, h, hvalid⟩ | ⟨none, -⟩
  · have hid := h.segmentId
    have hmessage := h.template
    rw [complete.segmentId, Option.some.injEq] at hid
    rw [complete.template, Option.some.injEq] at hmessage
    rw [hvalid, hid, hmessage]
  · exact absurd complete (none id message)

end CampaignRequest

namespace Desk

variable {s t : Desk}

/-! ## Work in steps -/

/-- Work at a desk, step by step. A failure ends it and takes nothing back. -/
def Procedure (α : Type) : Type :=
  Desk → Answer α × Desk

namespace Procedure

variable {α β : Type}

instance : Monad Procedure where
  pure a := fun s => (.ok a, s)
  bind first next := fun s =>
    match first s with
    | (.ok a, t) => next a t
    | (.error e, t) => (.error e, t)

def refuse (e : Error) : Procedure α :=
  fun s => (.error e, s)

/-- Asks something and changes nothing. -/
def ask (question : Desk → Answer α) : Procedure α :=
  fun s => (question s, s)

/-- Changes something, which nothing can keep it from. -/
def change (f : Desk → α × Desk) : Procedure α :=
  fun s => (.ok (f s).1, (f s).2)

/-- Makes one call to a book. A book that refuses has not done anything. -/
def call (f : DeliveryState → Answer (α × DeliveryState)) : Procedure α :=
  fun s =>
    match f s.state with
    | .ok (a, state) => (.ok a, s.withState state)
    | .error e => (.error e, s)

/-! ## The requests in their order -/

def takeId : Procedure Uuid :=
  change fun s => (s.state.takeId.1, s.withState s.state.takeId.2)

def defineSegment (request : SegmentRequest) (owner : String) : Procedure Segment :=
  if Text.isBlank request.name then
    refuse (.validation "Name and at least one rule are required")
  else do
    let count ← ask fun s => s.estimate request.rules
    let id ← takeId
    change fun s =>
      let segment : Segment :=
        ⟨id, request.name, request.description, request.rules, count, owner, true, s.now, s.now⟩
      (segment, { s with catalog := s.catalog.insert segment })

def openCampaign (request : CampaignRequest) (owner : String) : Procedure Campaign := do
  let (segmentId, template) ← ask fun _ => request.validate
  let segment ← ask fun s => s.catalog.owned segmentId owner
  ask fun _ => segment.rules.validate
  let customers ← ask fun s => s.catalog.members s.outages segment s.now
  if customers.isEmpty then refuse (.zeroMatch segment.id)
  else do
    let id ← takeId
    let campaign ← change fun s =>
      let campaign := s.draft id request.name segmentId template owner customers.length
      (campaign, s.withState { s.state with campaigns := s.state.campaigns.insert campaign })
    change fun s => (campaign, { s with
      simulation := s.simulation.dispatchInBackground campaign.id (customers.map Customer.id) })

def receive (receipt : Receipt) : Procedure Outcome := do
  ask fun _ => receipt.validate
  match ← ask fun s => s.state.findByMessage receipt.messageId with
  | none => refuse receipt.recordNotFound
  | some record =>
    let outcome ← call fun state =>
      state.advanceRecord record.id receipt.status (receipt.timestamp.getD state.now)
    match outcome with
    | .applied =>
      let _ ← change fun s =>
        ((s.state.cancelWalk record.id).1, s.withState (s.state.cancelWalk record.id).2)
      change fun s => (outcome, s.withState
        (s.state.emitMessage .receiptApplied record.campaignId record.customerId record.messageId))
    | .stale => pure outcome
    | .notFound => refuse receipt.recordNotFound

def recompute (id : Uuid) (owner : String) : Procedure CampaignStats := do
  let _ ← ask fun s => s.ownedCampaign id owner
  match ← ask fun s => s.state.fetchCampaign id with
  | none => refuse (.campaignNotFound id)
  | some campaign =>
    let records ← ask fun s => s.state.findRecords (.campaign id)
    let stats := campaign.stats.refreshed records
    call fun state => (fun counted => (stats, counted)) <$> state.setStats id stats

def removeCampaign (id : Uuid) (owner : String) : Procedure Nat := do
  let _ ← ask fun s => s.ownedCampaign id owner
  let before ← change fun s => s.cancelAll id
  let during ← change fun s =>
    if s.simulation.isRegistered id then
      { s with simulation := (s.simulation.drop id).settle }.cancelAll id
    else (0, s)
  change fun s => (before + during,
    s.withState { s.state with campaigns := (s.state.campaigns.delete id).2 })

end Procedure

/-- What is asked of a desk in one call. -/
inductive Request
  | defineSegment (request : SegmentRequest) (owner : String)
  | estimate (rules : Segment.RuleSet)
  | overview (rules : Segment.RuleSet)
  | openCampaign (request : CampaignRequest) (owner : String)
  | ownedCampaign (id : Uuid) (owner : String)
  | campaignLog (id : Uuid) (owner : String)
  | receive (receipt : Receipt)
  | recompute (id : Uuid) (owner : String)
  | removeCampaign (id : Uuid) (owner : String)

namespace Request

/-- What an answer tells. -/
def Reply : Request → Type
  | defineSegment _ _ => Segment
  | estimate _ => Nat
  | overview _ => Overview
  | openCampaign _ _ => Campaign
  | ownedCampaign _ _ => Campaign
  | campaignLog _ _ => List LogEntry
  | receive _ => Outcome
  | recompute _ _ => CampaignStats
  | removeCampaign _ _ => Nat

def procedure : (r : Request) → Procedure r.Reply
  | defineSegment request owner => .defineSegment request owner
  | estimate rules => .ask fun s => s.estimate rules
  | overview rules => .ask fun s => s.overview rules
  | openCampaign request owner => .openCampaign request owner
  | ownedCampaign id owner => .ask fun s => s.ownedCampaign id owner
  | campaignLog id owner => .ask fun s => s.campaignLog id owner
  | receive receipt => .receive receipt
  | recompute id owner => .recompute id owner
  | removeCampaign id owner => .removeCampaign id owner

end Request

/-- A question takes nothing from the desk and leaves nothing there. -/
def inspect {α : Type} (s : Desk) (answer : Answer α) : Answer (α × Desk) :=
  (fun a => (a, s)) <$> answer

/-- What the desk answers, with the desk as it is then. -/
def serve (s : Desk) : (r : Request) → Answer (r.Reply × Desk)
  | .defineSegment request owner => s.defineSegment request owner
  | .estimate rules => s.inspect (s.estimate rules)
  | .overview rules => s.inspect (s.overview rules)
  | .openCampaign request owner => s.openCampaign request owner
  | .ownedCampaign id owner => s.inspect (s.ownedCampaign id owner)
  | .campaignLog id owner => s.inspect (s.campaignLog id owner)
  | .receive receipt => s.receive receipt
  | .recompute id owner => s.recompute id owner
  | .removeCampaign id owner => s.removeCampaign id owner

/-- The answer of a call, and the desk after it if a refused call leaves the desk as it was. -/
def settled {α : Type} (s : Desk) : Answer (α × Desk) → Answer α × Desk
  | .ok (a, t) => (.ok a, t)
  | .error e => (.error e, s)

/-! ## Steps that add up to the calls -/

section

variable {α β : Type}

theorem settled_inspect (s : Desk) (answer : Answer α) :
    s.settled (s.inspect answer) = (answer, s) := by
  cases answer with
  | error e => rfl
  | ok a => rfl

/-- A call that begins with a question fails with it, or goes on with its answer. -/
theorem ask_bind {question : Desk → Answer α} {next : α → Procedure β} {f : α → Answer (β × Desk)}
    (agree : ∀ a, question s = .ok a → next a s = s.settled (f a)) :
    (Procedure.ask question >>= next) s = s.settled (question s >>= f) := by
  simp only [bind, Procedure.ask]
  cases h : question s with
  | error e => rfl
  | ok a => exact agree a h

theorem call_bind {f : DeliveryState → Answer (α × DeliveryState)} {next : α → Procedure β}
    {g : α × DeliveryState → Answer (β × Desk)}
    (agree : ∀ a state, f s.state = .ok (a, state) →
      next a (s.withState state) = s.settled (g (a, state))) :
    (Procedure.call f >>= next) s = s.settled (f s.state >>= g) := by
  simp only [bind, Procedure.call]
  cases h : f s.state with
  | error e => rfl
  | ok answer => exact agree answer.1 answer.2 h

end

theorem advanceRecord_notFound {state later : DeliveryState} {id : Uuid} {status : DeliveryStatus}
    {time : Instant} (h : state.advanceRecord id status time = .ok (.notFound, later)) :
    later = state := by
  rcases DeliveryState.advanceRecord_ok h with ⟨-, rfl⟩ | ⟨houtcome, rfl⟩
  · rfl
  · rw [RecordBook.advance_notFound houtcome.symm]

theorem procedure_defineSegment (s : Desk) (request : SegmentRequest) (owner : String) :
    Procedure.defineSegment request owner s = s.settled (s.defineSegment request owner) := by
  simp only [Procedure.defineSegment, Desk.defineSegment, Catalog.create, Catalog.draft]
  split
  · rfl
  · simp only [bind_assoc]
    exact ask_bind fun count _ => rfl

theorem procedure_openCampaign (s : Desk) (request : CampaignRequest) (owner : String) :
    Procedure.openCampaign request owner s = s.settled (s.openCampaign request owner) := by
  rw [Procedure.openCampaign, Desk.openCampaign]
  refine ask_bind fun complete _ => ?_
  refine ask_bind fun segment _ => ?_
  refine ask_bind fun _ _ => ?_
  rw [recipients]
  simp only [bind_assoc]
  refine ask_bind fun customers _ => ?_
  split
  · rfl
  · rfl

theorem procedure_receive (s : Desk) (receipt : Receipt) :
    Procedure.receive receipt s = s.settled (s.receive receipt) := by
  rw [Procedure.receive, Desk.receive, DeliveryState.receive]
  simp only [bind_assoc]
  refine ask_bind fun _ _ => ?_
  refine ask_bind fun found _ => ?_
  cases found with
  | none => rfl
  | some record =>
    simp only [pure_bind, bind_assoc]
    refine call_bind fun outcome state advanced => ?_
    cases outcome with
    | applied => rfl
    | stale => rfl
    | notFound =>
      rw [advanceRecord_notFound advanced]
      rfl

theorem procedure_recompute (s : Desk) (id : Uuid) (owner : String) :
    Procedure.recompute id owner s = s.settled (s.recompute id owner) := by
  rw [Procedure.recompute, Desk.recompute]
  refine ask_bind fun _ _ => ?_
  rw [DeliveryState.recompute]
  simp only [bind_assoc]
  refine ask_bind fun found _ => ?_
  cases found with
  | none => rfl
  | some campaign =>
    simp only [pure_bind, bind_assoc]
    refine ask_bind fun records _ => ?_
    rw [Procedure.call]
    cases s.state.setStats id (campaign.stats.refreshed records) with
    | error e => rfl
    | ok state => rfl

theorem procedure_removeCampaign (s : Desk) (id : Uuid) (owner : String) :
    Procedure.removeCampaign id owner s = s.settled (s.removeCampaign id owner) := by
  rw [Procedure.removeCampaign, Desk.removeCampaign]
  refine ask_bind fun _ _ => ?_
  rw [stop]
  simp only [bind, Procedure.change]
  split
  · rfl
  · rfl

/-- The steps of a request add up to the call, and a refused one has changed nothing. -/
theorem procedure_eq (s : Desk) (r : Request) : r.procedure s = s.settled (s.serve r) := by
  cases r with
  | defineSegment request owner => exact s.procedure_defineSegment request owner
  | estimate rules => exact (s.settled_inspect (s.estimate rules)).symm
  | overview rules => exact (s.settled_inspect (s.overview rules)).symm
  | openCampaign request owner => exact s.procedure_openCampaign request owner
  | ownedCampaign id owner => exact (s.settled_inspect (s.ownedCampaign id owner)).symm
  | campaignLog id owner => exact (s.settled_inspect (s.campaignLog id owner)).symm
  | receive receipt => exact s.procedure_receive receipt
  | recompute id owner => exact s.procedure_recompute id owner
  | removeCampaign id owner => exact s.procedure_removeCampaign id owner

/-! ## Desks that can come about -/

/-- Operations bring one desk to the other, while calls go out of order and back in order. -/
inductive ComesTo (start : Desk) : Desk → Prop
  | start : ComesTo start start
  | perform {s : Desk} (reached : ComesTo start s) (o : Operation) : ComesTo start (s.perform o)
  | setOutages {s : Desk} (reached : ComesTo start s) (outages : Outages) :
      ComesTo start (s.setOutages outages)

theorem ComesTo.performAll {start : Desk} (reached : start.ComesTo s)
    (operations : List Operation) : start.ComesTo (s.performAll operations) := by
  induction operations generalizing s with
  | nil => exact reached
  | cons o rest ih => exact ih (reached.perform o)

theorem ComesTo.orderly {start : Desk} (reached : start.ComesTo s)
    (orderly : start.simulation.Orderly) : s.simulation.Orderly := by
  induction reached with
  | start => exact orderly
  | @perform s _ o ih =>
    rw [simulation_perform]
    exact Simulation.orderly_run ih (s.effects o)
  | setOutages _ outages ih => exact Simulation.orderly_act ih (.setOutages outages)

theorem orderly_start {settings : Settings} {directory : Directory} {now : Instant}
    (h : Desk.start settings directory now = .ok s) : s.simulation.Orderly := by
  obtain ⟨state, rfl, hstate⟩ := start_ok h
  exact Simulation.orderly_ofState (DeliveryState.idle_start hstate)

/-- A receipt that comes too late finds its record and leaves it. -/
theorem receive_stale (orderly : s.simulation.Orderly) {receipt : Receipt}
    (h : s.receive receipt = .ok (.stale, t)) : t = s := by
  simp only [receive, Answer.bind_eq_ok] at h
  obtain ⟨⟨_, state⟩, hreceived, h⟩ := h
  obtain ⟨rfl, rfl⟩ := Prod.mk.inj (Answer.pure_eq_ok.mp h)
  obtain ⟨record, -, hdelivered⟩ := DeliveryState.receive_ok hreceived
  simp only [DeliveryState.deliver, Answer.bind_eq_ok] at hdelivered
  obtain ⟨⟨outcome, later⟩, hadvanced, hdelivered⟩ := hdelivered
  have distinct : (s.state.records.records.map MessageRecord.id).Nodup :=
    (List.nodup_append.mp orderly.reserved.distinct).1
  cases outcome with
  | applied => cases Answer.pure_eq_ok.mp hdelivered
  | notFound => exact absurd hdelivered Answer.throw_ne_ok
  | stale =>
    cases Answer.pure_eq_ok.mp hdelivered
    rcases DeliveryState.advanceRecord_ok hadvanced with ⟨hnone, -⟩ | ⟨hstale, rfl⟩
    · cases hnone
    · rw [RecordBook.advance_stale distinct hstale.symm]
      rfl

theorem settled_error {α : Type} {answer : Answer (α × Desk)} {e : Error}
    (h : s.settled answer = (.error e, t)) : answer = .error e ∧ t = s := by
  cases answer with
  | error cause =>
    obtain ⟨hcause, rfl⟩ := Prod.mk.inj h
    cases hcause
    exact ⟨rfl, rfl⟩
  | ok answer =>
    obtain ⟨hanswer, -⟩ := Prod.mk.inj h
    cases hanswer

theorem settled_ok {α : Type} {answer : Answer (α × Desk)} {a : α}
    (h : s.settled answer = (.ok a, t)) : answer = .ok (a, t) := by
  cases answer with
  | error cause =>
    obtain ⟨hcause, -⟩ := Prod.mk.inj h
    cases hcause
  | ok answer =>
    obtain ⟨hanswer, rfl⟩ := Prod.mk.inj h
    cases hanswer
    rfl

/-- A request that is refused leaves the whole desk as it was: segments, campaigns, records, walks,
cancellations, dispatches, the generator and the events. So does a receipt that comes too late. -/
theorem refused_request_changes_nothing {settings : Settings} {directory : Directory}
    {now : Instant} {start : Desk} (h : Desk.start settings directory now = .ok start)
    (reached : start.ComesTo s) :
    (∀ (r : Request) e t, r.procedure s = (.error e, t) → s.serve r = .error e ∧ t = s) ∧
      ∀ receipt t, (Request.receive receipt).procedure s = (.ok Outcome.stale, t) →
        s.receive receipt = .ok (.stale, s) ∧ t = s := by
  constructor
  · intro r e t hr
    rw [procedure_eq] at hr
    exact settled_error hr
  · intro receipt t hr
    rw [procedure_eq] at hr
    have hstale : s.receive receipt = .ok (.stale, t) := settled_ok hr
    have hsame := receive_stale (reached.orderly (orderly_start h)) hstale
    rw [hsame] at hstale
    exact ⟨hstale, hsame⟩

/-- A campaign is not deleted for somebody else, and a receipt that comes a second time is stale.
Neither of them leaves a trace. -/
theorem second_receipt_changes_nothing :
    let customer : Customer :=
      ⟨"cust-00", "Customer 0", none, true, .empty, ⟨none, none, none⟩, ⟨none⟩, []⟩
    let settings : Settings := ⟨"node", .default, Sample.settings 1⟩
    let start : Desk := ⟨.start (.ofList [customer]) .default, .ofState (Sample.delivery 1)⟩
    let step : Operation := .background (.work (.dispatch 0))
    let receipt : Receipt := ⟨"msg_0_cust-00", .opened, none⟩
    let s := start.performAll
      [.defineSegment ⟨"Active", none, .and, [.make "is_active" "==" (.bool true)]⟩ "ana",
        .openCampaign ⟨"First", some (.fresh 0), some ⟨"Hi", "Sale"⟩⟩ "ana", step, step,
        .background (.receive receipt)]
    Desk.start settings (.ofList [customer]) ⟨0, 0⟩ = .ok start ∧ start.ComesTo s ∧
      (Request.removeCampaign (.fresh 1) "bob").procedure s =
        (.error (.campaignNotFound (.fresh 1)), s) ∧
      (Request.receive receipt).procedure s = (.ok Outcome.stale, s) := by
  intro customer settings start step receipt s
  have hstart : Desk.start settings (.ofList [customer]) ⟨0, 0⟩ = .ok start :=
    Sample.start_desk [customer]
  have hreached : start.ComesTo s := ComesTo.start.performAll _
  obtain ⟨refused, late⟩ := refused_request_changes_nothing hstart hreached
  have hremoved : (Procedure.removeCampaign (.fresh 1) "bob" s).1 =
      .error (.campaignNotFound (.fresh 1)) := by decide +kernel
  have hreceived : (Procedure.receive receipt s).1 = .ok .stale := by decide +kernel
  refine ⟨hstart, hreached, ?_, ?_⟩
  · obtain ⟨-, hsame⟩ :=
      refused (.removeCampaign (.fresh 1) "bob") _ _ (Prod.ext hremoved rfl)
    exact Prod.ext hremoved hsame
  · obtain ⟨-, hsame⟩ := late receipt _ (Prod.ext hreceived rfl)
    exact Prod.ext hreceived hsame

end Desk

end Outreach
