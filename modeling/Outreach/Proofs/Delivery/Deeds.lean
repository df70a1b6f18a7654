import Outreach.Proofs.Delivery.Effects

/-!
# What a dispatch has done

Each step of a dispatch makes one call to the books and learns whether it failed. The exchanges of a
dispatch follow one another in a fixed way. Its beginning comes first, then the attempts to create
records, then the count and the completion. A failure of anything but an attempt is followed by one
call that marks the campaign as failed, and by nothing else. The tally agrees with the attempts at
every moment, whatever the books answer and whatever happens between the steps.
-/

namespace Outreach

/-- What a dispatch asks of the books. -/
inductive Call
  | startProcessing (total : Nat)
  | addRecord (record : MessageRecord)
  | findRecords
  | completeCampaign (stats : CampaignStats)
  | failCampaign (reason : String)

/-- A call, with the cause of its failure if it failed. -/
structure Exchange where
  call : Call
  fault : Option Error

namespace Exchange

def isAttempt (x : Exchange) : Prop :=
  ∃ record, x.call = .addRecord record

/-- The record that was created. -/
def created? (x : Exchange) : Option MessageRecord :=
  match x.call, x.fault with
  | .addRecord record, none => some record
  | _, _ => none

/-- The creation of a record failed. -/
def refused (x : Exchange) : Bool :=
  match x.call, x.fault with
  | .addRecord _, some _ => true
  | _, _ => false

/-- The cause of a failure that the dispatch does not survive. -/
def fatal? (x : Exchange) : Option Error :=
  match x.call with
  | .startProcessing _ | .findRecords | .completeCampaign _ => x.fault
  | _ => none

/-- The statistics that the campaign was completed with. -/
def completed? (x : Exchange) : Option CampaignStats :=
  match x.call, x.fault with
  | .completeCampaign stats, none => some stats
  | _, _ => none

/-- The reason for which the campaign was to be marked as failed. -/
def marked? (x : Exchange) : Option String :=
  match x.call with
  | .failCampaign reason => some reason
  | _ => none

/-- The milestone that is reported after the exchange. -/
def milestone? (x : Exchange) : Option EventKind :=
  match x.call, x.fault with
  | .startProcessing _, none => some .campaignProcessing
  | .completeCampaign _, none => some .campaignCompleted
  | .failCampaign _, _ => some .campaignFailed
  | _, _ => none

end Exchange

/-- The call that the next step of a dispatch makes. -/
def Dispatch.call? (d : Dispatch) : Option Call :=
  match d.phase with
  | .starting _ => some (.startProcessing d.total)
  | .creating next _ _ _ _ => some (.addRecord next)
  | .counting _ => some .findRecords
  | .completing stats => some (.completeCampaign stats)
  | .aborting cause => some (.failCampaign cause.message)
  | .ended _ => none

/-- Whether a call that concerns a campaign is answered. -/
def DeliveryState.answer (s : DeliveryState) (campaign : Uuid) : Call → Answer Unit
  | .startProcessing total => (s.startProcessing campaign total).map fun _ => ()
  | .addRecord record => (s.addRecord record).map fun _ => ()
  | .findRecords => (s.findRecords (.campaign campaign)).map fun _ => ()
  | .completeCampaign stats => (s.completeCampaign campaign stats).map fun _ => ()
  | .failCampaign reason => (s.failCampaign campaign reason).map fun _ => ()

/-- A step of a dispatch, together with the state in which it was taken. -/
structure Deed where
  state : DeliveryState
  dispatch : Dispatch

namespace Deed

/-- The dispatch after the step. -/
def next (x : Deed) : Dispatch :=
  (x.state.stepDispatch x.dispatch).1

/-- The state after the step. -/
def result (x : Deed) : DeliveryState :=
  (x.state.stepDispatch x.dispatch).2

def exchange? (x : Deed) : Option Exchange :=
  x.dispatch.call?.map fun call =>
    match x.state.answer x.dispatch.campaign call with
    | .ok _ => ⟨call, none⟩
    | .error cause => ⟨call, some cause⟩

/-- The milestones that the step reports to a recorder that captures. -/
def milestones (x : Deed) : List (EventKind × Uuid) :=
  let listening : DeliveryState := { x.state with recorder := .capturing }
  (listening.stepDispatch x.dispatch).2.recorder.milestones

/-- The exchanges of a dispatch, in order. -/
def exchanges (deeds : List Deed) : List Exchange :=
  deeds.filterMap exchange?

theorem exchanges_concat (deeds : List Deed) {x : Deed} {e : Exchange}
    (h : x.exchange? = some e) : exchanges (deeds ++ [x]) = exchanges deeds ++ [e] := by
  simp [exchanges, List.filterMap_append, h]

end Deed

/-- The records created in some exchanges. -/
def Exchange.created (exchanges : List Exchange) : List MessageRecord :=
  exchanges.filterMap created?

/-- How many creations were refused in some exchanges. -/
def Exchange.refusals (exchanges : List Exchange) : Nat :=
  exchanges.countP refused

/-! ## Single steps -/

namespace Deed

variable {x : Deed}

theorem answer_listening (s : DeliveryState) (r : EventRecorder) (campaign : Uuid) (call : Call) :
    ({ s with recorder := r } : DeliveryState).answer campaign call = s.answer campaign call := by
  cases call with
  | startProcessing total =>
    simp only [DeliveryState.answer, DeliveryState.startProcessing]
    cases s.outages.check .startProcessing with
    | error e => rfl
    | ok _ => cases s.campaigns.startProcessing campaign total s.now <;> rfl
  | addRecord record =>
    simp only [DeliveryState.answer, DeliveryState.addRecord]
    cases s.outages.check .addRecord with
    | error e => rfl
    | ok _ =>
      cases s.outages.check (.addRecordFor record.customerId) with
      | error e => rfl
      | ok _ => cases s.records.create record <;> rfl
  | findRecords => rfl
  | completeCampaign stats =>
    simp only [DeliveryState.answer, DeliveryState.completeCampaign]
    cases s.outages.check .completeCampaign with
    | error e => rfl
    | ok _ => cases s.campaigns.complete campaign stats s.now <;> rfl
  | failCampaign reason =>
    simp only [DeliveryState.answer, DeliveryState.failCampaign]
    cases s.outages.check .failCampaign with
    | error e => rfl
    | ok _ => cases s.campaigns.failCampaign campaign reason s.now <;> rfl

/-- The exchange does not depend on who listens. -/
theorem exchange?_listening (x : Deed) (r : EventRecorder) :
    exchange? ⟨{ x.state with recorder := r }, x.dispatch⟩ = x.exchange? := by
  simp only [exchange?, answer_listening]

theorem exchange?_ok {call : Call} (h : x.dispatch.call? = some call)
    (answered : x.state.answer x.dispatch.campaign call = .ok ()) :
    x.exchange? = some ⟨call, none⟩ := by
  simp [exchange?, h, answered]

theorem exchange?_error {call : Call} {cause : Error} (h : x.dispatch.call? = some call)
    (failed : x.state.answer x.dispatch.campaign call = .error cause) :
    x.exchange? = some ⟨call, some cause⟩ := by
  simp [exchange?, h, failed]

theorem exchange?_started {recipients : List String} {t : DeliveryState}
    (phase : x.dispatch.phase = .starting recipients)
    (answered : x.state.startProcessing x.dispatch.campaign x.dispatch.total = .ok t) :
    x.exchange? = some ⟨.startProcessing x.dispatch.total, none⟩ :=
  exchange?_ok (by simp [Dispatch.call?, phase])
    (by simp [DeliveryState.answer, answered, Except.map])

theorem exchange?_counted {tally : Tally} {records : List MessageRecord}
    (phase : x.dispatch.phase = .counting tally)
    (answered : x.state.findRecords (.campaign x.dispatch.campaign) = .ok records) :
    x.exchange? = some ⟨.findRecords, none⟩ :=
  exchange?_ok (by simp [Dispatch.call?, phase])
    (by simp [DeliveryState.answer, answered, Except.map])

theorem exchange?_completed {stats : CampaignStats} {t : DeliveryState}
    (phase : x.dispatch.phase = .completing stats)
    (answered : x.state.completeCampaign x.dispatch.campaign stats = .ok t) :
    x.exchange? = some ⟨.completeCampaign stats, none⟩ :=
  exchange?_ok (by simp [Dispatch.call?, phase])
    (by simp [DeliveryState.answer, answered, Except.map])

theorem exchange?_marked {cause : Error} (phase : x.dispatch.phase = .aborting cause) :
    ∃ fault, x.exchange? = some ⟨.failCampaign cause.message, fault⟩ := by
  have hcall : x.dispatch.call? = some (.failCampaign cause.message) := by
    simp [Dispatch.call?, phase]
  cases ha : x.state.answer x.dispatch.campaign (.failCampaign cause.message) with
  | ok _ => exact ⟨none, exchange?_ok hcall ha⟩
  | error e => exact ⟨some e, exchange?_error hcall ha⟩

/-- An attempt has created its record, or its failure is part of the exchange. -/
theorem exchange?_attempted {record : MessageRecord} {more : List MessageRecord}
    {tried : List (Option MessageRecord)} {rest : List String} {tally : Tally}
    {attempt : Option MessageRecord} {t : DeliveryState}
    (phase : x.dispatch.phase = .creating record more tried rest tally)
    (attempted : DeliveryState.Attempted x.state record attempt t) :
    ∃ fault, x.exchange? = some ⟨.addRecord record, fault⟩ ∧
      (attempt = if fault = none then some record else none) := by
  have hcall : x.dispatch.call? = some (.addRecord record) := by simp [Dispatch.call?, phase]
  cases attempted with
  | created answered kept =>
    refine ⟨none, exchange?_ok hcall ?_, by simp [kept]⟩
    simp [DeliveryState.answer, answered, Except.map]
  | refused cause failed kept _ =>
    refine ⟨some cause, exchange?_error hcall ?_, by simp [kept]⟩
    simp [DeliveryState.answer, failed, Except.map]

/-- A call that failed for a dispatch to stop is part of the exchange as well. -/
theorem exchange?_stopped {cause : Error}
    (failed : (∃ recipients, x.dispatch.phase = .starting recipients ∧
        x.state.startProcessing x.dispatch.campaign x.dispatch.total = .error cause) ∨
      (∃ tally, x.dispatch.phase = .counting tally ∧
        x.state.findRecords (.campaign x.dispatch.campaign) = .error cause) ∨
      ∃ stats, x.dispatch.phase = .completing stats ∧
        x.state.completeCampaign x.dispatch.campaign stats = .error cause) :
    ∃ call, x.dispatch.call? = some call ∧ x.exchange? = some ⟨call, some cause⟩ := by
  rcases failed with ⟨recipients, phase, hfail⟩ | ⟨tally, phase, hfail⟩ | ⟨stats, phase, hfail⟩
  · have hcall : x.dispatch.call? = some (.startProcessing x.dispatch.total) := by
      simp [Dispatch.call?, phase]
    exact ⟨_, hcall, exchange?_error hcall (by simp [DeliveryState.answer, hfail, Except.map])⟩
  · have hcall : x.dispatch.call? = some .findRecords := by simp [Dispatch.call?, phase]
    exact ⟨_, hcall, exchange?_error hcall (by simp [DeliveryState.answer, hfail, Except.map])⟩
  · have hcall : x.dispatch.call? = some (.completeCampaign stats) := by
      simp [Dispatch.call?, phase]
    exact ⟨_, hcall, exchange?_error hcall (by simp [DeliveryState.answer, hfail, Except.map])⟩

theorem step_spec (x : Deed) :
    DeliveryState.DispatchStep x.state x.dispatch x.next x.result :=
  DeliveryState.stepDispatch_spec x.state x.dispatch

theorem milestones_emitCampaign {s : DeliveryState} (captures : s.recorder.captures = true)
    {type : EventKind} (milestone : type.isMilestone = true) (campaign : Uuid) :
    (s.emitCampaign type campaign).recorder.milestones =
      s.recorder.milestones ++ [(type, campaign)] :=
  EventRecorder.milestones_emit_campaign
    (e := ⟨s.takeId.1, type, campaign, none, none, s.nodeId, s.now⟩) milestone captures

/-- A recorder that captures hears the milestone of the exchange and no other. -/
theorem milestones_result (x : Deed) (captures : x.state.recorder.captures = true) :
    x.result.recorder.milestones = x.state.recorder.milestones ++
      ((x.exchange?.bind Exchange.milestone?).map fun type =>
        (type, x.dispatch.campaign)).toList := by
  have hnone : ∀ t : DeliveryState, t.recorder.heard = x.state.recorder.heard →
      t.recorder.milestones = x.state.recorder.milestones ++ [] := by
    intro t ht
    rw [List.append_nil]
    exact congrArg Prod.snd ht
  cases x.step_spec with
  | begun recipients u phase answered next =>
    obtain ⟨book, _, rfl⟩ := DeliveryState.startProcessing_ok answered
    have hkept := congrArg Prod.snd next.kept.heard
    rw [exchange?_started phase answered]
    exact hkept.trans (milestones_emitCampaign captures rfl _)
  | tried record more tried rest tally attempt u phase attempted after =>
    obtain ⟨fault, hx, _⟩ := exchange?_attempted (x := x) phase attempted
    obtain ⟨book, rfl, _⟩ := attempted.book
    rw [hx, hnone _ after.kept.heard]
    cases fault <;> rfl
  | counted tally phase answered _ state =>
    rw [exchange?_counted phase answered, state]
    exact hnone _ rfl
  | completed stats u phase answered _ state =>
    obtain ⟨book, _, rfl⟩ := DeliveryState.completeCampaign_ok answered
    rw [exchange?_completed phase answered, state]
    exact milestones_emitCampaign captures rfl _
  | stopped cause failed _ state =>
    obtain ⟨call, hcall, hx⟩ := exchange?_stopped failed
    have hmilestone : Exchange.milestone? ⟨call, some cause⟩ = none := by
      rcases failed with ⟨_, phase, _⟩ | ⟨_, phase, _⟩ | ⟨_, phase, _⟩ <;>
        simp only [Dispatch.call?, phase, Option.some.injEq] at hcall <;> rw [← hcall] <;> rfl
    rw [hx, state, Option.bind_some, hmilestone]
    exact hnone _ rfl
  | failed cause phase _ state =>
    obtain ⟨fault, hx⟩ := exchange?_marked (x := x) phase
    obtain ⟨book, hbook, _⟩ :=
      DeliveryState.failCampaign_book x.state x.dispatch.campaign cause.message
    rw [hx, state, hbook]
    exact milestones_emitCampaign captures rfl x.dispatch.campaign
  | ended how phase _ state =>
    have hx : x.exchange? = none := by simp [exchange?, Dispatch.call?, phase]
    rw [hx, state]
    exact hnone _ rfl

/-- A step reports the milestone of its exchange and no other. -/
theorem milestones_eq (x : Deed) :
    x.milestones =
      ((x.exchange?.bind Exchange.milestone?).map fun type =>
        (type, x.dispatch.campaign)).toList := by
  have h := milestones_result ⟨{ x.state with recorder := .capturing }, x.dispatch⟩ rfl
  rw [exchange?_listening] at h
  exact h

/-- A call that stops the dispatch, and the one that marks the campaign, leave the records and the
agenda alone. -/
theorem untouched {e : Exchange} (h : x.exchange? = some e)
    (stops : e.fatal?.isSome ∨ e.marked?.isSome) :
    x.result.records = x.state.records ∧ x.result.agenda = x.state.agenda := by
  have hsame : ∀ e', x.exchange? = some e' → e = e' := by
    intro e' he'
    rw [h] at he'
    exact Option.some.inj he'
  cases x.step_spec with
  | begun recipients u phase answered _ =>
    have he := hsame _ (exchange?_started phase answered)
    subst he
    simp [Exchange.fatal?, Exchange.marked?] at stops
  | tried record more tried rest tally attempt u phase attempted _ =>
    obtain ⟨fault, hx, _⟩ := exchange?_attempted (x := x) phase attempted
    have he := hsame _ hx
    subst he
    simp [Exchange.fatal?, Exchange.marked?] at stops
  | counted _ _ _ _ state => exact ⟨by rw [state], by rw [state]⟩
  | completed stats u phase answered _ state =>
    have he := hsame _ (exchange?_completed phase answered)
    subst he
    simp [Exchange.fatal?, Exchange.marked?] at stops
  | stopped _ _ _ state => exact ⟨by rw [state], by rw [state]⟩
  | failed cause phase _ state =>
    obtain ⟨_, hbook, _⟩ :=
      DeliveryState.failCampaign_book x.state x.dispatch.campaign cause.message
    rw [state, hbook]
    exact ⟨rfl, rfl⟩
  | ended _ _ _ state => exact ⟨by rw [state], by rw [state]⟩

end Deed

end Outreach
