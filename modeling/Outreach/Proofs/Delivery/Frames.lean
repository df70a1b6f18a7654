import Outreach.Delivery.Dispatch
import Outreach.Delivery.Receipt
import Outreach.Delivery.WalkStep
import Outreach.Proofs.Answer
import Outreach.Proofs.Delivery.Agenda
import Outreach.Proofs.Delivery.Records

/-!
# What the parts of a delivery leave alone

Reports, draws and waits leave the clock and both books as they are. A step of a walk does so as
well, except that it may move the record of its entry forward. A receipt that finds its record does
nothing but move it forward, and when that is applied it takes the place of the pending walk.
-/

namespace Outreach

/-- The event marks a turn of a campaign as a whole. -/
def EventKind.isMilestone : EventKind → Bool
  | .campaignProcessing | .campaignCompleted | .campaignFailed => true
  | _ => false

theorem EventKind.isMilestone_ofStatus (d : DeliveryStatus) :
    (EventKind.ofStatus d).isMilestone = false := by
  cases d <;> rfl

/-- What an event tells, whenever and by whichever node it is told. -/
structure Report where
  type : EventKind
  campaignId : Uuid
  customerId : Option String
  messageId : Option String
  deriving DecidableEq

def Event.report (e : Event) : Report :=
  ⟨e.type, e.campaignId, e.customerId, e.messageId⟩

namespace EventRecorder

/-- What was told, in the order in which it happened. -/
def reports (s : EventRecorder) : List Report :=
  s.events.map Event.report

/-- The later recorder has been told something more than the earlier one. -/
structure Tells (s t : EventRecorder) (told : List Report) : Prop where
  captures : t.captures = s.captures
  reports : s.captures = true → t.reports = s.reports ++ told

theorem Tells.of_eq {s t : EventRecorder} (h : t = s) : s.Tells t [] := by
  subst h
  exact ⟨rfl, fun _ => (List.append_nil _).symm⟩

theorem Tells.trans {s t u : EventRecorder} {told later : List Report} (h : s.Tells t told)
    (k : t.Tells u later) : s.Tells u (told ++ later) := by
  constructor
  · exact k.captures.trans h.captures
  · intro captures
    rw [k.reports (h.captures.trans captures), h.reports captures, List.append_assoc]

theorem tells_emit (s : EventRecorder) (e : Event) : s.Tells (s.emit e) [e.report] := by
  constructor
  · rw [emit]
    split <;> rfl
  · intro captures
    rw [reports, events_emit captures, List.map_append]
    rfl

/-- The milestones that were kept, in the order in which they happened. -/
def milestones (s : EventRecorder) : List (EventKind × Uuid) :=
  (s.events.filter fun e => e.type.isMilestone).map fun e => (e.type, e.campaignId)

/-- Whether the recorder captures, and what it has kept of campaigns as a whole. -/
def heard (s : EventRecorder) : Bool × List (EventKind × Uuid) :=
  (s.captures, s.milestones)

theorem heard_emit_message {e : Event} (h : e.type.isMilestone = false) (s : EventRecorder) :
    (s.emit e).heard = s.heard := by
  by_cases hc : s.captures = true
  · simp [heard, milestones, events, emit, hc, h]
  · simp [heard, milestones, events, emit, hc]

theorem milestones_emit_campaign {e : Event} (h : e.type.isMilestone = true) {s : EventRecorder}
    (captures : s.captures = true) :
    (s.emit e).milestones = s.milestones ++ [(e.type, e.campaignId)] := by
  simp [milestones, events, emit, captures, h]

end EventRecorder

/-- The stage that comes next on the way of a walk. -/
def WalkProgress.next? : WalkProgress → Option Stage
  | .scheduled _ => some .delivered
  | .waiting stage _ => stage.next?

namespace DeliveryState

/-- The later state has the clock, the settings, the outages, the books and the milestones of the
earlier one. -/
structure Kept (s t : DeliveryState) : Prop where
  now : t.now = s.now
  settings : t.settings = s.settings
  outages : t.outages = s.outages
  campaigns : t.campaigns = s.campaigns
  records : t.records = s.records
  heard : t.recorder.heard = s.recorder.heard
  issued : s.issued ≤ t.issued

/-- The later state has the agenda of the earlier one as well. -/
structure Quiet (s t : DeliveryState) : Prop extends Kept s t where
  agenda : t.agenda = s.agenda

variable {s t u : DeliveryState}

theorem Kept.refl (s : DeliveryState) : Kept s s :=
  ⟨rfl, rfl, rfl, rfl, rfl, rfl, Nat.le_refl _⟩

theorem Kept.trans (h : Kept s t) (k : Kept t u) : Kept s u :=
  ⟨k.now.trans h.now, k.settings.trans h.settings, k.outages.trans h.outages,
    k.campaigns.trans h.campaigns, k.records.trans h.records, k.heard.trans h.heard,
    Nat.le_trans h.issued k.issued⟩

theorem Quiet.refl (s : DeliveryState) : Quiet s s :=
  ⟨Kept.refl s, rfl⟩

theorem Quiet.trans (h : Quiet s t) (k : Quiet t u) : Quiet s u :=
  ⟨h.toKept.trans k.toKept, k.agenda.trans h.agenda⟩

theorem quiet_emitMessage (s : DeliveryState) {type : EventKind}
    (h : type.isMilestone = false) (campaign : Uuid) (customerId messageId : String) :
    Quiet s (s.emitMessage type campaign customerId messageId) :=
  ⟨⟨rfl, rfl, rfl, rfl, rfl, EventRecorder.heard_emit_message h s.recorder, Nat.le_succ _⟩, rfl⟩

theorem tells_emitMessage (s : DeliveryState) (type : EventKind) (campaign : Uuid)
    (customerId messageId : String) :
    s.recorder.Tells (s.emitMessage type campaign customerId messageId).recorder
      [⟨type, campaign, some customerId, some messageId⟩] :=
  s.recorder.tells_emit _

theorem quiet_chance (s : DeliveryState) (p : Float) : Quiet s (s.chance p).2 :=
  ⟨⟨rfl, rfl, rfl, rfl, rfl, rfl, Nat.le_refl _⟩, rfl⟩

theorem quiet_drawDelay (s : DeliveryState) (w : DelayRange) : Quiet s (s.drawDelay w).2 :=
  ⟨⟨rfl, rfl, rfl, rfl, rfl, rfl, Nat.le_refl _⟩, rfl⟩

theorem quiet_takeTurn (s : DeliveryState) (before ms : Nat) :
    Quiet s (s.takeTurn before ms).2 := by
  rw [takeTurn]
  split
  · exact Quiet.refl s
  · exact ⟨⟨rfl, rfl, rfl, rfl, rfl, rfl, Nat.le_refl _⟩, rfl⟩

/-! ## Walks -/

/-- A wait for a stage that begins now may last until an instant. -/
def Waits (s : DeliveryState) (stage : Stage) (due : Instant) : Prop :=
  ∃ generator, due = s.now.addMillis ((stage.delay s.settings).draw generator).1

theorem Waits.of_same {stage : Stage} {due : Instant} (h : t.Waits stage due) (now : t.now = s.now)
    (settings : t.settings = s.settings) : s.Waits stage due := by
  rwa [Waits, now, settings] at h

/-- A walk that waits for a stage does so under the ticket of its entry. -/
theorem awaitStage_frame (s : DeliveryState) (e : PendingEntry Walk) (stage : Stage) :
    Kept s (s.awaitStage e stage) ∧
      ∃ due turn, s.Waits stage due ∧ (s.awaitStage e stage).agenda =
        s.agenda.progress e.ticket { e.work with progress := .waiting stage due, turn } := by
  let drawn := s.drawDelay (stage.delay s.settings)
  let waiting := drawn.2.takeTurn e.work.turn drawn.1
  have hdraw : Quiet s drawn.2 := quiet_drawDelay s (stage.delay s.settings)
  have hturn : Quiet drawn.2 waiting.2 := quiet_takeTurn drawn.2 e.work.turn drawn.1
  have hall := hdraw.trans hturn
  constructor
  · exact ⟨hall.now, hall.settings, hall.outages, hall.campaigns, hall.records, hall.heard,
      hall.issued⟩
  · refine ⟨waiting.2.now.addMillis drawn.1, waiting.1, ⟨s.generator, ?_⟩, ?_⟩
    · rw [hall.now]
      rfl
    · exact congrArg (Agenda.progress · e.ticket _) hall.agenda

theorem kept_endWalk (s : DeliveryState) (e : PendingEntry Walk) : Kept s (s.endWalk e) :=
  ⟨rfl, rfl, rfl, rfl, rfl, rfl, Nat.le_refl _⟩

/-- A walk that has passed a stage waits for the next one or ends. -/
theorem passStage_frame (s : DeliveryState) (e : PendingEntry Walk) (stage : Stage) :
    Kept s (s.passStage e stage) ∧
      (stage.next? = none ∧ (s.passStage e stage).agenda = s.agenda.finish e.ticket ∨
        ∃ next due turn, stage.next? = some next ∧ s.Waits next due ∧
          (s.passStage e stage).agenda =
            s.agenda.progress e.ticket { e.work with progress := .waiting next due, turn }) := by
  have hemit := quiet_emitMessage s (EventKind.isMilestone_ofStatus stage.status) e.campaign
    e.work.customerId e.work.messageId
  cases hnext : stage.next? with
  | none =>
    have heq : s.passStage e stage = (s.emitMessage (.ofStatus stage.status) e.campaign
        e.work.customerId e.work.messageId).endWalk e := by
      simp only [passStage, hnext]
    rw [heq]
    constructor
    · exact hemit.toKept.trans (kept_endWalk _ e)
    · exact Or.inl ⟨rfl, rfl⟩
  | some next =>
    have heq : s.passStage e stage = (s.emitMessage (.ofStatus stage.status) e.campaign
        e.work.customerId e.work.messageId).awaitStage e next := by
      simp only [passStage, hnext]
    rw [heq]
    obtain ⟨hkept, due, turn, hwaits, hagenda⟩ := awaitStage_frame (s.emitMessage
      (.ofStatus stage.status) e.campaign e.work.customerId e.work.messageId) e next
    constructor
    · exact hemit.toKept.trans hkept
    · right
      refine ⟨next, due, turn, rfl, hwaits.of_same hemit.now hemit.settings, hagenda.trans ?_⟩
      rw [hemit.agenda]

theorem recorder_takeTurn (s : DeliveryState) (before ms : Nat) :
    (s.takeTurn before ms).2.recorder = s.recorder := by
  rw [takeTurn]
  split <;> rfl

theorem recorder_awaitStage (s : DeliveryState) (e : PendingEntry Walk) (stage : Stage) :
    (s.awaitStage e stage).recorder = s.recorder :=
  recorder_takeTurn (s.drawDelay (stage.delay s.settings)).2 _ _

/-- A walk that passes a stage tells so, and nothing else. -/
theorem tells_passStage (s : DeliveryState) (e : PendingEntry Walk) (stage : Stage) :
    s.recorder.Tells (s.passStage e stage).recorder
      [⟨.ofStatus stage.status, e.campaign, some e.work.customerId, some e.work.messageId⟩] := by
  have htold := s.tells_emitMessage (.ofStatus stage.status) e.campaign e.work.customerId
    e.work.messageId
  cases hnext : stage.next? with
  | none =>
    simp only [passStage, hnext]
    exact htold
  | some next =>
    simp only [passStage, hnext]
    rwa [recorder_awaitStage]

/-- The later state differs by a move of records alone, as far as clock, settings, outages and books
go. -/
structure Advanced (s t : DeliveryState) (id : Uuid) (status : DeliveryStatus) (time : Instant) :
    Prop where
  now : t.now = s.now
  settings : t.settings = s.settings
  outages : t.outages = s.outages
  campaigns : t.campaigns = s.campaigns
  records : t.records = (s.records.advance id status time).2
  issued : s.issued ≤ t.issued

theorem Advanced.then_kept {id : Uuid} {status : DeliveryStatus} {time : Instant}
    (h : Advanced s t id status time) (k : Kept t u) : Advanced s u id status time :=
  ⟨k.now.trans h.now, k.settings.trans h.settings, k.outages.trans h.outages,
    k.campaigns.trans h.campaigns, k.records.trans h.records, Nat.le_trans h.issued k.issued⟩

/-- What an answered request to move a record has done. -/
theorem advanceRecord_ok {id : Uuid} {status : DeliveryStatus} {time : Instant}
    {outcome : Outcome} (h : s.advanceRecord id status time = .ok (outcome, t)) :
    (outcome = .notFound ∧ t = s) ∨
      (outcome = (s.records.advance id status time).1 ∧
        t = { s with records := (s.records.advance id status time).2 }) := by
  simp only [advanceRecord, Answer.bind_eq_ok] at h
  obtain ⟨_, _, _, _, h⟩ := h
  split at h
  · left
    obtain ⟨rfl, rfl⟩ := Prod.mk.inj (Answer.pure_eq_ok.mp h)
    exact ⟨rfl, rfl⟩
  · right
    obtain ⟨rfl, rfl⟩ := Prod.mk.inj (Answer.pure_eq_ok.mp h)
    exact ⟨rfl, rfl⟩

/-- The ways in which a pending walk takes a step. -/
inductive WalkStep (s : DeliveryState) (e : PendingEntry Walk) (t : DeliveryState) : Prop
  | begun (since due : Instant) (turn : Nat) (at_start : e.work.progress = .scheduled since)
      (kept : Kept s t)
      (agenda : t.agenda =
        s.agenda.progress e.ticket { e.work with progress := .waiting .delivered due, turn })
      (waits : s.Waits .delivered due) (silent : t.recorder = s.recorder)
  | missed (stage : Stage) (due : Instant) (waited : e.work.progress = .waiting stage due)
      (kept : Kept s t) (agenda : t.agenda = s.agenda.finish e.ticket)
      (silent : t.recorder = s.recorder)
  | refused (stage : Stage) (due : Instant) (waited : e.work.progress = .waiting stage due)
      (advanced : Advanced s t e.record stage.status s.now)
      (agenda : t.agenda = s.agenda.finish e.ticket)
      (unmoved : (s.records.advance e.record stage.status s.now).1 ≠ .applied)
      (silent : t.recorder = s.recorder)
  | passed (stage : Stage) (due : Instant) (waited : e.work.progress = .waiting stage due)
      (applied : (s.records.advance e.record stage.status s.now).1 = .applied)
      (advanced : Advanced s t e.record stage.status s.now)
      (agenda : stage.next? = none ∧ t.agenda = s.agenda.finish e.ticket ∨
        ∃ next due turn, stage.next? = some next ∧ s.Waits next due ∧ t.agenda =
          s.agenda.progress e.ticket { e.work with progress := .waiting next due, turn })
      (told : s.recorder.Tells t.recorder
        [⟨.ofStatus stage.status, e.campaign, some e.work.customerId, some e.work.messageId⟩])

theorem attemptStage_walkStep {e : PendingEntry Walk} {stage : Stage} {due : Instant}
    (waited : e.work.progress = .waiting stage due) :
    WalkStep s e (s.attemptStage e stage) := by
  have hdraw := quiet_chance s (stage.probability s.settings)
  have hsilent : (s.chance (stage.probability s.settings)).2.recorder = s.recorder := rfl
  generalize hc : s.chance (stage.probability s.settings) = drawn at hdraw hsilent
  obtain ⟨hit, u⟩ := drawn
  have hkept : Kept s (u.endWalk e) := hdraw.toKept.trans (kept_endWalk u e)
  have hfinish : (u.endWalk e).agenda = s.agenda.finish e.ticket :=
    congrArg (Agenda.finish · e.ticket) hdraw.agenda
  cases hit with
  | false =>
    have heq : s.attemptStage e stage = u.endWalk e := by simp [attemptStage, hc]
    rw [heq]
    exact .missed stage due waited hkept hfinish hsilent
  | true =>
    cases hadv : u.advanceRecord e.record stage.status u.now with
    | error cause =>
      have heq : s.attemptStage e stage = u.endWalk e := by simp [attemptStage, hc, hadv]
      rw [heq]
      exact .missed stage due waited hkept hfinish hsilent
    | ok answer =>
      obtain ⟨outcome, v⟩ := answer
      rcases advanceRecord_ok hadv with ⟨rfl, rfl⟩ | ⟨houtcome, rfl⟩
      · have heq : s.attemptStage e stage = v.endWalk e := by simp [attemptStage, hc, hadv]
        rw [heq]
        exact .missed stage due waited hkept hfinish hsilent
      · have hrec := hdraw.records
        have hnow := hdraw.now
        simp only at hrec hnow hsilent
        have hmoved : Advanced s
            { u with records := (u.records.advance e.record stage.status u.now).2 }
            e.record stage.status s.now :=
          ⟨hdraw.now, hdraw.settings, hdraw.outages, hdraw.campaigns, by rw [hrec, hnow],
            hdraw.issued⟩
        by_cases happ : outcome = .applied
        · subst happ
          have heq : s.attemptStage e stage = passStage
              { u with records := (u.records.advance e.record stage.status u.now).2 } e stage := by
            simp [attemptStage, hc, hadv]
          rw [heq]
          obtain ⟨hpass, hagenda⟩ := passStage_frame
            { u with records := (u.records.advance e.record stage.status u.now).2 } e stage
          refine .passed stage due waited ?_ (hmoved.then_kept hpass) ?_ ?_
          · rw [hrec, hnow] at houtcome
            exact houtcome.symm
          · have hag : u.agenda = s.agenda := hdraw.agenda
            rcases hagenda with ⟨hlast, hfinish⟩ | ⟨next, due', turn, hnext, hwaits, hprogress⟩
            · exact Or.inl ⟨hlast, hfinish.trans (congrArg (Agenda.finish · e.ticket) hag)⟩
            · exact Or.inr ⟨next, due', turn, hnext, hwaits.of_same hdraw.now hdraw.settings,
                hprogress.trans (congrArg (Agenda.progress · e.ticket _) hag)⟩
          · rw [← hsilent]
            exact tells_passStage
              { u with records := (u.records.advance e.record stage.status u.now).2 } e stage
        · have heq : s.attemptStage e stage = endWalk
              { u with records := (u.records.advance e.record stage.status u.now).2 } e := by
            simp only [attemptStage, hc, hadv, if_true]
          rw [heq]
          rw [hrec, hnow] at houtcome
          exact .refused stage due waited (hmoved.then_kept (kept_endWalk _ e)) hfinish
            (fun applied => happ (houtcome.trans applied)) hsilent

theorem stepWalk_walkStep (s : DeliveryState) (e : PendingEntry Walk) :
    WalkStep s e (s.stepWalk e) := by
  cases h : e.work.progress with
  | scheduled since =>
    have heq : s.stepWalk e = s.awaitStage e .delivered := by simp only [stepWalk, h]
    rw [heq]
    obtain ⟨hkept, due, turn, hwaits, hagenda⟩ := awaitStage_frame s e .delivered
    exact .begun since due turn h hkept hagenda hwaits (s.recorder_awaitStage e .delivered)
  | waiting stage due =>
    have heq : s.stepWalk e = s.attemptStage e stage := by simp only [stepWalk, h]
    rw [heq]
    exact attemptStage_walkStep h

/-- The step of a walk ends it or sends it on to wait for the next stage. -/
theorem WalkStep.agenda_cases {e : PendingEntry Walk} (h : WalkStep s e t) :
    t.agenda = s.agenda.finish e.ticket ∨
      ∃ next due turn, e.work.progress.next? = some next ∧ s.Waits next due ∧ t.agenda =
        s.agenda.progress e.ticket { e.work with progress := .waiting next due, turn } := by
  cases h with
  | begun since due turn at_start _ agenda waits =>
    exact Or.inr ⟨.delivered, due, turn, by rw [at_start]; rfl, waits, agenda⟩
  | missed _ _ _ _ agenda => exact Or.inl agenda
  | refused _ _ _ _ agenda => exact Or.inl agenda
  | passed stage _ waited _ _ agenda =>
    rcases agenda with ⟨_, agenda⟩ | ⟨next, due, turn, follows, waits, agenda⟩
    · exact Or.inl agenda
    · exact Or.inr ⟨next, due, turn, by rw [waited]; exact follows, waits, agenda⟩

/-- The step of a walk leaves the books alone or moves the record of the walk to a stage. -/
theorem WalkStep.book_cases {e : PendingEntry Walk} (h : WalkStep s e t) :
    Kept s t ∨ ∃ stage due, e.work.progress = .waiting stage due ∧
      Advanced s t e.record stage.status s.now := by
  cases h with
  | begun _ _ _ _ kept _ _ => exact Or.inl kept
  | missed _ _ _ kept _ => exact Or.inl kept
  | refused stage due waited advanced _ => exact Or.inr ⟨stage, due, waited, advanced⟩
  | passed stage due waited _ advanced _ => exact Or.inr ⟨stage, due, waited, advanced⟩

/-! ## Receipts and recounts -/

theorem fetchCampaign_ok {id : Uuid} {found : Option Campaign}
    (h : s.fetchCampaign id = .ok found) : s.campaigns.get? id = found := by
  simp only [fetchCampaign, Answer.bind_eq_ok] at h
  obtain ⟨_, _, h⟩ := h
  exact Answer.pure_eq_ok.mp h

theorem setStats_ok {id : Uuid} {stats : CampaignStats} (h : s.setStats id stats = .ok t) :
    ∃ book, s.campaigns.setStats id stats s.now = .ok book ∧ t = { s with campaigns := book } := by
  simp only [setStats, Answer.bind_eq_ok] at h
  obtain ⟨_, _, book, hbook, h⟩ := h
  exact ⟨book, hbook, (Answer.pure_eq_ok.mp h).symm⟩

theorem findRecords_ok {f : RecordFilter} {records : List MessageRecord}
    (h : s.findRecords f = .ok records) : records = s.records.find f := by
  simp only [findRecords, Answer.bind_eq_ok] at h
  obtain ⟨_, _, h⟩ := h
  exact (Answer.pure_eq_ok.mp h).symm

/-- Applies a receipt to the record that its message was found to belong to. -/
def deliver (s : DeliveryState) (r : Receipt) (record : MessageRecord) :
    Answer (Outcome × DeliveryState) := do
  let (outcome, s) ← s.advanceRecord record.id r.status (r.timestamp.getD s.now)
  match outcome with
  | .applied =>
    let (_, s) := s.cancelWalk record.id
    return (outcome,
      s.emitMessage .receiptApplied record.campaignId record.customerId record.messageId)
  | .stale => return (outcome, s)
  | .notFound => throw r.recordNotFound

/-- A receipt is checked, looked up and then applied to what was found. -/
theorem receive_ok {r : Receipt} {outcome : Outcome} (h : s.receive r = .ok (outcome, t)) :
    ∃ record, s.findByMessage r.messageId = .ok (some record) ∧
      s.deliver r record = .ok (outcome, t) := by
  simp only [receive, Answer.bind_eq_ok] at h
  obtain ⟨_, _, found, hfound, h⟩ := h
  cases found with
  | none =>
    obtain ⟨_, hrecord, _⟩ := Answer.bind_eq_ok.mp h
    exact absurd hrecord Answer.throw_ne_ok
  | some record => exact ⟨record, hfound, h⟩

/-- An answered receipt has moved its record and aborted its walk, or has come too late. -/
theorem deliver_ok {r : Receipt} {record : MessageRecord} {outcome : Outcome}
    (h : s.deliver r record = .ok (outcome, t)) :
    outcome = (s.records.advance record.id r.status (r.timestamp.getD s.now)).1 ∧
      Advanced s t record.id r.status (r.timestamp.getD s.now) ∧
      ((outcome = .applied ∧ t.agenda = (s.agenda.cancel record.id).2) ∨
        (outcome = .stale ∧ t.agenda = s.agenda)) := by
  simp only [deliver, Answer.bind_eq_ok] at h
  obtain ⟨⟨o, u⟩, hadvance, h⟩ := h
  rcases advanceRecord_ok hadvance with ⟨rfl, rfl⟩ | ⟨ho, rfl⟩
  · exact absurd h Answer.throw_ne_ok
  · cases o with
    | applied =>
      obtain ⟨rfl, rfl⟩ := Prod.mk.inj (Answer.pure_eq_ok.mp h)
      exact ⟨ho, ⟨rfl, rfl, rfl, rfl, rfl, Nat.le_succ _⟩, Or.inl ⟨rfl, rfl⟩⟩
    | stale =>
      obtain ⟨rfl, rfl⟩ := Prod.mk.inj (Answer.pure_eq_ok.mp h)
      exact ⟨ho, ⟨rfl, rfl, rfl, rfl, rfl, Nat.le_refl _⟩, Or.inr ⟨rfl, rfl⟩⟩
    | notFound => exact absurd h Answer.throw_ne_ok

/-- A receipt that is applied is told of, and one that comes too late is not. -/
theorem deliver_tells {r : Receipt} {record : MessageRecord} {outcome : Outcome}
    (h : s.deliver r record = .ok (outcome, t)) :
    s.recorder.Tells t.recorder (if outcome = .applied then
      [⟨.receiptApplied, record.campaignId, some record.customerId, some record.messageId⟩]
        else []) := by
  simp only [deliver, Answer.bind_eq_ok] at h
  obtain ⟨⟨o, u⟩, hadvance, h⟩ := h
  have hsilent : u.recorder = s.recorder := by
    rcases advanceRecord_ok hadvance with ⟨-, rfl⟩ | ⟨-, rfl⟩ <;> rfl
  cases o with
  | applied =>
    obtain ⟨rfl, rfl⟩ := Prod.mk.inj (Answer.pure_eq_ok.mp h)
    rw [if_pos rfl, ← hsilent]
    exact tells_emitMessage (u.cancelWalk record.id).2 _ _ _ _
  | stale =>
    obtain ⟨rfl, rfl⟩ := Prod.mk.inj (Answer.pure_eq_ok.mp h)
    exact .of_eq hsilent
  | notFound => exact absurd h Answer.throw_ne_ok

/-- A recount refreshes the statistics of its campaign and changes nothing else. -/
theorem recompute_ok {id : Uuid} {stats : CampaignStats} (h : s.recompute id = .ok (stats, t)) :
    ∃ c book, s.campaigns.get? id = some c ∧
      stats = c.stats.refreshed (s.records.find (.campaign id)) ∧
      s.campaigns.setStats id stats s.now = .ok book ∧ t = { s with campaigns := book } := by
  simp only [recompute, Answer.bind_eq_ok] at h
  obtain ⟨fetched, hfetch, h⟩ := h
  cases fetched with
  | none =>
    obtain ⟨_, hcampaign, _⟩ := Answer.bind_eq_ok.mp h
    exact absurd hcampaign Answer.throw_ne_ok
  | some c =>
    obtain ⟨_, hcampaign, records, hfind, u, hset, h⟩ := by
      simpa only [Answer.bind_eq_ok] using h
    cases Answer.pure_eq_ok.mp hcampaign
    cases findRecords_ok hfind
    obtain ⟨book, hbook, rfl⟩ := setStats_ok hset
    obtain ⟨rfl, rfl⟩ := Prod.mk.inj (Answer.pure_eq_ok.mp h)
    exact ⟨c, book, fetchCampaign_ok hfetch, rfl, hbook, rfl⟩

end DeliveryState

end Outreach
