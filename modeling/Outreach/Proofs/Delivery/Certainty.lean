import Outreach.Proofs.Delivery.Progress
import Outreach.Proofs.Delivery.Separation
import Outreach.Proofs.Delivery.Standing
import Outreach.Proofs.Delivery.Supersession
import Outreach.Proofs.Delivery.Timing

/-!
# Messages that are certain to arrive

If every probability is one, no message fails and no walk misses a stage. As long as no receipt
interferes, nothing of a campaign is aborted and records can be moved, every record of the campaign
is then under way: it waits for its batch to be settled, a walk is pending that has brought it to
its status and will bring it further, or it has been clicked.
-/

namespace Outreach

/-- Every probability is one. -/
def DeliverySettings.Sure (settings : DeliverySettings) : Prop :=
  ∀ rate ∈ settings.rates, rate.2 = 1.0

/-- The calls that move records are in order. -/
structure Outages.MovesRecords (o : Outages) : Prop where
  call : .advanceRecord ∉ o.failing
  status : ∀ status, .advanceRecordTo status ∉ o.failing
  found : o.recordsLost = false

/-- The status to which a walk has brought its record. -/
def WalkProgress.reached : WalkProgress → DeliveryStatus
  | .scheduled _ => .queued
  | .waiting .delivered _ => .queued
  | .waiting .opened _ => .delivered
  | .waiting .clicked _ => .opened

/-- The action brings no receipt, aborts nothing of the campaign and lets records be moved. -/
def Action.Untroubled (campaign : Uuid) : Action → Prop
  | .receive _ => False
  | .deliver _ _ => False
  | .cancelWalk _ => False
  | .cancel c => c ≠ campaign
  | .drop c => c ≠ campaign
  | .setOutages outages => outages.MovesRecords
  | _ => True

/-- A walk is pending for the record and has not begun. -/
def Agenda.Begins (g : Agenda Walk) (record : Uuid) : Prop :=
  ∃ e ∈ g.pending, e.record = record ∧ ∃ since, e.work.progress = .scheduled since

section Stages

variable {settings : DeliverySettings} {stage next : Stage}

theorem DeliverySettings.Sure.send (h : settings.Sure) : settings.sendSuccessRate = 1.0 :=
  h ("send_success_rate", settings.sendSuccessRate) (by simp [rates])

theorem DeliverySettings.Sure.probability (h : settings.Sure) (stage : Stage) :
    stage.probability settings = 1.0 := by
  have hmem : stage.probability settings ∈ settings.rates.map Prod.snd := by
    cases stage <;> simp [Stage.probability, rates]
  obtain ⟨rate, hrate, hsame⟩ := List.mem_map.mp hmem
  rw [← hsame]
  exact h rate hrate

theorem WalkProgress.reached_next (h : stage.next? = some next) (due : Instant) :
    (waiting next due).reached = stage.status := by
  cases stage <;> cases h <;> rfl

theorem Stage.status_last (h : stage.next? = none) : stage.status = .clicked := by
  cases stage <;> cases h
  rfl

/-- A record moves to the stage that its walk waits for. -/
theorem MessageRecord.advance_reached {r : MessageRecord} {due : Instant}
    (reached : (WalkProgress.waiting stage due).reached = r.status) (time : Instant) :
    (r.advance stage.status time).1 = .applied ∧
      (r.advance stage.status time).2.status = stage.status := by
  cases stage <;>
    simp [advance, moved, ← reached, WalkProgress.reached, Stage.status, DeliveryStatus.rank?]

end Stages

theorem Dispatch.isEnded_of_created {d : Dispatch} {m : MessageRecord} (h : m ∈ d.created) :
    d.isEnded = false := by
  cases hp : d.phase with
  | ended how => simp [created, hp] at h
  | _ => simp [isEnded, hp]

namespace Agenda

variable {g : Agenda Walk} {record campaign : Uuid} {walk : Walk} {since : Instant}

theorem begins_schedule (accepts : g.refuses campaign = false) (record : Uuid)
    (unbegun : walk.progress = .scheduled since) :
    (g.schedule record campaign walk).2.Begins record := by
  rw [schedule, accepts]
  exact ⟨_, List.mem_append_right _ List.mem_cons_self, rfl, since, unbegun⟩

/-- A walk that has not begun gives way to another such walk only. -/
theorem Begins.schedule (h : g.Begins record) (other : Uuid)
    (unbegun : walk.progress = .scheduled since) :
    (g.schedule other campaign walk).2.Begins record := by
  obtain ⟨e, he, hrecord, hsince⟩ := h
  by_cases hother : e.record = other
  · by_cases hrefused : g.refuses campaign = true
    · rw [Agenda.schedule, if_pos hrefused]
      exact ⟨e, he, hrecord, hsince⟩
    · rw [← hrecord, hother]
      exact begins_schedule (by simpa using hrefused) other unbegun
  · exact ⟨e, mem_schedule_of_ne he hother campaign walk, hrecord, hsince⟩

end Agenda

namespace DeliveryState

variable {s t : DeliveryState} {d d' : Dispatch} {e b : PendingEntry Walk}

/-! ## Walks that miss nothing -/

theorem advanceRecord_of_moves (moves : s.outages.MovesRecords) (id : Uuid)
    (status : DeliveryStatus) (time : Instant) :
    s.advanceRecord id status time = .ok ((s.records.advance id status time).1,
      { s with records := (s.records.advance id status time).2 }) := by
  have hcall : s.outages.check .advanceRecord = .ok () := if_neg moves.call
  have hstatus : s.outages.check (.advanceRecordTo status) = .ok () := if_neg (moves.status status)
  simp only [advanceRecord, hcall, hstatus, moves.found]
  rfl

theorem attemptStage_of_sure (sure : s.settings.Sure) (moves : s.outages.MovesRecords)
    {stage : Stage} (applied : (s.records.advance e.record stage.status s.now).1 = .applied) :
    s.attemptStage e stage = passStage
      { s with records := (s.records.advance e.record stage.status s.now).2 } e stage := by
  have hchance : s.chance (stage.probability s.settings) = (true, s) := by
    rw [sure.probability, chance, Generator.chance_one]
  simp only [attemptStage, hchance, advanceRecord_of_moves moves, applied, if_true]

/-- A step of a walk leaves the others pending as they are. -/
theorem WalkStep.pending_of_ne (h : WalkStep s e t) (hb : b ∈ s.agenda.pending)
    (other : b.ticket ≠ e.ticket) : b ∈ t.agenda.pending := by
  rcases h.agenda_cases with agenda | ⟨_, _, _, _, _, agenda⟩
  · rw [agenda]
    exact Agenda.mem_finish_of_ne hb other
  · rw [agenda]
    exact Agenda.mem_progress_of_ne hb other _

/-- A walk that is sure to pass its stages keeps up with its record until the record is clicked. -/
theorem stepWalk_of_sure (sure : s.settings.Sure) (moves : s.outages.MovesRecords)
    (he : e ∈ s.agenda.pending) {r : MessageRecord} (found : s.records.get? e.record = some r)
    (reached : e.work.progress.reached = r.status) :
    ∃ q, (s.stepWalk e).records.get? e.record = some q ∧ (q.status = .clicked ∨
      ∃ b ∈ (s.stepWalk e).agenda.pending, b.record = e.record ∧
        b.work.progress.reached = q.status) := by
  cases hp : e.work.progress with
  | scheduled since =>
    obtain ⟨kept, due, turn, -, agenda⟩ := awaitStage_frame s e .delivered
    have hstep : s.stepWalk e = s.awaitStage e .delivered := by simp only [stepWalk, hp]
    rw [hstep, kept.records, agenda]
    refine ⟨r, found, Or.inr ⟨_, Agenda.mem_progress_self he _, rfl, ?_⟩⟩
    rw [← reached, hp]
    rfl
  | waiting stage due =>
    rw [hp] at reached
    obtain ⟨happlied, hstatus⟩ := r.advance_reached reached s.now
    have hstep : s.stepWalk e = passStage
        { s with records := (s.records.advance e.record stage.status s.now).2 } e stage := by
      simp only [stepWalk, hp]
      exact attemptStage_of_sure sure moves ((RecordBook.advance_of_get? found).trans happlied)
    obtain ⟨kept, hagenda⟩ := passStage_frame
      { s with records := (s.records.advance e.record stage.status s.now).2 } e stage
    rw [hstep, kept.records]
    refine ⟨_, RecordBook.get?_advance_self found stage.status s.now, ?_⟩
    rw [hstatus]
    rcases hagenda with ⟨hlast, -⟩ | ⟨next, due', turn, hnext, -, agenda⟩
    · exact Or.inl (Stage.status_last hlast)
    · rw [agenda]
      exact Or.inr ⟨_, Agenda.mem_progress_self he _, rfl, WalkProgress.reached_next hnext due'⟩

/-! ## Batches that send everything -/

/-- When a batch is settled, a walk begins for every message that it has sent. -/
theorem begins_settleBatch {m : MessageRecord} (queued : m.status = .queued) (tally : Tally)
    {tried : List (Option MessageRecord)} (hm : some m ∈ tried)
    (accepts : s.agenda.refuses m.campaignId = false) :
    (settleBatch tally s tried).2.agenda.Begins m.id := by
  induction tried generalizing tally s with
  | nil => cases hm
  | cons attempt rest ih =>
    rw [settleBatch_cons]
    rcases List.mem_cons.mp hm with rfl | hm
    · refine agenda_settleBatch (P := fun g => g.Begins m.id)
        (fun g record campaign walk since unbegun hg => hg.schedule record unbegun) _ rest ?_
      rw [settleAttempt_sent tally s queued]
      exact Agenda.begins_schedule accepts m.id rfl
    · exact ih _ hm ((refuses_settleBatch tally s [attempt] m.campaignId).trans accepts)

/-- Whatever the batch of an accepted campaign has created, by the step of its dispatch at the
latest, stays in the batch until its walk begins. -/
theorem DispatchStep.created_or_begins (h : DispatchStep s d d' t)
    (accepts : s.agenda.refuses d.campaign = false)
    (queued : ∀ m, m ∈ d.created ∨ m ∈ d.untried → m.status = .queued)
    (owned : ∀ m, m ∈ d.created ∨ m ∈ d.untried → m.campaignId = d.campaign) :
    (∀ m ∈ d.created, m ∈ d'.created ∨ t.agenda.Begins m.id) ∧
      (t.records = s.records ∨ ∃ m ∈ d.untried, s.records.create m = .ok t.records ∧
        (m ∈ d'.created ∨ t.agenda.Begins m.id)) := by
  have hquiet : d.created = [] → d.untried = [] →
      (∀ m ∈ d.created, m ∈ d'.created ∨ t.agenda.Begins m.id) ∧
        (t.records = s.records ∨ ∃ m ∈ d.untried, s.records.create m = .ok t.records ∧
          (m ∈ d'.created ∨ t.agenda.Begins m.id)) := by
    intro hcreated huntried
    refine ⟨fun m hm => absurd (hcreated ▸ hm) List.not_mem_nil, Or.inl ?_⟩
    rcases h.records with hsame | ⟨m, hm, _⟩
    · exact hsame
    · exact absurd (huntried ▸ hm) List.not_mem_nil
  cases h with
  | tried next more tried rest tally attempt u phase attempted after =>
    have hrecords := after.kept.records
    obtain ⟨book, rfl, hattempt⟩ := attempted.book
    have hnext : next ∈ d.untried := by simp [Dispatch.untried, phase]
    have hold : ∀ m, some m ∈ tried ↔ m ∈ d.created := by
      intro m
      simp [Dispatch.created, phase, List.reduceOption_mem_iff]
    have hkind : ∀ m, some m ∈ tried ++ [attempt] → m ∈ d.created ∨ m ∈ d.untried := by
      intro m hm
      exact (attempted.mem_created phase hm).imp_right And.left
    have hfate : ∀ m, some m ∈ tried ++ [attempt] → m ∈ d'.created ∨ t.agenda.Begins m.id := by
      intro m hm
      cases after with
      | same_batch following later left dispatch _ =>
        rw [dispatch]
        exact Or.inl (List.reduceOption_mem_iff.mpr hm)
      | settled _ next' =>
        rw [next'.kept.agenda]
        refine Or.inr (begins_settleBatch (queued m (hkind m hm)) tally hm ?_)
        rw [owned m (hkind m hm)]
        exact accepts
    refine ⟨fun m hm => hfate m (List.mem_append_left _ ((hold m).mpr hm)), ?_⟩
    rcases hattempt with ⟨rfl, hcreate⟩ | ⟨-, rfl⟩
    · exact Or.inr ⟨next, hnext, hrecords ▸ hcreate, hfate next (by simp)⟩
    · exact Or.inl hrecords
  | begun _ _ phase _ _ | counted _ phase _ _ _ | completed _ _ phase _ _ _ | failed _ phase _ _
  | ended _ phase _ _ =>
    exact hquiet (by simp [Dispatch.created, phase]) (by simp [Dispatch.untried, phase])
  | stopped _ failed _ _ =>
    rcases failed with ⟨_, phase, _⟩ | ⟨_, phase, _⟩ | ⟨_, phase, _⟩
    all_goals exact hquiet (by simp [Dispatch.created, phase]) (by simp [Dispatch.untried, phase])

end DeliveryState

namespace Simulation

variable {s t : Simulation} {campaign : Uuid} {r : MessageRecord}

/-- The message of the record has been clicked, or there is still something that will
bring it on. -/
inductive UnderWay (s : Simulation) (r : MessageRecord) : Prop
  | arrived (status : r.status = .clicked)
  | walking (e : PendingEntry Walk) (present : e ∈ s.state.agenda.pending)
      (record : e.record = r.id) (reached : e.work.progress.reached = r.status)
  | batched (q : RunningDispatch) (present : q ∈ s.running) (created : r ∈ q.dispatch.created)

theorem UnderWay.mono (h : s.UnderWay r)
    (walks : ∀ e ∈ s.state.agenda.pending, e.record = r.id → e ∈ t.state.agenda.pending)
    (batches : ∀ q ∈ s.running, r ∈ q.dispatch.created →
      ∃ p ∈ t.running, r ∈ p.dispatch.created) : t.UnderWay r := by
  cases h with
  | arrived status => exact .arrived status
  | walking e present record reached => exact .walking e (walks e present record) record reached
  | batched q present created =>
    obtain ⟨p, hp, hcreated⟩ := batches q present created
    exact .batched p hp hcreated

theorem UnderWay.of_begins (queued : r.status = .queued) (h : t.state.agenda.Begins r.id) :
    t.UnderWay r := by
  obtain ⟨e, he, hrecord, since, hsince⟩ := h
  refine .walking e he hrecord ?_
  rw [hsince, queued]
  rfl

/-- Everything of a campaign is certain to arrive. -/
structure Certain (s : Simulation) (campaign : Uuid) : Prop where
  sure : s.state.settings.Sure
  moves : s.state.outages.MovesRecords
  accepts : s.state.agenda.refuses campaign = false
  queued : ∀ q ∈ s.running, q.dispatch.campaign = campaign → ∀ m,
    m ∈ q.dispatch.created ∨ m ∈ q.dispatch.untried → m.status = .queued
  records : ∀ r ∈ s.state.records.records, r.campaignId = campaign → s.UnderWay r

/-- A walk brings its own record on, and leaves all others to what is under way for them. -/
theorem Certain.walked (h : s.Certain campaign) (o : s.Orderly) (apart : s.Apart)
    {e : PendingEntry Walk} (present : s.walkAt? e.ticket = some e)
    (state : s.act (.work (.walk e.ticket)) = { s with state := s.state.stepWalk e })
    (hr : r ∈ (s.state.stepWalk e).records.records) (hcampaign : r.campaignId = campaign) :
    UnderWay { s with state := s.state.stepWalk e } r := by
  have step := s.state.stepWalk_walkStep e
  have he := (walkAt?_eq_some present).1
  have hafter := orderly_act o (.work (.walk e.ticket))
  rw [state] at hafter
  have hfound := hafter.get?_of_mem hr
  by_cases hid : r.id = e.record
  -- nothing but this walk can be under way for its record
  · have hmem : r.id ∈ s.state.records.ids := by
      rw [← (ids_walkStep step).1]
      exact List.mem_map_of_mem hr
    obtain ⟨b, hb, hbid⟩ := List.mem_map.mp hmem
    obtain ⟨q, hq, hadvances⟩ := advancesTo_act o (.work (.walk e.ticket)) (o.get?_of_mem hb)
    rw [state, hbid, hfound] at hq
    cases hq
    cases h.records b hb (hadvances.campaignId.symm.trans hcampaign) with
    | arrived status => exact .arrived (hadvances.clicked_of_clicked status)
    | batched q hq created => exact absurd (hbid.trans hid) (apart.batch_ne he hq (Or.inl created))
    | walking c hc record reached =>
      obtain rfl := apart.eq_of_record hc he (record.trans (hbid.trans hid))
      obtain ⟨q, hq, hreached⟩ := s.state.stepWalk_of_sure h.sure h.moves he
        (record ▸ o.get?_of_mem hb) reached
      rw [← hid, hfound] at hq
      cases hq
      rcases hreached with hclicked | ⟨c', hc', hrecord, hreached⟩
      · exact .arrived hclicked
      · exact .walking c' hc' (hrecord.trans hid.symm) hreached
  · rw [step.get?_of_ne hid] at hfound
    refine (h.records r (Sorted.get?_eq_some hfound).1 hcampaign).mono ?_ fun q hq hm => ⟨q, hq, hm⟩
    intro c hc hrecord
    refine step.pending_of_ne hc fun hticket => hid ?_
    rw [← hrecord, o.agenda.eq_of_ticket hc he hticket]

/-- A dispatch creates records that are under way, and leaves those that are there to what is under
way for them. -/
theorem Certain.stepped (h : s.Certain campaign) (o : s.Orderly) (apart : s.Apart) (filed : s.Filed)
    {p : RunningDispatch} (hp : p ∈ s.running) {d' : Dispatch} {u : DeliveryState}
    (step : DeliveryState.DispatchStep s.state p.dispatch d' u) (hr : r ∈ u.records.records)
    (hcampaign : r.campaignId = campaign) :
    (Simulation.replace { s with state := u } { p with dispatch := d' }).UnderWay r := by
  have hself : ∀ m, m ∈ d'.created ∨ u.agenda.Begins m.id → m.status = .queued →
      (Simulation.replace { s with state := u } { p with dispatch := d' }).UnderWay m := by
    rintro m (hcreated | hbegins) hqueued
    · refine .batched _ (mem_replace_self (s := { s with state := u }) hp rfl ?_) hcreated
      exact Dispatch.isEnded_of_created hcreated
    · exact .of_begins hqueued hbegins
  have hfates : p.dispatch.campaign = campaign → _ := fun hsame =>
    step.created_or_begins (hsame ▸ h.accepts) (h.queued p hp hsame) fun m hm =>
      hm.elim (filed.owned p hp m) fun huntried => (o.drafts p hp m huntried).campaign
  have hold : r ∈ s.state.records.records →
      (Simulation.replace { s with state := u } { p with dispatch := d' }).UnderWay r := by
    intro hr
    cases h.records r hr hcampaign with
    | arrived status => exact .arrived status
    | walking e he record reached =>
      refine .walking e ?_ record reached
      refine step.agenda_of_created (P := fun g => e ∈ g.pending) ?_ he
      intro g m walk hm _ hg
      exact Agenda.mem_schedule_of_ne hg (apart.batch_ne he hp (hm.imp_right And.left)).symm _ _
    | batched q hq created =>
      by_cases hticket : q.ticket = p.ticket
      · obtain rfl := List.inj_on_of_nodup_map o.tickets hq hp hticket
        have hsame := (filed.owned q hq r created).symm.trans hcampaign
        exact hself r ((hfates hsame).1 r created) (h.queued q hq hsame r (Or.inl created))
      · exact .batched q (mem_replace_of_ne (s := { s with state := u }) hq hticket) created
  by_cases hsame : p.dispatch.campaign = campaign
  · rcases (hfates hsame).2 with hbook | ⟨m, hm, hcreate, hfate⟩
    · exact hold (hbook ▸ hr)
    · rcases RecordBook.mem_records_create hcreate hr with rfl | hr
      · exact hself r hfate (h.queued p hp hsame r (Or.inr hm))
      · exact hold hr
  · rcases step.records with hbook | ⟨m, hm, hcreate⟩
    · exact hold (hbook ▸ hr)
    · rcases RecordBook.mem_records_create hcreate hr with rfl | hr
      · exact absurd ((o.drafts p hp r hm).campaign.symm.trans hcampaign) hsame
      · exact hold hr

/-! ## Actions -/

/-- Calls go out of order or back in order only when they are told to. -/
theorem outages_act (s : Simulation) (a : Action) :
    (s.act a).state.outages = s.state.outages ∨
      ∃ outages, a = .setOutages outages ∧ (s.act a).state.outages = outages := by
  cases s.acted a with
  | walked _ _ _ step state =>
    rw [state]
    exact Or.inl step.standing.1
  | stepped _ _ _ step state =>
    rw [state]
    exact Or.inl step.outages
  | delivered _ _ _ _ answered _ state =>
    rw [state]
    exact Or.inl (DeliveryState.deliver_ok answered).2.1.outages
  | disturbed outages by_action state =>
    rw [state]
    exact Or.inr ⟨outages, by_action, rfl⟩
  | idle _ state | rearranged _ _ _ _ _ state | moved _ _ _ state | begun _ _ _ state
  | recounted _ _ _ _ _ _ state | cancelled _ _ state | aborted _ _ state
  | unregistered _ _ state | dropped _ _ state | issued _ state | entered _ _ state
  | deleted _ _ state =>
    rw [state]
    exact Or.inl rfl

/-- A campaign is refused from its cancellation on, and for no other reason. -/
theorem refuses_act (s : Simulation) (a : Action) (campaign : Uuid) :
    (s.act a).state.agenda.refuses campaign = s.state.agenda.refuses campaign ∨
      a = .cancel campaign := by
  cases s.acted a with
  | walked _ _ _ step state =>
    rw [state]
    rcases step.agenda_cases with agenda | ⟨_, _, _, _, _, agenda⟩
    · exact Or.inl ((congrArg (Agenda.refuses · campaign) agenda).trans rfl)
    · exact Or.inl ((congrArg (Agenda.refuses · campaign) agenda).trans rfl)
  | stepped _ _ _ step state =>
    rw [state]
    exact Or.inl (step.agenda (P := fun g => g.refuses campaign = s.state.agenda.refuses campaign)
      (fun g record c walk _ _ hg => by rw [← hg, Agenda.refuses, Agenda.cancelled_schedule,
        Agenda.refuses]) rfl)
  | delivered _ _ _ _ answered _ state =>
    rw [state]
    obtain ⟨_, _, ⟨_, agenda⟩ | ⟨_, agenda⟩⟩ := DeliveryState.deliver_ok answered
    · exact Or.inl ((congrArg (Agenda.refuses · campaign) agenda).trans rfl)
    · exact Or.inl ((congrArg (Agenda.refuses · campaign) agenda).trans rfl)
  | cancelled other by_action state =>
    by_cases hother : other = campaign
    · exact Or.inr (hother ▸ by_action)
    · rw [state]
      left
      simp [DeliveryState.cancelAll, Agenda.cancelAll_snd, Agenda.refuses, Ne.symm hother]
  | idle _ state | rearranged _ _ _ _ _ state | moved _ _ _ state | begun _ _ _ state
  | recounted _ _ _ _ _ _ state | aborted _ _ state | unregistered _ _ state
  | dropped _ _ state | disturbed _ _ state | issued _ state | entered _ _ state
  | deleted _ _ state =>
    rw [state]
    exact Or.inl rfl

theorem Certain.underWay_act (h : s.Certain campaign) (o : s.Orderly) (apart : s.Apart)
    (filed : s.Filed) {a : Action} (untroubled : a.Untroubled campaign)
    (hr : r ∈ (s.act a).state.records.records) (hcampaign : r.campaignId = campaign) :
    (s.act a).UnderWay r := by
  cases s.acted a with
  | walked e present by_action _ state =>
    subst by_action
    rw [state] at hr ⊢
    exact h.walked o apart present state hr hcampaign
  | stepped p present _ step state =>
    rw [state] at hr ⊢
    exact h.stepped o apart filed (dispatchAt?_eq_some present).1 step hr hcampaign
  | rearranged p present untried tried _ state =>
    rw [state] at hr ⊢
    refine (h.records r hr hcampaign).mono (fun e he _ => he) fun q hq hm => ?_
    by_cases hticket : q.ticket = p.ticket
    · obtain rfl := List.inj_on_of_nodup_map o.tickets hq (dispatchAt?_eq_some present).1 hticket
      have hm' := (q.dispatch.created_rearrange_perm untried tried).mem_iff.mpr hm
      refine ⟨_, mem_replace_self hq rfl ?_, hm'⟩
      exact Dispatch.isEnded_of_created hm'
    · exact ⟨q, mem_replace_of_ne hq hticket, hm⟩
  | begun _ _ _ state =>
    rw [state] at hr ⊢
    refine (h.records r hr hcampaign).mono (fun e he _ => he) fun q hq hm => ?_
    exact ⟨q, List.mem_append_left _ hq, hm⟩
  | cancelled other by_action state =>
    subst by_action
    have hpending := o.pending_cancel other
    rw [state] at hr hpending ⊢
    refine (h.records r hr hcampaign).mono (fun e he hrecord => ?_) fun q hq hm => ⟨q, hq, hm⟩
    have hown := (filed.campaign_eq o he hr hrecord).trans hcampaign
    rw [hpending]
    exact List.mem_filter.mpr ⟨he, by simpa [hown] using Ne.symm untroubled⟩
  | unregistered other _ state =>
    rw [state] at hr ⊢
    refine (h.records r hr hcampaign).mono (fun e he _ => he) fun q hq hm => ?_
    refine ⟨_, List.mem_map_of_mem hq, ?_⟩
    split <;> exact hm
  | dropped other by_action state =>
    subst by_action
    rw [state] at hr ⊢
    refine (h.records r hr hcampaign).mono (fun e he _ => he) fun q hq hm => ?_
    have hown := (filed.owned q hq r hm).symm.trans hcampaign
    refine ⟨q, List.mem_filter.mpr ⟨hq, ?_⟩, hm⟩
    simp [hown, Ne.symm untroubled]
  | delivered receipt record _ _ _ by_action _ =>
    rcases by_action with rfl | ⟨rfl, _⟩
    · exact untroubled.elim
    · exact untroubled.elim
  | aborted _ by_action _ =>
    subst by_action
    exact untroubled.elim
  -- what is left touches neither the records nor what brings them on
  | idle _ state | moved _ _ _ state | recounted _ _ _ _ _ _ state | disturbed _ _ state
  | issued _ state | entered _ _ state | deleted _ _ state =>
    rw [state] at hr ⊢
    exact (h.records r hr hcampaign).mono (fun e he _ => he) fun q hq hm => ⟨q, hq, hm⟩

theorem certain_act (h : s.Certain campaign) (o : s.Orderly) (apart : s.Apart) (filed : s.Filed)
    {a : Action} (untroubled : a.Untroubled campaign) : (s.act a).Certain campaign := by
  constructor
  · rw [settings_act]
    exact h.sure
  · rcases s.outages_act a with hsame | ⟨outages, rfl, hset⟩
    · rw [hsame]
      exact h.moves
    · rw [hset]
      exact untroubled
  · rcases s.refuses_act a campaign with hsame | rfl
    · rw [hsame]
      exact h.accepts
    · exact absurd rfl untroubled
  · intro q hq hsame m hm
    rcases hm with hcreated | huntried
    · obtain ⟨p, hp, hcampaign, hp_batch⟩ := created_act hq hcreated
      exact h.queued p hp (hcampaign.trans hsame) m (hp_batch.imp_right And.left)
    · rcases untried_act hq huntried with ⟨p, hp, _, hcampaign, hold⟩ | hnew
      · exact h.queued p hp (hcampaign.trans hsame) m (Or.inr hold)
      · exact hnew.sure h.sure.send
  · intro r hr hcampaign
    exact h.underWay_act o apart filed untroubled hr hcampaign

theorem certain_run (h : s.Certain campaign) (o : s.Orderly) (apart : s.Apart) (filed : s.Filed)
    {actions : List Action} (untroubled : ∀ a ∈ actions, a.Untroubled campaign) :
    (s.run actions).Certain campaign := by
  induction actions generalizing s with
  | nil => exact h
  | cons a rest ih =>
    rw [List.forall_mem_cons] at untroubled
    exact ih (certain_act h o apart filed untroubled.1) (orderly_act o a) (apart_act o apart a)
      (filed_act o filed a) untroubled.2

/-- Where nothing of a campaign is left to do, everything of it has arrived. -/
theorem Certain.arrived (h : s.Certain campaign) (o : s.Orderly) (filed : s.Filed)
    (gone : ∀ q ∈ s.running, q.dispatch.campaign ≠ campaign)
    (clear : ∀ e ∈ s.state.agenda.pending, e.campaign ≠ campaign)
    (hr : r ∈ s.state.records.records) (hcampaign : r.campaignId = campaign) :
    r.status = .clicked := by
  cases h.records r hr hcampaign with
  | arrived status => exact status
  | walking e he record _ =>
    exact absurd ((filed.campaign_eq o he hr record).trans hcampaign) (clear e he)
  | batched q hq created =>
    exact absurd ((filed.owned q hq r created).symm.trans hcampaign) (gone q hq)

end Simulation

end Outreach
