import Outreach.Proofs.Delivery.Faults

/-!
# Cancelled campaigns

The cancellation of a campaign aborts its pending walks and closes the agenda to it for good. The
rest of the delivery stays as it is. A batch that is in flight goes on creating its records, but
none of them is walked, and no other batch follows: where a dispatch comes to its next batch, it
ends. That the walks of other campaigns have nothing to do with the records of this one follows from
how walks are filed, each under the campaign of its record.
-/

namespace Outreach

namespace DeliveryState

variable {s t : DeliveryState} {d : Dispatch}

/-- Whether the next step of the dispatch comes to a batch that is not empty. -/
def reachesBatch (s : DeliveryState) (d : Dispatch) : Bool :=
  match d.phase with
  | .starting recipients =>
    !recipients.isEmpty && (s.startProcessing d.campaign d.total).toOption.isSome
  | .creating _ more _ rest _ => more.isEmpty && !rest.isEmpty
  | _ => false

/-- A step of a walk finishes its entry or puts on record how far it has come. -/
theorem WalkStep.agenda {P : Agenda Walk → Prop} {e : PendingEntry Walk} (step : WalkStep s e t)
    (hereditary : Agenda.Hereditary P) (h : P s.agenda) : P t.agenda := by
  rcases step.agenda_cases with agenda | ⟨_, _, _, _, _, agenda⟩
  · rw [agenda]
    exact hereditary.finish s.agenda e.ticket h
  · rw [agenda]
    exact hereditary.progress s.agenda e.ticket _ h

/-- A step of a walk concerns no record but the one of its entry. -/
theorem WalkStep.get?_of_ne {e : PendingEntry Walk} (step : WalkStep s e t) {id : Uuid}
    (other : id ≠ e.record) : t.records.get? id = s.records.get? id := by
  rcases step.book_cases with kept | ⟨_, _, _, advanced⟩
  · rw [kept.records]
  · rw [advanced.records, RecordBook.get?_advance, if_neg other]

/-- Where a batch would follow, the dispatch of a refused campaign ends as cancelled. -/
theorem NextBatch.end?_of_refuses {tally : Tally} {rest : List String} {d' : Dispatch}
    (h : NextBatch s d tally rest d' t) (left : rest ≠ [])
    (refuses : s.agenda.refuses d.campaign = true) : d'.end? = some .cancelled := by
  cases h with
  | none_left empty _ _ => exact absurd empty left
  | cancelled _ dispatch _ =>
    rw [dispatch]
    rfl
  | drafts _ _ _ _ _ _ _ accepts _ _ =>
    rw [refuses] at accepts
    cases accepts

/-- At the next batch, the dispatch of a refused campaign ends as cancelled. -/
theorem end?_stepDispatch_of_refuses (reaches : s.reachesBatch d = true)
    (refuses : s.agenda.refuses d.campaign = true) :
    (s.stepDispatch d).1.end? = some .cancelled := by
  cases s.stepDispatch_spec d with
  | begun recipients u phase answered next =>
    simp [reachesBatch, phase] at reaches
    obtain ⟨_, _, rfl⟩ := startProcessing_ok answered
    exact next.end?_of_refuses reaches.1 refuses
  | tried next more tried rest tally attempt u phase attempted after =>
    simp [reachesBatch, phase] at reaches
    obtain ⟨book, rfl, _⟩ := attempted.book
    cases after with
    | same_batch _ _ left _ _ =>
      rw [reaches.1] at left
      cases left
    | settled _ next' =>
      refine next'.end?_of_refuses reaches.2 ?_
      rw [refuses_settleBatch]
      exact refuses
  | stopped cause failed _ _ =>
    rcases failed with ⟨_, phase, hfailed⟩ | ⟨_, phase, _⟩ | ⟨_, phase, _⟩
    · simp [reachesBatch, phase, hfailed, Except.toOption] at reaches
    · simp [reachesBatch, phase] at reaches
    · simp [reachesBatch, phase] at reaches
  | counted _ phase _ _ _ => simp [reachesBatch, phase] at reaches
  | completed _ _ phase _ _ _ => simp [reachesBatch, phase] at reaches
  | failed _ phase _ _ => simp [reachesBatch, phase] at reaches
  | ended _ phase _ _ => simp [reachesBatch, phase] at reaches

end DeliveryState

namespace Simulation

variable {s t : Simulation} {campaign : Uuid}

/-- The record has been created by the batch of a running dispatch, at the latest by the action. -/
def InBatch (s : Simulation) (a : Action) (m : MessageRecord) : Prop :=
  ∃ q ∈ s.running, m ∈ q.dispatch.created ∨
    m ∈ q.dispatch.untried ∧ s.state.records.create m = .ok (s.act a).state.records

/-- An action changes the agenda only in the ways of the agenda, and schedules walks only for
records that a batch has created, so that they may begin at once. -/
theorem agenda_act {P : Agenda Walk → Prop} (hereditary : Agenda.Hereditary P) (a : Action)
    (scheduled : ∀ g m (walk : Walk), s.InBatch a m → walk.progress = .scheduled s.now → P g →
      P (g.schedule m.id m.campaignId walk).2)
    (h : P s.state.agenda) : P (s.act a).state.agenda := by
  cases hacted : s.acted a with
  | walked e _ _ step state =>
    rw [state]
    exact step.agenda hereditary h
  | stepped r present _ step state =>
    have hstate : (s.act a).state = (s.state.stepDispatch r.dispatch).2 := by rw [state]; rfl
    rw [hstate]
    refine step.agenda_of_created ?_ h
    intro g m walk hm hsince hg
    rw [← hstate] at hm
    exact scheduled g m walk ⟨r, (dispatchAt?_eq_some present).1, hm⟩ hsince hg
  | begun recipients _ _ state =>
    rw [state]
    exact hereditary.takeTicket s.state.agenda h
  | delivered receipt record outcome u answered _ state =>
    rw [state]
    obtain ⟨_, _, ⟨_, hcancel⟩ | ⟨_, hsame⟩⟩ := DeliveryState.deliver_ok answered
    · simp only [hcancel]
      exact hereditary.cancel s.state.agenda record.id h
    · simp only [hsame]
      exact h
  | cancelled other _ state =>
    rw [state]
    exact hereditary.cancelAll s.state.agenda other h
  | aborted record _ state =>
    rw [state]
    exact hereditary.cancel s.state.agenda record h
  | idle _ state | rearranged _ _ _ _ _ state | moved _ _ _ state | recounted _ _ _ _ _ _ state
  | unregistered _ _ state | dropped _ _ state | disturbed _ _ state | issued _ state
  | entered _ _ state | deleted _ _ state =>
    rw [state]
    exact h

/-! ## Walks and their records -/

/-- Every walk is filed under the campaign of its record, and what a batch has created is in the
book, under the campaign of its dispatch. -/
structure Filed (s : Simulation) : Prop where
  pending : ∀ e ∈ s.state.agenda.pending, ∃ m ∈ s.state.records.origins,
    m.id = e.record ∧ m.campaignId = e.campaign
  created : ∀ r ∈ s.running, ∀ m ∈ r.dispatch.created, m ∈ s.state.records.origins
  owned : ∀ r ∈ s.running, ∀ m ∈ r.dispatch.created, m.campaignId = r.dispatch.campaign

theorem filed_ofState {start : DeliveryState} (idle : start.Idle) : (ofState start).Filed := by
  constructor
  · simp [ofState, idle.pending]
  · simp [ofState]
  · simp [ofState]

theorem origins_subset_act (o : s.Orderly) (a : Action) :
    s.state.records.origins ⊆ (s.act a).state.records.origins := by
  intro m hm
  exact origins_mono o [a] hm

theorem InBatch.mem_origins (o : s.Orderly) (h : s.Filed) {a : Action} {m : MessageRecord}
    (hm : s.InBatch a m) : m ∈ (s.act a).state.records.origins := by
  obtain ⟨q, hq, hcreated | ⟨huntried, hcreate⟩⟩ := hm
  · exact origins_subset_act o a (h.created q hq m hcreated)
  · have hperm := RecordBook.records_create_perm hcreate (o.fresh hq huntried)
    refine List.mem_map.mpr ⟨m, hperm.mem_iff.mpr List.mem_cons_self, ?_⟩
    exact (o.drafts q hq m huntried).origin

/-- A batch creates records of the campaign that its dispatch sends. -/
theorem InBatch.exists_running (o : s.Orderly) (h : s.Filed) {a : Action} {m : MessageRecord}
    (hm : s.InBatch a m) : ∃ q ∈ s.running, m.campaignId = q.dispatch.campaign := by
  obtain ⟨q, hq, hcreated | ⟨huntried, _⟩⟩ := hm
  · exact ⟨q, hq, h.owned q hq m hcreated⟩
  · exact ⟨q, hq, (o.drafts q hq m huntried).campaign⟩

/-- What work is pending for, and under which ticket, is never changed. -/
theorem hereditary_pending (Q : Uuid → Uuid → Nat → Prop) :
    Agenda.Hereditary fun g : Agenda Walk =>
      ∀ e ∈ g.pending, Q e.record e.campaign e.ticket := by
  constructor
  · intro g record h e he
    exact h e (List.mem_filter.mp he).1
  · intro g other h e he
    exact h e ((g.pending_cancelAll_sublist other).subset he)
  · intro g ticket h e he
    exact h e (List.mem_filter.mp he).1
  · intro g ticket work h e he
    rcases Agenda.mem_progress he with ⟨hold, _⟩ | ⟨b, hb, _, rfl⟩
    · exact h e hold
    · exact h b hb
  · intro g h
    exact h

theorem filed_act (o : s.Orderly) (h : s.Filed) (a : Action) : (s.act a).Filed := by
  constructor
  · refine agenda_act (hereditary_pending fun record campaign _ =>
      ∃ m ∈ (s.act a).state.records.origins, m.id = record ∧ m.campaignId = campaign) a ?_ ?_
    · intro g m walk hm _ hg e he
      rcases Agenda.mem_schedule he with hold | rfl
      · exact hg e hold
      · exact ⟨m, hm.mem_origins o h, rfl, rfl⟩
    · intro e he
      obtain ⟨m, hm, hfiled⟩ := h.pending e he
      exact ⟨m, origins_subset_act o a hm, hfiled⟩
  · intro r hr m hm
    obtain ⟨q, hq, -, hcreated⟩ := created_act hr hm
    exact InBatch.mem_origins o h ⟨q, hq, hcreated⟩
  · intro r hr m hm
    obtain ⟨q, hq, hcampaign, hcreated | ⟨huntried, _⟩⟩ := created_act hr hm
    · exact (h.owned q hq m hcreated).trans hcampaign
    · exact (o.drafts q hq m huntried).campaign.trans hcampaign

theorem filed_run (o : s.Orderly) (h : s.Filed) (actions : List Action) :
    (s.run actions).Filed := by
  induction actions generalizing s with
  | nil => exact h
  | cons a rest ih => exact ih (orderly_act o a) (filed_act o h a)

/-- The walk of a record belongs to the campaign of the record. -/
theorem Filed.campaign_eq (o : s.Orderly) (h : s.Filed) {e : PendingEntry Walk}
    (he : e ∈ s.state.agenda.pending) {r : MessageRecord} (hr : r ∈ s.state.records.records)
    (same : e.record = r.id) : e.campaign = r.campaignId := by
  obtain ⟨m, hm, hid, hcampaign⟩ := h.pending e he
  obtain ⟨q, hq, rfl⟩ := List.mem_map.mp hm
  have hq_eq : q = r := by
    have distinct := (List.nodup_append.mp o.reserved.distinct).1
    exact List.inj_on_of_nodup_map distinct hq hr (hid.trans same)
  rw [← hcampaign, hq_eq]
  rfl

/-! ## After the cancellation -/

/-- The delivery has gone on after the cancellation of a campaign with nothing but the batches that
were in flight then. -/
structure Ceased (s : Simulation) (campaign : Uuid) (t : Simulation) : Prop where
  closed : t.state.agenda.Closed campaign
  untried : ∀ r ∈ t.running, r.dispatch.campaign = campaign → ∀ m ∈ r.dispatch.untried,
    ∃ q ∈ s.running, q.ticket = r.ticket ∧ q.dispatch.campaign = campaign ∧
      m ∈ q.dispatch.untried
  origins : ∀ m ∈ t.state.records.origins, m.campaignId = campaign →
    m ∈ s.state.records.origins ∨
      ∃ q ∈ s.running, q.dispatch.campaign = campaign ∧ m ∈ q.dispatch.untried

/-- Whatever is done, the agenda stays closed to a campaign. -/
theorem closed_act (a : Action) (h : s.state.agenda.Closed campaign) :
    (s.act a).state.agenda.Closed campaign :=
  agenda_act (Agenda.hereditary_closed campaign) a
    (fun _ m walk _ _ hg => hg.schedule m.id m.campaignId walk) h

theorem ceased_of_closed (closed : s.state.agenda.Closed campaign) : s.Ceased campaign s :=
  ⟨closed, fun r hr hcampaign _ hm => ⟨r, hr, rfl, hcampaign, hm⟩, fun _ hm _ => Or.inl hm⟩

theorem ceased_cancel (s : Simulation) (campaign : Uuid) :
    s.Ceased campaign (s.act (.cancel campaign)) := by
  constructor
  · exact Agenda.closed_cancelAll s.state.agenda campaign
  · intro r hr hcampaign m hm
    exact ⟨r, hr, rfl, hcampaign, hm⟩
  · intro m hm _
    exact Or.inl hm

theorem ceased_act (o : t.Orderly) (h : s.Ceased campaign t) (a : Action) :
    s.Ceased campaign (t.act a) := by
  constructor
  · exact closed_act a h.closed
  · intro r hr hcampaign m hm
    rcases untried_act hr hm with ⟨p, hp, hticket, hsame, hold⟩ | hnew
    · obtain ⟨q, hq, hq_ticket, hq_campaign, hq_untried⟩ :=
        h.untried p hp (hsame.trans hcampaign) m hold
      exact ⟨q, hq, hq_ticket.trans hticket, hq_campaign, hq_untried⟩
    · have haccepted := hnew.accepted
      rw [hcampaign, h.closed.refuses] at haccepted
      cases haccepted
  · intro m hm hcampaign
    rcases List.mem_append.mp ((origins_act o a).mem_iff.mp hm) with hnew | hold
    · cases recorded_act t a with
      | same none_created _ =>
        rw [none_created] at hnew
        cases hnew
      | moved none_created _ _ _ _ =>
        rw [none_created] at hnew
        cases hnew
      | created r present _ m' untried by_action _ =>
        rw [by_action, Option.mem_toList] at hnew
        cases Option.mem_some_iff.mp hnew
        have hr := (dispatchAt?_eq_some present).1
        have hdraft := (o.drafts r hr m untried).campaign
        obtain ⟨q, hq, _, hq_campaign, hq_untried⟩ :=
          h.untried r hr (hdraft.symm.trans hcampaign) m untried
        exact Or.inr ⟨q, hq, hq_campaign, hq_untried⟩
    · exact h.origins m hold hcampaign

theorem ceased_run (o : t.Orderly) (h : s.Ceased campaign t) (actions : List Action) :
    s.Ceased campaign (t.run actions) := by
  induction actions generalizing t with
  | nil => exact h
  | cons a rest ih => exact ih (orderly_act o a) (ceased_act o h a)

/-- A step of a walk does not change the records of a campaign that has no walks. -/
theorem get?_act_walk (o : t.Orderly) (filed : t.Filed)
    (clear : ∀ e ∈ t.state.agenda.pending, e.campaign ≠ campaign) {r : MessageRecord}
    (hr : r ∈ t.state.records.records) (hcampaign : r.campaignId = campaign) (ticket : Nat) :
    (t.act (.work (.walk ticket))).state.records.get? r.id = some r := by
  have hfound := o.get?_of_mem hr
  cases hwalk : t.walkAt? ticket with
  | none =>
    simp only [act, work, hwalk]
    exact hfound
  | some e =>
    have he := (walkAt?_eq_some hwalk).1
    have hother : r.id ≠ e.record := by
      intro hsame
      exact clear e he ((filed.campaign_eq o he hr hsame.symm).trans hcampaign)
    have hact : (t.act (.work (.walk ticket))).state = t.state.stepWalk e := by
      simp only [act, work, hwalk]
      rfl
    rw [hact, (t.state.stepWalk_walkStep e).get?_of_ne hother]
    exact hfound

/-- A dispatch that comes to a batch after its campaign was cancelled ends there. In all of its
history it has neither completed its campaign nor marked it as failed. -/
theorem end?_deeds_of_refuses (o : s.Orderly) {recipients : List String} {actions : List Action}
    {r : RunningDispatch}
    (present : ((s.act (.begin campaign recipients)).run actions).dispatchAt?
      s.state.agenda.nextTicket = some r)
    (reaches : ((s.act (.begin campaign recipients)).run actions).state.reachesBatch
      r.dispatch = true)
    (refuses : ((s.act (.begin campaign recipients)).run actions).state.agenda.refuses
      r.dispatch.campaign = true) (more : List Action) :
    let ticket := s.state.agenda.nextTicket
    let deeds := (s.act (.begin campaign recipients)).deeds ticket
      (actions ++ .work (.dispatch ticket) :: more)
    Deed.end? deeds = some .cancelled ∧ ∀ e ∈ Deed.exchanges deeds,
      (∀ stats, e.call ≠ .completeCampaign stats) ∧ ∀ reason, e.call ≠ .failCampaign reason := by
  intro ticket deeds
  obtain ⟨t, ht⟩ : ∃ t, t = (s.act (.begin campaign recipients)).run actions := ⟨_, rfl⟩
  obtain ⟨holds, reached⟩ := reached_of_dispatchAt? (orderly_act o _)
    (holds_begin o campaign recipients) .start present
  rw [← ht] at present reaches refuses holds
  have hrunning : r.dispatch.isEnded = false := (holds.running present).1
  have hended := DeliveryState.end?_stepDispatch_of_refuses reaches refuses
  have hdeed : t.deedOf? ticket (.work (.dispatch ticket)) = some ⟨t.state, r.dispatch⟩ := by
    simp [deedOf?, Action.isStepOf, ticket, present]
  have hstep := reached.step hrunning t.state
  have hlast : (t.act (.work (.dispatch ticket))).deeds ticket more = [] := by
    obtain ⟨d', hholds, followed⟩ := followed_act holds
      (a := .work (.dispatch ticket)) (Or.inr (by simp))
    refine deeds_of_ended hholds ?_ more
    cases followed with
    | alone no_step _ _ =>
      rw [hrunning] at no_step
      exact absurd (no_step (by simp [Action.isStepOf, ticket])) (by simp)
    | step _ _ next =>
      rw [next, Dispatch.isEnded, Dispatch.phase_of_end? _ hended]
    | rearranged no_step _ _ _ _ => simp [Action.isStepOf, ticket] at no_step
  have hdeeds : deeds = [] ++ (s.act (.begin campaign recipients)).deeds ticket actions ++
      [⟨t.state, r.dispatch⟩] := by
    simp only [deeds, deeds_append, Simulation.deeds, ← ht, hdeed, hlast]
    simp
  rw [hdeeds]
  have handled := hstep.handled hended
  obtain ⟨hcomplete, hmarked, _⟩ := handled.cancelled rfl
  refine ⟨(hstep.end? rfl).trans hended, ?_⟩
  intro e he
  refine ⟨hcomplete e he, ?_⟩
  intro reason hcall
  have hnone := List.filterMap_eq_nil_iff.mp hmarked e he
  simp [Exchange.marked?, hcall] at hnone

/-- The cancellation itself has changed nothing but the agenda, and nothing there that belongs to
other campaigns. -/
structure Confined (s : Simulation) (campaign : Uuid) (t : Simulation) : Prop where
  records : t.state.records = s.state.records
  campaigns : t.state.campaigns = s.state.campaigns
  running : t.running = s.running
  others : ∀ other, other ≠ campaign →
    t.state.agenda.pending.filter (fun e => e.campaign == other) =
      s.state.agenda.pending.filter fun e => e.campaign == other

/-- What is left of a campaign in a delivery after its cancellation in an earlier one. -/
structure Silenced (s : Simulation) (campaign : Uuid) (t : Simulation) : Prop where
  pending : t.state.agenda.countFor campaign = 0
  walks : ∀ r ∈ t.state.records.records, r.campaignId = campaign → ∀ ticket,
    (t.act (.work (.walk ticket))).state.records.get? r.id = some r
  unwalked : ∀ r ∈ t.state.records.records, r.campaignId = campaign →
    t.state.agenda.hasPending r.id = false
  /-- What its dispatches have still to create belongs to batches that were in flight. -/
  batches : ∀ r ∈ t.running, r.dispatch.campaign = campaign → ∀ m ∈ r.dispatch.untried,
    ∃ q ∈ s.running, q.ticket = r.ticket ∧ q.dispatch.campaign = campaign ∧
      m ∈ q.dispatch.untried
  /-- So does what they have created since. -/
  created : ∀ r ∈ t.state.records.records, r.campaignId = campaign →
    r.origin ∈ s.state.records.origins ∨
      ∃ q ∈ s.running, q.dispatch.campaign = campaign ∧ r.origin ∈ q.dispatch.untried

/-- A cancellation tells how much of the campaign was pending. -/
theorem Orderly.cancelAll_fst (o : s.Orderly) (campaign : Uuid) :
    (s.state.cancelAll campaign).1 = s.state.agenda.countFor campaign :=
  congrArg Prod.fst (Agenda.cancelAll_eq o.agenda campaign)

/-- What a cancellation takes off the agenda is what belongs to the campaign. -/
theorem Orderly.pending_cancel (o : s.Orderly) (campaign : Uuid) :
    (s.act (.cancel campaign)).state.agenda.pending =
      s.state.agenda.pending.filter fun e => e.campaign != campaign :=
  congrArg (fun answer => answer.2.pending) (Agenda.cancelAll_eq o.agenda campaign)

theorem confined_cancel (o : s.Orderly) (campaign : Uuid) :
    s.Confined campaign (s.act (.cancel campaign)) := by
  refine ⟨rfl, rfl, rfl, ?_⟩
  intro other hother
  rw [o.pending_cancel, List.filter_filter]
  apply List.filter_congr
  intro e _
  by_cases he : e.campaign = other
  · simp [he, hother]
  · simp [he]

theorem silenced_of_ceased (o : t.Orderly) (filed : t.Filed) (h : s.Ceased campaign t) :
    s.Silenced campaign t := by
  constructor
  · exact h.closed.countFor
  · intro r hr hcampaign ticket
    exact get?_act_walk o filed h.closed.clear hr hcampaign ticket
  · intro r hr hcampaign
    rw [Agenda.hasPending, List.any_eq_false]
    intro e he hsame
    have hrecord : e.record = r.id := by simpa using hsame
    exact h.closed.clear e he ((filed.campaign_eq o he hr hrecord).trans hcampaign)
  · exact h.untried
  · intro r hr hcampaign
    exact h.origins r.origin (List.mem_map.mpr ⟨r, hr, rfl⟩) hcampaign

/-- Whenever a campaign is cancelled, the call tells how many of its walks were pending and changes
nothing else. From then on the campaign has no walks and no new batches, and a dispatch of it that
comes to a further batch ends there, without a word to the book of campaigns. -/
theorem cancellation_is_final {start : DeliveryState} (idle : start.Idle)
    (before later : List Action) (campaign : Uuid) :
    let s := (ofState start).run before
    let stopped := s.act (.cancel campaign)
    let t := stopped.run later
    (s.state.cancelAll campaign).1 = s.state.agenda.countFor campaign ∧
      s.Confined campaign stopped ∧ s.Silenced campaign t ∧
      ∀ r ∈ t.running, r.dispatch.campaign = campaign → t.state.reachesBatch r.dispatch = true →
        ∃ first recipients rest,
          before ++ .cancel campaign :: later =
            first ++ .begin campaign recipients :: rest ∧
          let begun := ((ofState start).run first).act (.begin campaign recipients)
          r.ticket = ((ofState start).run first).state.agenda.nextTicket ∧
          ∀ more,
            let deeds := begun.deeds r.ticket (rest ++ .work (.dispatch r.ticket) :: more)
            Deed.end? deeds = some .cancelled ∧ ∀ e ∈ Deed.exchanges deeds,
              (∀ stats, e.call ≠ .completeCampaign stats) ∧
                ∀ reason, e.call ≠ .failCampaign reason := by
  intro s stopped t
  have hstart : (ofState start).Orderly := orderly_ofState idle
  have hbefore : s.Orderly := orderly_run hstart before
  have hstopped : stopped.Orderly := orderly_act hbefore _
  have horder : t.Orderly := orderly_run hstopped later
  have hrun : t = (ofState start).run (before ++ .cancel campaign :: later) := by
    rw [run_append]
    rfl
  have hfiled : t.Filed := hrun ▸ filed_run hstart (filed_ofState idle) _
  have hceased : s.Ceased campaign t := ceased_run hstopped (ceased_cancel s campaign) later
  refine ⟨hbefore.cancelAll_fst campaign, confined_cancel hbefore campaign,
    silenced_of_ceased horder hfiled hceased, ?_⟩
  intro r hr hcampaign hreaches
  obtain ⟨first, recipients, rest, hsplit, hticket⟩ :=
    exists_begin (s := ofState start) rfl _ (hrun ▸ hr)
  rw [hcampaign] at hsplit
  refine ⟨first, recipients, rest, hsplit, hticket, ?_⟩
  have hlater : (((ofState start).run first).act (.begin campaign recipients)).run rest = t := by
    rw [hrun, hsplit, run_append]
    rfl
  rw [hticket]
  refine end?_deeds_of_refuses (orderly_run hstart first) ?_ (hlater ▸ hreaches) ?_
  · rw [hlater, ← hticket]
    exact horder.dispatchAt?_of_mem hr
  · rw [hlater, hcampaign]
    exact hceased.closed.refuses

/-- The first of two records of a batch has been created when the campaign is cancelled. The second
is still to come, and a third recipient belongs to a batch that never begins. -/
theorem mid_batch_cancellation_is_final :
    let before : List Action := [.enter Sample.campaign, .begin .nil ["a", "b", "c"],
      .work (.dispatch 0), .work (.dispatch 0)]
    let later : List Action := [.receive ⟨"msg_0_a", .opened, none⟩]
    let s := (ofState (Sample.delivery 2)).run before
    let stopped := s.act (.cancel .nil)
    let t := stopped.run later
    s.Confined .nil stopped ∧ s.Silenced .nil t ∧
      ∃ r ∈ t.running, r.dispatch.campaign = .nil ∧ t.state.reachesBatch r.dispatch = true ∧
        ∃ first recipients rest, before ++ .cancel .nil :: later =
            first ++ .begin .nil recipients :: rest ∧
          Deed.end? ((((ofState (Sample.delivery 2)).run first).act (.begin .nil recipients)).deeds
            r.ticket (rest ++ [.work (.dispatch r.ticket)])) = some .cancelled := by
  intro before later s stopped t
  obtain ⟨_, confined, silenced, ends⟩ :=
    cancellation_is_final (Sample.idle 2) before later .nil
  refine ⟨confined, silenced, ?_⟩
  obtain ⟨r, hr⟩ : ∃ r, t.dispatchAt? 0 = some r :=
    Option.isSome_iff_exists.mp (by decide +kernel)
  have hmem : r ∈ t.running := (dispatchAt?_eq_some hr).1
  have hcampaign : (t.dispatchAt? 0).map (fun r => r.dispatch.campaign) = some .nil := by
    decide +kernel
  have hreaches : (t.dispatchAt? 0).map (fun r => t.state.reachesBatch r.dispatch) =
      some true := by decide +kernel
  rw [hr] at hcampaign hreaches
  obtain ⟨first, recipients, rest, hsplit, _, hend⟩ :=
    ends r hmem (Option.some.inj hcampaign) (Option.some.inj hreaches)
  exact ⟨r, hmem, Option.some.inj hcampaign, Option.some.inj hreaches, first, recipients, rest,
    hsplit, (hend []).1⟩

end Simulation

end Outreach
