import Outreach.Proofs.Delivery.Certainty
import Outreach.Proofs.Delivery.Punctuality
import Outreach.Proofs.Delivery.Recounts

/-!
# The funnel settles

In a delivery that keeps to the clock every walk takes its stages within their times, so it has
ended when the longest time through the funnel has passed since it was scheduled. Once no dispatch
of a campaign is running, no walk of the campaign is scheduled any more. When the longest time has
passed from then, the campaign has settled: no walk will change its records, and without further
receipts every recount gives the same statistics. If nothing is left to chance and nobody
interferes, all of its messages have been clicked by then.
-/

namespace Outreach

/-- The action brings a receipt. -/
def Action.IsReceipt : Action → Prop
  | .receive _ => True
  | .deliver _ _ => True
  | _ => False

theorem CampaignStats.refreshed_perm (stats : CampaignStats) {records others : List MessageRecord}
    (h : records.Perm others) : stats.refreshed records = stats.refreshed others := by
  simp only [refreshed, StageCounts.ofRecords, h.countP_eq]

namespace Simulation

variable {s t : Simulation} {a : Action} {e : PendingEntry Walk} {campaign : Uuid}
  {time : Instant} {r : MessageRecord} {limit : Nat}

/-- The action schedules the walk of an entry. -/
def Schedules (s : Simulation) (a : Action) (e : PendingEntry Walk) : Prop :=
  e ∈ (s.act a).state.agenda.pending ∧ s.state.agenda.nextTicket ≤ e.ticket

/-- Every step of a walk that is due by an instant has been taken. -/
def Through (s : Simulation) (time : Instant) : Prop :=
  time < s.now ∨ time = s.now ∧ ∀ e ∈ s.state.agenda.pending, s.now < e.work.ready

/-- If the walk of an entry takes its next step in time, the step leaves the records alone or moves
the record of the entry to the stage that the walk has waited for, as early and as late as a message
can come to the stage that is sent at an instant. -/
def MovesInTime (s : Simulation) (e : PendingEntry Walk) (time : Instant) : Prop :=
  let step := Action.work (.walk e.ticket)
  let book := (s.act step).state.records
  ∀ b, s.walkAt? e.ticket = some b → s.Timely step →
    book = s.state.records ∨ ∃ stage, b.work.progress = .waiting stage s.now ∧
      book = (s.state.records.advance e.record stage.status s.now).2 ∧
      time.addMillis (stage.earliest s.state.settings) ≤ s.now ∧
      s.now ≤ time.addMillis (stage.latest s.state.settings)

/-- No walk of the campaign is pending, and no step of a walk changes its records. -/
structure Settled (s : Simulation) (campaign : Uuid) : Prop where
  pending : s.state.agenda.countFor campaign = 0
  walks : ∀ r ∈ s.state.records.records, r.campaignId = campaign → ∀ ticket,
    (s.act (.work (.walk ticket))).state.records.get? r.id = some r

/-! ## The end of a walk -/

/-- A walk that has still to take a step would have to take it by now. -/
theorem OnTime.not_through (h : s.OnTime e time) {later : Instant} (reached : time.Reaches later)
    (through : s.Through (later.addMillis s.state.settings.maxFunnelMs)) {b : PendingEntry Walk}
    (hb : b ∈ s.state.agenda.pending) : b.ticket ≠ e.ticket := by
  intro hticket
  obtain ⟨-, hschedule, hready⟩ := h b hb hticket
  have hlast := hschedule.ready_le reached
  rcases through with hpast | ⟨hnow, hdue⟩
  · exact (Instant.of_lt hpast).2.2.2 (Instant.le_trans hready hlast)
  · rw [hnow] at hlast
    exact (Instant.of_lt (hdue b hb)).2.2.2 hlast

theorem OnTime.movesInTime (h : s.OnTime e time) : s.MovesInTime e time := by
  intro b present timely
  obtain ⟨hb, hticket⟩ := walkAt?_eq_some present
  obtain ⟨hrecord, hschedule, hready⟩ := h b hb hticket
  have hdue : b.work.ready = s.now := Instant.le_antisymm (timely b present) hready
  have hbook : (s.act (.work (.walk e.ticket))).state.records = (s.state.stepWalk b).records := by
    simp only [act, work, present]
    rfl
  rw [hbook]
  rcases (s.state.stepWalk_walkStep b).book_cases with kept | ⟨stage, due, waited, advanced⟩
  · exact Or.inl kept.records
  · obtain ⟨ms, hearliest, hlatest, hms⟩ := hschedule.waiting waited
    rw [Walk.ready, waited] at hdue
    obtain rfl : due = s.now := hdue
    refine Or.inr ⟨stage, waited, hrecord ▸ advanced.records, ?_, ?_⟩
    · rw [hms]
      exact Instant.addMillis_le_addMillis_iff.mpr hearliest
    · rw [hms]
      exact Instant.addMillis_le_addMillis_iff.mpr hlatest

/-! ## The end of a campaign -/

/-- No dispatch of the campaign is running, and its walks hold tickets from before a limit. -/
structure Abates (s : Simulation) (campaign : Uuid) (limit : Nat) : Prop where
  gone : ∀ q ∈ s.running, q.dispatch.campaign ≠ campaign
  drawn : ∀ e ∈ s.state.agenda.pending, e.campaign = campaign → e.ticket < limit

theorem Abates.clear (h : s.Abates campaign 0) :
    ∀ e ∈ s.state.agenda.pending, e.campaign ≠ campaign :=
  fun e he hown => Nat.not_lt_zero e.ticket (h.drawn e he hown)

theorem Abates.settled (h : s.Abates campaign 0) (o : s.Orderly) (filed : s.Filed) :
    s.Settled campaign := by
  constructor
  · rw [Agenda.countFor, List.countP_eq_zero]
    intro e he
    simpa using h.clear e he
  · intro r hr hcampaign ticket
    exact get?_act_walk o filed h.clear hr hcampaign ticket

/-- As long as no dispatch of the campaign begins, none of its walks is scheduled. -/
theorem abates_act (o : s.Orderly) (filed : s.Filed) (h : s.Abates campaign limit)
    (single : ∀ names, a ≠ .begin campaign names) : (s.act a).Abates campaign limit := by
  constructor
  · exact gone_act h.gone single
  · refine agenda_act (hereditary_pending fun _ c ticket => c = campaign → ticket < limit) a ?_
      h.drawn
    intro g m walk hm _ hg e he hown
    rcases Agenda.mem_schedule he with hold | rfl
    · exact hg e hold hown
    · obtain ⟨q, hq, hcampaign⟩ := hm.exists_running o filed
      exact absurd (hcampaign.symm.trans hown) (h.gone q hq)

theorem abates_run (o : s.Orderly) (filed : s.Filed) (h : s.Abates campaign limit)
    {actions : List Action} (single : ∀ names, .begin campaign names ∉ actions) :
    (s.run actions).Abates campaign limit := by
  induction actions generalizing s with
  | nil => exact h
  | cons a rest ih =>
    refine ih (orderly_act o a) (filed_act o filed a) (abates_act o filed h ?_) ?_
    · rintro names rfl
      exact single names List.mem_cons_self
    · exact fun names hmem => single names (List.mem_cons_of_mem a hmem)

/-- Whoever holds a ticket now is on time, and was scheduled by now. -/
theorem Timed.onTime (h : s.Timed) (e : PendingEntry Walk) :
    ∃ b time, b.ticket = e.ticket ∧ time.Reaches s.now ∧ s.OnTime b time := by
  by_cases hheld : ∃ b ∈ s.state.agenda.pending, b.ticket = e.ticket
  · obtain ⟨b, hb, hticket⟩ := hheld
    obtain ⟨time, hschedule, hreached, hready⟩ := h.walks b hb
    refine ⟨b, time, hticket, hreached, fun c hc hsame => ?_⟩
    obtain rfl := h.order.agenda.eq_of_ticket hc hb hsame
    exact ⟨rfl, hschedule, hready⟩
  · exact ⟨e, s.now, rfl, .refl s.now, fun b hb hticket => absurd ⟨b, hb, hticket⟩ hheld⟩

/-- When the longest time through the funnel has passed since the last dispatch of a campaign was
running, nothing of the campaign is left. -/
theorem Timed.abates (h : s.Timed) (filed : s.Filed)
    (gone : ∀ q ∈ s.running, q.dispatch.campaign ≠ campaign) {later : List Action}
    (timely : s.TimelyRun later) (single : ∀ names, .begin campaign names ∉ later)
    (through : (s.run later).Through (s.now.addMillis s.state.settings.maxFunnelMs)) :
    (s.run later).Abates campaign 0 := by
  have hdrawn : s.Abates campaign s.state.agenda.nextTicket :=
    ⟨gone, fun e he _ => h.order.agenda.drawn e he⟩
  have habates := abates_run h.order filed hdrawn single
  refine ⟨habates.gone, fun e he hown => ?_⟩
  have hticket := habates.drawn e he hown
  -- the ticket was drawn by now, so whoever holds it is overdue by then
  obtain ⟨b, time, hsame, hreached, honTime⟩ := h.onTime e
  have hlater := onTime_run h.order h.valid timely (hsame.symm ▸ hticket) honTime
  rw [← settings_run s later] at through
  exact absurd hsame.symm (hlater.not_through hreached through he)

/-! ## What stays -/

/-- Without receipts a record changes only by the steps of its own walks. -/
theorem get?_act_of_clear (o : s.Orderly) (filed : s.Filed)
    (clear : ∀ e ∈ s.state.agenda.pending, e.campaign ≠ campaign) (unreceived : ¬ a.IsReceipt)
    (hr : r ∈ s.state.records.records) (hcampaign : r.campaignId = campaign) :
    (s.act a).state.records.get? r.id = some r := by
  have hfound := o.get?_of_mem hr
  cases s.acted a with
  | walked e _ by_action _ _ =>
    rw [by_action]
    exact get?_act_walk o filed clear hr hcampaign e.ticket
  | stepped p present _ step state =>
    rw [state]
    change (s.state.stepDispatch p.dispatch).2.records.get? r.id = some r
    rcases step.records with hsame | ⟨m, hm, hcreate⟩
    · rw [hsame]
      exact hfound
    · have hfresh := o.fresh (dispatchAt?_eq_some present).1 hm r hr
      rw [RecordBook.get?_create_of_ne hcreate hfresh.symm]
      exact hfound
  | delivered _ _ _ _ _ by_action _ =>
    rcases by_action with rfl | ⟨rfl, _⟩
    · exact absurd trivial unreceived
    · exact absurd trivial unreceived
  | idle _ state | rearranged _ _ _ _ _ state | moved _ _ _ state | begun _ _ _ state
  | recounted _ _ _ _ _ _ state | cancelled _ _ state | aborted _ _ state
  | unregistered _ _ state | dropped _ _ state | disturbed _ _ state | issued _ state
  | entered _ _ state | deleted _ _ state =>
    rw [state]
    exact hfound

theorem nodup_find (o : s.Orderly) (campaign : Uuid) :
    (s.state.records.find (.campaign campaign)).Nodup :=
  (List.Nodup.of_map _ (List.nodup_append.mp o.reserved.distinct).1).filter _

/-- Without receipts nothing happens to the records of a campaign that is over. -/
theorem Abates.find_act_perm (h : s.Abates campaign 0) (o : s.Orderly) (filed : s.Filed)
    (unreceived : ¬ a.IsReceipt) :
    ((s.act a).state.records.find (.campaign campaign)).Perm
      (s.state.records.find (.campaign campaign)) := by
  have hkept : ∀ q ∈ s.state.records.records, q.campaignId = campaign →
      (s.act a).state.records.get? q.id = some q := fun q hq hcampaign =>
    get?_act_of_clear o filed h.clear unreceived hq hcampaign
  rw [List.perm_ext_iff_of_nodup (nodup_find (orderly_act o a) campaign) (nodup_find o campaign)]
  intro r
  rw [RecordBook.mem_find_campaign, RecordBook.mem_find_campaign]
  constructor
  · rintro ⟨hr, hcampaign⟩
    refine ⟨?_, hcampaign⟩
    have horigin : r.origin ∈ (s.act a).state.records.origins := List.mem_map_of_mem hr
    rcases List.mem_append.mp ((origins_act o a).mem_iff.mp horigin) with hnew | hold
    -- only a dispatch of the campaign could create such a record
    · cases recorded_act s a with
      | same none_created _ | moved none_created _ _ _ _ =>
        rw [none_created] at hnew
        cases hnew
      | created p present _ m untried by_action _ =>
        rw [by_action, Option.mem_toList] at hnew
        have hp := (dispatchAt?_eq_some present).1
        have hown := (o.drafts p hp m untried).campaign
        rw [Option.mem_some_iff.mp hnew] at hown
        exact absurd (hown.symm.trans hcampaign) (h.gone p hp)
    · obtain ⟨q, hq, hsame⟩ := List.mem_map.mp hold
      have hid : q.id = r.id := by simpa using congrArg MessageRecord.id hsame
      have hown : q.campaignId = r.campaignId := by
        simpa using congrArg MessageRecord.campaignId hsame
      have hfound := hkept q hq (hown.trans hcampaign)
      rw [hid, (orderly_act o a).get?_of_mem hr] at hfound
      exact Option.some.inj hfound ▸ hq
  · rintro ⟨hr, hcampaign⟩
    exact ⟨(Sorted.get?_eq_some (hkept r hr hcampaign)).1, hcampaign⟩

/-- A campaign is over, its records are those of an earlier state, and a recount of it gives what it
gave then. -/
structure Stands (s : Simulation) (campaign : Uuid) (t : Simulation) : Prop where
  ended : t.Abates campaign 0
  records : (t.state.records.find (.campaign campaign)).Perm
    (s.state.records.find (.campaign campaign))
  recount : ∀ c, t.state.campaigns.get? campaign = some c →
    ∃ b, s.state.campaigns.get? campaign = some b ∧
      c.stats.refreshed (s.state.records.find (.campaign campaign)) =
        b.stats.refreshed (s.state.records.find (.campaign campaign))

theorem stands_self (h : s.Abates campaign 0) : s.Stands campaign s :=
  ⟨h, List.Perm.refl _, fun c hc => ⟨c, hc, rfl⟩⟩

theorem stands_act (o : t.Orderly) (filed : t.Filed) (h : s.Stands campaign t)
    (leaves : a.Leaves campaign) (unreceived : ¬ a.IsReceipt) : s.Stands campaign (t.act a) := by
  refine ⟨abates_act o filed h.ended fun names => Action.single_of_leaves leaves names,
    (h.ended.find_act_perm o filed unreceived).trans h.records, ?_⟩
  intro c hc
  rcases t.keeps_act leaves with hkeeps | ⟨p, present, hown, -⟩
  · obtain ⟨b, hb, -, hstats⟩ := hkeeps c hc
    obtain ⟨first, hfirst, hsame⟩ := h.recount b hb
    refine ⟨first, hfirst, Eq.trans ?_ hsame⟩
    rcases hstats with hstats | hstats
    · rw [hstats]
    · rw [hstats]
      rfl
  · exact absurd hown (h.ended.gone p (dispatchAt?_eq_some present).1)

theorem stands_run (o : t.Orderly) (filed : t.Filed) (h : s.Stands campaign t)
    {actions : List Action} (quiet : ∀ a ∈ actions, a.Leaves campaign ∧ ¬ a.IsReceipt) :
    s.Stands campaign (t.run actions) := by
  induction actions generalizing t with
  | nil => exact h
  | cons a rest ih =>
    rw [List.forall_mem_cons] at quiet
    exact ih (orderly_act o a) (filed_act o filed a)
      (stands_act o filed h quiet.1.1 quiet.1.2) quiet.2

/-- What a recount gives of a campaign as it is. -/
def recounted (s : Simulation) (campaign : Uuid) : CampaignStats :=
  match s.state.campaigns.get? campaign with
  | some c => c.stats.refreshed (s.state.records.find (.campaign campaign))
  | none => .ofRecipients 0

theorem Stands.recompute (h : s.Stands campaign t) {stats : CampaignStats} {u : DeliveryState}
    (answered : t.state.recompute campaign = .ok (stats, u)) : stats = s.recounted campaign := by
  obtain ⟨c, _, hc, rfl, _, _⟩ := DeliveryState.recompute_ok answered
  obtain ⟨b, hb, hsame⟩ := h.recount c hc
  rw [recounted, hb, CampaignStats.refreshed_perm _ h.records]
  exact hsame

/-- Every recount of the campaign that is answered gives the statistics, and one is answered where
calls are in order and the campaign is there. -/
def RecountsAs (s : Simulation) (campaign : Uuid) (stats : CampaignStats) : Prop :=
  (∀ found u, s.state.recompute campaign = .ok (found, u) → found = stats) ∧
    (s.state.outages = .none → (s.state.campaigns.get? campaign).isSome →
      ∃ u, s.state.recompute campaign = .ok (stats, u))

theorem Stands.recountsAs (h : s.Stands campaign t) :
    t.RecountsAs campaign (s.recounted campaign) := by
  refine ⟨fun found u answered => h.recompute answered, fun calm hpresent => ?_⟩
  obtain ⟨c, hc⟩ := Option.isSome_iff_exists.mp hpresent
  obtain ⟨book, -, hanswer⟩ := recompute_calm calm hc
  exact ⟨_, h.recompute hanswer ▸ hanswer⟩

/-- The campaign stays settled as long as it is not dispatched again. Without receipts its records
and the statistics of its recounts stay as well. -/
structure StaysSettled (s : Simulation) (campaign : Uuid) : Prop where
  settled : ∀ later, (∀ names, .begin campaign names ∉ later) → (s.run later).Settled campaign
  recounts : ∃ stats, ∀ later, (∀ a ∈ later, a.Leaves campaign ∧ ¬ a.IsReceipt) →
    ((s.run later).state.records.find (.campaign campaign)).Perm
      (s.state.records.find (.campaign campaign)) ∧
    (s.run later).RecountsAs campaign stats

theorem Abates.staysSettled (h : s.Abates campaign 0) (o : s.Orderly) (filed : s.Filed) :
    s.StaysSettled campaign := by
  constructor
  · intro later single
    exact (abates_run o filed h single).settled (orderly_run o later) (filed_run o filed later)
  · refine ⟨s.recounted campaign, fun later quiet => ?_⟩
    have hstands := stands_run o filed (stands_self h) quiet
    exact ⟨hstands.records, hstands.recountsAs⟩

/-! ## What has arrived -/

/-- Every message of the campaign has been clicked, and a recount shows it. -/
structure Arrived (s : Simulation) (campaign : Uuid) : Prop where
  each : ∀ r ∈ s.state.records.find (.campaign campaign), r.status = .clicked ∧
    r.deliveredAt.isSome ∧ r.openedAt.isSome ∧ r.clickedAt.isSome
  counts : ∀ stats u, s.state.recompute campaign = .ok (stats, u) →
    let messages := (s.state.records.find (.campaign campaign)).length
    stats.sent = messages ∧ stats.delivered = messages ∧ stats.opened = messages ∧
      stats.clicked = messages

theorem Abates.arrived (h : s.Abates campaign 0) (o : s.Orderly) (filed : s.Filed)
    (coherent : s.Coherent) (certain : s.Certain campaign) : s.Arrived campaign := by
  have heach : ∀ r ∈ s.state.records.find (.campaign campaign), r.status = .clicked ∧
      r.deliveredAt.isSome ∧ r.openedAt.isSome ∧ r.clickedAt.isSome := by
    intro r hr
    obtain ⟨hmem, hcampaign⟩ := RecordBook.mem_find_campaign.mp hr
    have hclicked := certain.arrived o filed h.gone h.clear hmem hcampaign
    have hstamps := coherent.records r hmem
    exact ⟨hclicked, hstamps.delivered.mpr (Or.inr (Or.inr hclicked)),
      hstamps.opened.mpr (Or.inr hclicked), hstamps.clicked.mpr hclicked⟩
  refine ⟨heach, fun stats u answered => ?_⟩
  obtain ⟨c, _, -, rfl, _, _⟩ := DeliveryState.recompute_ok answered
  refine ⟨?_, ?_, ?_, ?_⟩
  · rw [CampaignStats.sent_refreshed]
    exact List.countP_eq_length.mpr fun r hr => by simp [(heach r hr).1]
  · exact List.countP_eq_length.mpr fun r hr => (heach r hr).2.1
  · exact List.countP_eq_length.mpr fun r hr => (heach r hr).2.2.1
  · exact List.countP_eq_length.mpr fun r hr => (heach r hr).2.2.2

theorem certain_ofState {start : DeliveryState} (empty : start.records = .empty)
    (sure : start.settings.Sure) (moves : start.outages.MovesRecords)
    (accepts : start.agenda.refuses campaign = false) : (ofState start).Certain campaign := by
  refine ⟨sure, moves, accepts, ?_, ?_⟩
  · rintro q ⟨⟩
  · simp [ofState, empty, RecordBook.empty]

/-! ## Deliveries that are left to the clock -/

theorem Rested.through (h : s.Rested) : s.Through s.now :=
  Or.inr ⟨rfl, fun e he => h (.walk e) (List.mem_append_left _ (List.mem_map_of_mem he))⟩

/-- Whoever has waited for a dispatch and then for the longest time through the funnel has kept to
the clock, and sees the end of all walks of the campaign. -/
theorem Timed.wait_advance (h : s.Timed) (filed : s.Filed)
    (registered : s.isRunning campaign = true → s.isRegistered campaign = true) :
    let t := (s.wait campaign).advance s.state.settings.maxFunnelMs
    (s.unregister campaign).TimelyTo t ∧ t.Abates campaign 0 := by
  intro t
  have hunregistered : (s.unregister campaign).Timed :=
    timed_act (a := .unregister campaign) h trivial
  have hfiled : (s.unregister campaign).Filed := filed_act h.order filed (.unregister campaign)
  obtain ⟨⟨works, hworks, htimely⟩, hgone⟩ := h.wait registered
  have hsettings : (s.wait campaign).state.settings = s.state.settings := by
    rw [hworks]
    exact settings_run (s.unregister campaign) (works.map .work)
  have hwaited : (s.wait campaign).Timed := hworks ▸ timed_run hunregistered htimely
  obtain ⟨⟨more, hmore, hlater⟩, hnow, hrested⟩ := hwaited.advance s.state.settings.maxFunnelMs
  refine ⟨TimelyTo.trans ⟨works, hworks, htimely⟩ ⟨more, hmore, hlater⟩, ?_⟩
  have hthrough := hrested.through
  rw [hnow, hmore, ← hsettings] at hthrough
  have habates := hwaited.abates (hworks ▸ filed_run hunregistered.order hfiled _) hgone hlater
    (begin_notMem_works more campaign) hthrough
  rwa [← hmore] at habates

/-- If nothing is left to chance in a delivery with empty books, whatever is over has arrived. -/
theorem Abates.arrived_run {start : DeliveryState} (idle : start.Idle)
    (empty : start.records = .empty) (accepts : start.agenda.refuses campaign = false)
    (sure : start.settings.Sure) (moves : start.outages.MovesRecords) {actions : List Action}
    (untroubled : ∀ a ∈ actions, a.Untroubled campaign)
    (h : ((ofState start).run actions).Abates campaign 0) :
    ((ofState start).run actions).Arrived campaign := by
  have horder := orderly_ofState idle
  have hfiled := filed_ofState idle
  have hcertain := certain_ofState empty sure moves accepts
  exact h.arrived (orderly_run horder actions) (filed_run horder hfiled actions)
    (coherent_run (coherent_ofState empty) actions)
    (certain_run hcertain horder (apart_ofState idle) hfiled untroubled)

/-- In a delivery that keeps to the clock, whatever action schedules a walk at an instant, the walk
brings its record to each stage between the least and the longest time that the stages up to there
take, and has ended when the longest time through the funnel has passed. When that time has passed
since a campaign was last being dispatched, the campaign has settled for good, and if nothing is
left to chance and nobody interferes, all of its messages have been clicked. So it is for whoever
waits for the dispatch and then lets that time pass. -/
theorem funnel_settles_in_time {start : DeliveryState} (idle : start.Idle)
    (valid : start.settings.validate = .ok ()) (before : List Action)
    (timely : (ofState start).TimelyRun before) :
    let s := (ofState start).run before
    let last := s.now.addMillis start.settings.maxFunnelMs
    (∀ a e later, s.Timely a → s.Schedules a e → (s.act a).TimelyRun later →
      let t := (s.act a).run later
      t.MovesInTime e s.now ∧ (t.Through last → t.walkAt? e.ticket = none)) ∧
    ∀ campaign,
      let surely := start.records = .empty ∧ start.agenda.refuses campaign = false ∧
        start.settings.Sure ∧ start.outages.MovesRecords ∧ ∀ a ∈ before, a.Untroubled campaign
      ((∀ q ∈ s.running, q.dispatch.campaign ≠ campaign) → ∀ later, s.TimelyRun later →
        (∀ names, .begin campaign names ∉ later) →
        let t := s.run later
        t.Through last → t.StaysSettled campaign ∧
          (surely → (∀ a ∈ later, a.Untroubled campaign) → t.Arrived campaign)) ∧
      ((s.isRunning campaign = true → s.isRegistered campaign = true) →
        let t := (s.wait campaign).advance start.settings.maxFunnelMs
        t.StaysSettled campaign ∧ (surely → t.Arrived campaign)) := by
  intro s last
  have hsettings : s.state.settings = start.settings := settings_run (ofState start) before
  have htimed : s.Timed := timed_run (timed_ofState idle valid) timely
  have hfiled : s.Filed := filed_run (orderly_ofState idle) (filed_ofState idle) before
  refine ⟨?_, fun campaign => ⟨?_, ?_⟩⟩
  · intro a e later action_timely ⟨he, hnew⟩ later_timely t
    have hlater : (s.act a).Timed := timed_act htimed action_timely
    have honTime : t.OnTime e s.now := onTime_run hlater.order hlater.valid later_timely
      (hlater.order.agenda.drawn e he) (onTime_scheduled htimed.order he hnew)
    refine ⟨honTime.movesInTime, fun through => ?_⟩
    have hkept : t.state.settings = start.settings :=
      (settings_run _ later).trans ((settings_act s a).trans hsettings)
    cases hwalk : t.walkAt? e.ticket with
    | none => rfl
    | some b =>
      obtain ⟨hb, hticket⟩ := walkAt?_eq_some hwalk
      have hpassed : t.Through (s.now.addMillis t.state.settings.maxFunnelMs) := hkept ▸ through
      exact absurd hticket (honTime.not_through (.refl s.now) hpassed hb)
  · intro gone later later_timely single t through
    have habates : t.Abates campaign 0 :=
      htimed.abates hfiled gone later_timely single (hsettings ▸ through)
    refine ⟨habates.staysSettled (orderly_run htimed.order later)
      (filed_run htimed.order hfiled later), ?_⟩
    rintro ⟨empty, accepts, sure, moves, quiet⟩ untroubled
    have hrun : (ofState start).run (before ++ later) = t := run_append _ before later
    refine hrun ▸ Abates.arrived_run idle empty accepts sure moves ?_ (hrun ▸ habates)
    exact List.forall_mem_append.mpr ⟨quiet, untroubled⟩
  · intro registered t
    obtain ⟨⟨works, hworks, -⟩, habates⟩ := htimed.wait_advance hfiled registered
    rw [hsettings] at hworks habates
    have hrun : (ofState start).run (before ++ .unregister campaign :: works.map .work) = t :=
      (run_append _ before _).trans hworks.symm
    have horder : t.Orderly := hrun ▸ orderly_run (orderly_ofState idle) _
    have hfiled' : t.Filed := hrun ▸ filed_run (orderly_ofState idle) (filed_ofState idle) _
    refine ⟨habates.staysSettled horder hfiled', ?_⟩
    rintro ⟨empty, accepts, sure, moves, quiet⟩
    refine hrun ▸ Abates.arrived_run idle empty accepts sure moves ?_ (hrun ▸ habates)
    refine List.forall_mem_append.mpr ⟨quiet, List.forall_mem_cons.mpr ⟨trivial, ?_⟩⟩
    exact List.forall_mem_map.mpr fun _ _ => trivial

/-- Two messages are sent at once. Their walks wait a second for each stage, and both messages are
clicked after three seconds, whether somebody waits for the dispatch or not. -/
theorem two_messages_settle_in_time :
    let start := ofState (Sample.delivery 2)
    let step := Action.work (.dispatch 0)
    let before := [.enter Sample.campaign, .begin .nil ["a", "b"], step, step]
    let s := start.run before
    let due := (s.act step).run [.work (.walk 1), .work (.walk 2), .work (.moveTo ⟨1, 0⟩)]
    let t := (start.run (before ++ [step, step, step])).advance 3000
    let u := (s.wait .nil).advance 3000
    (∃ e, s.Schedules step e ∧ due.MovesInTime e s.now ∧ (due.walkAt? e.ticket).isSome ∧
      t.walkAt? e.ticket = none) ∧
    (t.StaysSettled .nil ∧ t.Arrived .nil) ∧ (u.StaysSettled .nil ∧ u.Arrived .nil) ∧
    (u.state.records.find (.campaign .nil)).length = 2 := by
  intro start step before s due t u
  have hvalid : (Sample.delivery 2).settings.validate = .ok () := by decide +kernel
  have hsure : (Sample.delivery 2).settings.Sure := by
    rw [DeliverySettings.Sure]
    decide +kernel
  have hmoves : (Sample.delivery 2).outages.MovesRecords := ⟨by decide, nofun, rfl⟩
  have hquiet : ∀ a ∈ before, a.Untroubled .nil := by simp [before, step, Action.Untroubled]
  have hbegun : start.TimelyRun before := ⟨trivial, trivial, trivial, trivial, trivial⟩
  have hsent : s.TimelyRun [step, step, step] := ⟨trivial, trivial, trivial, trivial⟩
  have hdispatched : start.TimelyRun (before ++ [step, step, step]) :=
    timelyRun_append.mpr ⟨hbegun, hsent⟩
  obtain ⟨hwalks, hwait⟩ := funnel_settles_in_time (Sample.idle 2) hvalid before hbegun
  obtain ⟨-, hends⟩ := funnel_settles_in_time (Sample.idle 2) hvalid _ hdispatched
  -- from the end of the dispatch on, everything is left to the clock
  obtain ⟨⟨works, hworks, htimely⟩, hnow, hrested⟩ :=
    (timed_run (timed_ofState (Sample.idle 2) hvalid) hdispatched).advance 3000
  have hclock : t.now = s.now.addMillis 3000 := hnow.trans (by decide +kernel)
  have hthrough : t.Through (s.now.addMillis 3000) := hclock ▸ hrested.through
  have hsplit : start.run (before ++ [step, step, step]) = (s.act step).run [step, step] :=
    (run_append start before [step, step, step]).trans (run_cons s step [step, step])
  have hlast : t = (s.act step).run ([step, step] ++ works.map .work) := by
    rw [run_append, ← hsplit]
    exact hworks
  have hgone : ∀ q ∈ (start.run (before ++ [step, step, step])).running,
      q.dispatch.campaign ≠ .nil := by decide +kernel
  have hthrough : t.Through ((start.run (before ++ [step, step, step])).now.addMillis 3000) :=
    hnow ▸ hrested.through
  obtain ⟨hstays, harrived⟩ := (hends .nil).1 hgone _ htimely (begin_notMem_works works .nil)
    (by rw [← hworks]; exact hthrough)
  rw [← hworks] at hstays harrived
  obtain ⟨hwaited, hreceived⟩ := (hwait .nil).2 fun _ => by decide +kernel
  -- the walk of the first message
  obtain ⟨e, he, hticket⟩ : ∃ e ∈ (s.act step).state.agenda.pending, e.ticket = 1 := by
    decide +kernel
  have hschedules : s.Schedules step e := by
    refine ⟨he, ?_⟩
    rw [hticket]
    decide +kernel
  have hdue : (s.act step).TimelyRun
      [.work (.walk 1), .work (.walk 2), .work (.moveTo ⟨1, 0⟩)] := by
    refine ⟨?_, ?_, fun _ => ⟨Or.inr ⟨1000, by decide +kernel⟩, by decide +kernel⟩, trivial⟩
    · change ∀ e ∈ (s.act step).walkAt? 1, e.work.ready ≤ (s.act step).now
      decide +kernel
    · change ∀ e ∈ ((s.act step).act (.work (.walk 1))).walkAt? 2, e.work.ready ≤ _
      decide +kernel
  obtain ⟨hmoves_on, -⟩ := hwalks step e _ trivial hschedules hdue
  obtain ⟨-, hover⟩ := hwalks step e ([step, step] ++ works.map .work) trivial hschedules
    (timelyRun_append.mpr ⟨hsent.2, hsplit ▸ htimely⟩)
  rw [← hlast] at hover
  refine ⟨⟨e, hschedules, hmoves_on, ?_, hover ?_⟩, ⟨hstays, ?_⟩, ⟨hwaited, ?_⟩, ?_⟩
  · rw [hticket]
    decide +kernel
  · have hnow : (start.run (before ++ [step, step, step])).now = s.now := by decide +kernel
    rw [hnow] at hthrough
    exact hthrough
  · refine harrived ⟨rfl, rfl, hsure, hmoves, ?_⟩ (by simp [Action.Untroubled])
    exact List.forall_mem_append.mpr ⟨hquiet, by simp [step, Action.Untroubled]⟩
  · exact hreceived ⟨rfl, rfl, hsure, hmoves, hquiet⟩
  · decide +kernel

end Simulation

end Outreach
