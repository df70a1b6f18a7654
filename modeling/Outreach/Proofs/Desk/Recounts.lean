import Outreach.Proofs.Delivery.Recounts
import Outreach.Proofs.Desk.Statistics

/-!
# What a recount at a desk tells

A completed campaign can be counted again at any time. As long as its records are as the dispatch
has found them, the recount gives what the dispatch has stored. After that the later stages may show
more messages, and nothing else changes. What is given is stored as well, and giving it twice in a
row makes no difference.
-/

namespace Outreach.Desk

variable {s t : Desk} {id : Uuid} {request : CampaignRequest} {owner : String}
  {campaign c : Campaign} {customers : List Customer} {total ticket : Nat} {deeds : List Deed}

theorem leaves_history (issued : id.IsIssued s.state.issued) (operations : List Operation) :
    ∀ a ∈ s.history operations, a.Leaves id :=
  fun a ha => Action.leaves_of_spares (spares_history issued operations a ha)

/-- A campaign that is opened has shown no failure. -/
theorem opened_carries (h : s.Sound)
    (answered : s.opening request owner = .ok (campaign, customers)) :
    (s.perform (.openCampaign request owner)).simulation.Carries campaign.id
      (customers.map Customer.id).length s.state.agenda.nextTicket [] := by
  obtain ⟨_, _, _, _, hstatus, hstats⟩ := opening_ok answered
  obtain ⟨hbegun, -⟩ := opened_course h answered
  refine { hbegun.toBooked with seen := by rintro x ⟨⟩, stored := ?_ }
  intro b hb
  rw [← state, get?_opened answered] at hb
  cases hb
  constructor
  · intro _
    rw [hstats]
    rfl
  · intro completed
    rw [hstatus] at completed
    cases completed

/-- The owner of a campaign is told what a recount finds, and the campaign shows it from then on. -/
theorem recompute_owned (h : t.Sound) (present : t.state.campaigns.get? id = some c) :
    let stats := c.stats.refreshed (t.state.records.find (.campaign id))
    ∃ u, t.recompute id c.createdBy = .ok (stats, u) ∧
      u = t.perform (.background (.recompute id)) ∧
      u.state.records = t.state.records ∧
      u.state.campaigns.get? id = some { c with stats, updatedAt := t.now } := by
  intro stats
  obtain ⟨book, hbook, hcounted⟩ := Simulation.recompute_calm h.calm present
  refine ⟨t.withState { t.state with campaigns := book }, ?_, ?_, rfl, ?_⟩
  · have howned : t.ownedCampaign id c.createdBy = .ok c := by
      rw [ownedCampaign, present]
      simp
    simp only [recompute, howned, hcounted, bind, pure, Except.bind, Except.pure]
    rfl
  · rw [perform, if_neg (by simp [Action.isReserved]), Simulation.act, Simulation.attempt, ← state,
      hcounted]
    rfl
  · have hget := CampaignBook.get?_setStats hbook id
    rw [if_pos rfl, present] at hget
    exact hget

theorem issued_performAll (s : Desk) (operations : List Operation) :
    s.state.issued ≤ (s.performAll operations).state.issued := by
  induction operations generalizing s with
  | nil => exact Nat.le_refl _
  | cons o rest ih => exact Nat.le_trans (s.issued_perform o) (ih (s.perform o))

/-- What the owner of a completed campaign is told by a recount, while the dispatch has done some
deeds. -/
theorem recompute_carried (h : t.Sound)
    (carries : t.simulation.Carries id total ticket deeds)
    (present : t.state.campaigns.get? id = some c) (completed : c.status = .completed) :
    let stats := CampaignStats.ofCounts total ⟨Deed.sent deeds, Deed.failed deeds⟩
      (.ofRecords (t.state.records.find (.campaign id)))
    c.stats.ProgressesTo stats ∧ ∃ u, t.recompute id c.createdBy = .ok (stats, u) ∧
      u = t.perform (.background (.recompute id)) ∧ u.state.records = t.state.records ∧
      u.state.campaigns.get? id = some { c with stats, updatedAt := t.now } := by
  intro stats
  obtain ⟨hstats, hprogress⟩ :=
    (carries.stored c present).recounted completed carries.countP_sent
  have howned := recompute_owned h present
  have hsame : c.stats.refreshed (t.state.records.find (.campaign id)) = stats := hstats
  simp only [hsame] at howned
  have hgrown : c.stats.ProgressesTo stats := hsame ▸ hprogress
  exact ⟨hgrown, howned⟩

/-- A campaign that its dispatch has completed can be counted again by its owner. As long as its
records are as the dispatch has found them, the recount gives what the dispatch has stored. At any
time the numbers of recipients, of messages sent and failed and the rate between them stay, and the
stages only grow. What is given is stored, the status stays, and the same is true of every recount
after that, which gives the same again if the records are the same. -/
theorem completed_campaign_recounts {settings : Settings} {directory : List Customer}
    {now : Instant} {start : Desk}
    (h : Desk.start settings (.ofList directory) now = .ok start) (operations : List Operation)
    (present : (start.performAll operations).state.campaigns.get? id = some c)
    (completed : c.status = .completed) :
    let t := start.performAll operations
    (∃ before request owner later, operations = before ++ .openCampaign request owner :: later ∧
      let s := start.performAll before
      let opened := s.perform (.openCampaign request owner)
      let deeds := opened.simulation.deeds s.state.agenda.nextTicket (opened.history later)
      ∃ stored, (Deed.exchanges deeds).filterMap Exchange.completed? = [stored] ∧
        stored.ProgressesTo c.stats ∧
        ∃ x ∈ deeds, x.dispatch.campaign = id ∧ x.exchange? = some ⟨.findRecords, none⟩ ∧
          (t.state.records.find (.campaign id) = x.state.records.find (.campaign id) →
            ∃ u, t.recompute id c.createdBy = .ok (stored, u))) ∧
    ∃ stats u, t.recompute id c.createdBy = .ok (stats, u) ∧ c.stats.ProgressesTo stats ∧
      u.state.campaigns.get? id = some { c with stats, updatedAt := t.now } ∧
      ∀ more d, (u.performAll more).state.campaigns.get? id = some d →
        d.status = .completed ∧
        ∃ again v, (u.performAll more).recompute id d.createdBy = .ok (again, v) ∧
          stats.ProgressesTo again ∧
          v.state.campaigns.get? id =
            some { d with stats := again, updatedAt := (u.performAll more).now } ∧
          ((u.performAll more).state.records.find (.campaign id) =
            t.state.records.find (.campaign id) → again = stats) := by
  intro t
  have hsome : (t.state.campaigns.get? id).isSome := by
    rw [present]
    rfl
  rcases exists_opening operations hsome with hfirst |
    ⟨before, request, owner, later, campaign, customers, rfl, hok, rfl⟩
  · rw [campaigns_start h] at hfirst
    cases hfirst
  let s := start.performAll before
  let opened := s.perform (.openCampaign request owner)
  have hs : s.Sound := sound_performAll (sound_start h) before
  have hopened : opened.Sound := sound_perform hs _
  have ht : t = opened.performAll later := performAll_append start before _
  have hissued : campaign.id.IsIssued t.state.issued := by
    rw [ht]
    exact (issued_opened hok).mono (issued_performAll opened later)
  obtain ⟨-, _, _, hholds⟩ := opened_course hs hok
  have hleaves := leaves_history (issued_opened hok) later
  have hcarries := Simulation.carries_run hopened.orderly (opened_carries hs hok) hholds
    (opened.history later) hleaves
  obtain ⟨d, hreached⟩ := Simulation.history_run hopened.orderly hholds .start
    (opened.history later)
  rw [List.nil_append] at hreached
  have hsimulation : opened.simulation.run (opened.history later) = t.simulation := by
    rw [ht, simulation_performAll]
  have htsound : t.Sound := ht ▸ sound_performAll hopened later
  have hpresent : (opened.simulation.run (opened.history later)).state.campaigns.get?
      campaign.id = some c := by
    rw [hsimulation]
    exact present
  obtain ⟨found, shown, hended, hstats, hfound, -⟩ :=
    (hcarries.stored c hpresent).finished completed
  have hgone := hcarries.none_running hopened.orderly hholds hended
  rw [hsimulation] at hcarries hgone
  obtain ⟨hprogress, u, hanswer, hu, hrecords, hstored⟩ :=
    recompute_carried htsound hcarries present completed
  constructor
  · have hend := (hreached.end? rfl).symm.trans hended
    have hcompleted := ((hreached.handled hend).completed _ rfl).1
    refine ⟨before, request, owner, later, rfl, _, hcompleted, ?_, ?_⟩
    · rw [hstats]
      exact CampaignStats.progressesTo_ofCounts _ _ hfound
    · obtain ⟨x, hx, hexchange, hcounted⟩ := hreached.completed_with hended
      refine ⟨x, hx, hreached.same_campaign x hx, hexchange, fun hsame => ⟨u, ?_⟩⟩
      rw [hcounted, ← hsame]
      exact hanswer
  · refine ⟨_, u, hanswer, hprogress, hstored, ?_⟩
    intro more b hb
    have hmore :
        u.performAll more = t.performAll (.background (.recompute campaign.id) :: more) := by
      rw [performAll_cons, hu]
    have hactions := t.simulation_performAll (.background (.recompute campaign.id) :: more)
    rw [← hmore] at hactions
    obtain ⟨hlater, hstatus⟩ := hcarries.run_ended htsound.orderly hgone _
      (leaves_history hissued (.background (.recompute campaign.id) :: more))
    rw [← hactions] at hlater hstatus
    obtain ⟨b', hb', hsame⟩ := hstatus b hb
    obtain rfl : b' = c := Option.some.inj (hb'.symm.trans present)
    have hbcompleted : b.status = .completed := hsame.trans completed
    have hsound : (u.performAll more).Sound := hmore ▸ sound_performAll htsound _
    obtain ⟨-, v, hagain, -, -, hkept⟩ := recompute_carried hsound hlater hb hbcompleted
    refine ⟨hbcompleted, _, v, hagain, ?_, hkept, fun hrecords => by rw [hrecords]⟩
    have hgrown := Simulation.stages_run htsound.orderly
      (t.history (.background (.recompute campaign.id) :: more)) campaign.id
    rw [← hactions] at hgrown
    exact CampaignStats.progressesTo_ofCounts _ _ hgrown

/-- A message is opened after its campaign has been completed. The campaign still shows none, and
the recount finds it. -/
theorem opened_message_is_recounted :
    let customer : Customer :=
      ⟨"cust-00", "Customer 0", none, true, .empty, ⟨none, none, none⟩, ⟨none⟩, []⟩
    let settings : Settings := ⟨"node", .default, Sample.settings 1⟩
    let start : Desk := ⟨.start (.ofList [customer]) .default, .ofState (Sample.delivery 1)⟩
    let step : Operation := .background (.work (.dispatch 0))
    let t := start.performAll
      [.defineSegment ⟨"Active", none, .and, [.make "is_active" "==" (.bool true)]⟩ "ana",
        .openCampaign ⟨"First", some (.fresh 0), some ⟨"Hi", "Sale"⟩⟩ "ana", step, step, step, step,
        .background (.receive ⟨"msg_0_cust-00", .opened, none⟩)]
    Desk.start settings (.ofList [customer]) ⟨0, 0⟩ = .ok start ∧
      ∃ c stats u, t.state.campaigns.get? (.fresh 1) = some c ∧ c.status = .completed ∧
        c.stats.opened = 0 ∧ t.recompute (.fresh 1) c.createdBy = .ok (stats, u) ∧
        stats.opened = 1 ∧ c.stats.ProgressesTo stats := by
  intro customer settings start step t
  have hstart : Desk.start settings (.ofList [customer]) ⟨0, 0⟩ = .ok start := by
    have hdelivery : DeliveryState.start (Sample.settings 1) "node" ⟨0, 0⟩ =
      .ok (Sample.delivery 1) := rfl
    rw [Desk.start, hdelivery]
    rfl
  have hshown : (t.state.campaigns.get? (.fresh 1)).map
      (fun c => (c.status, c.stats.opened, c.createdBy)) = some (.completed, 0, "ana") := by
    decide +kernel
  have hopened : (t.recompute (.fresh 1) "ana").toOption.map (fun answer => answer.1.opened) =
      some 1 := by
    decide +kernel
  obtain ⟨c, present, hfields⟩ := Option.map_eq_some_iff.mp hshown
  obtain ⟨hstatus, hrest⟩ := Prod.mk.inj hfields
  obtain ⟨hnone, howner⟩ := Prod.mk.inj hrest
  obtain ⟨-, stats, u, answered, hprogress, -⟩ :=
    completed_campaign_recounts hstart _ present hstatus
  refine ⟨hstart, c, stats, u, present, hstatus, hnone, answered, ?_, hprogress⟩
  rw [howner] at answered
  rw [answered] at hopened
  exact Option.some.inj hopened

end Outreach.Desk
