import Outreach.Proofs.Delivery.Counters
import Outreach.Proofs.Desk.Errands
import Outreach.Proofs.Desk.Reach

/-!
# What the campaigns of a desk count

Whatever is done at a desk, and whatever the deliveries do in between, the statistics of every
campaign hang together, from the moment it is opened until it is deleted. Once it is completed, they
account for all of its recipients.
-/

namespace Outreach.Desk

variable {s : Desk} {id : Uuid} {request : CampaignRequest} {owner : String}
  {campaign c : Campaign} {customers : List Customer}

theorem campaigns_start {settings : Settings} {directory : Directory} {now : Instant}
    (h : Desk.start settings directory now = .ok s) (id : Uuid) :
    s.state.campaigns.get? id = none := by
  obtain ⟨state, rfl, hstate⟩ := start_ok h
  obtain ⟨_, hcampaigns, _⟩ := DeliveryState.start_ok hstate
  rw [Desk.state, Simulation.ofState, hcampaigns]
  rfl

theorem coherent_start {settings : Settings} {directory : Directory} {now : Instant}
    (h : Desk.start settings directory now = .ok s) : s.simulation.Coherent := by
  obtain ⟨state, rfl, hstate⟩ := start_ok h
  obtain ⟨_, _, hrecords, _⟩ := DeliveryState.start_ok hstate
  exact Simulation.coherent_ofState hrecords

theorem coherent_performAll (h : s.simulation.Coherent) (operations : List Operation) :
    (s.performAll operations).simulation.Coherent := by
  rw [simulation_performAll]
  exact Simulation.coherent_run h (s.history operations)

/-- A campaign that has been opened counts consistently for as long as it is there. -/
theorem opened_tallied (h : s.Sound) (coherent : s.simulation.Coherent)
    (answered : s.opening request owner = .ok (campaign, customers)) (later : List Operation)
    (present : ((s.perform (.openCampaign request owner)).performAll later).state.campaigns.get?
      campaign.id = some c) : ∃ sent, c.Tallied sent := by
  let opened := s.perform (.openCampaign request owner)
  have hsound : opened.Sound := sound_perform h _
  have hcoherent : opened.simulation.Coherent :=
    coherent_performAll coherent [.openCampaign request owner]
  obtain ⟨_, _, _, _, hstatus, hstats⟩ := opening_ok answered
  obtain ⟨hbegun, _, _, hholds⟩ := opened_course h answered
  have htallied : opened.simulation.Tallied campaign.id [] := by
    constructor
    · rintro x ⟨⟩
    · intro b hb
      rw [← state, get?_opened answered] at hb
      cases hb
      refine .of_unfinished ?_ (by rw [hstatus]; decide) (by rw [hstats]; rfl)
      rw [hstats]
      exact CampaignStats.consistent_ofRecipients _
  have hrun := Simulation.tallied_run hsound.orderly hcoherent hbegun hholds htallied
    (opened.history later) (spares_history (issued_opened answered) later)
  rw [← simulation_performAll] at hrun
  exact ⟨_, hrun.stored c present⟩

/-- In every state that a desk comes to, the stages of every campaign are graded, the messages sent
and failed are no more than its recipients and as many once it is completed, and so every rate
relates a count to another that it does not exceed. -/
theorem campaign_counts_consistently {settings : Settings} {directory : List Customer}
    {now : Instant} {start t : Desk}
    (h : Desk.start settings (.ofList directory) now = .ok start) (reached : start.LeadsTo t)
    (present : t.state.campaigns.get? id = some c) :
    c.stats.Consistent ∧ (c.status = .completed →
      c.stats.sent + c.stats.failed = c.stats.totalRecipients) := by
  obtain ⟨operations, rfl⟩ := reached
  have hsound : start.Sound := sound_start h
  have hsome : ((start.performAll operations).state.campaigns.get? id).isSome := by
    rw [present]
    rfl
  rcases exists_opening operations hsome with hfirst |
    ⟨before, request, owner, later, campaign, customers, rfl, hok, rfl⟩
  · rw [campaigns_start h] at hfirst
    cases hfirst
  · have hcoherent := coherent_performAll (coherent_start h) before
    rw [performAll_append] at present
    obtain ⟨sent, tallied⟩ :=
      opened_tallied (sound_performAll hsound before) hcoherent hok later present
    exact ⟨tallied.consistent, fun completed => (tallied.finished completed).2⟩

/-- Of two campaigns for one customer the first counts an opened message, and the second counts a
failure, since its message had the same name. -/
theorem contended_campaigns_count_consistently :
    let customer : Customer :=
      ⟨"cust-00", "Customer 0", none, true, .empty, ⟨none, none, none⟩, ⟨none⟩, []⟩
    let settings : Settings := ⟨"node", .default, Sample.settings 1⟩
    let start : Desk := ⟨.start (.ofList [customer]) .default, .ofState (Sample.delivery 1)⟩
    let opening (name : String) : Operation :=
      .openCampaign ⟨name, some (.fresh 0), some ⟨"Hi", "Sale"⟩⟩ "ana"
    let step (ticket : Nat) : Operation := .background (.work (.dispatch ticket))
    let dispatched := start.performAll
      [.defineSegment ⟨"Active", none, .and, [.make "is_active" "==" (.bool true)]⟩ "ana",
        opening "First", opening "Second", step 0, step 0, step 0, step 0, step 1, step 1, step 1,
        step 1]
    let t := dispatched.runAll
      [.receive ⟨"msg_0_cust-00", .opened, none⟩, .recompute (.fresh 1) "ana"]
    Desk.start settings (.ofList [customer]) ⟨0, 0⟩ = .ok start ∧ start.LeadsTo t ∧
      (∃ c, t.state.campaigns.get? (.fresh 1) = some c ∧ c.status = .completed ∧
        c.stats.opened = 1 ∧ c.stats.Consistent ∧
        c.stats.sent + c.stats.failed = c.stats.totalRecipients) ∧
      ∃ c, t.state.campaigns.get? (.fresh 2) = some c ∧ c.status = .completed ∧
        c.stats.failed = 1 ∧ c.stats.Consistent ∧
        c.stats.sent + c.stats.failed = c.stats.totalRecipients := by
  intro customer settings start opening step dispatched t
  have hstart : Desk.start settings (.ofList [customer]) ⟨0, 0⟩ = .ok start := by
    have hdelivery : DeliveryState.start (Sample.settings 1) "node" ⟨0, 0⟩ =
      .ok (Sample.delivery 1) := rfl
    rw [Desk.start, hdelivery]
    rfl
  have hsound := sound_start hstart
  have hreached : start.LeadsTo t := by
    have hdispatched : start.LeadsTo dispatched := ⟨_, rfl⟩
    exact hdispatched.trans (leadsTo_runAll (hdispatched.sound hsound) _)
  have hfirst : (t.state.campaigns.get? (.fresh 1)).map
      (fun c => (c.status, c.stats.opened)) = some (.completed, 1) := by decide +kernel
  have hsecond : (t.state.campaigns.get? (.fresh 2)).map
      (fun c => (c.status, c.stats.failed)) = some (.completed, 1) := by decide +kernel
  obtain ⟨first, hget, hshown⟩ := Option.map_eq_some_iff.mp hfirst
  obtain ⟨hstatus, hopened⟩ := Prod.mk.inj hshown
  obtain ⟨second, hget', hshown'⟩ := Option.map_eq_some_iff.mp hsecond
  obtain ⟨hstatus', hfailed⟩ := Prod.mk.inj hshown'
  obtain ⟨hconsistent, hall⟩ := campaign_counts_consistently hstart hreached hget
  obtain ⟨hconsistent', hall'⟩ := campaign_counts_consistently hstart hreached hget'
  exact ⟨hstart, hreached, ⟨first, hget, hstatus, hopened, hconsistent, hall hstatus⟩,
    second, hget', hstatus', hfailed, hconsistent', hall' hstatus'⟩

end Outreach.Desk
