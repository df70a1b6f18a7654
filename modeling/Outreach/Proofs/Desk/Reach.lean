import Outreach.Proofs.Desk.Order

/-!
# Whom the campaigns of a desk reach

A campaign goes to all members that its segment has when it is opened, and to each of them once. But
a customer to whom another campaign has written in the same microsecond is passed over. So a
completed campaign has a record for every member of its segment exactly if no other campaign has
written to one of them in the microsecond in which it did so itself.
-/

namespace Outreach.Desk

variable {s : Desk} {id : Uuid} {request : CampaignRequest} {owner : String}
  {campaign c : Campaign} {customers : List Customer}

/-- A request opens a campaign for all members that a segment of the owner has at the time. -/
structure Opens (s : Desk) (request : CampaignRequest) (owner : String) (id : Uuid)
    (segment : Segment) (members : List Customer) : Prop where
  answered : ∃ campaign t, s.openCampaign request owner = .ok (campaign, t) ∧ campaign.id = id ∧
    s.catalog.owned campaign.segmentId owner = .ok segment
  members : members = s.catalog.directory.select (segment.rules.toPredicate s.now)

/-! ## What comes after the opening -/

theorem issued_perform (s : Desk) (o : Operation) :
    s.state.issued ≤ (s.perform o).state.issued := by
  have hsimulation := s.simulation_perform o
  have haffected := s.affected o
  generalize s.effects o = actions at hsimulation haffected
  rw [state, state, hsimulation]
  cases haffected with
  | alone => exact Nat.le_refl _
  | issued => exact Nat.le_succ _
  | opened => exact Nat.le_succ _
  | background a _ free =>
    exact (Simulation.standing_act s.simulation (Action.spares_of_not_isReserved free .nil)).issued

/-- No operation opens a campaign again or begins another dispatch of it. -/
theorem spares_effects (issued : id.IsIssued s.state.issued) (o : Operation) :
    ∀ a ∈ s.effects o, a.Spares id := by
  have haffected := s.affected o
  generalize s.effects o = actions at haffected
  cases haffected with
  | alone =>
    rintro a ⟨⟩
  | issued =>
    intro a ha
    rw [List.mem_singleton.mp ha]
    trivial
  | opened _ _ _ campaign customers answered =>
    obtain ⟨_, _, _, hid, _⟩ := opening_ok answered
    have hother : campaign.id ≠ id := by
      rintro rfl
      rw [hid] at issued
      exact Uuid.not_isIssued_fresh _ issued
    simp [Action.Spares, hother]
  | background a _ free =>
    intro b hb
    rw [List.mem_singleton.mp hb]
    exact Action.spares_of_not_isReserved free id

theorem spares_history (issued : id.IsIssued s.state.issued) (operations : List Operation) :
    ∀ a ∈ s.history operations, a.Spares id := by
  induction operations generalizing s with
  | nil =>
    rintro a ⟨⟩
  | cons o rest ih =>
    intro a ha
    rcases List.mem_append.mp ha with hfirst | hlater
    · exact spares_effects issued o a hfirst
    · exact ih (issued.mono (s.issued_perform o)) a hlater

theorem simulation_opened (answered : s.opening request owner = .ok (campaign, customers)) :
    (s.perform (.openCampaign request owner)).simulation =
      (s.simulation.run [.takeId, .enter campaign]).act
        (.begin campaign.id (customers.map Customer.id)) := by
  have hperform := s.simulation_perform (.openCampaign request owner)
  simp only [effects, answered] at hperform
  exact hperform

theorem get?_opened (answered : s.opening request owner = .ok (campaign, customers)) :
    (s.perform (.openCampaign request owner)).state.campaigns.get? campaign.id = some campaign := by
  rw [state, simulation_opened answered]
  exact CampaignBook.get?_insert_self s.state.campaigns campaign

theorem issued_opened (answered : s.opening request owner = .ok (campaign, customers)) :
    campaign.id.IsIssued (s.perform (.openCampaign request owner)).state.issued := by
  obtain ⟨_, _, _, hid, _⟩ := opening_ok answered
  rw [state, simulation_opened answered, hid]
  exact ⟨s.state.issued, Nat.lt_succ_self _, rfl⟩

/-- A campaign that is opened is entered first, and then its dispatch begins. -/
theorem opened_course (h : s.Sound)
    (answered : s.opening request owner = .ok (campaign, customers)) :
    let opened := s.perform (.openCampaign request owner)
    let ticket := s.state.agenda.nextTicket
    let recipients := customers.map Customer.id
    opened.simulation.Course campaign.id ticket recipients [] ∧ ∃ now turn,
      opened.simulation.Holds ticket (.start campaign.id recipients now turn) := by
  intro opened ticket recipients
  obtain ⟨_, _, _, hid, hstatus, hstats⟩ := opening_ok answered
  let entered := s.simulation.run [.takeId, .enter campaign]
  have hopened : opened.simulation = entered.act (.begin campaign.id recipients) :=
    simulation_opened answered
  have horderly : entered.Orderly := Simulation.orderly_run h.orderly _
  have hnew : campaign.id = .fresh s.simulation.state.issued := hid
  obtain ⟨hunlogged, halone⟩ := h.numbered.unmentioned
  rw [← hnew] at hunlogged halone
  have hdrafted : ∀ b, entered.state.campaigns.get? campaign.id = some b →
      b.stats.totalRecipients = recipients.length ∧ b.status = .draft := by
    intro b hb
    have hget : entered.state.campaigns.get? campaign.id = some campaign :=
      CampaignBook.get?_insert_self s.state.campaigns campaign
    rw [hget] at hb
    cases hb
    constructor
    · rw [hstats, List.length_map]
      rfl
    · exact hstatus
  have hbegun := Simulation.course_begin horderly halone hunlogged h.calm hdrafted
  have hholds := Simulation.holds_begin horderly campaign.id recipients
  rw [← hopened] at hbegun hholds
  exact ⟨hbegun, _, _, hholds⟩

/-- A campaign that has been opened reaches those members of its segment that it can. -/
theorem opened_covered (h : s.Sound)
    (answered : s.opening request owner = .ok (campaign, customers)) (later : List Operation)
    (present : ((s.perform (.openCampaign request owner)).performAll later).state.campaigns.get?
      campaign.id = some c)
    (completed : c.status = .completed) :
    let opened := s.perform (.openCampaign request owner)
    (customers.map Customer.id).Nodup ∧ Covered campaign.id (customers.map Customer.id)
      (Deed.asked (opened.simulation.deeds s.state.agenda.nextTicket (opened.history later))) c
      (opened.performAll later).state.records := by
  intro opened
  have hsound : opened.Sound := sound_perform h _
  obtain ⟨_, _, hrecipients, _⟩ := opening_ok answered
  have hdistinct : (customers.map Customer.id).Nodup := by
    rw [recipients_ok h.calm hrecipients]
    exact Sorted.nodup_keys (h.directory.sublist List.filter_sublist)
  obtain ⟨hbegun, _, _, hholds⟩ := opened_course h answered
  have hcourse := Simulation.course_run hsound.orderly hbegun hholds (opened.history later)
    (spares_history (issued_opened answered) later)
  obtain ⟨d, hreached⟩ :=
    Simulation.history_run hsound.orderly hholds .start (opened.history later)
  have hnamed := (sound_performAll hsound later).named
  rw [← simulation_performAll] at hcourse
  exact ⟨hdistinct, hcourse.covered hnamed hreached hdistinct present completed⟩

/-! ## Where campaigns come from -/

/-- Only its opening brings a campaign into the book. -/
theorem present_perform (o : Operation) (present : ((s.perform o).state.campaigns.get? id).isSome) :
    (s.state.campaigns.get? id).isSome ∨ ∃ request owner campaign customers,
      o = .openCampaign request owner ∧ s.opening request owner = .ok (campaign, customers) ∧
        campaign.id = id := by
  have hsimulation := s.simulation_perform o
  have haffected := s.affected o
  generalize s.effects o = actions at hsimulation haffected
  rw [state, hsimulation] at present
  cases haffected with
  | alone => exact Or.inl present
  | issued => exact Or.inl present
  | opened request owner step campaign customers answered =>
    by_cases hid : campaign.id = id
    · exact Or.inr ⟨request, owner, campaign, customers, step, answered, hid⟩
    · left
      have hget : (s.simulation.run [.takeId, .enter campaign,
          .begin campaign.id (customers.map Customer.id)]).state.campaigns.get? id =
            s.state.campaigns.get? id := CampaignBook.get?_insert_of_ne hid s.state.campaigns
      rwa [hget] at present
  | background a _ free =>
    left
    exact (Simulation.standing_act s.simulation
      (Action.spares_of_not_isReserved free id)).present present

theorem exists_opening (operations : List Operation)
    (present : ((s.performAll operations).state.campaigns.get? id).isSome) :
    (s.state.campaigns.get? id).isSome ∨ ∃ before request owner later campaign customers,
      operations = before ++ .openCampaign request owner :: later ∧
        (s.performAll before).opening request owner = .ok (campaign, customers) ∧
          campaign.id = id := by
  induction operations generalizing s with
  | nil => exact Or.inl present
  | cons o rest ih =>
    rcases ih present with hafter |
      ⟨before, request, owner, later, campaign, customers, he, hok, hid⟩
    · rcases present_perform o hafter with hbefore |
        ⟨request, owner, campaign, customers, rfl, hok, hid⟩
      · exact Or.inl hbefore
      · exact Or.inr ⟨[], request, owner, rest, campaign, customers, rfl, hok, hid⟩
    · right
      refine ⟨o :: before, request, owner, later, campaign, customers, ?_, hok, hid⟩
      rw [he, List.cons_append]

/-- Every completed campaign has gone once to each member of its segment for whom no other campaign
has taken the name of the message, and to nobody else. -/
theorem completed_campaign_reaches {settings : Settings} {directory : List Customer}
    {now : Instant} {start : Desk}
    (h : Desk.start settings (.ofList directory) now = .ok start) (operations : List Operation)
    (present : (start.performAll operations).state.campaigns.get? id = some c)
    (completed : c.status = .completed) :
    ∃ before request owner later, operations = before ++ .openCampaign request owner :: later ∧
      let s := start.performAll before
      let opened := s.perform (.openCampaign request owner)
      ∃ segment members, s.Opens request owner id segment members ∧
        (members.map Customer.id).Nodup ∧ Covered id (members.map Customer.id)
          (Deed.asked (opened.simulation.deeds s.state.agenda.nextTicket (opened.history later)))
          c (start.performAll operations).state.records := by
  have hsound := sound_start h
  have hsome : ((start.performAll operations).state.campaigns.get? id).isSome := by
    rw [present]
    rfl
  rcases exists_opening operations hsome with hfirst |
    ⟨before, request, owner, later, campaign, members, rfl, hok, rfl⟩
  · obtain ⟨state, rfl, hstate⟩ := start_ok h
    obtain ⟨_, hcampaigns, _⟩ := DeliveryState.start_ok hstate
    have hnone : state.campaigns.get? id = none := by
      rw [hcampaigns]
      rfl
    rw [Desk.state, Simulation.ofState, hnone] at hfirst
    cases hfirst
  · have hs := sound_performAll hsound before
    rw [performAll_append] at present
    obtain ⟨segment, howned, hrecipients, _⟩ := opening_ok hok
    have hopen : ∃ t, (start.performAll before).openCampaign request owner = .ok (campaign, t) := by
      rw [openCampaign_eq, hok]
      exact ⟨_, rfl⟩
    obtain ⟨t, ht⟩ := hopen
    refine ⟨before, request, owner, later, rfl, segment, members, ?_, ?_⟩
    · exact ⟨⟨campaign, t, ht, rfl, howned⟩, recipients_ok hs.calm hrecipients⟩
    · rw [performAll_append]
      exact opened_covered hs hok later present completed

/-- Of two campaigns that are opened at one instant for one customer, the second is completed
without having reached anyone. -/
theorem contended_campaign_reaches_nobody :
    let customer : Customer :=
      ⟨"cust-00", "Customer 0", none, true, .empty, ⟨none, none, none⟩, ⟨none⟩, []⟩
    let settings : Settings := ⟨"node", .default, Sample.settings 1⟩
    let start : Desk := ⟨.start (.ofList [customer]) .default, .ofState (Sample.delivery 1)⟩
    let opening (name : String) : Operation :=
      .openCampaign ⟨name, some (.fresh 0), some ⟨"Hi", "Sale"⟩⟩ "ana"
    let step (ticket : Nat) : Operation := .background (.work (.dispatch ticket))
    let operations : List Operation :=
      [.defineSegment ⟨"Active", none, .and, [.make "is_active" "==" (.bool true)]⟩ "ana",
        opening "First", opening "Second", step 0, step 0, step 0, step 0, step 1, step 1, step 1,
        step 1]
    let t := start.performAll operations
    Desk.start settings (.ofList [customer]) ⟨0, 0⟩ = .ok start ∧
      (∃ c, t.state.campaigns.get? (.fresh 2) = some c ∧ c.status = .completed ∧
        c.stats.totalRecipients = 1) ∧
      t.state.records.find (.campaign (.fresh 2)) = [] ∧
      ∃ r : MessageRecord, r.DraftOf (.fresh 2) ∧ r.customerId = "cust-00" ∧
        t.state.records.Contends r := by
  intro customer settings start opening step operations t
  have hstart : Desk.start settings (.ofList [customer]) ⟨0, 0⟩ = .ok start := by
    have hdelivery : DeliveryState.start (Sample.settings 1) "node" ⟨0, 0⟩ =
      .ok (Sample.delivery 1) := rfl
    rw [Desk.start, hdelivery]
    rfl
  have hshown : (t.state.campaigns.get? (.fresh 2)).map
      (fun c => (c.status, c.stats.totalRecipients)) = some (.completed, 1) := by decide +kernel
  obtain ⟨c, hc, hpair⟩ := Option.map_eq_some_iff.mp hshown
  obtain ⟨hcompleted, htotal⟩ := Prod.mk.inj hpair
  have hnone : t.state.records.find (.campaign (.fresh 2)) = [] := by decide +kernel
  have hnames : ∀ q ∈ t.state.records.records, q.messageId = messageName ⟨0, 0⟩ "cust-00" := by
    decide +kernel
  obtain ⟨_, _, _, _, _, _, _, _, _, covered⟩ :=
    completed_campaign_reaches hstart operations hc hcompleted
  have hcomplete := covered.complete
  rw [hnone, htotal, List.length_nil] at hcomplete
  obtain ⟨r, hr, hcontends⟩ : ∃ r ∈ _, t.state.records.Contends r := by
    by_contra hall
    refine absurd (hcomplete.mpr ?_) (by decide)
    intro r hr hcontends
    exact hall ⟨r, hr, hcontends⟩
  have hdraft := covered.drafts r hr
  refine ⟨hstart, ⟨c, hc, hcompleted, htotal⟩, hnone, r, hdraft, ?_, hcontends⟩
  obtain ⟨q, hq, -, hname⟩ := hcontends
  obtain ⟨begun, -, hdrafted⟩ := hdraft.name
  rw [hnames q hq, hdrafted, messageName_inj] at hname
  exact hname.2.symm

end Outreach.Desk
