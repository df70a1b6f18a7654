import Mathlib.Data.List.Destutter
import Outreach.Proofs.Delivery.Fulfilment
import Outreach.Proofs.Delivery.Timing
import Outreach.Proofs.Desk.Keeping
import Outreach.Proofs.Desk.Statistics

/-!
# The life of a campaign

The book of campaigns checks no change: any call sets any status and replaces all statistics. But
the only calls that set a status are those of the one dispatch that a campaign has, and that
dispatch makes each of them once and in one order. A recount keeps the status and everything in the
statistics that the campaign was opened with. So a campaign that is there goes from its draft
through its processing to its completion and never back, on the terms on which it was opened, and
is never marked as failed.
-/

namespace Outreach

/-- The statuses that a campaign may show from now on, in their order. -/
def CampaignStatus.onward : CampaignStatus → List CampaignStatus
  | draft => [draft, processing, completed]
  | processing => [processing, completed]
  | completed => [completed]
  | failed => [failed]

/-- What becomes of a campaign from one moment to the next. -/
structure Campaign.GoesOn (b c : Campaign) : Prop where
  terms : c.terms = b.terms
  total : c.stats.totalRecipients = b.stats.totalRecipients
  status : c.status = b.status ∨ b.status = .draft ∧ c.status = .processing ∨
    b.status = .processing ∧ c.status = .completed
  updatedAt : b.updatedAt ≤ c.updatedAt

theorem Campaign.GoesOn.refl (c : Campaign) : c.GoesOn c :=
  ⟨rfl, rfl, Or.inl rfl, Instant.le_refl _⟩

/-- What a campaign keeps as long as it goes on, and that its last update only becomes later. -/
theorem Campaign.GoesOn.of_chain {b c : Campaign} {later : List Campaign}
    (chain : (b :: later).IsChain GoesOn) (hc : c ∈ b :: later) :
    c.terms = b.terms ∧ c.stats.totalRecipients = b.stats.totalRecipients ∧
      b.updatedAt ≤ c.updatedAt := by
  induction later generalizing b with
  | nil =>
    rw [List.mem_singleton.mp hc]
    exact ⟨rfl, rfl, Instant.le_refl _⟩
  | cons a rest ih =>
    obtain ⟨hfirst, hrest⟩ := List.isChain_cons_cons.mp chain
    rcases List.mem_cons.mp hc with rfl | hc
    · exact ⟨rfl, rfl, Instant.le_refl _⟩
    · obtain ⟨hterms, htotal, hlater⟩ := ih hrest hc
      exact ⟨hterms.trans hfirst.terms, htotal.trans hfirst.total,
        Instant.le_trans hfirst.updatedAt hlater⟩

theorem Campaign.GoesOn.updatedAt_of_chain {shown : List Campaign} (chain : shown.IsChain GoesOn) :
    (shown.map Campaign.updatedAt).Pairwise (· ≤ ·) := by
  induction shown with
  | nil => exact .nil
  | cons b rest ih =>
    refine List.pairwise_cons.mpr ⟨?_, ih (List.isChain_cons.mp chain).2⟩
    intro time htime
    obtain ⟨c, hc, rfl⟩ := List.mem_map.mp htime
    exact (of_chain chain (List.mem_cons_of_mem b hc)).2.2

/-- A campaign that goes on shows one status after the other and none of them again. -/
theorem Campaign.GoesOn.statuses_of_chain {b : Campaign} {later : List Campaign}
    (chain : (b :: later).IsChain GoesOn) :
    ((b :: later).map Campaign.status).destutter (· ≠ ·) <+: b.status.onward := by
  rw [List.map_cons, List.destutter_cons']
  induction later generalizing b with
  | nil => cases b.status <;> simp [CampaignStatus.onward]
  | cons c rest ih =>
    obtain ⟨hfirst, hrest⟩ := List.isChain_cons_cons.mp chain
    have hlater := ih hrest
    rw [List.map_cons]
    rcases hfirst.status with hsame | ⟨hb, hc⟩ | ⟨hb, hc⟩
    · rw [List.destutter'_cons_neg _ (by simp [hsame]), ← hsame]
      exact hlater
    · rw [hc] at hlater
      rw [List.destutter'_cons_pos _ (by simp [hb, hc]), hb, hc]
      exact (List.prefix_cons_inj _).mpr hlater
    · rw [hc] at hlater
      rw [List.destutter'_cons_pos _ (by simp [hb, hc]), hb, hc]
      exact (List.prefix_cons_inj _).mpr hlater

/-- The campaign is as it was, or its records have been counted again. -/
def Campaign.Stays (b c : Campaign) (now : Instant) : Prop :=
  c = b ∨ ∃ records, c = { b with stats := b.stats.refreshed records, updatedAt := now }

theorem Campaign.Stays.goesOn {b c : Campaign} {now : Instant} (h : b.Stays c now)
    (dated : b.updatedAt ≤ now) :
    b.GoesOn c ∧ c.status = b.status ∧ c.stats.failureReason = b.stats.failureReason ∧
      c.updatedAt ≤ now := by
  rcases h with rfl | ⟨records, rfl⟩
  · exact ⟨.refl c, rfl, rfl, dated⟩
  · exact ⟨⟨rfl, rfl, Or.inl rfl, dated⟩, rfl, rfl, Instant.le_refl _⟩

/-- The dispatch is where the dispatch of a campaign in that state can be. -/
def Dispatch.Suits (d : Dispatch) (c : Campaign) : Prop :=
  d.total = c.stats.totalRecipients ∧
    match d.phase with
    | .starting _ => c.status = .draft
    | .creating _ _ _ _ _ | .counting _ => c.status = .processing
    | .completing stats => c.status = .processing ∧ stats.totalRecipients = d.total ∧
      stats.failureReason = none
    | .aborting _ => False
    | .ended _ => True

namespace Dispatch

variable {d d' : Dispatch} {b c : Campaign}

theorem Suits.congr (h : d.Suits b) (status : c.status = b.status)
    (total : c.stats.totalRecipients = b.stats.totalRecipients) : d.Suits c := by
  rw [Suits, status, total]
  exact h

theorem Suits.rearrange (h : d.Suits c) (untried : List MessageRecord)
    (tried : List (Option MessageRecord)) : (d.rearrange untried tried).Suits c := by
  rcases d.rearrange_cases untried tried with he | ⟨_, _, _, _, _, _, _, hp, _, _, he⟩
  · rw [he]
    exact h
  · rw [he]
    rw [Suits, hp] at h
    exact h

end Dispatch

namespace DeliveryState

variable {s t : DeliveryState} {d d' : Dispatch} {b c : Campaign}

theorem NextBatch.suits {tally : Tally} {rest : List String} (h : NextBatch s d tally rest d' t)
    (total : d.total = c.stats.totalRecipients) (processing : c.status = .processing) :
    d'.Suits c := by
  cases h with
  | none_left _ dispatch _ =>
    rw [dispatch]
    exact ⟨total, processing⟩
  | cancelled _ dispatch _ =>
    rw [dispatch]
    exact ⟨total, trivial⟩
  | drafts _ _ _ _ _ _ _ _ dispatch _ =>
    rw [dispatch]
    exact ⟨total, processing⟩

/-- Where no call is out of order, the dispatch of a campaign that is there takes the campaign to
its next status or leaves it alone. -/
theorem DispatchStep.goesOn (h : DispatchStep s d d' t) (calm : s.outages = .none)
    (before : s.campaigns.get? d.campaign = some b) (suits : d.Suits b)
    (faultless : b.stats.failureReason = none) (dated : b.updatedAt ≤ s.now)
    (after : t.campaigns.get? d.campaign = some c) :
    b.GoesOn c ∧ d'.Suits c ∧ c.stats.failureReason = none ∧ c.updatedAt ≤ s.now := by
  have unchanged : t.campaigns = s.campaigns → d'.Suits b →
      b.GoesOn c ∧ d'.Suits c ∧ c.stats.failureReason = none ∧ c.updatedAt ≤ s.now := by
    intro hsame hsuits
    rw [hsame, before] at after
    cases after
    exact ⟨.refl b, hsuits, faultless, dated⟩
  obtain ⟨htotal, hphase⟩ := suits
  cases h with
  | begun recipients u phase answered next =>
    obtain ⟨book, hbook, rfl⟩ := startProcessing_ok answered
    rw [phase] at hphase
    rw [next.kept.campaigns] at after
    have hget := CampaignBook.get?_startProcessing hbook d.campaign
    rw [if_pos rfl, before] at hget
    obtain rfl := Option.some.inj (after.symm.trans hget)
    exact ⟨⟨rfl, htotal, Or.inr (Or.inl ⟨hphase, rfl⟩), dated⟩, next.suits rfl rfl, faultless,
      Instant.le_refl _⟩
  | tried next more tried rest tally attempt u phase attempted later =>
    obtain ⟨book, rfl, _⟩ := attempted.book
    rw [phase] at hphase
    refine unchanged later.kept.campaigns ?_
    cases later with
    | same_batch _ _ _ dispatch _ =>
      rw [dispatch]
      exact ⟨htotal, hphase⟩
    | settled _ following => exact following.suits htotal hphase
  | counted tally phase _ dispatch state =>
    rw [phase] at hphase
    refine unchanged (by rw [state]) ?_
    rw [dispatch]
    exact ⟨htotal, hphase, rfl, rfl⟩
  | completed stats u phase answered dispatch state =>
    obtain ⟨book, hbook, rfl⟩ := completeCampaign_ok answered
    rw [phase] at hphase
    obtain ⟨hprocessing, hrecipients, hreason⟩ := hphase
    have hget := CampaignBook.get?_complete hbook d.campaign
    rw [if_pos rfl, before] at hget
    rw [state] at after
    obtain rfl := Option.some.inj (after.symm.trans hget)
    rw [dispatch]
    exact ⟨⟨rfl, hrecipients.trans htotal, Or.inr (Or.inr ⟨hprocessing, rfl⟩), dated⟩,
      ⟨hrecipients.symm, trivial⟩, hreason, Instant.le_refl _⟩
  | stopped cause failed _ _ =>
    have hpresent : (s.campaigns.get? d.campaign).isSome := by
      rw [before]
      rfl
    exact absurd failed (DispatchStep.not_stopped calm hpresent cause)
  | failed cause phase _ _ =>
    rw [phase] at hphase
    exact False.elim hphase
  | ended how phase dispatch state =>
    refine unchanged (by rw [state]) ?_
    rw [dispatch]
    exact ⟨htotal, hphase⟩

end DeliveryState

/-! ## Campaigns under way -/

namespace Simulation

variable {s t : Simulation} {id : Uuid} {a : Action} {b c : Campaign}

/-- A campaign has one dispatch at most, which is where it can be, and shows no failure. -/
structure Paced (s : Simulation) (id : Uuid) : Prop where
  alone : ∀ q ∈ s.running, ∀ r ∈ s.running, q.dispatch.campaign = id → r.dispatch.campaign = id →
    q.ticket = r.ticket
  phase : ∀ c, s.state.campaigns.get? id = some c → ∀ r ∈ s.running, r.dispatch.campaign = id →
    r.dispatch.Suits c
  faultless : ∀ c, s.state.campaigns.get? id = some c → c.stats.failureReason = none
  dated : ∀ c, s.state.campaigns.get? id = some c → c.updatedAt ≤ s.now

/-- Whatever is done, a campaign that is there afterwards was there before, and only a step of its
own dispatch does more to it than a recount. -/
theorem stays_act (spares : a.Spares id) (after : (s.act a).state.campaigns.get? id = some c)
    (other : ∀ r, s.dispatchAt? r.ticket = some r → r.dispatch.campaign = id →
      a ≠ .work (.dispatch r.ticket)) :
    ∃ b, s.state.campaigns.get? id = some b ∧ b.Stays c s.now := by
  have unchanged : ∀ {t : Simulation}, s.act a = t →
      t.state.campaigns.get? id = s.state.campaigns.get? id →
        ∃ b, s.state.campaigns.get? id = some b ∧ b.Stays c s.now := by
    intro t state hsame
    rw [state, hsame] at after
    exact ⟨c, after, Or.inl rfl⟩
  cases s.acted a with
  | walked e _ _ step state =>
    exact unchanged state (congrArg (CampaignBook.get? · id) step.standing.2)
  | stepped r present by_action step state =>
    exact unchanged state (step.get?_campaigns fun he => other r present he.symm by_action)
  | delivered receipt record outcome u answered _ state =>
    obtain ⟨_, advanced, _⟩ := DeliveryState.deliver_ok answered
    exact unchanged state (congrArg (CampaignBook.get? · id) advanced.campaigns)
  | recounted b book recounted present answered _ state =>
    have hget := CampaignBook.get?_setStats answered id
    by_cases hid : id = recounted
    · subst hid
      rw [if_pos rfl, present] at hget
      rw [state] at after
      exact ⟨b, present, Or.inr ⟨_, Option.some.inj (after.symm.trans hget)⟩⟩
    · rw [if_neg hid] at hget
      exact unchanged state hget
  | disturbed outages by_action _ =>
    rw [by_action] at spares
    exact False.elim spares
  | entered c by_action state =>
    rw [by_action] at spares
    exact unchanged state (CampaignBook.get?_insert_of_ne spares _)
  | deleted removed _ state =>
    have hget := s.state.campaigns.get?_delete removed id
    by_cases hid : id = removed
    · rw [if_pos hid] at hget
      rw [state] at after
      cases hget.symm.trans after
    · rw [if_neg hid] at hget
      exact unchanged state hget
  | idle _ state | rearranged _ _ _ _ _ state | moved _ _ _ state | begun _ _ _ state
  | cancelled _ _ state | aborted _ _ state | unregistered _ _ state | dropped _ _ state
  | issued _ state => exact unchanged state rfl

/-- What is there of a campaign afterwards has come from what was there before. -/
def Follows (s t : Simulation) (id : Uuid) : Prop :=
  ∀ c, t.state.campaigns.get? id = some c → ∃ b, s.state.campaigns.get? id = some b ∧ b.GoesOn c ∧
    c.stats.failureReason = none ∧ c.updatedAt ≤ s.now ∧
    ∀ q ∈ t.running, q.dispatch.campaign = id → q.dispatch.Suits c

theorem Paced.follows_own (h : s.Paced id) (calm : s.state.outages = .none) {r : RunningDispatch}
    (present : s.dispatchAt? r.ticket = some r) (own : r.dispatch.campaign = id) :
    s.Follows (s.act (.work (.dispatch r.ticket))) id := by
  intro c after
  have hmem := (dispatchAt?_eq_some present).1
  have step := s.state.stepDispatch_spec r.dispatch
  simp only [act, work, present, step_dispatch] at after ⊢
  obtain ⟨b, before⟩ := Option.isSome_iff_exists.mp
    (step.present (own ▸ Option.isSome_iff_exists.mpr ⟨c, after⟩))
  rw [own] at before
  obtain ⟨goesOn, suits, hreason, hdated⟩ := step.goesOn calm (own ▸ before)
    (h.phase b before r hmem own) (h.faultless b before) (h.dated b before) (own ▸ after)
  refine ⟨b, before, goesOn, hreason, hdated, ?_⟩
  intro q hq hcampaign
  rcases mem_replace hq with rfl | ⟨hold, hother⟩
  · exact suits
  · exact absurd (h.alone q hold r hmem hcampaign own) hother

theorem Paced.follows_other (h : s.Paced id) (spares : a.Spares id)
    (other : ∀ r, s.dispatchAt? r.ticket = some r → r.dispatch.campaign = id →
      a ≠ .work (.dispatch r.ticket)) :
    s.Follows (s.act a) id := by
  intro c after
  obtain ⟨b, before, stays⟩ := stays_act spares after other
  obtain ⟨goesOn, hstatus, hreason, hdated⟩ := stays.goesOn (h.dated b before)
  refine ⟨b, before, goesOn, hreason.trans (h.faultless b before), hdated, ?_⟩
  intro q hq hcampaign
  have kept : ∀ p ∈ s.running, p.dispatch.campaign = id → p.dispatch.Suits c := by
    intro p hp hown
    exact (h.phase b before p hp hown).congr hstatus goesOn.total
  cases traced_act hq with
  | begun campaign recipients by_action _ dispatch =>
    rw [dispatch] at hcampaign
    rw [by_action] at spares
    exact absurd hcampaign spares
  | same p present _ _ dispatch =>
    rw [dispatch] at hcampaign ⊢
    exact kept p present hcampaign
  | rearranged p present _ _ untried tried dispatch =>
    rw [dispatch, Dispatch.campaign_rearrange] at hcampaign
    rw [dispatch]
    exact (kept p present hcampaign).rearrange untried tried
  | stepped p present _ _ by_action step =>
    exact absurd by_action (other p present (step.campaign.symm.trans hcampaign))

/-- An action leaves a campaign as it is or takes it on, and the campaign keeps its pace. -/
theorem paced_act (h : s.Paced id) (calm : s.state.outages = .none) (spares : a.Spares id) :
    (s.act a).Paced id ∧ s.Follows (s.act a) id := by
  have hfollows : s.Follows (s.act a) id := by
    by_cases hown : ∃ r, s.dispatchAt? r.ticket = some r ∧ r.dispatch.campaign = id ∧
        a = .work (.dispatch r.ticket)
    · obtain ⟨r, present, own, rfl⟩ := hown
      exact h.follows_own calm present own
    · exact h.follows_other spares fun r present own he => hown ⟨r, present, own, he⟩
  refine ⟨⟨?_, ?_, ?_, ?_⟩, hfollows⟩
  · have before : ∀ q ∈ (s.act a).running, q.dispatch.campaign = id →
        ∃ p ∈ s.running, p.ticket = q.ticket ∧ p.dispatch.campaign = id := by
      intro q hq hcampaign
      rcases mem_running_act hq with ⟨p, hp, hticket, hsame⟩ | ⟨names, rfl, -⟩
      · exact ⟨p, hp, hticket, hsame.trans hcampaign⟩
      · exact absurd hcampaign spares
    intro q hq r hr hqid hrid
    obtain ⟨p, hp, hpticket, hpid⟩ := before q hq hqid
    obtain ⟨u, hu, huticket, huid⟩ := before r hr hrid
    rw [← hpticket, ← huticket]
    exact h.alone p hp u hu hpid huid
  · intro c hc q hq hcampaign
    obtain ⟨_, _, _, _, _, suits⟩ := hfollows c hc
    exact suits q hq hcampaign
  · intro c hc
    obtain ⟨_, _, _, hreason, _⟩ := hfollows c hc
    exact hreason
  · intro c hc
    obtain ⟨_, _, _, _, hdated, _⟩ := hfollows c hc
    exact Instant.le_trans hdated (s.now_le_act a)

theorem paced_run (h : s.Paced id) (calm : s.state.outages = .none) {actions : List Action}
    (spares : ∀ a ∈ actions, a.Spares id) : (s.run actions).Paced id := by
  induction actions generalizing s with
  | nil => exact h
  | cons a rest ih =>
    have hfirst := spares a List.mem_cons_self
    refine ih (paced_act h calm hfirst).1 ?_ fun b hb => spares b (List.mem_cons_of_mem a hb)
    exact (standing_act s hfirst).outages.trans calm

end Simulation

/-! ## What a desk shows of a campaign -/

namespace Desk

variable {s : Desk} {id : Uuid} {request : CampaignRequest} {owner : String}
  {campaign b c : Campaign} {customers : List Customer}

/-- The campaign at first and after each of some operations, as long as it is there. -/
def shown (id : Uuid) : Desk → List Operation → List Campaign
  | s, [] => (s.state.campaigns.get? id).toList
  | s, o :: rest => (s.state.campaigns.get? id).toList ++ shown id (s.perform o) rest

/-- A campaign that is opened was updated last at that time. -/
theorem opening_updatedAt (h : s.opening request owner = .ok (campaign, customers)) :
    campaign.updatedAt = s.now := by
  simp only [opening, Answer.bind_eq_ok] at h
  obtain ⟨_, _, _, _, _, _, _, _, h⟩ := h
  obtain ⟨rfl, -⟩ := Prod.mk.inj (Answer.pure_eq_ok.mp h)
  rfl

/-- A campaign that is opened is a draft, and its dispatch is about to begin. -/
theorem opened_paced (h : s.Sound)
    (answered : s.opening request owner = .ok (campaign, customers)) :
    (s.perform (.openCampaign request owner)).simulation.Paced campaign.id := by
  obtain ⟨_, _, _, hnew, hstatus, hstats⟩ := opening_ok answered
  obtain ⟨-, hnone⟩ := h.numbered.unmentioned
  have hnew : campaign.id = .fresh s.simulation.state.issued := hnew
  rw [← hnew] at hnone
  have hpresent := get?_opened answered
  have hrunning : ∀ q ∈ (s.perform (.openCampaign request owner)).simulation.running,
      q.dispatch.campaign = campaign.id → q.ticket = s.simulation.state.agenda.nextTicket ∧
        q.dispatch = .start campaign.id (customers.map Customer.id) s.now s.state.turns := by
    intro q hq hcampaign
    rw [simulation_opened answered] at hq
    rcases List.mem_append.mp hq with hold | hlast
    · exact absurd hcampaign (hnone q hold)
    · rw [List.mem_singleton.mp hlast]
      exact ⟨rfl, rfl⟩
  constructor
  · intro q hq r hr hqid hrid
    rw [(hrunning q hq hqid).1, (hrunning r hr hrid).1]
  · intro c hc r hr hcampaign
    obtain rfl := Option.some.inj (hpresent.symm.trans hc)
    rw [(hrunning r hr hcampaign).2]
    refine ⟨?_, hstatus⟩
    rw [hstats]
    exact List.length_map ..
  · intro c hc
    obtain rfl := Option.some.inj (hpresent.symm.trans hc)
    rw [hstats]
    rfl
  · intro c hc
    obtain rfl := Option.some.inj (hpresent.symm.trans hc)
    rw [opening_updatedAt answered, simulation_opened answered]
    exact Instant.le_refl _

/-- An operation leaves a campaign as it is or takes it on, and the campaign keeps its pace. -/
theorem paced_perform (h : s.Sound) (paced : s.simulation.Paced id)
    (issued : id.IsIssued s.state.issued) (o : Operation) :
    (s.perform o).simulation.Paced id ∧ ∀ c, (s.perform o).state.campaigns.get? id = some c →
      ∃ b, s.state.campaigns.get? id = some b ∧ b.GoesOn c := by
  have hspares := spares_effects issued o
  have hsimulation := s.simulation_perform o
  have haffected := s.affected o
  generalize s.effects o = actions at hspares hsimulation haffected
  have hpaced := Simulation.paced_run paced h.calm hspares
  rw [state, hsimulation]
  refine ⟨hpaced, fun c hc => ?_⟩
  cases haffected with
  | alone => exact ⟨c, hc, .refl c⟩
  | issued => exact ⟨c, hc, .refl c⟩
  | opened _ _ _ campaign customers answered =>
    have hother : campaign.id ≠ id := hspares (.enter campaign) (by simp)
    have hget : (s.simulation.run [.takeId, .enter campaign,
        .begin campaign.id (customers.map Customer.id)]).state.campaigns.get? id =
          s.state.campaigns.get? id := CampaignBook.get?_insert_of_ne hother s.state.campaigns
    exact ⟨c, hget ▸ hc, .refl c⟩
  | background a _ free =>
    obtain ⟨-, hfollows⟩ := Simulation.paced_act paced h.calm (hspares a List.mem_cons_self)
    obtain ⟨b, hb, goesOn, -⟩ := hfollows c hc
    exact ⟨b, hb, goesOn⟩

/-- What is shown of a campaign goes on from one time to the next, and shows no failure. -/
theorem shown_goesOn (h : s.Sound) (paced : s.simulation.Paced id)
    (issued : id.IsIssued s.state.issued) (operations : List Operation) :
    (s.shown id operations).IsChain Campaign.GoesOn ∧
      (∀ c ∈ s.shown id operations, c.stats.failureReason = none) ∧
      (s.shown id operations).head? = s.state.campaigns.get? id := by
  induction operations generalizing s with
  | nil =>
    rw [shown]
    cases hget : s.state.campaigns.get? id with
    | none => exact ⟨.nil, by rintro c ⟨⟩, rfl⟩
    | some c =>
      refine ⟨.singleton c, ?_, rfl⟩
      intro b hb
      rw [List.mem_singleton.mp hb]
      exact paced.faultless c hget
  | cons o rest ih =>
    obtain ⟨hpaced, hback⟩ := paced_perform h paced issued o
    obtain ⟨chain, faultless, head⟩ :=
      ih (sound_perform h o) hpaced (issued.mono (s.issued_perform o))
    rw [shown]
    cases hget : s.state.campaigns.get? id with
    | none =>
      -- What is not there is not there afterwards either.
      have hgone : (s.perform o).state.campaigns.get? id = none := by
        rw [Option.eq_none_iff_forall_ne_some]
        intro c hc
        obtain ⟨b, hb, -⟩ := hback c hc
        rw [hget] at hb
        cases hb
      exact ⟨chain, faultless, head.trans hgone⟩
    | some b =>
      refine ⟨List.isChain_cons.mpr ⟨?_, chain⟩, ?_, rfl⟩
      · intro c hc
        obtain ⟨b', hb', goesOn⟩ := hback c (head.symm.trans hc)
        obtain rfl := Option.some.inj (hget.symm.trans hb')
        exact goesOn
      · intro c hc
        rcases List.mem_cons.mp hc with rfl | hc
        · exact paced.faultless c hget
        · exact faultless c hc

/-- Nothing is shown of a campaign before it is opened. -/
theorem shown_of_absent (absent : s.state.campaigns.get? id = none) (operations : List Operation) :
    s.shown id operations = [] ∨ ∃ before request owner later campaign customers,
      operations = before ++ .openCampaign request owner :: later ∧
        (s.performAll before).opening request owner = .ok (campaign, customers) ∧
        campaign.id = id ∧
        s.shown id operations =
          ((s.performAll before).perform (.openCampaign request owner)).shown id later := by
  induction operations generalizing s with
  | nil =>
    left
    rw [shown, absent]
    rfl
  | cons o rest ih =>
    have hrest : s.shown id (o :: rest) = (s.perform o).shown id rest := by
      rw [shown, absent]
      rfl
    rw [hrest]
    cases hget : (s.perform o).state.campaigns.get? id with
    | none =>
      rcases ih hget with hnone | ⟨before, request, owner, later, c, members, rfl, hok, hid, hall⟩
      · exact Or.inl hnone
      · exact Or.inr ⟨o :: before, request, owner, later, c, members, rfl, hok, hid, hall⟩
    | some c =>
      right
      have hpresent : ((s.perform o).state.campaigns.get? id).isSome := by
        rw [hget]
        rfl
      rcases present_perform o hpresent with hold | ⟨request, owner, c, members, rfl, hok, hid⟩
      · rw [absent] at hold
        cases hold
      · exact ⟨[], request, owner, rest, c, members, rfl, hok, hid, rfl⟩

/-- Whatever is done at a desk, a campaign shows its draft, its processing and its completion in
this order and none of them again, and it shows no failure. It stays on the terms and with the
number of recipients with which it was opened, and its last update only becomes later. -/
theorem campaign_goes_through_its_life {settings : Settings} {directory : List Customer}
    {now : Instant} {start : Desk}
    (h : Desk.start settings (.ofList directory) now = .ok start) (operations : List Operation)
    (id : Uuid) :
    let shown := start.shown id operations
    (shown.map Campaign.status).destutter (· ≠ ·) <+: [.draft, .processing, .completed] ∧
      (∀ c ∈ shown, c.stats.failureReason = none) ∧
      (shown.map Campaign.updatedAt).Pairwise (· ≤ ·) ∧
      (shown ≠ [] → ∃ before request owner later campaign opened,
        operations = before ++ .openCampaign request owner :: later ∧
          (start.performAll before).openCampaign request owner = .ok (campaign, opened) ∧
          campaign.id = id ∧ shown.head? = some campaign ∧
          ∀ c ∈ shown, c.terms = campaign.terms ∧
            c.stats.totalRecipients = campaign.stats.totalRecipients) := by
  intro shown
  rcases shown_of_absent (campaigns_start h id) operations with
    hnone | ⟨before, request, owner, later, campaign, customers, hsplit, hok, rfl, hall⟩
  · simp only [shown, hnone]
    simp
  · have hs : (start.performAll before).Sound := sound_performAll (sound_start h) before
    obtain ⟨_, _, _, _, hstatus, _⟩ := opening_ok hok
    obtain ⟨chain, faultless, head⟩ := shown_goesOn (sound_perform hs _) (opened_paced hs hok)
      (issued_opened hok) later
    rw [get?_opened hok] at head
    simp only [shown, hall]
    obtain ⟨rest, hrest⟩ := List.head?_eq_some_iff.mp head
    rw [hrest] at chain faultless head ⊢
    have hstatuses := Campaign.GoesOn.statuses_of_chain chain
    rw [hstatus] at hstatuses
    obtain ⟨opened, hopened⟩ : ∃ opened,
        (start.performAll before).openCampaign request owner = .ok (campaign, opened) := by
      rw [openCampaign_eq, hok]
      exact ⟨_, rfl⟩
    refine ⟨hstatuses, faultless, Campaign.GoesOn.updatedAt_of_chain chain, fun _ => ?_⟩
    refine ⟨before, request, owner, later, campaign, opened, hsplit, hopened, rfl, head, ?_⟩
    intro c hc
    obtain ⟨hterms, htotal, _⟩ := Campaign.GoesOn.of_chain chain hc
    exact ⟨hterms, htotal⟩

/-- A campaign is recounted before and after its completion, its message is opened in between, and
in the end it is deleted. -/
theorem recounted_campaign_goes_through_its_life :
    let customer : Customer :=
      ⟨"cust-00", "Customer 0", none, true, .empty, ⟨none, none, none⟩, ⟨none⟩, []⟩
    let settings : Settings := ⟨"node", .default, Sample.settings 1⟩
    let start : Desk := ⟨.start (.ofList [customer]) .default, .ofState (Sample.delivery 1)⟩
    let step : Operation := .background (.work (.dispatch 0))
    let recount : Operation := .background (.recompute (.fresh 1))
    let operations : List Operation :=
      [.defineSegment ⟨"Active", none, .and, [.make "is_active" "==" (.bool true)]⟩ "ana",
        .openCampaign ⟨"First", some (.fresh 0), some ⟨"Hi", "Sale"⟩⟩ "ana", step, recount, step,
        .background (.receive ⟨"msg_0_cust-00", .opened, none⟩),
        .background (.work (.moveTo ⟨1, 0⟩)), step, step, recount,
        .background (.delete (.fresh 1)), recount]
    let shown := start.shown (.fresh 1) operations
    Desk.start settings (.ofList [customer]) ⟨0, 0⟩ = .ok start ∧
      shown.map Campaign.status = [.draft, .processing, .processing, .processing, .processing,
        .processing, .processing, .completed, .completed] ∧
      (shown.map Campaign.status).destutter (· ≠ ·) <+: [.draft, .processing, .completed] ∧
      (∀ c ∈ shown, c.stats.failureReason = none) ∧
      (shown.map Campaign.updatedAt).Pairwise (· ≤ ·) ∧
      ∃ campaign, shown.head? = some campaign ∧ ∀ c ∈ shown, c.terms = campaign.terms ∧
        c.stats.totalRecipients = campaign.stats.totalRecipients := by
  intro customer settings start step recount operations shown
  have hstart : Desk.start settings (.ofList [customer]) ⟨0, 0⟩ = .ok start :=
    Sample.start_desk [customer]
  obtain ⟨hstatuses, hreason, hupdated, hopened⟩ :=
    campaign_goes_through_its_life hstart operations (.fresh 1)
  have hshown : shown.map Campaign.status = [.draft, .processing, .processing, .processing,
      .processing, .processing, .processing, .completed, .completed] := by decide +kernel
  have hsome : shown ≠ [] := by
    intro hnone
    rw [hnone] at hshown
    cases hshown
  obtain ⟨_, _, _, _, campaign, _, -, -, -, hhead, hterms⟩ := hopened hsome
  exact ⟨hstart, hshown, hstatuses, hreason, hupdated, campaign, hhead, hterms⟩

end Desk

end Outreach
