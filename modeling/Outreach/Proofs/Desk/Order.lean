import Outreach.Proofs.Desk.Operations

/-!
# Order at a desk

Every campaign of a desk was opened under an identifier from the supply, before any record or any
dispatch mentioned it, so a campaign that is opened is new to everything that goes on. The directory
names each customer once, and no call is ever out of order.
-/

namespace Outreach

/-- The identifier is one of those that the supply has issued. -/
def Uuid.IsIssued (issued : Nat) (id : Uuid) : Prop :=
  ∃ n, n < issued ∧ id = .fresh n

theorem Uuid.IsIssued.mono {issued later : Nat} {id : Uuid} (h : id.IsIssued issued)
    (le : issued ≤ later) : id.IsIssued later := by
  obtain ⟨n, hn, rfl⟩ := h
  exact ⟨n, by omega, rfl⟩

theorem Uuid.not_isIssued_fresh (issued : Nat) : ¬ (Uuid.fresh issued).IsIssued issued := by
  rintro ⟨n, hn, he⟩
  have hsame := Uuid.fresh_injective he
  omega

namespace Simulation

variable {s : Simulation}

/-- All campaigns that are mentioned anywhere have identifiers from the supply. -/
structure Numbered (s : Simulation) : Prop where
  campaigns : ∀ id, (s.state.campaigns.get? id).isSome → id.IsIssued s.state.issued
  records : ∀ r ∈ s.state.records.records, r.campaignId.IsIssued s.state.issued
  running : ∀ r ∈ s.running, r.dispatch.campaign.IsIssued s.state.issued

theorem numbered_act (o : s.Orderly) (h : s.Numbered) {a : Action}
    (spares : ∀ campaign, a.Spares campaign) : (s.act a).Numbered := by
  have hissued := (standing_act s (spares .nil)).issued
  constructor
  · intro id hid
    exact (h.campaigns id ((standing_act s (spares id)).present hid)).mono hissued
  · intro r hr
    have horigin : r.origin ∈ (s.act a).state.records.origins := List.mem_map.mpr ⟨r, hr, rfl⟩
    rcases List.mem_append.mp ((origins_act o a).mem_iff.mp horigin) with hnew | hold
    · cases recorded_act s a with
      | same none_created _ =>
        rw [none_created] at hnew
        cases hnew
      | moved none_created =>
        rw [none_created] at hnew
        cases hnew
      | created q present _ m untried by_action _ =>
        have hq := (dispatchAt?_eq_some present).1
        rw [by_action, Option.toList_some, List.mem_singleton] at hnew
        have hcampaign : r.campaignId = q.dispatch.campaign := by
          rw [← r.origin_campaignId, hnew]
          exact (o.drafts q hq m untried).campaign
        rw [hcampaign]
        exact (h.running q hq).mono hissued
    · obtain ⟨q, hq, he⟩ := List.mem_map.mp hold
      have hcampaign := congrArg MessageRecord.campaignId he
      rw [MessageRecord.origin_campaignId, MessageRecord.origin_campaignId] at hcampaign
      rw [← hcampaign]
      exact (h.records q hq).mono hissued
  · intro r hr
    rcases mem_running_act hr with ⟨q, hq, _, hcampaign⟩ | ⟨recipients, hbegin, _⟩
    · rw [← hcampaign]
      exact (h.running q hq).mono hissued
    · rw [hbegin] at spares
      exact False.elim (spares r.dispatch.campaign rfl)

/-- Nothing mentions the identifier that will be issued next. -/
theorem Numbered.unmentioned (h : s.Numbered) :
    s.state.records.find (.campaign (.fresh s.state.issued)) = [] ∧
      ∀ r ∈ s.running, r.dispatch.campaign ≠ .fresh s.state.issued := by
  constructor
  · rw [List.eq_nil_iff_forall_not_mem]
    intro r hr
    obtain ⟨hmem, hcampaign⟩ := RecordBook.mem_find_campaign.mp hr
    have hissued := h.records r hmem
    rw [hcampaign] at hissued
    exact Uuid.not_isIssued_fresh _ hissued
  · intro r hr he
    have hissued := h.running r hr
    rw [he] at hissued
    exact Uuid.not_isIssued_fresh _ hissued

/-- A campaign under the next identifier is entered and its dispatch begins. -/
theorem numbered_open (h : s.Numbered) {c : Campaign} (new : c.id = .fresh s.state.issued)
    (recipients : List String) :
    (s.run [.takeId, .enter c, .begin c.id recipients]).Numbered := by
  have hissued : (s.run [.takeId, .enter c, .begin c.id recipients]).state.issued =
      s.state.issued + 1 := rfl
  have hnew : c.id.IsIssued (s.state.issued + 1) := ⟨s.state.issued, Nat.lt_succ_self _, new⟩
  constructor
  · intro id hid
    rw [hissued]
    by_cases he : c.id = id
    · exact he ▸ hnew
    · have hget : (s.run [.takeId, .enter c, .begin c.id recipients]).state.campaigns.get? id =
          s.state.campaigns.get? id := CampaignBook.get?_insert_of_ne he s.state.campaigns
      rw [hget] at hid
      exact (h.campaigns id hid).mono (Nat.le_succ _)
  · intro r hr
    exact (h.records r hr).mono (Nat.le_succ _)
  · intro r hr
    rcases List.mem_append.mp hr with hold | hlast
    · exact (h.running r hold).mono (Nat.le_succ _)
    · rw [List.mem_singleton.mp hlast]
      exact hnew

end Simulation

namespace Desk

variable {s : Desk}

/-- What holds of a desk at all times. -/
structure Sound (s : Desk) : Prop where
  orderly : s.simulation.Orderly
  named : s.simulation.Named
  numbered : s.simulation.Numbered
  calm : s.outages = .none
  directory : s.catalog.directory.customers.Pairwise fun a b => a.id < b.id

/-- Nothing has happened yet at a desk that has just been set up. -/
theorem start_ok {settings : Settings} {directory : Directory} {now : Instant}
    (h : Desk.start settings directory now = .ok s) :
    ∃ state, s = ⟨.start directory settings.segmentation, .ofState state⟩ ∧
      DeliveryState.start settings.delivery settings.nodeId now = .ok state := by
  rw [Desk.start, Answer.bind_eq_ok] at h
  obtain ⟨state, hstate, h⟩ := h
  exact ⟨state, (Answer.pure_eq_ok.mp h).symm, hstate⟩

theorem sound_start {settings : Settings} {customers : List Customer} {now : Instant}
    (h : Desk.start settings (.ofList customers) now = .ok s) : s.Sound := by
  obtain ⟨state, rfl, hstate⟩ := start_ok h
  obtain ⟨houtages, hcampaigns, hrecords, _⟩ := DeliveryState.start_ok hstate
  constructor
  · exact Simulation.orderly_ofState (DeliveryState.idle_start hstate)
  · constructor
    · rw [Simulation.ofState, hrecords]
      exact RecordBook.indexed_empty
    · intro r hr
      rw [Simulation.ofState, hrecords] at hr
      cases hr
  · constructor
    · intro id hid
      rw [Simulation.ofState, hcampaigns] at hid
      cases hid
    · intro r hr
      rw [Simulation.ofState, hrecords] at hr
      cases hr
    · rintro r ⟨⟩
  · exact houtages
  · exact Sorted.pairwise_ofList Customer.id customers

theorem directory_perform (s : Desk) (o : Operation) :
    (s.perform o).catalog.directory = s.catalog.directory ∨
      ∃ customer, (s.perform o).catalog.directory = s.catalog.directory.put customer := by
  cases o with
  | put customer => exact Or.inr ⟨customer, rfl⟩
  | defineSegment request owner =>
    left
    simp only [perform, after]
    cases h : s.defineSegment request owner with
    | error e => rfl
    | ok answer => exact (defineSegment_ok h).1
  | refreshEstimate id =>
    left
    simp only [perform, after]
    cases h : s.refreshEstimate id with
    | error e => rfl
    | ok answer => exact (refreshEstimate_ok h).1
  | openCampaign request owner =>
    left
    simp only [perform, after, openCampaign_eq]
    cases s.opening request owner with
    | error e => rfl
    | ok opened => rfl
  | background a =>
    left
    simp only [perform]
    split <;> rfl

theorem sound_perform (h : s.Sound) (o : Operation) : (s.perform o).Sound := by
  have hsimulation := s.simulation_perform o
  have haffected := s.affected o
  generalize s.effects o = actions at hsimulation haffected
  constructor
  · rw [hsimulation]
    exact Simulation.orderly_run h.orderly _
  · rw [hsimulation]
    exact Simulation.named_run h.orderly h.named _
  · rw [hsimulation]
    cases haffected with
    | alone => exact h.numbered
    | issued => exact Simulation.numbered_act h.orderly h.numbered (a := .takeId) fun _ => trivial
    | opened _ _ _ campaign customers answered =>
      obtain ⟨_, _, _, hid, _⟩ := opening_ok answered
      exact Simulation.numbered_open h.numbered hid _
    | background a _ free =>
      exact Simulation.numbered_act h.orderly h.numbered (Action.spares_of_not_isReserved free)
  · have houtages : (s.perform o).simulation.state.outages = s.simulation.state.outages := by
      rw [hsimulation]
      cases haffected with
      | alone => rfl
      | issued => rfl
      | opened => rfl
      | background a _ free =>
        exact (Simulation.standing_act s.simulation
          (Action.spares_of_not_isReserved free .nil)).outages
    exact houtages.trans h.calm
  · rcases s.directory_perform o with hsame | ⟨customer, hput⟩
    · rw [hsame]
      exact h.directory
    · rw [hput]
      exact Sorted.pairwise_put customer h.directory

theorem sound_performAll (h : s.Sound) (operations : List Operation) :
    (s.performAll operations).Sound := by
  induction operations generalizing s with
  | nil => exact h
  | cons o rest ih => exact ih (sound_perform h o)

end Desk

/-- A desk can be set up over any customers with the settings of the samples. -/
theorem Sample.start_desk (customers : List Customer) :
    Desk.start ⟨"node", .default, settings 1⟩ (.ofList customers) ⟨0, 0⟩ =
      .ok ⟨.start (.ofList customers) .default, .ofState (delivery 1)⟩ := by
  have hdelivery : DeliveryState.start (settings 1) "node" ⟨0, 0⟩ = .ok (delivery 1) := rfl
  rw [Desk.start, hdelivery]
  rfl

end Outreach
