import Outreach.Proofs.Desk.Requests

/-!
# What a desk keeps in order

Segments are kept as they were checked when they were defined, except for their estimates. What a
campaign was opened with, its owner and its segment among it, stays with it until it is deleted,
whatever its dispatch and the recounts do to its status and its statistics. Segments are never
deleted and never change hands, so the segment of a campaign is there and has the campaign's owner.
-/

namespace Outreach

namespace Uuid

instance : LE Uuid := ⟨fun a b => a.value ≤ b.value⟩

instance : Std.IsLinearOrder Uuid where
  le_refl a := Nat.le_refl a.value
  le_trans _ _ _ := Nat.le_trans
  le_antisymm a b hab hba := by
    cases a
    cases b
    exact congrArg Uuid.mk (Nat.le_antisymm hab hba)
  le_total a b := Nat.le_total a.value b.value

instance : Std.LawfulOrderLT Uuid where
  lt_iff _ _ := Nat.lt_iff_le_and_not_ge

end Uuid

/-! ## Campaigns -/

/-- What a campaign is opened with. -/
structure CampaignTerms where
  id : Uuid
  name : String
  segmentId : Uuid
  template : MessageTemplate
  createdBy : String
  createdAt : Instant

def Campaign.terms (c : Campaign) : CampaignTerms :=
  ⟨c.id, c.name, c.segmentId, c.template, c.createdBy, c.createdAt⟩

namespace CampaignBook

variable {s t : CampaignBook} {id : Uuid} {now : Instant}

/-- The terms of all campaigns, by id. -/
def terms (s : CampaignBook) : List CampaignTerms :=
  s.campaigns.map Campaign.terms

theorem campaigns_update {change : Campaign → Campaign} (h : s.update id now change = .ok t) :
    t.campaigns =
      Sorted.modify Campaign.id id (fun c => { change c with updatedAt := now }) s.campaigns := by
  obtain ⟨c, hc⟩ := exists_of_update h
  simp only [update, hc, Except.ok.injEq] at h
  rw [← h]

theorem terms_update {change : Campaign → Campaign} (h : s.update id now change = .ok t)
    (keeps : ∀ c, { change c with updatedAt := now }.terms = c.terms) : t.terms = s.terms := by
  rw [terms, campaigns_update h, Sorted.modify, List.map_map]
  apply List.map_congr_left
  intro b _
  simp only [Function.comp_apply]
  split
  · exact keeps b
  · rfl

theorem terms_delete (s : CampaignBook) (id : Uuid) : (s.delete id).2.terms.Sublist s.terms :=
  List.filter_sublist.map Campaign.terms

end CampaignBook

theorem DeliveryState.DispatchStep.terms {s t : DeliveryState} {d d' : Dispatch}
    (h : DeliveryState.DispatchStep s d d' t) : t.campaigns.terms = s.campaigns.terms := by
  rcases h.campaigns with hsame | ⟨_, _, hbook⟩ | ⟨_, _, _, hbook⟩ | ⟨_, hbook⟩
  · rw [hsame]
  · exact CampaignBook.terms_update hbook fun _ => rfl
  · exact CampaignBook.terms_update hbook fun _ => rfl
  · exact CampaignBook.terms_update hbook fun _ => rfl

/-- Nothing but the entry of a campaign adds terms to the book, and nothing changes them. -/
theorem Simulation.terms_act (s : Simulation) {a : Action} (enters : ∀ c, a ≠ .enter c) :
    (s.act a).state.campaigns.terms.Sublist s.state.campaigns.terms := by
  have unchanged : ∀ {t : Simulation}, s.act a = t →
      t.state.campaigns.terms = s.state.campaigns.terms →
        (s.act a).state.campaigns.terms.Sublist s.state.campaigns.terms := by
    intro t state h
    rw [state, h]
  cases s.acted a with
  | walked e _ _ step state =>
    exact unchanged state (congrArg CampaignBook.terms step.standing.2)
  | stepped r _ _ step state => exact unchanged state step.terms
  | delivered receipt record outcome u answered _ state =>
    obtain ⟨_, advanced, _⟩ := DeliveryState.deliver_ok answered
    exact unchanged state (congrArg CampaignBook.terms advanced.campaigns)
  | recounted c book id present answered _ state =>
    exact unchanged state (CampaignBook.terms_update answered fun _ => rfl)
  | entered c by_action _ => exact absurd by_action (enters c)
  | deleted id _ state =>
    rw [state]
    exact s.state.campaigns.terms_delete id
  | idle _ state | rearranged _ _ _ _ _ state | moved _ _ _ state | begun _ _ _ state
  | cancelled _ _ state | aborted _ _ state | unregistered _ _ state | dropped _ _ state
  | disturbed _ _ state | issued _ state => exact unchanged state rfl

namespace Desk

variable {s t : Desk} {owner : String}

/-! ## Segments -/

/-- The rules and the name of a segment were accepted when it was defined. -/
def Checked (segment : Segment) : Prop :=
  segment.rules.validate = .ok () ∧ Text.isBlank segment.name = false

theorem defineSegment_files {request : SegmentRequest} {segment : Segment}
    (h : s.defineSegment request owner = .ok (segment, t)) :
    t.catalog.segments = Sorted.put Segment.id segment s.catalog.segments ∧
      segment.id = .fresh s.state.issued ∧ Checked segment ∧ segment.createdBy = owner := by
  simp only [defineSegment, Catalog.create, Answer.bind_eq_ok] at h
  obtain ⟨_, ⟨drafted, hdrafted, hcreated⟩, h⟩ := h
  cases Answer.pure_eq_ok.mp hcreated
  obtain ⟨rfl, rfl⟩ := Prod.mk.inj (Answer.pure_eq_ok.mp h)
  rw [Catalog.draft] at hdrafted
  split at hdrafted
  · cases hdrafted
  · rename_i named
    simp only [Catalog.estimate, Answer.bind_eq_ok] at hdrafted
    obtain ⟨count, ⟨_, valid, _⟩, hdrafted⟩ := hdrafted
    cases Answer.pure_eq_ok.mp hdrafted
    exact ⟨rfl, rfl, ⟨valid, by simpa using named⟩, rfl⟩

theorem refreshEstimate_files {id : Uuid} {segment : Segment}
    (h : s.refreshEstimate id = .ok (segment, t)) :
    ∃ old count now, s.catalog.get? old.id = some old ∧
      segment = { old with estimatedCount := count, updatedAt := now } ∧
      t.catalog.segments = Sorted.put Segment.id segment s.catalog.segments := by
  simp only [refreshEstimate, Answer.bind_eq_ok] at h
  obtain ⟨_, hrefreshed, h⟩ := h
  obtain ⟨rfl, rfl⟩ := Prod.mk.inj (Answer.pure_eq_ok.mp h)
  rw [Catalog.refreshEstimate] at hrefreshed
  split at hrefreshed
  · cases hrefreshed
  · rename_i old hold
    obtain ⟨count, _, hrefreshed⟩ := Answer.bind_eq_ok.mp hrefreshed
    cases Answer.pure_eq_ok.mp hrefreshed
    obtain ⟨-, rfl⟩ := Sorted.get?_eq_some hold
    exact ⟨old, count, s.now, hold, rfl, rfl⟩

/-! ## The whole desk -/

/-- What holds of the segments and campaigns of a desk at all times. -/
structure InOrder (s : Desk) : Prop where
  segments : s.catalog.segments.Pairwise fun a b => a.id < b.id
  issued : ∀ segment ∈ s.catalog.segments, segment.id.IsIssued s.state.issued
  checked : ∀ segment ∈ s.catalog.segments, Checked segment
  campaigns : s.state.campaigns.terms.Pairwise fun a b => a.id < b.id
  numbered : ∀ c ∈ s.state.campaigns.terms, c.id.IsIssued s.state.issued
  /-- The segment of a campaign belongs to its owner. -/
  owned : ∀ c ∈ s.state.campaigns.terms, ∃ segment,
    s.catalog.get? c.segmentId = some segment ∧ segment.createdBy = c.createdBy

theorem inOrder_start {settings : Settings} {directory : Directory} {now : Instant}
    (h : Desk.start settings directory now = .ok s) : s.InOrder := by
  obtain ⟨state, rfl, hstate⟩ := start_ok h
  obtain ⟨_, hcampaigns, _⟩ := DeliveryState.start_ok hstate
  have hterms : state.campaigns.terms = [] := by
    rw [hcampaigns]
    rfl
  constructor
  · exact List.Pairwise.nil
  · rintro segment ⟨⟩
  · rintro segment ⟨⟩
  · rw [Desk.state, Simulation.ofState, hterms]
    exact List.Pairwise.nil
  · intro c hc
    rw [Desk.state, Simulation.ofState, hterms] at hc
    cases hc
  · intro c hc
    rw [Desk.state, Simulation.ofState, hterms] at hc
    cases hc

theorem InOrder.pairwise (h : s.InOrder) :
    s.state.campaigns.campaigns.Pairwise fun a b => a.id < b.id :=
  (List.pairwise_map (f := Campaign.terms)).mp h.campaigns

/-- The ways in which an operation changes what a desk keeps. -/
inductive Books (s t : Desk) : Prop
  /-- Campaigns may be deleted, and go on in other ways. -/
  | kept (segments : t.catalog.segments = s.catalog.segments)
      (campaigns : t.state.campaigns.terms.Sublist s.state.campaigns.terms)
      (issued : s.state.issued ≤ t.state.issued)
  | defined (segment : Segment) (new : segment.id = .fresh s.state.issued)
      (checked : Checked segment)
      (segments : t.catalog.segments = Sorted.put Segment.id segment s.catalog.segments)
      (campaigns : t.state.campaigns = s.state.campaigns)
      (issued : t.state.issued = s.state.issued + 1)
  | refreshed (segment : Segment) (present : s.catalog.get? segment.id = some segment)
      (count : Nat) (now : Instant)
      (segments : t.catalog.segments = Sorted.put Segment.id
        { segment with estimatedCount := count, updatedAt := now } s.catalog.segments)
      (simulation : t.simulation = s.simulation)
  | opened (campaign : Campaign) (new : campaign.id = .fresh s.state.issued) (segment : Segment)
      (present : s.catalog.get? campaign.segmentId = some segment)
      (owner : segment.createdBy = campaign.createdBy)
      (segments : t.catalog.segments = s.catalog.segments)
      (campaigns : t.state.campaigns = s.state.campaigns.insert campaign)
      (issued : t.state.issued = s.state.issued + 1)

theorem Books.of_same (segments : t.catalog.segments = s.catalog.segments)
    (campaigns : t.state.campaigns = s.state.campaigns) (issued : t.state.issued = s.state.issued) :
    s.Books t :=
  .kept segments (by rw [campaigns]) (Nat.le_of_eq issued.symm)

theorem owned_ok {id : Uuid} {segment : Segment} (h : s.catalog.owned id owner = .ok segment) :
    s.catalog.get? id = some segment ∧ segment.createdBy = owner := by
  rw [Catalog.owned] at h
  cases hget : s.catalog.get? id with
  | none =>
    rw [hget] at h
    cases h
  | some found =>
    rw [hget] at h
    by_cases hown : found.createdBy = owner
    · simp only [hown, if_true, Except.ok.injEq] at h
      subst h
      exact ⟨rfl, hown⟩
    · simp only [hown, if_false] at h
      cases h

/-- A campaign that is opened belongs to the owner who opens it. -/
theorem opening_createdBy {request : CampaignRequest} {campaign : Campaign}
    {customers : List Customer} (h : s.opening request owner = .ok (campaign, customers)) :
    campaign.createdBy = owner := by
  simp only [opening, Answer.bind_eq_ok] at h
  obtain ⟨_, _, _, _, _, _, _, _, h⟩ := h
  obtain ⟨rfl, -⟩ := Prod.mk.inj (Answer.pure_eq_ok.mp h)
  rfl

theorem books_perform (s : Desk) (o : Operation) : s.Books (s.perform o) := by
  cases o with
  | put customer => exact .of_same rfl rfl rfl
  | defineSegment request owner =>
    simp only [perform, after]
    cases h : s.defineSegment request owner with
    | error e => exact .of_same rfl rfl rfl
    | ok answer =>
      obtain ⟨hsegments, hnew, hchecked, -⟩ := defineSegment_files h
      obtain ⟨-, hsimulation⟩ := defineSegment_ok h
      refine .defined answer.1 hnew hchecked hsegments ?_ ?_
      · rw [state, hsimulation]
        rfl
      · rw [state, hsimulation]
        rfl
  | refreshEstimate id =>
    simp only [perform, after]
    cases h : s.refreshEstimate id with
    | error e => exact .of_same rfl rfl rfl
    | ok answer =>
      obtain ⟨old, count, now, hpresent, hsegment, hsegments⟩ := refreshEstimate_files h
      rw [hsegment] at hsegments
      exact .refreshed old hpresent count now hsegments (refreshEstimate_ok h).2
  | openCampaign request owner =>
    simp only [perform, after, openCampaign_eq]
    cases h : s.opening request owner with
    | error e => exact .of_same rfl rfl rfl
    | ok opened =>
      obtain ⟨segment, howned, -, hnew, -⟩ := opening_ok h
      obtain ⟨hpresent, howner⟩ := owned_ok howned
      exact .opened opened.1 hnew segment hpresent (howner.trans (opening_createdBy h).symm) rfl
        rfl rfl
  | background a =>
    simp only [perform]
    split
    · exact .of_same rfl rfl rfl
    · rename_i free
      refine .kept rfl (s.simulation.terms_act ?_) ?_
      · rintro c rfl
        exact free rfl
      · exact (Simulation.standing_act s.simulation
          (Action.spares_of_not_isReserved (by simpa using free) .nil)).issued

theorem inOrder_kept (h : s.InOrder) (segments : t.catalog.segments = s.catalog.segments)
    (campaigns : t.state.campaigns.terms.Sublist s.state.campaigns.terms)
    (issued : s.state.issued ≤ t.state.issued) : t.InOrder := by
  constructor
  · rw [segments]
    exact h.segments
  · rw [segments]
    exact fun segment hsegment => (h.issued segment hsegment).mono issued
  · rw [segments]
    exact h.checked
  · exact h.campaigns.sublist campaigns
  · exact fun c hc => (h.numbered c (campaigns.subset hc)).mono issued
  · intro c hc
    rw [Catalog.get?, segments]
    exact h.owned c (campaigns.subset hc)

/-- A segment is filed that is new or takes the place of one of the same owner. -/
theorem inOrder_filed (h : s.InOrder) {segment : Segment}
    (segments : t.catalog.segments = Sorted.put Segment.id segment s.catalog.segments)
    (campaigns : t.state.campaigns = s.state.campaigns)
    (issued : s.state.issued ≤ t.state.issued) (known : segment.id.IsIssued t.state.issued)
    (checked : Checked segment)
    (same : ∀ old, s.catalog.get? segment.id = some old → segment.createdBy = old.createdBy) :
    t.InOrder := by
  constructor
  · rw [segments]
    exact Sorted.pairwise_put segment h.segments
  · rw [segments]
    intro x hx
    rcases Sorted.mem_put hx with rfl | hx
    · exact known
    · exact (h.issued x hx).mono issued
  · rw [segments]
    intro x hx
    rcases Sorted.mem_put hx with rfl | hx
    · exact checked
    · exact h.checked x hx
  · rw [campaigns]
    exact h.campaigns
  · rw [campaigns]
    exact fun c hc => (h.numbered c hc).mono issued
  · rw [campaigns]
    intro c hc
    obtain ⟨old, hpresent, howner⟩ := h.owned c hc
    rw [Catalog.get?, segments]
    by_cases hid : segment.id = c.segmentId
    · refine ⟨segment, ?_, (same old (hid ▸ hpresent)).trans howner⟩
      rw [← hid]
      exact Sorted.get?_put_self Segment.id segment s.catalog.segments
    · exact ⟨old, (Sorted.get?_put_of_ne hid s.catalog.segments).trans hpresent, howner⟩

theorem inOrder_opened (h : s.InOrder) {campaign : Campaign} {segment : Segment}
    (new : campaign.id = .fresh s.state.issued)
    (present : s.catalog.get? campaign.segmentId = some segment)
    (owner : segment.createdBy = campaign.createdBy)
    (segments : t.catalog.segments = s.catalog.segments)
    (campaigns : t.state.campaigns = s.state.campaigns.insert campaign)
    (issued : t.state.issued = s.state.issued + 1) : t.InOrder := by
  have hlater : s.state.issued ≤ t.state.issued := by omega
  have hmem : ∀ c ∈ t.state.campaigns.terms,
      c = campaign.terms ∨ c ∈ s.state.campaigns.terms := by
    intro c hc
    rw [campaigns] at hc
    obtain ⟨b, hb, rfl⟩ := List.mem_map.mp hc
    rcases Sorted.mem_put hb with rfl | hb
    · exact .inl rfl
    · exact .inr (List.mem_map.mpr ⟨b, hb, rfl⟩)
  constructor
  · rw [segments]
    exact h.segments
  · rw [segments]
    exact fun x hx => (h.issued x hx).mono hlater
  · rw [segments]
    exact h.checked
  · rw [campaigns]
    exact List.pairwise_map.mpr (Sorted.pairwise_put campaign h.pairwise)
  · intro c hc
    rcases hmem c hc with rfl | hc
    · exact ⟨s.state.issued, by omega, new⟩
    · exact (h.numbered c hc).mono hlater
  · intro c hc
    rw [Catalog.get?, segments]
    rcases hmem c hc with rfl | hc
    · exact ⟨segment, present, owner⟩
    · exact h.owned c hc

theorem inOrder_books (h : s.InOrder) (books : s.Books t) : t.InOrder := by
  cases books with
  | kept segments campaigns issued => exact inOrder_kept h segments campaigns issued
  | defined segment new checked segments campaigns issued =>
    refine inOrder_filed h segments campaigns (by omega) ⟨_, by omega, new⟩ checked ?_
    -- Nothing is filed under an identifier that has not been issued.
    intro old hold
    obtain ⟨hmem, hid⟩ := Sorted.get?_eq_some hold
    have hissued := h.issued old hmem
    rw [hid, new] at hissued
    exact absurd hissued (Uuid.not_isIssued_fresh _)
  | refreshed segment present count now segments simulation =>
    obtain ⟨hmem, -⟩ := Sorted.get?_eq_some present
    have hstate : t.state = s.state := congrArg Simulation.state simulation
    refine inOrder_filed h segments (by rw [hstate]) (Nat.le_of_eq (by rw [hstate])) ?_
      (h.checked segment hmem) ?_
    · rw [hstate]
      exact h.issued segment hmem
    · intro old hold
      rw [present] at hold
      cases hold
      rfl
  | opened campaign new segment present owner segments campaigns issued =>
    exact inOrder_opened h new present owner segments campaigns issued

theorem inOrder_comesTo {start : Desk} (h : start.InOrder) (reached : start.ComesTo s) :
    s.InOrder := by
  induction reached with
  | start => exact h
  | @perform s _ o ih => exact inOrder_books ih (s.books_perform o)
  | setOutages _ outages ih => exact inOrder_books ih (.of_same rfl rfl rfl)

end Desk

end Outreach
