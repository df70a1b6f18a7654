import Outreach.Proofs.Delivery.Fulfilment
import Outreach.Proofs.Desk.Ownership
import Outreach.Proofs.Desk.Reach

/-!
# When a campaign is opened, and for whom

A campaign is opened when its request is complete, names a segment of the owner, and somebody
satisfies the rules of the segment at that instant. The checks are made in this order, and the first
one that fails is the answer. The customers who satisfy the rules then are the recipients, whatever
was estimated before and whatever becomes of the directory afterwards.
-/

namespace Outreach.Desk

variable {s t : Desk} {request : CampaignRequest} {owner : String} {segment : Segment}
  {campaign : Campaign}

/-- The customers who satisfy the rules of a segment now. -/
def members (s : Desk) (segment : Segment) : List Customer :=
  s.catalog.directory.select (segment.rules.toPredicate s.now)

/-- The request opens a campaign on a segment. -/
structure Accepts (s : Desk) (request : CampaignRequest) (owner : String) (segment : Segment) :
    Prop where
  complete : ∃ message, request.Complete segment.id message
  found : s.catalog.get? segment.id = some segment
  own : segment.createdBy = owner
  somebody : ∃ c ∈ s.catalog.directory.customers,
    (segment.rules.toPredicate s.now).satisfied c = true

/-- The request is refused by the first check that it does not pass. -/
inductive Refuses (s : Desk) (request : CampaignRequest) (owner : String) : Error → Prop
  | incomplete (missing : ∀ id message, ¬ request.Complete id message) :
      Refuses s request owner CampaignRequest.missingFields
  | foreign (id : Uuid) (message : MessageTemplate) (complete : request.Complete id message)
      (nowhere : ∀ segment, s.catalog.get? id = some segment → segment.createdBy ≠ owner) :
      Refuses s request owner (.segmentNotFound id)
  | nobody (message : MessageTemplate) (segment : Segment)
      (complete : request.Complete segment.id message)
      (found : s.catalog.get? segment.id = some segment) (own : segment.createdBy = owner)
      (empty : ∀ c ∈ s.catalog.directory.customers,
        (segment.rules.toPredicate s.now).satisfied c = false) :
      Refuses s request owner (.zeroMatch segment.id)

/-- One of the checks fails, or none of them. -/
theorem accepts_or_refuses (s : Desk) (request : CampaignRequest) (owner : String) :
    (∃ segment, s.Accepts request owner segment) ∨ ∃ e, s.Refuses request owner e := by
  rcases request.validate_cases with ⟨id, message, complete, -⟩ | ⟨missing, -⟩
  · by_cases hown : ∃ segment, s.catalog.get? id = some segment ∧ segment.createdBy = owner
    · obtain ⟨segment, found, own⟩ := hown
      obtain ⟨-, rfl⟩ := Sorted.get?_eq_some found
      by_cases hsome : ∃ c ∈ s.catalog.directory.customers,
          (segment.rules.toPredicate s.now).satisfied c = true
      · exact Or.inl ⟨segment, ⟨message, complete⟩, found, own, hsome⟩
      · refine Or.inr ⟨_, .nobody message segment complete found own fun c hc => ?_⟩
        rw [← Bool.not_eq_true]
        exact fun satisfied => hsome ⟨c, hc, satisfied⟩
    · exact Or.inr ⟨_, .foreign id message complete fun segment found own =>
        hown ⟨segment, found, own⟩⟩
  · exact Or.inr ⟨_, .incomplete missing⟩

/-! ## The answers -/

theorem owned_eq_ok (found : s.catalog.get? segment.id = some segment)
    (own : segment.createdBy = owner) : s.catalog.owned segment.id owner = .ok segment := by
  rw [Catalog.owned, found]
  exact if_pos own

/-- Where no call is out of order, the recipients are the members unless there are none. -/
theorem recipients_eq (calm : s.outages = .none) (segment : Segment) :
    s.recipients segment = if (s.members segment).isEmpty then .error (.zeroMatch segment.id)
      else .ok (s.members segment) := by
  rw [recipients, calm]
  change (if (s.members segment).isEmpty then throw _ else pure _ : Answer _) = _
  split <;> rfl

/-- On a segment of the owner, a complete request depends on the recipients alone. -/
theorem opening_of_owned {message : MessageTemplate} (order : s.InOrder)
    (complete : request.Complete segment.id message)
    (found : s.catalog.get? segment.id = some segment) (own : segment.createdBy = owner) :
    s.opening request owner = (fun customers => (s.draft s.state.takeId.1 request.name segment.id
      message owner customers.length, customers)) <$> s.recipients segment := by
  obtain ⟨hmem, -⟩ := Sorted.get?_eq_some found
  rw [opening, complete.validate_eq]
  change s.catalog.owned segment.id owner >>= _ = _
  rw [owned_eq_ok found own]
  change segment.rules.validate >>= _ = _
  -- The rules are checked again, but a segment that is stored has passed that check before.
  rw [(order.checked segment hmem).1]
  cases s.recipients segment with
  | error e => rfl
  | ok customers => rfl

theorem Accepts.opening_eq (h : s.Accepts request owner segment) (calm : s.outages = .none)
    (order : s.InOrder) : ∃ campaign, s.opening request owner = .ok (campaign, s.members segment) ∧
      campaign.segmentId = segment.id := by
  obtain ⟨message, complete⟩ := h.complete
  obtain ⟨c, hc, satisfied⟩ := h.somebody
  have hnonempty : (s.members segment).isEmpty = false := by
    rw [List.isEmpty_eq_false_iff]
    exact List.ne_nil_of_mem (Directory.mem_select.mpr ⟨hc, satisfied⟩)
  rw [opening_of_owned order complete h.found h.own, recipients_eq calm, hnonempty]
  exact ⟨_, rfl, rfl⟩

theorem Refuses.opening_eq {e : Error} (h : s.Refuses request owner e) (calm : s.outages = .none)
    (order : s.InOrder) : s.opening request owner = .error e := by
  cases h with
  | incomplete missing =>
    rcases request.validate_cases with ⟨id, message, complete, -⟩ | ⟨-, invalid⟩
    · exact absurd complete (missing id message)
    · rw [opening, invalid]
      rfl
  | foreign id message complete nowhere =>
    have hmissing : s.ownerOf? (.segment id) ≠ some owner := by
      rw [ownerOf?, Ne, Option.map_eq_some_iff]
      rintro ⟨segment, found, own⟩
      exact nowhere segment found own
    rw [opening, complete.validate_eq]
    change s.catalog.owned id owner >>= _ = _
    rw [owned_error hmissing]
    rfl
  | nobody message segment complete found own empty =>
    have hempty : (s.members segment).isEmpty = true := by
      rw [List.isEmpty_iff, members, Directory.select, List.filter_eq_nil_iff]
      intro c hc
      rw [empty c hc]
      exact Bool.false_ne_true
    rw [opening_of_owned order complete found own, recipients_eq calm, hempty]
    rfl

theorem accepts_of_opening {customers : List Customer} (calm : s.outages = .none)
    (order : s.InOrder) (h : s.opening request owner = .ok (campaign, customers)) :
    ∃ segment, s.Accepts request owner segment ∧ campaign.segmentId = segment.id ∧
      customers = s.members segment := by
  rcases s.accepts_or_refuses request owner with ⟨segment, accepted⟩ | ⟨e, refused⟩
  · obtain ⟨_, hopened, hsegment⟩ := accepted.opening_eq calm order
    rw [hopened] at h
    obtain ⟨rfl, rfl⟩ := Prod.mk.inj (Except.ok.inj h)
    exact ⟨segment, accepted, hsegment, rfl⟩
  · rw [refused.opening_eq calm order] at h
    cases h

theorem refuses_of_opening {e : Error} (calm : s.outages = .none) (order : s.InOrder)
    (h : s.opening request owner = .error e) : s.Refuses request owner e := by
  rcases s.accepts_or_refuses request owner with ⟨segment, accepted⟩ | ⟨cause, refused⟩
  · obtain ⟨_, hopened, -⟩ := accepted.opening_eq calm order
    rw [hopened] at h
    cases h
  · rw [refused.opening_eq calm order] at h
    cases h
    exact refused

theorem openCampaign_eq_ok :
    s.openCampaign request owner = .ok (campaign, t) ↔ ∃ customers,
      s.opening request owner = .ok (campaign, customers) ∧
        t = s.perform (.openCampaign request owner) := by
  simp only [perform, openCampaign_eq]
  cases s.opening request owner with
  | error e =>
    constructor
    · rintro ⟨⟩
    · rintro ⟨_, ⟨⟩, _⟩
  | ok opened =>
    constructor
    · rintro ⟨⟩
      exact ⟨opened.2, rfl, rfl⟩
    · rintro ⟨customers, ⟨⟩, rfl⟩
      rfl

theorem openCampaign_eq_error {e : Error} :
    s.openCampaign request owner = .error e ↔ s.opening request owner = .error e := by
  rw [openCampaign_eq]
  cases s.opening request owner with
  | error cause =>
    constructor
    · rintro ⟨⟩
      rfl
    · rintro ⟨⟩
      rfl
  | ok opened =>
    constructor
    · rintro ⟨⟩
    · rintro ⟨⟩

/-- The number of members is what an estimate finds. -/
theorem estimate_eq (calm : s.outages = .none) (valid : segment.rules.validate = .ok ()) :
    s.estimate segment.rules = .ok (s.members segment).length := by
  rw [estimate, Catalog.estimate, valid, calm, members, ← Directory.count_eq_length_select]
  rfl

/-! ## The dispatch -/

/-- The records that the dispatch with a ticket asks for while some operations are carried out. -/
def asked (s : Desk) (ticket : Nat) (later : List Operation) : List MessageRecord :=
  Deed.asked (s.simulation.deeds ticket (s.history later))

/-- The dispatch with a ticket sends a campaign to some customers, whatever happens later. -/
structure GoesTo (s : Desk) (campaign : Uuid) (ticket : Nat) (customers : List Customer) :
    Prop where
  begun : ∃ r, s.simulation.dispatchAt? ticket = some r ∧ r.dispatch.campaign = campaign
  distinct : (customers.map Customer.id).Nodup
  drafts : ∀ later, ∀ r ∈ s.asked ticket later, r.DraftOf campaign
  /-- Nobody is asked for twice, and nobody else. -/
  once : ∀ later, ∃ left, ((s.asked ticket later).map MessageRecord.customerId ++ left).Perm
    (customers.map Customer.id)
  /-- Everybody is asked for by the end of the dispatch, for which a step for each customer and four
  more suffice, unless the campaign is cancelled or deleted or its dispatch is aborted. -/
  all : ∀ later, (s.performAll later).simulation.Open campaign →
    .background (.drop campaign) ∉ later →
    (s.performAll later).simulation.dispatchAt? ticket = none ∨
      customers.length + 4 ≤ (s.history later).countP (fun a => a.isStepOf ticket) →
    ((s.asked ticket later).map MessageRecord.customerId).Perm (customers.map Customer.id)

theorem Sound.isOpen (h : s.Sound) {id : Uuid} (present : (s.state.campaigns.get? id).isSome)
    (accepts : s.state.agenda.refuses id = false) : s.simulation.Open id :=
  ⟨h.calm, present, accepts⟩

/-- Only its own operation aborts a dispatch. -/
theorem drop_effects {o : Operation} {id : Uuid} (h : .drop id ∈ s.effects o) :
    o = .background (.drop id) := by
  cases o with
  | put customer => cases h
  | refreshEstimate id => cases h
  | defineSegment request owner =>
    simp only [effects] at h
    split at h <;> simp at h
  | openCampaign request owner =>
    simp only [effects] at h
    split at h <;> simp at h
  | background a =>
    simp only [effects] at h
    split at h
    · cases h
    · rw [List.mem_singleton.mp h]

theorem drop_history {operations : List Operation} {id : Uuid}
    (h : .drop id ∈ s.history operations) : .background (.drop id) ∈ operations := by
  induction operations generalizing s with
  | nil => cases h
  | cons o rest ih =>
    rcases List.mem_append.mp h with hfirst | hlater
    · rw [drop_effects hfirst]
      exact List.mem_cons_self
    · exact List.mem_cons_of_mem o (ih hlater)

theorem opened_goesTo (h : s.Sound) {customers : List Customer}
    (answered : s.opening request owner = .ok (campaign, customers)) :
    (s.perform (.openCampaign request owner)).GoesTo campaign.id s.state.agenda.nextTicket
      customers := by
  let opened := s.perform (.openCampaign request owner)
  have hsound : opened.Sound := sound_perform h _
  obtain ⟨_, _, hrecipients, _⟩ := opening_ok answered
  obtain ⟨_, now, turn, hholds⟩ := opened_course h answered
  have hspares := fun later => spares_history (issued_opened answered) later
  have hreached := fun later =>
    Simulation.history_run hsound.orderly hholds .start (opened.history later)
  constructor
  · obtain ⟨r, hr, hdispatch⟩ := Option.map_eq_some_iff.mp hholds.found
    exact ⟨r, hr, by rw [hdispatch]; rfl⟩
  · rw [recipients_ok h.calm hrecipients]
    exact Sorted.nodup_keys (h.directory.sublist List.filter_sublist)
  · intro later
    obtain ⟨d, reached⟩ := hreached later
    exact reached.asked_drafts
  · intro later
    obtain ⟨d, reached⟩ := hreached later
    exact reached.asked.exists_left
  · intro later isOpen kept done
    rw [simulation_performAll] at isOpen done
    refine Simulation.asked_of_open hholds (hspares later) ?_ isOpen ?_
    · rintro a ha rfl
      exact kept (drop_history ha)
    · rwa [List.length_map]

/-! ## Openings -/

/-- At every desk the rules and the names of the segments are valid, and a campaign is opened if and
only if its request is complete, the segment belongs to the owner and somebody satisfies its rules.
Otherwise the first of these that does not hold is the answer. The recipients are the customers who
satisfy the rules then: their number is what an estimate would find, and the dispatch asks for each
of them once and for nobody else, whatever happens to the directory meanwhile. -/
theorem campaigns_open_for_members {settings : Settings} {directory : List Customer}
    {now : Instant} {start : Desk}
    (h : Desk.start settings (.ofList directory) now = .ok start) (reached : start.LeadsTo s) :
    (∀ id segment, s.catalog.get? id = some segment → Checked segment) ∧
    ∀ request owner,
      ((∃ campaign t, s.openCampaign request owner = .ok (campaign, t)) ↔
        ∃ segment, s.Accepts request owner segment) ∧
      (∀ e, s.openCampaign request owner = .error e ↔ s.Refuses request owner e) ∧
      ∀ campaign t, s.openCampaign request owner = .ok (campaign, t) →
        ∃ segment, s.Accepts request owner segment ∧ campaign.segmentId = segment.id ∧
          s.estimate segment.rules = .ok campaign.stats.totalRecipients ∧
          t.GoesTo campaign.id s.state.agenda.nextTicket (s.members segment) := by
  have sound : s.Sound := reached.sound (sound_start h)
  have order : s.InOrder := inOrder_comesTo (inOrder_start h) reached.comesTo
  have checked : ∀ id segment, s.catalog.get? id = some segment → Checked segment :=
    fun id segment found => order.checked segment (Sorted.get?_eq_some found).1
  refine ⟨checked, fun request owner => ⟨⟨?_, ?_⟩, fun e => ⟨?_, ?_⟩, ?_⟩⟩
  · rintro ⟨campaign, t, answered⟩
    obtain ⟨customers, hopening, -⟩ := openCampaign_eq_ok.mp answered
    obtain ⟨segment, accepted, -⟩ := accepts_of_opening sound.calm order hopening
    exact ⟨segment, accepted⟩
  · rintro ⟨segment, accepted⟩
    obtain ⟨campaign, hopening, -⟩ := accepted.opening_eq sound.calm order
    exact ⟨campaign, _, openCampaign_eq_ok.mpr ⟨_, hopening, rfl⟩⟩
  · intro answered
    exact refuses_of_opening sound.calm order (openCampaign_eq_error.mp answered)
  · intro refused
    exact openCampaign_eq_error.mpr (refused.opening_eq sound.calm order)
  · intro campaign t answered
    obtain ⟨customers, hopening, rfl⟩ := openCampaign_eq_ok.mp answered
    obtain ⟨segment, accepted, hsegment, rfl⟩ := accepts_of_opening sound.calm order hopening
    obtain ⟨_, _, _, _, _, hstats⟩ := opening_ok hopening
    refine ⟨segment, accepted, hsegment, ?_, opened_goesTo sound hopening⟩
    rw [estimate_eq sound.calm (checked segment.id segment accepted.found).1, hstats]
    rfl

/-- A campaign goes to the one customer who is active when it is opened, though by the end of its
dispatch there are two of them. Somebody else is refused, and so is a request without a name. -/
theorem campaign_opens_for_one_member :
    let customer (id : String) : Customer :=
      ⟨id, "Customer", none, true, .empty, ⟨none, none, none⟩, ⟨none⟩, []⟩
    let settings : Settings := ⟨"node", .default, Sample.settings 1⟩
    let start : Desk :=
      ⟨.start (.ofList [customer "cust-00"]) .default, .ofState (Sample.delivery 1)⟩
    let rules : Segment.RuleSet := ⟨.and, [.make "is_active" "==" (.bool true)]⟩
    let request (name : String) : CampaignRequest := ⟨name, some (.fresh 0), some ⟨"Hi", "Sale"⟩⟩
    let step : Operation := .background (.work (.dispatch 0))
    let s := start.performAll [.defineSegment ⟨"Active", none, rules⟩ "ana"]
    let later := [.put (customer "cust-01"), step, step, step, step]
    Desk.start settings (.ofList [customer "cust-00"]) ⟨0, 0⟩ = .ok start ∧ start.LeadsTo s ∧
      s.Refuses (request " ") "bob" CampaignRequest.missingFields ∧
      s.Refuses (request "First") "bob" (.segmentNotFound (.fresh 0)) ∧
      ∃ segment campaign t, s.openCampaign (request "First") "ana" = .ok (campaign, t) ∧
        s.estimate segment.rules = .ok campaign.stats.totalRecipients ∧
        campaign.stats.totalRecipients = 1 ∧ (t.performAll later).estimate rules = .ok 2 ∧
        ((t.asked 0 later).map MessageRecord.customerId).Perm
          ((s.members segment).map Customer.id) := by
  intro customer settings start rules request step s later
  have hstart : Desk.start settings (.ofList [customer "cust-00"]) ⟨0, 0⟩ = .ok start :=
    Sample.start_desk [customer "cust-00"]
  have hreached : start.LeadsTo s := ⟨_, rfl⟩
  obtain ⟨-, opens⟩ := campaigns_open_for_members hstart hreached
  have hrefused : ∀ name e, ((s.openCampaign (request name) "bob").map fun _ => ()) = .error e →
      s.Refuses (request name) "bob" e := by
    intro name e hanswer
    apply ((opens (request name) "bob").2.1 e).mp
    cases answered : s.openCampaign (request name) "bob" with
    | error cause =>
      rw [answered] at hanswer
      cases hanswer
      rfl
    | ok answer =>
      rw [answered] at hanswer
      cases hanswer
  have htotal : (s.openCampaign (request "First") "ana").map
      (fun answer => (answer.1.id, answer.1.stats.totalRecipients)) = .ok (.fresh 1, 1) := by
    decide +kernel
  refine ⟨hstart, hreached, hrefused _ _ (by decide +kernel), hrefused _ _ (by decide +kernel), ?_⟩
  cases answered : s.openCampaign (request "First") "ana" with
  | error e =>
    rw [answered] at htotal
    cases htotal
  | ok answer =>
    obtain ⟨campaign, t⟩ := answer
    rw [answered] at htotal
    obtain ⟨hid, hone⟩ := Prod.mk.inj (Except.ok.inj htotal)
    obtain ⟨segment, -, -, hestimate, goes⟩ := (opens _ "ana").2.2 campaign t answered
    obtain ⟨_, -, rfl⟩ := openCampaign_eq_ok.mp answered
    have hticket : s.state.agenda.nextTicket = 0 := by decide +kernel
    rw [hid, hticket] at goes
    let u := (s.perform (.openCampaign (request "First") "ana")).performAll later
    have hsound : u.Sound :=
      sound_performAll (sound_perform (hreached.sound (sound_start hstart)) _) later
    have hopen : u.simulation.Open (.fresh 1) :=
      hsound.isOpen (by decide +kernel) (by decide +kernel)
    have hgone : u.simulation.dispatchAt? 0 = none :=
      Option.isNone_iff_eq_none.mp (by decide +kernel)
    have hkept : .background (.drop (.fresh 1)) ∉ later := by simp [later, step]
    have htwo : u.estimate rules = .ok 2 := by decide +kernel
    have hasked := goes.all later hopen hkept (Or.inl hgone)
    exact ⟨segment, campaign, _, rfl, hestimate, hone, htwo, hasked⟩

end Outreach.Desk
