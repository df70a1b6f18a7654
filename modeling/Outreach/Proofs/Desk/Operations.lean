import Outreach.Desk
import Outreach.Proofs.Delivery.Coverage

/-!
# A desk in any order

Between any two things that are done at a desk the deliveries go on in any order, but only the desk
opens campaigns. Seen from the deliveries, a history of the desk is a run of actions: opening a
campaign enters it and begins its dispatch, and work on segments and customers is no action at all.
-/

namespace Outreach

/-- The action is taken only where a desk opens a campaign, or never at a desk. -/
def Action.isReserved : Action → Bool
  | .begin _ _ | .enter _ | .setOutages _ => true
  | _ => false

theorem Action.spares_of_not_isReserved {a : Action} (h : a.isReserved = false)
    (campaign : Uuid) : a.Spares campaign := by
  cases a with
  | begin _ _ => cases h
  | enter _ => cases h
  | setOutages _ => cases h
  | _ => trivial

namespace Desk

inductive Operation
  | put (customer : Customer)
  | defineSegment (request : SegmentRequest) (owner : String)
  | refreshEstimate (id : Uuid)
  | openCampaign (request : CampaignRequest) (owner : String)
  /-- Whatever else goes on in the deliveries. -/
  | background (a : Action)

/-- The desk after a call, which leaves it as it was when it is refused. -/
def after {α : Type} (s : Desk) (call : Answer (α × Desk)) : Desk :=
  match call with
  | .ok (_, t) => t
  | .error _ => s

def perform (s : Desk) : Operation → Desk
  | .put customer => s.put customer
  | .defineSegment request owner => s.after (s.defineSegment request owner)
  | .refreshEstimate id => s.after (s.refreshEstimate id)
  | .openCampaign request owner => s.after (s.openCampaign request owner)
  | .background a =>
    if a.isReserved then s else { s with simulation := s.simulation.act a }

def performAll (s : Desk) (operations : List Operation) : Desk :=
  operations.foldl perform s

@[simp] theorem performAll_cons (s : Desk) (o : Operation) (operations : List Operation) :
    s.performAll (o :: operations) = (s.perform o).performAll operations := rfl

theorem performAll_append (s : Desk) (first later : List Operation) :
    s.performAll (first ++ later) = (s.performAll first).performAll later :=
  List.foldl_append

/-! ## Opening a campaign -/

/-- The campaign that a request opens, and the customers that it goes to. -/
def opening (s : Desk) (request : CampaignRequest) (owner : String) :
    Answer (Campaign × List Customer) := do
  let (segmentId, template) ← request.validate
  let segment ← s.catalog.owned segmentId owner
  segment.rules.validate
  let customers ← s.recipients segment
  return (s.draft s.state.takeId.1 request.name segmentId template owner customers.length,
    customers)

variable {s t : Desk} {request : CampaignRequest} {owner : String} {campaign : Campaign}
  {customers : List Customer}

theorem openCampaign_eq (s : Desk) (request : CampaignRequest) (owner : String) :
    s.openCampaign request owner = (fun opened => (opened.1,
      (s.withState s.state.takeId.2).launch opened.1 opened.2)) <$> s.opening request owner := by
  simp only [openCampaign, opening, map_bind, map_pure]

/-- A new campaign is a draft under a fresh identifier, for all members of a segment
of its owner. -/
theorem opening_ok (h : s.opening request owner = .ok (campaign, customers)) :
    ∃ segment, s.catalog.owned campaign.segmentId owner = .ok segment ∧
      s.recipients segment = .ok customers ∧ campaign.id = .fresh s.state.issued ∧
      campaign.status = .draft ∧ campaign.stats = .ofRecipients customers.length := by
  simp only [opening, Answer.bind_eq_ok] at h
  obtain ⟨_, _, segment, hsegment, _, _, members, hmembers, h⟩ := h
  obtain ⟨rfl, rfl⟩ := Prod.mk.inj (Answer.pure_eq_ok.mp h)
  exact ⟨segment, hsegment, hmembers, rfl, rfl, rfl⟩

/-- Where no call is out of order, the recipients are the members of the segment. -/
theorem recipients_ok {segment : Segment} (calm : s.outages = .none)
    (h : s.recipients segment = .ok customers) :
    customers = s.catalog.directory.select (segment.rules.toPredicate s.now) := by
  have hmembers : s.catalog.members s.outages segment s.now =
      .ok (s.catalog.directory.select (segment.rules.toPredicate s.now)) := by
    rw [calm]
    rfl
  simp only [recipients, Answer.bind_eq_ok] at h
  obtain ⟨members, hfound, h⟩ := h
  rw [hmembers] at hfound
  cases hfound
  split at h
  · exact absurd h Answer.throw_ne_ok
  · exact (Answer.pure_eq_ok.mp h).symm

/-! ## Work on segments -/

theorem defineSegment_ok {form : SegmentRequest} {segment : Segment}
    (h : s.defineSegment form owner = .ok (segment, t)) :
    t.catalog.directory = s.catalog.directory ∧ t.simulation = s.simulation.act .takeId := by
  simp only [defineSegment, Catalog.create, Answer.bind_eq_ok] at h
  obtain ⟨_, ⟨segment, _, hcreated⟩, h⟩ := h
  cases Answer.pure_eq_ok.mp hcreated
  obtain ⟨rfl, rfl⟩ := Prod.mk.inj (Answer.pure_eq_ok.mp h)
  exact ⟨rfl, rfl⟩

theorem refreshEstimate_ok {id : Uuid} {segment : Segment}
    (h : s.refreshEstimate id = .ok (segment, t)) :
    t.catalog.directory = s.catalog.directory ∧ t.simulation = s.simulation := by
  simp only [refreshEstimate, Answer.bind_eq_ok] at h
  obtain ⟨_, hrefreshed, h⟩ := h
  cases Answer.pure_eq_ok.mp h
  rw [Catalog.refreshEstimate] at hrefreshed
  split at hrefreshed
  · cases hrefreshed
  · obtain ⟨count, _, hrefreshed⟩ := Answer.bind_eq_ok.mp hrefreshed
    cases Answer.pure_eq_ok.mp hrefreshed
    exact ⟨rfl, rfl⟩

/-! ## Histories -/

/-- What an operation does to the deliveries. -/
def effects (s : Desk) : Operation → List Action
  | .put _ | .refreshEstimate _ => []
  | .defineSegment request owner =>
    match s.defineSegment request owner with
    | .ok _ => [.takeId]
    | .error _ => []
  | .openCampaign request owner =>
    match s.opening request owner with
    | .ok (campaign, customers) =>
      [.takeId, .enter campaign, .begin campaign.id (customers.map Customer.id)]
    | .error _ => []
  | .background a => if a.isReserved then [] else [a]

/-- What a history of the desk does to the deliveries. -/
def history : Desk → List Operation → List Action
  | _, [] => []
  | s, o :: rest => s.effects o ++ history (s.perform o) rest

/-- The ways in which an operation affects the deliveries. -/
inductive Affected (s : Desk) (o : Operation) : List Action → Prop
  | alone : Affected s o []
  | issued : Affected s o [.takeId]
  | opened (request : CampaignRequest) (owner : String) (step : o = .openCampaign request owner)
      (campaign : Campaign) (customers : List Customer)
      (answered : s.opening request owner = .ok (campaign, customers)) :
      Affected s o [.takeId, .enter campaign, .begin campaign.id (customers.map Customer.id)]
  | background (a : Action) (step : o = .background a) (free : a.isReserved = false) :
      Affected s o [a]

theorem affected (s : Desk) (o : Operation) : s.Affected o (s.effects o) := by
  cases o with
  | put customer => exact .alone
  | defineSegment request owner =>
    simp only [effects]
    split
    · exact .issued
    · exact .alone
  | refreshEstimate id => exact .alone
  | openCampaign request owner =>
    simp only [effects]
    split
    · rename_i campaign customers answered
      exact .opened request owner rfl campaign customers answered
    · exact .alone
  | background a =>
    simp only [effects]
    split
    · exact .alone
    · rename_i free
      exact .background a rfl (by simpa using free)

theorem simulation_perform (s : Desk) (o : Operation) :
    (s.perform o).simulation = s.simulation.run (s.effects o) := by
  cases o with
  | put customer => rfl
  | defineSegment request owner =>
    simp only [perform, effects, after]
    cases h : s.defineSegment request owner with
    | error e => rfl
    | ok answer => exact (defineSegment_ok h).2
  | refreshEstimate id =>
    simp only [perform, effects, after]
    cases h : s.refreshEstimate id with
    | error e => rfl
    | ok answer => exact (refreshEstimate_ok h).2
  | openCampaign request owner =>
    simp only [perform, effects, after, openCampaign_eq]
    cases s.opening request owner with
    | error e => rfl
    | ok opened => rfl
  | background a =>
    simp only [perform, effects]
    split <;> rfl

theorem simulation_performAll (s : Desk) (operations : List Operation) :
    (s.performAll operations).simulation = s.simulation.run (s.history operations) := by
  induction operations generalizing s with
  | nil => rfl
  | cons o rest ih =>
    rw [performAll_cons, ih, simulation_perform, history, Simulation.run_append]

end Desk

end Outreach
