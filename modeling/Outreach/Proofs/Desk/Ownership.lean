import Outreach.Proofs.Desk.Errands
import Outreach.Proofs.Desk.Keeping

/-!
# What is whose

An owner who asks for a segment or a campaign of somebody else is answered as if it did not exist,
and nothing happens. What a desk shows an owner depends on the segments and the campaigns of that
owner alone, since the segment of a campaign belongs to the owner of the campaign. So whatever an
owner asks for, the others are shown the same as before. Only while a deleted campaign's dispatch is
being aborted can something happen to the others, because the background goes on meanwhile.
-/

namespace Outreach.Desk

variable {s t : Desk} {owner other : String}

/-- What belongs to an owner. -/
inductive Belonging
  | segment (id : Uuid)
  | campaign (id : Uuid)

/-- Whose it is, if it exists. -/
def ownerOf? (s : Desk) : Belonging → Option String
  | .segment id => (s.catalog.get? id).map Segment.createdBy
  | .campaign id => (s.state.campaigns.get? id).map Campaign.createdBy

namespace Request

/-- On whose behalf a request is made. Questions about rules and receipts are made on nobody's. -/
def owner? : Request → Option String
  | defineSegment _ owner | openCampaign _ owner | ownedCampaign _ owner | campaignLog _ owner
  | recompute _ owner | removeCampaign _ owner => some owner
  | estimate _ | overview _ | receive _ => none

/-- What a request is about. -/
def about? : Request → Option Belonging
  | openCampaign request _ => request.segmentId.map .segment
  | ownedCampaign id _ | campaignLog id _ | recompute id _ | removeCampaign id _ =>
    some (.campaign id)
  | defineSegment _ _ | estimate _ | overview _ | receive _ => none

end Request

/-! ## Asking for what is not one's own -/

theorem owned_error {id : Uuid} (h : s.ownerOf? (.segment id) ≠ some owner) :
    s.catalog.owned id owner = .error (.segmentNotFound id) := by
  rw [Catalog.owned]
  cases hget : s.catalog.get? id with
  | none => rfl
  | some segment =>
    simp only [ownerOf?, hget, Option.map_some, ne_eq, Option.some.injEq] at h
    exact if_neg h

theorem ownedCampaign_error {id : Uuid} (h : s.ownerOf? (.campaign id) ≠ some owner) :
    s.ownedCampaign id owner = .error (.campaignNotFound id) := by
  rw [ownedCampaign]
  cases hget : s.state.campaigns.get? id with
  | none => rfl
  | some c =>
    simp only [ownerOf?, hget, Option.map_some, ne_eq, Option.some.injEq] at h
    exact if_neg h

/-- What is asked about a campaign of somebody else is answered as if there were none. -/
theorem refused_unless_campaign_owned {r : Request} {id : Uuid} (asks : r.owner? = some owner)
    (about : r.about? = some (.campaign id)) (foreign : s.ownerOf? (.campaign id) ≠ some owner) :
    r.procedure s = (.error (.campaignNotFound id), s) := by
  cases r with
  | estimate _ | overview _ | receive _ | defineSegment _ _ => cases about
  | openCampaign request _ =>
    obtain ⟨_, _, hother⟩ := Option.map_eq_some_iff.mp about
    cases hother
  | ownedCampaign _ _ =>
    cases asks
    cases about
    rw [procedure_eq, serve, ownedCampaign_error foreign]
    rfl
  | campaignLog _ _ =>
    cases asks
    cases about
    rw [procedure_eq, serve, campaignLog, ownedCampaign_error foreign]
    rfl
  | recompute _ _ =>
    cases asks
    cases about
    rw [procedure_eq, serve, recompute, ownedCampaign_error foreign]
    rfl
  | removeCampaign _ _ =>
    cases asks
    cases about
    rw [procedure_eq, serve, removeCampaign, ownedCampaign_error foreign]
    rfl

/-- Whether something is missing or belongs to somebody else, the answer is the same. -/
theorem refused_unless_owned {r : Request} {x : Belonging} (asks : r.owner? = some owner)
    (about : r.about? = some x) :
    ∃ e, ∀ u : Desk, u.ownerOf? x ≠ some owner → r.procedure u = (.error e, u) := by
  cases r with
  | estimate _ | overview _ | receive _ | defineSegment _ _ => cases about
  | openCampaign request _ =>
    cases asks
    obtain ⟨id, hid, rfl⟩ := Option.map_eq_some_iff.mp about
    rcases request.validate_cases with ⟨given, template, complete, hvalid⟩ | ⟨-, hvalid⟩
    · have hgiven := complete.segmentId
      rw [hid, Option.some.injEq] at hgiven
      subst hgiven
      refine ⟨.segmentNotFound id, fun u hu => ?_⟩
      rw [procedure_eq, serve, openCampaign, hvalid]
      change u.settled (u.catalog.owned id owner >>= _) = _
      rw [owned_error hu]
      rfl
    · refine ⟨CampaignRequest.missingFields, fun u _ => ?_⟩
      rw [procedure_eq, serve, openCampaign, hvalid]
      rfl
  | ownedCampaign id _ | campaignLog id _ | recompute id _ | removeCampaign id _ =>
    cases asks
    cases about
    exact ⟨.campaignNotFound id, fun u hu => refused_unless_campaign_owned rfl rfl hu⟩

/-! ## What an owner is shown -/

/-- The answers to the questions of an owner about what is theirs. -/
structure Shown where
  segments : List Segment
  campaigns : List CampaignListing
  campaign : Uuid → Answer Campaign

def shownTo (s : Desk) (owner : String) : Shown :=
  ⟨s.segmentsOf owner, s.campaignsOf owner, fun id => s.ownedCampaign id owner⟩

/-- The segments and the campaigns of an owner, as they are kept. -/
def belongings (s : Desk) (owner : String) : List Segment × List Campaign :=
  (s.catalog.segments.filter fun segment => segment.createdBy == owner,
    s.state.campaigns.campaigns.filter fun c => c.createdBy == owner)

/-- What an owner with certain belongings is shown. -/
def Shown.ofBelongings (belongings : List Segment × List Campaign) : Shown where
  segments := belongings.1.mergeSort fun a b => decide (b.createdAt ≤ a.createdAt)
  campaigns := (belongings.2.mergeSort fun a b => decide (b.createdAt ≤ a.createdAt)).map fun c =>
    let segment := Sorted.get? Segment.id c.segmentId belongings.1
    ⟨c, segment.map Segment.name, segment.map Segment.estimatedCount⟩
  campaign id :=
    match Sorted.get? Campaign.id id belongings.2 with
    | some c => .ok c
    | none => .error (.campaignNotFound id)

/-- The segment of an owner's campaign is among the segments of the owner. -/
theorem InOrder.segment_of (h : s.InOrder) {c : Campaign}
    (present : c ∈ s.state.campaigns.campaigns) :
    ∃ segment, s.catalog.get? c.segmentId = some segment ∧ segment.createdBy = c.createdBy :=
  h.owned c.terms (List.mem_map.mpr ⟨c, present, rfl⟩)

theorem InOrder.get?_belonging (h : s.InOrder) (owner : String) (id : Uuid) :
    Sorted.get? Segment.id id (s.belongings owner).1 =
      (s.catalog.get? id).filter fun segment => segment.createdBy == owner :=
  Sorted.get?_filter (Sorted.nodup_keys h.segments) id _

/-- An owner is shown nothing but what belongs to them. -/
theorem InOrder.shownTo_eq (h : s.InOrder) (owner : String) :
    s.shownTo owner = .ofBelongings (s.belongings owner) := by
  rw [shownTo, Shown.ofBelongings, Shown.mk.injEq]
  refine ⟨rfl, ?_, ?_⟩
  · rw [campaignsOf, CampaignBook.list]
    apply List.map_congr_left
    intro c hc
    obtain ⟨hmem, howner⟩ := List.mem_filter.mp (List.mem_mergeSort.mp hc)
    obtain ⟨segment, hsegment, hsame⟩ := h.segment_of hmem
    have hget : Sorted.get? Segment.id c.segmentId (s.belongings owner).1 = some segment := by
      rw [h.get?_belonging, hsegment, Option.filter_some, hsame, if_pos howner]
    rw [summary, hsegment, hget]
  · funext id
    have hget : Sorted.get? Campaign.id id (s.belongings owner).2 =
        (s.state.campaigns.get? id).filter fun c => c.createdBy == owner :=
      Sorted.get?_filter (Sorted.nodup_keys h.pairwise) id _
    rw [hget, ownedCampaign]
    cases s.state.campaigns.get? id with
    | none => rfl
    | some c =>
      by_cases howner : c.createdBy = owner
      · simp [Option.filter_some, howner]
      · simp [Option.filter_some, howner]

theorem InOrder.shownTo_congr (hs : s.InOrder) (ht : t.InOrder)
    (same : t.belongings owner = s.belongings owner) : t.shownTo owner = s.shownTo owner := by
  rw [ht.shownTo_eq, hs.shownTo_eq, same]

/-! ## What requests change -/

theorem after_eq_settled {α : Type} (s : Desk) (answer : Answer (α × Desk)) :
    (s.settled answer).2 = s.after answer := by
  cases answer with
  | error e => rfl
  | ok answer => rfl

theorem LeadsTo.comesTo (h : s.LeadsTo t) : s.ComesTo t := by
  obtain ⟨operations, rfl⟩ := h
  exact ComesTo.start.performAll operations

theorem ownedCampaign_ok {id : Uuid} {c : Campaign} (h : s.ownedCampaign id owner = .ok c) :
    s.state.campaigns.get? id = some c ∧ c.createdBy = owner := by
  rw [ownedCampaign] at h
  cases hget : s.state.campaigns.get? id with
  | none =>
    rw [hget] at h
    cases h
  | some found =>
    rw [hget] at h
    by_cases hown : found.createdBy = owner
    · simp only [hown, if_true, Except.ok.injEq] at h
      subst h
      exact ⟨rfl, hown⟩
    · simp only [hown, if_false] at h
      cases h

/-- Campaigns that have the terms of an owner's campaign do not belong to anyone else. -/
theorem InOrder.foreign (h : s.InOrder) {id : Uuid} {c b : Campaign}
    (owned : s.ownedCampaign id owner = .ok c) (different : other ≠ owner)
    (later : t.state.campaigns.terms.Sublist s.state.campaigns.terms)
    (present : b ∈ t.state.campaigns.campaigns) (same : b.id = id) :
    (b.createdBy == other) = false := by
  obtain ⟨hget, howner⟩ := ownedCampaign_ok owned
  have hterms : b.terms ∈ s.state.campaigns.terms :=
    later.subset (List.mem_map.mpr ⟨b, present, rfl⟩)
  obtain ⟨a, ha, he⟩ := List.mem_map.mp hterms
  have hid : a.id = id := (congrArg CampaignTerms.id he).trans same
  have hfound := Sorted.get?_of_mem (Sorted.nodup_keys h.pairwise) ha
  rw [hid, ← CampaignBook.get?, hget, Option.some.injEq] at hfound
  have hcreated : b.createdBy = a.createdBy := (congrArg CampaignTerms.createdBy he).symm
  rw [hcreated, ← hfound, howner]
  simpa using different.symm

theorem belongings_define {request : SegmentRequest} {segment : Segment} (h : s.InOrder)
    (answered : s.defineSegment request owner = .ok (segment, t)) (different : other ≠ owner) :
    t.belongings other = s.belongings other := by
  obtain ⟨hsegments, hnew, -, howner⟩ := defineSegment_files answered
  obtain ⟨-, hsimulation⟩ := defineSegment_ok answered
  rw [belongings, belongings, state, hsimulation, hsegments, Sorted.filter_put]
  · rfl
  · simp [howner, different.symm]
  · intro b hb he
    have hissued := h.issued b hb
    rw [he, hnew] at hissued
    exact absurd hissued (Uuid.not_isIssued_fresh _)

theorem belongings_open {request : CampaignRequest} (h : s.InOrder) (different : other ≠ owner) :
    (s.perform (.openCampaign request owner)).belongings other = s.belongings other := by
  simp only [perform, after, openCampaign_eq]
  cases answered : s.opening request owner with
  | error e => rfl
  | ok opened =>
    obtain ⟨campaign, customers⟩ := opened
    obtain ⟨_, _, _, hnew, _⟩ := opening_ok answered
    have hbook : (Sorted.put Campaign.id campaign s.state.campaigns.campaigns).filter
        (fun c => c.createdBy == other) =
          s.state.campaigns.campaigns.filter fun c => c.createdBy == other := by
      refine Sorted.filter_put ?_ ?_
      · simp [opening_createdBy answered, different.symm]
      · intro b hb he
        have hissued := h.numbered b.terms (List.mem_map.mpr ⟨b, hb, rfl⟩)
        rw [show b.terms.id = b.id from rfl, he, hnew] at hissued
        exact absurd hissued (Uuid.not_isIssued_fresh _)
    exact congrArg (Prod.mk (s.catalog.segments.filter fun segment => segment.createdBy == other))
      hbook

theorem recompute_changes {id : Uuid} {stats : CampaignStats}
    (answered : s.recompute id owner = .ok (stats, t)) :
    ∃ c book, s.ownedCampaign id owner = .ok c ∧
      s.state.campaigns.setStats id stats s.now = .ok book ∧
      t = s.withState { s.state with campaigns := book } := by
  simp only [recompute, Answer.bind_eq_ok] at answered
  obtain ⟨c, howned, ⟨_, state⟩, hcounted, answered⟩ := answered
  obtain ⟨rfl, rfl⟩ := Prod.mk.inj (Answer.pure_eq_ok.mp answered)
  obtain ⟨_, book, _, _, hbook, rfl⟩ := DeliveryState.recompute_ok hcounted
  exact ⟨c, book, howned, hbook, rfl⟩

/-- What a recount changes belongs to the owner who asks for it. -/
theorem belongings_recompute {id : Uuid} {stats : CampaignStats} (h : s.InOrder)
    (answered : s.recompute id owner = .ok (stats, t)) (different : other ≠ owner) :
    t.InOrder ∧ t.belongings other = s.belongings other := by
  obtain ⟨c, book, howned, hbook, rfl⟩ := recompute_changes answered
  have hterms : book.terms = s.state.campaigns.terms :=
    CampaignBook.terms_update hbook fun _ => rfl
  constructor
  · exact inOrder_books h (.kept rfl (hterms ▸ List.Sublist.refl _) (Nat.le_refl _))
  · have hcampaigns := CampaignBook.campaigns_update hbook
    have hfilter : book.campaigns.filter (fun c => c.createdBy == other) =
        s.state.campaigns.campaigns.filter fun c => c.createdBy == other := by
      rw [hcampaigns]
      refine Sorted.filter_modify fun b hb he => ?_
      have hforeign := h.foreign howned different (List.Sublist.refl _) hb he
      exact ⟨hforeign, hforeign⟩
    exact congrArg (Prod.mk (s.catalog.segments.filter fun segment => segment.createdBy == other))
      hfilter

/-! ## Deleting a campaign -/

namespace Request

/-- Deleting a campaign waits for the end of its dispatch if one is registered. -/
def awaits (s : Desk) : Request → Bool
  | removeCampaign id owner =>
    (s.ownerOf? (.campaign id) == some owner) && s.simulation.isRegistered id
  | _ => false

end Request

/-- The desk as a request leaves it to the background for that time. The campaign has been cancelled
and its dispatch aborted. -/
def handedOver (s : Desk) : Request → Desk
  | .removeCampaign id _ =>
    { (s.cancelAll id).2 with simulation := (s.cancelAll id).2.simulation.drop id }
  | _ => s

/-- The desk when the background has done what it can in that time. -/
def meanwhile (s : Desk) (r : Request) : Desk :=
  if r.awaits s then (s.handedOver r).settle else s

theorem terms_worksTo {s t : Simulation} (h : s.WorksTo t) :
    t.state.campaigns.terms.Sublist s.state.campaigns.terms := by
  obtain ⟨works, rfl⟩ := h
  induction works generalizing s with
  | nil => exact List.Sublist.refl _
  | cons w rest ih =>
    have hfirst := s.terms_act (a := .work w) (fun c => by rintro ⟨⟩)
    exact ih.trans hfirst

theorem belongings_handedOver (s : Desk) (r : Request) (owner : String) :
    (s.handedOver r).belongings owner = s.belongings owner := by
  cases r with
  | _ => rfl

theorem inOrder_handedOver (h : s.InOrder) (r : Request) : (s.handedOver r).InOrder := by
  cases r with
  | removeCampaign id _ => exact inOrder_books h (.of_same rfl rfl rfl)
  | _ => exact h

theorem orderly_handedOver (o : s.simulation.Orderly) (r : Request) :
    (s.handedOver r).simulation.Orderly := by
  cases r with
  | removeCampaign id _ => exact Simulation.orderly_run o [.cancel id, .drop id]
  | _ => exact o

/-- The background neither enters campaigns nor hands them to another owner. -/
theorem meanwhile_spec (h : s.InOrder) (o : s.simulation.Orderly) (r : Request) :
    (s.meanwhile r).InOrder ∧
      (s.meanwhile r).state.campaigns.terms.Sublist s.state.campaigns.terms := by
  rw [meanwhile]
  split
  · have hworks := (orderly_handedOver o r).worksTo_settle
    constructor
    · exact inOrder_comesTo (inOrder_handedOver h r) (leadsTo_of_worksTo hworks).comesTo
    · have hterms : (s.handedOver r).state.campaigns.terms = s.state.campaigns.terms := by
        cases r with
        | _ => rfl
      rw [← hterms]
      exact terms_worksTo hworks
  · exact ⟨h, List.Sublist.refl _⟩

/-- What is left to do when the background has done what it can while a dispatch is
being aborted. -/
theorem stop_eq (s : Desk) {id : Uuid} {owner : String} (awaits :
      (Request.removeCampaign id owner).awaits s = s.simulation.isRegistered id) :
    let r : Request := .removeCampaign id owner
    let m := s.meanwhile r
    s.stop id =
      ((s.cancelAll id).1 + (if r.awaits s then (m.cancelAll id).1 else 0),
        (m.cancelAll id).2) := by
  have hstop : s.stop id = if s.simulation.isRegistered id then
      let u := (s.handedOver (.removeCampaign id owner)).settle
      ((s.cancelAll id).1 + (u.cancelAll id).1, (u.cancelAll id).2)
    else ((s.cancelAll id).1, (s.cancelAll id).2) := rfl
  intro r m
  simp only [hstop, m, meanwhile, r, awaits]
  split <;> rfl

/-- A campaign is deleted once it has been cancelled again. -/
theorem removeCampaign_eq {id : Uuid} {n : Nat}
    (answered : s.removeCampaign id owner = .ok (n, t)) :
    let r : Request := .removeCampaign id owner
    let m := s.meanwhile r
    (∃ c, s.ownedCampaign id owner = .ok c) ∧ r.awaits s = s.simulation.isRegistered id ∧
      n = (s.cancelAll id).1 + (if r.awaits s then (m.cancelAll id).1 else 0) ∧
      t = { m with simulation := (m.simulation.act (.cancel id)).act (.delete id) } := by
  intro r m
  rw [removeCampaign, Answer.bind_eq_ok] at answered
  obtain ⟨c, howned, answered⟩ := answered
  obtain ⟨hget, howner⟩ := ownedCampaign_ok howned
  have hawaits : r.awaits s = s.simulation.isRegistered id := by
    simp [r, Request.awaits, ownerOf?, hget, howner]
  rw [s.stop_eq hawaits] at answered
  obtain ⟨hn, ht⟩ := Prod.mk.inj (Answer.pure_eq_ok.mp answered)
  exact ⟨⟨c, howned⟩, hawaits, hn.symm, ht.symm⟩

theorem removeCampaign_changes {id : Uuid} {n : Nat}
    (answered : s.removeCampaign id owner = .ok (n, t)) :
    let m := s.meanwhile (.removeCampaign id owner)
    (∃ c, s.ownedCampaign id owner = .ok c) ∧ t.catalog = m.catalog ∧
      t.state.campaigns = (m.state.campaigns.delete id).2 ∧ t.state.issued = m.state.issued := by
  intro m
  obtain ⟨howned, -, -, rfl⟩ := removeCampaign_eq answered
  exact ⟨howned, rfl, rfl, rfl⟩

/-- What is deleted belongs to the owner who deletes it. -/
theorem belongings_remove {id : Uuid} {n : Nat} (h : s.InOrder) (o : s.simulation.Orderly)
    (answered : s.removeCampaign id owner = .ok (n, t)) (different : other ≠ owner) :
    let m := s.meanwhile (.removeCampaign id owner)
    t.InOrder ∧ t.belongings other = m.belongings other := by
  intro m
  obtain ⟨⟨c, howned⟩, hcatalog, hcampaigns, hissued⟩ := removeCampaign_changes answered
  obtain ⟨horder, hterms⟩ := meanwhile_spec h o (.removeCampaign id owner)
  constructor
  · have hsegments := congrArg Catalog.segments hcatalog
    refine inOrder_books horder (.kept hsegments ?_ (Nat.le_of_eq hissued.symm))
    rw [hcampaigns]
    exact m.state.campaigns.terms_delete id
  · rw [belongings, belongings, hcatalog, hcampaigns]
    refine congrArg (Prod.mk _) (Sorted.filter_remove fun b hb he => ?_)
    exact h.foreign howned different hterms hb he

/-! ## Owners apart -/

/-- Whatever an owner asks for, the others are shown what the background has left for them. -/
theorem shownTo_procedure (h : s.InOrder) (o : s.simulation.Orderly) {r : Request}
    (asks : r.owner? = some owner) (different : other ≠ owner) :
    (r.procedure s).2.shownTo other = (s.meanwhile r).shownTo other := by
  cases r with
  | estimate _ | overview _ | receive _ => cases asks
  | ownedCampaign id _ | campaignLog id _ => rfl
  | defineSegment request _ =>
    cases asks
    rw [procedure_eq, after_eq_settled, serve]
    have horder := inOrder_books h (s.books_perform (.defineSegment request owner))
    rw [perform] at horder
    refine h.shownTo_congr horder ?_
    cases answered : s.defineSegment request owner with
    | error e => rfl
    | ok answer => exact belongings_define h answered different
  | openCampaign request _ =>
    cases asks
    rw [procedure_eq, after_eq_settled, serve]
    exact h.shownTo_congr (inOrder_books h (s.books_perform (.openCampaign request owner)))
      (belongings_open h different)
  | recompute id _ =>
    cases asks
    rw [procedure_eq, after_eq_settled, serve]
    cases answered : s.recompute id owner with
    | error e => rfl
    | ok answer =>
      obtain ⟨horder, hsame⟩ := belongings_recompute h answered different
      exact h.shownTo_congr horder hsame
  | removeCampaign id _ =>
    cases asks
    by_cases hown : s.ownerOf? (.campaign id) = some owner
    · rw [procedure_eq, after_eq_settled, serve]
      cases answered : s.removeCampaign id owner with
      | error e =>
        obtain ⟨c, hget, howner⟩ := Option.map_eq_some_iff.mp hown
        have howned : s.ownedCampaign id owner = .ok c := by
          rw [ownedCampaign, hget]
          exact if_pos howner
        rw [removeCampaign, howned] at answered
        cases answered
      | ok answer =>
        obtain ⟨horder, hsame⟩ := belongings_remove h o answered different
        exact (meanwhile_spec h o _).1.shownTo_congr horder hsame
    · have hawaits : (Request.removeCampaign id owner).awaits s = false := by
        simp [Request.awaits, hown]
      rw [procedure_eq, serve, removeCampaign, ownedCampaign_error hown, meanwhile, hawaits]
      rfl

/-- Owners are apart. What belongs to somebody else is answered as if it did not exist, and nothing
changes. A request of an owner shows the others what it has shown them before, except for what the
background does while a dispatch is being aborted. Every campaign is on a segment of its owner, so
an owner's campaigns are listed with the names of the owner's segments. -/
theorem owners_are_apart {settings : Settings} {directory : Directory} {now : Instant}
    {start : Desk} (h : Desk.start settings directory now = .ok start)
    (reached : start.ComesTo s) :
    (∀ (r : Request) owner x other, r.owner? = some owner → r.about? = some x →
      s.ownerOf? x = some other → other ≠ owner →
        ∃ e, r.procedure s = (.error e, s) ∧
          ∀ u : Desk, u.ownerOf? x = none → r.procedure u = (.error e, u)) ∧
    (∀ (r : Request) owner other, r.owner? = some owner → other ≠ owner →
      (s.handedOver r).shownTo other = s.shownTo other ∧
        (r.procedure s).2.shownTo other = (s.meanwhile r).shownTo other) ∧
    (∀ c ∈ s.state.campaigns.campaigns, ∃ segment,
      s.catalog.get? c.segmentId = some segment ∧ segment.createdBy = c.createdBy) ∧
    ∀ owner, ∀ listing ∈ s.campaignsOf owner, ∃ segment ∈ s.segmentsOf owner,
      segment.id = listing.campaign.segmentId ∧ listing.segmentName = some segment.name ∧
        listing.segmentEstimatedCount = some segment.estimatedCount := by
  have horder : s.InOrder := inOrder_comesTo (inOrder_start h) reached
  have ho : s.simulation.Orderly := reached.orderly (orderly_start h)
  refine ⟨?_, ?_, fun c hc => horder.segment_of hc, ?_⟩
  · intro r owner x other asks about owned different
    obtain ⟨e, refused⟩ := refused_unless_owned asks about
    refine ⟨e, refused s ?_, fun u missing => refused u ?_⟩
    · rw [owned]
      simpa using different
    · rw [missing]
      simp
  · intro r owner other asks different
    refine ⟨?_, shownTo_procedure horder ho asks different⟩
    exact horder.shownTo_congr (inOrder_handedOver horder r) (s.belongings_handedOver r other)
  · intro owner listing hlisting
    obtain ⟨c, hc, rfl⟩ := List.mem_map.mp hlisting
    obtain ⟨hmem, howner⟩ := List.mem_filter.mp (List.mem_mergeSort.mp hc)
    obtain ⟨segment, hsegment, hsame⟩ := horder.segment_of hmem
    obtain ⟨hin, hid⟩ := Sorted.get?_eq_some hsegment
    refine ⟨segment, ?_, hid, ?_, ?_⟩
    · refine List.mem_mergeSort.mpr (List.mem_filter.mpr ⟨hin, ?_⟩)
      rw [hsame]
      exact howner
    · rw [summary, hsegment]
      rfl
    · rw [summary, hsegment]
      rfl

/-- One owner cannot open a campaign on a segment of the other, and is shown their own campaign with
its segment while the other deletes a campaign that is being dispatched. -/
theorem two_owners_are_apart :
    let customer : Customer :=
      ⟨"cust-00", "Customer 0", none, true, .empty, ⟨none, none, none⟩, ⟨none⟩, []⟩
    let settings : Settings := ⟨"node", .default, Sample.settings 1⟩
    let start : Desk := ⟨.start (.ofList [customer]) .default, .ofState (Sample.delivery 1)⟩
    let segment (name : String) : SegmentRequest :=
      ⟨name, none, .and, [.make "is_active" "==" (.bool true)]⟩
    let campaign (segment : Nat) : CampaignRequest :=
      ⟨"Sale", some (.fresh segment), some ⟨"Hi", "Sale"⟩⟩
    let s := start.performAll [.defineSegment (segment "Hers") "ana",
      .defineSegment (segment "His") "bob", .openCampaign (campaign 0) "ana",
      .openCampaign (campaign 1) "bob"]
    let deletion : Request := .removeCampaign (.fresh 2) "ana"
    Desk.start settings (.ofList [customer]) ⟨0, 0⟩ = .ok start ∧ start.ComesTo s ∧
      s.ownerOf? (.segment (.fresh 0)) = some "ana" ∧
      (Request.openCampaign (campaign 0) "bob").procedure s =
        (.error (.segmentNotFound (.fresh 0)), s) ∧
      deletion.awaits s = true ∧
      (deletion.procedure s).2.shownTo "bob" = (s.meanwhile deletion).shownTo "bob" ∧
      (s.campaignsOf "bob").map CampaignListing.segmentName = [some "His"] ∧
      ∀ listing ∈ s.campaignsOf "bob", ∃ segment ∈ s.segmentsOf "bob",
        listing.segmentName = some segment.name := by
  intro customer settings start segment campaign s deletion
  have hstart : Desk.start settings (.ofList [customer]) ⟨0, 0⟩ = .ok start :=
    Sample.start_desk [customer]
  have hreached : start.ComesTo s := ComesTo.start.performAll _
  obtain ⟨refused, unchanged, -, listed⟩ := owners_are_apart hstart hreached
  have howner : s.ownerOf? (.segment (.fresh 0)) = some "ana" := by decide +kernel
  have hanswer : (Procedure.openCampaign (campaign 0) "bob" s).1 =
      .error (.segmentNotFound (.fresh 0)) := by decide +kernel
  obtain ⟨e, hrefused, -⟩ := refused (.openCampaign (campaign 0) "bob") "bob" _ "ana" rfl rfl howner
    (by decide)
  have hsame : e = .segmentNotFound (.fresh 0) :=
    Except.error.inj ((congrArg Prod.fst hrefused).symm.trans hanswer)
  obtain ⟨-, hshown⟩ := unchanged deletion "ana" "bob" rfl (by decide)
  rw [hsame] at hrefused
  refine ⟨hstart, hreached, howner, hrefused, by decide +kernel, hshown, by decide +kernel, ?_⟩
  intro listing hlisting
  obtain ⟨found, hfound, -, hname, -⟩ := listed "bob" listing hlisting
  exact ⟨found, hfound, hname⟩

end Outreach.Desk
