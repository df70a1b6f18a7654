import Outreach.Proofs.Delivery.Cancellation
import Outreach.Proofs.Delivery.Supersession
import Outreach.Proofs.Desk.Ownership
import Outreach.Proofs.Desk.Recounts

/-!
# Deleted campaigns

A campaign that has been deleted is refused to everybody and listed for nobody, and nothing brings
it back: every change of the book is a change of a campaign that is there, the agenda stays closed
to a cancelled campaign, and no second dispatch of it is begun. Its records stay, and only receipts
move them. A dispatch that has been struck off the register before is not aborted with the others.
If it is about to begin, it finds nothing to send, and a batch that it is in the midst of goes on.
Where the books answer at once a dispatch is never found in the midst of a batch, and then no record
of the campaign is created any more.
-/

namespace Outreach

/-! ## What is left of a campaign in the deliveries -/

namespace Simulation

variable {s t : Simulation} {campaign : Uuid} {a : Action}

/-- Only its entry brings a campaign into the book. -/
theorem missing_act (leaves : a.Leaves campaign)
    (missing : s.state.campaigns.get? campaign = none) :
    (s.act a).state.campaigns.get? campaign = none := by
  cases hget : (s.act a).state.campaigns.get? campaign with
  | none => rfl
  | some c =>
    have hsome : ((s.act a).state.campaigns.get? campaign).isSome := by
      rw [hget]
      rfl
    by_cases hspares : a.Spares campaign
    · have hpresent := (standing_act s hspares).present hsome
      rw [missing] at hpresent
      cases hpresent
    · cases a with
      | setOutages outages => exact hget.symm.trans missing
      | _ => exact absurd leaves hspares

/-- Only a dispatch that begins is registered. -/
theorem unregistered_act (leaves : a.Leaves campaign)
    (h : ∀ r ∈ s.running, r.dispatch.campaign = campaign → r.registered = false) :
    ∀ r ∈ (s.act a).running, r.dispatch.campaign = campaign → r.registered = false := by
  intro r hr hcampaign
  have before : ∀ q ∈ s.running, q.dispatch.campaign = campaign →
      (r.registered = true → q.registered = true) → r.registered = false := by
    intro q hq hown registered
    by_contra hyes
    have hregistered := registered (by simpa using hyes)
    rw [h q hq hown] at hregistered
    cases hregistered
  cases traced_act hr with
  | begun other recipients by_action _ dispatch =>
    rw [by_action] at leaves
    rw [dispatch] at hcampaign
    exact absurd hcampaign leaves
  | same q present _ registered dispatch =>
    exact before q present (dispatch ▸ hcampaign) registered
  | rearranged q present _ registered untried tried dispatch =>
    rw [dispatch, Dispatch.campaign_rearrange] at hcampaign
    exact before q present hcampaign registered
  | stepped q present _ registered _ step =>
    exact before q (dispatchAt?_eq_some present).1 (step.campaign.symm.trans hcampaign) registered

/-- Whatever is done, a record that no walk is pending for changes only by a receipt. -/
theorem get?_act_of_unwalked (o : s.Orderly) {r : MessageRecord}
    (hr : r ∈ s.state.records.records)
    (unwalked : ∀ e ∈ s.state.agenda.pending, e.record ≠ r.id) (a : Action) :
    (s.act a).state.records.get? r.id = some r ∨ s.Supersedes r.id a := by
  have hget := o.get?_of_mem hr
  have unchanged : ∀ {t : Simulation}, s.act a = t →
      t.state.records.get? r.id = s.state.records.get? r.id →
        (s.act a).state.records.get? r.id = some r ∨ s.Supersedes r.id a := by
    intro t state hsame
    rw [state, hsame]
    exact Or.inl hget
  cases s.acted a with
  | walked e present _ step state =>
    have hother := unwalked e (walkAt?_eq_some present).1
    exact unchanged state (step.get?_of_ne hother.symm)
  | stepped d present _ step state =>
    refine unchanged state ?_
    rcases step.records with hsame | ⟨m, hm, hcreate⟩
    · exact congrArg (RecordBook.get? · r.id) hsame
    · exact RecordBook.get?_create_of_ne hcreate (o.untried_ne (dispatchAt?_eq_some present).1
        (RecordBook.mem_ids_of_get? hget) hm)
  | delivered receipt record outcome u answered by_action state =>
    rcases DeliveryState.get?_deliver answered r.id with hsame | ⟨hid, rfl⟩
    · exact unchanged state hsame
    · right
      rcases by_action with rfl | ⟨rfl, hfound, hreceived⟩
      · exact ⟨hid, u, answered⟩
      · exact ⟨record, u, hfound, hid, hreceived⟩
  | idle _ state | rearranged _ _ _ _ _ state | moved _ _ _ state | begun _ _ _ state
  | recounted _ _ _ _ _ _ state | cancelled _ _ state | aborted _ _ state
  | unregistered _ _ state | dropped _ _ state | disturbed _ _ state | issued _ state
  | entered _ _ state | deleted _ _ state => exact unchanged state rfl

/-- How things stand after the dispatch of a cancelled campaign was aborted. -/
structure Aborted (s : Simulation) (campaign : Uuid) (t : Simulation) : Prop where
  orderly : t.Orderly
  filed : t.Filed
  ceased : s.Ceased campaign t
  unregistered : ∀ r ∈ t.running, r.dispatch.campaign = campaign → r.registered = false

theorem aborted_act (h : s.Aborted campaign t) (leaves : a.Leaves campaign) :
    s.Aborted campaign (t.act a) where
  orderly := orderly_act h.orderly a
  filed := filed_act h.orderly h.filed a
  ceased := ceased_act h.orderly h.ceased a
  unregistered := unregistered_act leaves h.unregistered

theorem aborted_run (h : s.Aborted campaign t) {actions : List Action}
    (leaves : ∀ a ∈ actions, a.Leaves campaign) : s.Aborted campaign (t.run actions) := by
  induction actions generalizing t with
  | nil => exact h
  | cons a rest ih =>
    exact ih (aborted_act h (leaves a List.mem_cons_self)) fun b hb =>
      leaves b (List.mem_cons_of_mem a hb)

/-- How things stand after such a campaign was deleted. -/
structure Buried (s : Simulation) (campaign : Uuid) (t : Simulation) : Prop
    extends s.Aborted campaign t where
  missing : t.state.campaigns.get? campaign = none

theorem buried_run (h : s.Buried campaign t) {actions : List Action}
    (leaves : ∀ a ∈ actions, a.Leaves campaign) : s.Buried campaign (t.run actions) := by
  induction actions generalizing t with
  | nil => exact h
  | cons a rest ih =>
    have hfirst := leaves a List.mem_cons_self
    exact ih ⟨aborted_act h.toAborted hfirst, missing_act hfirst h.missing⟩ fun b hb =>
      leaves b (List.mem_cons_of_mem a hb)

/-- Whoever cancels a campaign and aborts its dispatch leaves nothing of it that is registered. -/
theorem aborted_drop (o : s.Orderly) (filed : s.Filed) (campaign : Uuid) :
    let stopped := s.run [.cancel campaign, .drop campaign]
    stopped.Aborted campaign stopped := by
  intro stopped
  constructor
  · exact orderly_run o _
  · exact filed_run o filed _
  · exact ceased_of_closed (Agenda.closed_cancelAll s.state.agenda campaign)
  · intro r hr hcampaign
    have hkept := (List.mem_filter.mp hr).2
    simpa [hcampaign] using hkept

theorem drop_of_not_isRegistered (h : s.isRegistered campaign = false) : s.drop campaign = s := by
  have hkept : s.running.filter
      (fun r => !(r.registered && r.dispatch.campaign == campaign)) = s.running := by
    rw [List.filter_eq_self]
    intro r hr
    have hnone := List.any_eq_false.mp h r hr
    cases hand : r.registered && r.dispatch.campaign == campaign with
    | false => rfl
    | true => exact absurd hand hnone
  rw [drop, hkept]

/-- No dispatch has begun yet. -/
def Unbroken (s : Simulation) : Prop :=
  ∀ r ∈ s.running, ∃ recipients, r.dispatch.phase = .starting recipients

theorem unbroken_act (h : s.Unbroken) (apart : ∀ ticket, a ≠ .work (.dispatch ticket)) :
    (s.act a).Unbroken := by
  intro r hr
  cases traced_act hr with
  | begun _ recipients _ _ dispatch => exact ⟨recipients, by rw [dispatch]; rfl⟩
  | same q present _ _ dispatch =>
    rw [dispatch]
    exact h q present
  | rearranged q present _ _ untried tried dispatch =>
    obtain ⟨recipients, hstarting⟩ := h q present
    refine ⟨recipients, ?_⟩
    rcases q.dispatch.rearrange_cases untried tried with he | ⟨_, _, _, _, _, _, _, hp, _⟩
    · rw [dispatch, he]
      exact hstarting
    · rw [hstarting] at hp
      cases hp
  | stepped q _ _ _ by_action _ => exact absurd by_action (apart q.ticket)

end Simulation

/-- The work is done on the dispatch with a ticket. -/
def Work.isOf (ticket : Nat) : Work → Bool
  | .dispatch t | .rearrange t _ _ => t == ticket
  | _ => false

namespace Simulation

variable {s t : Simulation} {campaign : Uuid} {a : Action} {ticket : Nat}

theorem mem_running_work {w : Work} (own : w.isOf ticket = true) {r : RunningDispatch}
    (hr : r ∈ (s.act (.work w)).running) (other : r.ticket ≠ ticket) : r ∈ s.running := by
  cases s.acted (.work w) with
  | idle _ state => rwa [state] at hr
  | walked e _ by_action _ _ =>
    cases by_action
    cases own
  | moved time _ by_action _ =>
    cases by_action
    cases own
  | stepped q _ by_action _ state =>
    cases by_action
    rw [state] at hr
    rcases mem_replace hr with rfl | ⟨hold, _⟩
    · exact absurd (by simpa [Work.isOf] using own) other
    · exact hold
  | rearranged q _ untried tried by_action state =>
    cases by_action
    rw [state] at hr
    rcases mem_replace hr with rfl | ⟨hold, _⟩
    · exact absurd (by simpa [Work.isOf] using own) other
    · exact hold
  | begun _ _ by_action _ | delivered _ _ _ _ _ by_action _ | recounted _ _ _ _ _ by_action _
  | cancelled _ by_action _ | aborted _ by_action _ | unregistered _ by_action _
  | dropped _ by_action _ | disturbed _ by_action _ | issued by_action _ | entered _ by_action _
  | deleted _ by_action _ => simp at by_action

/-- A dispatch that goes on to its end leaves the others as they were. -/
theorem unbroken_dispatch (h : s.Unbroken) {works : List Work}
    (own : ∀ w ∈ works, w.isOf ticket = true)
    (ended : (s.run (works.map .work)).dispatchAt? ticket = none) :
    (s.run (works.map .work)).Unbroken := by
  have hold : ∀ r ∈ (s.run (works.map .work)).running, r.ticket ≠ ticket → r ∈ s.running := by
    clear h ended
    induction works generalizing s with
    | nil => exact fun r hr _ => hr
    | cons w rest ih =>
      intro r hr hother
      have hfirst := ih (fun v hv => own v (List.mem_cons_of_mem w hv)) r hr hother
      exact mem_running_work (own w List.mem_cons_self) hfirst hother
  intro r hr
  refine h r (hold r hr ?_)
  rw [dispatchAt?, List.find?_eq_none] at ended
  simpa using ended r hr

end Simulation

namespace Desk

variable {s t u start : Desk} {id : Uuid} {owner : String} {k : Nat}

/-! ## What a deletion leaves alone -/

/-- The desks differ at most in one campaign, its walks and its dispatches. -/
structure DiffersIn (s : Desk) (id : Uuid) (t : Desk) : Prop where
  catalog : t.catalog = s.catalog
  state : t.state = { s.state with campaigns := t.state.campaigns, agenda := t.state.agenda }
  campaigns : ∀ other, other ≠ id →
    t.state.campaigns.get? other = s.state.campaigns.get? other
  refuses : ∀ other, other ≠ id → t.state.agenda.refuses other = s.state.agenda.refuses other
  walks : t.state.agenda.pending.filter (fun e => e.campaign != id) =
    s.state.agenda.pending.filter fun e => e.campaign != id
  dispatches : t.simulation.running.filter (fun r => r.dispatch.campaign != id) =
    s.simulation.running.filter fun r => r.dispatch.campaign != id

theorem DiffersIn.trans (h : s.DiffersIn id t) (later : t.DiffersIn id u) : s.DiffersIn id u where
  catalog := later.catalog.trans h.catalog
  state := by rw [later.state, h.state]
  campaigns other hother := (later.campaigns other hother).trans (h.campaigns other hother)
  refuses other hother := (later.refuses other hother).trans (h.refuses other hother)
  walks := later.walks.trans h.walks
  dispatches := later.dispatches.trans h.dispatches

theorem differsIn_cancel (o : s.simulation.Orderly) (id : Uuid) :
    s.DiffersIn id { s with simulation := s.simulation.act (.cancel id) } := by
  refine ⟨rfl, ?_, fun _ _ => rfl, ?_, ?_, rfl⟩
  · simp only [state, Simulation.act, Simulation.withState, DeliveryState.cancelAll,
      Agenda.cancelAll_snd]
  · intro other hother
    simp [state, Simulation.act, Simulation.withState, DeliveryState.cancelAll,
      Agenda.cancelAll_snd, Agenda.refuses, hother]
  · exact (congrArg _ (o.pending_cancel id)).trans (by simp [state])

theorem differsIn_drop (s : Desk) (id : Uuid) :
    s.DiffersIn id { s with simulation := s.simulation.act (.drop id) } := by
  refine ⟨rfl, rfl, fun _ _ => rfl, fun _ _ => rfl, rfl, ?_⟩
  simp only [Simulation.act, Simulation.drop, List.filter_filter]
  apply List.filter_congr
  intro r _
  by_cases hcampaign : r.dispatch.campaign = id
  · simp [hcampaign]
  · simp [hcampaign]

theorem differsIn_delete (s : Desk) (id : Uuid) :
    s.DiffersIn id { s with simulation := s.simulation.act (.delete id) } := by
  refine ⟨rfl, rfl, ?_, fun _ _ => rfl, rfl, rfl⟩
  intro other hother
  exact (CampaignBook.get?_delete _ id other).trans (if_neg hother)

/-! ## Dispatches that are never found under way -/

/-- The operation is not one step of a dispatch alone. -/
def Operation.isWhole : Operation → Bool
  | .background (.work (.dispatch _)) | .background (.work (.rearrange _ _ _)) => false
  | _ => true

/-- Operations bring one desk to the other where the books answer at once. There a dispatch that has
taken a step goes on to its end before anything else is done. -/
inductive RunsTo (start : Desk) : Desk → Prop
  | start : RunsTo start start
  | perform {s : Desk} (reached : RunsTo start s) (o : Operation) (whole : o.isWhole = true) :
      RunsTo start (s.perform o)
  | dispatch {s : Desk} (reached : RunsTo start s) (ticket : Nat) (works : List Work)
      (own : ∀ w ∈ works, w.isOf ticket = true)
      (ended : (s.simulation.run (works.map .work)).dispatchAt? ticket = none) :
      RunsTo start { s with simulation := s.simulation.run (works.map .work) }
  | setOutages {s : Desk} (reached : RunsTo start s) (outages : Outages) :
      RunsTo start (s.setOutages outages)

theorem RunsTo.performAll (reached : start.RunsTo s) (operations : List Operation)
    (whole : ∀ o ∈ operations, o.isWhole = true) : start.RunsTo (s.performAll operations) := by
  induction operations generalizing s with
  | nil => exact reached
  | cons o rest ih =>
    have hfirst := reached.perform o (whole o List.mem_cons_self)
    exact ih hfirst fun later hlater => whole later (List.mem_cons_of_mem o hlater)

theorem RunsTo.unbroken (reached : start.RunsTo s) (h : start.simulation.Unbroken) :
    s.simulation.Unbroken := by
  induction reached with
  | start => exact h
  | @perform s _ o whole ih =>
    rw [simulation_perform]
    have haffected := s.affected o
    generalize s.effects o = actions at haffected
    cases haffected with
    | alone => exact ih
    | issued => exact Simulation.unbroken_act (a := .takeId) ih nofun
    | opened _ _ _ campaign customers _ =>
      have hissued := Simulation.unbroken_act (a := .takeId) ih nofun
      have hentered := Simulation.unbroken_act (a := .enter campaign) hissued nofun
      exact Simulation.unbroken_act (a := .begin _ _) hentered nofun
    | background a step _ =>
      refine Simulation.unbroken_act ih fun ticket he => ?_
      rw [step, he] at whole
      cases whole
  | dispatch _ ticket works own ended ih => exact Simulation.unbroken_dispatch ih own ended
  | setOutages _ outages ih => exact ih

theorem RunsTo.comesTo (reached : start.RunsTo s) : start.ComesTo s := by
  induction reached with
  | start => exact .start
  | perform _ o _ ih => exact ih.perform o
  | @dispatch s _ ticket works _ _ ih =>
    obtain ⟨operations, hoperations⟩ := leadsTo_of_worksTo (s := s) ⟨works, rfl⟩
    rw [hoperations]
    exact ih.performAll operations
  | setOutages _ outages ih => exact ih.setOutages outages

/-! ## After a deletion -/

/-- What is left of a campaign some time after a desk has deleted it. -/
structure HasDeleted (s : Desk) (id : Uuid) (u : Desk) : Prop where
  refused : ∀ (r : Request) owner, r.owner? = some owner → r.about? = some (.campaign id) →
    r.procedure u = (.error (.campaignNotFound id), u)
  unlisted : ∀ owner, ∀ listing ∈ u.campaignsOf owner, listing.campaign.id ≠ id
  unregistered : u.simulation.isRegistered id = false
  unwalked : u.state.agenda.countFor id = 0
  /-- Its records are those from before, and those of a batch that was in flight then, of a dispatch
  that was not registered any more. -/
  records : ∀ r ∈ u.state.records.records, r.campaignId = id →
    r.origin ∈ s.state.records.origins ∨ ∃ q ∈ s.simulation.running,
      q.registered = false ∧ q.dispatch.campaign = id ∧ r.origin ∈ q.dispatch.untried
  /-- Only a receipt that is applied changes one of them. -/
  moved : ∀ r ∈ u.state.records.records, r.campaignId = id → ∀ o,
    (u.perform o).state.records.get? r.id = some r ∨
      ∃ a, o = .background a ∧ u.simulation.Supersedes r.id a

theorem moved_perform {s₁ : Simulation} (h : s₁.Buried id u.simulation) {r : MessageRecord}
    (hr : r ∈ u.state.records.records) (hcampaign : r.campaignId = id) (o : Operation) :
    (u.perform o).state.records.get? r.id = some r ∨
      ∃ a, o = .background a ∧ u.simulation.Supersedes r.id a := by
  have hsimulation := u.simulation_perform o
  have haffected := u.affected o
  generalize u.effects o = actions at hsimulation haffected
  have hget := h.orderly.get?_of_mem hr
  rw [state, hsimulation]
  cases haffected with
  | alone | issued | opened => exact Or.inl hget
  | background a step _ =>
    have hunwalked : ∀ e ∈ u.simulation.state.agenda.pending, e.record ≠ r.id := by
      intro e he hsame
      refine h.ceased.closed.clear e he ?_
      exact (h.filed.campaign_eq h.orderly he hr hsame).trans hcampaign
    rcases Simulation.get?_act_of_unwalked h.orderly hr hunwalked a with hkept | hreceipt
    · exact Or.inl hkept
    · exact Or.inr ⟨a, step, hreceipt⟩

theorem hasDeleted_of_buried
    (h : (s.simulation.run [.cancel id, .drop id]).Buried id u.simulation) :
    s.HasDeleted id u := by
  constructor
  · intro r owner asks about
    refine refused_unless_campaign_owned asks about ?_
    rw [ownerOf?, state, h.missing]
    rintro ⟨⟩
  · intro owner listing hlisting he
    obtain ⟨c, hc, rfl⟩ := List.mem_map.mp hlisting
    obtain ⟨hmem, -⟩ := List.mem_filter.mp (List.mem_mergeSort.mp hc)
    exact Sorted.get?_eq_none.mp h.missing c hmem he
  · rw [Simulation.isRegistered, List.any_eq_false]
    intro r hr hboth
    rw [Bool.and_eq_true, beq_iff_eq] at hboth
    rw [h.unregistered r hr hboth.2] at hboth
    cases hboth.1
  · exact h.ceased.closed.countFor
  · intro r hr hcampaign
    have horigin : r.origin ∈ u.simulation.state.records.origins := List.mem_map.mpr ⟨r, hr, rfl⟩
    rcases h.ceased.origins r.origin horigin hcampaign with hold | ⟨q, hq, hown, huntried⟩
    · exact Or.inl hold
    · obtain ⟨hmem, hkept⟩ := List.mem_filter.mp hq
      exact Or.inr ⟨q, hmem, by simpa [hown] using hkept, hown, huntried⟩
  · exact fun r hr hcampaign o => moved_perform h hr hcampaign o

/-! ## The deletion -/

/-- Whatever is done at a desk, the deliveries go on with actions, and none of them enters or
dispatches a campaign that the desk has opened before. -/
theorem ComesTo.run (reached : s.ComesTo t) :
    s.state.issued ≤ t.state.issued ∧ ∃ actions, t.simulation = s.simulation.run actions ∧
      ∀ id : Uuid, id.IsIssued s.state.issued → ∀ a ∈ actions, a.Leaves id := by
  induction reached with
  | start =>
    refine ⟨Nat.le_refl _, [], rfl, ?_⟩
    rintro id _ a ⟨⟩
  | @perform t _ o ih =>
    obtain ⟨hissued, actions, hrun, leaves⟩ := ih
    refine ⟨Nat.le_trans hissued (t.issued_perform o), actions ++ t.effects o, ?_, ?_⟩
    · rw [simulation_perform, hrun, Simulation.run_append]
    · intro id known a ha
      rcases List.mem_append.mp ha with hbefore | hlast
      · exact leaves id known a hbefore
      · exact Action.leaves_of_spares (spares_effects (known.mono hissued) o a hlast)
  | @setOutages t _ outages ih =>
    obtain ⟨hissued, actions, hrun, leaves⟩ := ih
    refine ⟨hissued, actions ++ [.setOutages outages], ?_, ?_⟩
    · rw [Simulation.run_append, ← hrun]
      rfl
    · intro id known a ha
      rcases List.mem_append.mp ha with hbefore | hlast
      · exact leaves id known a hbefore
      · rw [List.mem_singleton.mp hlast]
        trivial

/-- The desk may have come to another before it takes a campaign out of its book. If it has to wait
for the end of a dispatch, anything may be done meanwhile. -/
def Yields (s : Desk) (r : Request) (m : Desk) : Prop :=
  if r.awaits s then (s.handedOver r).ComesTo m else m = s

/-- The desk without a campaign, which has been cancelled once more. -/
def without (m : Desk) (id : Uuid) : Desk :=
  { m with simulation := (m.simulation.act (.cancel id)).act (.delete id) }

theorem differsIn_handedOver (o : s.simulation.Orderly) (id : Uuid) (owner : String) :
    s.DiffersIn id (s.handedOver (.removeCampaign id owner)) :=
  (differsIn_cancel o id).trans (differsIn_drop _ id)

theorem differsIn_without (o : s.simulation.Orderly) (id : Uuid) : s.DiffersIn id (s.without id) :=
  (differsIn_cancel o id).trans (differsIn_delete _ id)

theorem yields_meanwhile (o : s.simulation.Orderly) (r : Request) : s.Yields r (s.meanwhile r) := by
  rw [Yields, meanwhile]
  split
  · exact (leadsTo_of_worksTo (orderly_handedOver o r).worksTo_settle).comesTo
  · rfl

variable {m : Desk}

theorem Yields.orderly (o : s.simulation.Orderly) {r : Request} (yields : s.Yields r m) :
    m.simulation.Orderly := by
  rw [Yields] at yields
  split at yields
  · exact yields.orderly (orderly_handedOver o r)
  · rwa [yields]

/-- While a dispatch is being aborted, nothing of its campaign is begun. -/
theorem aborted_handedOver (o : s.simulation.Orderly) (filed : s.simulation.Filed)
    (issued : id.IsIssued s.state.issued)
    (reached : (s.handedOver (.removeCampaign id owner)).ComesTo m) :
    (s.simulation.run [.cancel id, .drop id]).Aborted id m.simulation ∧
      s.state.issued ≤ m.state.issued := by
  obtain ⟨hissued, actions, hrun, leaves⟩ := reached.run
  rw [hrun]
  have hstopped := Simulation.aborted_drop o filed id
  exact ⟨Simulation.aborted_run hstopped (leaves id issued), hissued⟩

theorem buried_without (o : s.simulation.Orderly) (filed : s.simulation.Filed)
    (issued : id.IsIssued s.state.issued) {r : Request} (removes : r = .removeCampaign id owner)
    (awaits : r.awaits s = s.simulation.isRegistered id) (yields : s.Yields r m) :
    (s.simulation.run [.cancel id, .drop id]).Buried id (m.without id).simulation ∧
      s.state.issued ≤ m.state.issued := by
  subst removes
  have hcancelled : (s.simulation.run [.cancel id, .drop id]).Aborted id
      (m.simulation.act (.cancel id)) ∧ s.state.issued ≤ m.state.issued := by
    rw [Yields] at yields
    split at yields
    · obtain ⟨haborted, hissued⟩ := aborted_handedOver o filed issued yields
      exact ⟨Simulation.aborted_act haborted trivial, hissued⟩
    · rename_i at_once
      rw [awaits, Bool.not_eq_true] at at_once
      -- Without a registered dispatch there is nothing to abort.
      have hdropped : s.simulation.run [.cancel id, .drop id] = s.simulation.act (.cancel id) :=
        Simulation.drop_of_not_isRegistered at_once
      have hstopped := Simulation.aborted_drop o filed id
      rw [hdropped] at hstopped
      rw [yields, hdropped]
      exact ⟨hstopped, Nat.le_refl _⟩
  have hlast : (Action.delete id).Leaves id := trivial
  refine ⟨⟨Simulation.aborted_act hcancelled.1 hlast, ?_⟩, hcancelled.2⟩
  exact (CampaignBook.get?_delete _ id id).trans (if_pos rfl)

/-- The deletion of a campaign is final. The answer tells how many of its walks were pending, and
nothing of other campaigns has changed. If a dispatch has to be aborted, whatever is done meanwhile,
there are no more walks of the campaign to count at its end. Whatever is done after the deletion,
the campaign is gone, its records are those from before and from batches that were in flight, and
only receipts move them. Where the books answer at once, no batch can be in flight. -/
theorem deletion_is_final {settings : Settings} {directory : Directory} {now : Instant}
    (h : Desk.start settings directory now = .ok start) (reached : start.ComesTo s)
    (answered : s.removeCampaign id owner = .ok (k, t)) :
    let r : Request := .removeCampaign id owner
    k = s.state.agenda.countFor id ∧
      s.DiffersIn id (s.handedOver r) ∧ s.Yields r (s.meanwhile r) ∧
      t = (s.meanwhile r).without id ∧
      ∀ m, s.Yields r m → m.DiffersIn id (m.without id) ∧
        (r.awaits s = true → m.state.agenda.countFor id = 0) ∧
        ∀ u, (m.without id).ComesTo u → s.HasDeleted id u ∧
          (start.RunsTo s → ∀ x ∈ u.state.records.records, x.campaignId = id →
            x.origin ∈ s.state.records.origins) := by
  intro r
  obtain ⟨⟨c, howned⟩, hawaits, hk, ht⟩ := removeCampaign_eq answered
  obtain ⟨state, hstart, hstate⟩ := start_ok h
  have idle := DeliveryState.idle_start hstate
  have o : s.simulation.Orderly := reached.orderly (orderly_start h)
  have filed : s.simulation.Filed := by
    obtain ⟨-, actions, hrun, -⟩ := reached.run
    rw [hrun, hstart]
    exact Simulation.filed_run (Simulation.orderly_ofState idle) (Simulation.filed_ofState idle) _
  have issued : id.IsIssued s.state.issued := by
    obtain ⟨hmem, rfl⟩ := Sorted.get?_eq_some (ownedCampaign_ok howned).1
    have horder := inOrder_comesTo (inOrder_start h) reached
    exact horder.numbered c.terms (List.mem_map.mpr ⟨c, hmem, rfl⟩)
  have hyields := yields_meanwhile o r
  have uncounted : ∀ m, s.Yields r m → r.awaits s = true → m.state.agenda.countFor id = 0 := by
    intro m yields awaits
    rw [Yields, if_pos awaits] at yields
    exact (aborted_handedOver o filed issued yields).1.ceased.closed.countFor
  refine ⟨?_, differsIn_handedOver o id owner, hyields, ht, ?_⟩
  · have hfirst : (s.cancelAll id).1 = s.state.agenda.countFor id := o.cancelAll_fst id
    have hagain : ((s.meanwhile r).cancelAll id).1 = (s.meanwhile r).state.agenda.countFor id :=
      (hyields.orderly o).cancelAll_fst id
    rw [hk, hfirst, hagain]
    split
    · rename_i awaits
      rw [uncounted _ hyields awaits, Nat.add_zero]
    · rfl
  · intro m yields
    refine ⟨differsIn_without (yields.orderly o) id, uncounted m yields, ?_⟩
    intro u later
    obtain ⟨hburied, hissued⟩ := buried_without o filed issued rfl hawaits yields
    obtain ⟨-, actions, hrun, leaves⟩ := later.run
    have hdeleted : s.HasDeleted id u := by
      refine hasDeleted_of_buried ?_
      rw [hrun]
      exact Simulation.buried_run hburied (leaves id (issued.mono hissued))
    refine ⟨hdeleted, ?_⟩
    intro runs x hx hcampaign
    rcases hdeleted.records x hx hcampaign with hold | ⟨q, hq, -, -, huntried⟩
    · exact hold
    · have unbroken : start.simulation.Unbroken := by
        rw [hstart]
        rintro q ⟨⟩
      obtain ⟨recipients, hstarting⟩ := runs.unbroken unbroken q hq
      rw [Dispatch.untried, hstarting] at huntried
      cases huntried

/-- A campaign whose only walk is pending is deleted for good. -/
theorem walked_campaign_stays_deleted :
    let customer : Customer :=
      ⟨"cust-00", "Customer 0", none, true, .empty, ⟨none, none, none⟩, ⟨none⟩, []⟩
    let settings : Settings := ⟨"node", .default, Sample.settings 1⟩
    let start : Desk := ⟨.start (.ofList [customer]) .default, .ofState (Sample.delivery 1)⟩
    let opened := start.performAll
      [.defineSegment ⟨"Active", none, .and, [.make "is_active" "==" (.bool true)]⟩ "ana",
        .openCampaign ⟨"Sale", some (.fresh 0), some ⟨"Hi", "Sale"⟩⟩ "ana"]
    let works := List.replicate 4 (Work.dispatch 0)
    let s : Desk := { opened with simulation := opened.simulation.run (works.map .work) }
    Desk.start settings (.ofList [customer]) ⟨0, 0⟩ = .ok start ∧ start.RunsTo s ∧
      ∃ t, s.removeCampaign (.fresh 1) "ana" = .ok (1, t) ∧ s.state.agenda.countFor (.fresh 1) = 1 ∧
        ∀ u, t.ComesTo u → s.HasDeleted (.fresh 1) u ∧
          ∀ x ∈ u.state.records.records, x.campaignId = .fresh 1 →
            x.origin ∈ s.state.records.origins := by
  intro customer settings start opened works s
  have hstart : Desk.start settings (.ofList [customer]) ⟨0, 0⟩ = .ok start :=
    Sample.start_desk [customer]
  have ended : (opened.simulation.run (works.map .work)).dispatchAt? 0 = none :=
    Option.isNone_iff_eq_none.mp (by decide +kernel)
  have hruns : start.RunsTo s :=
    (RunsTo.start.performAll _ (by decide)).dispatch 0 works (by decide) ended
  have hcount : (s.removeCampaign (.fresh 1) "ana").toOption.map Prod.fst = some 1 := by
    decide +kernel
  obtain ⟨⟨_, t⟩, hanswer, rfl⟩ := Option.map_eq_some_iff.mp hcount
  have answered : s.removeCampaign (.fresh 1) "ana" = .ok (1, t) := by
    cases hcall : s.removeCampaign (.fresh 1) "ana" with
    | error e =>
      rw [hcall] at hanswer
      cases hanswer
    | ok answer =>
      rw [hcall] at hanswer
      cases hanswer
      rfl
  clear_value s
  obtain ⟨hk, -, yields, ht, final⟩ := deletion_is_final hstart hruns.comesTo answered
  obtain ⟨-, -, later⟩ := final _ yields
  refine ⟨hstart, hruns, t, answered, hk.symm, ?_⟩
  intro u hu
  rw [ht] at hu
  obtain ⟨deleted, records⟩ := later u hu
  exact ⟨deleted, records hruns⟩

end Desk

end Outreach
