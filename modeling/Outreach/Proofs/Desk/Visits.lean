import Outreach.Proofs.Desk.Reach

/-!
# Calls that wait

A call that opens a campaign, waits for a dispatch or deletes a campaign comes to a point where it
has to wait, and before it goes on anything else may be done. Whoever waits for a dispatch takes it
off the register first, and so does whoever deletes its campaign. An aborted dispatch ends with its
next step. So every dispatch that has not ended is either on the register or taken by just one of
the calls, and no campaign is dispatched twice.
-/

namespace Outreach

/-- A call that has come to the point where it waits. -/
inductive Visit
  /-- The campaign has been entered and its dispatch is still to begin. -/
  | opening (campaign : Uuid) (recipients : List String)
  /-- Waits for the end of a dispatch. -/
  | waiting (campaign : Uuid) (ticket : Nat)
  /-- Waits for the end of a dispatch that it has aborted. -/
  | deleting (campaign : Uuid) (ticket : Nat)
  deriving DecidableEq

namespace Visit

/-- The campaign that the call is about to dispatch. -/
def opens? : Visit → Option Uuid
  | opening campaign _ => some campaign
  | waiting _ _ | deleting _ _ => none

/-- The campaign and the ticket of the dispatch that the call has taken off the register. -/
def takes? : Visit → Option (Uuid × Nat)
  | opening _ _ => none
  | waiting campaign ticket | deleting campaign ticket => some (campaign, ticket)

def aborts (ticket : Nat) : Visit → Bool
  | deleting _ t => t == ticket
  | opening _ _ | waiting _ _ => false

end Visit

/-- What the register tells of a dispatch. -/
structure Badge where
  ticket : Nat
  campaign : Uuid
  registered : Bool

def RunningDispatch.badge (r : RunningDispatch) : Badge :=
  ⟨r.ticket, r.dispatch.campaign, r.registered⟩

namespace Simulation

def badges (s : Simulation) : List Badge :=
  s.running.map RunningDispatch.badge

/-- The dispatch of a campaign that is on the register. -/
def registered? (s : Simulation) (campaign : Uuid) : Option RunningDispatch :=
  s.running.find? fun r => r.registered && r.dispatch.campaign == campaign

/-- Ends a dispatch where it is. -/
def discard (s : Simulation) (ticket : Nat) : Simulation :=
  { s with running := s.running.filter fun r => r.ticket != ticket }

end Simulation

/-- A desk with the calls that wait. -/
structure Lobby where
  desk : Desk
  visits : List Visit

namespace Desk.Operation

/-- The operation is made up of what calls do before and after they have waited. -/
def isCall : Operation → Bool
  | .openCampaign _ _ | .background (.unregister _) | .background (.drop _) => true
  | _ => false

/-- The ticket of the dispatch that takes a step. -/
def stepOf? : Operation → Option Nat
  | .background (.work (.dispatch ticket)) => some ticket
  | _ => none

end Desk.Operation

namespace Lobby

/-- What can be done between two points where calls wait. -/
inductive Move
  | operate (o : Desk.Operation)
  | setOutages (outages : Outages)
  | openCampaign (request : CampaignRequest) (owner : String)
  | wait (campaign : Uuid)
  | remove (campaign : Uuid) (owner : String)
  /-- A call goes on, if what it waits for has happened. -/
  | resume (visit : Visit)

def ofDesk (desk : Desk) : Lobby := ⟨desk, []⟩

def simulation (a : Lobby) : Simulation :=
  a.desk.simulation

def withSimulation (a : Lobby) (simulation : Simulation) : Lobby :=
  { a with desk := { a.desk with simulation } }

def operate (a : Lobby) (o : Desk.Operation) : Lobby :=
  if o.isCall then a
  else
    match o.stepOf? with
    | some ticket =>
      if a.visits.any (Visit.aborts ticket) then a.withSimulation (a.simulation.discard ticket)
      else { a with desk := a.desk.perform o }
    | none => { a with desk := a.desk.perform o }

def openCampaign (a : Lobby) (request : CampaignRequest) (owner : String) : Lobby :=
  match a.desk.opening request owner with
  | .ok (campaign, customers) =>
    { a.withSimulation (a.simulation.run [.takeId, .enter campaign]) with
      visits := a.visits ++ [.opening campaign.id (customers.map Customer.id)] }
  | .error _ => a

/-- Waits for a dispatch that is on the register. Without one the call answers at once. -/
def wait (a : Lobby) (campaign : Uuid) : Lobby :=
  match a.simulation.registered? campaign with
  | some r =>
    { a.withSimulation (a.simulation.unregister campaign) with
      visits := a.visits ++ [.waiting campaign r.ticket] }
  | none => a

def remove (a : Lobby) (campaign : Uuid) (owner : String) : Lobby :=
  match a.desk.ownedCampaign campaign owner with
  | .ok _ =>
    match a.simulation.registered? campaign with
    | some r =>
      { a.withSimulation (a.simulation.run [.cancel campaign, .unregister campaign]) with
        visits := a.visits ++ [.deleting campaign r.ticket] }
    | none => a.withSimulation (a.simulation.run [.cancel campaign, .delete campaign])
  | .error _ => a

def leave (a : Lobby) (v : Visit) : Lobby :=
  { a with visits := a.visits.erase v }

/-- The call waits for the end of a dispatch that has ended. -/
def isDue (a : Lobby) (v : Visit) : Bool :=
  a.visits.contains v && v.takes?.any fun x => (a.simulation.dispatchAt? x.2).isNone

def resume (a : Lobby) : Visit → Lobby
  | .opening campaign recipients =>
    if a.visits.contains (.opening campaign recipients) then
      (a.withSimulation (a.simulation.dispatchInBackground campaign recipients)).leave
        (.opening campaign recipients)
    else a
  | .waiting campaign ticket =>
    if a.isDue (.waiting campaign ticket) then a.leave (.waiting campaign ticket) else a
  | .deleting campaign ticket =>
    if a.isDue (.deleting campaign ticket) then
      (a.withSimulation (a.simulation.run [.cancel campaign, .delete campaign])).leave
        (.deleting campaign ticket)
    else a

def make (a : Lobby) : Move → Lobby
  | .operate o => a.operate o
  | .setOutages outages => { a with desk := a.desk.setOutages outages }
  | .openCampaign request owner => a.openCampaign request owner
  | .wait campaign => a.wait campaign
  | .remove campaign owner => a.remove campaign owner
  | .resume v => a.resume v

def makeAll (a : Lobby) (moves : List Move) : Lobby :=
  moves.foldl make a

/-- The campaigns that calls are about to dispatch. -/
def opened (a : Lobby) : List Uuid :=
  a.visits.filterMap Visit.opens?

/-- The dispatches that calls have taken off the register. -/
def taken (a : Lobby) : List (Uuid × Nat) :=
  a.visits.filterMap Visit.takes?

end Lobby

/-! ## Badges -/

namespace Simulation

variable {s : Simulation}

theorem mem_badges {b : Badge} : b ∈ s.badges ↔ ∃ r ∈ s.running, r.badge = b :=
  List.mem_map

/-- A dispatch that goes on keeps its badge. -/
theorem badges_replace (distinct : (s.running.map RunningDispatch.ticket).Nodup)
    {q r : RunningDispatch} (hq : q ∈ s.running) (same : r.badge = q.badge) :
    (s.replace r).badges.Sublist s.badges := by
  simp only [badges, replace]
  split
  · exact List.filter_sublist.map _
  · have hbadge : ∀ p ∈ s.running, (if p.ticket = r.ticket then r else p).badge = p.badge := by
      intro p hp
      by_cases he : p.ticket = r.ticket
      · have hpq : p = q := List.inj_on_of_nodup_map distinct hp hq
          (he.trans (congrArg Badge.ticket same))
        rw [if_pos he, same, hpq]
      · rw [if_neg he]
    rw [List.map_map]
    exact (List.map_congr_left hbadge) ▸ List.Sublist.refl _

/-- Apart from what calls do, no badge is given and none is changed. -/
theorem badges_act (o : s.Orderly) {a : Action} (free : a.isReserved = false)
    (no_call : ∀ campaign, a ≠ .unregister campaign ∧ a ≠ .drop campaign) :
    (s.act a).badges.Sublist s.badges := by
  have hsame : ∀ {t : Simulation}, s.act a = t → t.running = s.running →
      (s.act a).badges.Sublist s.badges := by
    intro t ht hrunning
    rw [ht, badges, hrunning]
    exact List.Sublist.refl _
  cases s.acted a with
  | stepped r present _ step state =>
    rw [state]
    refine badges_replace (q := r) o.tickets (dispatchAt?_eq_some present).1 ?_
    rw [RunningDispatch.badge, step.campaign]
    rfl
  | rearranged r present untried tried _ state =>
    rw [state]
    refine badges_replace (q := r) o.tickets (dispatchAt?_eq_some present).1 ?_
    rw [RunningDispatch.badge, Dispatch.campaign_rearrange]
    rfl
  | begun campaign recipients by_action _ =>
    rw [by_action] at free
    cases free
  | unregistered campaign by_action _ => exact absurd by_action (no_call campaign).1
  | dropped campaign by_action _ => exact absurd by_action (no_call campaign).2
  | idle _ state | walked _ _ _ _ state | moved _ _ _ state | delivered _ _ _ _ _ _ state
  | recounted _ _ _ _ _ _ state | cancelled _ _ state | aborted _ _ state | disturbed _ _ state
  | issued _ state | entered _ _ state | deleted _ _ state => exact hsame state rfl

theorem badges_unregister (s : Simulation) (campaign : Uuid) :
    (s.unregister campaign).badges = s.badges.map fun b =>
      if b.campaign = campaign then { b with registered := false } else b := by
  rw [badges, badges, unregister, List.map_map, List.map_map]
  apply List.map_congr_left
  intro r _
  by_cases h : r.dispatch.campaign = campaign
  · simp [RunningDispatch.badge, h]
  · simp [RunningDispatch.badge, h]

theorem campaigns_unregister (s : Simulation) (campaign : Uuid) :
    (s.unregister campaign).badges.map Badge.campaign = s.badges.map Badge.campaign := by
  rw [badges_unregister, List.map_map]
  apply List.map_congr_left
  intro b _
  rw [Function.comp_apply]
  split <;> rfl

theorem badges_begin (s : Simulation) (campaign : Uuid) (recipients : List String) :
    (s.dispatchInBackground campaign recipients).badges =
      s.badges ++ [⟨s.state.agenda.nextTicket, campaign, true⟩] := by
  simp [badges, dispatchInBackground, Agenda.takeTicket, RunningDispatch.badge, Dispatch.start]

theorem badges_discard (s : Simulation) (ticket : Nat) :
    (s.discard ticket).badges.Sublist s.badges :=
  List.filter_sublist.map _

theorem orderly_discard (o : s.Orderly) (ticket : Nat) : (s.discard ticket).Orderly := by
  have hsub : (s.running.filter fun r => r.ticket != ticket).Sublist s.running :=
    List.filter_sublist
  refine o.of_running (hsub.map _) ?_ ?_
  · intro r hr
    exact ⟨r, hsub.subset hr, rfl, rfl⟩
  · exact hsub.flatMap fun r => r.dispatch.untriedIds

/-- No dispatch is running under a ticket exactly if no badge bears it. -/
theorem dispatchAt?_eq_none {ticket : Nat} :
    s.dispatchAt? ticket = none ↔ ∀ b ∈ s.badges, b.ticket ≠ ticket := by
  simp [dispatchAt?, badges, RunningDispatch.badge]

theorem isRunning_eq_false_iff_badges {campaign : Uuid} :
    s.isRunning campaign = false ↔ ∀ b ∈ s.badges, b.campaign ≠ campaign := by
  simp [isRunning, badges, RunningDispatch.badge]

theorem active_eq_badges (s : Simulation) : s.active = s.badges.countP Badge.registered := by
  rw [active, badges, List.countP_map]
  rfl

theorem registered?_eq_some {campaign : Uuid} {r : RunningDispatch}
    (h : s.registered? campaign = some r) :
    r ∈ s.running ∧ r.badge = ⟨r.ticket, campaign, true⟩ := by
  rw [registered?] at h
  have hboth := List.find?_some h
  rw [Bool.and_eq_true, beq_iff_eq] at hboth
  refine ⟨List.mem_of_find?_eq_some h, ?_⟩
  rw [RunningDispatch.badge, hboth.1, hboth.2]

theorem registered?_eq_none {campaign : Uuid} :
    s.registered? campaign = none ↔
      ∀ b ∈ s.badges, b.campaign = campaign → b.registered = false := by
  rw [registered?, List.find?_eq_none, badges, List.forall_mem_map]
  refine forall₂_congr fun r _ => ?_
  rw [RunningDispatch.badge]
  cases r.registered
  · simp
  · simp

end Simulation

namespace Lobby

variable {a b : Lobby}

/-- The campaigns that are being dispatched or are about to be. -/
def campaigns (a : Lobby) : List Uuid :=
  a.simulation.badges.map Badge.campaign ++ a.opened

/-- Every dispatch that has not ended is on the register or taken by one call, and no campaign is
dispatched twice. -/
structure Tidy (a : Lobby) : Prop where
  orderly : a.simulation.Orderly
  apart : a.campaigns.Nodup
  issued : ∀ c ∈ a.campaigns, c.IsIssued a.simulation.state.issued
  held : ∀ b ∈ a.simulation.badges, b.registered = false → (b.campaign, b.ticket) ∈ a.taken
  sole : ∀ x ∈ a.taken, ∀ b ∈ a.simulation.badges, b.ticket = x.2 ∨ b.campaign = x.1 →
    b = ⟨x.2, x.1, false⟩
  begun : ∀ x ∈ a.taken, x.1.IsIssued a.simulation.state.issued ∧ x.1 ∉ a.opened ∧
    x.2 < a.simulation.state.agenda.nextTicket
  distinct : (a.taken.map Prod.snd).Nodup

/-- Dispatches may end. -/
theorem Tidy.of_sublist (h : a.Tidy) (visits : b.visits = a.visits) (orderly : b.simulation.Orderly)
    (badges : b.simulation.badges.Sublist a.simulation.badges)
    (issued : a.simulation.state.issued ≤ b.simulation.state.issued)
    (next : a.simulation.state.agenda.nextTicket ≤ b.simulation.state.agenda.nextTicket) :
    b.Tidy := by
  have hopened : b.opened = a.opened := by rw [opened, opened, visits]
  have htaken : b.taken = a.taken := by rw [taken, taken, visits]
  have hcampaigns : b.campaigns.Sublist a.campaigns := by
    rw [campaigns, campaigns, hopened]
    exact (badges.map _).append_right _
  constructor
  · exact orderly
  · exact h.apart.sublist hcampaigns
  · exact fun c hc => (h.issued c (hcampaigns.subset hc)).mono issued
  · rw [htaken]
    exact fun x hx => h.held x (badges.subset hx)
  · rw [htaken]
    exact fun x hx y hy => h.sole x hx y (badges.subset hy)
  · rw [htaken, hopened]
    intro x hx
    obtain ⟨hissued, hnot, hlt⟩ := h.begun x hx
    exact ⟨hissued.mono issued, hnot, Nat.lt_of_lt_of_le hlt next⟩
  · rw [htaken]
    exact h.distinct

theorem Tidy.of_same (h : a.Tidy) (visits : b.visits = a.visits)
    (simulation : b.simulation = a.simulation) : b.Tidy := by
  refine h.of_sublist visits ?_ ?_ ?_ ?_
  · exact simulation ▸ h.orderly
  · exact simulation ▸ List.Sublist.refl _
  · exact simulation ▸ Nat.le_refl _
  · exact simulation ▸ Nat.le_refl _

theorem Tidy.badge_eq_of_campaign (h : a.Tidy) {x y : Badge} (hx : x ∈ a.simulation.badges)
    (hy : y ∈ a.simulation.badges) (same : x.campaign = y.campaign) : x = y :=
  List.inj_on_of_nodup_map (List.nodup_append.mp h.apart).1 hx hy same

theorem Tidy.tickets (h : a.Tidy) : (a.simulation.badges.map Badge.ticket).Nodup := by
  rw [Simulation.badges, List.map_map]
  exact h.orderly.tickets

theorem Tidy.badge_eq_of_ticket (h : a.Tidy) {x y : Badge} (hx : x ∈ a.simulation.badges)
    (hy : y ∈ a.simulation.badges) (same : x.ticket = y.ticket) : x = y :=
  List.inj_on_of_nodup_map h.tickets hx hy same

/-- What goes on at the desk or in the background leaves the order as it is. -/
theorem Tidy.act (h : a.Tidy) {x : Action} (free : x.isReserved = false)
    (no_call : ∀ campaign, x ≠ .unregister campaign ∧ x ≠ .drop campaign) :
    (a.withSimulation (a.simulation.act x)).Tidy :=
  h.of_sublist rfl (Simulation.orderly_act h.orderly x)
    (Simulation.badges_act h.orderly free no_call)
    (Simulation.standing_act a.simulation (Action.spares_of_not_isReserved free .nil)).issued
    (Simulation.nextTicket_act a.simulation x)

/-- Everything that is no part of a call is an action of the background, or none. -/
theorem perform_cases (s : Desk) {o : Desk.Operation} (no_call : o.isCall = false) :
    (s.perform o).simulation = s.simulation ∨ ∃ x : Action, x.isReserved = false ∧
      (∀ campaign, x ≠ .unregister campaign ∧ x ≠ .drop campaign) ∧
      (s.perform o).simulation = s.simulation.act x := by
  have hsimulation := s.simulation_perform o
  have haffected := s.affected o
  generalize s.effects o = actions at hsimulation haffected
  cases haffected with
  | alone => exact Or.inl hsimulation
  | issued => exact Or.inr ⟨.takeId, rfl, fun _ => ⟨nofun, nofun⟩, hsimulation⟩
  | opened _ _ step =>
    rw [step] at no_call
    cases no_call
  | background x step free =>
    refine Or.inr ⟨x, free, ?_, hsimulation⟩
    rw [step] at no_call
    intro campaign
    constructor
    · rintro rfl
      cases no_call
    · rintro rfl
      cases no_call

theorem tidy_perform (h : a.Tidy) {o : Desk.Operation} (no_call : o.isCall = false) :
    Tidy { a with desk := a.desk.perform o } := by
  rcases perform_cases a.desk no_call with hsame | ⟨x, free, apart, hact⟩
  · exact h.of_same rfl hsame
  · exact (h.act free apart).of_same rfl hact

theorem tidy_operate (h : a.Tidy) (o : Desk.Operation) : (a.operate o).Tidy := by
  rw [operate]
  split
  · exact h
  · rename_i hcall
    have no_call : o.isCall = false := by simpa using hcall
    split
    · split
      · exact h.of_sublist rfl (Simulation.orderly_discard h.orderly _)
          (Simulation.badges_discard a.simulation _) (Nat.le_refl _) (Nat.le_refl _)
      · exact tidy_perform h no_call
    · exact tidy_perform h no_call

theorem tidy_setOutages (h : a.Tidy) (outages : Outages) :
    Tidy { a with desk := a.desk.setOutages outages } :=
  h.of_sublist rfl (Simulation.orderly_act h.orderly (.setOutages outages)) (List.Sublist.refl _)
    (Nat.le_refl _) (Nat.le_refl _)

/-- A campaign that is opened is new to the desk. -/
theorem tidy_openCampaign (h : a.Tidy) (request : CampaignRequest) (owner : String) :
    (a.openCampaign request owner).Tidy := by
  rw [openCampaign]
  split
  · rename_i campaign customers answered
    obtain ⟨_, _, _, hid, _⟩ := Desk.opening_ok answered
    let issued := a.simulation.state.issued
    have hnew : campaign.id = .fresh issued := hid
    have hunknown : ∀ {c : Uuid}, c.IsIssued issued → c ≠ campaign.id := by
      rintro c hc rfl
      rw [hnew] at hc
      exact Uuid.not_isIssued_fresh issued hc
    let b : Lobby := { a.withSimulation (a.simulation.run [.takeId, .enter campaign]) with
      visits := a.visits ++ [.opening campaign.id (customers.map Customer.id)] }
    have hbadges : b.simulation.badges = a.simulation.badges := rfl
    have hissued : b.simulation.state.issued = issued + 1 := rfl
    have hopened : b.opened = a.opened ++ [campaign.id] := by
      simp [b, opened, Visit.opens?]
    have htaken : b.taken = a.taken := by
      simp [b, taken, Visit.takes?]
    have hcampaigns : b.campaigns = a.campaigns ++ [campaign.id] := by
      rw [campaigns, campaigns, hbadges, hopened, List.append_assoc]
    change b.Tidy
    constructor
    · exact Simulation.orderly_run h.orderly _
    · rw [hcampaigns]
      refine List.nodup_append.mpr ⟨h.apart, List.nodup_singleton _, ?_⟩
      intro c hc d hd
      rw [List.mem_singleton.mp hd]
      exact hunknown (h.issued c hc)
    · rw [hcampaigns, hissued]
      intro c hc
      rcases List.mem_append.mp hc with hold | hlast
      · exact (h.issued c hold).mono (Nat.le_succ _)
      · rw [List.mem_singleton.mp hlast]
        exact ⟨issued, Nat.lt_succ_self _, hnew⟩
    · rw [htaken]
      exact h.held
    · rw [htaken]
      exact h.sole
    · rw [htaken, hopened, hissued]
      intro x hx
      obtain ⟨hknown, hnot, hlt⟩ := h.begun x hx
      refine ⟨hknown.mono (Nat.le_succ _), ?_, hlt⟩
      rw [List.mem_append, List.mem_singleton]
      rintro (hold | hlast)
      · exact hnot hold
      · exact hunknown hknown hlast
    · rw [htaken]
      exact h.distinct
  · exact h

/-- Striking a dispatch off changes only the badge of the one dispatch of the campaign. -/
theorem Tidy.badge_unregister (h : a.Tidy) {campaign : Uuid} {ticket : Nat}
    (registered : ⟨ticket, campaign, true⟩ ∈ a.simulation.badges) {x : Badge}
    (hx : x ∈ (a.simulation.unregister campaign).badges) :
    x = ⟨ticket, campaign, false⟩ ∨
      (x ∈ a.simulation.badges ∧ x.campaign ≠ campaign ∧ x.ticket ≠ ticket) := by
  rw [Simulation.badges_unregister] at hx
  obtain ⟨y, hy, rfl⟩ := List.mem_map.mp hx
  by_cases hc : y.campaign = campaign
  · rw [if_pos hc, h.badge_eq_of_campaign hy registered hc]
    exact Or.inl rfl
  · rw [if_neg hc]
    refine Or.inr ⟨hy, hc, fun ht => hc ?_⟩
    rw [h.badge_eq_of_ticket hy registered ht]

/-- What is on the register has not been taken. -/
theorem Tidy.not_taken (h : a.Tidy) {campaign : Uuid} {ticket : Nat}
    (registered : ⟨ticket, campaign, true⟩ ∈ a.simulation.badges) {x : Uuid × Nat}
    (hx : x ∈ a.taken) : x.1 ≠ campaign ∧ x.2 ≠ ticket := by
  have hoff : ∀ y : Badge, y = ⟨x.2, x.1, false⟩ → y.registered = false := by
    rintro y rfl
    rfl
  constructor
  · intro hc
    cases hoff _ (h.sole x hx _ registered (Or.inr hc.symm))
  · intro ht
    cases hoff _ (h.sole x hx _ registered (Or.inl ht.symm))

/-- A call takes a dispatch off the register. -/
theorem tidy_take (h : a.Tidy) {campaign : Uuid} {r : RunningDispatch}
    (present : a.simulation.registered? campaign = some r) {v : Visit}
    (takes : v.takes? = some (campaign, r.ticket)) (opens : v.opens? = none) :
    Tidy
      { a.withSimulation (a.simulation.unregister campaign) with visits := a.visits ++ [v] } := by
  obtain ⟨hr, hbadge⟩ := Simulation.registered?_eq_some present
  have hin : ⟨r.ticket, campaign, true⟩ ∈ a.simulation.badges :=
    hbadge ▸ Simulation.mem_badges.mpr ⟨r, hr, rfl⟩
  have hbegun : campaign ∈ a.simulation.badges.map Badge.campaign := List.mem_map.mpr ⟨_, hin, rfl⟩
  let b : Lobby :=
    { a.withSimulation (a.simulation.unregister campaign) with visits := a.visits ++ [v] }
  have hopened : b.opened = a.opened := by simp [b, opened, opens]
  have htaken : b.taken = a.taken ++ [(campaign, r.ticket)] := by simp [b, taken, takes]
  have hcampaigns : b.campaigns = a.campaigns := by
    rw [campaigns, campaigns, hopened]
    exact congrArg (· ++ a.opened) (a.simulation.campaigns_unregister campaign)
  change b.Tidy
  constructor
  · exact Simulation.orderly_unregister h.orderly campaign
  · rw [hcampaigns]
    exact h.apart
  · rw [hcampaigns]
    exact h.issued
  · rw [htaken]
    intro x hx hoff
    rcases h.badge_unregister hin hx with rfl | ⟨hold, _, _⟩
    · exact List.mem_append_right _ (List.mem_singleton.mpr rfl)
    · exact List.mem_append_left _ (h.held x hold hoff)
  · rw [htaken]
    intro x hx y hy hshared
    rcases List.mem_append.mp hx with hx | hx
    · rcases h.badge_unregister hin hy with rfl | ⟨hold, _, _⟩
      · obtain ⟨hc, ht⟩ := h.not_taken hin hx
        rcases hshared with he | he
        · exact absurd he.symm ht
        · exact absurd he.symm hc
      · exact h.sole x hx y hold hshared
    · rw [List.mem_singleton] at hx
      subst hx
      rcases h.badge_unregister hin hy with rfl | ⟨_, hc, ht⟩
      · rfl
      · rcases hshared with he | he
        · exact absurd he ht
        · exact absurd he hc
  · rw [htaken, hopened]
    intro x hx
    rcases List.mem_append.mp hx with hx | hx
    · exact h.begun x hx
    · rw [List.mem_singleton] at hx
      subst hx
      refine ⟨h.issued campaign (List.mem_append_left _ hbegun), fun hopens => ?_,
        h.orderly.drawn r hr⟩
      exact (List.nodup_append.mp h.apart).2.2 campaign hbegun campaign hopens rfl
  · rw [htaken, List.map_append]
    refine List.nodup_append.mpr ⟨h.distinct, List.nodup_singleton _, ?_⟩
    intro n hn m hm
    obtain ⟨x, hx, rfl⟩ := List.mem_map.mp hn
    rw [List.mem_singleton.mp hm]
    exact (h.not_taken hin hx).2

theorem tidy_wait (h : a.Tidy) (campaign : Uuid) : (a.wait campaign).Tidy := by
  rw [wait]
  split
  · rename_i r present
    exact tidy_take h present rfl rfl
  · exact h

theorem tidy_remove (h : a.Tidy) (campaign : Uuid) (owner : String) :
    (a.remove campaign owner).Tidy := by
  have hcancelled : (a.withSimulation (a.simulation.act (.cancel campaign))).Tidy :=
    h.act rfl fun _ => ⟨nofun, nofun⟩
  rw [remove]
  split
  · split
    · rename_i r present
      exact tidy_take (v := .deleting campaign r.ticket) hcancelled present rfl rfl
    · exact hcancelled.act (x := .delete campaign) rfl fun _ => ⟨nofun, nofun⟩
  · exact h

/-- The dispatch of a campaign that a call has entered begins on the register. -/
theorem tidy_begin (h : a.Tidy) {campaign : Uuid} {recipients : List String}
    (present : .opening campaign recipients ∈ a.visits) :
    ((a.withSimulation (a.simulation.dispatchInBackground campaign recipients)).leave
      (.opening campaign recipients)).Tidy := by
  let b := (a.withSimulation (a.simulation.dispatchInBackground campaign recipients)).leave
    (.opening campaign recipients)
  have hperm := List.perm_cons_erase present
  have hopened : a.opened.Perm (campaign :: b.opened) := hperm.filterMap Visit.opens?
  have htaken : a.taken.Perm b.taken := hperm.filterMap Visit.takes?
  have hbadges : b.simulation.badges =
      a.simulation.badges ++ [⟨a.simulation.state.agenda.nextTicket, campaign, true⟩] :=
    a.simulation.badges_begin campaign recipients
  have hcampaigns : b.campaigns.Perm a.campaigns := by
    rw [campaigns, campaigns, hbadges, List.map_append, List.append_assoc]
    exact (hopened.symm).append_left _
  change b.Tidy
  constructor
  · exact Simulation.orderly_act h.orderly (.begin campaign recipients)
  · exact hcampaigns.nodup_iff.mpr h.apart
  · exact fun c hc => h.issued c (hcampaigns.mem_iff.mp hc)
  · intro x hx hoff
    rw [hbadges] at hx
    rcases List.mem_append.mp hx with hold | hlast
    · exact htaken.mem_iff.mp (h.held x hold hoff)
    · rw [List.mem_singleton.mp hlast] at hoff
      cases hoff
  · intro x hx y hy hshared
    have hx' := htaken.mem_iff.mpr hx
    rw [hbadges] at hy
    rcases List.mem_append.mp hy with hold | hlast
    · exact h.sole x hx' y hold hshared
    · obtain ⟨_, hnot, hlt⟩ := h.begun x hx'
      rw [List.mem_singleton.mp hlast] at hshared
      rcases hshared with he | he
      · exact absurd he (Nat.ne_of_gt hlt)
      · exact absurd (he ▸ hopened.mem_iff.mpr List.mem_cons_self) hnot
  · intro x hx
    obtain ⟨hissued, hnot, hlt⟩ := h.begun x (htaken.mem_iff.mpr hx)
    refine ⟨hissued, fun hopens => hnot ?_, Nat.lt_succ_of_lt hlt⟩
    exact hopened.mem_iff.mpr (List.mem_cons_of_mem campaign hopens)
  · exact (htaken.map Prod.snd).nodup_iff.mp h.distinct

theorem isDue_iff {v : Visit} : a.isDue v = true ↔ v ∈ a.visits ∧ ∃ campaign ticket,
    v.takes? = some (campaign, ticket) ∧ a.simulation.dispatchAt? ticket = none := by
  simp [isDue, Option.any_eq_true]

/-- A call leaves when the dispatch that it has taken has ended. -/
theorem tidy_leave (h : a.Tidy) {v : Visit} (due : a.isDue v = true) : (a.leave v).Tidy := by
  obtain ⟨present, campaign, ticket, takes, ended⟩ := isDue_iff.mp due
  have opens : v.opens? = none := by
    cases v with
    | opening _ _ => cases takes
    | _ => rfl
  let b := a.leave v
  have hperm := List.perm_cons_erase present
  have hopened : a.opened.Perm b.opened := by
    have hmap := hperm.filterMap Visit.opens?
    rwa [List.filterMap_cons_none opens] at hmap
  have htaken : a.taken.Perm ((campaign, ticket) :: b.taken) := by
    have hmap := hperm.filterMap Visit.takes?
    rwa [List.filterMap_cons_some takes] at hmap
  have hsub : ∀ x ∈ b.taken, x ∈ a.taken := fun x hx =>
    htaken.mem_iff.mpr (List.mem_cons_of_mem _ hx)
  have hcampaigns : a.campaigns.Perm b.campaigns := hopened.append_left _
  change b.Tidy
  constructor
  · exact h.orderly
  · exact hcampaigns.nodup_iff.mp h.apart
  · exact fun c hc => h.issued c (hcampaigns.mem_iff.mpr hc)
  · intro x hx hoff
    rcases List.mem_cons.mp (htaken.mem_iff.mp (h.held x hx hoff)) with he | hold
    · exact absurd (congrArg Prod.snd he) (Simulation.dispatchAt?_eq_none.mp ended x hx)
    · exact hold
  · exact fun x hx => h.sole x (hsub x hx)
  · intro x hx
    obtain ⟨hissued, hnot, hlt⟩ := h.begun x (hsub x hx)
    exact ⟨hissued, fun hopens => hnot (hopened.mem_iff.mpr hopens), hlt⟩
  · have hmap := (htaken.map Prod.snd).nodup_iff.mp h.distinct
    exact (List.nodup_cons.mp hmap).2

theorem tidy_resume (h : a.Tidy) (v : Visit) : (a.resume v).Tidy := by
  cases v with
  | opening campaign recipients =>
    rw [resume]
    split
    · rename_i present
      exact tidy_begin h (List.contains_iff_mem.mp present)
    · exact h
  | waiting campaign ticket =>
    rw [resume]
    split
    · rename_i due
      exact tidy_leave h due
    · exact h
  | deleting campaign ticket =>
    rw [resume]
    split
    · rename_i due
      have hcancelled := (tidy_leave h due).act (x := .cancel campaign) rfl fun _ => ⟨nofun, nofun⟩
      exact hcancelled.act (x := .delete campaign) rfl fun _ => ⟨nofun, nofun⟩
    · exact h

theorem tidy_make (h : a.Tidy) (m : Move) : (a.make m).Tidy := by
  cases m with
  | operate o => exact tidy_operate h o
  | setOutages outages => exact tidy_setOutages h outages
  | openCampaign request owner => exact tidy_openCampaign h request owner
  | wait campaign => exact tidy_wait h campaign
  | remove campaign owner => exact tidy_remove h campaign owner
  | resume v => exact tidy_resume h v

theorem tidy_makeAll (h : a.Tidy) (moves : List Move) : (a.makeAll moves).Tidy := by
  induction moves generalizing a with
  | nil => exact h
  | cons m rest ih => exact ih (tidy_make h m)

theorem tidy_start {settings : Settings} {directory : Directory} {now : Instant} {start : Desk}
    (h : Desk.start settings directory now = .ok start) : (ofDesk start).Tidy := by
  obtain ⟨state, rfl, hstate⟩ := Desk.start_ok h
  constructor
  · exact Simulation.orderly_ofState (DeliveryState.idle_start hstate)
  · exact List.nodup_nil
  · rintro c ⟨⟩
  · rintro x ⟨⟩
  · rintro x ⟨⟩
  · rintro x ⟨⟩
  · exact List.nodup_nil

end Lobby

end Outreach
