import Outreach.Proofs.Delivery.Clock
import Outreach.Proofs.Desk.Order

/-!
# What is asked of a desk

Everything that can be asked of a desk comes down to operations, and so does the time that passes.
So what holds after every history of operations holds after everything that has been asked of a
desk, in any order.
-/

namespace Outreach.Desk

variable {s t u : Desk}

/-- What somebody asks of a desk, and the time that passes. Questions change nothing. -/
inductive Errand
  | put (customer : Customer)
  | defineSegment (request : SegmentRequest) (owner : String)
  | refreshEstimate (id : Uuid)
  | openCampaign (request : CampaignRequest) (owner : String)
  | awaitDispatch (id : Uuid)
  | receive (receipt : Receipt)
  | recompute (id : Uuid) (owner : String)
  | removeCampaign (id : Uuid) (owner : String)
  | settle
  | advance (ms : Nat)

def run (s : Desk) : Errand → Desk
  | .put customer => s.put customer
  | .defineSegment request owner => s.after (s.defineSegment request owner)
  | .refreshEstimate id => s.after (s.refreshEstimate id)
  | .openCampaign request owner => s.after (s.openCampaign request owner)
  | .awaitDispatch id => s.awaitDispatch id
  | .receive receipt => s.after (s.receive receipt)
  | .recompute id owner => s.after (s.recompute id owner)
  | .removeCampaign id owner => s.after (s.removeCampaign id owner)
  | .settle => s.settle
  | .advance ms => s.advance ms

def runAll (s : Desk) (errands : List Errand) : Desk :=
  errands.foldl run s

/-- Operations may bring one state to the other. -/
def LeadsTo (s t : Desk) : Prop :=
  ∃ operations, t = s.performAll operations

theorem LeadsTo.refl (s : Desk) : s.LeadsTo s := ⟨[], rfl⟩

theorem LeadsTo.trans (first : s.LeadsTo t) (later : t.LeadsTo u) : s.LeadsTo u := by
  obtain ⟨operations, rfl⟩ := first
  obtain ⟨more, rfl⟩ := later
  exact ⟨operations ++ more, (performAll_append s operations more).symm⟩

theorem LeadsTo.sound (h : s.LeadsTo t) (sound : s.Sound) : t.Sound := by
  obtain ⟨operations, rfl⟩ := h
  exact sound_performAll sound operations

theorem leadsTo_perform (s : Desk) (o : Operation) : s.LeadsTo (s.perform o) := ⟨[o], rfl⟩

/-- What the deliveries do of their own accord. -/
theorem leadsTo_act (s : Desk) {a : Action} (free : a.isReserved = false) :
    s.LeadsTo { s with simulation := s.simulation.act a } := by
  have hleads := s.leadsTo_perform (.background a)
  rwa [perform, if_neg (by simp [free])] at hleads

theorem leadsTo_of_worksTo {simulation : Simulation} (h : s.simulation.WorksTo simulation) :
    s.LeadsTo { s with simulation } := by
  obtain ⟨works, rfl⟩ := h
  induction works generalizing s with
  | nil => exact .refl s
  | cons w rest ih =>
    have hfirst : s.LeadsTo { s with simulation := s.simulation.work w } :=
      s.leadsTo_act (a := .work w) rfl
    exact hfirst.trans ih

/-! ## Errands -/

theorem leadsTo_settle (h : s.Sound) : s.LeadsTo s.settle :=
  leadsTo_of_worksTo h.orderly.worksTo_settle

theorem leadsTo_advance (h : s.Sound) (ms : Nat) : s.LeadsTo (s.advance ms) :=
  leadsTo_of_worksTo (h.orderly.worksTo_advance ms)

theorem leadsTo_awaitDispatch (h : s.Sound) (id : Uuid) : s.LeadsTo (s.awaitDispatch id) := by
  rw [awaitDispatch]
  rcases h.orderly.worksTo_wait id with hsame | hworks
  · rw [hsame]
    exact .refl s
  · have hunregistered := s.leadsTo_act (a := .unregister id) rfl
    exact hunregistered.trans (leadsTo_of_worksTo hworks)

theorem leadsTo_receive (s : Desk) (receipt : Receipt) :
    s.LeadsTo (s.after (s.receive receipt)) := by
  cases h : s.receive receipt with
  | error e => exact .refl s
  | ok answer =>
    rw [receive, Answer.bind_eq_ok] at h
    obtain ⟨_, hreceived, h⟩ := h
    cases Answer.pure_eq_ok.mp h
    have hleads := s.leadsTo_act (a := .receive receipt) rfl
    rwa [Simulation.act, Simulation.attempt, ← state, hreceived] at hleads

theorem leadsTo_recompute (s : Desk) (id : Uuid) (owner : String) :
    s.LeadsTo (s.after (s.recompute id owner)) := by
  cases h : s.recompute id owner with
  | error e => exact .refl s
  | ok answer =>
    simp only [recompute, Answer.bind_eq_ok] at h
    obtain ⟨_, _, _, hcounted, h⟩ := h
    cases Answer.pure_eq_ok.mp h
    have hleads := s.leadsTo_act (a := .recompute id) rfl
    rwa [Simulation.act, Simulation.attempt, ← state, hcounted] at hleads

theorem leadsTo_cancelAll (s : Desk) (id : Uuid) : s.LeadsTo (s.cancelAll id).2 :=
  s.leadsTo_act (a := .cancel id) rfl

theorem leadsTo_stop (h : s.Sound) (id : Uuid) : s.LeadsTo (s.stop id).2 := by
  have hcancelled := s.leadsTo_cancelAll id
  simp only [stop]
  split
  · have hdropped := hcancelled.trans ((s.cancelAll id).2.leadsTo_act (a := .drop id) rfl)
    have hsettled := hdropped.trans (leadsTo_settle (hdropped.sound h))
    exact hsettled.trans (leadsTo_cancelAll _ id)
  · exact hcancelled

theorem leadsTo_removeCampaign (h : s.Sound) (id : Uuid) (owner : String) :
    s.LeadsTo (s.after (s.removeCampaign id owner)) := by
  rw [removeCampaign]
  cases s.ownedCampaign id owner with
  | error e => exact .refl s
  | ok _ => exact (leadsTo_stop h id).trans (leadsTo_act _ (a := .delete id) rfl)

theorem leadsTo_run (h : s.Sound) (errand : Errand) : s.LeadsTo (s.run errand) := by
  cases errand with
  | put customer => exact s.leadsTo_perform (.put customer)
  | defineSegment request owner => exact s.leadsTo_perform (.defineSegment request owner)
  | refreshEstimate id => exact s.leadsTo_perform (.refreshEstimate id)
  | openCampaign request owner => exact s.leadsTo_perform (.openCampaign request owner)
  | awaitDispatch id => exact leadsTo_awaitDispatch h id
  | receive receipt => exact s.leadsTo_receive receipt
  | recompute id owner => exact s.leadsTo_recompute id owner
  | removeCampaign id owner => exact leadsTo_removeCampaign h id owner
  | settle => exact leadsTo_settle h
  | advance ms => exact leadsTo_advance h ms

theorem leadsTo_runAll (h : s.Sound) (errands : List Errand) : s.LeadsTo (s.runAll errands) := by
  induction errands generalizing s with
  | nil => exact .refl s
  | cons errand rest ih =>
    have hfirst := leadsTo_run h errand
    exact hfirst.trans (ih (hfirst.sound h))

end Outreach.Desk
