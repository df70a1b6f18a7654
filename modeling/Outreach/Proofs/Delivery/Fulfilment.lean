import Outreach.Proofs.Delivery.Certainty

/-!
# Dispatches that nothing stops

A dispatch gives up when its campaign is cancelled or when a call fails. Where all calls are in
order, a call of a dispatch fails only if its campaign is not in the book. So the dispatch of a
campaign that is neither cancelled nor deleted goes on, unless it is aborted itself, and by its end
it has asked for each of its recipients.
-/

namespace Outreach

open DeliveryState

variable {recipients : List String} {d d' : Dispatch}

/-- Nothing has stopped a dispatch in the phase. -/
def DispatchPhase.Unstopped : DispatchPhase → Prop
  | .starting _ | .creating _ _ _ _ _ | .counting _ | .completing _ | .ended (.completed _) => True
  | .aborting _ | .ended .cancelled | .ended (.failed _) => False

/-- A dispatch that has ended without being stopped has asked for each of its recipients. -/
theorem Asked.perm {asked : List MessageRecord} (h : Asked recipients asked d.phase)
    (unstopped : d.phase.Unstopped) (ended : d.isEnded = true) :
    (asked.map MessageRecord.customerId).Perm recipients := by
  cases hp : d.phase with
  | ended how =>
    rw [hp] at h unstopped
    cases how with
    | completed stats => exact h
    | cancelled => exact unstopped.elim
    | failed cause => exact unstopped.elim
  | _ => simp [Dispatch.isEnded, hp] at ended

/-! ## Steps -/

theorem DispatchPhase.unstopped_nextBatch {s t : DeliveryState} {tally : Tally}
    {rest : List String} (next : NextBatch s d tally rest d' t)
    (accepts : s.agenda.refuses d.campaign = false) : d'.phase.Unstopped := by
  cases next with
  | none_left _ dispatch _ =>
    rw [dispatch]
    trivial
  | cancelled refuses _ _ =>
    rw [accepts] at refuses
    cases refuses
  | drafts _ _ _ _ _ _ _ _ dispatch _ =>
    rw [dispatch]
    trivial

namespace DeliveryState

variable {s t : DeliveryState}

/-- No call fails that a dispatch would have to stop for. -/
theorem DispatchStep.not_stopped (calm : s.outages = .none)
    (present : (s.campaigns.get? d.campaign).isSome) (cause : Error) :
    ¬ ((∃ recipients, d.phase = .starting recipients ∧
        s.startProcessing d.campaign d.total = .error cause) ∨
      (∃ tally, d.phase = .counting tally ∧
        s.findRecords (.campaign d.campaign) = .error cause) ∨
      ∃ stats, d.phase = .completing stats ∧
        s.completeCampaign d.campaign stats = .error cause) := by
  rintro (⟨_, _, failed⟩ | ⟨_, _, failed⟩ | ⟨stats, _, failed⟩)
  · obtain ⟨book, hbook⟩ : ∃ book,
        s.campaigns.startProcessing d.campaign d.total s.now = .ok book :=
      CampaignBook.exists_update present s.now _
    simp only [startProcessing, calm, Outages.check_none, hbook] at failed
    cases failed
  · simp only [findRecords, calm, Outages.check_none] at failed
    cases failed
  · obtain ⟨book, hbook⟩ : ∃ book, s.campaigns.complete d.campaign stats s.now = .ok book :=
      CampaignBook.exists_update present s.now _
    simp only [completeCampaign, calm, Outages.check_none, hbook] at failed
    cases failed

theorem DispatchStep.unstopped (step : DispatchStep s d d' t) (h : d.phase.Unstopped)
    (calm : s.outages = .none) (present : (s.campaigns.get? d.campaign).isSome)
    (accepts : s.agenda.refuses d.campaign = false) : d'.phase.Unstopped := by
  cases step with
  | begun recipients u phase answered next =>
    obtain ⟨book, _, rfl⟩ := startProcessing_ok answered
    exact DispatchPhase.unstopped_nextBatch next accepts
  | tried next more tried rest tally attempt u phase attempted after =>
    obtain ⟨book, rfl, _⟩ := attempted.book
    cases after with
    | same_batch _ _ _ dispatch _ =>
      rw [dispatch]
      trivial
    | settled _ following =>
      refine DispatchPhase.unstopped_nextBatch following ?_
      rw [refuses_settleBatch]
      exact accepts
  | counted _ _ _ dispatch _ =>
    rw [dispatch]
    trivial
  | completed _ _ _ _ dispatch _ =>
    rw [dispatch]
    trivial
  | stopped cause failed _ _ =>
    exact absurd failed (DispatchStep.not_stopped calm present cause)
  | failed cause phase _ _ =>
    rw [phase] at h
    exact h.elim
  | ended _ _ dispatch _ => rwa [dispatch]

end DeliveryState

theorem Dispatch.unstopped_rearrange (h : d.phase.Unstopped) (untried : List MessageRecord)
    (tried : List (Option MessageRecord)) : (d.rearrange untried tried).phase.Unstopped := by
  rcases d.rearrange_cases untried tried with he | ⟨_, _, _, _, _, _, _, _, _, _, he⟩
  · rwa [he]
  · rw [he]
    trivial

/-! ## Runs -/

namespace Simulation

variable {s : Simulation} {campaign : Uuid} {ticket : Nat}

/-- The campaign is in the book and has not been cancelled, and all calls are in order. -/
structure Open (s : Simulation) (campaign : Uuid) : Prop where
  calm : s.state.outages = .none
  present : (s.state.campaigns.get? campaign).isSome
  accepts : s.state.agenda.refuses campaign = false

/-- A campaign that is open has been open all along. -/
theorem open_of_act {a : Action} (spares : a.Spares campaign) (h : (s.act a).Open campaign) :
    s.Open campaign := by
  have hstanding := standing_act s spares
  constructor
  · exact hstanding.outages.symm.trans h.calm
  · exact hstanding.present h.present
  · rcases s.refuses_act a campaign with hsame | rfl
    · rw [← hsame]
      exact h.accepts
    · have haccepts := h.accepts
      rw [act, withState] at haccepts
      simp only [DeliveryState.cancelAll, Agenda.refuses_cancelAll] at haccepts
      cases haccepts

theorem open_of_run {actions : List Action} (spares : ∀ a ∈ actions, a.Spares campaign)
    (h : (s.run actions).Open campaign) : s.Open campaign := by
  induction actions generalizing s with
  | nil => exact h
  | cons a rest ih =>
    rw [List.forall_mem_cons] at spares
    exact open_of_act spares.1 (ih spares.2 h)

theorem Followed.unstopped {a : Action} (followed : s.Followed ticket a d d')
    (isOpen : s.Open d.campaign) (h : d.phase.Unstopped) : d'.phase.Unstopped := by
  cases followed with
  | alone _ _ same => rwa [same]
  | step _ _ next =>
    rw [next]
    exact (s.state.stepDispatch_spec d).unstopped h isOpen.calm isOpen.present isOpen.accepts
  | rearranged _ _ untried tried next =>
    rw [next]
    exact Dispatch.unstopped_rearrange h untried tried

/-- While its campaign is open, nothing stops a dispatch that is not aborted. -/
theorem unstopped_run {first : Dispatch} {before : List Deed} (holds : s.Holds ticket d)
    (reached : Reached first before d) (h : d.phase.Unstopped) {actions : List Action}
    (spares : ∀ a ∈ actions, a.Spares d.campaign) (kept : ∀ a ∈ actions, a ≠ .drop d.campaign)
    (after : (s.run actions).Open d.campaign) :
    ∃ d', (s.run actions).Holds ticket d' ∧
      Reached first (before ++ s.deeds ticket actions) d' ∧ d'.phase.Unstopped := by
  induction actions generalizing s d before with
  | nil => exact ⟨d, holds, by simpa [deeds] using reached, h⟩
  | cons a rest ih =>
    rw [List.forall_mem_cons] at kept
    obtain ⟨d₁, holds₁, followed⟩ := followed_act holds (Or.inr kept.1)
    -- That the campaign is open at the end is enough, for nothing opens it again.
    have hunstopped := followed.unstopped (open_of_run spares after) h
    rw [← followed.campaign] at spares kept after
    obtain ⟨d', holds', reached', h'⟩ := ih holds₁ (followed.reached reached) hunstopped
      (fun b hb => spares b (List.mem_cons_of_mem a hb)) kept.2 after
    rw [List.append_assoc] at reached'
    exact ⟨d', holds', reached', h'⟩

theorem Holds.isEnded_eq (h : s.Holds ticket d) (h' : s.Holds ticket d') :
    d.isEnded = d'.isEnded := by
  have hsame := h.found.symm.trans h'.found
  cases hd : d.isEnded with
  | true => cases hd' : d'.isEnded with
    | true => rfl
    | false => simp [hd, hd'] at hsame
  | false => cases hd' : d'.isEnded with
    | true => simp [hd, hd'] at hsame
    | false => rfl

/-- A dispatch that is not aborted has ended after a step for each recipient and four more. -/
theorem isEnded_of_steps {now : Instant} {turn : Nat}
    (holds : s.Holds ticket (.start campaign recipients now turn)) {actions : List Action}
    (kept : ∀ a ∈ actions, a ≠ .drop campaign)
    (enough : recipients.length + 4 ≤ actions.countP fun a => a.isStepOf ticket)
    (after : (s.run actions).Holds ticket d) : d.isEnded = true := by
  obtain ⟨d', holds', reached, _, count⟩ := reached_run holds .start kept
  rw [List.nil_append] at reached
  rw [after.isEnded_eq holds']
  by_contra hended
  -- A dispatch that has not ended has taken every step it was given, and that is too many.
  have hrunning : d'.isEnded = false := by simpa using hended
  have htaken := count hrunning
  have hbound := reached.length_le hrunning
  omega

/-- Where the campaign is still open, its dispatch has asked for each of its recipients once it is
gone or has been given its steps, unless it was aborted. -/
theorem asked_of_open {now : Instant} {turn : Nat}
    (holds : s.Holds ticket (.start campaign recipients now turn)) {actions : List Action}
    (spares : ∀ a ∈ actions, a.Spares campaign) (kept : ∀ a ∈ actions, a ≠ .drop campaign)
    (after : (s.run actions).Open campaign)
    (done : (s.run actions).dispatchAt? ticket = none ∨
      recipients.length + 4 ≤ actions.countP fun a => a.isStepOf ticket) :
    ((Deed.asked (s.deeds ticket actions)).map MessageRecord.customerId).Perm recipients := by
  obtain ⟨d, holds', reached, unstopped⟩ := unstopped_run holds .start trivial spares kept after
  have hended : d.isEnded = true := by
    rcases done with hmissing | henough
    · exact holds'.ended hmissing
    · exact isEnded_of_steps holds kept henough holds'
  rw [List.nil_append] at reached
  exact reached.asked.perm unstopped hended

end Simulation

end Outreach
