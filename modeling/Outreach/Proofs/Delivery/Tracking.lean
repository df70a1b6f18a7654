import Mathlib.Data.List.Induction
import Outreach.Proofs.Delivery.History
import Outreach.Proofs.Delivery.Order

/-!
# One dispatch among all actions

A dispatch in the background is followed by its ticket through a run. Its own steps change it, and
of the other actions only a new order of its batch and its abortion do. So what has happened to it
is told by the history of its steps, and steps that keep coming bring it to an end.
-/

namespace Outreach

/-- The action is a step of the dispatch with a ticket. -/
def Action.isStepOf (ticket : Nat) : Action → Bool
  | .work (.dispatch t) => t == ticket
  | _ => false

namespace Simulation

variable {s : Simulation} {ticket : Nat} {d : Dispatch}

/-- The step of a dispatch that an action is. -/
def deedOf? (s : Simulation) (ticket : Nat) (a : Action) : Option Deed :=
  if a.isStepOf ticket then (s.dispatchAt? ticket).map fun r => ⟨s.state, r.dispatch⟩ else none

/-- The steps that a dispatch takes in a run. -/
def deeds (ticket : Nat) : Simulation → List Action → List Deed
  | _, [] => []
  | s, a :: rest => (s.deedOf? ticket a).toList ++ deeds ticket (s.act a) rest

/-- The dispatch with a ticket has a given form, and is there unless it has ended. -/
structure Holds (s : Simulation) (ticket : Nat) (d : Dispatch) : Prop where
  drawn : ticket < s.state.agenda.nextTicket
  found : (s.dispatchAt? ticket).map RunningDispatch.dispatch = if d.isEnded then none else some d

theorem Holds.running (h : s.Holds ticket d) {r : RunningDispatch}
    (present : s.dispatchAt? ticket = some r) : d.isEnded = false ∧ r.dispatch = d := by
  have hfound := h.found
  rw [present] at hfound
  cases hended : d.isEnded with
  | true =>
    rw [hended] at hfound
    cases hfound
  | false =>
    rw [hended] at hfound
    exact ⟨rfl, Option.some.inj hfound⟩

theorem Holds.ended (h : s.Holds ticket d) (missing : s.dispatchAt? ticket = none) :
    d.isEnded = true := by
  have hfound := h.found
  rw [missing] at hfound
  by_cases hended : d.isEnded = true
  · exact hended
  · rw [if_neg hended] at hfound
    cases hfound

theorem deeds_append (ticket : Nat) (s : Simulation) (first later : List Action) :
    s.deeds ticket (first ++ later) = s.deeds ticket first ++ (s.run first).deeds ticket later := by
  induction first generalizing s with
  | nil => rfl
  | cons a rest ih => simp only [List.cons_append, deeds, ih, run_cons, List.append_assoc]

theorem deeds_concat (ticket : Nat) (s : Simulation) (actions : List Action) (a : Action) :
    s.deeds ticket (actions ++ [a]) =
      s.deeds ticket actions ++ ((s.run actions).deedOf? ticket a).toList := by
  simp only [deeds_append, deeds, List.append_nil]

/-! ## Actions that leave a dispatch alone -/

theorem nextTicket_walkStep {state t : DeliveryState} {e : PendingEntry Walk}
    (h : DeliveryState.WalkStep state e t) : t.agenda.nextTicket = state.agenda.nextTicket := by
  rcases h.agenda_cases with agenda | ⟨_, _, _, _, _, agenda⟩
  · exact (congrArg Agenda.nextTicket agenda).trans rfl
  · exact (congrArg Agenda.nextTicket agenda).trans rfl

theorem nextTicket_dispatchStep {state t : DeliveryState} {d d' : Dispatch}
    (h : DeliveryState.DispatchStep state d d' t) :
    state.agenda.nextTicket ≤ t.agenda.nextTicket :=
  h.agenda (P := fun a => state.agenda.nextTicket ≤ a.nextTicket)
    (fun a record campaign walk _ _ ha =>
      Nat.le_trans ha (Agenda.nextTicket_schedule a record campaign walk))
    (Nat.le_refl _)

theorem nextTicket_deliver {state t : DeliveryState} {receipt : Receipt} {record : MessageRecord}
    {outcome : Outcome} (h : state.deliver receipt record = .ok (outcome, t)) :
    t.agenda.nextTicket = state.agenda.nextTicket := by
  obtain ⟨_, _, ⟨_, hagenda⟩ | ⟨_, hagenda⟩⟩ := DeliveryState.deliver_ok h
  · rw [hagenda]
    rfl
  · rw [hagenda]

theorem Holds.of_state (h : s.Holds ticket d) {t : DeliveryState}
    (next : s.state.agenda.nextTicket ≤ t.agenda.nextTicket) :
    Holds { s with state := t } ticket d :=
  ⟨Nat.lt_of_lt_of_le h.drawn next, h.found⟩

theorem Holds.of_replace_other (h : s.Holds ticket d) {t : DeliveryState}
    (next : s.state.agenda.nextTicket ≤ t.agenda.nextTicket) {r : RunningDispatch}
    (other : ticket ≠ r.ticket) :
    (Simulation.replace { s with state := t } r).Holds ticket d := by
  constructor
  · exact Nat.lt_of_lt_of_le h.drawn next
  · rw [dispatchAt?_replace_of_ne other]
    exact h.found

theorem Holds.of_replace_self (h : s.Holds ticket d) {t : DeliveryState}
    (next : s.state.agenda.nextTicket ≤ t.agenda.nextTicket) {r : RunningDispatch}
    (found : s.dispatchAt? ticket = some r) (d' : Dispatch) :
    (Simulation.replace { s with state := t } { r with dispatch := d' }).Holds ticket d' := by
  have hticket := (dispatchAt?_eq_some found).2
  subst hticket
  constructor
  · exact Nat.lt_of_lt_of_le h.drawn next
  · have hself := dispatchAt?_replace_self (s := { s with state := t })
      (r := { r with dispatch := d' }) (q := r) found
    rw [hself]
    split <;> rfl

theorem Holds.of_begin (h : s.Holds ticket d) (campaign : Uuid) (recipients : List String) :
    (s.dispatchInBackground campaign recipients).Holds ticket d := by
  have hne : (s.state.agenda.nextTicket == ticket) = false := by
    have hlt := h.drawn
    simp only [beq_eq_false_iff_ne]
    omega
  have hsame : (s.dispatchInBackground campaign recipients).dispatchAt? ticket =
      s.dispatchAt? ticket := by
    simp [dispatchAt?, dispatchInBackground, Agenda.takeTicket, List.find?_append, hne]
  constructor
  · exact Nat.lt_succ_of_lt h.drawn
  · rw [hsame]
    exact h.found

theorem Holds.of_unregister (h : s.Holds ticket d) (campaign : Uuid) :
    (s.unregister campaign).Holds ticket d := by
  let strike : RunningDispatch → RunningDispatch := fun r =>
    if r.dispatch.campaign = campaign then { r with registered := false } else r
  have hticket : ∀ r : RunningDispatch, (strike r).ticket = r.ticket := by
    intro r
    simp only [strike]
    split <;> rfl
  have hdispatch : ∀ r : RunningDispatch, (strike r).dispatch = r.dispatch := by
    intro r
    simp only [strike]
    split <;> rfl
  have hfound : (s.unregister campaign).dispatchAt? ticket = (s.dispatchAt? ticket).map strike := by
    have htest : ((fun r : RunningDispatch => r.ticket == ticket) ∘ strike) =
        fun r => r.ticket == ticket := by
      funext r
      rw [Function.comp_apply, hticket]
    rw [dispatchAt?, unregister, List.find?_map, htest]
    rfl
  constructor
  · exact h.drawn
  · rw [hfound, Option.map_map]
    have hsame : (RunningDispatch.dispatch ∘ strike) = RunningDispatch.dispatch := by
      funext r
      rw [Function.comp_apply, hdispatch]
    rw [hsame]
    exact h.found

theorem Holds.of_drop (h : s.Holds ticket d) {campaign : Uuid}
    (other : d.isEnded = true ∨ d.campaign ≠ campaign) : (s.drop campaign).Holds ticket d := by
  have hsame : (s.drop campaign).dispatchAt? ticket = s.dispatchAt? ticket := by
    cases hs : s.dispatchAt? ticket with
    | none =>
      rw [dispatchAt?, List.find?_eq_none] at hs ⊢
      intro r hr
      exact hs r (List.mem_filter.mp hr).1
    | some r =>
      obtain ⟨hrunning, rfl⟩ := h.running hs
      have hother := other.resolve_left (by simp [hrunning])
      have hkeep : (!(r.registered && r.dispatch.campaign == campaign)) = true := by
        simp [hother]
      obtain ⟨hticket, before, after, hall, hbefore⟩ := List.find?_eq_some_iff_append.mp hs
      simp only [dispatchAt?, drop, hall, List.filter_append]
      rw [List.filter_cons, if_pos hkeep]
      refine List.find?_eq_some_iff_append.mpr ⟨hticket, _, _, rfl, ?_⟩
      intro q hq
      exact hbefore q (List.mem_filter.mp hq).1
  constructor
  · exact h.drawn
  · rw [hsame]
    exact h.found

/-! ## All actions -/

/-- What an action has done to a dispatch, with the step that it was for the dispatch. -/
inductive Followed (s : Simulation) (ticket : Nat) (a : Action) (d d' : Dispatch) : Prop
  | alone (no_step : a.isStepOf ticket = true → d.isEnded = true)
      (deed : s.deedOf? ticket a = none) (same : d' = d)
  | step (running : d.isEnded = false) (deed : s.deedOf? ticket a = some ⟨s.state, d⟩)
      (next : d' = (s.state.stepDispatch d).1)
  | rearranged (no_step : a.isStepOf ticket = false) (deed : s.deedOf? ticket a = none)
      (untried : List MessageRecord) (tried : List (Option MessageRecord))
      (next : d' = d.rearrange untried tried)

theorem deedOf?_of_isStepOf {a : Action} (h : a.isStepOf ticket = false) :
    s.deedOf? ticket a = none := by
  simp [deedOf?, h]

theorem eq_of_isStepOf {a : Action} (h : a.isStepOf ticket = true) :
    a = .work (.dispatch ticket) := by
  cases a with
  | work w =>
    cases w with
    | dispatch t =>
      have ht : t = ticket := by simpa [Action.isStepOf] using h
      rw [ht]
    | _ => cases h
  | _ => cases h

theorem eq_of_deedOf? {a : Action} {x : Deed} (h : s.deedOf? ticket a = some x) :
    a = .work (.dispatch ticket) := by
  cases ha : a.isStepOf ticket with
  | true => exact eq_of_isStepOf ha
  | false =>
    rw [deedOf?_of_isStepOf ha] at h
    cases h

theorem state_of_deedOf? {a : Action} {x : Deed} (h : s.deedOf? ticket a = some x) :
    x.state = s.state := by
  rw [deedOf?] at h
  split at h
  · obtain ⟨r, _, rfl⟩ := Option.map_eq_some_iff.mp h
    rfl
  · cases h

theorem state_act_of_deedOf? {a : Action} {x : Deed} (h : s.deedOf? ticket a = some x) :
    (s.act a).state = x.result := by
  have hstep := eq_of_deedOf? h
  subst hstep
  rw [deedOf?, if_pos (by simp [Action.isStepOf])] at h
  obtain ⟨r, hr, rfl⟩ := Option.map_eq_some_iff.mp h
  simp only [act, work, hr]
  rfl

/-- What is not a step of the dispatch leaves it alone if it leaves it where it is. -/
theorem Followed.of_other {a : Action} (no_step : a.isStepOf ticket = false) :
    s.Followed ticket a d d := by
  refine .alone ?_ (deedOf?_of_isStepOf no_step) rfl
  rw [no_step]
  rintro ⟨⟩

theorem followed_stepped (h : s.Holds ticket d) {r : RunningDispatch}
    (present : s.dispatchAt? r.ticket = some r)
    (step : DeliveryState.DispatchStep s.state r.dispatch (s.state.stepDispatch r.dispatch).1
      (s.state.stepDispatch r.dispatch).2) :
    ∃ d', (Simulation.replace { s with state := (s.state.stepDispatch r.dispatch).2 }
        { r with dispatch := (s.state.stepDispatch r.dispatch).1 }).Holds ticket d' ∧
      s.Followed ticket (.work (.dispatch r.ticket)) d d' := by
  have hnext := nextTicket_dispatchStep step
  by_cases ht : r.ticket = ticket
  · subst ht
    obtain ⟨hrunning, rfl⟩ := h.running present
    refine ⟨(s.state.stepDispatch r.dispatch).1, h.of_replace_self hnext present _, ?_⟩
    exact .step hrunning (by simp [deedOf?, Action.isStepOf, present]) rfl
  · refine ⟨d, h.of_replace_other hnext fun he => ht he.symm, .of_other ?_⟩
    simpa [Action.isStepOf] using ht

theorem followed_rearranged (h : s.Holds ticket d) {r : RunningDispatch}
    (present : s.dispatchAt? r.ticket = some r) (untried : List MessageRecord)
    (tried : List (Option MessageRecord)) :
    ∃ d', (s.replace { r with dispatch := r.dispatch.rearrange untried tried }).Holds ticket d' ∧
      s.Followed ticket (.work (.rearrange r.ticket untried tried)) d d' := by
  by_cases ht : r.ticket = ticket
  · subst ht
    obtain ⟨_, rfl⟩ := h.running present
    exact ⟨r.dispatch.rearrange untried tried, h.of_replace_self (Nat.le_refl _) present _,
      .rearranged rfl (deedOf?_of_isStepOf rfl) untried tried rfl⟩
  · exact ⟨d, h.of_replace_other (t := s.state) (Nat.le_refl _) fun he => ht he.symm,
      .of_other rfl⟩

/-- An action is a step of the dispatch, changes the order of its batch or leaves it alone, unless
it aborts the dispatch. -/
theorem followed_act (h : s.Holds ticket d) {a : Action}
    (kept : d.isEnded = true ∨ a ≠ .drop d.campaign) :
    ∃ d', (s.act a).Holds ticket d' ∧ s.Followed ticket a d d' := by
  cases s.acted a with
  | idle no_step state =>
    rw [state]
    refine ⟨d, h, ?_⟩
    cases hstep : a.isStepOf ticket with
    | false => exact .of_other hstep
    | true =>
      have hmissing := no_step ticket (eq_of_isStepOf hstep)
      exact .alone (fun _ => h.ended hmissing) (by simp [deedOf?, hmissing]) rfl
  | stepped r present by_action step state =>
    rw [state, by_action]
    exact followed_stepped h present step
  | rearranged r present untried tried by_action state =>
    rw [state, by_action]
    exact followed_rearranged h present untried tried
  | walked e _ by_action step state =>
    rw [state]
    exact ⟨d, h.of_state (Nat.le_of_eq (nextTicket_walkStep step).symm),
      .of_other (by rw [by_action]; rfl)⟩
  | begun campaign recipients by_action state =>
    rw [state]
    exact ⟨d, h.of_begin campaign recipients, .of_other (by rw [by_action]; rfl)⟩
  | delivered receipt record outcome u answered by_action state =>
    rw [state]
    refine ⟨d, h.of_state (Nat.le_of_eq (nextTicket_deliver answered).symm), .of_other ?_⟩
    rcases by_action with rfl | ⟨rfl, _⟩ <;> rfl
  | unregistered campaign by_action state =>
    rw [state]
    exact ⟨d, h.of_unregister campaign, .of_other (by rw [by_action]; rfl)⟩
  | dropped campaign by_action state =>
    rw [state]
    refine ⟨d, h.of_drop (kept.imp_right fun hne he => ?_), .of_other (by rw [by_action]; rfl)⟩
    rw [he] at hne
    exact hne by_action
  | cancelled campaign by_action state =>
    rw [state]
    exact ⟨d, h.of_state (Nat.le_of_eq (Agenda.nextTicket_cancelAll _ campaign).symm),
      .of_other (by rw [by_action]; rfl)⟩
  | moved _ _ by_action state | recounted _ _ _ _ _ by_action state | aborted _ by_action state
  | disturbed _ by_action state | issued by_action state | entered _ by_action state
  | deleted _ by_action state =>
    rw [state]
    exact ⟨d, h.of_state (Nat.le_refl _), .of_other (by rw [by_action]; rfl)⟩

theorem Followed.campaign {a : Action} {d' : Dispatch} (h : s.Followed ticket a d d') :
    d'.campaign = d.campaign := by
  cases h with
  | alone _ _ same => rw [same]
  | step _ _ next =>
    rw [next]
    exact (DeliveryState.stepDispatch_spec s.state d).campaign
  | rearranged _ _ untried tried next =>
    rw [next]
    exact Dispatch.campaign_rearrange d untried tried

theorem isEnded_rearrange (d : Dispatch) (untried : List MessageRecord)
    (tried : List (Option MessageRecord)) : (d.rearrange untried tried).isEnded = d.isEnded := by
  rcases d.rearrange_cases untried tried with he | ⟨_, _, _, _, _, _, _, hp, _, _, he⟩
  · rw [he]
  · rw [he]
    simp [Dispatch.isEnded, hp]

/-- The step that an action is for a dispatch is what it adds to the history. -/
theorem Followed.reached {a : Action} {first d' : Dispatch} {before : List Deed}
    (h : s.Followed ticket a d d') (reached : Reached first before d) :
    Reached first (before ++ (s.deedOf? ticket a).toList) d' := by
  cases h with
  | alone _ deed same =>
    rw [deed, same, Option.toList_none, List.append_nil]
    exact reached
  | step running deed next =>
    rw [deed, next]
    exact .step reached running s.state
  | rearranged _ deed untried tried next =>
    rw [deed, next, Option.toList_none, List.append_nil]
    exact .rearrange reached untried tried

theorem Followed.of_ended {a : Action} {d' : Dispatch} (h : s.Followed ticket a d d')
    (ended : d.isEnded = true) : d'.isEnded = true ∧ s.deedOf? ticket a = none := by
  cases h with
  | alone _ deed same =>
    rw [same]
    exact ⟨ended, deed⟩
  | step running _ _ =>
    rw [ended] at running
    cases running
  | rearranged _ deed untried tried next =>
    rw [next, isEnded_rearrange]
    exact ⟨ended, deed⟩

/-- A step that was asked for has been taken, unless the dispatch had ended. -/
theorem Followed.count {a : Action} {d' : Dispatch} (h : s.Followed ticket a d d')
    (running : d'.isEnded = false) :
    (s.deedOf? ticket a).toList.length = [a].countP fun b => b.isStepOf ticket := by
  cases h with
  | alone no_step deed same =>
    have hno : a.isStepOf ticket = false := by
      by_contra hyes
      rw [same, no_step (by simpa using hyes)] at running
      cases running
    simp [deed, hno]
  | step _ deed _ =>
    have hyes : a.isStepOf ticket = true := by
      rw [eq_of_deedOf? deed]
      simp [Action.isStepOf]
    simp [deed, hyes]
  | rearranged no_step deed _ _ _ => simp [deed, no_step]

/-- A run leaves a dispatch with the history of the steps that it has taken in the run. Unless the
dispatch has ended, every step that was asked for has been taken. -/
theorem reached_run {first : Dispatch} {before : List Deed} (h : s.Holds ticket d)
    (reached : Reached first before d) {actions : List Action}
    (kept : ∀ a ∈ actions, a ≠ .drop d.campaign) :
    ∃ d', (s.run actions).Holds ticket d' ∧
      Reached first (before ++ s.deeds ticket actions) d' ∧
      (d.isEnded = true → d'.isEnded = true) ∧
      (d'.isEnded = false →
        (s.deeds ticket actions).length = actions.countP fun a => a.isStepOf ticket) := by
  induction actions generalizing s d before with
  | nil =>
    refine ⟨d, h, ?_, fun he => he, fun _ => rfl⟩
    simpa [deeds] using reached
  | cons a rest ih =>
    obtain ⟨d₁, h₁, followed⟩ := followed_act h (Or.inr (kept a List.mem_cons_self))
    have hrest : ∀ b ∈ rest, b ≠ .drop d₁.campaign := by
      intro b hb
      rw [followed.campaign]
      exact kept b (List.mem_cons_of_mem a hb)
    obtain ⟨d', h', reached', hended, hcount⟩ := ih h₁ (followed.reached reached) hrest
    rw [List.append_assoc] at reached'
    refine ⟨d', h', reached', fun he => hended (followed.of_ended he).1, ?_⟩
    intro hrunning
    have hopen : d₁.isEnded = false := by
      by_contra he
      rw [hended (by simpa using he)] at hrunning
      cases hrunning
    have hfirst := followed.count hopen
    have hlater := hcount hrunning
    rw [deeds, List.length_append, hfirst, hlater, ← List.countP_append, List.singleton_append]

theorem deeds_of_ended (h : s.Holds ticket d) (ended : d.isEnded = true)
    (actions : List Action) : s.deeds ticket actions = [] := by
  induction actions generalizing s d with
  | nil => rfl
  | cons a rest ih =>
    obtain ⟨d', h', followed⟩ := followed_act h (a := a) (Or.inl ended)
    obtain ⟨hended, hnone⟩ := followed.of_ended ended
    rw [deeds, hnone, ih h' hended]
    rfl

/-- A dispatch that may be aborted stays as it is or is gone for good. -/
theorem holds_drop (o : s.Orderly) (h : s.Holds ticket d) (campaign : Uuid) :
    (s.drop campaign).Holds ticket d ∨
      ∃ gone : Dispatch, gone.isEnded = true ∧ (s.drop campaign).Holds ticket gone := by
  cases hs : (s.drop campaign).dispatchAt? ticket with
  | none =>
    right
    exact ⟨{ d with phase := .ended .cancelled }, rfl, h.drawn, by rw [hs]; rfl⟩
  | some r =>
    left
    obtain ⟨hr, hticket⟩ := dispatchAt?_eq_some hs
    have hold := o.dispatchAt?_of_mem (List.mem_filter.mp hr).1
    have hfound := h.found
    rw [← hticket, hold] at hfound
    constructor
    · exact h.drawn
    · rw [hs]
      exact hfound

/-- Where a dispatch is aborted, its history ends. -/
theorem history_drop (o : s.Orderly) (h : s.Holds ticket d) (campaign : Uuid)
    (actions : List Action) :
    (s.drop campaign).Holds ticket d ∨ (s.drop campaign).deeds ticket actions = [] := by
  rcases holds_drop o h campaign with hstays | ⟨gone, hended, hgone⟩
  · exact Or.inl hstays
  · exact Or.inr (deeds_of_ended hgone hended actions)

theorem missing_run (h : s.Holds ticket d) (ended : d.isEnded = true) (actions : List Action) :
    (s.run actions).dispatchAt? ticket = none := by
  induction actions generalizing s d with
  | nil =>
    have hfound := h.found
    rw [if_pos ended] at hfound
    exact Option.map_eq_none_iff.mp hfound
  | cons a rest ih =>
    obtain ⟨d', h', followed⟩ := followed_act h (a := a) (Or.inl ended)
    exact ih h' (followed.of_ended ended).1

/-- Whatever happens to a dispatch, its steps in a run make up a history. -/
theorem history_run {first : Dispatch} {before : List Deed} (o : s.Orderly)
    (h : s.Holds ticket d) (reached : Reached first before d) (actions : List Action) :
    ∃ d', Reached first (before ++ s.deeds ticket actions) d' := by
  induction actions generalizing s d before with
  | nil =>
    refine ⟨d, ?_⟩
    simpa [deeds] using reached
  | cons a rest ih =>
    by_cases hdrop : a = .drop d.campaign
    · have hdeed : s.deedOf? ticket a = none := by
        rw [hdrop]
        exact deedOf?_of_isStepOf rfl
      have hact : s.act a = s.drop d.campaign := by rw [hdrop]; rfl
      rcases history_drop o h d.campaign rest with hstays | hgone
      · obtain ⟨d', reached'⟩ := ih (orderly_drop o d.campaign) hstays reached
        exact ⟨d', by simpa [deeds, hdeed, hact] using reached'⟩
      · exact ⟨d, by simpa [deeds, hdeed, hact, hgone] using reached⟩
    · obtain ⟨d₁, h₁, followed⟩ := followed_act h (Or.inr hdrop)
      obtain ⟨d', reached'⟩ := ih (orderly_act o a) h₁ (followed.reached reached)
      rw [List.append_assoc] at reached'
      exact ⟨d', reached'⟩

/-- A dispatch that is still there after a run has the history of its steps in the run. -/
theorem reached_of_dispatchAt? {first : Dispatch} {before : List Deed} (o : s.Orderly)
    (h : s.Holds ticket d) (reached : Reached first before d) {actions : List Action}
    {r : RunningDispatch} (present : (s.run actions).dispatchAt? ticket = some r) :
    (s.run actions).Holds ticket r.dispatch ∧
      Reached first (before ++ s.deeds ticket actions) r.dispatch := by
  induction actions generalizing s d before with
  | nil =>
    obtain ⟨_, rfl⟩ := h.running present
    exact ⟨h, by simpa [deeds] using reached⟩
  | cons a rest ih =>
    by_cases hdrop : a = .drop d.campaign
    · have hdeed : s.deedOf? ticket a = none := by
        rw [hdrop]
        exact deedOf?_of_isStepOf rfl
      have hact : s.act a = s.drop d.campaign := by rw [hdrop]; rfl
      rw [run_cons, hact] at present ⊢
      rcases holds_drop o h d.campaign with hstays | ⟨gone, hended, hgone⟩
      · simpa [deeds, hdeed, hact] using ih (orderly_drop o d.campaign) hstays reached present
      · rw [missing_run hgone hended rest] at present
        cases present
    · obtain ⟨d₁, h₁, followed⟩ := followed_act h (Or.inr hdrop)
      obtain ⟨hholds, hreached⟩ := ih (orderly_act o a) h₁ (followed.reached reached) present
      rw [List.append_assoc] at hreached
      exact ⟨hholds, hreached⟩

/-- A dispatch that has been begun is held under the ticket that came next. -/
theorem holds_begin (o : s.Orderly) (campaign : Uuid) (recipients : List String) :
    (s.act (.begin campaign recipients)).Holds s.state.agenda.nextTicket
      (.start campaign recipients s.now s.state.turns) := by
  constructor
  · exact Nat.lt_succ_self _
  · have hnone : s.running.find? (fun r => r.ticket == s.state.agenda.nextTicket) = none := by
      rw [List.find?_eq_none]
      intro r hr
      have hlt := o.drawn r hr
      simp only [beq_iff_eq]
      omega
    simp [act, dispatchAt?, dispatchInBackground, Agenda.takeTicket, List.find?_append, hnone,
      Dispatch.isEnded, Dispatch.start]

/-! ## Who is running -/

theorem nextTicket_act (s : Simulation) (a : Action) :
    s.state.agenda.nextTicket ≤ (s.act a).state.agenda.nextTicket := by
  cases s.acted a with
  | walked e _ _ step state =>
    rw [state]
    exact Nat.le_of_eq (nextTicket_walkStep step).symm
  | stepped r _ _ step state =>
    rw [state]
    exact nextTicket_dispatchStep step
  | delivered receipt record outcome u answered _ state =>
    rw [state]
    exact Nat.le_of_eq (nextTicket_deliver answered).symm
  | begun campaign recipients _ state =>
    rw [state]
    exact Nat.le_succ _
  | cancelled campaign _ state =>
    rw [state]
    exact Nat.le_of_eq (Agenda.nextTicket_cancelAll _ campaign).symm
  | idle _ state | rearranged _ _ _ _ _ state | moved _ _ _ state | recounted _ _ _ _ _ _ state
  | aborted _ _ state | unregistered _ _ state | dropped _ _ state | disturbed _ _ state
  | issued _ state | entered _ _ state | deleted _ _ state =>
    exact Nat.le_of_eq (congrArg (fun u => u.state.agenda.nextTicket) state).symm

/-- How a dispatch that is running after an action has come about. -/
inductive Traced (s : Simulation) (a : Action) (t : Simulation) (r : RunningDispatch) : Prop
  | begun (campaign : Uuid) (recipients : List String) (by_action : a = .begin campaign recipients)
      (ticket : r.ticket = s.state.agenda.nextTicket)
      (dispatch : r.dispatch = .start campaign recipients s.now s.state.turns)
  | same (q : RunningDispatch) (present : q ∈ s.running) (ticket : q.ticket = r.ticket)
      (registered : r.registered = true → q.registered = true) (dispatch : r.dispatch = q.dispatch)
  | rearranged (q : RunningDispatch) (present : q ∈ s.running) (ticket : q.ticket = r.ticket)
      (registered : r.registered = true → q.registered = true)
      (untried : List MessageRecord) (tried : List (Option MessageRecord))
      (dispatch : r.dispatch = q.dispatch.rearrange untried tried)
  | stepped (q : RunningDispatch) (present : s.dispatchAt? q.ticket = some q)
      (ticket : q.ticket = r.ticket) (registered : r.registered = true → q.registered = true)
      (by_action : a = .work (.dispatch q.ticket))
      (step : DeliveryState.DispatchStep s.state q.dispatch r.dispatch t.state)

theorem traced_act {a : Action} {r : RunningDispatch} (hr : r ∈ (s.act a).running) :
    s.Traced a (s.act a) r := by
  have hsame : r ∈ s.running → s.Traced a (s.act a) r := fun h => .same r h rfl id rfl
  cases s.acted a with
  | stepped q present by_action step state =>
    have hstate : (s.act a).state = (s.state.stepDispatch q.dispatch).2 := by rw [state]; rfl
    rw [state] at hr
    rcases mem_replace hr with rfl | ⟨hold, _⟩
    · exact .stepped q present rfl id by_action (hstate ▸ step)
    · exact hsame hold
  | rearranged q present untried tried _ state =>
    rw [state] at hr
    rcases mem_replace hr with rfl | ⟨hold, _⟩
    · exact .rearranged q (dispatchAt?_eq_some present).1 rfl id untried tried rfl
    · exact hsame hold
  | begun campaign recipients by_action state =>
    rw [state] at hr
    rcases List.mem_append.mp hr with hold | hnew
    · exact hsame hold
    · rw [List.mem_singleton.mp hnew]
      exact .begun campaign recipients by_action rfl rfl
  | unregistered campaign _ state =>
    rw [state] at hr
    obtain ⟨q, hq, rfl⟩ := List.mem_map.mp hr
    by_cases hcampaign : q.dispatch.campaign = campaign
    · rw [if_pos hcampaign]
      exact .same q hq rfl (by rintro ⟨⟩) rfl
    · rw [if_neg hcampaign]
      exact .same q hq rfl id rfl
  | dropped campaign _ state =>
    rw [state] at hr
    exact hsame (List.mem_filter.mp hr).1
  | idle _ state | walked _ _ _ _ state | moved _ _ _ state | delivered _ _ _ _ _ _ state
  | recounted _ _ _ _ _ _ state | cancelled _ _ state | aborted _ _ state | disturbed _ _ state
  | issued _ state | entered _ _ state | deleted _ _ state =>
    rw [state] at hr
    exact hsame hr

/-- A running dispatch was running before, for the same campaign, or has just been begun. -/
theorem mem_running_act {a : Action} {r : RunningDispatch} (hr : r ∈ (s.act a).running) :
    (∃ q ∈ s.running, q.ticket = r.ticket ∧ q.dispatch.campaign = r.dispatch.campaign) ∨
      ∃ recipients, a = .begin r.dispatch.campaign recipients ∧
        r.ticket = s.state.agenda.nextTicket := by
  cases traced_act hr with
  | begun campaign recipients by_action ticket dispatch =>
    right
    refine ⟨recipients, ?_, ticket⟩
    rw [by_action, dispatch]
    rfl
  | same q present ticket _ dispatch => exact Or.inl ⟨q, present, ticket, by rw [dispatch]⟩
  | rearranged q present ticket _ untried tried dispatch =>
    exact Or.inl ⟨q, present, ticket, by rw [dispatch, Dispatch.campaign_rearrange]⟩
  | stepped q present ticket _ _ step =>
    exact Or.inl ⟨q, (dispatchAt?_eq_some present).1, ticket, step.campaign.symm⟩

/-- Where no dispatch of a campaign is running, none is until one begins. -/
theorem gone_act {campaign : Uuid} (gone : ∀ q ∈ s.running, q.dispatch.campaign ≠ campaign)
    {a : Action} (single : ∀ names, a ≠ .begin campaign names) :
    ∀ q ∈ (s.act a).running, q.dispatch.campaign ≠ campaign := by
  intro q hq hsame
  rcases mem_running_act hq with ⟨p, hp, -, hcampaign⟩ | ⟨names, hbegin, -⟩
  · exact gone p hp (hcampaign.trans hsame)
  · exact single names (hsame ▸ hbegin)

theorem gone_run {campaign : Uuid} (gone : ∀ q ∈ s.running, q.dispatch.campaign ≠ campaign)
    {actions : List Action} (single : ∀ names, .begin campaign names ∉ actions) :
    ∀ q ∈ (s.run actions).running, q.dispatch.campaign ≠ campaign := by
  induction actions generalizing s with
  | nil => exact gone
  | cons a rest ih =>
    refine ih (gone_act gone ?_) fun names hmem => single names (List.mem_cons_of_mem a hmem)
    rintro names rfl
    exact single names List.mem_cons_self

/-- What a running dispatch has still to create was drafted before the action or by it. -/
theorem untried_act {a : Action} {r : RunningDispatch} (hr : r ∈ (s.act a).running)
    {m : MessageRecord} (hm : m ∈ r.dispatch.untried) :
    (∃ q ∈ s.running, q.ticket = r.ticket ∧ q.dispatch.campaign = r.dispatch.campaign ∧
      m ∈ q.dispatch.untried) ∨ m.DraftIn s.state r.dispatch.campaign := by
  cases traced_act hr with
  | begun _ _ _ _ dispatch =>
    rw [dispatch] at hm
    cases hm
  | same q present ticket _ dispatch =>
    rw [dispatch] at hm ⊢
    exact Or.inl ⟨q, present, ticket, rfl, hm⟩
  | rearranged q present ticket _ untried tried dispatch =>
    rw [dispatch] at hm
    have hold := (q.dispatch.untried_rearrange_perm untried tried).mem_iff.mp hm
    exact Or.inl ⟨q, present, ticket, by rw [dispatch, Dispatch.campaign_rearrange], hold⟩
  | stepped q present ticket _ _ step =>
    rcases step.untried hm with hold | hnew
    · exact Or.inl ⟨q, (dispatchAt?_eq_some present).1, ticket, step.campaign.symm, hold⟩
    · rw [step.campaign]
      exact Or.inr hnew

/-- What the batch of a running dispatch has created was created before the action or by it. -/
theorem created_act {a : Action} {r : RunningDispatch} (hr : r ∈ (s.act a).running)
    {m : MessageRecord} (hm : m ∈ r.dispatch.created) :
    ∃ q ∈ s.running, q.dispatch.campaign = r.dispatch.campaign ∧ (m ∈ q.dispatch.created ∨
      m ∈ q.dispatch.untried ∧ s.state.records.create m = .ok (s.act a).state.records) := by
  cases traced_act hr with
  | begun _ _ _ _ dispatch =>
    rw [dispatch] at hm
    cases hm
  | same q present _ _ dispatch =>
    rw [dispatch] at hm ⊢
    exact ⟨q, present, rfl, Or.inl hm⟩
  | rearranged q present _ _ untried tried dispatch =>
    rw [dispatch] at hm
    have hold := (q.dispatch.created_rearrange_perm untried tried).mem_iff.mp hm
    exact ⟨q, present, by rw [dispatch, Dispatch.campaign_rearrange], Or.inl hold⟩
  | stepped q present _ _ _ step =>
    exact ⟨q, (dispatchAt?_eq_some present).1, step.campaign.symm, step.created hm⟩

/-- Where nothing was running, what is running after some actions was begun by one of them. -/
theorem exists_begin (idle : s.running = []) (actions : List Action) {r : RunningDispatch}
    (hr : r ∈ (s.run actions).running) :
    ∃ first recipients rest, actions = first ++ .begin r.dispatch.campaign recipients :: rest ∧
      r.ticket = (s.run first).state.agenda.nextTicket := by
  induction actions using List.reverseRecOn generalizing r with
  | nil =>
    rw [run_nil, idle] at hr
    cases hr
  | append_singleton earlier a ih =>
    rw [run_concat] at hr
    rcases mem_running_act hr with ⟨q, hq, hticket, hcampaign⟩ | ⟨recipients, rfl, hticket⟩
    · obtain ⟨first, recipients, rest, rfl, hfirst⟩ := ih hq
      refine ⟨first, recipients, rest ++ [a], ?_, hticket.symm.trans hfirst⟩
      rw [hcampaign, List.append_assoc, List.cons_append]
    · exact ⟨earlier, recipients, [], rfl, hticket⟩

end Simulation

end Outreach
