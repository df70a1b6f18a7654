import Outreach.Proofs.Delivery.Tracking

/-!
# What becomes of the records

The book of records changes in two ways only. A walk or a receipt moves a record, and the step of a
dispatch creates one. Nothing takes a record away or changes how it began, so the records of the
book are, as they began, those that were there and those that the steps of dispatches have created.
-/

namespace Outreach

/-- The record that a step of a dispatch has created. -/
def Deed.created? (x : Deed) : Option MessageRecord :=
  x.exchange?.bind Exchange.created?

/-- The records of the book as they began. -/
def RecordBook.origins (s : RecordBook) : List MessageRecord :=
  s.records.map MessageRecord.origin

/-- A move changes no record as it began. -/
theorem RecordBook.origins_advance (s : RecordBook) (id : Uuid) (status : DeliveryStatus)
    (time : Instant) : (s.advance id status time).2.origins = s.origins :=
  map_records_advance MessageRecord.origin s id status time fun r => r.origin_advance status time

theorem Deed.created_exchanges (deeds : List Deed) :
    Exchange.created (Deed.exchanges deeds) = deeds.filterMap Deed.created? := by
  rw [Exchange.created, Deed.exchanges, List.filterMap_filterMap]
  rfl

/-- The step of a dispatch creates the record that its exchange tells, or leaves the book alone. -/
theorem Deed.created_spec (x : Deed) :
    (x.created? = none ∧ x.result.records = x.state.records) ∨
      ∃ m ∈ x.dispatch.untried, x.created? = some m ∧
        x.state.records.create m = .ok x.result.records := by
  have hnone : ∀ e, x.exchange? = some e → e.created? = none → x.created? = none := by
    intro e he hcreated
    rw [Deed.created?, he]
    exact hcreated
  cases x.step_spec with
  | begun _ _ phase answered next =>
    obtain ⟨_, _, rfl⟩ := DeliveryState.startProcessing_ok answered
    left
    exact ⟨hnone _ (exchange?_started phase answered) rfl, next.kept.records⟩
  | tried record _ _ _ _ _ _ phase attempted after =>
    obtain ⟨fault, hx, hattempt⟩ := exchange?_attempted (x := x) phase attempted
    obtain ⟨book, rfl, ⟨hsome, hcreate⟩ | ⟨hrefused, rfl⟩⟩ := attempted.book
    · have hfault : fault = none := by
        by_contra hne
        rw [hsome, if_neg hne] at hattempt
        cases hattempt
      right
      refine ⟨record, by simp [Dispatch.untried, phase], ?_, ?_⟩
      · rw [Deed.created?, hx, hfault]
        rfl
      · rw [after.kept.records]
        exact hcreate
    · have hfault : fault ≠ none := by
        intro he
        rw [hrefused, if_pos he] at hattempt
        cases hattempt
      left
      refine ⟨hnone _ hx ?_, after.kept.records⟩
      cases fault with
      | none => exact False.elim (hfault rfl)
      | some cause => rfl
  | counted _ phase answered _ state =>
    exact Or.inl ⟨hnone _ (exchange?_counted phase answered) rfl, by rw [state]⟩
  | completed _ _ phase answered _ state =>
    left
    refine ⟨hnone _ (exchange?_completed phase answered) rfl, ?_⟩
    obtain ⟨_, _, rfl⟩ := DeliveryState.completeCampaign_ok answered
    rw [state]
    rfl
  | stopped _ failed _ state =>
    obtain ⟨call, _, hx⟩ := exchange?_stopped failed
    left
    refine ⟨hnone _ hx ?_, by rw [state]⟩
    cases call <;> rfl
  | failed cause phase _ state =>
    obtain ⟨fault, hx⟩ := exchange?_marked (x := x) phase
    obtain ⟨_, hbook, _⟩ :=
      DeliveryState.failCampaign_book x.state x.dispatch.campaign cause.message
    left
    constructor
    · refine hnone _ hx ?_
      cases fault <;> rfl
    · rw [state, hbook]
      rfl
  | ended _ phase _ state =>
    left
    constructor
    · simp [Deed.created?, exchange?, Dispatch.call?, phase]
    · rw [state]

namespace Simulation

variable {s : Simulation}

/-- The record that an action creates. -/
def createdBy (s : Simulation) : Action → Option MessageRecord
  | .work (.dispatch ticket) =>
    (s.deedOf? ticket (.work (.dispatch ticket))).bind Deed.created?
  | _ => none

/-- What an action does to the book of records. -/
inductive Recorded (s : Simulation) (a : Action) (t : RecordBook) : Prop
  | same (none_created : s.createdBy a = none) (book : t = s.state.records)
  | moved (none_created : s.createdBy a = none) (id : Uuid) (status : DeliveryStatus)
      (time : Instant) (book : t = (s.state.records.advance id status time).2)
  | created (r : RunningDispatch) (present : s.dispatchAt? r.ticket = some r)
      (step : a = .work (.dispatch r.ticket)) (m : MessageRecord)
      (untried : m ∈ r.dispatch.untried) (by_action : s.createdBy a = some m)
      (book : s.state.records.create m = .ok t)

theorem recorded_walkStep {t : DeliveryState} {e : PendingEntry Walk} {a : Action}
    (none_created : s.createdBy a = none) (h : DeliveryState.WalkStep s.state e t) :
    s.Recorded a t.records := by
  rcases h.book_cases with kept | ⟨_, _, _, advanced⟩
  · exact .same none_created kept.records
  · exact .moved none_created _ _ _ advanced.records

theorem createdBy_stepped {r : RunningDispatch} (present : s.dispatchAt? r.ticket = some r) :
    s.createdBy (.work (.dispatch r.ticket)) = Deed.created? ⟨s.state, r.dispatch⟩ := by
  simp [createdBy, deedOf?, Action.isStepOf, present]

/-- An action moves a record, creates one or leaves the book of records alone. -/
theorem recorded_act (s : Simulation) (a : Action) : s.Recorded a (s.act a).state.records := by
  cases s.acted a with
  | idle no_step state =>
    have hnone : s.createdBy a = none := by
      unfold createdBy
      split
      · simp [deedOf?, no_step _ rfl]
      · rfl
    exact .same hnone (by rw [state])
  | walked e _ by_action step state =>
    rw [state]
    exact recorded_walkStep (by rw [by_action]; rfl) step
  | stepped r present by_action _ state =>
    let x : Deed := ⟨s.state, r.dispatch⟩
    have hbook : (s.act a).state.records = x.result.records := by
      rw [state]
      rfl
    have hcreated : s.createdBy a = x.created? := by
      rw [by_action]
      exact createdBy_stepped present
    rw [hbook]
    rcases x.created_spec with ⟨hnone, hsame⟩ | ⟨m, hm, hsome, hcreate⟩
    · exact .same (hcreated.trans hnone) hsame
    · exact .created r present by_action m hm (hcreated.trans hsome) hcreate
  | delivered receipt record outcome u answered by_action state =>
    have hnone : s.createdBy a = none := by
      rcases by_action with rfl | ⟨rfl, _⟩ <;> rfl
    rw [state]
    exact .moved hnone _ _ _ (DeliveryState.deliver_ok answered).2.1.records
  | rearranged _ _ _ _ by_action state | moved _ _ by_action state | begun _ _ by_action state
  | recounted _ _ _ _ _ by_action state | cancelled _ by_action state
  | aborted _ by_action state | unregistered _ by_action state | dropped _ by_action state
  | disturbed _ by_action state | issued by_action state | entered _ by_action state
  | deleted _ by_action state =>
    rw [state]
    exact .same (by rw [by_action]; rfl) rfl

/-- The records, as they began, are those from before the action and the one that it created. -/
theorem origins_act (o : s.Orderly) (a : Action) :
    (s.act a).state.records.origins.Perm
      ((s.createdBy a).toList ++ s.state.records.origins) := by
  cases recorded_act s a with
  | same none_created book =>
    rw [none_created, book]
    exact List.Perm.refl _
  | moved none_created id status time book =>
    rw [none_created, book, RecordBook.origins_advance]
    exact List.Perm.refl _
  | created r present _ m untried by_action book =>
    have hr := (dispatchAt?_eq_some present).1
    have hperm := (RecordBook.records_create_perm book (o.fresh hr untried)).map
      MessageRecord.origin
    rw [List.map_cons, (o.drafts r hr m untried).origin] at hperm
    rw [by_action]
    exact hperm

/-- A record that is there stays, as it began, whatever is done. -/
theorem origins_mono (o : s.Orderly) (actions : List Action) {m : MessageRecord}
    (h : m ∈ s.state.records.origins) : m ∈ (s.run actions).state.records.origins := by
  induction actions generalizing s with
  | nil => exact h
  | cons a rest ih =>
    refine ih (orderly_act o a) ?_
    exact (origins_act o a).mem_iff.mpr (List.mem_append_right _ h)

/-- The name of a message that is taken stays taken. -/
theorem lookup?_act (s : Simulation) (a : Action) {messageId : String}
    (taken : (s.state.records.lookup? messageId).isSome) :
    ((s.act a).state.records.lookup? messageId).isSome := by
  cases recorded_act s a with
  | same _ book => rwa [book]
  | moved _ id status time book =>
    rw [book, RecordBook.lookup?_advance]
    exact taken
  | created r _ _ m _ _ book =>
    rw [RecordBook.lookup?_create book]
    split
    · rfl
    · exact taken

/-- A step that has created a record has put it into the book. -/
theorem create_of_deedOf? {ticket : Nat} {a : Action} {x : Deed} {m : MessageRecord}
    (hdeed : s.deedOf? ticket a = some x) (hm : x.created? = some m) :
    s.createdBy a = some m ∧ s.state.records.create m = .ok (s.act a).state.records := by
  have hby : s.createdBy a = some m := by
    have hstep := eq_of_deedOf? hdeed
    subst hstep
    rw [createdBy, hdeed]
    exact hm
  cases recorded_act s a with
  | same none_created _ =>
    rw [hby] at none_created
    cases none_created
  | moved none_created =>
    rw [hby] at none_created
    cases none_created
  | created _ _ _ created _ by_action book =>
    rw [hby] at by_action
    cases Option.some.inj by_action
    exact ⟨hby, book⟩

/-- What the steps of a dispatch have created in a run is in the book. -/
theorem created_mem_origins (o : s.Orderly) {ticket : Nat} {actions : List Action} {x : Deed}
    (hx : x ∈ s.deeds ticket actions) {m : MessageRecord} (hm : x.created? = some m) :
    m ∈ (s.run actions).state.records.origins := by
  induction actions generalizing s with
  | nil => cases hx
  | cons a rest ih =>
    rcases List.mem_append.mp hx with hfirst | hlater
    · have hdeed : s.deedOf? ticket a = some x := by
        rw [Option.mem_toList] at hfirst
        exact hfirst
      have hby := (create_of_deedOf? hdeed hm).1
      have hact : m ∈ (s.act a).state.records.origins := by
        refine (origins_act o a).mem_iff.mpr ?_
        rw [hby]
        exact List.mem_cons_self
      exact origins_mono (orderly_act o a) rest hact
    · exact ih (orderly_act o a) hlater

end Simulation

end Outreach
