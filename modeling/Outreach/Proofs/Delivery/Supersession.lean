import Outreach.Proofs.Delivery.Order

/-!
# Receipts take the place of walks

An applied receipt leaves its record at a stage of the funnel and aborts the walk that is pending
for it. A walk that is scheduled only afterwards, because the batch of the record was not settled
yet, starts at the first stage, which the record has already reached or passed. So it ends there
without an effect, and the record moves only when another receipt is applied.
-/

namespace Outreach

/-- The walk has not passed any stage. -/
def Walk.AtStart (w : Walk) : Prop :=
  (∃ since, w.progress = .scheduled since) ∨ ∃ due, w.progress = .waiting .delivered due

theorem Walk.AtStart.stage {w : Walk} (h : w.AtStart) {stage : Stage} {due : Instant}
    (waited : w.progress = .waiting stage due) : stage = .delivered := by
  rcases h with ⟨since, hs⟩ | ⟨due', hw⟩
  · rw [hs] at waited
    cases waited
  · rw [hw] at waited
    cases waited
    rfl

namespace RecordBook

variable {s : RecordBook} {id : Uuid} {status : DeliveryStatus} {time : Instant}

theorem advance_of_get? {r : MessageRecord} (h : s.get? id = some r) :
    (s.advance id status time).1 = (r.advance status time).1 := by
  simp [advance, h]

theorem get?_of_applied (h : (s.advance id status time).1 = .applied) :
    ∃ r, s.get? id = some r ∧ (r.advance status time).1 = .applied := by
  cases hg : s.get? id with
  | none => simp [advance, hg] at h
  | some r => exact ⟨r, rfl, by rwa [advance_of_get? hg] at h⟩

theorem get?_advance_self {r : MessageRecord} (h : s.get? id = some r) (status : DeliveryStatus)
    (time : Instant) :
    (s.advance id status time).2.get? id = some (r.advance status time).2 := by
  rw [get?_advance, if_pos rfl, h]
  rfl

theorem get?_advance_of_ne {j : Uuid} (hne : j ≠ id) :
    (s.advance id status time).2.get? j = s.get? j := by
  rw [get?_advance, if_neg hne]

theorem mem_ids_of_get? {r : MessageRecord} (h : s.get? id = some r) : id ∈ s.ids := by
  obtain ⟨hr, hid⟩ := Sorted.get?_eq_some h
  exact List.mem_map.mpr ⟨r, hr, hid⟩

end RecordBook

namespace DeliveryState

variable {s t : DeliveryState} {id : Uuid}

/-- The record is at a stage, and what is pending for it has not passed one. -/
structure Superseded (s : DeliveryState) (id : Uuid) : Prop where
  begun : ∃ r, s.records.get? id = some r ∧ r.HasBegun
  walks : ∀ e ∈ s.agenda.pending, e.record = id → e.work.AtStart

theorem superseded_deliver_applied {receipt : Receipt} {record : MessageRecord}
    (h : s.deliver receipt record = .ok (.applied, t)) : Superseded t record.id := by
  obtain ⟨happlied, advanced, hagenda⟩ := deliver_ok h
  obtain ⟨r, hr, hmoved⟩ := RecordBook.get?_of_applied happlied.symm
  constructor
  · refine ⟨_, ?_, MessageRecord.hasBegun_of_applied hmoved⟩
    rw [advanced.records]
    exact RecordBook.get?_advance_self hr _ _
  · intro e he hrecord
    rcases hagenda with ⟨_, hcancel⟩ | ⟨hstale, _⟩
    · rw [hcancel] at he
      have hne := (List.mem_filter.mp he).2
      simp [hrecord] at hne
    · cases hstale

/-- A walk that is at its start cannot move a record that has begun. -/
theorem advance_of_superseded (h : Superseded s id) {e : PendingEntry Walk}
    (he : e ∈ s.agenda.pending) (hid : e.record = id) {stage : Stage} {due time : Instant}
    (waited : e.work.progress = .waiting stage due) :
    (s.records.advance e.record stage.status time).1 = .stale ∧
      (s.records.advance e.record stage.status time).2.get? id = s.records.get? id := by
  obtain ⟨r, hr, begun⟩ := h.begun
  have hstage := (h.walks e he hid).stage waited
  subst hstage hid
  have hstale := MessageRecord.advance_delivered_of_hasBegun begun time
  constructor
  · rw [RecordBook.advance_of_get? hr]
    exact congrArg Prod.fst hstale
  · rw [RecordBook.get?_advance_self hr _ _, hr]
    exact congrArg (fun moved => some moved.2) hstale

theorem get?_walkStep (h : Superseded s id) {e : PendingEntry Walk} (he : e ∈ s.agenda.pending)
    (step : WalkStep s e t) : t.records.get? id = s.records.get? id := by
  rcases step.book_cases with kept | ⟨stage, due, waited, advanced⟩
  · rw [kept.records]
  · rw [advanced.records]
    by_cases hid : e.record = id
    · exact (advance_of_superseded h he hid waited).2
    · exact RecordBook.get?_advance_of_ne fun hne => hid hne.symm

theorem superseded_walkStep (ticketed : s.agenda.Ticketed) (h : Superseded s id)
    {e : PendingEntry Walk} (he : e ∈ s.agenda.pending) (step : WalkStep s e t) :
    Superseded t id := by
  have hfinish : t.agenda = s.agenda.finish e.ticket →
      ∀ a ∈ t.agenda.pending, a.record = id → a.work.AtStart := by
    intro hagenda a ha
    rw [hagenda] at ha
    exact h.walks a (List.mem_filter.mp ha).1
  have hprogress : ∀ walk : Walk, (e.record = id → walk.AtStart) →
      t.agenda = s.agenda.progress e.ticket walk →
      ∀ a ∈ t.agenda.pending, a.record = id → a.work.AtStart := by
    intro walk hstart hagenda a ha hid
    rw [hagenda] at ha
    rcases Agenda.mem_progress ha with ⟨hold, _⟩ | ⟨b, hb, hticket, rfl⟩
    · exact h.walks a hold hid
    · have hbe := ticketed.eq_of_ticket hb he hticket
      rw [hbe] at hid
      exact hstart hid
  constructor
  · rw [get?_walkStep h he step]
    exact h.begun
  · cases step with
    | begun since due turn _ _ agenda _ =>
      exact hprogress _ (fun _ => Or.inr ⟨due, rfl⟩) agenda
    | missed _ _ _ _ agenda => exact hfinish agenda
    | refused _ _ _ _ agenda => exact hfinish agenda
    | passed stage due waited applied _ agenda =>
      rcases agenda with ⟨_, agenda⟩ | ⟨_, _, _, _, _, agenda⟩
      · exact hfinish agenda
      · refine hprogress _ (fun hid => ?_) agenda
        rw [(advance_of_superseded h he hid waited).1] at applied
        cases applied

/-- A receipt changes its own record at most, and that one only if it is applied. -/
theorem get?_deliver {receipt : Receipt} {record : MessageRecord} {outcome : Outcome}
    (answered : s.deliver receipt record = .ok (outcome, t)) (id : Uuid) :
    t.records.get? id = s.records.get? id ∨ (record.id = id ∧ outcome = .applied) := by
  obtain ⟨houtcome, advanced, hagenda⟩ := deliver_ok answered
  by_cases hid : record.id = id
  · subst hid
    rcases hagenda with ⟨happlied, _⟩ | ⟨hstale, _⟩
    · exact Or.inr ⟨rfl, happlied⟩
    · left
      rw [advanced.records, RecordBook.get?_advance, if_pos rfl]
      cases hr : s.records.get? record.id with
      | none => rfl
      | some r =>
        rw [RecordBook.advance_of_get? hr] at houtcome
        exact congrArg some (MessageRecord.stale_advance (houtcome.symm.trans hstale))
  · left
    rw [advanced.records]
    exact RecordBook.get?_advance_of_ne fun hne => hid hne.symm

theorem superseded_deliver (h : Superseded s id) {receipt : Receipt} {record : MessageRecord}
    {outcome : Outcome} (answered : s.deliver receipt record = .ok (outcome, t)) :
    Superseded t id ∧ (t.records.get? id = s.records.get? id ∨
      (record.id = id ∧ outcome = .applied)) := by
  refine ⟨?_, get?_deliver answered id⟩
  obtain ⟨-, advanced, hagenda⟩ := deliver_ok answered
  obtain ⟨r, hr, begun⟩ := h.begun
  constructor
  · rw [advanced.records, RecordBook.get?_advance, hr]
    split
    · exact ⟨_, rfl, MessageRecord.hasBegun_advance begun _ _⟩
    · exact ⟨r, rfl, begun⟩
  · intro e he
    rcases hagenda with ⟨_, hcancel⟩ | ⟨_, hsame⟩
    · rw [hcancel] at he
      exact h.walks e (List.mem_filter.mp he).1
    · rw [hsame] at he
      exact h.walks e he

/-- A dispatch creates only records with identifiers of their own, and schedules only walks that
have not begun. -/
theorem superseded_dispatchStep (h : Superseded s id) {d d' : Dispatch}
    (fresh : ∀ m ∈ d.untried, m.id ≠ id) (step : DispatchStep s d d' t) :
    Superseded t id ∧ t.records.get? id = s.records.get? id := by
  have hsame : t.records.get? id = s.records.get? id := by
    rcases step.records with hrec | ⟨m, hm, hcreate⟩
    · rw [hrec]
    · exact RecordBook.get?_create_of_ne hcreate (fresh m hm)
  refine ⟨⟨?_, ?_⟩, hsame⟩
  · rw [hsame]
    exact h.begun
  · refine step.agenda (P := fun a => ∀ e ∈ a.pending, e.record = id → e.work.AtStart) ?_ h.walks
    intro a record campaign walk since hsince ha e he hid
    rcases Agenda.mem_schedule he with hold | rfl
    · exact ha e hold hid
    · exact Or.inl ⟨since, hsince⟩

theorem superseded_of_subset (h : Superseded s id) (records : t.records = s.records)
    (pending : t.agenda.pending ⊆ s.agenda.pending) : Superseded t id := by
  constructor
  · rw [records]
    exact h.begun
  · intro e he
    exact h.walks e (pending he)

end DeliveryState

namespace Simulation

variable {s : Simulation} {id : Uuid}

/-- The action is a receipt that is answered as applied for a record. -/
def Supersedes (s : Simulation) (id : Uuid) : Action → Prop
  | .receive receipt => ∃ record t,
      s.state.findByMessage receipt.messageId = .ok (some record) ∧ record.id = id ∧
      s.state.receive receipt = .ok (.applied, t)
  | .deliver receipt record =>
    record.id = id ∧ ∃ t, s.state.deliver receipt record = .ok (.applied, t)
  | _ => False

theorem supersedes_of_applied {a : Action} {receipt : Receipt} {record : MessageRecord}
    {u : DeliveryState} (answered : s.state.deliver receipt record = .ok (.applied, u))
    (by_action : a = .deliver receipt record ∨ a = .receive receipt ∧
      s.state.findByMessage receipt.messageId = .ok (some record) ∧
      s.state.receive receipt = .ok (.applied, u)) : s.Supersedes record.id a := by
  rcases by_action with rfl | ⟨rfl, hfound, hreceived⟩
  · exact ⟨rfl, u, answered⟩
  · exact ⟨record, u, hfound, rfl, hreceived⟩

theorem superseded_of_supersedes {a : Action} (h : s.Supersedes id a) :
    (s.act a).state.Superseded id := by
  cases a with
  | receive receipt =>
    obtain ⟨record, t, hfound, rfl, hok⟩ := h
    obtain ⟨record', hfound', hdeliver⟩ := DeliveryState.receive_ok hok
    have hsame : record = record' := by
      rw [hfound] at hfound'
      exact Option.some.inj (Except.ok.inj hfound')
    have hact : s.act (.receive receipt) = { s with state := t } := by
      simp only [act, attempt, hok]
    rw [hact, hsame]
    exact DeliveryState.superseded_deliver_applied hdeliver
  | deliver receipt record =>
    obtain ⟨rfl, t, hok⟩ := h
    have hact : s.act (.deliver receipt record) = { s with state := t } := by
      simp only [act, attempt, hok]
    rw [hact]
    exact DeliveryState.superseded_deliver_applied hok
  | _ => exact False.elim h

/-- Whatever is done, the record stays superseded, and only an applied receipt moves it. -/
theorem superseded_act (o : s.Orderly) (h : s.state.Superseded id) (a : Action) :
    (s.act a).state.Superseded id ∧
      ((s.act a).state.records.get? id = s.state.records.get? id ∨ s.Supersedes id a) := by
  have hframe : ∀ t : DeliveryState, t.records = s.state.records →
      t.agenda.pending ⊆ s.state.agenda.pending →
      t.Superseded id ∧ (t.records.get? id = s.state.records.get? id ∨ s.Supersedes id a) := by
    intro t hrecords hpending
    exact ⟨DeliveryState.superseded_of_subset h hrecords hpending, Or.inl (by rw [hrecords])⟩
  cases s.acted a with
  | walked e present _ step state =>
    have hmem := (walkAt?_eq_some present).1
    rw [state]
    exact ⟨DeliveryState.superseded_walkStep o.agenda h hmem step,
      Or.inl (DeliveryState.get?_walkStep h hmem step)⟩
  | stepped r present _ step state =>
    have hmem := (dispatchAt?_eq_some present).1
    obtain ⟨q, hq, _⟩ := h.begun
    have hfresh := fun m hm => o.untried_ne hmem (RecordBook.mem_ids_of_get? hq) (m := m) hm
    obtain ⟨hsuperseded, hsame⟩ := DeliveryState.superseded_dispatchStep h hfresh step
    rw [state]
    exact ⟨hsuperseded, Or.inl hsame⟩
  | delivered receipt record outcome u answered by_action state =>
    obtain ⟨hsuperseded, hmoved⟩ := DeliveryState.superseded_deliver h answered
    rw [state]
    refine ⟨hsuperseded, hmoved.imp_right ?_⟩
    rintro ⟨rfl, rfl⟩
    exact supersedes_of_applied answered by_action
  | cancelled campaign _ state =>
    rw [state]
    exact hframe _ rfl (s.state.agenda.pending_cancelAll_sublist campaign).subset
  | aborted _ _ state =>
    rw [state]
    exact hframe _ rfl List.filter_sublist.subset
  | idle _ state | rearranged _ _ _ _ _ state | moved _ _ _ state | begun _ _ _ state
  | recounted _ _ _ _ _ _ state | unregistered _ _ state | dropped _ _ state
  | disturbed _ _ state | issued _ state | entered _ _ state | deleted _ _ state =>
    rw [state]
    exact hframe _ rfl (List.Subset.refl _)

theorem superseded_run (o : s.Orderly) (h : s.state.Superseded id) (actions : List Action) :
    (s.run actions).state.Superseded id := by
  induction actions generalizing s with
  | nil => exact h
  | cons a rest ih => exact ih (orderly_act o a) (superseded_act o h a).1

/-- Once a receipt has been applied to a record, no step of a walk changes the record, whenever the
walk was or will be scheduled, and whatever else is done changes it only by applying a receipt. -/
theorem applied_receipt_supersedes_walks (reachable : s.Reachable) {receipt : Action}
    (applied : s.Supersedes id receipt) (actions : List Action) :
    let t := (s.act receipt).run actions
    (∃ r, t.state.records.get? id = some r ∧ r.HasBegun) ∧
      (∀ ticket, (t.act (.work (.walk ticket))).state.records.get? id =
        t.state.records.get? id) ∧
      ∀ a, (t.act a).state.records.get? id ≠ t.state.records.get? id → t.Supersedes id a := by
  intro t
  have hact : (s.act receipt).Orderly := orderly_act reachable.orderly receipt
  have horder : t.Orderly := orderly_run hact actions
  have hsuperseded : t.state.Superseded id :=
    superseded_run hact (superseded_of_supersedes applied) actions
  refine ⟨hsuperseded.begun, ?_, ?_⟩
  · intro ticket
    rcases (superseded_act horder hsuperseded (.work (.walk ticket))).2 with hsame | hreceipt
    · exact hsame
    · exact False.elim hreceipt
  · intro a hchanged
    rcases (superseded_act horder hsuperseded a).2 with hsame | hreceipt
    · exact False.elim (hchanged hsame)
    · exact hreceipt

/-- The receipt comes before the batch of its record is settled, and the walk that is scheduled
after it does not move the record. -/
theorem receipt_before_schedule_supersedes :
    let s := (ofState (Sample.delivery 2)).run [.enter Sample.campaign, .begin .nil ["a", "b"],
      .work (.dispatch 0), .work (.dispatch 0)]
    let receipt : Action := .receive ⟨"msg_0_a", .opened, none⟩
    let t := (s.act receipt).run [.work (.dispatch 0), .work (.walk 1)]
    s.Supersedes (.fresh 1) receipt ∧ t.state.agenda.hasPending (.fresh 1) = true ∧
      (t.act (.work (.walk 1))).state.records.get? (.fresh 1) =
        t.state.records.get? (.fresh 1) := by
  intro s receipt t
  have reachable : s.Reachable := Sample.reachable 2 rfl _
  have applied : s.Supersedes (.fresh 1) receipt := ⟨_, _, rfl, rfl, rfl⟩
  have superseded := applied_receipt_supersedes_walks reachable applied
    [.work (.dispatch 0), .work (.walk 1)]
  refine ⟨applied, by decide +kernel, ?_⟩
  simp only [t]
  exact superseded.2.1 1

end Simulation

end Outreach
