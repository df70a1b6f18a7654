import Mathlib.Tactic.IntervalCases
import Outreach.Proofs.Delivery.Progress
import Outreach.Proofs.Delivery.Supersession
import Outreach.Proofs.Delivery.Timing

/-!
# The timeline of a record

A record is drafted at the instant of the clock, before it is created, and a move puts one and the
same instant on every stage that it is the first to reach. A walk moves its record at the instant of
the clock, and so does a receipt that brings no time of its own. Since the clock never goes back,
the instants on such a record come in the order of the stages, however walks and receipts have
taken turns, and none lies ahead of the clock. Only a receipt with a time of its own can put an
instant on a record that is out of order.
-/

namespace Outreach

namespace MessageRecord

variable {r : MessageRecord} {now later : Instant}

/-- The instants that are set on a record, in the order of the stages. -/
def timeline (r : MessageRecord) : List Instant :=
  [some r.sentAt, r.deliveredAt, r.openedAt, r.clickedAt].reduceOption

/-- The instants on the record are in order, and the clock has passed them. -/
structure InOrder (r : MessageRecord) (now : Instant) : Prop where
  ordered : r.timeline.Pairwise (· ≤ ·)
  passed : ∀ time ∈ r.timeline, time ≤ now

/-- A move forward puts its instant on each stage that it is the first to reach, behind all that the
record carried before. -/
theorem timeline_moved (h : r.Coherent) {status : DeliveryStatus} {current target : Nat}
    (from_rank : r.status.rank? = some current) (to_rank : status.rank? = some target)
    (forward : current < target) (time : Instant) :
    (r.moved status target time).timeline =
      r.timeline ++ List.replicate (target - current) time := by
  obtain ⟨hdelivered, hopened, hclicked⟩ := h.isSome_iff_rank from_rank
  have htarget : target ≤ 3 := by cases status <;> cases to_rank <;> decide
  -- the stamps that are set tell the stage that the move comes from
  rcases r with ⟨_, _, _, _, _, _, _ | delivered, _ | opened, _ | clicked, _⟩ <;>
    simp only [Option.isSome_none, Option.isSome_some, Bool.false_eq_true, false_iff, true_iff,
      Nat.not_le] at hdelivered hopened hclicked <;>
    first
    | omega
    | interval_cases current
      interval_cases target <;> rfl

theorem InOrder.mono (h : r.InOrder now) (le : now ≤ later) : r.InOrder later :=
  ⟨h.ordered, fun time ht => Instant.le_trans (h.passed time ht) le⟩

/-- A draft carries no instant but that of the clock. -/
theorem DraftIn.inOrder {s : DeliveryState} {campaign : Uuid} (h : r.DraftIn s campaign) :
    r.InOrder s.now := by
  have htimeline : r.timeline = [s.now] := by
    rw [← h.sentAt, ← h.origin]
    rfl
  constructor
  · rw [htimeline]
    exact List.pairwise_singleton _ _
  · rw [htimeline]
    intro time ht
    rw [List.mem_singleton.mp ht]
    exact Instant.le_refl _

/-- A move at the instant of the clock keeps the record in order. -/
theorem InOrder.advance (h : r.InOrder now) (coherent : r.Coherent) (status : DeliveryStatus) :
    (r.advance status now).2.InOrder now := by
  rcases r.advance_cases status now with he | ⟨current, target, hc, ht, hlt, he⟩
  · rwa [he]
  · rw [he]
    have htimeline := timeline_moved coherent hc ht hlt now
    have hnow : ∀ time ∈ List.replicate (target - current) now, time = now :=
      fun time => List.eq_of_mem_replicate
    constructor
    · rw [htimeline, List.pairwise_append]
      refine ⟨h.ordered, List.pairwise_replicate.mpr (Or.inr (Instant.le_refl now)), ?_⟩
      intro before hbefore time htime
      rw [hnow time htime]
      exact h.passed before hbefore
    · intro time htime
      rw [htimeline, List.mem_append] at htime
      rcases htime with hold | hnew
      · exact h.passed time hold
      · rw [hnow time hnew]
        exact Instant.le_refl now

end MessageRecord

/-- A move at the instant of the clock keeps every record of a book in order. -/
theorem RecordBook.inOrder_advance {s : RecordBook} {now : Instant} {id j : Uuid}
    {status : DeliveryStatus} {r : MessageRecord} (coherent : ∀ q ∈ s.records, q.Coherent)
    (h : ∀ q, s.get? id = some q → q.InOrder now)
    (hr : (s.advance j status now).2.get? id = some r) : r.InOrder now := by
  rw [get?_advance] at hr
  split at hr
  · obtain ⟨q, hq, rfl⟩ := Option.map_eq_some_iff.mp hr
    exact (h q hq).advance (coherent q (Sorted.get?_eq_some hq).1) status
  · exact h r hr

/-- The time that a receipt brings of its own. -/
def Action.ownTime? : Action → Option Instant
  | .receive receipt => receipt.timestamp
  | .deliver receipt _ => receipt.timestamp
  | _ => none

namespace Simulation

variable {s : Simulation} {id : Uuid} {a : Action}

/-- The action is a receipt that is applied to a record with a time of its own. -/
def Dates (s : Simulation) (id : Uuid) (a : Action) : Prop :=
  s.Supersedes id a ∧ a.ownTime?.isSome

/-- No receipt with a time of its own is applied to a record. -/
def Undated (id : Uuid) : Simulation → List Action → Prop
  | _, [] => True
  | s, a :: rest => ¬ s.Dates id a ∧ Undated id (s.act a) rest

/-- The record with an identifier is in order if it is there, and so is all that has still to be
created. -/
structure InOrder (s : Simulation) (id : Uuid) : Prop where
  record : ∀ r, s.state.records.get? id = some r → r.InOrder s.now
  drafts : ∀ d ∈ s.running, ∀ m ∈ d.dispatch.untried, m.InOrder s.now

theorem inOrder_ofState {start : DeliveryState} (empty : start.records = .empty) (id : Uuid) :
    (ofState start).InOrder id := by
  constructor
  · simp [ofState, empty, RecordBook.get?, RecordBook.empty, Sorted.get?]
  · simp [ofState]

/-- A receipt that is not applied with a time of its own keeps the record in order. -/
theorem inOrder_deliver (coherent : s.Coherent) (h : s.InOrder id) {receipt : Receipt}
    {record : MessageRecord} {outcome : Outcome} {u : DeliveryState}
    (answered : s.state.deliver receipt record = .ok (outcome, u))
    (undated : record.id = id → outcome = .applied → receipt.timestamp = none) :
    ∀ r, u.records.get? id = some r → r.InOrder s.now := by
  intro r hr
  rcases DeliveryState.get?_deliver answered id with hsame | ⟨hid, happlied⟩
  · exact h.record r (hsame ▸ hr)
  · obtain ⟨-, advanced, -⟩ := DeliveryState.deliver_ok answered
    rw [advanced.records, undated hid happlied] at hr
    exact RecordBook.inOrder_advance coherent.records h.record hr

theorem inOrder_act (o : s.Orderly) (coherent : s.Coherent) (h : s.InOrder id)
    (undated : ¬ s.Dates id a) : (s.act a).InOrder id := by
  have hclock := s.now_le_act a
  have hsame : (s.act a).state.records = s.state.records →
      ∀ r, (s.act a).state.records.get? id = some r → r.InOrder s.now := by
    intro hrecords r hr
    exact h.record r (hrecords ▸ hr)
  have hrecord : ∀ r, (s.act a).state.records.get? id = some r → r.InOrder s.now := by
    cases s.acted a with
    | walked e _ _ step state =>
      rcases step.book_cases with kept | ⟨stage, due, _, advanced⟩
      · exact hsame (by rw [state, kept.records])
      · intro r hr
        rw [state, advanced.records] at hr
        exact RecordBook.inOrder_advance coherent.records h.record hr
    | stepped d present _ step state =>
      rcases step.records with hkept | ⟨m, hm, hcreate⟩
      · exact hsame (by rw [state]; exact hkept)
      · intro r hr
        rw [state] at hr
        obtain ⟨hmem, hid⟩ := Sorted.get?_eq_some hr
        rcases RecordBook.mem_records_create hcreate hmem with rfl | hold
        · exact h.drafts d (dispatchAt?_eq_some present).1 r hm
        · exact h.record r (hid ▸ o.get?_of_mem hold)
    | delivered receipt record outcome u answered by_action state =>
      rw [state]
      refine inOrder_deliver coherent h answered ?_
      rintro hid rfl
      by_contra hown
      refine undated ⟨hid ▸ supersedes_of_applied answered by_action, ?_⟩
      rcases by_action with rfl | ⟨rfl, _⟩ <;> exact Option.isSome_iff_ne_none.mpr hown
    | idle _ state | rearranged _ _ _ _ _ state | moved _ _ _ state | begun _ _ _ state
    | recounted _ _ _ _ _ _ state | cancelled _ _ state | aborted _ _ state
    | unregistered _ _ state | dropped _ _ state | disturbed _ _ state | issued _ state
    | entered _ _ state | deleted _ _ state =>
      exact hsame (congrArg (fun t => t.state.records) state)
  constructor
  · exact fun r hr => (hrecord r hr).mono hclock
  · intro d hd m hm
    rcases untried_act hd hm with ⟨p, hp, _, _, hold⟩ | hnew
    · exact (h.drafts p hp m hold).mono hclock
    · exact hnew.inOrder.mono hclock

theorem inOrder_run (o : s.Orderly) (coherent : s.Coherent) (h : s.InOrder id)
    {actions : List Action} (undated : s.Undated id actions) : (s.run actions).InOrder id := by
  induction actions generalizing s with
  | nil => exact h
  | cons a rest ih =>
    exact ih (orderly_act o a) (coherent_act coherent a) (inOrder_act o coherent h undated.1)
      undated.2

/-- In a delivery that began with no records, the instants on a record come in the order of the
stages, and none lies ahead of the clock, if no receipt with a time of its own has been applied to
the record. -/
theorem timeline_in_order {start : DeliveryState} (idle : start.Idle)
    (empty : start.records = .empty) (actions : List Action) :
    let t := (ofState start).run actions
    ∀ r ∈ t.state.records.records, (ofState start).Undated r.id actions → r.InOrder t.now := by
  intro t r hr undated
  have o : (ofState start).Orderly := orderly_ofState idle
  have order : t.Orderly := orderly_run o actions
  have inOrder : t.InOrder r.id :=
    inOrder_run o (coherent_ofState empty) (inOrder_ofState empty r.id) undated
  exact inOrder.record r (order.get?_of_mem hr)

/-- The walk of a message stamps the first stage, and a receipt that brings no time of its own the
two stages after it. -/
theorem walk_and_receipt_in_order :
    let actions : List Action := [.enter Sample.campaign, .begin .nil ["a", "b"],
      .work (.dispatch 0), .work (.dispatch 0), .work (.dispatch 0), .work (.walk 1),
      .work (.moveTo ⟨1, 0⟩), .work (.walk 1), .work (.moveTo ⟨3, 0⟩),
      .receive ⟨"msg_0_a", .clicked, none⟩]
    let t := (ofState (Sample.delivery 2)).run actions
    (ofState (Sample.delivery 2)).Undated (.fresh 1) actions ∧
      ∃ r, t.state.records.get? (.fresh 1) = some r ∧
        r.timeline = [⟨0, 0⟩, ⟨1, 0⟩, ⟨3, 0⟩, ⟨3, 0⟩] ∧ r.InOrder t.now := by
  intro actions t
  have undated : (ofState (Sample.delivery 2)).Undated (.fresh 1) actions := by
    simp [actions, Undated, Dates, Supersedes, Action.ownTime?]
  obtain ⟨r, hr⟩ : ∃ r, t.state.records.get? (.fresh 1) = some r :=
    Option.isSome_iff_exists.mp (by decide +kernel)
  obtain ⟨hmem, hid⟩ := Sorted.get?_eq_some hr
  have htimeline : (t.state.records.get? (.fresh 1)).map MessageRecord.timeline =
      some [⟨0, 0⟩, ⟨1, 0⟩, ⟨3, 0⟩, ⟨3, 0⟩] := by
    decide +kernel
  rw [hr] at htimeline
  exact ⟨undated, r, hr, Option.some.inj htimeline,
    timeline_in_order (Sample.idle 2) rfl actions r hmem (hid ▸ undated)⟩

end Simulation

end Outreach
