import Outreach.Proofs.Delivery.Ledger

/-!
# How records progress

Three things write records. A dispatch creates them, and walks and receipts move them, in any order
and past any number of stages. All three keep the stamps and the reason of failure in agreement with
the status. Between two moments of a delivery a record has only gone forward: what was settled at
its creation stays, a stamp stays once it is set, and a failed record is never touched.
-/

namespace Outreach

namespace MessageRecord

variable {r q p : MessageRecord}

theorem Coherent.unstamped (h : r.Coherent) (failed : r.status = .failed) :
    r.deliveredAt = none ∧ r.openedAt = none ∧ r.clickedAt = none := by
  have hdelivered := h.delivered
  have hopened := h.opened
  have hclicked := h.clicked
  simp [failed] at hdelivered hopened hclicked
  exact ⟨hdelivered, hopened, hclicked⟩

/-- The later form of a record has gone forward from the earlier one, or is the same. -/
structure AdvancesTo (r q : MessageRecord) : Prop where
  id : q.id = r.id
  campaignId : q.campaignId = r.campaignId
  customerId : q.customerId = r.customerId
  messageId : q.messageId = r.messageId
  sentAt : q.sentAt = r.sentAt
  failureReason : q.failureReason = r.failureReason
  delivered : r.deliveredAt.isSome → q.deliveredAt = r.deliveredAt
  opened : r.openedAt.isSome → q.openedAt = r.openedAt
  clicked : r.clickedAt.isSome → q.clickedAt = r.clickedAt
  rank : ∀ n, r.status.rank? = some n → ∃ m, q.status.rank? = some m ∧ n ≤ m
  untouched : r.status = .failed → q = r
  unfailing : q.status = .failed → r.status = .failed

theorem AdvancesTo.refl (r : MessageRecord) : r.AdvancesTo r := by
  constructor
  case rank =>
    intro n hn
    exact ⟨n, hn, Nat.le_refl n⟩
  all_goals simp

theorem AdvancesTo.trans (h : r.AdvancesTo q) (k : q.AdvancesTo p) : r.AdvancesTo p := by
  constructor
  · exact k.id.trans h.id
  · exact k.campaignId.trans h.campaignId
  · exact k.customerId.trans h.customerId
  · exact k.messageId.trans h.messageId
  · exact k.sentAt.trans h.sentAt
  · exact k.failureReason.trans h.failureReason
  · intro set
    have hq := h.delivered set
    exact (k.delivered (hq ▸ set)).trans hq
  · intro set
    have hq := h.opened set
    exact (k.opened (hq ▸ set)).trans hq
  · intro set
    have hq := h.clicked set
    exact (k.clicked (hq ▸ set)).trans hq
  · intro n hn
    obtain ⟨m, hm, hnm⟩ := h.rank n hn
    obtain ⟨l, hl, hml⟩ := k.rank m hm
    exact ⟨l, hl, by omega⟩
  · intro failed
    have hq := h.untouched failed
    exact (k.untouched (hq ▸ failed)).trans hq
  · intro failed
    exact h.unfailing (k.unfailing failed)

theorem AdvancesTo.clicked_of_clicked (h : r.AdvancesTo q) (clicked : r.status = .clicked) :
    q.status = .clicked := by
  obtain ⟨m, hm, hlast⟩ := h.rank 3 (by rw [clicked]; rfl)
  cases hq : q.status <;> rw [hq] at hm <;> simp [DeliveryStatus.rank?] at hm ⊢ <;> omega

theorem stamp_of_isSome {old : Option Instant} (set : old.isSome) (stage target : Nat)
    (time : Instant) : stamp stage target time old = old := by
  obtain ⟨since, rfl⟩ := Option.isSome_iff_exists.mp set
  simp [stamp]

theorem advancesTo_moved {status : DeliveryStatus} {current target : Nat}
    (from_rank : r.status.rank? = some current) (to_rank : status.rank? = some target)
    (forward : current < target) (time : Instant) : r.AdvancesTo (r.moved status target time) := by
  constructor
  case delivered => exact fun set => stamp_of_isSome set 1 target time
  case opened => exact fun set => stamp_of_isSome set 2 target time
  case clicked => exact fun set => stamp_of_isSome set 3 target time
  case rank =>
    intro n hn
    have hcurrent : n = current := Option.some.inj (hn.symm.trans from_rank)
    exact ⟨target, to_rank, by omega⟩
  case untouched => exact fun failed => absurd failed (ne_failed_of_rank? from_rank)
  case unfailing => exact fun failed => absurd failed (ne_failed_of_rank? to_rank)
  all_goals rfl

theorem advancesTo_advance (r : MessageRecord) (status : DeliveryStatus) (time : Instant) :
    r.AdvancesTo (r.advance status time).2 := by
  rcases r.advance_cases status time with h | ⟨current, target, hc, ht, hlt, h⟩
  · rw [h]
    exact AdvancesTo.refl r
  · rw [h]
    exact advancesTo_moved hc ht hlt time

end MessageRecord

namespace Simulation

variable {s : Simulation}

/-- The records, those in the book and those that are still to be created, are coherent. -/
structure Coherent (s : Simulation) : Prop where
  records : ∀ r ∈ s.state.records.records, r.Coherent
  drafts : ∀ d ∈ s.running, ∀ m ∈ d.dispatch.untried, m.Coherent

theorem coherent_act (h : s.Coherent) (a : Action) : (s.act a).Coherent := by
  constructor
  · intro r hr
    cases recorded_act s a with
    | same _ book =>
      rw [book] at hr
      exact h.records r hr
    | moved _ id status time book =>
      rw [book, RecordBook.records_advance] at hr
      obtain ⟨q, hq, rfl⟩ := List.mem_map.mp hr
      by_cases hid : q.id = id
      · rw [if_pos hid]
        exact MessageRecord.coherent_advance (h.records q hq) status time
      · rw [if_neg hid]
        exact h.records q hq
    | created d present _ m untried _ book =>
      rcases RecordBook.mem_records_create book hr with rfl | hold
      · exact h.drafts d (dispatchAt?_eq_some present).1 r untried
      · exact h.records r hold
  · intro d hd m hm
    rcases untried_act hd hm with ⟨p, hp, _, _, hold⟩ | hnew
    · exact h.drafts p hp m hold
    · exact hnew.coherent

theorem coherent_run (h : s.Coherent) (actions : List Action) : (s.run actions).Coherent := by
  induction actions generalizing s with
  | nil => exact h
  | cons a rest ih => exact ih (coherent_act h a)

theorem coherent_ofState {start : DeliveryState} (empty : start.records = .empty) :
    (ofState start).Coherent := by
  constructor
  · simp [ofState, empty, RecordBook.empty]
  · simp [ofState]

/-- An action takes no record out of the book, and moves records forward only. -/
theorem advancesTo_act (o : s.Orderly) (a : Action) {id : Uuid} {r : MessageRecord}
    (hr : s.state.records.get? id = some r) :
    ∃ q, (s.act a).state.records.get? id = some q ∧ r.AdvancesTo q := by
  cases recorded_act s a with
  | same _ book =>
    rw [book]
    exact ⟨r, hr, .refl r⟩
  | moved _ j status time book =>
    rw [book, RecordBook.get?_advance, hr]
    by_cases hid : id = j
    · rw [if_pos hid]
      exact ⟨_, rfl, r.advancesTo_advance status time⟩
    · rw [if_neg hid]
      exact ⟨r, rfl, .refl r⟩
  | created d present _ m untried _ book =>
    obtain ⟨hmem, rfl⟩ := Sorted.get?_eq_some hr
    have hfresh := o.fresh (dispatchAt?_eq_some present).1 untried r hmem
    rw [RecordBook.get?_create_of_ne book hfresh.symm]
    exact ⟨r, hr, .refl r⟩

theorem advancesTo_run (o : s.Orderly) (actions : List Action) {id : Uuid} {r : MessageRecord}
    (hr : s.state.records.get? id = some r) :
    ∃ q, (s.run actions).state.records.get? id = some q ∧ r.AdvancesTo q := by
  induction actions generalizing s r with
  | nil => exact ⟨r, hr, .refl r⟩
  | cons a rest ih =>
    obtain ⟨q, hq, hrq⟩ := advancesTo_act o a hr
    obtain ⟨p, hp, hqp⟩ := ih (orderly_act o a) hq
    exact ⟨p, hp, hrq.trans hqp⟩

/-- At every moment of a delivery that began with no records, the stamps and the reason of failure
of every record are those of its status, and every record is found at every later moment and has
only gone forward. -/
theorem records_progress {start : DeliveryState} (idle : start.Idle)
    (empty : start.records = .empty) (earlier later : List Action) :
    let s := (ofState start).run earlier
    let t := s.run later
    ∀ r ∈ s.state.records.records,
      r.Coherent ∧
        (r.status = .failed → r.deliveredAt = none ∧ r.openedAt = none ∧ r.clickedAt = none) ∧
        ∃ q, t.state.records.get? r.id = some q ∧ r.AdvancesTo q := by
  intro s t r hr
  have coherent : s.Coherent := coherent_run (coherent_ofState empty) earlier
  have order : s.Orderly := orderly_run (orderly_ofState idle) earlier
  have hcoherent : r.Coherent := coherent.records r hr
  exact ⟨hcoherent, hcoherent.unstamped, advancesTo_run order later (order.get?_of_mem hr)⟩

/-- A receipt skips a stage, and the walk of the message comes too late for it. -/
theorem skipped_stage_progresses :
    let s := (ofState (Sample.delivery 2)).run [.enter Sample.campaign, .begin .nil ["a", "b"],
      .work (.dispatch 0), .work (.dispatch 0), .work (.dispatch 0)]
    let t := s.run [.receive ⟨"msg_0_a", .opened, none⟩, .work (.walk 1)]
    ∃ r ∈ s.state.records.records, r.status = .queued ∧ r.Coherent ∧
      ∃ q, t.state.records.get? r.id = some q ∧ q.status = .opened ∧ r.AdvancesTo q := by
  intro s t
  obtain ⟨r, hr⟩ : ∃ r, s.state.records.get? (.fresh 1) = some r :=
    Option.isSome_iff_exists.mp (by decide +kernel)
  obtain ⟨hmem, hid⟩ := Sorted.get?_eq_some hr
  have hqueued : (s.state.records.get? (.fresh 1)).map MessageRecord.status = some .queued := by
    decide +kernel
  have hopened : (t.state.records.get? (.fresh 1)).map MessageRecord.status = some .opened := by
    decide +kernel
  obtain ⟨hcoherent, _, q, hq, hadvances⟩ := records_progress (Sample.idle 2) rfl
    [.enter Sample.campaign, .begin .nil ["a", "b"], .work (.dispatch 0), .work (.dispatch 0),
      .work (.dispatch 0)] [.receive ⟨"msg_0_a", .opened, none⟩, .work (.walk 1)] r hmem
  rw [hr] at hqueued
  rw [← hid, hq] at hopened
  exact ⟨r, hmem, Option.some.inj hqueued, hcoherent, q, hq, Option.some.inj hopened, hadvances⟩

end Simulation

end Outreach
