import Outreach.Proofs.Delivery.Accounting

/-!
# Who a dispatch sends to

A dispatch asks the book for one record of each recipient. The records that it has asked for, those
of its batch and the recipients that are left make up the recipients that it began with, so a
dispatch that has completed its campaign has asked for each of them once.
-/

namespace Outreach

open DeliveryState

variable {campaign : Uuid} {recipients : List String} {deeds : List Deed} {d d' : Dispatch}

/-- The record that the next step of a dispatch tries to create. -/
def Dispatch.asked? (d : Dispatch) : Option MessageRecord :=
  match d.phase with
  | .creating next _ _ _ _ => some next
  | _ => none

namespace Deed

/-- The records that the steps of a history have tried to create. -/
def asked (deeds : List Deed) : List MessageRecord :=
  deeds.filterMap fun x => x.dispatch.asked?

theorem asked_concat (deeds : List Deed) (x : Deed) :
    asked (deeds ++ [x]) = asked deeds ++ x.dispatch.asked?.toList := by
  cases h : x.dispatch.asked? <;> simp [asked, List.filterMap_append, h]

end Deed

/-- The recipients of a dispatch in a phase are those that it has asked for and those left. -/
def Asked (recipients : List String) (asked : List MessageRecord) : DispatchPhase → Prop
  | .starting left => asked = [] ∧ left = recipients
  | .creating next more _ rest _ => (asked.map MessageRecord.customerId ++
      ((next :: more).map MessageRecord.customerId ++ rest)).Perm recipients
  | .counting _ | .completing _ | .ended (.completed _) =>
    (asked.map MessageRecord.customerId).Perm recipients
  | .aborting _ | .ended .cancelled | .ended (.failed _) =>
    ∃ left, (asked.map MessageRecord.customerId ++ left).Perm recipients

/-- Nobody is asked for twice, and nobody but the recipients. -/
theorem Asked.exists_left {asked : List MessageRecord} {phase : DispatchPhase}
    (h : Asked recipients asked phase) :
    ∃ left, (asked.map MessageRecord.customerId ++ left).Perm recipients := by
  have hall : (asked.map MessageRecord.customerId).Perm recipients →
      ∃ left, (asked.map MessageRecord.customerId ++ left).Perm recipients := by
    intro perm
    exact ⟨[], by rwa [List.append_nil]⟩
  cases phase with
  | starting left =>
    obtain ⟨rfl, rfl⟩ := h
    exact ⟨left, List.Perm.refl left⟩
  | creating next more tried rest tally =>
    exact ⟨(next :: more).map MessageRecord.customerId ++ rest, h⟩
  | counting tally => exact hall h
  | completing stats => exact hall h
  | aborting cause => exact h
  | ended how =>
    cases how with
    | completed stats => exact hall h
    | cancelled => exact h
    | failed cause => exact h

theorem asked_nextBatch {s t : DeliveryState} {tally : Tally} {rest : List String}
    {asked : List MessageRecord} (next : NextBatch s d tally rest d' t)
    (left : (asked.map MessageRecord.customerId ++ rest).Perm recipients) :
    Asked recipients asked d'.phase := by
  cases next with
  | none_left empty dispatch _ =>
    rw [dispatch]
    rwa [empty, List.append_nil] at left
  | cancelled _ dispatch _ =>
    rw [dispatch]
    exact ⟨rest, left⟩
  | drafts batch later first more _ _ split _ dispatch drafted =>
    rw [dispatch]
    rw [split, ← drafted.names] at left
    exact left

theorem asked_step {asked : List MessageRecord} (h : Asked recipients asked d.phase)
    (s : DeliveryState) :
    Asked recipients (asked ++ d.asked?.toList) (s.stepDispatch d).1.phase := by
  have hnone : d.asked? = none → asked ++ d.asked?.toList = asked := by
    intro hd
    rw [hd, Option.toList_none, List.append_nil]
  cases s.stepDispatch_spec d with
  | begun left u phase _ next =>
    rw [hnone (by simp [Dispatch.asked?, phase])]
    rw [phase] at h
    obtain ⟨rfl, rfl⟩ := h
    exact asked_nextBatch next (List.Perm.refl _)
  | tried record more tried rest tally attempt u phase _ after =>
    have hasked : d.asked?.toList = [record] := by simp [Dispatch.asked?, phase]
    rw [phase] at h
    rw [hasked]
    have hmoved : ((asked ++ [record]).map MessageRecord.customerId ++
        (more.map MessageRecord.customerId ++ rest)).Perm recipients := by
      simpa [Asked] using h
    cases after with
    | same_batch following later left dispatch _ =>
      rw [dispatch]
      rwa [left] at hmoved
    | settled left next =>
      rw [left] at hmoved
      exact asked_nextBatch next hmoved
  | counted tally phase _ dispatch _ =>
    rw [hnone (by simp [Dispatch.asked?, phase]), dispatch]
    rwa [phase] at h
  | completed stats u phase _ dispatch _ =>
    rw [hnone (by simp [Dispatch.asked?, phase]), dispatch]
    rwa [phase] at h
  | stopped cause failed dispatch _ =>
    have hnothing : d.asked? = none := by
      rcases failed with ⟨_, phase, _⟩ | ⟨_, phase, _⟩ | ⟨_, phase, _⟩ <;>
        simp [Dispatch.asked?, phase]
    rw [hnone hnothing, dispatch]
    exact h.exists_left
  | failed cause phase dispatch _ =>
    rw [hnone (by simp [Dispatch.asked?, phase]), dispatch]
    exact h.exists_left
  | ended how phase dispatch _ =>
    rw [hnone (by simp [Dispatch.asked?, phase]), dispatch]
    exact h

theorem asked_rearrange {asked : List MessageRecord} (h : Asked recipients asked d.phase)
    (untried : List MessageRecord) (tried : List (Option MessageRecord)) :
    Asked recipients asked (d.rearrange untried tried).phase := by
  rcases d.rearrange_cases untried tried with
    he | ⟨next, more, done, rest, tally, first, others, hp, hperm, _, he⟩
  · rwa [he]
  · rw [hp] at h
    rw [he]
    exact (((hperm.map MessageRecord.customerId).append_right rest).append_left _).trans h

/-- The phase of a dispatch tells whom it has asked for. -/
theorem Reached.asked {now : Instant} {turn : Nat}
    (h : Reached (.start campaign recipients now turn) deeds d) :
    Asked recipients (Deed.asked deeds) d.phase := by
  induction h with
  | start => exact ⟨rfl, rfl⟩
  | step _ _ s ih =>
    rw [Deed.asked_concat]
    exact asked_step ih s
  | rearrange _ untried tried ih => exact asked_rearrange ih untried tried

/-- What a dispatch asks for are the drafts of its campaign. -/
theorem Reached.asked_drafts {now : Instant} {turn : Nat}
    (h : Reached (.start campaign recipients now turn) deeds d) :
    ∀ r ∈ Deed.asked deeds, r.DraftOf campaign := by
  induction h with
  | start =>
    rintro r ⟨⟩
  | @step _ before reached _ s ih =>
    intro r hr
    rw [Deed.asked_concat] at hr
    rcases List.mem_append.mp hr with hold | hnew
    · exact ih r hold
    · have hpast := reached.past.2.2
      cases hp : before.phase with
      | creating next more tried rest tally =>
        rw [hp] at hpast
        have hr : r = next := by simpa [Dispatch.asked?, hp] using hnew
        rw [hr]
        exact hpast.2.2 next List.mem_cons_self
      | _ => simp [Dispatch.asked?, hp] at hnew
  | rearrange _ _ _ ih => exact ih

/-- A dispatch that has completed its campaign has asked for each of its recipients. -/
theorem Reached.asked_perm {now : Instant} {turn : Nat}
    (h : Reached (.start campaign recipients now turn) deeds d) {stats : CampaignStats}
    (ended : Deed.end? deeds = some (.completed stats)) :
    ((Deed.asked deeds).map MessageRecord.customerId).Perm recipients := by
  have hasked := h.asked
  rw [d.phase_of_end? ((h.end? rfl).symm.trans ended)] at hasked
  exact hasked

/-! ## Answers -/

theorem Dispatch.call?_addRecord {d : Dispatch} {r : MessageRecord} :
    d.call? = some (.addRecord r) ↔ d.asked? = some r := by
  cases hp : d.phase <;> simp [call?, asked?, hp]

theorem Exchange.call_of_created {e : Exchange} {r : MessageRecord} (h : e.created? = some r) :
    e.call = .addRecord r := by
  obtain ⟨call, fault⟩ := e
  cases call with
  | addRecord record =>
    cases fault with
    | none => rw [Option.some.inj h]
    | some cause => cases h
  | _ => cases h

namespace Deed

variable {x : Deed} {r : MessageRecord}

theorem call?_of_exchange? {e : Exchange} (h : x.exchange? = some e) :
    x.dispatch.call? = some e.call := by
  obtain ⟨call, hcall, rfl⟩ := Option.map_eq_some_iff.mp h
  rw [hcall]
  split <;> rfl

/-- Only what a step has asked for is created by it. -/
theorem asked_of_created (h : x.created? = some r) : x.dispatch.asked? = some r := by
  obtain ⟨e, hx, he⟩ := Option.bind_eq_some_iff.mp h
  rw [← Dispatch.call?_addRecord, call?_of_exchange? hx, Exchange.call_of_created he]

/-- What a step has asked for is created, or the call has failed. -/
theorem asked_exchange (h : x.dispatch.asked? = some r) :
    (x.created? = some r ∧ x.state.records.create r = .ok x.result.records) ∨
      (x.created? = none ∧ ∃ cause, x.state.addRecord r = .error cause) := by
  have hcall := Dispatch.call?_addRecord.mpr h
  cases hanswer : x.state.addRecord r with
  | error cause =>
    right
    refine ⟨?_, cause, rfl⟩
    have hfailed : x.state.answer x.dispatch.campaign (.addRecord r) = .error cause := by
      simp [DeliveryState.answer, hanswer, Except.map]
    have hx := exchange?_error hcall hfailed
    rw [created?, hx]
    rfl
  | ok t =>
    left
    have hx := exchange?_ok (x := x) hcall
      (by simp [DeliveryState.answer, hanswer, Except.map])
    have hcreated : x.created? = some r := by
      rw [created?, hx]
      rfl
    refine ⟨hcreated, ?_⟩
    rcases x.created_spec with ⟨hnone, _⟩ | ⟨m, _, hsome, hcreate⟩
    · rw [hcreated] at hnone
      cases hnone
    · rw [hcreated] at hsome
      cases hsome
      exact hcreate

end Deed

end Outreach
