import Mathlib.Data.List.Flatten
import Outreach.Proofs.Delivery.Effects

/-!
# Order in a delivery

The identifiers of all records, those in the book and those that dispatches are still to create, are
distinct, and none of them will be issued again. Tickets name one task each. Whatever is done to a
delivery keeps this order, so that no two tasks ever touch the same draft.
-/

namespace Outreach

/-- The identifiers are distinct, and those from the supply are among the ones issued. -/
structure Reserved (ids : List Uuid) (issued : Nat) : Prop where
  distinct : ids.Nodup
  taken : ∀ n, Uuid.fresh n ∈ ids → n < issued

theorem Reserved.of_subperm {ids ids' : List Uuid} {issued issued' : Nat}
    (h : Reserved ids issued) (sub : ids'.Subperm ids) (le : issued ≤ issued') :
    Reserved ids' issued' := by
  constructor
  · obtain ⟨l, hperm, hsub⟩ := sub
    exact hperm.nodup_iff.mp (h.distinct.sublist hsub)
  · intro n hn
    have hlt := h.taken n (sub.subset hn)
    omega

theorem Reserved.append_fresh {ids : List Uuid} {issued first : Nat} (h : Reserved ids issued)
    (le : issued ≤ first) (n : Nat) :
    Reserved (ids ++ (List.range' first n).map Uuid.fresh) (first + n) := by
  constructor
  · refine List.nodup_append.mpr ⟨h.distinct, ?_, ?_⟩
    · exact (List.nodup_range' (s := first) (n := n)).map fun a b => Uuid.fresh_injective
    · intro a ha b hb hab
      obtain ⟨k, hk, rfl⟩ := List.mem_map.mp hb
      have hlow := (List.mem_range'_1.mp hk).1
      have hlt := h.taken k (hab ▸ ha)
      omega
  · intro k hk
    rcases List.mem_append.mp hk with hold | hnew
    · have hlt := h.taken k hold
      omega
    · obtain ⟨j, hj, he⟩ := List.mem_map.mp hnew
      have hjk := Uuid.fresh_injective he
      have hhigh := (List.mem_range'_1.mp hj).2
      omega

namespace RunningDispatch

variable {α : Type} {running : List RunningDispatch} {r q : RunningDispatch}

/-- Where tickets are distinct, what a list of dispatches holds is what one of them holds and the
others hold, also when that one is replaced. -/
theorem flatMap_set_perm (distinct : (running.map ticket).Nodup) (hq : q ∈ running)
    (same : q.ticket = r.ticket) (f : RunningDispatch → List α) :
    ((running.map fun p => if p.ticket = r.ticket then r else p).flatMap f).Perm
      (f r ++ (running.filter fun p => p.ticket != r.ticket).flatMap f) := by
  have hperm := map_ticket_perm distinct hq fun _ => r
  rw [same] at hperm
  exact hperm.flatMap_right f

theorem flatMap_perm (distinct : (running.map ticket).Nodup) (hr : r ∈ running)
    (f : RunningDispatch → List α) :
    (running.flatMap f).Perm
      (f r ++ (running.filter fun p => p.ticket != r.ticket).flatMap f) :=
  (ticket_perm distinct hr).flatMap_right f

end RunningDispatch

namespace Simulation

/-- The identifiers of all records, created or still to be created. -/
def reserved (s : Simulation) : List Uuid :=
  s.state.records.ids ++ s.running.flatMap fun r => r.dispatch.untriedIds

/-- Tasks have tickets of their own, and records have identifiers of their own. -/
structure Orderly (s : Simulation) : Prop where
  agenda : s.state.agenda.Ticketed
  tickets : (s.running.map RunningDispatch.ticket).Nodup
  drawn : ∀ r ∈ s.running, r.ticket < s.state.agenda.nextTicket
  reserved : Reserved s.reserved s.state.issued
  drafts : ∀ r ∈ s.running, ∀ m ∈ r.dispatch.untried, m.DraftOf r.dispatch.campaign

variable {s : Simulation}

theorem Orderly.of_state (h : s.Orderly) {t : DeliveryState} (agenda : t.agenda.Ticketed)
    (next : s.state.agenda.nextTicket ≤ t.agenda.nextTicket)
    (ids : t.records.ids = s.state.records.ids) (issued : s.state.issued ≤ t.issued) :
    Orderly { s with state := t } := by
  constructor
  · exact agenda
  · exact h.tickets
  · intro r hr
    exact Nat.lt_of_lt_of_le (h.drawn r hr) next
  · have hids : Simulation.reserved { s with state := t } = s.reserved := by
      simp only [Simulation.reserved, ids]
    rw [hids]
    exact h.reserved.of_subperm (List.Subperm.refl _) issued
  · exact h.drafts

/-- The order does not need dispatches to stay. -/
theorem Orderly.of_running (h : s.Orderly) {running : List RunningDispatch}
    (tickets : (running.map RunningDispatch.ticket).Sublist (s.running.map RunningDispatch.ticket))
    (stays : ∀ r ∈ running, ∃ q ∈ s.running, q.ticket = r.ticket ∧ q.dispatch = r.dispatch)
    (ids : (running.flatMap fun r => r.dispatch.untriedIds).Sublist
      (s.running.flatMap fun r => r.dispatch.untriedIds)) :
    Orderly { s with running } := by
  constructor
  · exact h.agenda
  · exact h.tickets.sublist tickets
  · intro r hr
    obtain ⟨q, hq, hticket, _⟩ := stays r hr
    rw [← hticket]
    exact h.drawn q hq
  · exact h.reserved.of_subperm ((ids.append_left s.state.records.ids).subperm) (Nat.le_refl _)
  · intro r hr
    obtain ⟨q, hq, _, hdispatch⟩ := stays r hr
    rw [← hdispatch]
    exact h.drafts q hq

theorem tickets_replace (s : Simulation) (r : RunningDispatch) :
    ((s.replace r).running.map RunningDispatch.ticket).Sublist
      (s.running.map RunningDispatch.ticket) := by
  simp only [replace]
  split
  · exact List.filter_sublist.map _
  · have hsame : (s.running.map fun q => if q.ticket = r.ticket then r else q).map
        RunningDispatch.ticket = s.running.map RunningDispatch.ticket := by
      rw [List.map_map]
      apply List.map_congr_left
      intro q _
      by_cases he : q.ticket = r.ticket
      · simp [he]
      · simp [he]
    rw [hsame]

/-- Where a dispatch that has ended holds nothing, what is held in a delivery after a dispatch has
been replaced is what the new one holds and the others hold. -/
theorem flatMap_replace (distinct : (s.running.map RunningDispatch.ticket).Nodup)
    {hold : Dispatch → List Uuid} (ended : ∀ d, d.isEnded = true → hold d = [])
    {q r : RunningDispatch} (hq : q ∈ s.running) (same : q.ticket = r.ticket) :
    ((s.replace r).running.flatMap fun p => hold p.dispatch).Perm
      (hold r.dispatch ++ (s.running.filter fun p => p.ticket != r.ticket).flatMap
        fun p => hold p.dispatch) := by
  simp only [replace]
  split
  · rename_i hend
    rw [ended _ hend, List.nil_append]
  · exact RunningDispatch.flatMap_set_perm distinct hq same fun p => hold p.dispatch

/-- Identifiers that are kept outside of dispatches and those that dispatches hold stay distinct
when a step of one dispatch only moves them and adds some from the supply. -/
theorem reserved_replace (distinct : (s.running.map RunningDispatch.ticket).Nodup)
    {hold : Dispatch → List Uuid} (ended : ∀ d, d.isEnded = true → hold d = [])
    {r : RunningDispatch} (hr : r ∈ s.running) {t : DeliveryState} {d' : Dispatch}
    {ids ids' : List Uuid}
    (h : Reserved (ids ++ s.running.flatMap fun p => hold p.dispatch) s.state.issued)
    (step : ∃ first n, s.state.issued ≤ first ∧ first + n ≤ t.issued ∧
      (ids' ++ hold d').Subperm
        ((ids ++ hold r.dispatch) ++ (List.range' first n).map Uuid.fresh)) :
    Reserved (ids' ++ (Simulation.replace { s with state := t }
      { r with dispatch := d' }).running.flatMap fun p => hold p.dispatch) t.issued := by
  obtain ⟨first, n, hfirst, hissued, hsub⟩ := step
  let drafted := (List.range' first n).map Uuid.fresh
  let others := (s.running.filter fun p => p.ticket != r.ticket).flatMap fun p => hold p.dispatch
  -- The step exchanges what its own dispatch holds, and keeps what the others have.
  have hafter : (ids' ++ (Simulation.replace { s with state := t }
      { r with dispatch := d' }).running.flatMap fun p => hold p.dispatch).Perm
        ((ids' ++ hold d') ++ others) := by
    rw [List.append_assoc]
    exact (flatMap_replace (s := { s with state := t }) (r := { r with dispatch := d' })
      distinct ended hr rfl).append_left _
  have hbefore : (ids ++ s.running.flatMap fun p => hold p.dispatch).Perm
      ((ids ++ hold r.dispatch) ++ others) := by
    rw [List.append_assoc]
    exact (RunningDispatch.flatMap_perm distinct hr fun q => hold q.dispatch).append_left _
  have hswap : (((ids ++ hold r.dispatch) ++ drafted) ++ others).Perm
      (((ids ++ hold r.dispatch) ++ others) ++ drafted) := by
    rw [List.append_assoc, List.append_assoc _ others]
    exact List.perm_append_comm.append_left _
  have hkept := (List.subperm_append_right others).mpr hsub
  have hall := hkept.trans (hswap.trans (hbefore.symm.append_right _)).subperm
  exact (h.append_fresh hfirst n).of_subperm (hafter.subperm.trans hall) hissued

theorem Orderly.replace (h : s.Orderly) {r : RunningDispatch} (hr : r ∈ s.running)
    {t : DeliveryState} {d' : Dispatch} (agenda : t.agenda.Ticketed)
    (next : s.state.agenda.nextTicket ≤ t.agenda.nextTicket)
    (ids : ∃ first n, s.state.issued ≤ first ∧ first + n ≤ t.issued ∧
      (t.records.ids ++ d'.untriedIds).Subperm
        ((s.state.records.ids ++ r.dispatch.untriedIds) ++
          (List.range' first n).map Uuid.fresh))
    (drafts : ∀ m ∈ d'.untried, m.DraftOf d'.campaign) :
    Orderly (Simulation.replace { s with state := t } { r with dispatch := d' }) := by
  constructor
  · exact agenda
  · exact h.tickets.sublist (tickets_replace { s with state := t } { r with dispatch := d' })
  · intro q hq
    rcases mem_replace hq with rfl | ⟨hold, _⟩
    · exact Nat.lt_of_lt_of_le (h.drawn r hr) next
    · exact Nat.lt_of_lt_of_le (h.drawn q hold) next
  · exact reserved_replace h.tickets (fun _ => Dispatch.untriedIds_ended) hr h.reserved ids
  · intro q hq
    rcases mem_replace hq with rfl | ⟨hq, _⟩
    · exact drafts
    · exact h.drafts q hq

/-- No record that is still to be created has the identifier of one that is there. -/
theorem Orderly.untried_ne (h : s.Orderly) {r : RunningDispatch} (hr : r ∈ s.running)
    {id : Uuid} (present : id ∈ s.state.records.ids) {m : MessageRecord}
    (hm : m ∈ r.dispatch.untried) : m.id ≠ id := by
  intro he
  have hdisjoint := (List.nodup_append.mp h.reserved.distinct).2.2
  have hmem : m.id ∈ s.running.flatMap fun r => r.dispatch.untriedIds :=
    List.mem_flatMap.mpr ⟨r, hr, List.mem_map.mpr ⟨m, hm, rfl⟩⟩
  exact hdisjoint id present m.id hmem he.symm

theorem Orderly.fresh (h : s.Orderly) {r : RunningDispatch} (hr : r ∈ s.running)
    {m : MessageRecord} (hm : m ∈ r.dispatch.untried) :
    ∀ b ∈ s.state.records.records, b.id ≠ m.id := by
  intro b hb he
  exact h.untried_ne hr (List.mem_map.mpr ⟨b, hb, rfl⟩) hm he.symm

/-- In an orderly delivery every record is found under its identifier. -/
theorem Orderly.get?_of_mem (o : s.Orderly) {r : MessageRecord}
    (hr : r ∈ s.state.records.records) : s.state.records.get? r.id = some r :=
  Sorted.get?_of_mem (List.nodup_append.mp o.reserved.distinct).1 hr

/-- In an orderly delivery a task is found by its ticket. -/
theorem Orderly.dispatchAt?_of_mem (h : s.Orderly) {r : RunningDispatch} (hr : r ∈ s.running) :
    s.dispatchAt? r.ticket = some r := by
  cases hfound : s.dispatchAt? r.ticket with
  | none =>
    rw [dispatchAt?, List.find?_eq_none] at hfound
    exact False.elim (hfound r hr (by simp))
  | some q =>
    obtain ⟨hq, hticket⟩ := dispatchAt?_eq_some hfound
    rw [List.inj_on_of_nodup_map h.tickets hq hr hticket]

theorem Orderly.walkAt?_of_mem (h : s.Orderly) {e : PendingEntry Walk}
    (he : e ∈ s.state.agenda.pending) : s.walkAt? e.ticket = some e := by
  cases hfound : s.walkAt? e.ticket with
  | none =>
    rw [walkAt?, List.find?_eq_none] at hfound
    exact False.elim (hfound e he (by simp))
  | some a =>
    obtain ⟨ha, hticket⟩ := walkAt?_eq_some hfound
    rw [h.agenda.eq_of_ticket ha he hticket]

/-! ## Actions -/

theorem ticketed_walkStep {state t : DeliveryState} {e : PendingEntry Walk}
    (h : DeliveryState.WalkStep state e t) (ticketed : state.agenda.Ticketed) :
    t.agenda.Ticketed ∧ t.agenda.nextTicket = state.agenda.nextTicket := by
  rcases h.agenda_cases with agenda | ⟨_, _, _, _, _, agenda⟩
  · rw [agenda]
    exact ⟨Agenda.ticketed_finish ticketed e.ticket, rfl⟩
  · rw [agenda]
    exact ⟨Agenda.ticketed_progress ticketed e.ticket _, rfl⟩

theorem ids_walkStep {state t : DeliveryState} {e : PendingEntry Walk}
    (h : DeliveryState.WalkStep state e t) :
    t.records.ids = state.records.ids ∧ state.issued ≤ t.issued := by
  rcases h.book_cases with kept | ⟨_, _, _, advanced⟩
  · exact ⟨congrArg RecordBook.ids kept.records, kept.issued⟩
  · rw [advanced.records]
    exact ⟨RecordBook.ids_advance _ _ _ _, advanced.issued⟩

theorem orderly_deliver (h : s.Orderly) {receipt : Receipt} {record : MessageRecord}
    {outcome : Outcome} {t : DeliveryState}
    (answered : s.state.deliver receipt record = .ok (outcome, t)) :
    Orderly { s with state := t } := by
  obtain ⟨_, advanced, hagenda⟩ := DeliveryState.deliver_ok answered
  have hids : t.records.ids = s.state.records.ids := by
    rw [advanced.records]
    exact RecordBook.ids_advance _ _ _ _
  rcases hagenda with ⟨_, hcancel⟩ | ⟨_, hsame⟩
  · refine h.of_state ?_ ?_ hids advanced.issued
    · rw [hcancel]
      exact Agenda.ticketed_cancel h.agenda record.id
    · rw [hcancel]
      exact Nat.le_refl _
  · refine h.of_state ?_ ?_ hids advanced.issued
    · rw [hsame]
      exact h.agenda
    · exact Nat.le_of_eq (congrArg Agenda.nextTicket hsame).symm

theorem orderly_stepDispatch (h : s.Orderly) {r : RunningDispatch} (hr : r ∈ s.running)
    {d' : Dispatch} {t : DeliveryState}
    (step : DeliveryState.DispatchStep s.state r.dispatch d' t) :
    (Simulation.replace { s with state := t } { r with dispatch := d' }).Orderly := by
  have hagenda := step.agenda
    (P := fun a => a.Ticketed ∧ s.state.agenda.nextTicket ≤ a.nextTicket)
    (fun a record campaign walk _ _ ha =>
      ⟨Agenda.ticketed_schedule ha.1 record campaign walk,
        Nat.le_trans ha.2 (Agenda.nextTicket_schedule a record campaign walk)⟩)
    ⟨h.agenda, Nat.le_refl _⟩
  refine h.replace hr hagenda.1 hagenda.2 step.ids ?_
  intro m hm
  rw [step.campaign]
  rcases step.untried hm with hold | hnew
  · exact h.drafts r hr m hold
  · exact hnew.toDraftOf

theorem orderly_rearrange (h : s.Orderly) {r : RunningDispatch} (hr : r ∈ s.running)
    (untried : List MessageRecord) (tried : List (Option MessageRecord)) :
    (s.replace { r with dispatch := r.dispatch.rearrange untried tried }).Orderly := by
  have hperm := r.dispatch.untried_rearrange_perm untried tried
  refine h.replace (t := s.state) hr h.agenda (Nat.le_refl _) ?_ ?_
  · refine ⟨s.state.issued, 0, Nat.le_refl _, Nat.le_refl _, ?_⟩
    rw [List.range'_zero, List.map_nil, List.append_nil]
    exact ((hperm.map MessageRecord.id).append_left s.state.records.ids).subperm
  · intro m hm
    rw [Dispatch.campaign_rearrange]
    exact h.drafts r hr m (hperm.mem_iff.mp hm)

theorem orderly_dispatchInBackground (h : s.Orderly) (campaign : Uuid)
    (recipients : List String) : (s.dispatchInBackground campaign recipients).Orderly := by
  have hids : (s.dispatchInBackground campaign recipients).reserved = s.reserved := by
    simp [reserved, dispatchInBackground, Agenda.takeTicket, Dispatch.untriedIds,
      Dispatch.untried, Dispatch.start]
  constructor
  · exact Agenda.ticketed_takeTicket h.agenda
  · simp only [dispatchInBackground, Agenda.takeTicket, List.map_append, List.map_cons,
      List.map_nil]
    refine List.nodup_append.mpr ⟨h.tickets, List.nodup_singleton _, ?_⟩
    intro n hn m hm
    obtain ⟨r, hr, rfl⟩ := List.mem_map.mp hn
    have hlt := h.drawn r hr
    have hm' := List.mem_singleton.mp hm
    omega
  · intro r hr
    rcases List.mem_append.mp hr with hold | hnew
    · exact Nat.lt_succ_of_lt (h.drawn r hold)
    · rw [List.mem_singleton.mp hnew]
      exact Nat.lt_succ_self _
  · rw [hids]
    exact h.reserved
  · intro r hr m hm
    rcases List.mem_append.mp hr with hold | hnew
    · exact h.drafts r hold m hm
    · rw [List.mem_singleton.mp hnew] at hm
      cases hm

theorem orderly_unregister (h : s.Orderly) (campaign : Uuid) :
    (s.unregister campaign).Orderly := by
  have hticket : ∀ r : RunningDispatch, (if r.dispatch.campaign = campaign then
      { r with registered := false } else r).ticket = r.ticket := by
    intro r
    split <;> rfl
  have hdispatch : ∀ r : RunningDispatch, (if r.dispatch.campaign = campaign then
      { r with registered := false } else r).dispatch = r.dispatch := by
    intro r
    split <;> rfl
  refine h.of_running ?_ ?_ ?_
  · have hsame : (s.unregister campaign).running.map RunningDispatch.ticket =
        s.running.map RunningDispatch.ticket := by
      rw [unregister, List.map_map]
      exact List.map_congr_left fun r _ => hticket r
    exact hsame ▸ List.Sublist.refl _
  · intro r hr
    obtain ⟨q, hq, rfl⟩ := List.mem_map.mp hr
    exact ⟨q, hq, (hticket q).symm, (hdispatch q).symm⟩
  · have hsame : ((s.unregister campaign).running.flatMap fun r => r.dispatch.untriedIds) =
        s.running.flatMap fun r => r.dispatch.untriedIds := by
      rw [unregister, List.flatMap_map]
      congr 1
      funext r
      rw [hdispatch]
    exact hsame ▸ List.Sublist.refl _

theorem orderly_drop (h : s.Orderly) (campaign : Uuid) : (s.drop campaign).Orderly := by
  have hsub : (s.running.filter fun r =>
      !(r.registered && r.dispatch.campaign == campaign)).Sublist s.running :=
    List.filter_sublist
  refine h.of_running (hsub.map _) ?_ ?_
  · intro r hr
    exact ⟨r, hsub.subset hr, rfl, rfl⟩
  · exact hsub.flatMap fun r => r.dispatch.untriedIds

theorem orderly_act (h : s.Orderly) (a : Action) : (s.act a).Orderly := by
  cases s.acted a with
  | idle _ state =>
    rw [state]
    exact h
  | walked e _ _ step state =>
    obtain ⟨hticketed, hnext⟩ := ticketed_walkStep step h.agenda
    obtain ⟨hids, hissued⟩ := ids_walkStep step
    rw [state]
    exact h.of_state hticketed (Nat.le_of_eq hnext.symm) hids hissued
  | stepped r present _ step state =>
    rw [state]
    exact orderly_stepDispatch h (dispatchAt?_eq_some present).1 step
  | rearranged r present untried tried _ state =>
    rw [state]
    exact orderly_rearrange h (dispatchAt?_eq_some present).1 untried tried
  | begun campaign recipients _ state =>
    rw [state]
    exact orderly_dispatchInBackground h campaign recipients
  | delivered receipt record outcome u answered _ state =>
    rw [state]
    exact orderly_deliver h answered
  | cancelled campaign _ state =>
    rw [state]
    exact h.of_state (Agenda.ticketed_cancelAll h.agenda campaign)
      (Nat.le_of_eq (Agenda.nextTicket_cancelAll _ campaign).symm) rfl (Nat.le_refl _)
  | aborted record _ state =>
    rw [state]
    exact h.of_state (Agenda.ticketed_cancel h.agenda record) (Nat.le_refl _) rfl (Nat.le_refl _)
  | unregistered campaign _ state =>
    rw [state]
    exact orderly_unregister h campaign
  | dropped campaign _ state =>
    rw [state]
    exact orderly_drop h campaign
  | issued _ state =>
    rw [state]
    exact h.of_state h.agenda (Nat.le_refl _) rfl (Nat.le_succ _)
  -- What is left touches neither the agenda nor the records nor the supply of identifiers.
  | moved _ _ _ state | recounted _ _ _ _ _ _ state | disturbed _ _ state | entered _ _ state
  | deleted _ _ state =>
    rw [state]
    exact h.of_state h.agenda (Nat.le_refl _) rfl (Nat.le_refl _)

theorem orderly_run (h : s.Orderly) (actions : List Action) : (s.run actions).Orderly := by
  induction actions generalizing s with
  | nil => exact h
  | cons a rest ih => exact ih (orderly_act h a)

end Simulation

/-! ## Where a delivery begins -/

/-- Nothing is pending, and the records that are there already have identifiers of their own. -/
structure DeliveryState.Idle (s : DeliveryState) : Prop where
  pending : s.agenda.pending = []
  reserved : Reserved s.records.ids s.issued

/-- A delivery starts with nothing in it, and nothing is out of order. -/
theorem DeliveryState.start_ok {settings : DeliverySettings} {nodeId : String} {now : Instant}
    {s : DeliveryState} (h : DeliveryState.start settings nodeId now = .ok s) :
    s.outages = .none ∧ s.campaigns = .empty ∧ s.records = .empty ∧ s.agenda = .empty := by
  rw [DeliveryState.start, Answer.bind_eq_ok] at h
  obtain ⟨_, _, h⟩ := h
  cases Answer.pure_eq_ok.mp h
  exact ⟨rfl, rfl, rfl, rfl⟩

theorem DeliveryState.idle_start {settings : DeliverySettings} {nodeId : String} {now : Instant}
    {s : DeliveryState} (h : DeliveryState.start settings nodeId now = .ok s) : s.Idle := by
  obtain ⟨_, _, hrecords, hagenda⟩ := start_ok h
  constructor
  · rw [hagenda]
    rfl
  · rw [hrecords]
    constructor
    · exact List.nodup_nil
    · rintro n ⟨⟩

theorem Simulation.orderly_ofState {s : DeliveryState} (h : s.Idle) :
    (Simulation.ofState s).Orderly := by
  constructor
  · exact Agenda.ticketed_of_clear h.pending
  · exact List.nodup_nil
  · rintro r ⟨⟩
  · have hids : (Simulation.ofState s).reserved = s.records.ids := by
      simp [Simulation.reserved, Simulation.ofState]
    rw [hids]
    exact h.reserved
  · rintro r ⟨⟩

/-- The delivery has been brought about by actions that began with nothing pending. -/
def Simulation.Reachable (s : Simulation) : Prop :=
  ∃ start : DeliveryState, start.Idle ∧
    ∃ actions, s = (Simulation.ofState start).run actions

theorem Simulation.Reachable.orderly {s : Simulation} (h : s.Reachable) : s.Orderly := by
  obtain ⟨start, idle, actions, rfl⟩ := h
  exact orderly_run (orderly_ofState idle) actions

namespace Sample

/-- Settings that leave nothing to chance. -/
def settings (batchSize : Nat) : DeliverySettings where
  batchSize
  sendSuccessRate := 1.0
  deliveryRate := 1.0
  openRate := 1.0
  clickRate := 1.0
  deliveryDelay := ⟨1000, 1000⟩
  openDelay := ⟨1000, 1000⟩
  clickDelay := ⟨1000, 1000⟩
  rngSeed := none

/-- A delivery with empty books. -/
def delivery (batchSize : Nat) : DeliveryState where
  now := ⟨0, 0⟩
  settings := settings batchSize
  nodeId := "node"
  creationMs := 0
  outages := .none
  campaigns := .empty
  records := .empty
  agenda := .empty
  generator := .seeded 0
  recorder := .silent
  issued := 0
  turns := 0

theorem idle (batchSize : Nat) : (delivery batchSize).Idle :=
  ⟨rfl, List.nodup_nil, by rintro n ⟨⟩⟩

theorem reachable (batchSize : Nat)
    (start : DeliveryState.start (settings batchSize) "node" ⟨0, 0⟩ = .ok (delivery batchSize))
    (actions : List Action) :
    ((Simulation.ofState (delivery batchSize)).run actions).Reachable :=
  ⟨delivery batchSize, DeliveryState.idle_start start, actions, rfl⟩

def campaign : Campaign where
  id := .nil
  name := "spring"
  segmentId := .nil
  template := ⟨"subject", "body"⟩
  status := .draft
  stats := .ofRecipients 2
  createdBy := "owner"
  createdAt := ⟨0, 0⟩
  updatedAt := ⟨0, 0⟩

end Sample

end Outreach
