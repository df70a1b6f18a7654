import Outreach.Proofs.Delivery.Cancellation

/-!
# Walks and batches keep apart

A record that a batch has drafted belongs to that batch alone until the batch is settled, and to one
walk at most from then on. So a batch that is settled takes the place of no walk that is pending,
and no walk moves a record whose batch is still in flight.
-/

namespace Outreach

namespace Agenda

variable {α : Type}

/-- The records that work is pending for. -/
def records (s : Agenda α) : List Uuid :=
  s.pending.map PendingEntry.record

theorem progress_records (s : Agenda α) (ticket : Nat) (work : α) :
    (s.progress ticket work).records = s.records := by
  rw [records, progress, List.map_map]
  apply List.map_congr_left
  intro e _
  simp only [Function.comp_apply]
  split <;> rfl

/-- New work is pending for its record alone. -/
theorem schedule_records (s : Agenda α) (record campaign : Uuid) (work : α) :
    (s.schedule record campaign work).2.records.Subperm (record :: s.records) := by
  simp only [schedule]
  split
  · exact (List.sublist_cons_self record s.records).subperm
  · have hkept : (s.pending.filter fun e => e.record != record).Sublist s.pending :=
      List.filter_sublist
    have hcons := ((hkept.map PendingEntry.record).cons_cons record).subperm
    rw [records, List.map_append]
    exact List.perm_append_comm.subperm.trans hcons

end Agenda

/-- The identifiers of the records of the batch in flight. -/
def Dispatch.batchIds (d : Dispatch) : List Uuid :=
  d.created.map MessageRecord.id ++ d.untriedIds

theorem Dispatch.batchIds_ended {d : Dispatch} (h : d.isEnded = true) : d.batchIds = [] := by
  cases hp : d.phase with
  | ended how =>
    simp [Dispatch.batchIds, Dispatch.created, Dispatch.untriedIds, Dispatch.untried, hp]
  | _ => simp [Dispatch.isEnded, hp] at h

namespace DeliveryState

variable {s t : DeliveryState} {d d' : Dispatch} {e : PendingEntry Walk}

theorem WalkStep.agenda_records (h : WalkStep s e t) :
    t.agenda.records.Sublist s.agenda.records := by
  rcases h.agenda_cases with agenda | ⟨_, _, _, _, _, agenda⟩
  · rw [agenda]
    exact List.filter_sublist.map PendingEntry.record
  · rw [agenda, Agenda.progress_records]

/-- Settling a batch makes work pending only for what the batch has created. -/
theorem agenda_records_settleBatch (tally : Tally) (s : DeliveryState)
    (tried : List (Option MessageRecord)) :
    (settleBatch tally s tried).2.agenda.records.Subperm
      (s.agenda.records ++ tried.reduceOption.map MessageRecord.id) := by
  induction tried generalizing tally s with
  | nil =>
    rw [List.reduceOption_nil, List.map_nil, List.append_nil]
    exact List.Subperm.refl _
  | cons attempt rest ih =>
    rw [settleBatch_cons]
    refine (ih _ _).trans ?_
    cases attempt with
    | none => exact List.Subperm.refl _
    | some r =>
      have hfirst : (settleAttempt tally s (some r)).2.agenda.records.Subperm
          (r.id :: s.agenda.records) := by
        by_cases h : r.status = .queued
        · rw [settleAttempt_sent tally s h]
          exact Agenda.schedule_records s.agenda r.id r.campaignId _
        · rw [settleAttempt_unsent tally s h]
          exact (List.sublist_cons_self r.id s.agenda.records).subperm
      rw [List.reduceOption_cons_of_some, List.map_cons]
      exact ((List.subperm_append_right _).mpr hfirst).trans List.perm_middle.symm.subperm

theorem NextBatch.batchIds {tally : Tally} {rest : List String}
    (h : NextBatch s d tally rest d' t) : d'.batchIds = d'.untriedIds := by
  rw [Dispatch.batchIds, h.created, List.map_nil, List.nil_append]

/-- A batch that a step leaves behind has been settled, and only then is there more work pending.
What is drafted goes by identifiers that have not been issued. -/
theorem DispatchStep.agenda_records (h : DispatchStep s d d' t) :
    ∃ first n, s.issued ≤ first ∧ first + n ≤ t.issued ∧
      (t.agenda.records ++ d'.batchIds).Subperm
        ((s.agenda.records ++ d.batchIds) ++ (List.range' first n).map Uuid.fresh) := by
  have hquiet : t.agenda = s.agenda → s.issued ≤ t.issued → d'.batchIds = [] →
      ∃ first n, s.issued ≤ first ∧ first + n ≤ t.issued ∧
        (t.agenda.records ++ d'.batchIds).Subperm
          ((s.agenda.records ++ d.batchIds) ++ (List.range' first n).map Uuid.fresh) := by
    intro hagenda hissued hnone
    refine ⟨s.issued, 0, Nat.le_refl _, hissued, ?_⟩
    rw [hagenda, hnone, List.append_nil, List.range'_zero, List.map_nil, List.append_nil]
    exact (List.sublist_append_left _ _).subperm
  cases h with
  | begun recipients u phase answered next =>
    obtain ⟨book, _, rfl⟩ := startProcessing_ok answered
    obtain ⟨n, hn, hids⟩ := next.untriedIds
    refine ⟨s.issued + 1, n, Nat.le_succ _, hn, ?_⟩
    have hnone : d.batchIds = [] := by
      simp [Dispatch.batchIds, Dispatch.created, Dispatch.untriedIds, Dispatch.untried, phase]
    rw [next.kept.agenda, next.batchIds, hids, hnone, List.append_nil]
    exact List.Subperm.refl _
  | tried next more tried rest tally attempt u phase attempted after =>
    obtain ⟨book, rfl, hattempt⟩ := attempted.book
    have hd : d.batchIds = tried.reduceOption.map MessageRecord.id ++
        next.id :: more.map MessageRecord.id := by
      simp [Dispatch.batchIds, Dispatch.created, Dispatch.untriedIds, Dispatch.untried, phase]
    have hmoved : ((tried ++ [attempt]).reduceOption.map MessageRecord.id ++
        more.map MessageRecord.id).Sublist d.batchIds := by
      rw [hd, List.reduceOption_append, List.map_append, List.append_assoc]
      refine List.Sublist.append_left ?_ _
      rcases hattempt with ⟨rfl, _⟩ | ⟨rfl, _⟩
      · exact List.Sublist.refl _
      · exact List.sublist_cons_self next.id _
    cases after with
    | same_batch following later left dispatch state =>
      subst dispatch state left
      refine ⟨s.issued, 0, Nat.le_refl _, Nat.le_refl _, ?_⟩
      rw [List.range'_zero, List.map_nil, List.append_nil]
      exact (hmoved.append_left s.agenda.records).subperm
    -- what the batch has created goes over to the agenda, and the next batch is drafted afresh
    | settled left next' =>
      have hkept := kept_settleBatch tally { s with records := book } (tried ++ [attempt])
      have hsettled := agenda_records_settleBatch tally { s with records := book }
        (tried ++ [attempt])
      obtain ⟨n, hn, hids⟩ := next'.untriedIds
      refine ⟨_, n, hkept.issued, hn, ?_⟩
      rw [left, List.map_nil, List.append_nil] at hmoved
      rw [next'.kept.agenda, next'.batchIds, hids]
      exact (List.subperm_append_right _).mpr
        (hsettled.trans (hmoved.append_left s.agenda.records).subperm)
  | counted _ _ _ dispatch state =>
    subst dispatch state
    exact hquiet rfl (Nat.le_refl _) rfl
  | completed _ _ _ answered dispatch state =>
    obtain ⟨book, _, rfl⟩ := completeCampaign_ok answered
    subst dispatch state
    exact hquiet rfl (Nat.le_succ _) rfl
  | stopped _ _ dispatch state =>
    subst dispatch state
    exact hquiet rfl (Nat.le_refl _) rfl
  | failed cause _ dispatch state =>
    obtain ⟨book, hbook, _⟩ := failCampaign_book s d.campaign cause.message
    rw [hbook] at state
    subst dispatch state
    exact hquiet rfl (Nat.le_succ _) rfl
  | ended how phase dispatch state =>
    subst dispatch state
    refine hquiet rfl (Nat.le_refl _) ?_
    simp [Dispatch.batchIds, Dispatch.created, Dispatch.untriedIds, Dispatch.untried, phase]

end DeliveryState

namespace Simulation

variable {s : Simulation}

/-- No record has two walks, or a walk while its batch is in flight, or belongs to two batches. -/
def Apart (s : Simulation) : Prop :=
  Reserved (s.state.agenda.records ++ s.running.flatMap fun r => r.dispatch.batchIds)
    s.state.issued

theorem Apart.eq_of_record (h : s.Apart) {a b : PendingEntry Walk}
    (ha : a ∈ s.state.agenda.pending) (hb : b ∈ s.state.agenda.pending)
    (same : a.record = b.record) : a = b :=
  List.inj_on_of_nodup_map (List.nodup_append.mp h.distinct).1 ha hb same

theorem Apart.batch_ne (h : s.Apart) {e : PendingEntry Walk} (he : e ∈ s.state.agenda.pending)
    {r : RunningDispatch} (hr : r ∈ s.running) {m : MessageRecord}
    (hm : m ∈ r.dispatch.created ∨ m ∈ r.dispatch.untried) : m.id ≠ e.record := by
  intro hsame
  have hdisjoint := (List.nodup_append.mp h.distinct).2.2
  have hbatch : m.id ∈ r.dispatch.batchIds :=
    List.mem_append.mpr (hm.imp List.mem_map_of_mem List.mem_map_of_mem)
  exact hdisjoint e.record (List.mem_map_of_mem he) m.id (List.mem_flatMap.mpr ⟨r, hr, hbatch⟩)
    hsame.symm

theorem Apart.of_state (h : s.Apart) {t : DeliveryState}
    (records : t.agenda.records.Sublist s.state.agenda.records)
    (issued : s.state.issued ≤ t.issued) : Apart { s with state := t } :=
  h.of_subperm (records.append_right _).subperm issued

theorem Apart.of_running (h : s.Apart) {running : List RunningDispatch}
    (batches : (running.flatMap fun r => r.dispatch.batchIds).Sublist
      (s.running.flatMap fun r => r.dispatch.batchIds)) : Apart { s with running } :=
  h.of_subperm (batches.append_left _).subperm (Nat.le_refl _)

theorem Apart.replace (h : s.Apart) (o : s.Orderly) {r : RunningDispatch} (hr : r ∈ s.running)
    {t : DeliveryState} {d' : Dispatch}
    (step : ∃ first n, s.state.issued ≤ first ∧ first + n ≤ t.issued ∧
      (t.agenda.records ++ d'.batchIds).Subperm
        ((s.state.agenda.records ++ r.dispatch.batchIds) ++
          (List.range' first n).map Uuid.fresh)) :
    Apart (Simulation.replace { s with state := t } { r with dispatch := d' }) :=
  reserved_replace o.tickets (fun _ => Dispatch.batchIds_ended) hr h step

theorem apart_act (o : s.Orderly) (h : s.Apart) (a : Action) : (s.act a).Apart := by
  cases s.acted a with
  | walked e _ _ step state =>
    rw [state]
    exact h.of_state step.agenda_records (ids_walkStep step).2
  | stepped r present _ step state =>
    rw [state]
    exact h.replace o (dispatchAt?_eq_some present).1 step.agenda_records
  | rearranged r present untried tried _ state =>
    rw [state]
    refine h.replace (t := s.state) o (dispatchAt?_eq_some present).1 ?_
    refine ⟨s.state.issued, 0, Nat.le_refl _, Nat.le_refl _, ?_⟩
    have hcreated := r.dispatch.created_rearrange_perm untried tried
    have huntried := r.dispatch.untried_rearrange_perm untried tried
    rw [List.range'_zero, List.map_nil, List.append_nil]
    exact (((hcreated.map _).append (huntried.map _)).append_left _).subperm
  | begun campaign recipients _ state =>
    rw [state]
    have hbatches : (s.running ++ [(⟨s.state.agenda.nextTicket, true,
        .start campaign recipients s.now s.state.turns⟩ : RunningDispatch)]).flatMap
          (fun r => r.dispatch.batchIds) = s.running.flatMap fun r => r.dispatch.batchIds := by
      simp [Dispatch.batchIds, Dispatch.created, Dispatch.untriedIds, Dispatch.untried,
        Dispatch.start]
    rw [Apart, dispatchInBackground]
    exact hbatches ▸ h
  | delivered receipt record outcome u answered _ state =>
    rw [state]
    obtain ⟨_, advanced, ⟨_, hcancel⟩ | ⟨_, hsame⟩⟩ := DeliveryState.deliver_ok answered
    · refine h.of_state ?_ advanced.issued
      rw [hcancel]
      exact List.filter_sublist.map PendingEntry.record
    · refine h.of_state ?_ advanced.issued
      rw [hsame]
  | cancelled campaign _ state =>
    rw [state]
    have hpending := s.state.agenda.pending_cancelAll_sublist campaign
    exact h.of_state (hpending.map PendingEntry.record) (Nat.le_refl _)
  | aborted record _ state =>
    rw [state]
    exact h.of_state (List.filter_sublist.map PendingEntry.record) (Nat.le_refl _)
  | unregistered campaign _ state =>
    rw [state]
    have hsame : ((s.unregister campaign).running.flatMap fun r => r.dispatch.batchIds) =
        s.running.flatMap fun r => r.dispatch.batchIds := by
      rw [unregister, List.flatMap_map]
      congr 1
      funext r
      split <;> rfl
    exact h.of_running (hsame ▸ List.Sublist.refl _)
  | dropped campaign _ state =>
    rw [state]
    have hkept : (s.running.filter fun r =>
        !(r.registered && r.dispatch.campaign == campaign)).Sublist s.running :=
      List.filter_sublist
    exact h.of_running (hkept.flatMap fun r => r.dispatch.batchIds)
  | issued _ state =>
    rw [state]
    exact h.of_state (List.Sublist.refl _) (Nat.le_succ _)
  | idle _ state | moved _ _ _ state | recounted _ _ _ _ _ _ state | disturbed _ _ state
  | entered _ _ state | deleted _ _ state =>
    rw [state]
    exact h

theorem apart_ofState {start : DeliveryState} (idle : start.Idle) : (ofState start).Apart := by
  constructor
  · simp [ofState, Agenda.records, idle.pending]
  · simp [ofState, Agenda.records, idle.pending]

end Simulation

end Outreach
