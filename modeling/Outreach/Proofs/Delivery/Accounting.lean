import Outreach.Proofs.Campaign.Book
import Outreach.Proofs.Delivery.Faults

/-!
# The accounts of a dispatch

While one dispatch of a campaign runs, the records of the campaign are, as they began, those that
its steps have created, in whatever order other tasks take their own steps. No two of them have the
same message. So when the dispatch completes the campaign, what it has counted on the way agrees
with what the book of records holds.
-/

namespace Outreach

open Exchange

variable {campaign : Uuid} {total : Nat} {deeds : List Deed} {d : Dispatch}

/-- What a completed campaign shows of the dispatch that has completed it. The records are those of
the campaign at that moment. -/
structure Accounted (campaign : Uuid) (total : Nat) (deeds : List Deed) (c : Campaign)
    (records : List MessageRecord) : Prop where
  status : c.status = .completed
  recipients : c.stats.totalRecipients = total
  settled : c.stats.sent + c.stats.failed = total
  sent : c.stats.sent = records.countP fun r => decide (r.status ≠ .failed)
  failed : c.stats.failed =
    records.countP (fun r => decide (r.status = .failed)) + refusals (Deed.exchanges deeds)
  tried : records.length + refusals (Deed.exchanges deeds) = total
  reason : c.stats.failureReason = none
  distinct : (records.map MessageRecord.messageId).Nodup
  /-- The stages are those that the records had reached when the dispatch looked for them last. -/
  stages : ∃ x ∈ deeds, x.exchange? = some ⟨.findRecords, none⟩ ∧
    let found := x.state.records.find (.campaign campaign)
    c.stats.delivered = found.countP (·.deliveredAt.isSome) ∧
      c.stats.opened = found.countP (·.openedAt.isSome) ∧
      c.stats.clicked = found.countP (·.clickedAt.isSome)

/-- As they began, the records of a campaign are those of all records that belong to it. -/
theorem RecordBook.origins_find (s : RecordBook) (campaign : Uuid) :
    (s.find (.campaign campaign)).map MessageRecord.origin =
      s.origins.filter fun r => r.campaignId == campaign := by
  rw [RecordBook.find, RecordBook.origins, List.filter_map]
  congr 1
  apply List.filter_congr
  intro r _
  rw [RecordBook.admits_campaign, Function.comp_apply, MessageRecord.origin_campaignId]
  exact Bool.beq_comm

/-! ## The end of a dispatch -/

theorem Reached.running {first : Dispatch} (h : Reached first deeds d) {x : Deed}
    (hx : x ∈ deeds) : x.dispatch.isEnded = false := by
  induction h with
  | start => cases hx
  | step _ running s ih =>
    rcases List.mem_append.mp hx with hold | hnew
    · exact ih hold
    · rw [List.mem_singleton.mp hnew]
      exact running
  | rearrange _ _ _ ih => exact ih hx

theorem end?_nextBatch {s t : DeliveryState} {tally : Tally} {rest : List String} {d' : Dispatch}
    (next : DeliveryState.NextBatch s d tally rest d' t) (stats : CampaignStats) :
    d'.end? ≠ some (.completed stats) := by
  intro h
  cases next with
  | none_left _ dispatch _ =>
    rw [dispatch] at h
    cases h
  | cancelled _ dispatch _ =>
    rw [dispatch] at h
    cases h
  | drafts _ _ _ _ _ _ _ _ dispatch _ =>
    rw [dispatch] at h
    cases h

/-- The step that ends a dispatch as completed has completed its campaign. -/
theorem Deed.completed_spec (x : Deed) (running : x.dispatch.isEnded = false)
    {stats : CampaignStats} (ended : x.next.end? = some (.completed stats)) :
    ∃ u, x.state.completeCampaign x.dispatch.campaign stats = .ok u ∧
      x.result.campaigns = u.campaigns := by
  cases x.step_spec with
  | begun _ _ _ _ next => exact False.elim (end?_nextBatch next stats ended)
  | tried _ _ _ _ _ _ _ _ _ after =>
    cases after with
    | same_batch _ _ _ dispatch _ =>
      rw [dispatch] at ended
      cases ended
    | settled _ next => exact False.elim (end?_nextBatch next stats ended)
  | counted _ _ _ dispatch _ =>
    rw [dispatch] at ended
    cases ended
  | completed stats' u _ answered dispatch state =>
    rw [dispatch] at ended
    cases ended
    exact ⟨u, answered, by rw [state]; rfl⟩
  | stopped _ _ dispatch _ =>
    rw [dispatch] at ended
    cases ended
  | failed _ _ dispatch _ =>
    rw [dispatch] at ended
    cases ended
  | ended _ phase _ _ => simp [Dispatch.isEnded, phase] at running

/-- A history without a fatal failure has tried every recipient, and counts what the tally says. -/
theorem Past.completed {how : DispatchEnd} (h : Past campaign total deeds (.ended how))
    (kept : how ≠ .cancelled) (unfailing : ∀ e ∈ Deed.exchanges deeds, e.fatal? = none) :
    ∃ before tally stats, how = .completed stats ∧ Tried total before tally ∧
      created (Deed.exchanges deeds) = created before ∧
      refusals (Deed.exchanges deeds) = refusals before ∧
      Counted campaign total deeds tally stats := by
  obtain ⟨finished, counted⟩ := h
  obtain ⟨past, hpast⟩ : ∃ past, past = Deed.exchanges deeds := ⟨_, rfl⟩
  rw [← hpast] at finished unfailing ⊢
  cases finished with
  | cancelled => exact False.elim (kept rfl)
  | failed before cause stopped _ =>
    obtain ⟨e, he, hfatal⟩ := mem_fatal_of_findSome stopped.summary.1
    rw [unfailing e (List.mem_append_left _ he)] at hfatal
    cases hfatal
  | completed before tally tried counts =>
    obtain ⟨hcreated, hrefusals⟩ := created_completed before (.ofCounts total tally counts)
    obtain ⟨tally', x, hx, hfound, hstats⟩ := counted _ rfl
    have hsent : tally.sent = tally'.sent := congrArg CampaignStats.sent hstats
    have hfailed : tally.failed = tally'.failed := congrArg CampaignStats.failed hstats
    have htally : tally = tally' := by
      cases tally
      cases tally'
      simp_all
    subst htally
    exact ⟨before, tally, _, rfl, tried, hcreated, hrefusals, x, hx, hfound, hstats⟩

namespace Simulation

/-- The records of a campaign are those that the steps of the dispatch with a
ticket have created. -/
structure Booked (s : Simulation) (campaign : Uuid) (ticket : Nat) (deeds : List Deed) : Prop where
  drawn : ticket < s.state.agenda.nextTicket
  only : ∀ r ∈ s.running, r.dispatch.campaign = campaign ↔ r.ticket = ticket
  records : ((s.state.records.find (.campaign campaign)).map MessageRecord.origin).Perm
    (deeds.filterMap Deed.created?)
  named : ∀ m ∈ deeds.filterMap Deed.created?, (s.state.records.lookup? m.messageId).isSome
  distinct : ((deeds.filterMap Deed.created?).map MessageRecord.messageId).Nodup

variable {s : Simulation} {ticket : Nat}

theorem booked_begin (o : s.Orderly) (alone : ∀ r ∈ s.running, r.dispatch.campaign ≠ campaign)
    (unlogged : s.state.records.find (.campaign campaign) = []) (recipients : List String) :
    (s.act (.begin campaign recipients)).Booked campaign s.state.agenda.nextTicket [] := by
  constructor
  · exact Nat.lt_succ_self _
  · intro r hr
    rcases List.mem_append.mp hr with hold | hnew
    · have hlt := o.drawn r hold
      constructor
      · intro hcampaign
        exact False.elim (alone r hold hcampaign)
      · intro hticket
        omega
    · rw [List.mem_singleton.mp hnew]
      exact ⟨fun _ => rfl, fun _ => rfl⟩
  · have hnone : (s.act (.begin campaign recipients)).state.records.find (.campaign campaign) =
        [] := unlogged
    rw [hnone]
    exact List.Perm.nil
  · rintro m ⟨⟩
  · exact List.nodup_nil

/-- Steps of other dispatches create records for other campaigns only. -/
theorem created_of_booked (o : s.Orderly) (h : s.Booked campaign ticket deeds) (a : Action) :
    (s.createdBy a).toList.filter (fun r => r.campaignId == campaign) =
      ((s.deedOf? ticket a).bind Deed.created?).toList := by
  have hown : s.createdBy a = none → (s.deedOf? ticket a).bind Deed.created? = none := by
    intro hnone
    cases hdeed : s.deedOf? ticket a with
    | none => rfl
    | some x =>
      have hstep := eq_of_deedOf? hdeed
      subst hstep
      rw [createdBy, hdeed] at hnone
      exact hnone
  cases recorded_act s a with
  | same none_created _ =>
    rw [none_created, hown none_created]
    rfl
  | moved none_created =>
    rw [none_created, hown none_created]
    rfl
  | created r present step m untried by_action _ =>
    have hr := (dispatchAt?_eq_some present).1
    have hcampaign := (o.drafts r hr m untried).campaign
    rw [by_action]
    by_cases hticket : r.ticket = ticket
    · have hm : (m.campaignId == campaign) = true := by
        rw [hcampaign, (h.only r hr).mpr hticket]
        exact beq_self_eq_true campaign
      rw [step, hticket] at by_action ⊢
      rw [createdBy] at by_action
      rw [by_action, Option.toList_some, List.filter_cons, if_pos hm]
      rfl
    · have hm : ¬ (m.campaignId == campaign) = true := by
        rw [hcampaign, beq_iff_eq, h.only r hr]
        exact hticket
      have hdeed : s.deedOf? ticket a = none := by
        rw [step]
        exact deedOf?_of_isStepOf (by simpa [Action.isStepOf] using hticket)
      rw [hdeed, Option.toList_some, List.filter_cons, if_neg hm]
      rfl

theorem booked_act (o : s.Orderly) (h : s.Booked campaign ticket deeds) {a : Action}
    (single : ∀ recipients, a ≠ .begin campaign recipients) :
    (s.act a).Booked campaign ticket (deeds ++ (s.deedOf? ticket a).toList) := by
  have hcreated : (deeds ++ (s.deedOf? ticket a).toList).filterMap Deed.created? =
      deeds.filterMap Deed.created? ++ ((s.deedOf? ticket a).bind Deed.created?).toList := by
    rw [List.filterMap_append]
    cases s.deedOf? ticket a with
    | none => rfl
    | some x => cases hx : x.created? <;> simp [hx]
  constructor
  · exact Nat.lt_of_lt_of_le h.drawn (nextTicket_act s a)
  · intro r hr
    rcases mem_running_act hr with ⟨q, hq, hticket, hcampaign⟩ | ⟨recipients, hbegin, hticket⟩
    · rw [← hticket, ← hcampaign]
      exact h.only q hq
    · constructor
      · intro hcampaign
        rw [hcampaign] at hbegin
        exact False.elim (single recipients hbegin)
      · intro hsame
        have hlt := h.drawn
        omega
  · have hbefore := h.records
    have hperm := (origins_act o a).filter fun r => r.campaignId == campaign
    rw [RecordBook.origins_find] at hbefore ⊢
    rw [List.filter_append, created_of_booked o h a] at hperm
    rw [hcreated]
    exact (hperm.trans List.perm_append_comm).trans (hbefore.append_right _)
  · intro m hm
    rw [hcreated] at hm
    rcases List.mem_append.mp hm with hold | hnew
    · exact lookup?_act s a (h.named m hold)
    · obtain ⟨x, hdeed, hx⟩ := Option.bind_eq_some_iff.mp (Option.mem_toList.mp hnew)
      rw [RecordBook.lookup?_create (create_of_deedOf? hdeed hx).2, if_pos rfl]
      rfl
  · rw [hcreated, List.map_append]
    refine List.nodup_append.mpr ⟨h.distinct, ?_, ?_⟩
    · cases (s.deedOf? ticket a).bind Deed.created? with
      | none => exact List.nodup_nil
      | some m => exact List.nodup_singleton _
    · intro name hname other hother
      obtain ⟨m, hm, rfl⟩ := List.mem_map.mp hname
      obtain ⟨m', hm', rfl⟩ := List.mem_map.mp hother
      obtain ⟨x, hdeed, hx⟩ := Option.bind_eq_some_iff.mp (Option.mem_toList.mp hm')
      have htaken := h.named m hm
      have hunused := (RecordBook.create_eq_ok.mp (create_of_deedOf? hdeed hx).2).1
      intro he
      rw [he, hunused] at htaken
      cases htaken

theorem booked_run (o : s.Orderly) (h : s.Booked campaign ticket deeds) {actions : List Action}
    (single : ∀ recipients, .begin campaign recipients ∉ actions) :
    (s.run actions).Booked campaign ticket (deeds ++ s.deeds ticket actions) := by
  induction actions generalizing s deeds with
  | nil => simpa [Simulation.deeds] using h
  | cons a rest ih =>
    have hact : (s.act a).Booked campaign ticket (deeds ++ (s.deedOf? ticket a).toList) := by
      refine booked_act o h ?_
      intro recipients he
      exact single recipients (by rw [he]; exact List.mem_cons_self)
    have hrest : ∀ recipients, .begin campaign recipients ∉ rest := by
      intro recipients hmem
      exact single recipients (List.mem_cons_of_mem a hmem)
    have hrun := ih (orderly_act o a) hact hrest
    rwa [List.append_assoc] at hrun

/-- The records of the campaign count as the creations of the dispatch do. -/
theorem Booked.countP (h : s.Booked campaign ticket deeds) (p : MessageRecord → Bool)
    (settled : ∀ r : MessageRecord, p r.origin = p r) :
    (s.state.records.find (.campaign campaign)).countP p =
      (created (Deed.exchanges deeds)).countP p := by
  have hcount := h.records.countP_eq p
  rw [List.countP_map, ← Deed.created_exchanges] at hcount
  rw [← hcount]
  apply List.countP_congr
  intro r _
  rw [Function.comp_apply, settled]

theorem Booked.distinct_find (h : s.Booked campaign ticket deeds) :
    ((s.state.records.find (.campaign campaign)).map MessageRecord.messageId).Nodup := by
  have hperm := h.records.map MessageRecord.messageId
  rw [List.map_map] at hperm
  exact hperm.nodup_iff.mpr h.distinct

/-- Where a dispatch ends with an action, the action is the step that has ended it. -/
theorem last_deed {actions : List Action} {a : Action}
    (before : Deed.end? (s.deeds ticket actions) = none) {how : DispatchEnd}
    (ended : Deed.end? (s.deeds ticket (actions ++ [a])) = some how) :
    ∃ x, (s.run actions).deedOf? ticket a = some x ∧ x ∈ s.deeds ticket (actions ++ [a]) ∧
      x.next.end? = some how := by
  rw [deeds_concat] at ended ⊢
  cases hx : (s.run actions).deedOf? ticket a with
  | none =>
    rw [hx, Option.toList_none, List.append_nil, before] at ended
    cases ended
  | some x =>
    rw [hx, Option.toList_some, Deed.end?, List.getLast?_concat] at ended
    exact ⟨x, rfl, List.mem_append_right _ List.mem_cons_self, ended⟩

theorem length_eq_unfailed_add_failed (records : List MessageRecord) :
    records.length = records.countP (fun r => decide (r.status ≠ .failed)) +
      records.countP fun r => decide (r.status = .failed) := by
  have h := List.length_eq_countP_add_countP (fun r : MessageRecord => decide (r.status ≠ .failed))
    (l := records)
  rw [h]
  congr 1
  apply List.countP_congr
  intro r _
  simp

/-- A history that has tried everyone agrees with the records in the book. -/
theorem Booked.accounted (h : s.Booked campaign ticket deeds) {before : List Exchange}
    {tally : Tally} {stats : CampaignStats} (tried : Tried total before tally)
    (same_created : created (Deed.exchanges deeds) = created before)
    (same_refusals : refusals (Deed.exchanges deeds) = refusals before)
    (counted : Counted campaign total deeds tally stats) {c : Campaign}
    (status : c.status = .completed) (own : c.stats = stats) :
    Accounted campaign total deeds c (s.state.records.find (.campaign campaign)) := by
  obtain ⟨x, hx, hfound, rfl⟩ := counted
  have hsent := h.countP (fun r => decide (r.status ≠ .failed))
    fun r => by simp [r.origin_status_eq_failed]
  have hfailed := h.countP (fun r => decide (r.status = .failed))
    fun r => by simp [r.origin_status_eq_failed]
  rw [same_created, ← tried.sent] at hsent
  rw [same_created] at hfailed
  have hall : tally.sent + tally.failed = total := tried.all
  have htf := tried.failed
  constructor
  · exact status
  · rw [own]
    rfl
  · rw [own]
    exact hall
  · rw [own, hsent]
    rfl
  · rw [own, hfailed, same_refusals]
    exact htf
  · rw [length_eq_unfailed_add_failed, hsent, hfailed, same_refusals]
    omega
  · rw [own]
    rfl
  · exact h.distinct_find
  · refine ⟨x, hx, hfound, ?_⟩
    rw [own]
    exact ⟨rfl, rfl, rfl⟩

/-- Where one dispatch of a campaign runs and the books fail in nothing but creations, the campaign
is completed with the number of its recipients, and its counts are those of its records. Other
dispatches, walks and receipts go on between the steps as they like. -/
theorem completed_dispatch_accounts {s : Simulation} (reachable : s.Reachable) (campaign : Uuid)
    (recipients : List String) (actions : List Action)
    (alone : ∀ r ∈ s.running, r.dispatch.campaign ≠ campaign)
    (unlogged : s.state.records.find (.campaign campaign) = [])
    (single : ∀ names, .begin campaign names ∉ actions) :
    let begun := s.act (.begin campaign recipients)
    let ticket := s.state.agenda.nextTicket
    let last := Action.work (.dispatch ticket)
    let deeds := begun.deeds ticket (actions ++ [last])
    let t := begun.run (actions ++ [last])
    ∀ how, Deed.end? (begun.deeds ticket actions) = none → Deed.end? deeds = some how →
      how ≠ .cancelled → (∀ e ∈ Deed.exchanges deeds, e.fatal? = none) →
      ∃ c, t.state.campaigns.get? campaign = some c ∧
        Accounted campaign recipients.length deeds c
          (t.state.records.find (.campaign campaign)) := by
  intro begun ticket last deeds t how before ended kept unfailing
  have o : s.Orderly := reachable.orderly
  have obegun : begun.Orderly := orderly_act o _
  obtain ⟨d, reached⟩ := history_run obegun (holds_begin o campaign recipients) .start
    (actions ++ [last])
  rw [List.nil_append] at reached
  have hend : d.end? = some how := (reached.end? rfl).symm.trans ended
  have hpast := reached.past.2.2
  rw [d.phase_of_end? hend] at hpast
  obtain ⟨past, tally, stats, rfl, tried, hcreated, hrefusals, counted⟩ :=
    hpast.completed kept unfailing
  obtain ⟨y, hy, hmem, hlast⟩ := last_deed before ended
  have hresult : t.state = y.result := by
    change (begun.run (actions ++ [last])).state = y.result
    rw [run_concat]
    exact state_act_of_deedOf? hy
  obtain ⟨u, answered, hcampaigns⟩ := y.completed_spec (reached.running hmem) hlast
  obtain ⟨book, hbook, rfl⟩ := DeliveryState.completeCampaign_ok answered
  rw [reached.same_campaign y hmem] at hbook
  obtain ⟨c, hc, hstatus, hstats⟩ := CampaignBook.exists_of_complete hbook
  have booked : t.Booked campaign ticket deeds := by
    refine booked_run obegun (booked_begin o alone unlogged recipients) ?_
    intro names hnames
    rcases List.mem_append.mp hnames with hnames | hnames
    · exact single names hnames
    · have hstep := List.mem_singleton.mp hnames
      simp [last] at hstep
  refine ⟨c, ?_, booked.accounted tried hcreated hrefusals counted hstatus hstats⟩
  rw [hresult, hcampaigns]
  exact hc

/-- One creation is refused, another would repeat a message of the same instant, and a receipt comes
in before the records are counted. -/
theorem partly_refused_dispatch_accounts :
    let s := (ofState (Sample.delivery 2)).run [.enter Sample.campaign]
    let ticket := s.state.agenda.nextTicket
    let step := Action.work (.dispatch ticket)
    let actions := [step, .setOutages ⟨[.addRecordFor "a"], [], false⟩, step, step, step,
      .receive ⟨"msg_0_b", .opened, none⟩, step]
    let recipients := ["a", "b", "b"]
    let begun := s.act (.begin .nil recipients)
    let deeds := begun.deeds ticket (actions ++ [step])
    let t := begun.run (actions ++ [step])
    (∃ c, t.state.campaigns.get? .nil = some c ∧
      Accounted .nil recipients.length deeds c (t.state.records.find (.campaign .nil))) ∧
      refusals (Deed.exchanges deeds) = 2 := by
  intro s ticket step actions recipients begun deeds t
  have reachable : s.Reachable := Sample.reachable 2 rfl _
  have alone : ∀ r ∈ s.running, r.dispatch.campaign ≠ .nil := fun r hr => by cases hr
  have single : ∀ names, .begin .nil names ∉ actions := by simp [actions, step]
  obtain ⟨how, ended⟩ : ∃ how, Deed.end? deeds = some how :=
    Option.isSome_iff_exists.mp (by decide +kernel)
  have kept : how ≠ .cancelled := by
    rintro rfl
    exact absurd ended (by decide +kernel)
  have unfailing : ∀ e ∈ Deed.exchanges deeds, e.fatal? = none := by decide +kernel
  have before : Deed.end? (begun.deeds ticket actions) = none := by decide +kernel
  refine ⟨?_, by decide +kernel⟩
  simp only [t, deeds, begun, step, ticket]
  exact completed_dispatch_accounts reachable .nil recipients actions alone rfl single how before
    ended kept unfailing

end Simulation

end Outreach
