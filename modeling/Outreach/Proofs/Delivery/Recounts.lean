import Outreach.Proofs.Delivery.Counters

/-!
# Counting the records again

A recount takes the messages sent and the stages from the records of a campaign, and the failures
from what the campaign has shown before. Only the dispatch itself puts failures there, when it
completes the campaign. So a recount agrees with the tally of a dispatch that has completed its
campaign, and the stages that it finds only grow. Before that, and when the dispatch has ended in
any other way, it counts no failure at all, and the records that were created as failed are missing.
-/

namespace Outreach

open Exchange

variable {campaign : Uuid} {total : Nat} {recipients : List String} {deeds : List Deed}
  {d : Dispatch} {now : Instant} {turn : Nat}

/-! ## Stages and statistics that grow -/

/-- No stage was reached by more messages at the earlier time. -/
structure StageCounts.UpTo (f g : StageCounts) : Prop where
  delivered : f.delivered ≤ g.delivered
  opened : f.opened ≤ g.opened
  clicked : f.clicked ≤ g.clicked

theorem StageCounts.UpTo.refl (f : StageCounts) : f.UpTo f :=
  ⟨Nat.le_refl _, Nat.le_refl _, Nat.le_refl _⟩

theorem StageCounts.UpTo.trans {f g k : StageCounts} (h : f.UpTo g) (later : g.UpTo k) :
    f.UpTo k :=
  ⟨Nat.le_trans h.delivered later.delivered, Nat.le_trans h.opened later.opened,
    Nat.le_trans h.clicked later.clicked⟩

namespace CampaignStats

/-- The later statistics show more messages at the stages, or as many, and are
the same otherwise. -/
structure ProgressesTo (s t : CampaignStats) : Prop where
  totalRecipients : t.totalRecipients = s.totalRecipients
  sent : t.sent = s.sent
  failed : t.failed = s.failed
  deliveryRate : t.deliveryRate = s.deliveryRate
  failureReason : t.failureReason = s.failureReason
  delivered : s.delivered ≤ t.delivered
  opened : s.opened ≤ t.opened
  clicked : s.clicked ≤ t.clicked

theorem progressesTo_ofCounts (total : Nat) (tally : Tally) {f g : StageCounts} (h : f.UpTo g) :
    (ofCounts total tally f).ProgressesTo (ofCounts total tally g) :=
  ⟨rfl, rfl, rfl, rfl, rfl, h.delivered, h.opened, h.clicked⟩

/-- A recount that finds the messages sent leaves everything but the stages as it was. -/
theorem refreshed_ofCounts (total : Nat) (tally : Tally) (f : StageCounts)
    {records : List MessageRecord}
    (sent : records.countP (fun r => decide (r.status ≠ .failed)) = tally.sent) :
    (ofCounts total tally f).refreshed records = ofCounts total tally (.ofRecords records) := by
  have hsent := sent_refreshed (ofCounts total tally f) records
  rw [sent] at hsent
  have hcount : (records.countP fun r => r.status != .failed) = tally.sent := hsent
  simp only [refreshed, hcount, ofCounts]

end CampaignStats

namespace RecordBook

variable {s t : RecordBook}

/-- What no record loses when it moves is counted at least as often afterwards. -/
theorem countP_find_advance {p : MessageRecord → Bool} (s : RecordBook) (id : Uuid)
    (status : DeliveryStatus) (time : Instant)
    (keeps : ∀ r, p r = true → p (r.advance status time).2 = true) (c : Uuid) :
    (s.find (.campaign c)).countP p ≤
      ((s.advance id status time).2.find (.campaign c)).countP p := by
  simp only [find, records_advance, Sorted.modify, List.countP_filter, List.countP_map]
  apply List.countP_mono_left
  intro r _ hr
  simp only [Function.comp_apply, admits_campaign, Bool.and_eq_true] at hr ⊢
  split
  · rw [MessageRecord.campaignId_advance]
    exact ⟨keeps r hr.1, hr.2⟩
  · exact hr

theorem countP_find_create {p : MessageRecord → Bool} {r : MessageRecord} (h : s.create r = .ok t)
    (fresh : ∀ b ∈ s.records, b.id ≠ r.id) (c : Uuid) :
    (s.find (.campaign c)).countP p ≤ (t.find (.campaign c)).countP p := by
  have hperm := (records_create_perm h fresh).filter (RecordFilter.campaign c).admits
  have hsub : (s.find (.campaign c)).Sublist
      ((r :: s.records).filter (RecordFilter.campaign c).admits) :=
    (List.sublist_cons_self r s.records).filter _
  rw [find, find, hperm.countP_eq]
  exact hsub.countP_le

end RecordBook

namespace Simulation

variable {s : Simulation} {ticket : Nat}

/-- The stages that the records of a campaign have reached. -/
def stages (s : Simulation) (campaign : Uuid) : StageCounts :=
  .ofRecords (s.state.records.find (.campaign campaign))

theorem countP_find_act (o : s.Orderly) (a : Action) {p : MessageRecord → Bool}
    (keeps : ∀ r status time, p r = true → p (r.advance status time).2 = true) (campaign : Uuid) :
    (s.state.records.find (.campaign campaign)).countP p ≤
      ((s.act a).state.records.find (.campaign campaign)).countP p := by
  cases recorded_act s a with
  | same _ book => exact Nat.le_of_eq (by rw [book])
  | moved _ id status time book =>
    rw [book]
    exact s.state.records.countP_find_advance id status time (fun r => keeps r status time) campaign
  | created d present _ m untried _ book =>
    exact RecordBook.countP_find_create book (o.fresh (dispatchAt?_eq_some present).1 untried)
      campaign

/-- A stage that is reached stays reached. -/
theorem stages_act (o : s.Orderly) (a : Action) (campaign : Uuid) :
    (s.stages campaign).UpTo ((s.act a).stages campaign) := by
  constructor
  · refine countP_find_act o a (fun r status time h => ?_) campaign
    rw [(r.advancesTo_advance status time).delivered h]
    exact h
  · refine countP_find_act o a (fun r status time h => ?_) campaign
    rw [(r.advancesTo_advance status time).opened h]
    exact h
  · refine countP_find_act o a (fun r status time h => ?_) campaign
    rw [(r.advancesTo_advance status time).clicked h]
    exact h

theorem stages_run (o : s.Orderly) (actions : List Action) (campaign : Uuid) :
    (s.stages campaign).UpTo ((s.run actions).stages campaign) := by
  induction actions generalizing s with
  | nil => exact .refl _
  | cons a rest ih => exact (stages_act o a campaign).trans (ih (orderly_act o a))

end Simulation

/-! ## What a dispatch completes its campaign with -/

/-- How many messages the steps of a history have failed to send. -/
def Deed.failed (deeds : List Deed) : Nat :=
  (created (Deed.exchanges deeds)).countP (fun r => decide (r.status = .failed)) +
    refusals (Deed.exchanges deeds)

/-- The statistics that a dispatch completes its campaign with count what it has sent and failed to
send, and the stages that the records had reached when it counted them. -/
theorem Reached.completed_with (h : Reached (.start campaign recipients now turn) deeds d)
    {stats : CampaignStats} (ended : Deed.end? deeds = some (.completed stats)) :
    ∃ x ∈ deeds, x.exchange? = some ⟨.findRecords, none⟩ ∧
      stats = .ofCounts recipients.length ⟨Deed.sent deeds, Deed.failed deeds⟩
        (.ofRecords (x.state.records.find (.campaign campaign))) := by
  have hend : d.end? = some (.completed stats) := (h.end? rfl).symm.trans ended
  have hpast := h.past.2.2
  rw [d.phase_of_end? hend] at hpast
  obtain ⟨_, hcounted⟩ := hpast
  obtain ⟨_, hsent, hfailed⟩ := (h.handled hend).counted stats rfl
  obtain ⟨⟨sent, failed⟩, x, hx, hfound, rfl⟩ := hcounted stats rfl
  obtain rfl : sent = Deed.sent deeds := hsent
  obtain rfl : failed = Deed.failed deeds := hfailed
  exact ⟨x, hx, hfound, rfl⟩

/-- The action neither enters nor dispatches a campaign. -/
def Action.Leaves (campaign : Uuid) : Action → Prop
  | .begin c _ => c ≠ campaign
  | .enter c => c.id ≠ campaign
  | _ => True

theorem Action.leaves_of_spares {a : Action} (h : a.Spares campaign) : a.Leaves campaign := by
  cases a with
  | setOutages _ => trivial
  | _ => exact h

theorem Action.single_of_leaves {a : Action} (leaves : a.Leaves campaign) (names : List String) :
    a ≠ .begin campaign names := by
  rintro rfl
  exact leaves rfl

/-- What a campaign shows while its records have come to some stages. It shows no failure before its
dispatch has completed it. Then it shows what the dispatch has counted, and stages between those
that the dispatch has found and those of now. -/
structure Campaign.Carries (c : Campaign) (total : Nat) (deeds : List Deed) (stages : StageCounts) :
    Prop where
  unfinished : c.status ≠ .completed → c.stats.failed = 0
  finished : c.status = .completed → ∃ found shown,
    Deed.end? deeds =
      some (.completed (.ofCounts total ⟨Deed.sent deeds, Deed.failed deeds⟩ found)) ∧
    c.stats = .ofCounts total ⟨Deed.sent deeds, Deed.failed deeds⟩ shown ∧
    found.UpTo shown ∧ shown.UpTo stages

theorem Campaign.Carries.of_same {b c : Campaign} {f g : StageCounts}
    (h : b.Carries total deeds f) (status : c.status = b.status) (stats : c.stats = b.stats)
    (grown : f.UpTo g) : c.Carries total deeds g := by
  constructor
  · rw [status, stats]
    exact h.unfinished
  · intro completed
    obtain ⟨found, shown, hend, hstats, hfound, hshown⟩ := h.finished (status.symm.trans completed)
    exact ⟨found, shown, hend, stats.trans hstats, hfound, hshown.trans grown⟩

/-- A recount brings the stages up to date and nothing else. -/
theorem Campaign.Carries.of_refreshed {b c : Campaign} {records : List MessageRecord}
    {g : StageCounts} (h : b.Carries total deeds (.ofRecords records))
    (status : c.status = b.status) (stats : c.stats = b.stats.refreshed records)
    (sent : records.countP (fun r => decide (r.status ≠ .failed)) = Deed.sent deeds)
    (grown : (StageCounts.ofRecords records).UpTo g) : c.Carries total deeds g := by
  constructor
  · intro running
    rw [stats]
    exact h.unfinished fun completed => running (status.trans completed)
  · intro completed
    obtain ⟨found, shown, hend, hstats, hfound, hshown⟩ := h.finished (status.symm.trans completed)
    refine ⟨found, .ofRecords records, hend, ?_, hfound.trans hshown, grown⟩
    rw [stats, hstats, CampaignStats.refreshed_ofCounts _ _ _ sent]

/-- A recount of a completed campaign gives what its dispatch has counted, with the stages that the
records have come to. -/
theorem Campaign.Carries.recounted {c : Campaign} {records : List MessageRecord}
    (h : c.Carries total deeds (.ofRecords records)) (completed : c.status = .completed)
    (sent : records.countP (fun r => decide (r.status ≠ .failed)) = Deed.sent deeds) :
    c.stats.refreshed records =
        .ofCounts total ⟨Deed.sent deeds, Deed.failed deeds⟩ (.ofRecords records) ∧
      c.stats.ProgressesTo (c.stats.refreshed records) := by
  obtain ⟨_, shown, -, hstats, -, hshown⟩ := h.finished completed
  have hrefreshed := CampaignStats.refreshed_ofCounts total
    ⟨Deed.sent deeds, Deed.failed deeds⟩ shown sent
  rw [hstats, hrefreshed]
  exact ⟨rfl, CampaignStats.progressesTo_ofCounts _ _ hshown⟩

/-- A step of the dispatch leaves a campaign that carries what the dispatch has counted. -/
theorem Reached.carries_step {x : Deed} {b c : Campaign} {g : StageCounts}
    (h : Reached (.start campaign recipients now turn) (deeds ++ [x]) d)
    (present : x.state.campaigns.get? campaign = some b) (running : b.status ≠ .completed)
    (failed : b.stats.failed = 0)
    (grown : ∀ y ∈ deeds ++ [x],
      (StageCounts.ofRecords (y.state.records.find (.campaign campaign))).UpTo g)
    (after : x.result.campaigns.get? campaign = some c) :
    c.Carries recipients.length (deeds ++ [x]) g := by
  obtain ⟨hbefore, _⟩ := h.of_concat
  obtain ⟨hcampaign, _⟩ := hbefore.past
  have hunfinished : c.status ≠ .completed → c.stats.failed = 0 →
      c.Carries recipients.length (deeds ++ [x]) g :=
    fun running failed => ⟨fun _ => failed, fun completed => absurd completed running⟩
  rcases x.step_spec.campaigns with
    hsame | ⟨_, _, hbook⟩ | ⟨stats, _, hend, hbook⟩ | ⟨reason, hbook⟩
  · rw [hsame, present] at after
    cases after
    exact hunfinished running failed
  · rw [hcampaign] at hbook
    rw [CampaignBook.get?_startProcessing hbook, if_pos rfl, present] at after
    cases after
    exact hunfinished (by rintro ⟨⟩) failed
  · rw [hcampaign] at hbook
    rw [CampaignBook.get?_complete hbook, if_pos rfl, present] at after
    cases after
    have hended : Deed.end? (deeds ++ [x]) = some (.completed stats) := by
      rw [Deed.end?, List.getLast?_concat]
      exact hend
    obtain ⟨y, hy, _, rfl⟩ := h.completed_with hended
    refine ⟨fun running => absurd rfl running, fun _ => ?_⟩
    exact ⟨_, _, hended, rfl, .refl _, grown y hy⟩
  · rw [hcampaign] at hbook
    rw [CampaignBook.get?_failCampaign hbook, if_pos rfl, present] at after
    cases after
    exact hunfinished (by rintro ⟨⟩) failed

/-! ## Runs -/

namespace Simulation

variable {s : Simulation} {ticket : Nat} {actions : List Action}

/-- Only the dispatch of a campaign changes more of it than a recount does, whatever else happens
and whatever is out of order. -/
theorem keeps_act (s : Simulation) {a : Action} (leaves : a.Leaves campaign) :
    s.state.campaigns.Keeps (s.act a).state.campaigns s.state.records campaign ∨
      ∃ r, s.dispatchAt? r.ticket = some r ∧ r.dispatch.campaign = campaign ∧
        a = .work (.dispatch r.ticket) := by
  by_cases hspares : a.Spares campaign
  · exact (standing_act s hspares).keeps
  · cases a with
    | setOutages outages => exact Or.inl (CampaignBook.keeps_of_get?_eq rfl _)
    | _ => exact absurd leaves hspares

/-- The campaign carries what its dispatch has counted, and no step of the dispatch has seen a stage
that the records have not reached. -/
structure Carries (s : Simulation) (campaign : Uuid) (total ticket : Nat) (deeds : List Deed) :
    Prop extends s.Booked campaign ticket deeds where
  seen : ∀ x ∈ deeds,
    (StageCounts.ofRecords (x.state.records.find (.campaign campaign))).UpTo (s.stages campaign)
  stored : ∀ c, s.state.campaigns.get? campaign = some c → c.Carries total deeds (s.stages campaign)

theorem carries_begin (o : s.Orderly) (alone : ∀ r ∈ s.running, r.dispatch.campaign ≠ campaign)
    (unlogged : s.state.records.find (.campaign campaign) = [])
    (uncounted : ∀ c, s.state.campaigns.get? campaign = some c →
      c.status ≠ .completed ∧ c.stats.failed = 0) (recipients : List String) :
    (s.act (.begin campaign recipients)).Carries campaign recipients.length
      s.state.agenda.nextTicket [] := by
  refine { booked_begin o alone unlogged recipients with seen := ?_, stored := ?_ }
  · rintro x ⟨⟩
  · intro c present
    obtain ⟨hrunning, hfailed⟩ := uncounted c present
    exact ⟨fun _ => hfailed, fun completed => absurd completed hrunning⟩

theorem Carries.seen_act (h : s.Carries campaign total ticket deeds) (o : s.Orderly) (a : Action) :
    ∀ x ∈ deeds ++ (s.deedOf? ticket a).toList,
      (StageCounts.ofRecords (x.state.records.find (.campaign campaign))).UpTo
        ((s.act a).stages campaign) := by
  have hgrown := stages_act o a campaign
  intro x hx
  rcases List.mem_append.mp hx with hold | hnew
  · exact (h.seen x hold).trans hgrown
  · rw [state_of_deedOf? (Option.mem_toList.mp hnew)]
    exact hgrown

/-- While the dispatch of the campaign takes no step, only the records may be counted again. -/
theorem Booked.keeps_act (h : s.Booked campaign ticket deeds) {a : Action}
    (leaves : a.Leaves campaign) (idle : s.deedOf? ticket a = none) :
    s.state.campaigns.Keeps (s.act a).state.campaigns s.state.records campaign := by
  rcases Simulation.keeps_act s leaves with hkeeps | ⟨r, hr, hcampaign, rfl⟩
  · exact hkeeps
  · have hticket := (h.only r (dispatchAt?_eq_some hr).1).mp hcampaign
    rw [hticket] at hr idle
    simp [deedOf?, Action.isStepOf, hr] at idle

theorem Carries.act_idle (h : s.Carries campaign total ticket deeds) (o : s.Orderly) {a : Action}
    (leaves : a.Leaves campaign) (idle : s.deedOf? ticket a = none) :
    (s.act a).Carries campaign total ticket deeds := by
  have hbooked := booked_act o h.toBooked (Action.single_of_leaves leaves)
  have hseen := h.seen_act o a
  rw [idle, Option.toList_none, List.append_nil] at hbooked hseen
  refine { hbooked with seen := hseen, stored := ?_ }
  intro c present
  obtain ⟨b, hb, hstatus, hsame | hrecount⟩ := h.keeps_act leaves idle c present
  · exact (h.stored b hb).of_same hstatus hsame (stages_act o a campaign)
  · exact (h.stored b hb).of_refreshed hstatus hrecount h.countP_sent (stages_act o a campaign)

/-- While its dispatch is on its way, a campaign is not completed and shows no failure. -/
theorem Carries.not_completed {first d : Dispatch} (h : s.Carries campaign total ticket deeds)
    (reached : Reached first deeds d) (open_ : first.end? = none) (running : d.isEnded = false)
    {c : Campaign} (present : s.state.campaigns.get? campaign = some c) :
    c.status ≠ .completed ∧ c.stats.failed = 0 := by
  have hrunning : c.status ≠ .completed := by
    intro completed
    obtain ⟨_, _, hend, _⟩ := (h.stored c present).finished completed
    rw [reached.end? open_] at hend
    simp [Dispatch.isEnded, d.phase_of_end? hend] at running
  exact ⟨hrunning, (h.stored c present).unfinished hrunning⟩

theorem carries_act (o : s.Orderly) (h : s.Carries campaign recipients.length ticket deeds)
    {a : Action} (leaves : a.Leaves campaign)
    (reached : Reached (.start campaign recipients now turn)
      (deeds ++ (s.deedOf? ticket a).toList) d) :
    (s.act a).Carries campaign recipients.length ticket
      (deeds ++ (s.deedOf? ticket a).toList) := by
  cases hdeed : s.deedOf? ticket a with
  | none =>
    rw [Option.toList_none, List.append_nil]
    exact h.act_idle o leaves hdeed
  | some x =>
    have hbooked := booked_act o h.toBooked (Action.single_of_leaves leaves)
    have hseen := h.seen_act o a
    rw [hdeed] at reached hbooked hseen
    rw [Option.toList_some] at reached hbooked hseen ⊢
    refine { hbooked with seen := hseen, stored := ?_ }
    intro c present
    rw [state_act_of_deedOf? hdeed] at present
    obtain ⟨hbefore, hrunning⟩ := reached.of_concat
    obtain ⟨b, hb, _⟩ := hbefore.campaign_step x.state present
    have hb' := hb
    rw [state_of_deedOf? hdeed] at hb'
    obtain ⟨hunfinished, hfailed⟩ := h.not_completed hbefore rfl hrunning hb'
    exact reached.carries_step hb hunfinished hfailed hseen present

theorem carries_run (o : s.Orderly) (h : s.Carries campaign recipients.length ticket [])
    (holds : s.Holds ticket (.start campaign recipients now turn)) (actions : List Action)
    (leaves : ∀ a ∈ actions, a.Leaves campaign) :
    (s.run actions).Carries campaign recipients.length ticket (s.deeds ticket actions) := by
  induction actions using List.reverseRecOn with
  | nil => exact h
  | append_singleton before a ih =>
    have hbefore := ih fun b hb => leaves b (List.mem_append_left _ hb)
    have hdeeds := deeds_concat ticket s before a
    obtain ⟨d, hreached⟩ := history_run o holds .start (before ++ [a])
    rw [List.nil_append, hdeeds] at hreached
    rw [run_concat, hdeeds]
    exact carries_act (orderly_run o before) hbefore
      (leaves a (List.mem_append_right _ List.mem_cons_self)) hreached

/-- Where the dispatch of a campaign has ended, no other dispatch of it is running. -/
theorem Carries.none_running (h : (s.run actions).Carries campaign total ticket deeds)
    (o : s.Orderly) (holds : s.Holds ticket (.start campaign recipients now turn))
    {how : DispatchEnd} (ended : Deed.end? (s.deeds ticket actions) = some how) :
    ∀ r ∈ (s.run actions).running, r.dispatch.campaign ≠ campaign := by
  intro r hr hcampaign
  have hticket := (h.only r hr).mp hcampaign
  have hpresent := (orderly_run o actions).dispatchAt?_of_mem hr
  rw [hticket] at hpresent
  obtain ⟨hholds, hreached⟩ := reached_of_dispatchAt? o holds .start hpresent
  rw [List.nil_append] at hreached
  rw [hreached.end? rfl] at ended
  have hrunning := (hholds.running hpresent).1
  simp [Dispatch.isEnded, r.dispatch.phase_of_end? ended] at hrunning

/-- Where no dispatch of a campaign is running, the one with the ticket takes no step. -/
theorem Booked.deedOf?_of_gone (h : s.Booked campaign ticket deeds)
    (gone : ∀ r ∈ s.running, r.dispatch.campaign ≠ campaign) (a : Action) :
    s.deedOf? ticket a = none := by
  cases hdeed : s.deedOf? ticket a with
  | none => rfl
  | some x =>
    simp only [deedOf?] at hdeed
    split at hdeed
    · obtain ⟨r, hr, -⟩ := Option.map_eq_some_iff.mp hdeed
      obtain ⟨hmem, hticket⟩ := dispatchAt?_eq_some hr
      exact absurd ((h.only r hmem).mpr hticket) (gone r hmem)
    · cases hdeed

/-- After its dispatch has ended, a campaign keeps its status and carries what it did, whatever else
happens. -/
theorem Carries.run_ended (h : s.Carries campaign total ticket deeds) (o : s.Orderly)
    (gone : ∀ r ∈ s.running, r.dispatch.campaign ≠ campaign) (actions : List Action)
    (leaves : ∀ a ∈ actions, a.Leaves campaign) :
    (s.run actions).Carries campaign total ticket deeds ∧
      ∀ d, (s.run actions).state.campaigns.get? campaign = some d →
        ∃ c, s.state.campaigns.get? campaign = some c ∧ d.status = c.status := by
  induction actions generalizing s with
  | nil => exact ⟨h, fun d present => ⟨d, present, rfl⟩⟩
  | cons a rest ih =>
    have hleaves := leaves a List.mem_cons_self
    have hidle := h.deedOf?_of_gone gone a
    have hcarries := h.act_idle o hleaves hidle
    have hkeeps := h.keeps_act hleaves hidle
    have hgone := gone_act gone (Action.single_of_leaves hleaves)
    obtain ⟨hlater, hstatus⟩ := ih hcarries (orderly_act o a) hgone
      fun b hb => leaves b (List.mem_cons_of_mem a hb)
    refine ⟨hlater, fun d present => ?_⟩
    obtain ⟨b, hb, hsame⟩ := hstatus d present
    obtain ⟨c, hc, hkept, -⟩ := hkeeps b hb
    exact ⟨c, hc, hsame.trans hkept⟩

/-- A history that has counted the failures counts them as the records show them, and those who were
refused besides. -/
theorem Booked.failed_eq (h : s.Booked campaign ticket deeds) :
    Deed.failed deeds =
      ((s.state.records.find (.campaign campaign)).countP fun r => decide (r.status = .failed)) +
        refusals (Deed.exchanges deeds) := by
  rw [Deed.failed, h.countP _ fun r => by simp [r.origin_status_eq_failed]]

theorem findRecords_calm {s : DeliveryState} (calm : s.outages = .none) (f : RecordFilter) :
    s.findRecords f = .ok (s.records.find f) := by
  rw [DeliveryState.findRecords, calm, Outages.check_none]
  rfl

theorem setStats_calm {s : DeliveryState} (calm : s.outages = .none) {c : Campaign}
    (present : s.campaigns.get? campaign = some c) (stats : CampaignStats) :
    ∃ book, s.campaigns.setStats campaign stats s.now = .ok book ∧
      s.setStats campaign stats = .ok { s with campaigns := book } := by
  have hset : ∃ book, s.campaigns.setStats campaign stats s.now = .ok book := by
    simp [CampaignBook.setStats, CampaignBook.update, present]
  obtain ⟨book, hbook⟩ := hset
  refine ⟨book, hbook, ?_⟩
  rw [DeliveryState.setStats, calm, Outages.check_none, hbook]
  rfl

/-- Where calls are in order, a recount of a campaign that is there is answered. -/
theorem recompute_calm {s : DeliveryState} (calm : s.outages = .none) {c : Campaign}
    (present : s.campaigns.get? campaign = some c) :
    ∃ book, s.campaigns.setStats campaign
        (c.stats.refreshed (s.records.find (.campaign campaign))) s.now = .ok book ∧
      s.recompute campaign = .ok (c.stats.refreshed (s.records.find (.campaign campaign)),
        { s with campaigns := book }) := by
  obtain ⟨book, hbook, hstored⟩ := setStats_calm calm present
    (c.stats.refreshed (s.records.find (.campaign campaign)))
  refine ⟨book, hbook, ?_⟩
  have hfetch : s.fetchCampaign campaign = .ok (some c) := by
    rw [DeliveryState.fetchCampaign, calm, Outages.check_none, present]
    rfl
  have hfind := findRecords_calm calm (.campaign campaign)
  simp only [DeliveryState.recompute, hfetch, hfind, hstored, bind, pure, Except.bind, Except.pure]

/-- A recount finds every message that was sent. The failures that it gives are those of the records
and of the refused creations if the dispatch has completed the campaign, and none otherwise. So it
accounts for every record of a campaign exactly if the campaign is completed or no record has
failed, whatever calls are out of order on the way. -/
theorem recount_covers_records_iff {s : Simulation} (reachable : s.Reachable) (campaign : Uuid)
    (recipients : List String) (actions : List Action)
    (alone : ∀ r ∈ s.running, r.dispatch.campaign ≠ campaign)
    (unlogged : s.state.records.find (.campaign campaign) = [])
    (uncounted : ∀ c, s.state.campaigns.get? campaign = some c →
      c.status ≠ .completed ∧ c.stats.failed = 0)
    (leaves : ∀ a ∈ actions, a.Leaves campaign) :
    let ticket := s.state.agenda.nextTicket
    let begun := s.act (.begin campaign recipients)
    let t := begun.run actions
    let records := t.state.records.find (.campaign campaign)
    let failed := records.countP fun r => decide (r.status = .failed)
    ∀ c, t.state.campaigns.get? campaign = some c →
      (t.state.outages = .none → ∃ stats u, t.state.recompute campaign = .ok (stats, u)) ∧
      ∀ stats u, t.state.recompute campaign = .ok (stats, u) →
        stats.sent = records.countP (fun r => decide (r.status ≠ .failed)) ∧
        stats.failed = (if c.status = .completed then
          failed + refusals (Deed.exchanges (begun.deeds ticket actions)) else 0) ∧
        (failed ≤ stats.failed ↔ c.status = .completed ∨ ∀ r ∈ records, r.status ≠ .failed) ∧
        (records.length ≤ stats.sent + stats.failed ↔
          c.status = .completed ∨ ∀ r ∈ records, r.status ≠ .failed) := by
  intro ticket begun t records failed c present
  have o : s.Orderly := reachable.orderly
  have carries : t.Carries campaign recipients.length ticket (begun.deeds ticket actions) :=
    carries_run (orderly_act o _) (carries_begin o alone unlogged uncounted recipients)
      (holds_begin o campaign recipients) actions leaves
  refine ⟨fun calm => ?_, ?_⟩
  · obtain ⟨book, -, hanswer⟩ := recompute_calm calm present
    exact ⟨_, _, hanswer⟩
  intro stats u answered
  obtain ⟨b, book, hb, rfl, -⟩ := DeliveryState.recompute_ok answered
  obtain rfl : c = b := Option.some.inj (present.symm.trans hb)
  have hsent : (c.stats.refreshed records).sent =
      records.countP fun r => decide (r.status ≠ .failed) := CampaignStats.sent_refreshed _ _
  have hfailed : (c.stats.refreshed records).failed = if c.status = .completed then
      failed + refusals (Deed.exchanges (begun.deeds ticket actions)) else 0 := by
    change c.stats.failed = _
    by_cases completed : c.status = .completed
    · obtain ⟨_, _, -, hstats, -⟩ := (carries.stored c present).finished completed
      rw [if_pos completed, hstats, ← carries.failed_eq]
      rfl
    · rw [if_neg completed]
      exact (carries.stored c present).unfinished completed
  have hcovers : failed ≤ (c.stats.refreshed records).failed ↔
      c.status = .completed ∨ ∀ r ∈ records, r.status ≠ .failed := by
    rw [hfailed]
    by_cases completed : c.status = .completed
    · simp [completed]
    · simp [completed, failed, List.countP_eq_zero]
  refine ⟨hsent, hfailed, hcovers, ?_⟩
  have hlength : records.length =
      records.countP (fun r => decide (r.status ≠ .failed)) + failed :=
    length_eq_unfailed_add_failed records
  rw [← hcovers, hlength, hsent]
  exact Nat.add_le_add_iff_left

/-- One message fails, and the dispatch cannot count its records and fails as well. The recount then
knows of no message at all. -/
theorem uncounted_failure_is_missing :
    let start : DeliveryState :=
      { Sample.delivery 1 with settings := { Sample.settings 1 with sendSuccessRate := 0.0 } }
    let s := (ofState start).run [.enter Sample.campaign]
    let step := Action.work (.dispatch 0)
    let t := (s.act (.begin .nil ["a"])).run [step, step, .setOutages ⟨[.findRecords], [], false⟩,
      step, step, .setOutages .none]
    ∃ c stats u, t.state.campaigns.get? .nil = some c ∧ c.status = .failed ∧
      t.state.recompute .nil = .ok (stats, u) ∧
      (t.state.records.find (.campaign .nil)).length = 1 ∧ stats.sent + stats.failed < 1 := by
  intro start s step t
  have hidle : start.Idle := ⟨rfl, List.nodup_nil, by rintro n ⟨⟩⟩
  have reachable : s.Reachable := ⟨start, hidle, _, rfl⟩
  have alone : ∀ r ∈ s.running, r.dispatch.campaign ≠ .nil := fun r hr => by cases hr
  have uncounted : ∀ c, s.state.campaigns.get? .nil = some c →
      c.status ≠ .completed ∧ c.stats.failed = 0 := by
    have hstored : s.state.campaigns.get? .nil = some Sample.campaign :=
      CampaignBook.get?_insert_self _ _
    intro c hc
    cases hstored.symm.trans hc
    exact ⟨by decide, rfl⟩
  have leaves : ∀ a ∈ [step, step, .setOutages ⟨[.findRecords], [], false⟩, step, step,
      .setOutages .none], a.Leaves .nil := by simp [step, Action.Leaves]
  have hshown : (t.state.campaigns.get? .nil).map Campaign.status = some .failed := by
    decide +kernel
  obtain ⟨c, present, hstatus⟩ := Option.map_eq_some_iff.mp hshown
  have hfailed : (t.state.records.find (.campaign .nil)).map MessageRecord.status = [.failed] := by
    decide +kernel
  have hlength : (t.state.records.find (.campaign .nil)).length = 1 := by
    simpa using congrArg List.length hfailed
  obtain ⟨hanswered, hcounts⟩ :=
    recount_covers_records_iff reachable .nil ["a"] _ alone rfl uncounted leaves c present
  obtain ⟨stats, u, answered⟩ := hanswered (by rfl)
  obtain ⟨-, -, -, hcovers⟩ := hcounts stats u answered
  refine ⟨c, stats, u, present, hstatus, answered, hlength, ?_⟩
  by_contra hmany
  rcases hcovers.mp (hlength ▸ Nat.le_of_not_lt hmany) with completed | hnone
  · rw [hstatus] at completed
    cases completed
  · obtain ⟨r, hr⟩ := List.exists_mem_of_length_pos (Nat.lt_of_lt_of_eq Nat.one_pos hlength.symm)
    have hmem := List.mem_map_of_mem (f := MessageRecord.status) hr
    rw [hfailed] at hmem
    exact hnone r hr (List.mem_singleton.mp hmem)

end Simulation

end Outreach
