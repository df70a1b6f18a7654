import Outreach.Proofs.Delivery.Coverage
import Outreach.Proofs.Delivery.Progress

/-!
# What campaigns count

The numbers of a campaign come from two places. Its dispatch keeps a tally of what it has sent and
looks once for the stages that the records have reached, and the records may be counted again at any
time. Both see the records that the dispatch has created by then, and among those the later stages
have been reached by no more than the earlier ones. Only a campaign that is completed counts
failures, and then it counts all of its recipients.
-/

namespace Outreach

open Exchange

variable {campaign : Uuid} {total : Nat} {recipients : List String} {deeds : List Deed}
  {d : Dispatch} {now : Instant} {turn : Nat}

/-! ## Statistics -/

/-- A rate relates a count to another that it does not exceed. It is zero where there is nothing to
relate to, and may be zero where there is nothing to relate. -/
structure IsRate (rate : Float) (n d : Nat) : Prop where
  within : n ≤ d
  value : rate = percentage n d ∨ n = 0 ∧ rate = 0.0
  nothing : d = 0 → rate = 0.0

theorem isRate_percentage {n d : Nat} (within : n ≤ d) : IsRate (percentage n d) n d := by
  refine ⟨within, Or.inl rfl, ?_⟩
  intro hd
  rw [percentage, if_pos hd]

theorem isRate_zero (d : Nat) : IsRate 0.0 0 d :=
  ⟨Nat.zero_le d, Or.inr ⟨rfl, rfl⟩, fun _ => rfl⟩

/-- A later stage was reached by no more messages than an earlier one, and none by more than were
sent. -/
structure StageCounts.Graded (f : StageCounts) (sent : Nat) : Prop where
  clicked : f.clicked ≤ f.opened
  opened : f.opened ≤ f.delivered
  delivered : f.delivered ≤ sent

theorem StageCounts.Graded.mono {f : StageCounts} {sent more : Nat} (h : f.Graded sent)
    (le : sent ≤ more) : f.Graded more :=
  { h with delivered := Nat.le_trans h.delivered le }

/-- A failed record bears no stamp, and the stamp of a stage stands with those of the stages before
it. -/
theorem StageCounts.graded_ofRecords {records : List MessageRecord}
    (coherent : ∀ r ∈ records, r.Coherent) :
    (ofRecords records).Graded (records.countP fun r => decide (r.status ≠ .failed)) := by
  constructor
  · apply List.countP_mono_left
    intro r hr hclicked
    exact (coherent r hr).opened.mpr (Or.inr ((coherent r hr).clicked.mp hclicked))
  · apply List.countP_mono_left
    intro r hr hopened
    exact (coherent r hr).delivered.mpr (Or.inr ((coherent r hr).opened.mp hopened))
  · apply List.countP_mono_left
    intro r hr hdelivered
    rcases (coherent r hr).delivered.mp hdelivered with hs | hs | hs <;> simp [hs]

namespace CampaignStats

/-- No number exceeds the one that it is a part of. -/
structure Consistent (s : CampaignStats) : Prop where
  clicked : s.clicked ≤ s.opened
  opened : s.opened ≤ s.delivered
  delivered : s.delivered ≤ s.sent
  attempted : s.sent + s.failed ≤ s.totalRecipients
  deliveryRate : IsRate s.deliveryRate s.sent s.totalRecipients
  openRate : IsRate s.openRate s.opened s.sent
  clickRate : IsRate s.clickRate s.clicked s.opened

theorem consistent_ofRecipients (total : Nat) : (ofRecipients total).Consistent := by
  constructor
  case deliveryRate => exact isRate_zero total
  case openRate => exact isRate_zero 0
  case clickRate => exact isRate_zero 0
  all_goals simp [ofRecipients]

theorem consistent_ofCounts {t : Tally} {f : StageCounts} (graded : f.Graded t.sent)
    (within : t.attempted ≤ total) : (ofCounts total t f).Consistent := by
  have hsent : t.sent ≤ total := Nat.le_trans (Nat.le_add_right t.sent t.failed) within
  have hopened : f.opened ≤ t.sent := Nat.le_trans graded.opened graded.delivered
  exact {
    clicked := graded.clicked
    opened := graded.opened
    delivered := graded.delivered
    attempted := within
    deliveryRate := isRate_percentage hsent
    openRate := isRate_percentage hopened
    clickRate := isRate_percentage graded.clicked }

theorem Consistent.because {s : CampaignStats} (h : s.Consistent) (reason : Option String) :
    Consistent { s with failureReason := reason } :=
  { h with }

theorem sent_refreshed (s : CampaignStats) (records : List MessageRecord) :
    (s.refreshed records).sent = records.countP fun r => decide (r.status ≠ .failed) := by
  apply List.countP_congr
  intro r _
  simp

theorem consistent_refreshed {s : CampaignStats} {records : List MessageRecord}
    (coherent : ∀ r ∈ records, r.Coherent)
    (within : (records.countP fun r => decide (r.status ≠ .failed)) + s.failed ≤
      s.totalRecipients) : (s.refreshed records).Consistent := by
  have hgraded := StageCounts.graded_ofRecords coherent
  rw [← sent_refreshed s records] at within hgraded
  exact (consistent_ofCounts (t := ⟨_, s.failed⟩) hgraded within).because s.failureReason

end CampaignStats

/-! ## Counts of a history -/

/-- How many messages the steps of a history have sent. -/
def Deed.sent (deeds : List Deed) : Nat :=
  (created (Deed.exchanges deeds)).countP fun r => decide (r.status ≠ .failed)

/-- At every step of a history the stages of the campaign's records are graded by what the whole
history has sent. -/
def Deed.Graded (campaign : Uuid) (deeds : List Deed) : Prop :=
  ∀ x ∈ deeds, (StageCounts.ofRecords (x.state.records.find (.campaign campaign))).Graded
    (Deed.sent deeds)

theorem Deed.sent_le_append (deeds more : List Deed) :
    Deed.sent deeds ≤ Deed.sent (deeds ++ more) := by
  rw [sent, sent, created_exchanges, created_exchanges, List.filterMap_append, List.countP_append]
  exact Nat.le_add_right _ _

theorem Batches.sent_le {exchanges : List Exchange} {tally : Tally}
    (h : Batches total exchanges tally) (within : tally.attempted ≤ total) :
    (created exchanges).countP (fun r => decide (r.status ≠ .failed)) ≤ total := by
  rw [← h.sent]
  exact Nat.le_trans (Nat.le_add_right tally.sent tally.failed) within

theorem created_concat_of_none {exchanges : List Exchange} {x : Exchange} (h : x.created? = none) :
    created (exchanges ++ [x]) = created exchanges := by
  rw [created_concat, h, Option.toList_none, List.append_nil]

theorem Stopped.sent_le {exchanges : List Exchange} {cause : Error}
    (h : Stopped total exchanges cause) :
    (created exchanges).countP (fun r => decide (r.status ≠ .failed)) ≤ total := by
  cases h with
  | begin => exact Nat.zero_le total
  | count before tally tried =>
    rw [created_concat_of_none rfl]
    exact tried.sent_le (Nat.le_of_eq tried.all)
  | complete before tally tried =>
    rw [List.append_cons, created_concat_of_none rfl, created_concat_of_none rfl]
    exact tried.sent_le (Nat.le_of_eq tried.all)

theorem Finished.sent_le {exchanges : List Exchange} {how : DispatchEnd}
    (h : Finished total exchanges how) :
    (created exchanges).countP (fun r => decide (r.status ≠ .failed)) ≤ total := by
  cases h with
  | cancelled _ tally batches within => exact batches.sent_le within
  | completed before tally tried counts =>
    rw [(created_completed before _).1]
    exact tried.sent_le (Nat.le_of_eq tried.all)
  | failed before cause stopped fault =>
    rw [created_concat_of_none rfl]
    exact stopped.sent_le

/-- A dispatch has sent no more messages than it has recipients, however far it has come. -/
theorem Reached.sent_le (h : Reached (.start campaign recipients now turn) deeds d) :
    Deed.sent deeds ≤ recipients.length := by
  have hpast := h.past.2.2
  rw [Deed.sent]
  cases hp : d.phase with
  | starting left =>
    rw [hp] at hpast
    rw [hpast.1]
    exact Nat.zero_le _
  | creating next more tried rest tally =>
    rw [hp] at hpast
    obtain ⟨batches, hleft, _⟩ := hpast
    exact batches.sent_le (by omega)
  | counting tally =>
    rw [hp] at hpast
    exact hpast.sent_le (Nat.le_of_eq hpast.all)
  | completing stats =>
    rw [hp] at hpast
    obtain ⟨before, tally, tried, hbefore, _⟩ := hpast
    rw [hbefore, created_concat_of_none rfl]
    exact tried.sent_le (Nat.le_of_eq tried.all)
  | aborting cause =>
    rw [hp] at hpast
    exact hpast.sent_le
  | ended how =>
    rw [hp] at hpast
    exact hpast.1.sent_le

/-- The statistics that a dispatch completes its campaign with count its messages and all of its
recipients, and the stages that the records had reached at one of its steps. -/
theorem Reached.settled (h : Reached (.start campaign recipients now turn) deeds d)
    {stats : CampaignStats} (ended : Deed.end? deeds = some (.completed stats)) :
    stats.sent = Deed.sent deeds ∧ stats.sent + stats.failed = recipients.length ∧
      ∃ x ∈ deeds, stats = .ofCounts recipients.length ⟨stats.sent, stats.failed⟩
        (.ofRecords (x.state.records.find (.campaign campaign))) := by
  have hend : d.end? = some (.completed stats) := (h.end? rfl).symm.trans ended
  have hpast := h.past.2.2
  rw [d.phase_of_end? hend] at hpast
  obtain ⟨hfinished, hcounted⟩ := hpast
  obtain ⟨_, hsent, _⟩ := (h.handled hend).counted stats rfl
  obtain ⟨tally, x, hx, _, rfl⟩ := hcounted stats rfl
  refine ⟨hsent, ?_, x, hx, rfl⟩
  generalize hexchanges : Deed.exchanges deeds = exchanges at hfinished
  generalize hstats : CampaignStats.ofCounts recipients.length tally _ = stats at hfinished
  cases hfinished with
  | completed before tally' tried counts =>
    have htally : tally.sent = tally'.sent ∧ tally.failed = tally'.failed :=
      ⟨congrArg CampaignStats.sent hstats, congrArg CampaignStats.failed hstats⟩
    have hall := tried.all
    simp only [Tally.attempted] at hall
    simp only [CampaignStats.ofCounts]
    omega

/-! ## A campaign and its dispatch -/

/-- The campaign counts consistently, where its dispatch has sent a number of messages. -/
structure Campaign.Tallied (c : Campaign) (sent : Nat) : Prop where
  consistent : c.stats.Consistent
  unfinished : c.status ≠ .completed → c.stats.failed = 0
  finished : c.status = .completed →
    c.stats.sent = sent ∧ c.stats.sent + c.stats.failed = c.stats.totalRecipients

namespace Campaign.Tallied

variable {b c : Campaign} {sent : Nat}

theorem of_unfinished (consistent : c.stats.Consistent) (running : c.status ≠ .completed)
    (failed : c.stats.failed = 0) : c.Tallied sent :=
  ⟨consistent, fun _ => failed, fun completed => absurd completed running⟩

theorem of_same (h : b.Tallied sent) (status : c.status = b.status) (stats : c.stats = b.stats) :
    c.Tallied sent := by
  constructor
  · rw [stats]
    exact h.consistent
  · rw [status, stats]
    exact h.unfinished
  · rw [status, stats]
    exact h.finished

/-- To count the records again finds the messages that the dispatch has sent, and keeps the
failures. -/
theorem of_refreshed (h : b.Tallied sent) (status : c.status = b.status)
    {records : List MessageRecord} (stats : c.stats = b.stats.refreshed records)
    (coherent : ∀ r ∈ records, r.Coherent)
    (found : (records.countP fun r => decide (r.status ≠ .failed)) = sent)
    (within : sent ≤ b.stats.totalRecipients) : c.Tallied sent := by
  have hfailed : c.stats.failed = b.stats.failed := by rw [stats]; rfl
  have htotal : c.stats.totalRecipients = b.stats.totalRecipients := by rw [stats]; rfl
  have hsent : c.stats.sent = sent := by rw [stats, CampaignStats.sent_refreshed, found]
  constructor
  · rw [stats]
    refine CampaignStats.consistent_refreshed coherent ?_
    rw [found]
    by_cases completed : b.status = .completed
    · obtain ⟨hsame, hall⟩ := h.finished completed
      omega
    · have hnone := h.unfinished completed
      omega
  · rw [status, hfailed]
    exact h.unfinished
  · intro completed
    obtain ⟨hsame, hall⟩ := h.finished (status.symm.trans completed)
    exact ⟨hsent, by omega⟩

end Campaign.Tallied

/-- What a dispatch has completed its campaign with counts consistently, and all
of its recipients. -/
theorem Reached.tallied_completed (h : Reached (.start campaign recipients now turn) deeds d)
    {stats : CampaignStats} (ended : Deed.end? deeds = some (.completed stats))
    (graded : Deed.Graded campaign deeds) {c : Campaign}
    (status : c.status = .completed) (own : c.stats = stats) :
    c.Tallied (Deed.sent deeds) := by
  obtain ⟨hsent, hall, x, hx, hstats⟩ := h.settled ended
  have hgraded := graded x hx
  rw [← hsent] at hgraded
  have htotal : stats.totalRecipients = recipients.length := by
    rw [hstats]
    rfl
  subst own
  constructor
  · rw [hstats]
    exact CampaignStats.consistent_ofCounts hgraded (Nat.le_of_eq hall)
  · intro unfinished
    exact absurd status unfinished
  · intro _
    exact ⟨hsent, hall.trans htotal.symm⟩

/-- A step of the dispatch leaves a campaign that counts consistently. -/
theorem Reached.tallied_step {x : Deed} {b c : Campaign}
    (h : Reached (.start campaign recipients now turn) (deeds ++ [x]) d)
    (present : x.state.campaigns.get? campaign = some b) (running : b.status ≠ .completed)
    (total : b.stats.totalRecipients = recipients.length) (tallied : b.Tallied (Deed.sent deeds))
    (graded : Deed.Graded campaign (deeds ++ [x]))
    (after : x.result.campaigns.get? campaign = some c) :
    c.Tallied (Deed.sent (deeds ++ [x])) := by
  obtain ⟨hbefore, _⟩ := h.of_concat
  obtain ⟨hcampaign, htotal, _⟩ := hbefore.past
  have hfailed := tallied.unfinished running
  rcases x.step_spec.campaigns with
    hsame | ⟨_, _, hbook⟩ | ⟨stats, _, hend, hbook⟩ | ⟨reason, hbook⟩
  · rw [hsame, present] at after
    cases after
    exact .of_unfinished tallied.consistent running hfailed
  · rw [hcampaign, htotal, ← total] at hbook
    rw [CampaignBook.get?_startProcessing hbook, if_pos rfl, present] at after
    cases after
    exact .of_unfinished tallied.consistent (by rintro ⟨⟩) hfailed
  · rw [hcampaign] at hbook
    rw [CampaignBook.get?_complete hbook, if_pos rfl, present] at after
    cases after
    have hended : Deed.end? (deeds ++ [x]) = some (.completed stats) := by
      rw [Deed.end?, List.getLast?_concat]
      exact hend
    exact h.tallied_completed hended graded rfl rfl
  · rw [hcampaign] at hbook
    rw [CampaignBook.get?_failCampaign hbook, if_pos rfl, present] at after
    cases after
    exact .of_unfinished (tallied.consistent.because (some reason)) (by rintro ⟨⟩) hfailed

/-! ## Runs -/

namespace Simulation

variable {s : Simulation} {ticket : Nat}

/-- What there was to count at the steps of a dispatch, and what its campaign counts. -/
structure Tallied (s : Simulation) (campaign : Uuid) (deeds : List Deed) : Prop where
  graded : Deed.Graded campaign deeds
  stored : ∀ c, s.state.campaigns.get? campaign = some c → c.Tallied (Deed.sent deeds)

theorem Coherent.find (h : s.Coherent) (campaign : Uuid) :
    ∀ r ∈ s.state.records.find (.campaign campaign), r.Coherent := by
  intro r hr
  exact h.records r (RecordBook.mem_find_campaign.mp hr).1

/-- The records of a campaign that were sent are those that its dispatch has sent. -/
theorem Booked.countP_sent (h : s.Booked campaign ticket deeds) :
    ((s.state.records.find (.campaign campaign)).countP fun r => decide (r.status ≠ .failed)) =
      Deed.sent deeds :=
  h.countP _ fun r => by simp [r.origin_status_eq_failed]

theorem Tallied.graded_act (h : s.Tallied campaign deeds) (booked : s.Booked campaign ticket deeds)
    (coherent : s.Coherent) (a : Action) :
    Deed.Graded campaign (deeds ++ (s.deedOf? ticket a).toList) := by
  intro x hx
  have hle := Deed.sent_le_append deeds (s.deedOf? ticket a).toList
  rcases List.mem_append.mp hx with hold | hnew
  · exact (h.graded x hold).mono hle
  · rw [state_of_deedOf? (Option.mem_toList.mp hnew)]
    have hgraded := StageCounts.graded_ofRecords (coherent.find campaign)
    rw [booked.countP_sent] at hgraded
    exact hgraded.mono hle

theorem tallied_act (course : s.Course campaign ticket recipients deeds) (coherent : s.Coherent)
    (h : s.Tallied campaign deeds) {a : Action} (spares : a.Spares campaign)
    (reached : Reached (.start campaign recipients now turn)
      (deeds ++ (s.deedOf? ticket a).toList) d) :
    (s.act a).Tallied campaign (deeds ++ (s.deedOf? ticket a).toList) := by
  have hgraded := h.graded_act course.toBooked coherent a
  refine ⟨hgraded, ?_⟩
  intro c present
  cases hdeed : s.deedOf? ticket a with
  | none =>
    rw [hdeed] at reached
    rw [Option.toList_none, List.append_nil] at reached ⊢
    rcases (standing_act s spares).keeps with hkeeps | ⟨r, hr, hcampaign, rfl⟩
    · obtain ⟨b, hb, hstatus, hsame | hrecount⟩ := hkeeps c present
      · exact (h.stored b hb).of_same hstatus hsame
      · refine (h.stored b hb).of_refreshed hstatus hrecount (coherent.find campaign)
          course.countP_sent ?_
        rw [course.total b hb]
        exact reached.sent_le
    · have hticket := (course.only r (dispatchAt?_eq_some hr).1).mp hcampaign
      rw [hticket] at hr hdeed
      simp [deedOf?, Action.isStepOf, hr] at hdeed
  | some x =>
    rw [hdeed] at reached hgraded
    rw [Option.toList_some] at reached hgraded ⊢
    rw [state_act_of_deedOf? hdeed] at present
    have hstate := state_of_deedOf? hdeed
    obtain ⟨hbefore, hrunning⟩ := reached.of_concat
    obtain ⟨b, hb, _⟩ := hbefore.campaign_step x.state present
    have hb' := hb
    rw [hstate] at hb'
    refine reached.tallied_step hb ?_ (course.total b hb') (h.stored b hb') hgraded present
    -- A dispatch that had completed the campaign would not have taken this step.
    intro completed
    obtain ⟨stats, hend⟩ := course.completed b hb' completed
    rw [hbefore.end? rfl] at hend
    simp [Dispatch.isEnded, x.dispatch.phase_of_end? hend] at hrunning

/-- From the beginning of its dispatch on, a campaign counts consistently. -/
theorem tallied_run (o : s.Orderly) (coherent : s.Coherent)
    (course : s.Course campaign ticket recipients [])
    (holds : s.Holds ticket (.start campaign recipients now turn)) (h : s.Tallied campaign [])
    (actions : List Action) (spares : ∀ a ∈ actions, a.Spares campaign) :
    (s.run actions).Tallied campaign (s.deeds ticket actions) := by
  induction actions using List.reverseRecOn with
  | nil => exact h
  | append_singleton before a ih =>
    have hspares : ∀ b ∈ before, b.Spares campaign :=
      fun b hb => spares b (List.mem_append_left _ hb)
    have hbefore := course_run o course holds before hspares
    have hdeeds := deeds_concat ticket s before a
    obtain ⟨d, hreached⟩ := history_run o holds .start (before ++ [a])
    rw [List.nil_append, hdeeds] at hreached
    rw [run_concat, hdeeds]
    exact tallied_act hbefore (coherent_run coherent before) (ih hspares)
      (spares a (List.mem_append_right _ List.mem_cons_self)) hreached

end Simulation

end Outreach
