import Outreach.Proofs.Delivery.Ledger

/-!
# Faults of a dispatch

Any call of a dispatch can fail, and its campaign can be cancelled between any two steps. Attempts
to create records only ever cost the messages themselves. The dispatch ends within four steps more
than it has recipients, and ends in one of three ways. A cancelled one falls silent, a completed one
has completed its campaign, and a failed one has named its first fatal failure once.
-/

namespace Outreach

open Exchange

variable {campaign : Uuid} {total : Nat} {deeds : List Deed} {exchanges : List Exchange}
  {tally : Tally} {d : Dispatch}

deriving instance DecidableEq for DispatchEnd

/-- How the dispatch has ended, if it has. -/
def Dispatch.end? (d : Dispatch) : Option DispatchEnd :=
  match d.phase with
  | .ended how => some how
  | _ => none

theorem Dispatch.phase_of_end? (d : Dispatch) {how : DispatchEnd} (h : d.end? = some how) :
    d.phase = .ended how := by
  cases hp : d.phase with
  | ended other =>
    simp only [end?, hp, Option.some.injEq] at h
    rw [h]
  | _ => simp [end?, hp] at h

namespace Deed

/-- How the last step of a history has ended the dispatch, if it has. -/
def end? (deeds : List Deed) : Option DispatchEnd :=
  deeds.getLast?.bind fun x => x.next.end?

/-- The milestones that the steps of a history report. -/
def reports (deeds : List Deed) : List (EventKind × Uuid) :=
  deeds.flatMap milestones

/-- The step has left the records and the agenda as they were. -/
def Harmless (x : Deed) : Prop :=
  x.result.records = x.state.records ∧ x.result.agenda = x.state.agenda

end Deed

/-- What a dispatch of a campaign has done by its end, whatever failed on the way. -/
structure Handled (campaign : Uuid) (total : Nat) (deeds : List Deed) (how : DispatchEnd) :
    Prop where
  /-- Every refused creation counts as one failed message, and so does every record that was created
  as failed. -/
  counted : ∀ stats, how = .completed stats → stats.totalRecipients = total ∧
    stats.sent =
      (created (Deed.exchanges deeds)).countP (fun r => decide (r.status ≠ .failed)) ∧
    stats.failed =
      (created (Deed.exchanges deeds)).countP (fun r => decide (r.status = .failed)) +
        refusals (Deed.exchanges deeds)
  /-- Where the beginning fails, nothing is attempted, scheduled or announced. -/
  not_begun : ∀ cause, ⟨.startProcessing total, some cause⟩ ∈ Deed.exchanges deeds →
    (∀ e ∈ Deed.exchanges deeds, ¬ e.isAttempt) ∧ (∀ x ∈ deeds, x.Harmless) ∧
      (.campaignProcessing, campaign) ∉ Deed.reports deeds
  cancelled : how = .cancelled →
    (∀ e ∈ Deed.exchanges deeds, ∀ stats, e.call ≠ .completeCampaign stats) ∧
      (Deed.exchanges deeds).filterMap marked? = [] ∧
      Deed.reports deeds = [(.campaignProcessing, campaign)]
  completed : ∀ stats, how = .completed stats →
    (Deed.exchanges deeds).filterMap completed? = [stats] ∧
      (Deed.exchanges deeds).filterMap marked? = [] ∧
      Deed.reports deeds = [(.campaignProcessing, campaign), (.campaignCompleted, campaign)]
  /-- The reason is the text of the first failure that was fatal. -/
  failed : ∀ cause, how = .failed cause →
    (Deed.exchanges deeds).findSome? fatal? = some cause ∧
      (Deed.exchanges deeds).filterMap marked? = [cause.message] ∧
      (Deed.exchanges deeds).filterMap completed? = [] ∧
      (Deed.reports deeds = [(.campaignFailed, campaign)] ∨
        Deed.reports deeds = [(.campaignProcessing, campaign), (.campaignFailed, campaign)])
  fatal : (∃ cause, how = .failed cause) ↔ ∃ e ∈ Deed.exchanges deeds, e.fatal?.isSome
  /-- A fatal failure and what follows it take nothing back. -/
  stays : ∀ x ∈ deeds, ∀ e, x.exchange? = some e → e.fatal?.isSome ∨ e.marked?.isSome →
    x.Harmless

/-! ## Exchanges of the three ways -/

theorem Batches.quiet (h : Batches total exchanges tally) {e : Exchange} (he : e ∈ exchanges) :
    e.fatal? = none ∧ e.completed? = none ∧ e.marked? = none ∧
      ∀ stats, e.call ≠ .completeCampaign stats := by
  obtain ⟨attempts, hshape, hall⟩ := h.shape
  rw [hshape] at he
  rcases List.mem_cons.mp he with rfl | he
  · exact ⟨rfl, rfl, rfl, fun stats hc => by cases hc⟩
  · obtain ⟨record, hcall⟩ := hall e he
    refine ⟨by simp [fatal?, hcall], ?_, by simp [marked?, hcall], ?_⟩
    · simp [completed?, hcall]
    · intro stats hc
      rw [hcall] at hc
      cases hc

theorem Batches.findSome_fatal (h : Batches total exchanges tally) :
    exchanges.findSome? fatal? = none := by
  rw [List.findSome?_eq_none_iff]
  intro e he
  exact (h.quiet he).1

theorem Batches.filterMap_completed (h : Batches total exchanges tally) :
    exchanges.filterMap completed? = [] := by
  rw [List.filterMap_eq_nil_iff]
  intro e he
  exact (h.quiet he).2.1

theorem Batches.filterMap_marked (h : Batches total exchanges tally) :
    exchanges.filterMap marked? = [] := by
  rw [List.filterMap_eq_nil_iff]
  intro e he
  exact (h.quiet he).2.2.1

theorem Batches.filterMap_milestone (h : Batches total exchanges tally) :
    exchanges.filterMap milestone? = [.campaignProcessing] := by
  obtain ⟨attempts, hshape, hall⟩ := h.shape
  have hnone : attempts.filterMap milestone? = [] := by
    rw [List.filterMap_eq_nil_iff]
    intro e he
    obtain ⟨record, hcall⟩ := hall e he
    simp only [milestone?, hcall]
  rw [hshape, List.filterMap_cons]
  simp only [milestone?, hnone]

/-- A stopped dispatch has met one fatal failure, the last of its exchanges. -/
theorem Stopped.summary {cause : Error} (h : Stopped total exchanges cause) :
    exchanges.findSome? fatal? = some cause ∧ exchanges.filterMap completed? = [] ∧
      exchanges.filterMap marked? = [] ∧
      (exchanges.filterMap milestone? = [] ∨
        exchanges.filterMap milestone? = [.campaignProcessing]) := by
  cases h with
  | begin => exact ⟨rfl, rfl, rfl, Or.inl rfl⟩
  | count before tally tried =>
    have hfatal := tried.findSome_fatal
    have hcompleted := tried.filterMap_completed
    have hmarked := tried.filterMap_marked
    have hmilestone := tried.filterMap_milestone
    refine ⟨?_, ?_, ?_, Or.inr ?_⟩
    · simp [List.findSome?_append, hfatal, fatal?]
    · simp [List.filterMap_append, hcompleted, completed?]
    · simp [List.filterMap_append, hmarked, marked?]
    · simp [List.filterMap_append, hmilestone, milestone?]
  | complete before tally tried stats =>
    have hfatal := tried.findSome_fatal
    have hcompleted := tried.filterMap_completed
    have hmarked := tried.filterMap_marked
    have hmilestone := tried.filterMap_milestone
    refine ⟨?_, ?_, ?_, Or.inr ?_⟩
    · rw [List.findSome?_append, hfatal]
      rfl
    · simp [List.filterMap_append, hcompleted, completed?]
    · simp [List.filterMap_append, hmarked, marked?]
    · simp [List.filterMap_append, hmilestone, milestone?]

theorem mem_fatal_of_findSome {cause : Error} (h : exchanges.findSome? fatal? = some cause) :
    ∃ e ∈ exchanges, e.fatal?.isSome := by
  obtain ⟨e, he, hfatal⟩ := List.exists_of_findSome?_eq_some h
  exact ⟨e, he, by rw [hfatal]; rfl⟩

/-! ## Histories -/

theorem Reached.end? {first : Dispatch} (h : Reached first deeds d) (open_ : first.end? = none) :
    Deed.end? deeds = d.end? := by
  induction h with
  | start => exact open_.symm
  | step _ _ s _ =>
    rw [Deed.end?, List.getLast?_concat]
    rfl
  | @rearrange _ before _ untried tried ih =>
    rw [ih]
    rcases before.rearrange_cases untried tried with
      he | ⟨_, _, _, _, _, _, _, hp, _, _, he⟩
    · rw [he]
    · rw [he]
      simp [Dispatch.end?, hp]

theorem Reached.same_campaign {recipients : List String} {now : Instant} {turn : Nat}
    (h : Reached (.start campaign recipients now turn) deeds d) :
    ∀ x ∈ deeds, x.dispatch.campaign = campaign := by
  induction h with
  | start =>
    rintro x ⟨⟩
  | step reached _ s ih =>
    intro x hx
    rcases List.mem_append.mp hx with hold | hnew
    · exact ih x hold
    · rw [List.mem_singleton.mp hnew]
      exact reached.past.1
  | rearrange _ _ _ ih => exact ih

theorem reports_eq (same : ∀ x ∈ deeds, x.dispatch.campaign = campaign) :
    Deed.reports deeds =
      ((Deed.exchanges deeds).filterMap milestone?).map fun type => (type, campaign) := by
  induction deeds with
  | nil => rfl
  | cons x rest ih =>
    have hrest := ih fun y hy => same y (List.mem_cons_of_mem x hy)
    have hx := same x List.mem_cons_self
    rw [Deed.reports, List.flatMap_cons, Deed.milestones_eq, hx]
    rw [Deed.reports] at hrest
    rw [hrest, Deed.exchanges, Deed.exchanges, List.filterMap_cons]
    cases hxe : x.exchange? with
    | none => rfl
    | some e =>
      rw [Option.bind_some, List.filterMap_cons]
      cases e.milestone? <;> rfl

theorem refused_begin_iff {cause : Error} {how : DispatchEnd}
    (h : Finished total exchanges how)
    (refused : ⟨.startProcessing total, some cause⟩ ∈ exchanges) :
    ∃ fault, exchanges =
      [⟨.startProcessing total, some cause⟩, ⟨.failCampaign cause.message, fault⟩] := by
  have hbatches : ∀ {before : List Exchange} {tally : Tally}, Batches total before tally →
      ⟨.startProcessing total, some cause⟩ ∉ before := by
    intro before tally batches hmem
    have hnone := (batches.quiet hmem).1
    cases hnone
  cases h with
  | cancelled _ tally batches _ => exact False.elim (hbatches batches refused)
  | completed before tally tried counts =>
    rcases List.mem_append.mp refused with hbefore | hafter
    · exact False.elim (hbatches tried.toBatches hbefore)
    · simp at hafter
  | failed before failure stopped fault =>
    have hbefore : ⟨.startProcessing total, some cause⟩ ∈ before := by
      rcases List.mem_append.mp refused with hbefore | hafter
      · exact hbefore
      · simp at hafter
    cases stopped with
    | begin =>
      have hcause : cause = failure := by
        have heq := List.mem_singleton.mp hbefore
        cases heq
        rfl
      subst hcause
      exact ⟨fault, rfl⟩
    | count earlier tally tried =>
      rcases List.mem_append.mp hbefore with hearlier | hlast
      · exact False.elim (hbatches tried.toBatches hearlier)
      · simp at hlast
    | complete earlier tally tried stats =>
      rcases List.mem_append.mp hbefore with hearlier | hlast
      · exact False.elim (hbatches tried.toBatches hearlier)
      · simp at hlast

theorem created_completed (exchanges : List Exchange) (stats : CampaignStats) :
    created (exchanges ++ [⟨.findRecords, none⟩, ⟨.completeCampaign stats, none⟩]) =
        created exchanges ∧
      refusals (exchanges ++ [⟨.findRecords, none⟩, ⟨.completeCampaign stats, none⟩]) =
        refusals exchanges := by
  constructor
  · simp [created, List.filterMap_append, created?]
  · simp [refusals, List.countP_append, refused]

/-- A dispatch has failed exactly if one of its exchanges was fatal. -/
theorem Finished.fatal_iff {how : DispatchEnd} (h : Finished total exchanges how) :
    (∃ cause, how = .failed cause) ↔ ∃ e ∈ exchanges, e.fatal?.isSome := by
  cases h with
  | cancelled _ tally batches _ =>
    constructor
    · rintro ⟨cause, he⟩
      cases he
    · rintro ⟨e, he, hfatal⟩
      rw [(batches.quiet he).1] at hfatal
      cases hfatal
  | completed before tally tried counts =>
    constructor
    · rintro ⟨cause, he⟩
      cases he
    · rintro ⟨e, he, hfatal⟩
      rcases List.mem_append.mp he with hbefore | hlast
      · rw [(tried.quiet hbefore).1] at hfatal
        cases hfatal
      · rcases List.mem_cons.mp hlast with rfl | hlast
        · cases hfatal
        · rw [List.mem_singleton.mp hlast] at hfatal
          cases hfatal
  | failed before cause stopped fault =>
    constructor
    · intro _
      obtain ⟨e, he, hsome⟩ := mem_fatal_of_findSome stopped.summary.1
      exact ⟨e, List.mem_append_left _ he, hsome⟩
    · intro _
      exact ⟨cause, rfl⟩

/-- A dispatch whose beginning was refused has done nothing but to mark its campaign. -/
theorem Reached.not_begun {recipients : List String} {now : Instant} {turn : Nat}
    (h : Reached (.start campaign recipients now turn) deeds d) {how : DispatchEnd}
    (finished : Finished recipients.length (Deed.exchanges deeds) how) {cause : Error}
    (refused : ⟨.startProcessing recipients.length, some cause⟩ ∈ Deed.exchanges deeds) :
    (∀ e ∈ Deed.exchanges deeds, ¬ e.isAttempt) ∧ (∀ x ∈ deeds, x.Harmless) ∧
      (.campaignProcessing, campaign) ∉ Deed.reports deeds := by
  obtain ⟨fault, hexchanges⟩ := refused_begin_iff finished refused
  refine ⟨?_, ?_, ?_⟩
  · rw [hexchanges]
    rintro e he ⟨record, hcall⟩
    rcases List.mem_cons.mp he with rfl | he
    · cases hcall
    · rw [List.mem_singleton.mp he] at hcall
      cases hcall
  · intro x hx
    obtain ⟨e, he⟩ := h.exists_exchange hx
    have hmem : e ∈ Deed.exchanges deeds := List.mem_filterMap.mpr ⟨x, hx, he⟩
    apply x.untouched he
    rw [hexchanges] at hmem
    rcases List.mem_cons.mp hmem with rfl | hmem
    · exact Or.inl rfl
    · rw [List.mem_singleton.mp hmem]
      exact Or.inr rfl
  · rw [reports_eq h.same_campaign, hexchanges]
    simp [milestone?]

/-- The history of a dispatch that has ended shows which of the three ways it went. -/
theorem Reached.handled {recipients : List String} {now : Instant} {turn : Nat}
    (h : Reached (.start campaign recipients now turn) deeds d) {how : DispatchEnd}
    (ended : d.end? = some how) : Handled campaign recipients.length deeds how := by
  have hpast := h.past.2.2
  rw [d.phase_of_end? ended] at hpast
  have hfinished := hpast.1
  have hreports := reports_eq h.same_campaign
  have hnot_begun : ∀ cause, ⟨.startProcessing recipients.length, some cause⟩ ∈
      Deed.exchanges deeds → _ := fun cause => h.not_begun hfinished
  have hfatal := hfinished.fatal_iff
  have hstays : ∀ x ∈ deeds, ∀ e, x.exchange? = some e → e.fatal?.isSome ∨ e.marked?.isSome →
      x.Harmless := fun x _ e he hstops => x.untouched he hstops
  obtain ⟨past, hexchanges⟩ : ∃ past, past = Deed.exchanges deeds := ⟨_, rfl⟩
  rw [← hexchanges] at hfinished hreports
  cases hfinished with
  | cancelled _ tally batches _ =>
    refine ⟨?_, hnot_begun, ?_, ?_, ?_, hfatal, hstays⟩
    · rintro stats ⟨⟩
    · intro _
      rw [← hexchanges, hreports, batches.filterMap_milestone]
      exact ⟨fun e he => (batches.quiet he).2.2.2, batches.filterMap_marked, rfl⟩
    · rintro stats ⟨⟩
    · rintro cause ⟨⟩
  | completed before tally tried counts =>
    obtain ⟨hcreated, hrefusals⟩ := created_completed before
      (.ofCounts recipients.length tally counts)
    refine ⟨?_, hnot_begun, ?_, ?_, ?_, hfatal, hstays⟩
    · rintro stats ⟨⟩
      rw [← hexchanges, hcreated, hrefusals]
      exact ⟨rfl, tried.sent, tried.failed⟩
    · rintro ⟨⟩
    · rintro stats ⟨⟩
      rw [← hexchanges, hreports, List.filterMap_append, List.filterMap_append,
        List.filterMap_append, tried.filterMap_completed, tried.filterMap_marked,
        tried.filterMap_milestone]
      exact ⟨rfl, rfl, rfl⟩
    · rintro cause ⟨⟩
  | failed before cause stopped fault =>
    obtain ⟨hfirst, hcompleted, hmarked, hmilestone⟩ := stopped.summary
    refine ⟨?_, hnot_begun, ?_, ?_, ?_, hfatal, hstays⟩
    · rintro stats ⟨⟩
    · rintro ⟨⟩
    · rintro stats ⟨⟩
    · rintro cause' ⟨⟩
      rw [← hexchanges, hreports]
      refine ⟨?_, ?_, ?_, ?_⟩
      · rw [List.findSome?_append, hfirst]
        rfl
      · simp [List.filterMap_append, hmarked, marked?]
      · simp [List.filterMap_append, hcompleted, completed?]
      · rcases hmilestone with hm | hm
        · left
          simp [List.filterMap_append, hm, milestone?]
        · right
          simp [List.filterMap_append, hm, milestone?]

namespace Simulation

/-- However the calls of a dispatch fail or succeed, and whatever goes on meanwhile, it ends in one
of the three ways if it ends, and what it has created stays. Unless it is aborted, steps that keep
coming bring it to its end. -/
theorem dispatch_handles_faults {s : Simulation} (reachable : s.Reachable) (campaign : Uuid)
    (recipients : List String) (actions : List Action) :
    let begun := s.act (.begin campaign recipients)
    let deeds := begun.deeds s.state.agenda.nextTicket actions
    (∀ how, Deed.end? deeds = some how → Handled campaign recipients.length deeds how) ∧
      (∀ x ∈ deeds, ∀ m, x.created? = some m →
        m ∈ (begun.run actions).state.records.origins) ∧
      ((∀ a ∈ actions, a ≠ .drop campaign) →
        recipients.length + 4 ≤ actions.countP (fun a => a.isStepOf s.state.agenda.nextTicket) →
        ∃ how, Deed.end? deeds = some how) := by
  intro begun deeds
  have hs : s.Orderly := reachable.orderly
  have hbegun := holds_begin hs campaign recipients
  refine ⟨?_, ?_, ?_⟩
  · intro how hhow
    obtain ⟨d, reached⟩ := history_run (orderly_act hs _) hbegun .start actions
    rw [List.nil_append] at reached
    exact reached.handled ((reached.end? rfl).symm.trans hhow)
  · intro x hx m hm
    exact created_mem_origins (orderly_act hs _) hx hm
  · intro kept henough
    obtain ⟨d, _, reached, _, hcount⟩ := reached_run hbegun .start kept
    rw [List.nil_append] at reached
    cases hd : d.end? with
    | some how => exact ⟨how, (reached.end? rfl).trans hd⟩
    | none =>
      have hrunning : d.isEnded = false := by
        cases hp : d.phase with
        | ended how => simp [Dispatch.end?, hp] at hd
        | _ => simp [Dispatch.isEnded, hp]
      have htaken := hcount hrunning
      have hbound := reached.length_le hrunning
      omega

/-- One creation is refused, the other succeeds, and then the records cannot be counted. -/
theorem uncounted_dispatch_is_handled :
    let s := (ofState (Sample.delivery 1)).run [.enter Sample.campaign]
    let actions : List Action := [.work (.dispatch 0),
      .setOutages ⟨[.addRecordFor "a"], [], false⟩, .work (.dispatch 0), .work (.dispatch 0),
      .setOutages ⟨[.findRecords], [], false⟩, .work (.dispatch 0), .work (.dispatch 0),
      .work (.dispatch 0)]
    let deeds := (s.act (.begin .nil ["a", "b"])).deeds 0 actions
    Handled .nil 2 deeds (.failed (.store "logs.find unavailable")) ∧
      ∃ how, Deed.end? deeds = some how := by
  intro s actions deeds
  have reachable : s.Reachable := Sample.reachable 1 rfl _
  have kept : ∀ a ∈ actions, a ≠ .drop .nil := by simp [actions]
  have ended : Deed.end? deeds = some (.failed (.store "logs.find unavailable")) := by
    decide +kernel
  obtain ⟨handled, _, ends⟩ := dispatch_handles_faults reachable .nil ["a", "b"] actions
  exact ⟨handled _ ended, ends kept (Nat.le_refl 6)⟩

end Simulation

end Outreach
