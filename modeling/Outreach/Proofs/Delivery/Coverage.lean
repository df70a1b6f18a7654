import Mathlib.Data.List.Induction
import Mathlib.Data.List.Pairwise
import Outreach.Proofs.Delivery.Naming
import Outreach.Proofs.Delivery.Standing

/-!
# Whom a completed campaign has reached

The name of a message does not tell its campaign, so two campaigns whose batches for one customer
begin in the same microsecond draft two messages of one name. The second of them is not recorded. A
completed campaign has one record for each of its recipients for whom no other campaign has taken
the name, and none for the others.
-/

namespace Outreach

open DeliveryState Exchange

/-- Another campaign has a record of the same name. -/
def RecordBook.Contends (s : RecordBook) (r : MessageRecord) : Prop :=
  ∃ q ∈ s.records, q.campaignId ≠ r.campaignId ∧ q.messageId = r.messageId

instance (s : RecordBook) (r : MessageRecord) : Decidable (s.Contends r) :=
  inferInstanceAs (Decidable (∃ q ∈ s.records, _))

/-- What a completed campaign has to show, given the records that its dispatch has asked for. -/
structure Covered (campaign : Uuid) (recipients : List String) (asked : List MessageRecord)
    (c : Campaign) (book : RecordBook) : Prop where
  total : c.stats.totalRecipients = recipients.length
  each : (asked.map MessageRecord.customerId).Perm recipients
  drafts : ∀ r ∈ asked, r.DraftOf campaign
  records : ((book.find (.campaign campaign)).map MessageRecord.origin).Perm
    (asked.filter fun r => decide (¬ book.Contends r))
  once : ∀ r ∈ asked, (book.find (.campaign campaign)).countP
    (fun q => decide (q.customerId = r.customerId)) = if book.Contends r then 0 else 1
  complete : (book.find (.campaign campaign)).length = c.stats.totalRecipients ↔
    ∀ r ∈ asked, ¬ book.Contends r

theorem eq_of_nodup_filterMap {α β : Type} {f : α → Option β} {l : List α}
    (distinct : (l.filterMap f).Nodup) {a b : α} (ha : a ∈ l) (hb : b ∈ l) {c : β}
    (fa : f a = some c) (fb : f b = some c) : a = b := by
  by_contra hne
  have hpairs := List.pairwise_filterMap.mp distinct
  have hsymm : Std.Symm fun x y => ∀ v, f x = some v → ∀ w, f y = some w → v ≠ w := by
    constructor
    intro x y hxy v hv w hw he
    exact hxy w hw v hv he.symm
  exact hpairs.forall ha hb hne c fa c fb rfl

/-- What is kept of some records for distinct customers has one of them for a customer or none. -/
theorem countP_of_filter {records asked : List MessageRecord} {p : MessageRecord → Prop}
    [DecidablePred p]
    (kept : (records.map MessageRecord.origin).Perm (asked.filter fun r => decide (¬ p r)))
    (distinct : (asked.map MessageRecord.customerId).Nodup) {r : MessageRecord} (hr : r ∈ asked) :
    records.countP (fun q => decide (q.customerId = r.customerId)) = if p r then 0 else 1 := by
  have hcount := (kept.map MessageRecord.customerId).count_eq r.customerId
  have hrecords : ((records.map MessageRecord.origin).map MessageRecord.customerId).count
      r.customerId = records.countP fun q => decide (q.customerId = r.customerId) := by
    rw [List.map_map, List.count, List.countP_map]
    rfl
  have hnodup : ((asked.filter fun r => decide (¬ p r)).map MessageRecord.customerId).Nodup :=
    distinct.sublist (List.filter_sublist.map _)
  rw [hrecords, hnodup.count] at hcount
  rw [hcount]
  by_cases hp : p r
  · rw [if_pos hp, if_neg]
    intro hmem
    obtain ⟨q, hq, hcustomer⟩ := List.mem_map.mp hmem
    obtain ⟨hq, hkept⟩ := List.mem_filter.mp hq
    rw [List.inj_on_of_nodup_map distinct hq hr hcustomer] at hkept
    simp [hp] at hkept
  · rw [if_neg hp, if_pos]
    exact List.mem_map.mpr ⟨r, List.mem_filter.mpr ⟨hr, by simpa using hp⟩, rfl⟩

theorem Reached.of_concat {first d : Dispatch} {deeds : List Deed} {x : Deed}
    (h : Reached first (deeds ++ [x]) d) :
    Reached first deeds x.dispatch ∧ x.dispatch.isEnded = false := by
  generalize hall : deeds ++ [x] = all at h
  induction h with
  | start => simp at hall
  | step reached running s _ =>
    obtain ⟨rfl, hx⟩ := List.append_inj' hall rfl
    cases hx
    exact ⟨reached, running⟩
  | rearrange _ _ _ ih => exact ih hall

theorem taken_of_addRecord_error {s : DeliveryState} (calm : s.outages = .none)
    {r : MessageRecord} {cause : Error} (h : s.addRecord r = .error cause) :
    (s.records.lookup? r.messageId).isSome := by
  cases hl : s.records.lookup? r.messageId with
  | some id => rfl
  | none =>
    have hcreate := RecordBook.create_eq_ok.mpr ⟨hl, rfl⟩
    simp only [addRecord, calm, Outages.check_none, hcreate] at h
    cases h

namespace Simulation

variable {s : Simulation} {campaign : Uuid} {ticket : Nat} {recipients : List String}
  {deeds : List Deed}

/-- How things stand with a campaign that the dispatch with a ticket sends to some recipients. -/
structure Course (s : Simulation) (campaign : Uuid) (ticket : Nat) (recipients : List String)
    (deeds : List Deed) : Prop extends s.Booked campaign ticket deeds where
  calm : s.state.outages = .none
  total : ∀ c, s.state.campaigns.get? campaign = some c →
    c.stats.totalRecipients = recipients.length
  completed : ∀ c, s.state.campaigns.get? campaign = some c → c.status = .completed →
    ∃ stats, Deed.end? deeds = some (.completed stats)
  taken : ∀ r ∈ Deed.asked deeds, (s.state.records.lookup? r.messageId).isSome

theorem course_begin (o : s.Orderly) (alone : ∀ r ∈ s.running, r.dispatch.campaign ≠ campaign)
    (unlogged : s.state.records.find (.campaign campaign) = [])
    (calm : s.state.outages = .none)
    (drafted : ∀ c, s.state.campaigns.get? campaign = some c →
      c.stats.totalRecipients = recipients.length ∧ c.status = .draft) :
    (s.act (.begin campaign recipients)).Course campaign s.state.agenda.nextTicket recipients
      [] := by
  refine { booked_begin o alone unlogged recipients with
    calm := calm, total := ?_, completed := ?_, taken := ?_ }
  · intro c hc
    exact (drafted c hc).1
  · intro c hc hstatus
    rw [(drafted c hc).2] at hstatus
    cases hstatus
  · rintro r ⟨⟩

theorem Course.taken_act (h : s.Course campaign ticket recipients deeds) (a : Action) :
    ∀ r ∈ Deed.asked (deeds ++ (s.deedOf? ticket a).toList),
      ((s.act a).state.records.lookup? r.messageId).isSome := by
  intro r hr
  cases hdeed : s.deedOf? ticket a with
  | none =>
    rw [hdeed, Option.toList_none, List.append_nil] at hr
    exact lookup?_act s a (h.taken r hr)
  | some x =>
    rw [hdeed, Option.toList_some, Deed.asked_concat] at hr
    rcases List.mem_append.mp hr with hold | hnew
    · exact lookup?_act s a (h.taken r hold)
    · have hstate := state_of_deedOf? hdeed
      rcases Deed.asked_exchange (Option.mem_toList.mp hnew) with
        ⟨_, hcreate⟩ | ⟨_, cause, hrefused⟩
      · rw [state_act_of_deedOf? hdeed, RecordBook.lookup?_create hcreate, if_pos rfl]
        rfl
      · rw [hstate] at hrefused
        exact lookup?_act s a (taken_of_addRecord_error h.calm hrefused)

/-- The campaign that the book has after an action is as its dispatch has left it. -/
theorem Course.campaign_act (h : s.Course campaign ticket recipients deeds) {a : Action}
    (spares : a.Spares campaign) {now : Instant} {turn : Nat} {d : Dispatch}
    (reached : Reached (.start campaign recipients now turn)
      (deeds ++ (s.deedOf? ticket a).toList) d) {c : Campaign}
    (present : (s.act a).state.campaigns.get? campaign = some c) :
    c.stats.totalRecipients = recipients.length ∧ (c.status = .completed →
      ∃ stats, Deed.end? (deeds ++ (s.deedOf? ticket a).toList) = some (.completed stats)) := by
  cases hdeed : s.deedOf? ticket a with
  | none =>
    rw [Option.toList_none, List.append_nil]
    rcases (standing_act s spares).keeps with hkeeps | ⟨r, hr, hcampaign, rfl⟩
    · obtain ⟨b, hb, hstatus, hstats⟩ := hkeeps c present
      constructor
      · rcases hstats with hsame | hrecount
        · rw [hsame]
          exact h.total b hb
        · rw [hrecount]
          exact h.total b hb
      · intro hcompleted
        exact h.completed b hb (hstatus.symm.trans hcompleted)
    · have hticket := (h.only r (dispatchAt?_eq_some hr).1).mp hcampaign
      rw [hticket] at hr hdeed
      simp [deedOf?, Action.isStepOf, hr] at hdeed
  | some x =>
    rw [hdeed, Option.toList_some] at reached
    obtain ⟨hbefore, hrunning⟩ := reached.of_concat
    rw [state_act_of_deedOf? hdeed] at present
    obtain ⟨b, hb, htotal, hcompleted⟩ := hbefore.campaign_step x.state present
    rw [state_of_deedOf? hdeed] at hb
    constructor
    · rcases htotal with htotal | htotal
      · exact htotal.trans (h.total b hb)
      · exact htotal
    · intro hstatus
      rw [Option.toList_some, Deed.end?, List.getLast?_concat]
      rcases hcompleted hstatus with hold | hnew
      · -- A dispatch that had completed the campaign would not have taken this step.
        obtain ⟨stats, hend⟩ := h.completed b hb hold
        rw [hbefore.end? rfl] at hend
        have hphase := x.dispatch.phase_of_end? hend
        simp [Dispatch.isEnded, hphase] at hrunning
      · exact hnew

theorem course_act (o : s.Orderly) (h : s.Course campaign ticket recipients deeds) {a : Action}
    (spares : a.Spares campaign) {now : Instant} {turn : Nat} {d : Dispatch}
    (reached : Reached (.start campaign recipients now turn)
      (deeds ++ (s.deedOf? ticket a).toList) d) :
    (s.act a).Course campaign ticket recipients (deeds ++ (s.deedOf? ticket a).toList) := by
  have hsingle : ∀ names, a ≠ .begin campaign names := by
    rintro names rfl
    exact spares rfl
  refine { booked_act o h.toBooked hsingle with
    calm := ?_, total := ?_, completed := ?_, taken := h.taken_act a }
  · exact (standing_act s spares).outages.trans h.calm
  · intro c hc
    exact (h.campaign_act spares reached hc).1
  · intro c hc
    exact (h.campaign_act spares reached hc).2

theorem course_run (o : s.Orderly) {now : Instant} {turn : Nat}
    (h : s.Course campaign ticket recipients [])
    (holds : s.Holds ticket (.start campaign recipients now turn)) (actions : List Action)
    (spares : ∀ a ∈ actions, a.Spares campaign) :
    (s.run actions).Course campaign ticket recipients (s.deeds ticket actions) := by
  induction actions using List.reverseRecOn with
  | nil => exact h
  | append_singleton before a ih =>
    have hbefore := ih fun b hb => spares b (List.mem_append_left _ hb)
    have hdeeds := deeds_concat ticket s before a
    obtain ⟨d, hreached⟩ := history_run o holds .start (before ++ [a])
    rw [List.nil_append, hdeeds] at hreached
    rw [run_concat, hdeeds]
    exact course_act (orderly_run o before) hbefore
      (spares a (List.mem_append_right _ List.mem_cons_self)) hreached

/-- A record that was asked for is there if nothing contends with it, and was refused otherwise. -/
theorem Course.created_eq (h : s.Course campaign ticket recipients deeds) (named : s.Named)
    (drafts : ∀ r ∈ Deed.asked deeds, r.DraftOf campaign)
    (distinct : ((Deed.asked deeds).map MessageRecord.customerId).Nodup) {x : Deed}
    (hx : x ∈ deeds) :
    x.created? = x.dispatch.asked?.filter fun r => decide (¬ s.state.records.Contends r) := by
  cases hasked : x.dispatch.asked? with
  | none =>
    cases hcreated : x.created? with
    | none => rfl
    | some m => rw [Deed.asked_of_created hcreated] at hasked; cases hasked
  | some r =>
    have hr : r ∈ Deed.asked deeds := List.mem_filterMap.mpr ⟨x, hx, hasked⟩
    have hdraft := drafts r hr
    rw [Option.filter_some]
    cases hcreated : x.created? with
    | some m =>
      have hm : m = r := Option.some.inj ((Deed.asked_of_created hcreated).symm.trans hasked)
      subst hm
      have hmem : m ∈ (s.state.records.find (.campaign campaign)).map MessageRecord.origin :=
        h.records.mem_iff.mpr (List.mem_filterMap.mpr ⟨x, hx, hcreated⟩)
      obtain ⟨q, hq, rfl⟩ := List.mem_map.mp hmem
      rw [if_pos]
      rw [decide_eq_true_eq]
      rintro ⟨p, hp, hother, hname⟩
      have hsame : p = q :=
        named.eq_of_messageId hp (RecordBook.mem_find_campaign.mp hq).1 hname
      have hcampaign : p.campaignId = q.campaignId := congrArg MessageRecord.campaignId hsame
      exact hother hcampaign
    | none =>
      obtain ⟨id, hid⟩ := Option.isSome_iff_exists.mp (h.taken r hr)
      obtain ⟨q, hq, hname, _⟩ := named.indexed.held r.messageId id hid
      have hcustomer := named.customerId_eq hq hdraft hname
      rw [if_neg]
      rw [decide_eq_true_eq, not_not]
      refine ⟨q, hq, ?_, hname⟩
      intro hown
      rw [hdraft.campaign] at hown
      have hmem : q.origin ∈ deeds.filterMap Deed.created? :=
        h.records.mem_iff.mp (List.mem_map.mpr
          ⟨q, RecordBook.mem_find_campaign.mpr ⟨hq, hown⟩, rfl⟩)
      obtain ⟨y, hy, hycreated⟩ := List.mem_filterMap.mp hmem
      have hyasked := Deed.asked_of_created hycreated
      have hsame : q.origin = r :=
        List.inj_on_of_nodup_map distinct (List.mem_filterMap.mpr ⟨y, hy, hyasked⟩) hr hcustomer
      rw [hsame] at hyasked hycreated
      have hxy := eq_of_nodup_filterMap (List.Nodup.of_map _ distinct) hx hy hasked hyasked
      rw [hxy, hycreated] at hcreated
      cases hcreated

/-- A campaign that its dispatch has completed has reached the recipients that it could. -/
theorem Course.covered (h : s.Course campaign ticket recipients deeds) (named : s.Named)
    {now : Instant} {turn : Nat} {d : Dispatch}
    (reached : Reached (.start campaign recipients now turn) deeds d)
    (distinct : recipients.Nodup) {c : Campaign}
    (present : s.state.campaigns.get? campaign = some c) (completed : c.status = .completed) :
    Covered campaign recipients (Deed.asked deeds) c s.state.records := by
  obtain ⟨stats, hend⟩ := h.completed c present completed
  have hperm := reached.asked_perm hend
  have hnodup := hperm.nodup_iff.mpr distinct
  have htotal := h.total c present
  have hrecords : ((s.state.records.find (.campaign campaign)).map MessageRecord.origin).Perm
      ((Deed.asked deeds).filter fun r => decide (¬ s.state.records.Contends r)) := by
    have hcreated := List.filterMap_congr fun x hx =>
      h.created_eq named reached.asked_drafts hnodup hx
    rw [Deed.asked, List.filter_filterMap, ← hcreated]
    exact h.records
  have hlength := hrecords.length_eq
  rw [List.length_map] at hlength
  refine ⟨htotal, hperm, reached.asked_drafts, hrecords, ?_, ?_⟩
  · intro r hr
    exact countP_of_filter hrecords hnodup hr
  · have hall := hperm.length_eq
    rw [List.length_map] at hall
    rw [hlength, htotal, ← hall, List.length_filter_eq_length_iff]
    simp

end Simulation

end Outreach
