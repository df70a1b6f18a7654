import Mathlib.Data.List.Nodup
import Outreach.Delivery.Agenda

/-!
# Tickets of the agenda

Every entry of the agenda holds a ticket of its own, drawn before the ticket that comes next, and no
record has two entries. All operations keep to that, so that work put on record under a ticket
reaches the entry it came from and no other, and what is called off for the records of a campaign is
the work of this campaign.
-/

namespace Outreach

/-- Where no ticket is held twice, a change to what holds one of them leaves the others alone. -/
theorem map_ticket_perm {β : Type} {ticket : β → Nat} {all : List β}
    (distinct : (all.map ticket).Nodup) {b : β} (hb : b ∈ all) (change : β → β) :
    (all.map fun c => if ticket c = ticket b then change c else c).Perm
      (change b :: all.filter fun c => ticket c != ticket b) := by
  induction all with
  | nil => cases hb
  | cons first rest ih =>
    rw [List.map_cons, List.nodup_cons] at distinct
    obtain ⟨habsent, hrest⟩ := distinct
    rcases List.mem_cons.mp hb with rfl | hb
    · have hothers : ∀ c ∈ rest, ticket c ≠ ticket b :=
        fun c hc hsame => habsent (List.mem_map.mpr ⟨c, hc, hsame⟩)
      have hmap : (rest.map fun c => if ticket c = ticket b then change c else c) = rest :=
        (List.map_congr_left fun c hc => if_neg (hothers c hc)).trans (List.map_id' rest)
      have hfilter : (rest.filter fun c => ticket c != ticket b) = rest :=
        List.filter_eq_self.mpr fun c hc => by simpa using hothers c hc
      simp [hmap, hfilter]
    · have hne : ticket first ≠ ticket b := fun hsame =>
        habsent (List.mem_map.mpr ⟨b, hb, hsame.symm⟩)
      have hkeep : (ticket first != ticket b) = true := by simpa using hne
      rw [List.map_cons, if_neg hne, List.filter_cons, if_pos hkeep]
      exact ((ih hrest hb).cons first).trans (List.Perm.swap _ _ _)

theorem ticket_perm {β : Type} {ticket : β → Nat} {all : List β}
    (distinct : (all.map ticket).Nodup) {b : β} (hb : b ∈ all) :
    all.Perm (b :: all.filter fun c => ticket c != ticket b) := by
  have hperm := map_ticket_perm distinct hb id
  simpa using hperm

namespace Agenda

variable {α : Type} {s : Agenda α} {e : PendingEntry α}

/-- No two entries share a ticket or a record, and all tickets have been drawn. -/
structure Ticketed (s : Agenda α) : Prop where
  distinct : (s.pending.map PendingEntry.ticket).Nodup
  drawn : ∀ e ∈ s.pending, e.ticket < s.nextTicket
  records : (s.pending.map PendingEntry.record).Nodup

theorem ticketed_of_clear (clear : s.pending = []) : s.Ticketed := by
  constructor
  · rw [clear]
    exact List.nodup_nil
  · rw [clear]
    rintro _ ⟨⟩
  · rw [clear]
    exact List.nodup_nil

theorem Ticketed.eq_of_ticket (h : s.Ticketed) {a b : PendingEntry α} (ha : a ∈ s.pending)
    (hb : b ∈ s.pending) (same : a.ticket = b.ticket) : a = b :=
  List.inj_on_of_nodup_map h.distinct ha hb same

/-- Taking entries off and moving the next ticket on keeps tickets apart. -/
theorem Ticketed.of_sublist (h : s.Ticketed) {t : Agenda α} (sub : t.pending.Sublist s.pending)
    (next : s.nextTicket ≤ t.nextTicket) : t.Ticketed := by
  constructor
  · exact h.distinct.sublist (sub.map _)
  · intro e he
    have hlt := h.drawn e (sub.subset he)
    omega
  · exact h.records.sublist (sub.map _)

theorem ticketed_cancel (h : s.Ticketed) (record : Uuid) : (s.cancel record).2.Ticketed :=
  h.of_sublist List.filter_sublist (Nat.le_refl _)

theorem pending_cancelAll_sublist (s : Agenda α) (campaign : Uuid) :
    (s.cancelAll campaign).2.pending.Sublist s.pending := by
  rw [cancelAll_snd]
  exact List.filter_sublist

@[simp] theorem nextTicket_cancelAll (s : Agenda α) (campaign : Uuid) :
    (s.cancelAll campaign).2.nextTicket = s.nextTicket := by
  rw [cancelAll_snd]

theorem ticketed_cancelAll (h : s.Ticketed) (campaign : Uuid) :
    (s.cancelAll campaign).2.Ticketed :=
  h.of_sublist (s.pending_cancelAll_sublist campaign)
    (Nat.le_of_eq (s.nextTicket_cancelAll campaign).symm)

theorem ticketed_finish (h : s.Ticketed) (ticket : Nat) : (s.finish ticket).Ticketed :=
  h.of_sublist List.filter_sublist (Nat.le_refl _)

theorem ticketed_takeTicket (h : s.Ticketed) : s.takeTicket.2.Ticketed :=
  h.of_sublist (List.Sublist.refl _) (Nat.le_succ _)

/-- What does not look at the work of an entry does not see it go on. -/
theorem map_progress {β : Type} {f : PendingEntry α → β} (s : Agenda α) (ticket : Nat) (work : α)
    (blind : ∀ e : PendingEntry α, f { e with work } = f e) :
    (s.progress ticket work).pending.map f = s.pending.map f := by
  rw [progress, List.map_map]
  apply List.map_congr_left
  intro e _
  simp only [Function.comp_apply]
  split
  · exact blind e
  · rfl

theorem mem_progress {ticket : Nat} {work : α} (h : e ∈ (s.progress ticket work).pending) :
    (e ∈ s.pending ∧ e.ticket ≠ ticket) ∨
      ∃ a ∈ s.pending, a.ticket = ticket ∧ e = { a with work } := by
  obtain ⟨a, ha, rfl⟩ := List.mem_map.mp h
  by_cases hticket : a.ticket = ticket
  · right
    exact ⟨a, ha, hticket, by rw [if_pos hticket]⟩
  · left
    rw [if_neg hticket]
    exact ⟨ha, hticket⟩

theorem mem_progress_self (he : e ∈ s.pending) (work : α) :
    { e with work } ∈ (s.progress e.ticket work).pending :=
  List.mem_map.mpr ⟨e, he, if_pos rfl⟩

theorem mem_progress_of_ne (he : e ∈ s.pending) {ticket : Nat} (other : e.ticket ≠ ticket)
    (work : α) : e ∈ (s.progress ticket work).pending :=
  List.mem_map.mpr ⟨e, he, if_neg other⟩

theorem mem_finish_of_ne (he : e ∈ s.pending) {ticket : Nat} (other : e.ticket ≠ ticket) :
    e ∈ (s.finish ticket).pending :=
  List.mem_filter.mpr ⟨he, by simpa using other⟩

theorem ticketed_progress (h : s.Ticketed) (ticket : Nat) (work : α) :
    (s.progress ticket work).Ticketed := by
  constructor
  · rw [map_progress s ticket work fun _ => rfl]
    exact h.distinct
  · intro e he
    rcases mem_progress he with ⟨hold, _⟩ | ⟨a, ha, _, rfl⟩
    · exact h.drawn e hold
    · exact h.drawn a ha
  · rw [map_progress s ticket work fun _ => rfl]
    exact h.records

theorem mem_schedule {record campaign : Uuid} {work : α}
    (h : e ∈ (s.schedule record campaign work).2.pending) :
    e ∈ s.pending ∨ e = ⟨record, campaign, s.nextTicket, work⟩ := by
  simp only [schedule] at h
  split at h
  · exact Or.inl h
  · rcases List.mem_append.mp h with hold | hnew
    · exact Or.inl (List.mem_filter.mp hold).1
    · exact Or.inr (List.mem_singleton.mp hnew)

theorem mem_schedule_of_ne (he : e ∈ s.pending) {record : Uuid} (other : e.record ≠ record)
    (campaign : Uuid) (work : α) : e ∈ (s.schedule record campaign work).2.pending := by
  simp only [schedule]
  split
  · exact he
  · exact List.mem_append_left _ (List.mem_filter.mpr ⟨he, by simpa using other⟩)

@[simp] theorem cancelled_schedule (s : Agenda α) (record campaign : Uuid) (work : α) :
    (s.schedule record campaign work).2.cancelled = s.cancelled := by
  simp only [schedule]
  split <;> rfl

theorem nextTicket_schedule (s : Agenda α) (record campaign : Uuid) (work : α) :
    s.nextTicket ≤ (s.schedule record campaign work).2.nextTicket := by
  simp only [schedule]
  split
  · exact Nat.le_refl _
  · exact Nat.le_succ _

theorem ticketed_schedule (h : s.Ticketed) (record campaign : Uuid) (work : α) :
    (s.schedule record campaign work).2.Ticketed := by
  simp only [schedule]
  split
  · exact h
  · have hsub : (s.pending.filter fun e => e.record != record).Sublist s.pending :=
      List.filter_sublist
    constructor
    · simp only [List.map_append, List.map_cons, List.map_nil]
      refine List.nodup_append.mpr ⟨h.distinct.sublist (hsub.map _), List.nodup_singleton _, ?_⟩
      intro n hn m hm
      obtain ⟨e, he, rfl⟩ := List.mem_map.mp hn
      have hlt := h.drawn e (hsub.subset he)
      have hm' := List.mem_singleton.mp hm
      omega
    · intro e he
      rcases List.mem_append.mp he with hold | hnew
      · have hlt := h.drawn e (hsub.subset hold)
        exact Nat.lt_succ_of_lt hlt
      · rw [List.mem_singleton.mp hnew]
        exact Nat.lt_succ_self _
    · simp only [List.map_append, List.map_cons, List.map_nil]
      refine List.nodup_append.mpr ⟨h.records.sublist (hsub.map _), List.nodup_singleton _, ?_⟩
      intro r hr q hq
      obtain ⟨e, he, rfl⟩ := List.mem_map.mp hr
      rw [List.mem_singleton.mp hq]
      simpa using (List.mem_filter.mp he).2

/-! ## Calling off a campaign -/

theorem Ticketed.eq_of_record (h : s.Ticketed) {a b : PendingEntry α} (ha : a ∈ s.pending)
    (hb : b ∈ s.pending) (same : a.record = b.record) : a = b :=
  List.inj_on_of_nodup_map h.records ha hb same

/-- Among what is pending the records of a campaign pick out its work. -/
theorem Ticketed.record_mem_recordsOf (h : s.Ticketed) (he : e ∈ s.pending) {campaign : Uuid} :
    e.record ∈ s.recordsOf campaign ↔ e.campaign = campaign := by
  rw [mem_recordsOf]
  constructor
  · rintro ⟨a, ha, hcampaign, hrecord⟩
    rwa [h.eq_of_record ha he hrecord] at hcampaign
  · intro hcampaign
    exact ⟨e, he, hcampaign, rfl⟩

/-- Records that all have work are called off one after the other, and each of them counts. -/
theorem cancelEach_fst {records : List Uuid} (distinct : records.Nodup) {s : Agenda α}
    (busy : ∀ record ∈ records, s.hasPending record = true) :
    (cancelEach records s).1 = records.length := by
  induction records generalizing s with
  | nil => rfl
  | cons record rest ih =>
    rw [List.nodup_cons] at distinct
    have hrest : ∀ other ∈ rest, (s.cancel record).2.hasPending other = true := by
      intro other hother
      obtain ⟨e, he, hrecord⟩ := List.any_eq_true.mp (busy other (List.mem_cons_of_mem _ hother))
      have hne : e.record ≠ record := by
        rintro rfl
        rw [eq_of_beq hrecord] at distinct
        exact distinct.1 hother
      exact List.any_eq_true.mpr ⟨e, List.mem_filter.mpr ⟨he, by simpa using hne⟩, hrecord⟩
    have hfirst : (s.cancel record).1 = true := busy record List.mem_cons_self
    simp only [cancelEach, hfirst, ih distinct.2 hrest, Bool.toNat_true, List.length_cons]
    omega

/-- What is called off with a campaign is its work, and all of it. -/
theorem cancelAll_eq (h : s.Ticketed) (campaign : Uuid) :
    s.cancelAll campaign =
      (s.countFor campaign,
        { s with
          pending := s.pending.filter fun e => e.campaign != campaign
          cancelled := campaign :: s.cancelled }) := by
  refine Prod.ext ?_ ?_
  · refine (cancelEach_fst (h.records.sublist (List.filter_sublist.map _)) ?_).trans ?_
    · intro record hmem
      obtain ⟨e, he, -, hrecord⟩ := mem_recordsOf.mp hmem
      exact List.any_eq_true.mpr ⟨e, he, beq_iff_eq.mpr hrecord⟩
    · rw [countFor, List.countP_eq_length_filter]
      exact List.length_map _
  · have hfilter : (s.pending.filter fun e => !(s.recordsOf campaign).contains e.record) =
        s.pending.filter fun e => e.campaign != campaign := by
      refine List.filter_congr fun e he => ?_
      rw [Bool.eq_iff_iff]
      simp [h.record_mem_recordsOf he]
    rw [cancelAll_snd, hfilter]

/-! ## Closed campaigns -/

/-- The property outlives whatever takes entries off, puts their work on record or draws tickets. -/
structure Hereditary (P : Agenda α → Prop) : Prop where
  cancel : ∀ s record, P s → P (s.cancel record).2
  cancelAll : ∀ s campaign, P s → P (s.cancelAll campaign).2
  finish : ∀ s ticket, P s → P (s.finish ticket)
  progress : ∀ s ticket work, P s → P (s.progress ticket work)
  takeTicket : ∀ s, P s → P s.takeTicket.2

/-- The campaign is refused, and nothing of it is pending. -/
structure Closed (s : Agenda α) (campaign : Uuid) : Prop where
  refuses : s.refuses campaign = true
  clear : ∀ e ∈ s.pending, e.campaign ≠ campaign

theorem Closed.countFor {campaign : Uuid} (h : s.Closed campaign) : s.countFor campaign = 0 := by
  rw [Agenda.countFor, List.countP_eq_zero]
  intro e he
  simpa using h.clear e he

theorem closed_cancelAll (s : Agenda α) (campaign : Uuid) :
    (s.cancelAll campaign).2.Closed campaign := by
  constructor
  · exact refuses_cancelAll s campaign
  · intro e he hcampaign
    rw [cancelAll_snd] at he
    obtain ⟨hmem, hkept⟩ := List.mem_filter.mp he
    have hrecord : e.record ∈ s.recordsOf campaign := mem_recordsOf.mpr ⟨e, hmem, hcampaign, rfl⟩
    simp [hrecord] at hkept

theorem Closed.of_subset {t : Agenda α} {campaign : Uuid} (h : s.Closed campaign)
    (pending : t.pending ⊆ s.pending) (cancelled : s.cancelled ⊆ t.cancelled) :
    t.Closed campaign := by
  constructor
  · have hrefuses := h.refuses
    simp only [Agenda.refuses, List.contains_iff_mem] at hrefuses ⊢
    exact cancelled hrefuses
  · intro e he
    exact h.clear e (pending he)

theorem hereditary_closed (campaign : Uuid) :
    Hereditary fun s : Agenda α => s.Closed campaign := by
  constructor
  · intro s record h
    exact h.of_subset List.filter_sublist.subset (List.Subset.refl _)
  · intro s other h
    refine h.of_subset (s.pending_cancelAll_sublist other).subset ?_
    rw [cancelAll_snd]
    exact List.subset_cons_self _ _
  · intro s ticket h
    exact h.of_subset List.filter_sublist.subset (List.Subset.refl _)
  · intro s ticket work h
    constructor
    · exact h.refuses
    · intro e he
      rcases mem_progress he with ⟨hold, _⟩ | ⟨a, ha, _, rfl⟩
      · exact h.clear e hold
      · exact h.clear a ha
  · intro s h
    exact h.of_subset (List.Subset.refl _) (List.Subset.refl _)

/-- Work of a closed campaign is not accepted, and work of another does not open it. -/
theorem Closed.schedule {campaign : Uuid} (h : s.Closed campaign) (record other : Uuid)
    (work : α) : (s.schedule record other work).2.Closed campaign := by
  by_cases hrefused : s.refuses other = true
  · rw [Agenda.schedule, if_pos hrefused]
    exact h
  · constructor
    · rw [Agenda.refuses, cancelled_schedule]
      exact h.refuses
    · intro e he
      rcases mem_schedule he with hold | rfl
      · exact h.clear e hold
      · rintro rfl
        exact hrefused h.refuses

end Agenda

end Outreach
