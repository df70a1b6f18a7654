import Outreach.Proofs.Delivery.Recipients

/-!
# What a dispatch tells

A dispatch tells that its campaign is being processed as soon as the book has answered. Of a batch
it tells when all of its records have been tried, once for each record that has been created. What
it tells last is that the campaign is completed or that it has failed. So what it has told at any
time is read off from the records that it has created and from the phase that it is in.
-/

namespace Outreach

open DeliveryState

/-- Something is told of the message of a record. -/
def MessageRecord.report (r : MessageRecord) (type : EventKind) : Report :=
  ⟨type, r.campaignId, some r.customerId, some r.messageId⟩

/-- What is told of a record that has been created. -/
def MessageRecord.announced (r : MessageRecord) : EventKind :=
  if r.status = .queued then .messageQueued else .messageFailed

def MessageRecord.announcement (r : MessageRecord) : Report :=
  r.report r.announced

/-- Something is told of a campaign as a whole. -/
def Report.milestone (campaign : Uuid) (type : EventKind) : Report :=
  ⟨type, campaign, none, none⟩

theorem reduceOption_append_attempt (tried : List (Option MessageRecord))
    (attempt : Option MessageRecord) :
    (tried ++ [attempt]).reduceOption = tried.reduceOption ++ attempt.toList := by
  rw [← List.concat_eq_append, List.reduceOption_concat]

namespace DeliveryState

variable {s t : DeliveryState} {d d' : Dispatch}

theorem tells_settleAttempt (tally : Tally) (s : DeliveryState) (attempt : Option MessageRecord) :
    s.recorder.Tells (settleAttempt tally s attempt).2.recorder
      (attempt.toList.map MessageRecord.announcement) := by
  cases attempt with
  | none => exact .of_eq rfl
  | some r =>
    by_cases h : r.status = .queued
    · rw [settleAttempt_sent tally s h, Option.toList_some, List.map_singleton,
        MessageRecord.announcement, MessageRecord.announced, if_pos h]
      exact tells_emitMessage (s.scheduleWalk r) _ _ _ _
    · rw [settleAttempt_unsent tally s h, Option.toList_some, List.map_singleton,
        MessageRecord.announcement, MessageRecord.announced, if_neg h]
      exact tells_emitMessage s _ _ _ _

theorem tells_settleBatch (tally : Tally) (s : DeliveryState)
    (tried : List (Option MessageRecord)) :
    s.recorder.Tells (settleBatch tally s tried).2.recorder
      (tried.reduceOption.map MessageRecord.announcement) := by
  induction tried generalizing tally s with
  | nil => exact .of_eq rfl
  | cons attempt rest ih =>
    have hfirst := tells_settleAttempt tally s attempt
    have hall := hfirst.trans
      (ih (settleAttempt tally s attempt).1 (settleAttempt tally s attempt).2)
    rw [← List.map_append] at hall
    cases attempt with
    | none => exact hall
    | some r => exact hall

/-- What is pending after a batch was settled was pending before, or is the walk of a message that
was sent. -/
theorem mem_settleBatch (tally : Tally) (s : DeliveryState) (tried : List (Option MessageRecord))
    {e : PendingEntry Walk} (he : e ∈ (settleBatch tally s tried).2.agenda.pending) :
    e ∈ s.agenda.pending ∨ ∃ m ∈ tried.reduceOption, m.status = .queued ∧ e.record = m.id ∧
      e.campaign = m.campaignId ∧ e.work.customerId = m.customerId ∧
      e.work.messageId = m.messageId ∧ e.work.progress = .scheduled s.now := by
  induction tried generalizing tally s with
  | nil => exact Or.inl he
  | cons attempt rest ih =>
    rw [settleBatch_cons] at he
    rcases ih _ _ he with hfirst | ⟨m, hm, hwalk⟩
    · cases attempt with
      | none => exact Or.inl hfirst
      | some r =>
        by_cases h : r.status = .queued
        · rw [settleAttempt_sent tally s h] at hfirst
          rcases Agenda.mem_schedule hfirst with hold | rfl
          · exact Or.inl hold
          · exact Or.inr ⟨r, by simp [List.reduceOption_cons_of_some], h, rfl, rfl, rfl, rfl, rfl⟩
        · rw [settleAttempt_unsent tally s h] at hfirst
          exact Or.inl hfirst
    · right
      rw [(kept_settleAttempt tally s attempt).now] at hwalk
      refine ⟨m, ?_, hwalk⟩
      cases attempt with
      | none => exact hm
      | some r => exact List.mem_cons_of_mem r hm

theorem NextBatch.silent {tally : Tally} {rest : List String}
    (h : NextBatch s d tally rest d' t) : t.recorder = s.recorder := by
  cases h with
  | none_left _ _ state => rw [state]
  | cancelled _ _ state => rw [state]
  | drafts _ _ _ _ _ _ _ _ _ drafted => exact drafted.silent

end DeliveryState

/-! ## Single steps -/

namespace Deed

variable {x : Deed}

/-- The records of the batch that the step settles. -/
def settled (x : Deed) : List MessageRecord :=
  match x.dispatch.phase with
  | .creating _ [] tried _ _ => tried.reduceOption ++ x.created?.toList
  | _ => []

/-- What the step tells. -/
def told (x : Deed) : List Report :=
  (x.exchange?.bind Exchange.milestone?).toList.map (Report.milestone x.dispatch.campaign) ++
    x.settled.map MessageRecord.announcement

/-- The attempt of a step has created what the step has created. -/
theorem created?_attempted {record : MessageRecord} {more : List MessageRecord}
    {tried : List (Option MessageRecord)} {rest : List String} {tally : Tally}
    {attempt : Option MessageRecord} {t : DeliveryState}
    (phase : x.dispatch.phase = .creating record more tried rest tally)
    (attempted : Attempted x.state record attempt t) :
    x.created? = attempt ∧ x.exchange?.bind Exchange.milestone? = none := by
  obtain ⟨fault, hx, hattempt⟩ := exchange?_attempted (x := x) phase attempted
  rw [created?, hx, hattempt]
  cases fault <;> exact ⟨rfl, rfl⟩

/-- A call that has failed for a dispatch to stop creates nothing and is not told of. -/
theorem milestone?_stopped {cause : Error}
    (failed : (∃ recipients, x.dispatch.phase = .starting recipients ∧
        x.state.startProcessing x.dispatch.campaign x.dispatch.total = .error cause) ∨
      (∃ tally, x.dispatch.phase = .counting tally ∧
        x.state.findRecords (.campaign x.dispatch.campaign) = .error cause) ∨
      ∃ stats, x.dispatch.phase = .completing stats ∧
        x.state.completeCampaign x.dispatch.campaign stats = .error cause) :
    x.created? = none ∧ x.exchange?.bind Exchange.milestone? = none ∧
      x.dispatch.created = [] ∧ x.settled = [] := by
  obtain ⟨call, hcall, hx⟩ := exchange?_stopped failed
  rw [created?, settled, Dispatch.created, hx]
  rcases failed with ⟨_, phase, _⟩ | ⟨_, phase, _⟩ | ⟨_, phase, _⟩ <;>
    simp only [Dispatch.call?, phase, Option.some.injEq] at hcall ⊢ <;> rw [← hcall] <;>
    exact ⟨rfl, rfl, trivial, trivial⟩

/-- A step settles what its batch has created, or keeps it with what it creates itself. -/
theorem settled_append (x : Deed) :
    x.settled ++ x.next.created = x.dispatch.created ++ x.created?.toList := by
  cases x.step_spec with
  | begun _ _ phase answered next =>
    rw [next.created, created?, exchange?_started phase answered]
    simp [settled, Dispatch.created, phase, Exchange.created?]
  | tried record more tried rest tally attempt u phase attempted after =>
    obtain ⟨hcreated, -⟩ := created?_attempted phase attempted
    cases after with
    | same_batch following later left dispatch _ =>
      rw [dispatch, settled, phase, left, hcreated]
      simp only [Dispatch.created, phase, List.nil_append, reduceOption_append_attempt]
    | settled left next =>
      rw [settled, phase, left, hcreated, next.created]
      simp [Dispatch.created, phase]
  | counted _ phase answered dispatch _ =>
    simp [settled, created?, exchange?_counted phase answered, dispatch, Dispatch.created, phase,
      Exchange.created?]
  | completed _ _ phase answered dispatch _ =>
    simp [settled, created?, exchange?_completed phase answered, dispatch, Dispatch.created, phase,
      Exchange.created?]
  | stopped cause failed dispatch _ =>
    obtain ⟨hcreated, -, hnone, hsettled⟩ := milestone?_stopped failed
    rw [dispatch, hcreated, hnone, hsettled]
    rfl
  | failed cause phase dispatch _ =>
    obtain ⟨fault, hx⟩ := exchange?_marked (x := x) phase
    cases fault <;> simp [settled, created?, hx, dispatch, Dispatch.created, phase,
      Exchange.created?]
  | ended _ phase dispatch _ =>
    simp [settled, created?, exchange?, Dispatch.call?, dispatch, Dispatch.created, phase]

/-- A recorder is told what the step tells, and nothing else. -/
theorem tells (x : Deed) : x.state.recorder.Tells x.result.recorder x.told := by
  cases x.step_spec with
  | begun _ u phase answered next =>
    obtain ⟨book, _, rfl⟩ := startProcessing_ok answered
    rw [next.silent, told, exchange?_started phase answered]
    simp only [settled, phase]
    exact x.state.recorder.tells_emit _
  | tried record more tried rest tally attempt u phase attempted after =>
    obtain ⟨hcreated, hmilestone⟩ := created?_attempted phase attempted
    obtain ⟨book, rfl, _⟩ := attempted.book
    rw [told, hmilestone]
    cases after with
    | same_batch following later left _ state =>
      rw [settled, phase, left, state]
      exact .of_eq rfl
    | settled left next =>
      rw [settled, phase, left, hcreated, next.silent]
      have hbatch := tells_settleBatch tally { x.state with records := book } (tried ++ [attempt])
      rwa [reduceOption_append_attempt] at hbatch
  | counted _ phase answered _ state =>
    rw [told, exchange?_counted phase answered, settled, phase, state]
    exact .of_eq rfl
  | completed _ u phase answered _ state =>
    obtain ⟨book, _, rfl⟩ := completeCampaign_ok answered
    rw [told, exchange?_completed phase answered, settled, phase, state]
    exact x.state.recorder.tells_emit _
  | stopped _ failed _ state =>
    obtain ⟨-, hmilestone, -, hsettled⟩ := milestone?_stopped failed
    rw [told, hmilestone, hsettled, state]
    exact .of_eq rfl
  | failed cause phase _ state =>
    obtain ⟨fault, hx⟩ := exchange?_marked (x := x) phase
    obtain ⟨book, hbook, _⟩ := failCampaign_book x.state x.dispatch.campaign cause.message
    rw [told, hx, settled, phase, state, hbook]
    cases fault <;> exact x.state.recorder.tells_emit _
  | ended _ phase _ state =>
    rw [told, exchange?, Dispatch.call?, settled, phase, state]
    exact .of_eq rfl

/-- What is pending after a step was pending before, or is the walk of a message that the step has
settled. -/
theorem mem_pending (x : Deed) {e : PendingEntry Walk} (he : e ∈ x.result.agenda.pending) :
    e ∈ x.state.agenda.pending ∨ ∃ m ∈ x.settled, m.status = .queued ∧ e.record = m.id ∧
      e.campaign = m.campaignId ∧ e.work.customerId = m.customerId ∧
      e.work.messageId = m.messageId ∧ e.work.progress = .scheduled x.state.now := by
  cases x.step_spec with
  | begun _ _ _ answered next =>
    obtain ⟨book, _, rfl⟩ := startProcessing_ok answered
    rw [next.kept.agenda] at he
    exact Or.inl he
  | tried record more tried rest tally attempt u phase attempted after =>
    obtain ⟨hcreated, -⟩ := created?_attempted phase attempted
    obtain ⟨book, rfl, _⟩ := attempted.book
    cases after with
    | same_batch _ _ _ _ state =>
      rw [state] at he
      exact Or.inl he
    | settled left next =>
      rw [next.kept.agenda] at he
      rcases mem_settleBatch tally { x.state with records := book } (tried ++ [attempt]) he with
        hold | ⟨m, hm, hwalk⟩
      · exact Or.inl hold
      · right
        refine ⟨m, ?_, hwalk⟩
        rw [settled, phase, left, hcreated]
        rwa [reduceOption_append_attempt] at hm
  | counted _ _ _ _ state => exact Or.inl (by rwa [state] at he)
  | completed _ _ _ answered _ state =>
    obtain ⟨book, _, rfl⟩ := completeCampaign_ok answered
    rw [state] at he
    exact Or.inl he
  | stopped _ _ _ state => exact Or.inl (by rwa [state] at he)
  | failed cause _ _ state =>
    obtain ⟨book, hbook, _⟩ := failCampaign_book x.state x.dispatch.campaign cause.message
    rw [state, hbook] at he
    exact Or.inl he
  | ended _ _ _ state => exact Or.inl (by rwa [state] at he)

/-- Only the records of a batch in flight are settled. -/
theorem phase_of_mem_settled {m : MessageRecord} (hm : m ∈ x.settled) :
    ∃ next tried rest tally, x.dispatch.phase = .creating next [] tried rest tally := by
  rw [settled] at hm
  split at hm
  · rename_i next tried rest tally phase
    exact ⟨next, tried, rest, tally, phase⟩
  · cases hm

end Deed

/-! ## Histories -/

/-- The book has answered that the campaign is being processed. -/
def Deed.Began (deeds : List Deed) : Prop :=
  ∃ total, ⟨.startProcessing total, none⟩ ∈ Deed.exchanges deeds

/-- What the end of a dispatch is told as. -/
def Dispatch.farewell (d : Dispatch) : List Report :=
  match d.phase with
  | .ended (.completed _) => [.milestone d.campaign .campaignCompleted]
  | .ended (.failed _) => [.milestone d.campaign .campaignFailed]
  | _ => []

/-- What a dispatch has told: that the campaign is being processed, then each record of the batches
that it has settled, and its end. -/
structure Speaks (campaign : Uuid) (deeds : List Deed) (settled : List MessageRecord)
    (inFlight : List MessageRecord) (farewell : List Report) : Prop where
  begun : Deed.Began deeds → deeds.flatMap Deed.told =
    .milestone campaign .campaignProcessing :: settled.map MessageRecord.announcement ++ farewell
  unbegun : ¬ Deed.Began deeds → settled = [] ∧ deeds.flatMap Deed.told = farewell
  /-- It tells of the records that it has created, once their batch is settled. -/
  created : (settled ++ inFlight).Perm (deeds.filterMap Deed.created?)

variable {campaign : Uuid} {recipients : List String} {deeds : List Deed} {d : Dispatch} {x : Deed}
  {settled inFlight : List MessageRecord}

theorem Deed.began_concat {e : Exchange} (h : x.exchange? = some e) :
    Deed.Began (deeds ++ [x]) ↔ Deed.Began deeds ∨ ∃ total, e = ⟨.startProcessing total, none⟩ := by
  simp only [Deed.Began, Deed.exchanges_concat deeds h, List.mem_append, List.mem_singleton,
    exists_or]
  constructor
  · rintro (hold | ⟨total, rfl⟩)
    · exact Or.inl hold
    · exact Or.inr ⟨total, rfl⟩
  · rintro (hold | ⟨total, rfl⟩)
    · exact Or.inl hold
    · exact Or.inr ⟨total, rfl⟩

theorem Deed.filterMap_created_concat (deeds : List Deed) (x : Deed) :
    (deeds ++ [x]).filterMap created? = deeds.filterMap created? ++ x.created?.toList := by
  rw [List.filterMap_append]
  cases hc : x.created? <;> simp [hc]

theorem Speaks.concat (h : Speaks campaign deeds settled x.dispatch.created []) {e : Exchange}
    (hx : x.exchange? = some e) (later : ∀ total, e ≠ ⟨.startProcessing total, none⟩)
    (began : x.settled ≠ [] → Deed.Began deeds) {farewell : List Report}
    (told : x.told = x.settled.map MessageRecord.announcement ++ farewell) :
    Speaks campaign (deeds ++ [x]) (settled ++ x.settled) x.next.created farewell := by
  have hbegan : Deed.Began (deeds ++ [x]) ↔ Deed.Began deeds := by
    rw [Deed.began_concat hx]
    exact or_iff_left fun ⟨total, he⟩ => later total he
  constructor
  · intro hyes
    rw [List.flatMap_append, h.begun (hbegan.mp hyes), List.flatMap_singleton, told]
    simp only [List.map_append, List.append_nil, List.cons_append, List.append_assoc]
  · intro hno
    have hsettled : x.settled = [] := by
      by_contra hne
      exact hno (hbegan.mpr (began hne))
    obtain ⟨hnone, htold⟩ := h.unbegun fun hyes => hno (hbegan.mpr hyes)
    rw [hnone, hsettled, List.flatMap_append, htold, List.flatMap_singleton, told, hsettled]
    exact ⟨rfl, rfl⟩
  · rw [Deed.filterMap_created_concat, List.append_assoc, x.settled_append, ← List.append_assoc]
    exact h.created.append_right _

/-- Nothing has been done by a dispatch that is about to begin. -/
theorem Reached.deeds_of_starting {now : Instant} {turn : Nat}
    (h : Reached (.start campaign recipients now turn) deeds d) {left : List String}
    (phase : d.phase = .starting left) : deeds = [] := by
  have hpast := h.past.2.2
  rw [phase] at hpast
  have hlength := h.length_exchanges
  rw [hpast.1] at hlength
  exact List.length_eq_zero_iff.mp hlength.symm

/-- A batch belongs to a campaign that is being processed. -/
theorem Reached.began_of_creating {now : Instant} {turn : Nat}
    (h : Reached (.start campaign recipients now turn) deeds d) {next : MessageRecord}
    {more : List MessageRecord} {tried : List (Option MessageRecord)} {rest : List String}
    {tally : Tally} (phase : d.phase = .creating next more tried rest tally) :
    Deed.Began deeds := by
  have hpast := h.past.2.2
  rw [phase] at hpast
  obtain ⟨_, hexchanges, _⟩ := hpast.1.shape
  exact ⟨recipients.length, by rw [hexchanges]; exact List.mem_cons_self⟩

theorem DeliveryState.NextBatch.farewell {s t : DeliveryState} {d' : Dispatch} {tally : Tally}
    {rest : List String} (h : NextBatch s d tally rest d' t) : d'.farewell = [] := by
  cases h with
  | none_left _ dispatch _ => rw [dispatch]; rfl
  | cancelled _ dispatch _ => rw [dispatch]; rfl
  | drafts _ _ _ _ _ _ _ _ dispatch _ => rw [dispatch]; rfl

theorem Dispatch.farewell_of_running (h : d.isEnded = false) : d.farewell = [] := by
  rw [farewell]
  split
  · rename_i phase
    simp [isEnded, phase] at h
  · rename_i phase
    simp [isEnded, phase] at h
  · rfl

/-- A dispatch ends once. -/
theorem Dispatch.farewell_of_mem (d : Dispatch) {y : Report} (hy : y ∈ d.farewell) :
    d.farewell = [y] := by
  rw [farewell] at hy ⊢
  split at hy
  · rw [List.mem_singleton.mp hy]
  · rw [List.mem_singleton.mp hy]
  · cases hy

/-- Nothing is in flight once the end has been told. -/
theorem Dispatch.created_of_farewell (d : Dispatch) {y : Report} (hy : y ∈ d.farewell) :
    d.created = [] := by
  cases hp : d.phase with
  | ended how => simp [created, hp]
  | _ => simp [farewell, hp] at hy

@[simp] theorem Dispatch.farewell_rearrange (d : Dispatch) (untried : List MessageRecord)
    (tried : List (Option MessageRecord)) : (d.rearrange untried tried).farewell = d.farewell := by
  rcases d.rearrange_cases untried tried with he | ⟨_, _, _, _, _, _, _, hp, _, _, he⟩
  · rw [he]
  · rw [he, farewell, farewell, hp]

/-- What a step of a running dispatch tells: that it has begun, or what it settles and what it ends
with. -/
inductive Deed.Speech (x : Deed) : Prop
  | begun (left : List String) (phase : x.dispatch.phase = .starting left) (total : Nat)
      (exchange : x.exchange? = some ⟨.startProcessing total, none⟩)
      (told : x.told = [.milestone x.dispatch.campaign .campaignProcessing])
      (created : x.next.created = []) (farewell : x.next.farewell = [])
  | later (e : Exchange) (exchange : x.exchange? = some e)
      (later : ∀ total, e ≠ ⟨.startProcessing total, none⟩)
      (told : x.told = x.settled.map MessageRecord.announcement ++ x.next.farewell)

theorem Deed.speech (running : x.dispatch.isEnded = false) : x.Speech := by
  cases x.step_spec with
  | begun left u phase answered next =>
    have hx := exchange?_started phase answered
    refine .begun left phase _ hx ?_ next.created next.farewell
    rw [told, hx, settled, phase]
    rfl
  | tried record more tried rest tally attempt u phase attempted after =>
    obtain ⟨fault, hx, _⟩ := exchange?_attempted (x := x) phase attempted
    obtain ⟨-, hmilestone⟩ := created?_attempted phase attempted
    have hfarewell : x.next.farewell = [] := by
      cases after with
      | same_batch _ _ _ dispatch _ => rw [dispatch]; rfl
      | settled _ next => exact next.farewell
    refine .later _ hx nofun ?_
    rw [told, hmilestone, hfarewell, List.append_nil]
    rfl
  | counted tally phase answered dispatch _ =>
    have hx := exchange?_counted phase answered
    refine .later _ hx nofun ?_
    rw [told, hx, dispatch, settled, phase]
    rfl
  | completed stats u phase answered dispatch _ =>
    have hx := exchange?_completed phase answered
    refine .later _ hx nofun ?_
    rw [told, hx, dispatch, settled, phase]
    rfl
  | stopped cause failed dispatch _ =>
    obtain ⟨call, _, hx⟩ := exchange?_stopped failed
    obtain ⟨-, hmilestone, -, hsettled⟩ := milestone?_stopped failed
    refine .later _ hx nofun ?_
    rw [told, hmilestone, dispatch, hsettled]
    rfl
  | failed cause phase dispatch _ =>
    obtain ⟨fault, hx⟩ := exchange?_marked (x := x) phase
    refine .later _ hx nofun ?_
    rw [told, hx, dispatch, settled, phase]
    cases fault <;> rfl
  | ended how phase _ _ => simp [Dispatch.isEnded, phase] at running

theorem speaks_step {now : Instant} {turn : Nat}
    (reached : Reached (.start campaign recipients now turn) deeds x.dispatch)
    (running : x.dispatch.isEnded = false)
    (h : Speaks campaign deeds settled x.dispatch.created []) :
    ∃ settled', Speaks campaign (deeds ++ [x]) settled' x.next.created x.next.farewell := by
  have hsame : x.dispatch.campaign = campaign := reached.past.1
  cases x.speech running with
  | begun left phase total exchange told created farewell =>
    have hnone := reached.deeds_of_starting phase
    subst hnone
    refine ⟨[], ?_, ?_, ?_⟩
    · intro _
      rw [farewell, List.nil_append, List.flatMap_singleton, told, hsame]
      rfl
    · intro hno
      exact absurd ((Deed.began_concat exchange).mpr (Or.inr ⟨_, rfl⟩)) hno
    · rw [created]
      simp [Deed.created?, exchange, Exchange.created?]
  | later e exchange later told =>
    refine ⟨_, h.concat exchange later ?_ told⟩
    intro hne
    obtain ⟨m, hm⟩ := List.exists_mem_of_ne_nil _ hne
    obtain ⟨_, _, _, _, phase⟩ := Deed.phase_of_mem_settled hm
    exact reached.began_of_creating phase

/-- What a dispatch has told of itself and of the records that it has created. -/
theorem Reached.speaks {now : Instant} {turn : Nat}
    (h : Reached (.start campaign recipients now turn) deeds d) :
    ∃ settled, Speaks campaign deeds settled d.created d.farewell := by
  induction h with
  | start =>
    refine ⟨[], ?_, fun _ => ⟨rfl, rfl⟩, List.Perm.refl _⟩
    rintro ⟨_, hmem⟩
    cases hmem
  | @step deeds before reached running s ih =>
    obtain ⟨settled, hspeaks⟩ := ih
    rw [before.farewell_of_running running] at hspeaks
    exact speaks_step (x := ⟨s, before⟩) reached running hspeaks
  | @rearrange deeds before reached untried tried ih =>
    obtain ⟨settled, hspeaks⟩ := ih
    have hperm := before.created_rearrange_perm untried tried
    rw [Dispatch.farewell_rearrange]
    exact ⟨settled, hspeaks.begun, hspeaks.unbegun,
      (hperm.append_left settled).trans hspeaks.created⟩

/-! ## Milestones -/

/-- The event tells how a dispatch has ended. -/
def EventKind.isEnd : EventKind → Bool
  | .campaignCompleted | .campaignFailed => true
  | _ => false

/-- What a dispatch has told of its campaign as a whole. -/
structure Milestones (told : List Report) (deeds : List Deed) (farewell : List Report) : Prop where
  begun : Deed.Began deeds → told.countP (fun x => x.type = .campaignProcessing) = 1
  unbegun : ¬ Deed.Began deeds → told.countP (fun x => x.type = .campaignProcessing) = 0
  ended : told.filter (fun x => x.type.isEnd) = farewell
  once : farewell.length ≤ 1

/-- Announcements are no milestones. -/
theorem MessageRecord.type_announcement (m : MessageRecord) :
    m.announcement.type ≠ .campaignProcessing ∧ m.announcement.type.isEnd = false := by
  simp only [announcement, report, announced]
  split
  · exact ⟨by rintro ⟨⟩, rfl⟩
  · exact ⟨by rintro ⟨⟩, rfl⟩

theorem Dispatch.milestones_farewell (d : Dispatch) :
    d.farewell.countP (fun x => x.type = .campaignProcessing) = 0 ∧
      d.farewell.filter (fun x => x.type.isEnd) = d.farewell ∧ d.farewell.length ≤ 1 := by
  rw [farewell]
  split <;> simp [Report.milestone, EventKind.isEnd]

theorem Speaks.milestones (h : Speaks campaign deeds settled inFlight d.farewell) :
    Milestones (deeds.flatMap Deed.told) deeds d.farewell := by
  obtain ⟨hfarewell, hended, honce⟩ := d.milestones_farewell
  have hprocessing : (settled.map MessageRecord.announcement).countP
      (fun x => x.type = .campaignProcessing) = 0 := by
    rw [List.countP_eq_zero]
    intro y hy
    obtain ⟨m, -, rfl⟩ := List.mem_map.mp hy
    simpa using m.type_announcement.1
  have hend : (settled.map MessageRecord.announcement).filter (fun x => x.type.isEnd) = [] := by
    rw [List.filter_eq_nil_iff]
    intro y hy
    obtain ⟨m, -, rfl⟩ := List.mem_map.mp hy
    simp [m.type_announcement.2]
  constructor
  · intro began
    rw [h.begun began, List.countP_append, List.countP_cons, hprocessing, hfarewell]
    rfl
  · intro unbegun
    rw [(h.unbegun unbegun).2, hfarewell]
  · by_cases began : Deed.Began deeds
    · rw [h.begun began, List.filter_append, List.filter_cons, hend, hended]
      rfl
    · rw [(h.unbegun began).2, hended]
  · exact honce

end Outreach
