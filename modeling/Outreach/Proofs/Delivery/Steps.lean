import Outreach.Proofs.Delivery.Delays
import Outreach.Proofs.Delivery.Frames

/-!
# The steps of a dispatch

A dispatch drafts the records of a batch under identifiers that nobody has used, and tries to create
one of them at each step. What the step of a dispatch can be is listed here once, with all that it
does to the clock, the books and the agenda, so that later proofs need not open the dispatch again.
-/

namespace Outreach

/-- The record is one that a campaign's dispatch drafts. -/
structure MessageRecord.DraftOf (campaign : Uuid) (r : MessageRecord) : Prop where
  origin : r.origin = r
  campaign : r.campaignId = campaign
  /-- The message is named after the instant at which its batch has begun. -/
  name : ∃ begun ≤ r.sentAt, r.messageId = messageName begun r.customerId

/-- The record is one that can be drafted for a campaign in a state. -/
structure MessageRecord.DraftIn (s : DeliveryState) (id : Uuid) (r : MessageRecord) : Prop
    extends DraftOf id r where
  named : r.messageId = messageName s.now r.customerId
  sentAt : r.sentAt = s.now
  coherent : r.Coherent
  accepted : s.agenda.refuses id = false
  sure : s.settings.sendSuccessRate = 1.0 → r.status = .queued

namespace Dispatch

/-- The records of the batch that the dispatch has still to create. -/
def untried (d : Dispatch) : List MessageRecord :=
  match d.phase with
  | .creating next more _ _ _ => next :: more
  | _ => []

/-- The records of the batch that the dispatch has created so far. -/
def created (d : Dispatch) : List MessageRecord :=
  match d.phase with
  | .creating _ _ tried _ _ => tried.reduceOption
  | _ => []

end Dispatch

namespace DeliveryState

variable {s t u : DeliveryState} {d d' : Dispatch}

/-! ## Calls that were answered -/

theorem startProcessing_ok {id : Uuid} {total : Nat} (h : s.startProcessing id total = .ok t) :
    ∃ book, s.campaigns.startProcessing id total s.now = .ok book ∧
      t = { s with campaigns := book } := by
  simp only [startProcessing, Answer.bind_eq_ok] at h
  obtain ⟨_, _, book, hbook, h⟩ := h
  exact ⟨book, hbook, (Answer.pure_eq_ok.mp h).symm⟩

theorem completeCampaign_ok {id : Uuid} {stats : CampaignStats}
    (h : s.completeCampaign id stats = .ok t) :
    ∃ book, s.campaigns.complete id stats s.now = .ok book ∧ t = { s with campaigns := book } := by
  simp only [completeCampaign, Answer.bind_eq_ok] at h
  obtain ⟨_, _, book, hbook, h⟩ := h
  exact ⟨book, hbook, (Answer.pure_eq_ok.mp h).symm⟩

theorem failCampaign_ok {id : Uuid} {reason : String} (h : s.failCampaign id reason = .ok t) :
    ∃ book, s.campaigns.failCampaign id reason s.now = .ok book ∧
      t = { s with campaigns := book } := by
  simp only [failCampaign, Answer.bind_eq_ok] at h
  obtain ⟨_, _, book, hbook, h⟩ := h
  exact ⟨book, hbook, (Answer.pure_eq_ok.mp h).symm⟩

/-- Marking a campaign as failed touches its book only, whether or not the call succeeds. -/
theorem failCampaign_book (s : DeliveryState) (id : Uuid) (reason : String) :
    ∃ book, (s.failCampaign id reason).toOption.getD s = { s with campaigns := book } ∧
      (book = s.campaigns ∨ s.campaigns.failCampaign id reason s.now = .ok book) := by
  cases h : s.failCampaign id reason with
  | error e => exact ⟨s.campaigns, rfl, Or.inl rfl⟩
  | ok t =>
    obtain ⟨book, hbook, rfl⟩ := failCampaign_ok h
    exact ⟨book, rfl, Or.inr hbook⟩

theorem addRecord_ok {r : MessageRecord} (h : s.addRecord r = .ok t) :
    ∃ book, s.records.create r = .ok book ∧ t = { s with records := book } := by
  simp only [addRecord, Answer.bind_eq_ok] at h
  obtain ⟨_, _, _, _, book, hbook, h⟩ := h
  exact ⟨book, hbook, (Answer.pure_eq_ok.mp h).symm⟩

/-! ## Batches -/

/-- Records have been drafted for some customers of a campaign, each under a fresh identifier. -/
structure Drafted (s : DeliveryState) (campaign : Uuid) (customers : List String)
    (drafts : List MessageRecord) (t : DeliveryState) : Prop where
  quiet : Quiet s t
  ids : drafts.map MessageRecord.id = (List.range' s.issued customers.length).map Uuid.fresh
  issued : t.issued = s.issued + customers.length
  names : drafts.map MessageRecord.customerId = customers
  each : ∀ r ∈ drafts, r.DraftOf campaign
  named : ∀ r ∈ drafts, r.messageId = messageName s.now r.customerId
  sent : ∀ r ∈ drafts, r.sentAt = s.now
  coherent : ∀ r ∈ drafts, r.Coherent
  sure : s.settings.sendSuccessRate = 1.0 → ∀ r ∈ drafts, r.status = .queued
  silent : t.recorder = s.recorder

theorem origin_draftRecord (s : DeliveryState) (campaign : Uuid) (customer : String) :
    (s.draftRecord campaign customer).1.origin = (s.draftRecord campaign customer).1 := by
  by_cases h : (s.chance s.settings.sendSuccessRate).1 = true
  · simp [draftRecord, MessageRecord.origin, h]
  · simp [draftRecord, MessageRecord.origin, h]

theorem coherent_draftRecord (s : DeliveryState) (campaign : Uuid) (customer : String) :
    (s.draftRecord campaign customer).1.Coherent := by
  by_cases h : (s.chance s.settings.sendSuccessRate).1 = true
  · constructor <;> simp [draftRecord, h]
  · constructor <;> simp [draftRecord, h]

/-- A message that is certain to be sent is not drafted as a failure. -/
theorem queued_draftRecord (sure : s.settings.sendSuccessRate = 1.0) (campaign : Uuid)
    (customer : String) : (s.draftRecord campaign customer).1.status = .queued := by
  simp [draftRecord, chance, sure, Generator.chance_one]

theorem drafted_nil (s : DeliveryState) (campaign : Uuid) : Drafted s campaign [] [] s := by
  constructor
  · exact Quiet.refl s
  all_goals simp

theorem drafted_cons {campaign : Uuid} {customer : String} {customers : List String}
    {drafts : List MessageRecord}
    (h : Drafted (s.draftRecord campaign customer).2 campaign customers drafts t) :
    Drafted s campaign (customer :: customers) ((s.draftRecord campaign customer).1 :: drafts)
      t := by
  have hfirst : Quiet s (s.draftRecord campaign customer).2 :=
    ⟨⟨rfl, rfl, rfl, rfl, rfl, rfl, Nat.le_succ _⟩, rfl⟩
  have hissued : (s.draftRecord campaign customer).2.issued = s.issued + 1 := rfl
  constructor
  · exact hfirst.trans h.quiet
  · rw [List.map_cons, h.ids, hissued, List.length_cons, List.range'_succ, List.map_cons]
    rfl
  · rw [h.issued, hissued, List.length_cons]
    omega
  · rw [List.map_cons, h.names]
    rfl
  · intro r hr
    rcases List.mem_cons.mp hr with rfl | hr
    · exact ⟨origin_draftRecord s campaign customer, rfl, s.now, s.now.le_refl, rfl⟩
    · exact h.each r hr
  · intro r hr
    rcases List.mem_cons.mp hr with rfl | hr
    · rfl
    · exact h.named r hr
  · intro r hr
    rcases List.mem_cons.mp hr with rfl | hr
    · rfl
    · exact h.sent r hr
  · intro r hr
    rcases List.mem_cons.mp hr with rfl | hr
    · exact coherent_draftRecord s campaign customer
    · exact h.coherent r hr
  · intro sure r hr
    rcases List.mem_cons.mp hr with rfl | hr
    · exact queued_draftRecord sure campaign customer
    · exact h.sure sure r hr
  · exact h.silent

theorem draftBatch_drafted (s : DeliveryState) (campaign : Uuid) (customers : List String) :
    Drafted s campaign customers (s.draftBatch campaign customers).1
      (s.draftBatch campaign customers).2 := by
  induction customers generalizing s with
  | nil => exact drafted_nil s campaign
  | cons customer rest ih => exact drafted_cons (ih (s.draftRecord campaign customer).2)

/-- The ways in which a dispatch goes on with the recipients that are left. -/
inductive NextBatch (s : DeliveryState) (d : Dispatch) (tally : Tally) (rest : List String)
    (d' : Dispatch) (t : DeliveryState) : Prop
  | none_left (left : rest = []) (dispatch : d' = { d with phase := .counting tally })
      (state : t = s)
  | cancelled (refuses : s.agenda.refuses d.campaign = true)
      (dispatch : d' = { d with phase := .ended .cancelled }) (state : t = s)
  | drafts (batch later : List String) (next : MessageRecord) (more : List MessageRecord)
      (ready : Instant) (turn : Nat) (left : rest = batch ++ later)
      (accepts : s.agenda.refuses d.campaign = false)
      (dispatch : d' = { d with phase := .creating next more [] later tally, ready, turn })
      (drafted : Drafted s d.campaign batch (next :: more) t)
      (wait : ∃ ms, ready = s.now.addMillis ms)

theorem nextBatch_spec (s : DeliveryState) (d : Dispatch) (tally : Tally) (rest : List String) :
    NextBatch s d tally rest (s.nextBatch d tally rest).1 (s.nextBatch d tally rest).2 := by
  cases rest with
  | nil => exact .none_left rfl rfl rfl
  | cons customer others =>
    by_cases h : s.agenda.refuses d.campaign = true
    · have heq : s.nextBatch d tally (customer :: others) =
          ({ d with phase := .ended .cancelled }, s) := by
        simp [nextBatch, h]
      rw [heq]
      exact .cancelled h rfl rfl
    · have hfalse : s.agenda.refuses d.campaign = false := by simpa using h
      let following := s.settings.batchSize - 1
      let first := s.draftRecord d.campaign customer
      let others' := first.2.draftBatch d.campaign (others.take following)
      let waiting := others'.2.takeTurn d.turn others'.2.creationMs
      have heq : s.nextBatch d tally (customer :: others) =
          ({ d with
             phase := .creating first.1 others'.1 [] (others.drop following) tally
             ready := waiting.2.now.addMillis waiting.2.creationMs
             turn := waiting.1 }, waiting.2) := by
        simp only [nextBatch, hfalse]
        rfl
      have hdrafted : Drafted s d.campaign (customer :: others.take following)
          (first.1 :: others'.1) others'.2 :=
        drafted_cons (draftBatch_drafted first.2 d.campaign (others.take following))
      have hquiet := quiet_takeTurn others'.2 d.turn others'.2.creationMs
      have hissued : waiting.2.issued = others'.2.issued := by
        simp only [waiting, takeTurn]
        split <;> rfl
      rw [heq]
      refine .drafts (customer :: others.take following) (others.drop following) first.1 others'.1
        _ _ ?_ hfalse rfl ?_ ⟨waiting.2.creationMs, ?_⟩
      · rw [List.cons_append, List.take_append_drop]
      · exact { hdrafted with
          quiet := hdrafted.quiet.trans hquiet
          issued := hissued.trans hdrafted.issued
          silent := (recorder_takeTurn _ _ _).trans hdrafted.silent }
      · rw [(hdrafted.quiet.trans hquiet).now]

/-! ## Settling a batch -/

/-- The attempt has created the record of a message that can be delivered. -/
def hasSent (attempt : Option MessageRecord) : Bool :=
  attempt.any fun r => decide (r.status = .queued)

theorem settleAttempt_sent {r : MessageRecord} (tally : Tally) (s : DeliveryState)
    (h : r.status = .queued) :
    settleAttempt tally s (some r) = (tally.addSent,
      (s.scheduleWalk r).emitMessage .messageQueued r.campaignId r.customerId r.messageId) := by
  simp [settleAttempt, h]

theorem settleAttempt_unsent {r : MessageRecord} (tally : Tally) (s : DeliveryState)
    (h : r.status ≠ .queued) :
    settleAttempt tally s (some r) = (tally.addFailed,
      s.emitMessage .messageFailed r.campaignId r.customerId r.messageId) := by
  simp [settleAttempt, h]

theorem kept_settleAttempt (tally : Tally) (s : DeliveryState) (attempt : Option MessageRecord) :
    Kept s (settleAttempt tally s attempt).2 := by
  cases attempt with
  | none => exact Kept.refl s
  | some r =>
    by_cases h : r.status = .queued
    · rw [settleAttempt_sent tally s h]
      have hwalk : Kept s (s.scheduleWalk r) := ⟨rfl, rfl, rfl, rfl, rfl, rfl, Nat.le_refl _⟩
      exact hwalk.trans (quiet_emitMessage _ rfl _ _ _).toKept
    · rw [settleAttempt_unsent tally s h]
      exact (quiet_emitMessage s rfl _ _ _).toKept

theorem settleBatch_cons (tally : Tally) (s : DeliveryState) (attempt : Option MessageRecord)
    (tried : List (Option MessageRecord)) :
    settleBatch tally s (attempt :: tried) =
      settleBatch (settleAttempt tally s attempt).1 (settleAttempt tally s attempt).2 tried := rfl

theorem kept_settleBatch (tally : Tally) (s : DeliveryState)
    (tried : List (Option MessageRecord)) : Kept s (settleBatch tally s tried).2 := by
  induction tried generalizing tally s with
  | nil => exact Kept.refl s
  | cons attempt rest ih =>
    rw [settleBatch_cons]
    exact (kept_settleAttempt tally s attempt).trans (ih _ _)

/-- A settled batch counts every attempt once. -/
theorem tally_settleBatch (tally : Tally) (s : DeliveryState)
    (tried : List (Option MessageRecord)) :
    (settleBatch tally s tried).1 = ⟨tally.sent + tried.countP hasSent,
      tally.failed + tried.countP fun attempt => !hasSent attempt⟩ := by
  induction tried generalizing tally s with
  | nil => rfl
  | cons attempt rest ih =>
    have hstep : (settleAttempt tally s attempt).1 =
        if hasSent attempt = true then tally.addSent else tally.addFailed := by
      cases attempt with
      | none => rfl
      | some r =>
        by_cases h : r.status = .queued
        · rw [settleAttempt_sent tally s h]
          simp [hasSent, h]
        · rw [settleAttempt_unsent tally s h]
          simp [hasSent, h]
    rw [settleBatch_cons, ih, hstep]
    by_cases h : hasSent attempt = true
    · simp [h, Tally.addSent]
      omega
    · simp [h, Tally.addFailed]
      omega

/-- Settling a batch changes the agenda only by scheduling walks, which have not begun and may begin
at once, for records that the batch has created. -/
theorem agenda_settleBatch_of_created {P : Agenda Walk → Prop} (tally : Tally)
    (tried : List (Option MessageRecord))
    (scheduled : ∀ a m (walk : Walk), some m ∈ tried → walk.progress = .scheduled s.now →
      P a → P (a.schedule m.id m.campaignId walk).2)
    (h : P s.agenda) : P (settleBatch tally s tried).2.agenda := by
  induction tried generalizing tally s with
  | nil => exact h
  | cons attempt rest ih =>
    rw [settleBatch_cons]
    apply ih
    · intro a m walk hm hsince
      rw [(kept_settleAttempt tally s attempt).now] at hsince
      exact scheduled a m walk (List.mem_cons_of_mem attempt hm) hsince
    · cases attempt with
      | none => exact h
      | some r =>
        by_cases hr : r.status = .queued
        · rw [settleAttempt_sent tally s hr]
          exact scheduled s.agenda r ⟨r.customerId, r.messageId, .scheduled s.now, s.turns⟩
            List.mem_cons_self rfl h
        · rw [settleAttempt_unsent tally s hr]
          exact h

theorem agenda_settleBatch {P : Agenda Walk → Prop}
    (scheduled : ∀ a r c (walk : Walk) since, walk.progress = .scheduled since → P a →
      P (a.schedule r c walk).2)
    (tally : Tally) (tried : List (Option MessageRecord)) (h : P s.agenda) :
    P (settleBatch tally s tried).2.agenda :=
  agenda_settleBatch_of_created tally tried
    (fun a m walk _ hsince ha => scheduled a m.id m.campaignId walk s.now hsince ha) h

theorem refuses_settleBatch (tally : Tally) (s : DeliveryState)
    (tried : List (Option MessageRecord)) (campaign : Uuid) :
    (settleBatch tally s tried).2.agenda.refuses campaign = s.agenda.refuses campaign := by
  have hcancelled := agenda_settleBatch (s := s) (P := fun a => a.cancelled = s.agenda.cancelled)
    (fun a r c walk _ _ ha => (Agenda.cancelled_schedule a r c walk).trans ha) tally tried rfl
  rw [Agenda.refuses, hcancelled, Agenda.refuses]

/-- What became of the attempt to create a record. -/
inductive Attempted (s : DeliveryState) (r : MessageRecord) (attempt : Option MessageRecord)
    (t : DeliveryState) : Prop
  | created (answered : s.addRecord r = .ok t) (kept : attempt = some r)
  | refused (cause : Error) (failed : s.addRecord r = .error cause) (kept : attempt = none)
      (state : t = s)

/-- An attempt concerns the book of records only. -/
theorem Attempted.book {r : MessageRecord} {attempt : Option MessageRecord}
    (h : Attempted s r attempt t) : ∃ book, t = { s with records := book } ∧
      ((attempt = some r ∧ s.records.create r = .ok book) ∨
        (attempt = none ∧ book = s.records)) := by
  cases h with
  | created answered kept =>
    obtain ⟨book, hbook, rfl⟩ := addRecord_ok answered
    exact ⟨book, rfl, Or.inl ⟨kept, hbook⟩⟩
  | refused _ _ kept state => exact ⟨s.records, state, Or.inr ⟨kept, rfl⟩⟩

/-- The ways in which a dispatch goes on after an attempt. -/
inductive AfterAttempt (s : DeliveryState) (d : Dispatch) (tried : List (Option MessageRecord))
    (rest : List String) (tally : Tally) (more : List MessageRecord) (d' : Dispatch)
    (t : DeliveryState) : Prop
  | same_batch (next : MessageRecord) (later : List MessageRecord) (left : more = next :: later)
      (dispatch : d' = { d with phase := .creating next later tried rest tally }) (state : t = s)
  | settled (left : more = []) (next : NextBatch (settleBatch tally s tried).2 d
      (settleBatch tally s tried).1 rest d' t)

theorem afterAttempt_spec (s : DeliveryState) (d : Dispatch) (tried : List (Option MessageRecord))
    (rest : List String) (tally : Tally) (more : List MessageRecord) :
    AfterAttempt s d tried rest tally more (s.afterAttempt d tried rest tally more).1
      (s.afterAttempt d tried rest tally more).2 := by
  cases more with
  | nil => exact .settled rfl (nextBatch_spec _ d _ rest)
  | cons next later => exact .same_batch next later rfl rfl rfl

/-! ## Steps -/

/-- The steps that a dispatch can take, each with the call that it makes. -/
inductive DispatchStep (s : DeliveryState) (d d' : Dispatch) (t : DeliveryState) : Prop
  | begun (recipients : List String) (u : DeliveryState)
      (phase : d.phase = .starting recipients)
      (answered : s.startProcessing d.campaign d.total = .ok u)
      (next : NextBatch (u.emitCampaign .campaignProcessing d.campaign) d .zero recipients d' t)
  | tried (next : MessageRecord) (more : List MessageRecord) (tried : List (Option MessageRecord))
      (rest : List String) (tally : Tally) (attempt : Option MessageRecord) (u : DeliveryState)
      (phase : d.phase = .creating next more tried rest tally)
      (attempted : Attempted s next attempt u)
      (after : AfterAttempt u d (tried ++ [attempt]) rest tally more d' t)
  | counted (tally : Tally) (phase : d.phase = .counting tally)
      (answered : s.findRecords (.campaign d.campaign) =
        .ok (s.records.find (.campaign d.campaign)))
      (dispatch : d' = { d with phase := .completing (.ofCounts d.total tally
        (.ofRecords (s.records.find (.campaign d.campaign)))) })
      (state : t = s)
  | completed (stats : CampaignStats) (u : DeliveryState) (phase : d.phase = .completing stats)
      (answered : s.completeCampaign d.campaign stats = .ok u)
      (dispatch : d' = { d with phase := .ended (.completed stats) })
      (state : t = u.emitCampaign .campaignCompleted d.campaign)
  | stopped (cause : Error)
      (failed : (∃ recipients, d.phase = .starting recipients ∧
          s.startProcessing d.campaign d.total = .error cause) ∨
        (∃ tally, d.phase = .counting tally ∧
          s.findRecords (.campaign d.campaign) = .error cause) ∨
        ∃ stats, d.phase = .completing stats ∧
          s.completeCampaign d.campaign stats = .error cause)
      (dispatch : d' = { d with phase := .aborting cause }) (state : t = s)
  | failed (cause : Error) (phase : d.phase = .aborting cause)
      (dispatch : d' = { d with phase := .ended (.failed cause) })
      (state : t = ((s.failCampaign d.campaign cause.message).toOption.getD s).emitCampaign
        .campaignFailed d.campaign)
  | ended (how : DispatchEnd) (phase : d.phase = .ended how) (dispatch : d' = d) (state : t = s)

theorem stepDispatch_spec (s : DeliveryState) (d : Dispatch) :
    DispatchStep s d (s.stepDispatch d).1 (s.stepDispatch d).2 := by
  cases hp : d.phase with
  | starting recipients =>
    cases hcall : s.startProcessing d.campaign d.total with
    | ok u =>
      have heq : s.stepDispatch d =
          (u.emitCampaign .campaignProcessing d.campaign).nextBatch d .zero recipients := by
        simp only [stepDispatch, hp, hcall]
      rw [heq]
      exact .begun recipients u hp hcall (nextBatch_spec _ d .zero recipients)
    | error cause =>
      have heq : s.stepDispatch d = s.abort d cause := by simp only [stepDispatch, hp, hcall]
      rw [heq]
      exact .stopped cause (Or.inl ⟨recipients, hp, hcall⟩) rfl rfl
  | creating next more tried rest tally =>
    cases hcall : s.addRecord next with
    | ok u =>
      have heq : s.stepDispatch d = u.afterAttempt d (tried ++ [some next]) rest tally more := by
        simp only [stepDispatch, hp, hcall]
      rw [heq]
      exact .tried next more tried rest tally (some next) u hp (.created hcall rfl)
        (afterAttempt_spec u d _ rest tally more)
    | error cause =>
      have heq : s.stepDispatch d = s.afterAttempt d (tried ++ [none]) rest tally more := by
        simp only [stepDispatch, hp, hcall]
      rw [heq]
      exact .tried next more tried rest tally none s hp (.refused cause hcall rfl rfl)
        (afterAttempt_spec s d _ rest tally more)
  | counting tally =>
    cases hcall : s.findRecords (.campaign d.campaign) with
    | ok records =>
      have hrecords := findRecords_ok hcall
      subst hrecords
      have heq : s.stepDispatch d = ({ d with phase := .completing (.ofCounts d.total tally
          (.ofRecords (s.records.find (.campaign d.campaign)))) }, s) := by
        simp only [stepDispatch, hp, hcall]
      rw [heq]
      exact .counted tally hp hcall rfl rfl
    | error cause =>
      have heq : s.stepDispatch d = s.abort d cause := by simp only [stepDispatch, hp, hcall]
      rw [heq]
      exact .stopped cause (Or.inr (Or.inl ⟨tally, hp, hcall⟩)) rfl rfl
  | completing stats =>
    cases hcall : s.completeCampaign d.campaign stats with
    | ok u =>
      have heq : s.stepDispatch d = ({ d with phase := .ended (.completed stats) },
          u.emitCampaign .campaignCompleted d.campaign) := by
        simp only [stepDispatch, hp, hcall]
      rw [heq]
      exact .completed stats u hp hcall rfl rfl
    | error cause =>
      have heq : s.stepDispatch d = s.abort d cause := by simp only [stepDispatch, hp, hcall]
      rw [heq]
      exact .stopped cause (Or.inr (Or.inr ⟨stats, hp, hcall⟩)) rfl rfl
  | aborting cause =>
    have heq : s.stepDispatch d = ({ d with phase := .ended (.failed cause) },
        ((s.failCampaign d.campaign cause.message).toOption.getD s).emitCampaign
          .campaignFailed d.campaign) := by
      simp only [stepDispatch, hp]
    rw [heq]
    exact .failed cause hp rfl rfl
  | ended how =>
    have heq : s.stepDispatch d = (d, s) := by simp only [stepDispatch, hp]
    rw [heq]
    exact .ended how hp rfl rfl

end DeliveryState

end Outreach
