import Outreach.Proofs.Delivery.Deeds

/-!
# The history of a dispatch

A history lists the steps of a dispatch in order, each with the state that it met. Between the steps
anything may have happened to the state, and the batch may have been put in another order. The phase
of the dispatch tells which exchanges it has behind it, and its tally counts them.
-/

namespace Outreach

open DeliveryState Exchange

/-- The beginning and some attempts to create records, all of which the tally counts. -/
structure Batches (total : Nat) (exchanges : List Exchange) (tally : Tally) : Prop where
  shape : ∃ attempts, exchanges = ⟨.startProcessing total, none⟩ :: attempts ∧
    ∀ x ∈ attempts, x.isAttempt
  sent : tally.sent = (created exchanges).countP fun r => decide (r.status ≠ .failed)
  failed : tally.failed =
    (created exchanges).countP (fun r => decide (r.status = .failed)) + refusals exchanges
  length : exchanges.length = tally.attempted + 1

/-- Every recipient has been tried. -/
structure Tried (total : Nat) (exchanges : List Exchange) (tally : Tally) : Prop extends
    Batches total exchanges tally where
  all : tally.attempted = total

/-- The exchanges of a dispatch that a failure has stopped. -/
inductive Stopped (total : Nat) : List Exchange → Error → Prop
  | begin (cause : Error) : Stopped total [⟨.startProcessing total, some cause⟩] cause
  | count (exchanges : List Exchange) (tally : Tally) (tried : Tried total exchanges tally)
      (cause : Error) : Stopped total (exchanges ++ [⟨.findRecords, some cause⟩]) cause
  | complete (exchanges : List Exchange) (tally : Tally) (tried : Tried total exchanges tally)
      (stats : CampaignStats) (cause : Error) :
      Stopped total (exchanges ++ [⟨.findRecords, none⟩, ⟨.completeCampaign stats, some cause⟩])
        cause

/-- The exchanges of a dispatch that has ended. -/
inductive Finished (total : Nat) : List Exchange → DispatchEnd → Prop
  | cancelled (exchanges : List Exchange) (tally : Tally) (batches : Batches total exchanges tally)
      (within : tally.attempted ≤ total) : Finished total exchanges .cancelled
  | completed (exchanges : List Exchange) (tally : Tally) (tried : Tried total exchanges tally)
      (counts : StageCounts) :
      Finished total (exchanges ++ [⟨.findRecords, none⟩,
        ⟨.completeCampaign (.ofCounts total tally counts), none⟩])
        (.completed (.ofCounts total tally counts))
  | failed (exchanges : List Exchange) (cause : Error) (stopped : Stopped total exchanges cause)
      (fault : Option Error) :
      Finished total (exchanges ++ [⟨.failCampaign cause.message, fault⟩]) (.failed cause)

/-- The statistics count the records that were found by one of the steps. -/
def Counted (campaign : Uuid) (total : Nat) (deeds : List Deed) (tally : Tally)
    (stats : CampaignStats) : Prop :=
  ∃ x ∈ deeds, x.exchange? = some ⟨.findRecords, none⟩ ∧
    stats = .ofCounts total tally (.ofRecords (x.state.records.find (.campaign campaign)))

/-- What a dispatch in a phase has behind it. -/
def Past (campaign : Uuid) (total : Nat) (deeds : List Deed) : DispatchPhase → Prop
  | .starting recipients => Deed.exchanges deeds = [] ∧ recipients.length = total
  | .creating next more tried rest tally =>
    let counted : Tally := ⟨tally.sent + tried.countP hasSent,
      tally.failed + tried.countP fun attempt => !hasSent attempt⟩
    Batches total (Deed.exchanges deeds) counted ∧
      counted.attempted + (more.length + 1) + rest.length = total ∧
      ∀ r ∈ next :: more, r.DraftOf campaign
  | .counting tally => Tried total (Deed.exchanges deeds) tally
  | .completing stats => ∃ exchanges tally, Tried total exchanges tally ∧
      Deed.exchanges deeds = exchanges ++ [⟨.findRecords, none⟩] ∧
      Counted campaign total deeds tally stats
  | .aborting cause => Stopped total (Deed.exchanges deeds) cause
  | .ended how => Finished total (Deed.exchanges deeds) how ∧
      ∀ stats, how = .completed stats → ∃ tally, Counted campaign total deeds tally stats

/-- How a dispatch can have come from one form to another by its own steps, with their history. -/
inductive Reached (first : Dispatch) : List Deed → Dispatch → Prop
  | start : Reached first [] first
  | step {deeds : List Deed} {d : Dispatch} (reached : Reached first deeds d)
      (running : d.isEnded = false) (s : DeliveryState) :
      Reached first (deeds ++ [⟨s, d⟩]) (s.stepDispatch d).1
  | rearrange {deeds : List Deed} {d : Dispatch} (reached : Reached first deeds d)
      (untried : List MessageRecord) (tried : List (Option MessageRecord)) :
      Reached first deeds (d.rearrange untried tried)

/-! ## Exchanges of a batch -/

theorem batches_begun (total : Nat) :
    Batches total [⟨.startProcessing total, none⟩] .zero := by
  constructor
  · exact ⟨[], rfl, by simp⟩
  · rfl
  · rfl
  · rfl

theorem created_concat (exchanges : List Exchange) (x : Exchange) :
    created (exchanges ++ [x]) = created exchanges ++ x.created?.toList := by
  cases h : x.created? <;> simp [created, List.filterMap_append, h]

theorem refusals_concat (exchanges : List Exchange) (x : Exchange) :
    refusals (exchanges ++ [x]) = refusals exchanges + if x.refused then 1 else 0 := by
  simp [refusals, List.countP_append]

theorem hasSent_of_origin {r : MessageRecord} (h : r.origin = r) :
    hasSent (some r) = decide (r.status ≠ .failed) := by
  by_cases hf : r.status = .failed
  · simp [hasSent, hf]
  · have hq : r.status = .queued := by
      have hs := congrArg MessageRecord.status h
      simp only [MessageRecord.origin, if_neg hf] at hs
      exact hs.symm
    simp [hasSent, hq]

/-- An attempt is counted as sent or as failed, and in one of the two only. -/
theorem Batches.attempt {total : Nat} {exchanges : List Exchange} {sent failed : Nat}
    (h : Batches total exchanges ⟨sent, failed⟩) {r : MessageRecord} (origin : r.origin = r)
    {fault : Option Error} {attempt : Option MessageRecord}
    (kept : attempt = if fault = none then some r else none) :
    Batches total (exchanges ++ [⟨.addRecord r, fault⟩])
      ⟨sent + [attempt].countP hasSent, failed + [attempt].countP fun a => !hasSent a⟩ := by
  obtain ⟨attempts, hshape, hall⟩ := h.shape
  have hsent := h.sent
  have hfailed := h.failed
  have hlength := h.length
  simp only [Tally.attempted] at hsent hfailed hlength
  have hshape' : ∃ attempts', exchanges ++ [⟨.addRecord r, fault⟩] =
      ⟨.startProcessing total, none⟩ :: attempts' ∧ ∀ x ∈ attempts', x.isAttempt := by
    refine ⟨attempts ++ [⟨.addRecord r, fault⟩], by rw [hshape, List.cons_append], ?_⟩
    intro x hx
    rcases List.mem_append.mp hx with hold | hnew
    · exact hall x hold
    · rw [List.mem_singleton.mp hnew]
      exact ⟨r, rfl⟩
  cases fault with
  | some cause =>
    have hkept : attempt = none := by simpa using kept
    subst hkept
    constructor
    · exact hshape'
    · rw [created_concat]
      simpa [created?, hasSent] using hsent
    · rw [created_concat, refusals_concat]
      simp [created?, refused, hasSent, hfailed]
      omega
    · simp [Tally.attempted, hasSent, hlength]
      omega
  | none =>
    have hkept : attempt = some r := by simpa using kept
    subst hkept
    have hstatus := hasSent_of_origin origin
    by_cases hf : r.status = .failed
    · have hs : hasSent (some r) = false := by simp [hstatus, hf]
      constructor
      · exact hshape'
      · rw [created_concat]
        simpa [created?, hs, hf] using hsent
      · rw [created_concat, refusals_concat]
        simp [created?, refused, hs, hf, hfailed]
        omega
      · simp [Tally.attempted, hs, hlength]
        omega
    · have hs : hasSent (some r) = true := by simp [hstatus, hf]
      constructor
      · exact hshape'
      · rw [created_concat]
        simp [created?, hs, hf, hsent]
      · rw [created_concat, refusals_concat]
        simpa [created?, refused, hs, hf] using hfailed
      · simp [Tally.attempted, hs, hlength]
        omega

/-! ## Steps of a history -/

variable {campaign : Uuid} {total : Nat} {deeds : List Deed} {d d' : Dispatch}

theorem past_nextBatch {s t : DeliveryState} {tally : Tally} {rest : List String}
    (next : NextBatch s d tally rest d' t) (same : d.campaign = campaign)
    (batches : Batches total (Deed.exchanges deeds) tally)
    (left : tally.attempted + rest.length = total) :
    Past campaign total deeds d'.phase := by
  cases next with
  | none_left empty dispatch _ =>
    subst dispatch empty
    exact { batches with all := left }
  | cancelled _ dispatch _ =>
    subst dispatch
    refine ⟨.cancelled _ tally batches (by omega), ?_⟩
    rintro stats ⟨⟩
  | drafts batch later next more ready turn split _ dispatch drafted =>
    subst dispatch
    have hlength : more.length + 1 = batch.length := by
      have hnames := congrArg List.length drafted.names
      simpa using hnames
    refine ⟨by simpa using batches, ?_, ?_⟩
    · rw [split, List.length_append] at left
      simp only [Tally.attempted, List.countP_nil, Nat.add_zero] at left ⊢
      omega
    · intro r hr
      exact same ▸ drafted.each r hr

theorem countP_attempts_append (tried : List (Option MessageRecord))
    (attempt : Option MessageRecord) (p : Option MessageRecord → Bool) :
    (tried ++ [attempt]).countP p = tried.countP p + [attempt].countP p :=
  List.countP_append

/-- An attempt is counted with its exchange, whether the batch goes on or is settled. -/
theorem past_attempted {x : Deed} {record : MessageRecord} {more : List MessageRecord}
    {tried : List (Option MessageRecord)} {rest : List String} {tally : Tally}
    {attempt : Option MessageRecord} {u t : DeliveryState}
    (h : Past campaign total deeds (.creating record more tried rest tally))
    (same : x.dispatch.campaign = campaign)
    (phase : x.dispatch.phase = .creating record more tried rest tally)
    (attempted : Attempted x.state record attempt u)
    (after : AfterAttempt u x.dispatch (tried ++ [attempt]) rest tally more d' t) :
    Past campaign total (deeds ++ [x]) d'.phase := by
  obtain ⟨batches, hleft, hdrafts⟩ := h
  obtain ⟨fault, hx, kept⟩ := Deed.exchange?_attempted phase attempted
  have hbatches := batches.attempt (hdrafts record List.mem_cons_self).origin kept
  rw [← Deed.exchanges_concat deeds hx, Nat.add_assoc, Nat.add_assoc, ← countP_attempts_append,
    ← countP_attempts_append] at hbatches
  have hone : [attempt].countP hasSent + [attempt].countP (fun a => !hasSent a) = 1 := by
    cases ha : hasSent attempt <;> simp [ha]
  simp only [Tally.attempted] at hleft
  cases after with
  | same_batch following later left dispatch _ =>
    rw [dispatch]
    refine ⟨hbatches, ?_, ?_⟩
    · rw [left, List.length_cons] at hleft
      simp only [Tally.attempted, countP_attempts_append]
      omega
    · intro r hr
      apply hdrafts r
      rw [left]
      exact List.mem_cons_of_mem record hr
  | settled left next =>
    refine past_nextBatch next same ?_ ?_
    · rw [tally_settleBatch]
      exact hbatches
    · rw [left, List.length_nil] at hleft
      rw [tally_settleBatch]
      simp only [Tally.attempted, countP_attempts_append]
      omega

theorem past_stopped {x : Deed} {cause : Error} (h : Past campaign total deeds x.dispatch.phase)
    (count : x.dispatch.total = total)
    (failed : (∃ recipients, x.dispatch.phase = .starting recipients ∧
        x.state.startProcessing x.dispatch.campaign x.dispatch.total = .error cause) ∨
      (∃ tally, x.dispatch.phase = .counting tally ∧
        x.state.findRecords (.campaign x.dispatch.campaign) = .error cause) ∨
      ∃ stats, x.dispatch.phase = .completing stats ∧
        x.state.completeCampaign x.dispatch.campaign stats = .error cause) :
    Stopped total (Deed.exchanges (deeds ++ [x])) cause := by
  obtain ⟨call, hcall, hx⟩ := Deed.exchange?_stopped failed
  rw [Deed.exchanges_concat deeds hx]
  rcases failed with ⟨recipients, phase, _⟩ | ⟨tally, phase, _⟩ | ⟨stats, phase, _⟩ <;>
    simp only [Dispatch.call?, phase, Option.some.injEq] at hcall <;> rw [phase] at h
  · rw [h.1, List.nil_append, ← hcall, count]
    exact .begin cause
  · rw [← hcall]
    exact .count _ tally h cause
  · obtain ⟨exchanges, tally, tried, hbefore, _⟩ := h
    rw [hbefore, List.append_assoc, ← hcall]
    exact .complete exchanges tally tried stats cause

/-- Every step of a dispatch adds its exchange to the history as the next phase tells it. -/
theorem past_step {x : Deed} (h : Past campaign total deeds x.dispatch.phase)
    (same : x.dispatch.campaign = campaign) (count : x.dispatch.total = total)
    (running : x.dispatch.isEnded = false) : Past campaign total (deeds ++ [x]) x.next.phase := by
  cases x.step_spec with
  | begun recipients u phase answered next =>
    rw [phase] at h
    obtain ⟨hempty, hlength⟩ := h
    have hexchanges := Deed.exchanges_concat deeds (Deed.exchange?_started phase answered)
    rw [hempty, List.nil_append] at hexchanges
    refine past_nextBatch next same ?_ (by simpa [Tally.zero, Tally.attempted] using hlength)
    rw [hexchanges]
    exact count ▸ batches_begun x.dispatch.total
  | tried record more tried rest tally attempt u phase attempted after =>
    rw [phase] at h
    exact past_attempted h same phase attempted after
  | counted tally phase answered dispatch _ =>
    rw [phase] at h
    have hx := Deed.exchange?_counted phase answered
    rw [dispatch]
    refine ⟨Deed.exchanges deeds, tally, h, Deed.exchanges_concat deeds hx, ?_⟩
    refine ⟨x, List.mem_append_right deeds List.mem_cons_self, hx, ?_⟩
    rw [same, count]
  | completed stats u phase answered dispatch _ =>
    rw [phase] at h
    obtain ⟨exchanges, tally, tried, hbefore, y, hy, hfound, hstats⟩ := h
    have hexchanges := Deed.exchanges_concat deeds (Deed.exchange?_completed phase answered)
    rw [hbefore, List.append_assoc] at hexchanges
    rw [dispatch]
    refine ⟨?_, ?_⟩
    · rw [hexchanges, hstats]
      exact .completed exchanges tally tried _
    · rintro stats' ⟨⟩
      exact ⟨tally, y, List.mem_append_left _ hy, hfound, hstats⟩
  | stopped cause failed dispatch _ =>
    rw [dispatch]
    exact past_stopped h count failed
  | failed cause phase dispatch _ =>
    rw [phase] at h
    obtain ⟨fault, hx⟩ := Deed.exchange?_marked phase
    rw [dispatch]
    refine ⟨?_, ?_⟩
    · rw [Deed.exchanges_concat deeds hx]
      exact .failed _ cause h fault
    · rintro stats ⟨⟩
  | ended how phase _ _ => simp [Dispatch.isEnded, phase] at running

/-! ## Whole histories -/

theorem past_rearrange (h : Past campaign total deeds d.phase) (untried : List MessageRecord)
    (tried : List (Option MessageRecord)) :
    Past campaign total deeds (d.rearrange untried tried).phase := by
  rcases d.rearrange_cases untried tried with
    he | ⟨next, more, done, rest, tally, first, others, hp, hperm, hdone, he⟩
  · rwa [he]
  · rw [hp] at h
    rw [he]
    obtain ⟨batches, hleft, hdrafts⟩ := h
    have hlength : others.length = more.length := Nat.succ.inj hperm.length_eq
    refine ⟨?_, ?_, ?_⟩
    · rw [hdone.countP_eq, hdone.countP_eq]
      exact batches
    · rw [hdone.countP_eq, hdone.countP_eq, hlength]
      exact hleft
    · intro r hr
      exact hdrafts r (hperm.mem_iff.mp hr)

theorem total_nextBatch {s t : DeliveryState} {tally : Tally} {rest : List String}
    (next : NextBatch s d tally rest d' t) : d'.total = d.total := by
  cases next with
  | none_left _ dispatch _ => rw [dispatch]
  | cancelled _ dispatch _ => rw [dispatch]
  | drafts _ _ _ _ _ _ _ _ dispatch _ => rw [dispatch]

theorem total_step {s t : DeliveryState} (step : DispatchStep s d d' t) : d'.total = d.total := by
  cases step with
  | begun _ _ _ _ next => exact total_nextBatch next
  | tried _ _ _ _ _ _ _ _ _ after =>
    cases after with
    | same_batch _ _ _ dispatch _ => rw [dispatch]
    | settled _ next => exact total_nextBatch next
  | counted _ _ _ dispatch _ => rw [dispatch]
  | completed _ _ _ _ dispatch _ => rw [dispatch]
  | stopped _ _ dispatch _ => rw [dispatch]
  | failed _ _ dispatch _ => rw [dispatch]
  | ended _ _ dispatch _ => rw [dispatch]

theorem total_rearrange (d : Dispatch) (untried : List MessageRecord)
    (tried : List (Option MessageRecord)) : (d.rearrange untried tried).total = d.total := by
  rcases d.rearrange_cases untried tried with he | ⟨_, _, _, _, _, _, _, _, _, _, he⟩
  · rw [he]
  · rw [he]

/-- Whatever the states that the steps met, the phase tells the exchanges of a dispatch. -/
theorem Reached.past {recipients : List String} {now : Instant} {turn : Nat}
    (h : Reached (.start campaign recipients now turn) deeds d) :
    d.campaign = campaign ∧ d.total = recipients.length ∧
      Past campaign recipients.length deeds d.phase := by
  induction h with
  | start => exact ⟨rfl, rfl, rfl, rfl⟩
  | @step _ before _ running s ih =>
    obtain ⟨hcampaign, htotal, hpast⟩ := ih
    have hstep := DeliveryState.stepDispatch_spec s before
    exact ⟨hstep.campaign.trans hcampaign, (total_step hstep).trans htotal,
      past_step (x := ⟨s, before⟩) hpast hcampaign htotal running⟩
  | rearrange _ untried tried ih =>
    obtain ⟨hcampaign, htotal, hpast⟩ := ih
    exact ⟨(Dispatch.campaign_rearrange _ _ _).trans hcampaign,
      (total_rearrange _ _ _).trans htotal, past_rearrange hpast untried tried⟩

theorem exists_exchange_of_running {x : Deed} (running : x.dispatch.isEnded = false) :
    ∃ e, x.exchange? = some e := by
  have hcall : ∃ call, x.dispatch.call? = some call := by
    cases hp : x.dispatch.phase with
    | ended how => simp [Dispatch.isEnded, hp] at running
    | _ => simp [Dispatch.call?, hp]
  obtain ⟨call, hcall⟩ := hcall
  simp [Deed.exchange?, hcall]

theorem Reached.exists_exchange {first : Dispatch} (h : Reached first deeds d) {x : Deed}
    (hx : x ∈ deeds) : ∃ e, x.exchange? = some e := by
  induction h with
  | start => cases hx
  | step _ running s ih =>
    rcases List.mem_append.mp hx with hold | hnew
    · exact ih hold
    · rw [List.mem_singleton.mp hnew]
      exact exists_exchange_of_running running
  | rearrange _ _ _ ih => exact ih hx

theorem Reached.length_exchanges {first : Dispatch} (h : Reached first deeds d) :
    (Deed.exchanges deeds).length = deeds.length := by
  induction h with
  | start => rfl
  | @step _ before _ running s ih =>
    obtain ⟨e, he⟩ := exists_exchange_of_running (x := ⟨s, before⟩) running
    rw [Deed.exchanges_concat _ he, List.length_append, List.length_append, ih]
    rfl
  | rearrange _ _ _ ih => exact ih

theorem Stopped.length_le {exchanges : List Exchange} {cause : Error}
    (h : Stopped total exchanges cause) : exchanges.length ≤ total + 3 := by
  cases h with
  | begin => simp
  | count before tally tried =>
    have hlength := tried.length
    have hall := tried.all
    rw [List.length_append, List.length_singleton]
    omega
  | complete before tally tried =>
    have hlength := tried.length
    have hall := tried.all
    rw [List.length_append, List.length_cons, List.length_singleton]
    omega

/-- A dispatch that has not ended has fewer steps behind it than it has recipients and four more. -/
theorem Reached.length_le {recipients : List String} {now : Instant} {turn : Nat}
    (h : Reached (.start campaign recipients now turn) deeds d) (running : d.isEnded = false) :
    deeds.length ≤ recipients.length + 3 := by
  have hpast := h.past.2.2
  rw [← h.length_exchanges]
  cases hp : d.phase with
  | starting rest =>
    rw [hp] at hpast
    simp [hpast.1]
  | creating next more tried rest tally =>
    rw [hp] at hpast
    obtain ⟨batches, hleft, _⟩ := hpast
    have hlength := batches.length
    omega
  | counting tally =>
    rw [hp] at hpast
    have hlength := hpast.length
    have hall := hpast.all
    omega
  | completing stats =>
    rw [hp] at hpast
    obtain ⟨exchanges, tally, tried, hbefore, _⟩ := hpast
    have hlength := tried.length
    have hall := tried.all
    rw [hbefore, List.length_append, List.length_singleton]
    omega
  | aborting cause =>
    rw [hp] at hpast
    exact hpast.length_le
  | ended how => simp [Dispatch.isEnded, hp] at running

end Outreach
