import Outreach.Proofs.Delivery.Renaming
import Outreach.Proofs.Delivery.Workload

/-!
# Batches without waiting

Where the creation of records takes no time, nothing comes between the steps of a dispatch, and it
can be followed from its start to its end. A batch draws for its customers, tries their records and
settles what became of them. Several batches in a row do the same as one batch with all of their
customers, but for the identifiers. So what a dispatch has done to its recipients is told by a
single batch, whatever the size of batches is.
-/

namespace Outreach

/-! ## All steps of a dispatch -/

namespace DeliveryState

variable {s t u : DeliveryState} {d d' : Dispatch}

def runDispatch : Nat → DeliveryState → Dispatch → Dispatch × DeliveryState
  | 0, s, d => (d, s)
  | n + 1, s, d => runDispatch n (s.stepDispatch d).2 (s.stepDispatch d).1

/-- Lets a dispatch take all of its steps at once. -/
def finishDispatch (s : DeliveryState) (d : Dispatch) : Dispatch × DeliveryState :=
  runDispatch d.stepsLeft s d

/-- A step leaves less of a dispatch that has not ended. -/
theorem DispatchStep.dispatch_lt (h : DispatchStep s d d' t) (running : d.isEnded = false) :
    d'.stepsLeft < d.stepsLeft := by
  cases h with
  | begun recipients _ phase _ next =>
    have hless := next.stepsLeft_le
    simp only [Dispatch.stepsLeft, phase] at *
    omega
  | tried _ _ _ _ _ _ _ phase _ after =>
    cases after with
    | same_batch _ _ left dispatch _ =>
      simp only [dispatch, Dispatch.stepsLeft, phase, left, List.length_cons, List.length_append,
        List.length_nil]
      omega
    | settled left next =>
      have hless := next.stepsLeft_le
      simp only [Dispatch.stepsLeft, phase] at *
      omega
  | counted _ phase _ dispatch _ => simp [dispatch, Dispatch.stepsLeft, phase]
  | completed _ _ phase _ dispatch _ => simp [dispatch, Dispatch.stepsLeft, phase]
  | stopped _ failed dispatch _ =>
    rcases failed with ⟨_, phase, _⟩ | ⟨_, phase, _⟩ | ⟨_, phase, _⟩
    · simp only [dispatch, Dispatch.stepsLeft, phase]
      omega
    · simp [dispatch, Dispatch.stepsLeft, phase]
    · simp [dispatch, Dispatch.stepsLeft, phase]
  | failed _ phase dispatch _ => simp [dispatch, Dispatch.stepsLeft, phase]
  | ended _ phase _ _ => simp [Dispatch.isEnded, phase] at running

theorem stepDispatch_ended (ended : d.isEnded = true) : s.stepDispatch d = (d, s) := by
  cases hp : d.phase with
  | ended how => simp only [stepDispatch, hp]
  | _ => simp [Dispatch.isEnded, hp] at ended

theorem runDispatch_ended (ended : d.isEnded = true) (n : Nat) :
    runDispatch n s d = (d, s) := by
  induction n with
  | zero => rfl
  | succ n ih => rw [runDispatch, stepDispatch_ended ended, ih]

/-- Steps beyond the last one make no difference. -/
theorem runDispatch_enough {m n : Nat} (hm : d.stepsLeft ≤ m) (hn : d.stepsLeft ≤ n) :
    runDispatch m s d = runDispatch n s d := by
  induction m generalizing n d s with
  | zero =>
    cases hended : d.isEnded with
    | true => rw [runDispatch_ended hended, runDispatch_ended hended]
    | false =>
      have hpos := Dispatch.stepsLeft_pos hended
      omega
  | succ m ih =>
    cases hended : d.isEnded with
    | true => rw [runDispatch_ended hended, runDispatch_ended hended]
    | false =>
      have hpos := Dispatch.stepsLeft_pos hended
      have hless := (s.stepDispatch_spec d).dispatch_lt hended
      obtain ⟨k, rfl⟩ : ∃ k, n = k + 1 := ⟨n - 1, by omega⟩
      have hm' : (s.stepDispatch d).1.stepsLeft ≤ m := by omega
      have hn' : (s.stepDispatch d).1.stepsLeft ≤ k := by omega
      exact ih hm' hn'

theorem finishDispatch_step (s : DeliveryState) (d : Dispatch) :
    s.finishDispatch d = (s.stepDispatch d).2.finishDispatch (s.stepDispatch d).1 := by
  cases hended : d.isEnded with
  | true => rw [stepDispatch_ended hended]
  | false =>
    have hless := (s.stepDispatch_spec d).dispatch_lt hended
    obtain ⟨k, hk⟩ : ∃ k, d.stepsLeft = k + 1 := ⟨d.stepsLeft - 1, by omega⟩
    have hall : (s.stepDispatch d).1.stepsLeft ≤ k := by omega
    rw [finishDispatch, hk]
    exact runDispatch_enough hall (Nat.le_refl _)

/-! ## The parts of a batch -/

end DeliveryState

namespace RecordBook

/-- The answer of the book to a record, in the light of the outages. -/
def accept (outages : Outages) (s : RecordBook) (r : MessageRecord) : Answer RecordBook := do
  outages.check .addRecord
  outages.check (.addRecordFor r.customerId)
  s.create r

/-- Tries to create a record and tells whether it has been created. -/
def attempt (outages : Outages) (s : RecordBook) (r : MessageRecord) :
    Option MessageRecord × RecordBook :=
  match s.accept outages r with
  | .ok t => (some r, t)
  | .error _ => (none, s)

/-- Tries to create some records in a row. -/
def tryAll (outages : Outages) (s : RecordBook) :
    List MessageRecord → List (Option MessageRecord) × RecordBook
  | [] => ([], s)
  | r :: rest =>
    let (attempt, s) := s.attempt outages r
    let (tried, s) := s.tryAll outages rest
    (attempt :: tried, s)

theorem tryAll_cons (outages : Outages) (s : RecordBook) (r : MessageRecord)
    (rest : List MessageRecord) :
    s.tryAll outages (r :: rest) =
      ((s.attempt outages r).1 :: ((s.attempt outages r).2.tryAll outages rest).1,
        ((s.attempt outages r).2.tryAll outages rest).2) := rfl

theorem tryAll_append (outages : Outages) (s : RecordBook) (first later : List MessageRecord) :
    s.tryAll outages (first ++ later) =
      ((s.tryAll outages first).1 ++ ((s.tryAll outages first).2.tryAll outages later).1,
        ((s.tryAll outages first).2.tryAll outages later).2) := by
  induction first generalizing s with
  | nil => rfl
  | cons r rest ih =>
    rw [List.cons_append, tryAll_cons, tryAll_cons, ih, List.cons_append]

end RecordBook

namespace DeliveryState

variable {s t u : DeliveryState} {d d' : Dispatch}

theorem addRecord_eq (s : DeliveryState) (r : MessageRecord) :
    s.addRecord r = (s.records.accept s.outages r).map fun records => { s with records } := by
  rw [addRecord, RecordBook.accept]
  cases s.outages.check .addRecord with
  | error e => rfl
  | ok _ =>
    cases s.outages.check (.addRecordFor r.customerId) with
    | error e => rfl
    | ok _ =>
      cases s.records.create r with
      | error e => rfl
      | ok book => rfl

/-- Drafting draws from the generator and takes identifiers. -/
theorem draftBatch_frame (s : DeliveryState) (campaign : Uuid) (customers : List String) :
    (s.draftBatch campaign customers).2 =
      { s with
        generator := (s.draftBatch campaign customers).2.generator
        issued := s.issued + customers.length } := by
  induction customers generalizing s with
  | nil => rfl
  | cons customer rest ih =>
    have hrest := ih (s.draftRecord campaign customer).2
    have hstep : (s.draftBatch campaign (customer :: rest)).2 =
        ((s.draftRecord campaign customer).2.draftBatch campaign rest).2 := rfl
    have hissued : s.issued + 1 + rest.length = s.issued + (rest.length + 1) := by omega
    rw [hstep, hrest, List.length_cons, ← hissued]
    rfl

theorem draftBatch_append (s : DeliveryState) (campaign : Uuid) (first later : List String) :
    s.draftBatch campaign (first ++ later) =
      ((s.draftBatch campaign first).1 ++
          ((s.draftBatch campaign first).2.draftBatch campaign later).1,
        ((s.draftBatch campaign first).2.draftBatch campaign later).2) := by
  induction first generalizing s with
  | nil => rfl
  | cons customer rest ih =>
    have hstep : ∀ customers, s.draftBatch campaign (customer :: customers) =
        ((s.draftRecord campaign customer).1 ::
            ((s.draftRecord campaign customer).2.draftBatch campaign customers).1,
          ((s.draftRecord campaign customer).2.draftBatch campaign customers).2) := fun _ => rfl
    rw [List.cons_append, hstep, hstep, ih]
    rfl

/-- What is drafted depends on the clock, the settings and the generator, but for the
identifiers. -/
theorem draftBatch_same (campaign : Uuid) (customers : List String) (now : t.now = s.now)
    (settings : t.settings.sendSuccessRate = s.settings.sendSuccessRate)
    (generator : t.generator = s.generator) :
    (t.draftBatch campaign customers).1.map MessageRecord.anonymous =
        (s.draftBatch campaign customers).1.map MessageRecord.anonymous ∧
      (t.draftBatch campaign customers).2.generator =
        (s.draftBatch campaign customers).2.generator := by
  induction customers generalizing s t with
  | nil => exact ⟨rfl, generator⟩
  | cons customer rest ih =>
    have hchance : t.generator.chance t.settings.sendSuccessRate =
        s.generator.chance s.settings.sendSuccessRate := by rw [generator, settings]
    have hfirst : (t.draftRecord campaign customer).1.anonymous =
        (s.draftRecord campaign customer).1.anonymous := by
      simp only [draftRecord, chance, MessageRecord.anonymous, takeId, now]
      rw [hchance]
      rfl
    have hgenerator : (t.draftRecord campaign customer).2.generator =
        (s.draftRecord campaign customer).2.generator := congrArg Prod.snd hchance
    obtain ⟨hdrafts, hlast⟩ := ih (s := (s.draftRecord campaign customer).2)
      (t := (t.draftRecord campaign customer).2) now settings hgenerator
    refine ⟨?_, hlast⟩
    simp only [draftBatch, List.map_cons, hfirst]
    rw [hdrafts]

/-- Settling schedules walks, tells events and takes an identifier for each record created. -/
theorem settleBatch_frame (tally : Tally) (s : DeliveryState)
    (tried : List (Option MessageRecord)) :
    (settleBatch tally s tried).2 =
      { s with
        agenda := (settleBatch tally s tried).2.agenda
        recorder := (settleBatch tally s tried).2.recorder
        issued := s.issued + tried.reduceOption.length
        turns := (settleBatch tally s tried).2.turns } := by
  induction tried generalizing tally s with
  | nil => rfl
  | cons attempt rest ih =>
    rw [settleBatch_cons, ih]
    cases attempt with
    | none => rfl
    | some r =>
      have hissued : s.issued + 1 + rest.reduceOption.length =
          s.issued + (some r :: rest).reduceOption.length := by
        rw [List.reduceOption_cons_of_some, List.length_cons]
        omega
      by_cases h : r.status = .queued
      · rw [settleAttempt_sent tally s h, ← hissued]
        rfl
      · rw [settleAttempt_unsent tally s h, ← hissued]
        rfl

theorem settleBatch_append (tally : Tally) (s : DeliveryState)
    (first later : List (Option MessageRecord)) :
    settleBatch tally s (first ++ later) =
      settleBatch (settleBatch tally s first).1 (settleBatch tally s first).2 later :=
  List.foldl_append

variable {σ : Equiv.Perm Uuid}

theorem WorksAlike.settleAttempt (h : WorksAlike σ s t) (tally : Tally)
    (attempt : Option MessageRecord) :
    (DeliveryState.settleAttempt tally t (attempt.map (·.renamed σ))).1 =
        (DeliveryState.settleAttempt tally s attempt).1 ∧
      WorksAlike σ (DeliveryState.settleAttempt tally s attempt).2
        (DeliveryState.settleAttempt tally t (attempt.map (·.renamed σ))).2 := by
  cases attempt with
  | none => exact ⟨rfl, h⟩
  | some r =>
    rw [Option.map_some]
    by_cases hr : r.status = .queued
    · have hr' : (r.renamed σ).status = .queued := hr
      rw [settleAttempt_sent tally s hr, settleAttempt_sent tally t hr']
      exact ⟨rfl, (h.scheduleWalk r).emit .messageQueued r.campaignId (some r.customerId)
        (some r.messageId)⟩
    · have hr' : (r.renamed σ).status ≠ .queued := hr
      rw [settleAttempt_unsent tally s hr, settleAttempt_unsent tally t hr']
      exact ⟨rfl, h.emit .messageFailed r.campaignId (some r.customerId) (some r.messageId)⟩

theorem WorksAlike.settleBatch (h : WorksAlike σ s t) (tally : Tally)
    (tried : List (Option MessageRecord)) :
    (DeliveryState.settleBatch tally t (tried.map (Option.map (·.renamed σ)))).1 =
        (DeliveryState.settleBatch tally s tried).1 ∧
      WorksAlike σ (DeliveryState.settleBatch tally s tried).2
        (DeliveryState.settleBatch tally t (tried.map (Option.map (·.renamed σ)))).2 := by
  induction tried generalizing tally s t with
  | nil => exact ⟨rfl, h⟩
  | cons attempt rest ih =>
    obtain ⟨htally, hfirst⟩ := h.settleAttempt tally attempt
    rw [List.map_cons, settleBatch_cons, settleBatch_cons, htally]
    exact ih hfirst _

/-! ## One batch -/

/-- A dispatch goes on with the next batch from any phase. -/
theorem nextBatch_phase (s : DeliveryState) (d : Dispatch) (phase : DispatchPhase) (tally : Tally)
    (rest : List String) : s.nextBatch { d with phase } tally rest = s.nextBatch d tally rest := by
  cases rest with
  | nil => rfl
  | cons customer others => simp only [nextBatch]

theorem afterAttempt_phase (s : DeliveryState) (d : Dispatch) (phase : DispatchPhase)
    (tried : List (Option MessageRecord)) (rest : List String) (tally : Tally)
    (more : List MessageRecord) :
    s.afterAttempt { d with phase } tried rest tally more =
      s.afterAttempt d tried rest tally more := by
  cases more with
  | nil => exact nextBatch_phase _ d phase _ rest
  | cons next later => rfl

theorem stepDispatch_creating (s : DeliveryState) (d : Dispatch) (next : MessageRecord)
    (more : List MessageRecord) (tried : List (Option MessageRecord)) (rest : List String)
    (tally : Tally) :
    s.stepDispatch { d with phase := .creating next more tried rest tally } =
      { s with records := (s.records.attempt s.outages next).2 }.afterAttempt d
        (tried ++ [(s.records.attempt s.outages next).1]) rest tally more := by
  rw [RecordBook.attempt]
  simp only [stepDispatch, addRecord_eq]
  cases s.records.accept s.outages next with
  | ok book => exact afterAttempt_phase _ d _ _ rest tally more
  | error e => exact afterAttempt_phase s d _ _ rest tally more

/-- Tries the drafts that are left of a batch and settles the batch with what was tried before. -/
def tryBatch (s : DeliveryState) (tally : Tally) (tried : List (Option MessageRecord))
    (drafts : List MessageRecord) : Tally × DeliveryState :=
  settleBatch tally { s with records := (s.records.tryAll s.outages drafts).2 }
    (tried ++ (s.records.tryAll s.outages drafts).1)

theorem tryBatch_cons (s : DeliveryState) (tally : Tally) (tried : List (Option MessageRecord))
    (r : MessageRecord) (drafts : List MessageRecord) :
    s.tryBatch tally tried (r :: drafts) =
      { s with records := (s.records.attempt s.outages r).2 }.tryBatch tally
        (tried ++ [(s.records.attempt s.outages r).1]) drafts := by
  rw [tryBatch, tryBatch, List.append_assoc]
  rfl

/-- Once its records have been drafted, a batch is tried and settled, and the dispatch goes on. -/
theorem finishDispatch_creating (s : DeliveryState) (d : Dispatch) (next : MessageRecord)
    (more : List MessageRecord) (tried : List (Option MessageRecord)) (rest : List String)
    (tally : Tally) :
    s.finishDispatch { d with phase := .creating next more tried rest tally } =
      let settled := s.tryBatch tally tried (next :: more)
      let following := settled.2.nextBatch d settled.1 rest
      following.2.finishDispatch following.1 := by
  induction more generalizing s next tried with
  | nil =>
    rw [finishDispatch_step, stepDispatch_creating]
    rfl
  | cons second later ih =>
    rw [finishDispatch_step, stepDispatch_creating, tryBatch_cons]
    exact ih _ second _

/-! ## Batches in a row -/

/-- Records have been tried for some customers and what became of them has been settled, in whatever
batches. The records differ from those of a single batch in their identifiers, which are new. -/
structure Served (s : DeliveryState) (campaign : Uuid) (customers : List String) (tally : Tally)
    (drafts : List MessageRecord) (tally' : Tally) (t : DeliveryState) : Prop where
  contents : drafts.map MessageRecord.anonymous =
    (s.draftBatch campaign customers).1.map MessageRecord.anonymous
  distinct : (drafts.map MessageRecord.id).Nodup
  fresh : ∀ r ∈ drafts, ∃ n, r.id = Uuid.fresh n ∧ s.issued ≤ n ∧ n < t.issued
  generator : t.generator = (s.draftBatch campaign customers).2.generator
  records : t.records = (s.records.tryAll s.outages drafts).2
  works : WorksAlike (Equiv.refl Uuid)
    (settleBatch tally s (s.records.tryAll s.outages drafts).1).2 t
  tally : tally' = (settleBatch tally s (s.records.tryAll s.outages drafts).1).1
  issued : t.issued = s.issued + customers.length +
    (s.records.tryAll s.outages drafts).1.reduceOption.length
  settings : t.settings = s.settings
  creationMs : t.creationMs = s.creationMs
  outages : t.outages = s.outages
  campaigns : t.campaigns = s.campaigns

theorem WorksAlike.refl (s : DeliveryState) : WorksAlike (Equiv.refl Uuid) s s :=
  ⟨rfl, rfl, s.agenda.renamed_refl.symm, .refl s.recorder, rfl⟩

/-- Settling a batch works on alike states alike. -/
theorem WorksAlike.settleBatch_refl (h : WorksAlike (Equiv.refl Uuid) s t) (tally : Tally)
    (tried : List (Option MessageRecord)) :
    (DeliveryState.settleBatch tally t tried).1 = (DeliveryState.settleBatch tally s tried).1 ∧
      WorksAlike (Equiv.refl Uuid) (DeliveryState.settleBatch tally s tried).2
        (DeliveryState.settleBatch tally t tried).2 := by
  have hsettled := h.settleBatch tally tried
  have hsame : tried.map (Option.map (·.renamed (Equiv.refl Uuid))) = tried := by
    simp
  rwa [hsame] at hsettled

theorem served_nil (s : DeliveryState) (campaign : Uuid) (tally : Tally) :
    Served s campaign [] tally [] tally s where
  contents := rfl
  distinct := List.nodup_nil
  fresh := fun _ hr => absurd hr List.not_mem_nil
  generator := rfl
  records := rfl
  works := .refl s
  tally := rfl
  issued := rfl
  settings := rfl
  creationMs := rfl
  outages := rfl
  campaigns := rfl

/-- A batch serves its customers. -/
theorem served_batch (s : DeliveryState) (campaign : Uuid) (customers : List String)
    (tally : Tally) {drafts : List MessageRecord} (drawn : s.draftBatch campaign customers =
      (drafts, t)) :
    Served s campaign customers tally drafts (t.tryBatch tally [] drafts).1
      (t.tryBatch tally [] drafts).2 := by
  have hdrafted := s.draftBatch_drafted campaign customers
  have hframe := s.draftBatch_frame campaign customers
  rw [drawn] at hdrafted hframe
  dsimp only at hdrafted hframe
  have hrecords : t.records = s.records := by rw [hframe]
  have houtages : t.outages = s.outages := by rw [hframe]
  let out := s.records.tryAll s.outages drafts
  have htry : t.tryBatch tally [] drafts =
      settleBatch tally { t with records := out.2 } out.1 := by
    rw [tryBatch, hrecords, houtages]
    rfl
  have hstart : WorksAlike (Equiv.refl Uuid) s { t with records := out.2 } := by
    rw [hframe]
    exact ⟨rfl, rfl, s.agenda.renamed_refl.symm, .refl s.recorder, rfl⟩
  obtain ⟨htally, hworks⟩ := hstart.settleBatch_refl tally out.1
  have hsettled := settleBatch_frame tally { t with records := out.2 } out.1
  rw [htry]
  constructor
  · rw [drawn]
  · rw [hdrafted.ids]
    exact (List.nodup_range' (s := s.issued) (n := customers.length)).map
      fun _ _ => Uuid.fresh_injective
  · intro r hr
    have hid : r.id ∈ (List.range' s.issued customers.length).map Uuid.fresh :=
      hdrafted.ids ▸ List.mem_map_of_mem hr
    obtain ⟨n, hn, he⟩ := List.mem_map.mp hid
    obtain ⟨hlow, hhigh⟩ := List.mem_range'_1.mp hn
    refine ⟨n, he.symm, hlow, ?_⟩
    rw [hsettled]
    have hissued := hdrafted.issued
    dsimp only
    omega
  · rw [hsettled, drawn]
  · rw [hsettled]
  · exact hworks
  · exact htally
  · rw [hsettled]
    dsimp only
    rw [hdrafted.issued]
  all_goals
    rw [hsettled, hframe]

/-- Customers that are served one after the other are served in a row. -/
theorem Served.append {campaign : Uuid} {first later : List String}
    {drafts drafts' : List MessageRecord} {tally tally' tally'' : Tally}
    (h : Served s campaign first tally drafts tally' t)
    (k : Served t campaign later tally' drafts' tally'' u) :
    Served s campaign (first ++ later) tally (drafts ++ drafts') tally'' u := by
  let drawn := s.draftBatch campaign first
  let tried := (s.records.tryAll s.outages drafts).1
  have hframe : drawn.2 = { s with
      generator := drawn.2.generator
      issued := s.issued + first.length } := s.draftBatch_frame campaign first
  have hdrawn := s.draftBatch_append campaign first later
  have hsame := draftBatch_same (s := drawn.2) (t := t) campaign later
    (by rw [h.works.now, (kept_settleBatch _ _ _).now, hframe])
    (by rw [h.settings, hframe]) h.generator
  have htry := RecordBook.tryAll_append s.outages s.records drafts drafts'
  have hlater : t.records.tryAll t.outages drafts' =
      (s.records.tryAll s.outages drafts).2.tryAll s.outages drafts' := by
    rw [h.records, h.outages]
  have hsettled := settleBatch_append tally s tried (t.records.tryAll t.outages drafts').1
  obtain ⟨htally, hworks⟩ :=
    h.works.settleBatch_refl tally' (t.records.tryAll t.outages drafts').1
  constructor
  · rw [List.map_append, hdrawn, List.map_append, h.contents, k.contents, hsame.1]
  · rw [List.map_append]
    refine List.nodup_append.mpr ⟨h.distinct, k.distinct, ?_⟩
    intro a ha b hb he
    obtain ⟨r, hr, rfl⟩ := List.mem_map.mp ha
    obtain ⟨q, hq, rfl⟩ := List.mem_map.mp hb
    obtain ⟨m, hm, _, hlt⟩ := h.fresh r hr
    obtain ⟨n, hn, hle, _⟩ := k.fresh q hq
    have hmn := Uuid.fresh_injective (hm.symm.trans (he.trans hn))
    omega
  · intro r hr
    have hfirst := h.issued
    have hlast := k.issued
    rcases List.mem_append.mp hr with hr | hr
    · obtain ⟨n, hn, hle, hlt⟩ := h.fresh r hr
      exact ⟨n, hn, hle, by omega⟩
    · obtain ⟨n, hn, hle, hlt⟩ := k.fresh r hr
      exact ⟨n, hn, by omega, hlt⟩
  · rw [k.generator, hsame.2, hdrawn]
  · rw [k.records, htry, hlater]
  · rw [htry, ← hlater, hsettled, ← h.tally]
    exact hworks.trans k.works
  · rw [htry, ← hlater, hsettled, ← h.tally, k.tally, htally]
  · rw [k.issued, h.issued, htry, hlater, List.reduceOption_append, List.length_append,
      List.length_append]
    omega
  · exact k.settings.trans h.settings
  · exact k.creationMs.trans h.creationMs
  · exact k.outages.trans h.outages
  · exact k.campaigns.trans h.campaigns

/-- Records are created without waiting. -/
structure Prompt (s : DeliveryState) : Prop where
  creationMs : s.creationMs = 0
  still : s.now.addMillis 0 = s.now

/-- With no time to wait, a batch is drafted and the dispatch stays ready. -/
theorem Prompt.nextBatch_cons (h : s.Prompt) (accepts : s.agenda.refuses d.campaign = false)
    (ready : d.ready = s.now) (tally : Tally) (customer : String) (others : List String) :
    ∃ next more t,
      s.draftBatch d.campaign (customer :: others.take (s.settings.batchSize - 1)) =
        (next :: more, t) ∧
      s.nextBatch d tally (customer :: others) =
        ({ d with phase := .creating next more [] (others.drop (s.settings.batchSize - 1)) tally },
          t) := by
  let customers := customer :: others.take (s.settings.batchSize - 1)
  let first := s.draftRecord d.campaign customer
  let batch := first.2.draftBatch d.campaign (others.take (s.settings.batchSize - 1))
  have hdrawn : s.draftBatch d.campaign customers = (first.1 :: batch.1, batch.2) := rfl
  have hframe := s.draftBatch_frame d.campaign customers
  rw [hdrawn] at hframe
  have hms : batch.2.creationMs = 0 := by rw [hframe, h.creationMs]
  have hready : batch.2.now.addMillis 0 = d.ready := by rw [hframe, h.still, ready]
  have hturn : batch.2.takeTurn d.turn 0 = (d.turn, batch.2) := rfl
  refine ⟨first.1, batch.1, batch.2, hdrawn, ?_⟩
  have hnext : s.nextBatch d tally (customer :: others) =
      ({ d with
         phase := .creating first.1 batch.1 [] (others.drop (s.settings.batchSize - 1)) tally
         ready := (batch.2.takeTurn d.turn batch.2.creationMs).2.now.addMillis
           (batch.2.takeTurn d.turn batch.2.creationMs).2.creationMs
         turn := (batch.2.takeTurn d.turn batch.2.creationMs).1 },
        (batch.2.takeTurn d.turn batch.2.creationMs).2) := by
    simp only [nextBatch, accepts]
    rfl
  rw [hnext, hms, hturn, hms, hready]

theorem Prompt.of_same (h : s.Prompt) (now : t.now = s.now)
    (creationMs : t.creationMs = s.creationMs) : t.Prompt :=
  ⟨creationMs.trans h.creationMs, by rw [now, h.still]⟩

/-- The dispatch is ready as soon as the clock is where it is. -/
theorem Prompt.nextBatch (h : s.Prompt) (ready : d.ready = s.now) (tally : Tally)
    (rest : List String) :
    (s.nextBatch d tally rest).2.Prompt ∧
      (s.nextBatch d tally rest).1.ready = (s.nextBatch d tally rest).2.now := by
  cases rest with
  | nil => exact ⟨h, ready⟩
  | cons customer others =>
    cases haccepts : s.agenda.refuses d.campaign with
    | true =>
      have hnext : s.nextBatch d tally (customer :: others) =
          ({ d with phase := .ended .cancelled }, s) := by
        simp only [DeliveryState.nextBatch, haccepts]
        rfl
      rw [hnext]
      exact ⟨h, ready⟩
    | false =>
      obtain ⟨next, more, t, hdrawn, hnext⟩ := h.nextBatch_cons haccepts ready tally customer others
      have hframe := s.draftBatch_frame d.campaign
        (customer :: others.take (s.settings.batchSize - 1))
      rw [hdrawn] at hframe
      dsimp only at hframe
      have hnow : t.now = s.now := by rw [hframe]
      have hms : t.creationMs = s.creationMs := by rw [hframe]
      rw [hnext]
      exact ⟨h.of_same hnow hms, ready.trans hnow.symm⟩

/-- With no time to wait, a dispatch that is ready stays ready. -/
theorem Prompt.stepDispatch (h : s.Prompt) (ready : d.ready = s.now) :
    (s.stepDispatch d).2.Prompt ∧ (s.stepDispatch d).1.ready = (s.stepDispatch d).2.now := by
  cases hp : d.phase with
  | starting recipients =>
    simp only [DeliveryState.stepDispatch, hp]
    cases hcall : s.startProcessing d.campaign d.total with
    | error e => exact ⟨h, ready⟩
    | ok u =>
      obtain ⟨book, _, rfl⟩ := startProcessing_ok hcall
      have hbegun : Prompt ({ s with campaigns := book }.emitCampaign .campaignProcessing
          d.campaign) := ⟨h.creationMs, h.still⟩
      exact hbegun.nextBatch ready .zero recipients
  | creating next more tried rest tally =>
    have hd : d = { d with phase := .creating next more tried rest tally } := by rw [← hp]
    rw [hd, stepDispatch_creating]
    cases more with
    | cons second later => exact ⟨⟨h.creationMs, h.still⟩, ready⟩
    | nil =>
      let u := { s with records := (s.records.attempt s.outages next).2 }
      let settled := settleBatch tally u (tried ++ [(s.records.attempt s.outages next).1])
      have hframe : settled.2 = _ := settleBatch_frame tally u _
      have hnow : settled.2.now = s.now := by rw [hframe]
      have hms : settled.2.creationMs = s.creationMs := by rw [hframe]
      have hsettled : settled.2.Prompt := h.of_same hnow hms
      exact hsettled.nextBatch (ready.trans hnow.symm) settled.1 rest
  | counting tally =>
    simp only [DeliveryState.stepDispatch, hp]
    cases s.findRecords (.campaign d.campaign) with
    | error e => exact ⟨h, ready⟩
    | ok records => exact ⟨h, ready⟩
  | completing stats =>
    simp only [DeliveryState.stepDispatch, hp]
    cases hcall : s.completeCampaign d.campaign stats with
    | error e => exact ⟨h, ready⟩
    | ok u =>
      obtain ⟨book, _, rfl⟩ := completeCampaign_ok hcall
      exact ⟨⟨h.creationMs, h.still⟩, ready⟩
  | aborting cause =>
    obtain ⟨book, hbook, _⟩ := s.failCampaign_book d.campaign cause.message
    simp only [DeliveryState.stepDispatch, hp, hbook]
    exact ⟨⟨h.creationMs, h.still⟩, ready⟩
  | ended how =>
    simp only [DeliveryState.stepDispatch, hp]
    exact ⟨h, ready⟩

/-- A dispatch whose campaign is not cancelled serves all of its customers and goes on to count. -/
theorem Prompt.served (h : s.Prompt) (accepts : s.agenda.refuses d.campaign = false)
    (ready : d.ready = s.now) (tally : Tally) (rest : List String) :
    ∃ drafts tally' t, Served s d.campaign rest tally drafts tally' t ∧
      (s.nextBatch d tally rest).2.finishDispatch (s.nextBatch d tally rest).1 =
        t.finishDispatch { d with phase := .counting tally' } := by
  induction hlength : rest.length using Nat.strong_induction_on generalizing s tally rest with
  | _ length ih =>
    cases rest with
    | nil => exact ⟨[], tally, s, served_nil s d.campaign tally, rfl⟩
    | cons customer others =>
      obtain ⟨next, more, u, hdrawn, hnext⟩ := h.nextBatch_cons accepts ready tally customer others
      let batch := customer :: others.take (s.settings.batchSize - 1)
      let later := others.drop (s.settings.batchSize - 1)
      let settled := u.tryBatch tally [] (next :: more)
      have hbatch : Served s d.campaign batch tally (next :: more) settled.1 settled.2 :=
        served_batch s d.campaign batch tally hdrawn
      have hprompt : settled.2.Prompt := by
        constructor
        · rw [hbatch.creationMs, h.creationMs]
        · rw [hbatch.works.now, (kept_settleBatch _ _ _).now, h.still]
      have haccepts : settled.2.agenda.refuses d.campaign = false := by
        rw [hbatch.works.agenda, Agenda.renamed_refl, refuses_settleBatch, accepts]
      have hready : d.ready = settled.2.now := by
        rw [hbatch.works.now, (kept_settleBatch _ _ _).now, ready]
      have hless : later.length < length := by
        rw [← hlength, List.length_drop, List.length_cons]
        omega
      obtain ⟨drafts, tally', t, hlater, hfinish⟩ :=
        ih later.length hless hprompt haccepts hready settled.1 later rfl
      have hall : batch ++ later = customer :: others := by
        rw [List.cons_append, List.take_append_drop]
      refine ⟨next :: more ++ drafts, tally', t, hall ▸ hbatch.append hlater, ?_⟩
      rw [hnext, finishDispatch_creating, ← hfinish]

end DeliveryState

end Outreach
