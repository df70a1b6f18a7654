import Outreach.Proofs.Delivery.Batches
import Outreach.Proofs.Delivery.Lockstep
import Outreach.Proofs.Delivery.Order
import Outreach.Proofs.Time.WrittenForm

/-!
# The size of batches

As long as records are created without waiting, a dispatch does the same whatever the size of its
batches is. The same records are drafted in the same order and the same of them are refused, and the
walks, the events and the draws of the generator are the same as well. Only the identifiers differ,
because a batch takes the identifiers of its records before those of its events.
-/

namespace Outreach

variable {σ : Equiv.Perm Uuid}

/-! ## Batches under other identifiers -/

/-- Records that differ in nothing but their identifiers are the same records under others. -/
theorem MessageRecord.eq_renamed_of_anonymous {rs qs : List MessageRecord}
    (contents : qs.map anonymous = rs.map anonymous) (ids : (rs.map id).map σ = qs.map id) :
    qs = rs.map (·.renamed σ) := by
  induction rs generalizing qs with
  | nil =>
    rw [List.map_nil, List.map_eq_nil_iff] at contents
    exact contents
  | cons r rs ih =>
    cases qs with
    | nil => cases contents
    | cons q qs =>
      simp only [List.map_cons, List.cons.injEq] at contents ids
      obtain ⟨hcontent, hcontents⟩ := contents
      obtain ⟨hid, hids⟩ := ids
      have hq : q = { q.anonymous with id := q.id } := rfl
      have hfirst : q = r.renamed σ := by
        rw [hq, hcontent, ← hid]
        rfl
      rw [List.map_cons, ← hfirst, ih hcontents hids]

namespace RecordBook

variable {s t : RecordBook}

theorem ids_attempt (outages : Outages) (s : RecordBook) (r : MessageRecord) :
    (s.attempt outages r).2.ids ⊆ r.id :: s.ids := by
  rw [attempt]
  cases hcall : s.accept outages r with
  | error e => exact List.subset_cons_self _ _
  | ok book =>
    simp only [accept, Answer.bind_eq_ok] at hcall
    obtain ⟨_, _, _, _, hcreate⟩ := hcall
    exact (ids_create hcreate).subset

theorem Alike.attempt (h : s.Alike σ t) (outages : Outages) {r : MessageRecord}
    (fresh : r.id ∉ s.ids) :
    (t.attempt outages (r.renamed σ)).1 = (s.attempt outages r).1.map (·.renamed σ) ∧
      (s.attempt outages r).2.Alike σ (t.attempt outages (r.renamed σ)).2 := by
  have hcall : Answer.Rel (RecordBook.Alike σ) (s.accept outages r)
      (t.accept outages (r.renamed σ)) := by
    rw [accept, accept]
    refine (Answer.Rel.refl (fun _ => rfl) _).bind fun _ _ _ => ?_
    exact (Answer.Rel.refl (fun _ => rfl) _).bind fun _ _ _ => h.create fresh
  rw [RecordBook.attempt, RecordBook.attempt]
  rcases hcall.both with ⟨a, b, ha, hb, related⟩ | ⟨e, ha, hb⟩
  · rw [ha, hb]
    exact ⟨rfl, related⟩
  · rw [ha, hb]
    exact ⟨rfl, h⟩

/-- The same records are refused under other identifiers. -/
theorem Alike.tryAll (h : s.Alike σ t) (outages : Outages) {drafts : List MessageRecord}
    (distinct : (drafts.map MessageRecord.id).Nodup) (fresh : ∀ r ∈ drafts, r.id ∉ s.ids) :
    (t.tryAll outages (drafts.map (·.renamed σ))).1 =
        (s.tryAll outages drafts).1.map (Option.map (·.renamed σ)) ∧
      (s.tryAll outages drafts).2.Alike σ (t.tryAll outages (drafts.map (·.renamed σ))).2 := by
  induction drafts generalizing s t with
  | nil => exact ⟨rfl, h⟩
  | cons r rest ih =>
    obtain ⟨hnot, hdistinct⟩ := List.nodup_cons.mp distinct
    obtain ⟨hfirst, hbook⟩ := h.attempt outages (fresh r List.mem_cons_self)
    have hfresh : ∀ q ∈ rest, q.id ∉ (s.attempt outages r).2.ids := by
      intro q hq hmem
      rcases List.mem_cons.mp (ids_attempt outages s r hmem) with he | hold
      · exact hnot (he ▸ List.mem_map_of_mem hq)
      · exact fresh q (List.mem_cons_of_mem r hq) hold
    obtain ⟨htried, hlast⟩ := ih hbook hdistinct hfresh
    rw [List.map_cons, tryAll_cons, tryAll_cons, hfirst, htried]
    exact ⟨rfl, hlast⟩

end RecordBook

namespace DeliveryState

variable {s t u : DeliveryState} {d : Dispatch}

/-- The state with batches of another size. -/
def resized (s : DeliveryState) (size : Nat) : DeliveryState :=
  { s with settings := { s.settings with batchSize := size } }

/-- The identifiers of records that are met with in the books and on the agenda. -/
def known (s : DeliveryState) : List Uuid :=
  s.records.ids ++ s.records.index.map Prod.snd ++ s.agenda.pending.map PendingEntry.record

/-- Records have identifiers of their own, and none that is known will be issued again. -/
structure Unique (s : DeliveryState) : Prop where
  distinct : s.records.ids.Nodup
  taken : ∀ n, Uuid.fresh n ∈ s.known → n < s.issued

/-- Nothing but the size changes under a permutation that leaves what is known alone. -/
theorem alike_resized (distinct : s.records.ids.Nodup) (fixed : ∀ id ∈ s.known, σ id = id)
    (size : Nat) : Alike σ s (s.resized size) := by
  have hrecords : s.records.Alike σ s.records := by
    refine .of_fixed distinct ?_ ?_
    · intro r hr
      exact fixed r.id (List.mem_append_left _ (List.mem_append_left _ (List.mem_map_of_mem hr)))
    · intro entry hentry
      exact fixed entry.2
        (List.mem_append_left _ (List.mem_append_right _ (List.mem_map_of_mem hentry)))
  have hagenda : s.agenda = s.agenda.renamed σ := by
    refine (Agenda.renamed_of_fixed ?_).symm
    intro e he
    exact fixed e.record (List.mem_append_right _ (List.mem_map_of_mem he))
  exact {
    now := rfl
    nodeId := rfl
    agenda := hagenda
    recorder := .refl s.recorder
    turns := rfl
    settings := rfl
    creationMs := rfl
    outages := rfl
    campaigns := rfl
    records := hrecords
    generator := rfl
    issued := rfl }

/-- The drafts are new. -/
theorem Served.unknown {campaign : Uuid} {customers : List String} {drafts : List MessageRecord}
    {tally after : Tally} (h : Served s campaign customers tally drafts after t)
    (taken : ∀ n, Uuid.fresh n ∈ s.known → n < s.issued) :
    ∀ id ∈ s.known, id ∉ drafts.map MessageRecord.id := by
  intro id hid hmem
  obtain ⟨r, hr, rfl⟩ := List.mem_map.mp hmem
  obtain ⟨n, hn, hle, _⟩ := h.fresh r hr
  have hlt := taken n (hn ▸ hid)
  omega

/-- Customers that are served in batches of different sizes are served alike. -/
theorem Served.alike {campaign : Uuid} {customers : List String} {size : Nat}
    {drafts drafts' : List MessageRecord} {tally first second : Tally}
    (h : Served s campaign customers tally drafts first t)
    (k : Served (s.resized size) campaign customers tally drafts' second u) (unique : s.Unique) :
    second = first ∧ ∃ σ, Alike σ t u := by
  have hsame := draftBatch_same (s := s) (t := s.resized size) campaign customers rfl rfl rfl
  have hcontents : drafts'.map MessageRecord.anonymous = drafts.map MessageRecord.anonymous := by
    rw [k.contents, h.contents, hsame.1]
  have hlength : (drafts.map MessageRecord.id).length = (drafts'.map MessageRecord.id).length := by
    simpa using (congrArg List.length hcontents).symm
  obtain ⟨σ, hids, hfix⟩ := exists_perm_map hlength h.distinct k.distinct
  have hdrafts := MessageRecord.eq_renamed_of_anonymous hcontents hids
  subst hdrafts
  -- the drafts of both are new, so the permutation leaves what was there before alone
  have hold : ∀ id ∈ s.known, id ∉ drafts.map MessageRecord.id := h.unknown unique.taken
  have hold' : ∀ id ∈ s.known, id ∉ (drafts.map (·.renamed σ)).map MessageRecord.id :=
    k.unknown unique.taken
  have hstart : Alike σ s (s.resized size) :=
    alike_resized unique.distinct (fun id hid => hfix id (hold id hid) (hold' id hid)) size
  obtain ⟨htried, hrecords⟩ := hstart.records.tryAll s.outages h.distinct fun r hr hmem =>
    hold r.id (List.mem_append_left _ (List.mem_append_left _ hmem)) (List.mem_map_of_mem hr)
  obtain ⟨htally, hsettled⟩ := hstart.toWorksAlike.settleBatch tally
    (s.records.tryAll s.outages drafts).1
  rw [← htried] at htally hsettled
  have hworks := h.works.symm.trans (hsettled.trans k.works)
  rw [Equiv.refl_symm, Equiv.refl_trans, Equiv.trans_refl] at hworks
  refine ⟨?_, σ, ?_⟩
  · rw [k.tally, h.tally]
    exact htally
  · exact { hworks with
      settings := by rw [k.settings, h.settings]; rfl
      creationMs := by rw [k.creationMs, h.creationMs]; rfl
      outages := by rw [k.outages, h.outages]; rfl
      campaigns := by rw [k.campaigns, h.campaigns]; rfl
      records := by rw [k.records, h.records]; exact hrecords
      generator := by rw [k.generator, h.generator, hsame.2]
      issued := by
        have hcount : ((s.resized size).records.tryAll (s.resized size).outages
            (drafts.map (·.renamed σ))).1.reduceOption.length =
              (s.records.tryAll s.outages drafts).1.reduceOption.length := by
          have hmap := congrArg (fun tried => (List.reduceOption tried).length) htried
          rwa [List.reduceOption_map, List.length_map] at hmap
        rw [k.issued, h.issued, hcount]
        rfl }

/-! ## The end of a dispatch -/

end DeliveryState

/-- The dispatch goes on without another batch. -/
def Dispatch.isClosing (d : Dispatch) : Bool :=
  match d.phase with
  | .starting _ | .creating _ _ _ _ _ => false
  | _ => true

namespace DeliveryState

variable {s t u : DeliveryState} {d : Dispatch}

namespace Alike

theorem completeCampaign (h : Alike σ s t) (id : Uuid) (stats : CampaignStats) :
    Answer.Rel (Alike σ) (s.completeCampaign id stats) (t.completeCampaign id stats) := by
  rw [DeliveryState.completeCampaign, DeliveryState.completeCampaign, h.outages, h.campaigns,
    h.now]
  refine (Answer.Rel.refl (fun _ => rfl) _).bind fun _ _ _ => ?_
  refine (Answer.Rel.refl (R := Eq) (fun _ => rfl) _).bind ?_
  rintro book _ rfl
  exact .ok { h.of_campaigns book with now := rfl, outages := rfl }

theorem failCampaign (h : Alike σ s t) (id : Uuid) (reason : String) :
    Answer.Rel (Alike σ) (s.failCampaign id reason) (t.failCampaign id reason) := by
  rw [DeliveryState.failCampaign, DeliveryState.failCampaign, h.outages, h.campaigns, h.now]
  refine (Answer.Rel.refl (fun _ => rfl) _).bind fun _ _ _ => ?_
  refine (Answer.Rel.refl (R := Eq) (fun _ => rfl) _).bind ?_
  rintro book _ rfl
  exact .ok { h.of_campaigns book with now := rfl, outages := rfl }

/-- A dispatch that is closing takes the same step in both. -/
theorem stepDispatch (h : Alike σ s t) (closing : d.isClosing = true) :
    (t.stepDispatch d).1 = (s.stepDispatch d).1 ∧
      Alike σ (s.stepDispatch d).2 (t.stepDispatch d).2 ∧
      (s.stepDispatch d).1.isClosing = true := by
  cases hp : d.phase with
  | starting recipients => simp [Dispatch.isClosing, hp] at closing
  | creating next more tried rest tally => simp [Dispatch.isClosing, hp] at closing
  | counting tally =>
    simp only [DeliveryState.stepDispatch, hp]
    rcases (h.findRecords (.campaign d.campaign)).both with ⟨a, b, ha, hb, related⟩ | ⟨e, ha, hb⟩
    · rw [ha, hb]
      dsimp only
      rw [StageCounts.ofRecords_renamed related]
      exact ⟨rfl, h, rfl⟩
    · rw [ha, hb]
      exact ⟨rfl, h, rfl⟩
  | completing stats =>
    simp only [DeliveryState.stepDispatch, hp]
    rcases (h.completeCampaign d.campaign stats).both with
      ⟨a, b, ha, hb, related⟩ | ⟨e, ha, hb⟩
    · rw [ha, hb]
      exact ⟨rfl, related.emit .campaignCompleted d.campaign none none, rfl⟩
    · rw [ha, hb]
      exact ⟨rfl, h, rfl⟩
  | aborting cause =>
    simp only [DeliveryState.stepDispatch, hp]
    rcases (h.failCampaign d.campaign cause.message).both with
      ⟨a, b, ha, hb, related⟩ | ⟨e, ha, hb⟩
    · rw [ha, hb]
      exact ⟨trivial, related.emit .campaignFailed d.campaign none none, rfl⟩
    · rw [ha, hb]
      exact ⟨trivial, h.emit .campaignFailed d.campaign none none, rfl⟩
  | ended how =>
    have hended : d.isEnded = true := by simp only [Dispatch.isEnded, hp]
    rw [stepDispatch_ended hended, stepDispatch_ended hended]
    exact ⟨rfl, h, closing⟩

theorem finishDispatch (h : Alike σ s t) (closing : d.isClosing = true) :
    Alike σ (s.finishDispatch d).2 (t.finishDispatch d).2 := by
  rw [DeliveryState.finishDispatch, DeliveryState.finishDispatch]
  generalize d.stepsLeft = n
  induction n generalizing s t d with
  | zero => exact h
  | succ n ih =>
    obtain ⟨hdispatch, hstate, hclosing⟩ := h.stepDispatch closing
    rw [runDispatch, runDispatch, hdispatch]
    exact ih hstate hclosing

end Alike

/-- A cancelled campaign has no further batch, so that their size does not matter. -/
theorem nextBatch_refused (refuses : s.agenda.refuses d.campaign = true) (tally : Tally)
    (rest : List String) :
    ∃ d', d'.isClosing = true ∧
      ∀ size, (s.resized size).nextBatch d tally rest = (d', s.resized size) := by
  cases rest with
  | nil => exact ⟨{ d with phase := .counting tally }, rfl, fun _ => rfl⟩
  | cons customer others =>
    refine ⟨{ d with phase := .ended .cancelled }, rfl, ?_⟩
    intro size
    have hrefuses : (s.resized size).agenda.refuses d.campaign = true := refuses
    simp only [nextBatch, hrefuses]
    rfl

theorem startProcessing_resized (s : DeliveryState) (id : Uuid) (total size : Nat) :
    (s.resized size).startProcessing id total =
      (s.startProcessing id total).map fun v => v.resized size := by
  rw [startProcessing, startProcessing]
  cases hcheck : s.outages.check .startProcessing with
  | error e =>
    have hcheck' : (s.resized size).outages.check .startProcessing = .error e := hcheck
    rw [hcheck']
    rfl
  | ok _ =>
    have hcheck' : (s.resized size).outages.check .startProcessing = .ok () := hcheck
    rw [hcheck']
    cases hbook : s.campaigns.startProcessing id total s.now with
    | error e => simp [resized, hbook, bind, Except.bind, Except.map]
    | ok book => simp [resized, hbook, bind, Except.bind, Except.map, pure, Except.pure]

/-- After it has begun, a dispatch does the same with batches of another size. -/
theorem nextBatch_resized (prompt : s.Prompt) (unique : s.Unique) (ready : d.ready = s.now)
    (recipients : List String) (size : Nat) :
    ∃ σ, Alike σ
      ((s.nextBatch d .zero recipients).2.finishDispatch (s.nextBatch d .zero recipients).1).2
      (((s.resized size).nextBatch d .zero recipients).2.finishDispatch
        ((s.resized size).nextBatch d .zero recipients).1).2 := by
  cases haccepts : s.agenda.refuses d.campaign with
  | true =>
    obtain ⟨d', hclosing, hnext⟩ := nextBatch_refused haccepts .zero recipients
    have hsame : s.resized s.settings.batchSize = s := rfl
    have hfirst := hnext s.settings.batchSize
    rw [hsame] at hfirst
    rw [hfirst, hnext size]
    exact ⟨Equiv.refl Uuid,
      (alike_resized unique.distinct (fun _ _ => rfl) size).finishDispatch hclosing⟩
  | false =>
    have hprompt : (s.resized size).Prompt := ⟨prompt.creationMs, prompt.still⟩
    obtain ⟨drafts, tally, t, hserved, hfinish⟩ := prompt.served haccepts ready .zero recipients
    obtain ⟨drafts', tally', u, hserved', hfinish'⟩ :=
      hprompt.served (d := d) haccepts ready .zero recipients
    obtain ⟨rfl, σ, hlike⟩ := hserved.alike hserved' unique
    rw [hfinish, hfinish']
    exact ⟨σ, hlike.finishDispatch rfl⟩

/-- A dispatch does the same with batches of another size. -/
theorem finishDispatch_resized (prompt : s.Prompt) (unique : s.Unique) (campaign : Uuid)
    (recipients : List String) (turn size : Nat) :
    ∃ σ, Alike σ (s.finishDispatch (.start campaign recipients s.now turn)).2
      ((s.resized size).finishDispatch (.start campaign recipients s.now turn)).2 := by
  let d := Dispatch.start campaign recipients s.now turn
  have hresized := startProcessing_resized s campaign recipients.length size
  rw [finishDispatch_step, finishDispatch_step (s.resized size)]
  cases hcall : s.startProcessing campaign recipients.length with
  | error cause =>
    rw [hcall] at hresized
    have hstep : s.stepDispatch d = s.abort d cause := by
      simp only [stepDispatch, d, Dispatch.start, hcall]
    have hstep' : (s.resized size).stepDispatch d = (s.resized size).abort d cause := by
      simp only [stepDispatch, d, Dispatch.start, hresized]
      rfl
    rw [hstep, hstep']
    exact ⟨Equiv.refl Uuid,
      (alike_resized unique.distinct (fun _ _ => rfl) size).finishDispatch rfl⟩
  | ok v =>
    rw [hcall] at hresized
    obtain ⟨book, _, rfl⟩ := startProcessing_ok hcall
    let begun := { s with campaigns := book }.emitCampaign .campaignProcessing campaign
    have hstep : s.stepDispatch d = begun.nextBatch d .zero recipients := by
      simp only [stepDispatch, d, Dispatch.start, hcall]
      rfl
    have hstep' : (s.resized size).stepDispatch d =
        (begun.resized size).nextBatch d .zero recipients := by
      simp only [stepDispatch, d, Dispatch.start, hresized]
      rfl
    have hprompt : begun.Prompt := ⟨prompt.creationMs, prompt.still⟩
    have hunique : begun.Unique :=
      ⟨unique.distinct, fun n hn => Nat.lt_succ_of_lt (unique.taken n hn)⟩
    rw [hstep, hstep']
    exact nextBatch_resized hprompt hunique rfl recipients size

end DeliveryState

theorem Instant.Proper.addMillis_zero {i : Instant} (h : i.Proper) : i.addMillis 0 = i := by
  have hbound : i.nanos < 2 * nanosPerSecond := by
    rcases h with hlow | ⟨hhigh, _⟩
    · omega
    · exact hhigh
  rw [addMillis]
  by_cases hlow : i.nanos < nanosPerSecond
  · rw [if_pos hlow]
    simp [Nat.mod_eq_of_lt hlow, Nat.div_eq_of_lt hlow]
  · rw [if_neg hlow, if_neg (by omega)]
    simp

namespace Simulation

variable {s : Simulation}

/-- The delivery with batches of another size. -/
def resized (s : Simulation) (size : Nat) : Simulation :=
  s.withState fun state => state.resized size

/-- A dispatch in the foreground that need not wait takes all of its steps in a row. -/
theorem stepForeground_prompt (prompt : s.state.Prompt) {d : Dispatch} (ready : d.ready = s.now)
    (fuel : Nat) :
    stepForeground fuel d s =
      { s with state := (DeliveryState.runDispatch fuel s.state d).2 } := by
  induction fuel generalizing s d with
  | zero => rfl
  | succ fuel ih =>
    cases hended : d.isEnded with
    | true =>
      rw [DeliveryState.runDispatch_ended hended, stepForeground, hended]
      rfl
    | false =>
      have hle : d.ready ≤ s.now := ready ▸ Instant.le_refl s.now
      obtain ⟨hprompt, hready⟩ := prompt.stepDispatch ready
      rw [stepForeground, hended, DeliveryState.runDispatch]
      simp only [hle]
      exact ih (s := { s with state := (s.state.stepDispatch d).2 }) hprompt hready

theorem dispatch_prompt (prompt : s.state.Prompt) (campaign : Uuid) (recipients : List String) :
    s.dispatch campaign recipients =
      { s with state := (s.state.finishDispatch (.start campaign recipients s.now 0)).2 } :=
  stepForeground_prompt prompt rfl _

/-- Where records are created without waiting, a dispatch does the same with batches of any size.
Nobody who cannot compare identifiers tells the difference, neither at once nor, when no other
dispatch is under way, after whatever happens later. -/
theorem dispatch_any_batch_size (s : Simulation) (campaign : Uuid) (recipients : List String)
    (size size' : Nat) (instantaneous : s.state.creationMs = 0) (proper : s.now.Proper)
    (unique : s.state.Unique) :
    Indistinguishable ((s.resized size).dispatch campaign recipients)
        ((s.resized size').dispatch campaign recipients) ∧
      (s.running = [] → ∀ incidents : List Incident,
        Indistinguishable (((s.resized size).dispatch campaign recipients).undergoAll incidents)
          (((s.resized size').dispatch campaign recipients).undergoAll incidents)) := by
  have hprompt : ∀ n, (s.resized n).state.Prompt :=
    fun _ => ⟨instantaneous, proper.addMillis_zero⟩
  have hunique : (s.resized size).state.Unique := ⟨unique.distinct, unique.taken⟩
  obtain ⟨σ, hlike⟩ := DeliveryState.finishDispatch_resized (hprompt size) hunique campaign
    recipients 0 size'
  rw [dispatch_prompt (hprompt size), dispatch_prompt (hprompt size')]
  refine ⟨indistinguishable_of_alike hlike, ?_⟩
  intro hnone incidents
  have hboth : Alike σ
      { s.resized size with state := ((s.resized size).state.finishDispatch
        (.start campaign recipients (s.resized size).now 0)).2 }
      { s.resized size' with state := ((s.resized size').state.finishDispatch
        (.start campaign recipients (s.resized size').now 0)).2 } := ⟨hlike, hnone, hnone⟩
  exact indistinguishable_of_alike (hboth.undergoAll incidents).state

/-- A campaign is sent to two customers, one of whom is named twice, while another message is on
record. In batches of one and of three the new records have different identifiers, and nothing else
is different, also after the messages have been clicked. -/
theorem repeated_customer_any_batch_size :
    let earlier : MessageRecord :=
      ⟨.nil, ⟨1⟩, "a", "msg_earlier", .clicked, ⟨0, 0⟩, none, none, none, none⟩
    let start : DeliveryState :=
      { Sample.delivery 1 with
        campaigns := CampaignBook.empty.insert Sample.campaign
        records := ⟨[earlier], [("msg_earlier", .nil)]⟩
        recorder := .capturing }
    let s := ofState start
    let d := fun size => (s.resized size).dispatch .nil ["a", "b", "a"]
    (s.state.creationMs = 0 ∧ s.now.Proper ∧ s.state.Unique) ∧
      ((d 1).state.records.size = 3 ∧ (d 1).state.records.ids ≠ (d 3).state.records.ids) ∧
      Indistinguishable (d 1) (d 3) ∧
      Indistinguishable ((d 1).undergoAll [.pass 5000]) ((d 3).undergoAll [.pass 5000]) := by
  intro earlier start s d
  have hproper : s.now.Proper := .inl (by decide)
  have hunique : s.state.Unique := by
    refine ⟨by decide, ?_⟩
    intro n hn
    have hknown : s.state.known = [.nil, .nil] := rfl
    rw [hknown] at hn
    have hvalue : (Uuid.fresh n).value = 0 := by
      have hnil : Uuid.fresh n = .nil := by simpa using hn
      exact congrArg Uuid.value hnil
    simp [Uuid.fresh] at hvalue
  obtain ⟨hnow, hlater⟩ := dispatch_any_batch_size s .nil ["a", "b", "a"] 1 3 rfl hproper hunique
  refine ⟨⟨rfl, hproper, hunique⟩, ⟨?_, ?_⟩, hnow, hlater rfl [.pass 5000]⟩
  · decide +kernel
  · decide +kernel

end Simulation

end Outreach
