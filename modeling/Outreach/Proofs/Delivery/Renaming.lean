import Mathlib.Logic.Equiv.Basic
import Outreach.Delivery.Simulation
import Outreach.Proofs.Delivery.Actions
import Outreach.Proofs.Delivery.Effects

/-!
# Deliveries that differ in identifiers

The identifiers of records and events are drawn from a supply and mean nothing. Two deliveries are
alike if a permutation of identifiers takes the records, the index and the pending walks of one to
those of the other, and if everything else is the same up to the identifiers of events. The size of
batches may differ as well. Whatever asks for no new records keeps deliveries alike.
-/

namespace Outreach

/-- Some distinct things are taken to as many others by a permutation of all things that leaves
alone what is among neither. -/
theorem exists_perm_map {α : Type} [DecidableEq α] {as bs : List α} (same : as.length = bs.length)
    (ha : as.Nodup) (hb : bs.Nodup) :
    ∃ σ : Equiv.Perm α, as.map σ = bs ∧ ∀ x, x ∉ as → x ∉ bs → σ x = x := by
  induction as generalizing bs with
  | nil =>
    rw [List.length_nil, eq_comm, List.length_eq_zero_iff] at same
    subst same
    exact ⟨Equiv.refl α, rfl, fun _ _ _ => rfl⟩
  | cons a as ih =>
    cases bs with
    | nil => cases same
    | cons b bs =>
      obtain ⟨hnot, ha⟩ := List.nodup_cons.mp ha
      obtain ⟨hnot', hb⟩ := List.nodup_cons.mp hb
      obtain ⟨σ, hmap, hfix⟩ := ih (Nat.succ.inj same) ha hb
      refine ⟨σ.trans (Equiv.swap (σ a) b), ?_, ?_⟩
      · have hsame : ∀ x ∈ as, (σ.trans (Equiv.swap (σ a) b)) x = σ x := by
          intro x hx
          have hb : σ x ∈ bs := hmap ▸ List.mem_map_of_mem hx
          refine Equiv.swap_apply_of_ne_of_ne ?_ ?_
          · exact fun he => hnot (σ.injective he ▸ hx)
          · exact fun he => hnot' (he ▸ hb)
        rw [List.map_cons, List.map_congr_left hsame, hmap, Equiv.trans_apply,
          Equiv.swap_apply_left]
      · intro x hx hx'
        rw [List.mem_cons, not_or] at hx hx'
        have hx_fixed := hfix x hx.2 hx'.2
        rw [Equiv.trans_apply, hx_fixed]
        refine Equiv.swap_apply_of_ne_of_ne ?_ hx'.1
        intro he
        exact hx.1 (σ.injective (hx_fixed.trans he))

/-! ## Records under other identifiers -/

variable {σ : Equiv.Perm Uuid}

namespace MessageRecord

def renamed (σ : Equiv.Perm Uuid) (r : MessageRecord) : MessageRecord :=
  { r with id := σ r.id }

/-- The record without its identifier. -/
def anonymous (r : MessageRecord) : MessageRecord :=
  { r with id := .nil }

@[simp] theorem renamed_refl (r : MessageRecord) : r.renamed (Equiv.refl Uuid) = r := rfl

theorem advance_renamed (σ : Equiv.Perm Uuid) (r : MessageRecord) (status : DeliveryStatus)
    (time : Instant) : (r.renamed σ).advance status time =
      ((r.advance status time).1, (r.advance status time).2.renamed σ) := by
  cases hr : r.status.rank? with
  | none => simp [advance, renamed, hr]
  | some current =>
    cases hs : status.rank? with
    | none => simp [advance, renamed, hr, hs]
    | some target =>
      by_cases hlt : current < target
      · simp [advance, renamed, hr, hs, hlt, moved]
      · simp [advance, renamed, hr, hs, hlt]

end MessageRecord

namespace RecordBook

/-- The second book is the first one under other identifiers. -/
structure Alike (σ : Equiv.Perm Uuid) (s t : RecordBook) : Prop where
  distinct : s.ids.Nodup
  records : t.records.Perm (s.records.map (·.renamed σ))
  index : t.index = s.index.map fun entry => (entry.1, σ entry.2)

/-- The records in the order in which they were created. -/
def created (s : RecordBook) : List MessageRecord :=
  s.index.reverse.filterMap fun entry => s.get? entry.2

variable {s t : RecordBook}

namespace Alike

/-- A book is unchanged by a permutation that leaves all of its identifiers alone. -/
theorem of_fixed (distinct : s.ids.Nodup) (records : ∀ r ∈ s.records, σ r.id = r.id)
    (index : ∀ entry ∈ s.index, σ entry.2 = entry.2) : Alike σ s s := by
  refine ⟨distinct, ?_, ?_⟩
  · have hsame : ∀ r ∈ s.records, r.renamed σ = r := by
      intro r hr
      rw [MessageRecord.renamed, records r hr]
    rw [List.map_congr_left hsame, List.map_id']
  · have hsame : ∀ entry ∈ s.index, (entry.1, σ entry.2) = entry := by
      intro entry hentry
      rw [index entry hentry]
    rw [List.map_congr_left hsame, List.map_id']

theorem lookup? (h : Alike σ s t) (messageId : String) :
    t.lookup? messageId = (s.lookup? messageId).map σ := by
  rw [RecordBook.lookup?, RecordBook.lookup?, h.index]
  induction s.index with
  | nil => rfl
  | cons entry rest ih =>
    rw [List.map_cons, List.lookup_cons, List.lookup_cons]
    split
    · rfl
    · exact ih

theorem distinct_right (h : Alike σ s t) : t.ids.Nodup := by
  have hids : (s.records.map (·.renamed σ)).map MessageRecord.id = s.ids.map σ := by
    rw [List.map_map, ids, List.map_map]
    rfl
  rw [ids, (h.records.map MessageRecord.id).nodup_iff, hids]
  exact h.distinct.map σ.injective

theorem get? (h : Alike σ s t) (id : Uuid) :
    t.get? (σ id) = (s.get? id).map (·.renamed σ) := by
  cases hget : s.get? id with
  | some r =>
    obtain ⟨hr, rfl⟩ := Sorted.get?_eq_some hget
    have hmem : r.renamed σ ∈ t.records := h.records.mem_iff.mpr (List.mem_map_of_mem hr)
    exact Sorted.get?_of_mem h.distinct_right hmem
  | none =>
    have habsent := Sorted.get?_eq_none.mp hget
    refine Sorted.get?_eq_none.mpr ?_
    intro r hr he
    obtain ⟨q, hq, rfl⟩ := List.mem_map.mp (h.records.mem_iff.mp hr)
    exact habsent q hq (σ.injective he)

theorem findByMessage? (h : Alike σ s t) (messageId : String) :
    t.findByMessage? messageId = (s.findByMessage? messageId).map (·.renamed σ) := by
  rw [RecordBook.findByMessage?, RecordBook.findByMessage?, h.lookup?]
  cases s.lookup? messageId with
  | none => rfl
  | some id => exact h.get? id

theorem find (h : Alike σ s t) (f : RecordFilter) :
    (t.find f).Perm ((s.find f).map (·.renamed σ)) := by
  have hfilter : (s.records.map (·.renamed σ)).filter f.admits =
      (s.records.filter f.admits).map (·.renamed σ) := List.filter_map
  rw [RecordBook.find, RecordBook.find, ← hfilter]
  exact h.records.filter _

theorem create (h : Alike σ s t) {r : MessageRecord} (fresh : r.id ∉ s.ids) :
    Answer.Rel (Alike σ) (s.create r) (t.create (r.renamed σ)) := by
  have hlookup : t.lookup? (r.renamed σ).messageId = (s.lookup? r.messageId).map σ :=
    h.lookup? r.messageId
  cases hunused : s.lookup? r.messageId with
  | some id =>
    rw [hunused, Option.map_some] at hlookup
    rw [RecordBook.create, RecordBook.create, hunused, hlookup]
    exact .error _
  | none =>
    rw [hunused, Option.map_none] at hlookup
    obtain ⟨u, hu⟩ : ∃ u, s.create r = .ok u := ⟨_, create_eq_ok.mpr ⟨hunused, rfl⟩⟩
    obtain ⟨v, hv⟩ : ∃ v, t.create (r.renamed σ) = .ok v :=
      ⟨_, create_eq_ok.mpr ⟨hlookup, rfl⟩⟩
    have hperm := records_create_perm hu fun b hb he =>
      fresh (List.mem_map.mpr ⟨b, hb, he⟩)
    have hperm' := records_create_perm hv fun b hb he => by
      obtain ⟨q, hq, rfl⟩ := List.mem_map.mp (h.records.mem_iff.mp hb)
      exact fresh (List.mem_map.mpr ⟨q, hq, σ.injective he⟩)
    rw [hu, hv]
    refine .ok ⟨?_, ?_, ?_⟩
    · rw [ids, (hperm.map MessageRecord.id).nodup_iff]
      exact List.nodup_cons.mpr ⟨fresh, h.distinct⟩
    · have hrenamed := hperm.map (MessageRecord.renamed σ)
      exact (hperm'.trans (h.records.cons _)).trans hrenamed.symm
    · rw [(create_eq_ok.mp hu).2, (create_eq_ok.mp hv).2, h.index]
      rfl

theorem advance (h : Alike σ s t) (id : Uuid) (status : DeliveryStatus) (time : Instant) :
    (t.advance (σ id) status time).1 = (s.advance id status time).1 ∧
      Alike σ (s.advance id status time).2 (t.advance (σ id) status time).2 := by
  constructor
  · rw [RecordBook.advance, RecordBook.advance, h.get?]
    cases s.get? id with
    | none => rfl
    | some r => simp only [Option.map_some, MessageRecord.advance_renamed]
  · refine ⟨?_, ?_, ?_⟩
    · rw [ids_advance]
      exact h.distinct
    · have hmove : ∀ r : MessageRecord,
          (if (r.renamed σ).id = σ id then ((r.renamed σ).advance status time).2
            else r.renamed σ) =
          (if r.id = id then (r.advance status time).2 else r).renamed σ := by
        intro r
        have hid : (r.renamed σ).id = σ id ↔ r.id = id := σ.injective.eq_iff
        by_cases he : r.id = id
        · rw [if_pos (hid.mpr he), if_pos he, MessageRecord.advance_renamed]
        · rw [if_neg (mt hid.mp he), if_neg he]
      have hperm := h.records.map fun r =>
        if r.id = σ id then (r.advance status time).2 else r
      rw [records_advance, records_advance, Sorted.modify, Sorted.modify, List.map_map,
        Function.comp_def]
      rw [List.map_map, Function.comp_def] at hperm
      simpa only [hmove] using hperm
    · rw [index_advance, index_advance, h.index]

theorem created (h : Alike σ s t) : t.created = s.created.map (·.renamed σ) := by
  rw [RecordBook.created, RecordBook.created, h.index, ← List.map_reverse, List.filterMap_map,
    List.map_filterMap]
  congr 1
  funext entry
  exact h.get? entry.2

end Alike

end RecordBook

/-- Counts of records do not depend on identifiers. -/
theorem StageCounts.ofRecords_renamed {records others : List MessageRecord}
    (h : others.Perm (records.map (·.renamed σ))) : ofRecords others = ofRecords records := by
  simp only [ofRecords, h.countP_eq, List.countP_map]
  rfl

theorem CampaignStats.refreshed_renamed (s : CampaignStats) {records others : List MessageRecord}
    (h : others.Perm (records.map (·.renamed σ))) : s.refreshed others = s.refreshed records := by
  simp only [refreshed, StageCounts.ofRecords_renamed h, h.countP_eq, List.countP_map]
  rfl

/-! ## Events and walks under other identifiers -/

/-- The event without its identifier. -/
def Event.anonymous (e : Event) : Event :=
  { e with id := .nil }

namespace EventRecorder

/-- Both recorders have been told the same, up to the identifiers of events. -/
structure Alike (s t : EventRecorder) : Prop where
  captures : t.captures = s.captures
  kept : t.kept.map Event.anonymous = s.kept.map Event.anonymous

variable {s t u : EventRecorder}

theorem Alike.refl (s : EventRecorder) : s.Alike s :=
  ⟨rfl, rfl⟩

theorem Alike.symm (h : s.Alike t) : t.Alike s :=
  ⟨h.captures.symm, h.kept.symm⟩

theorem Alike.trans (h : s.Alike t) (k : t.Alike u) : s.Alike u :=
  ⟨k.captures.trans h.captures, k.kept.trans h.kept⟩

theorem Alike.emit (h : s.Alike t) {e f : Event} (same : f.anonymous = e.anonymous) :
    (s.emit e).Alike (t.emit f) := by
  rw [EventRecorder.emit, EventRecorder.emit, h.captures]
  split
  · exact ⟨rfl, by rw [List.map_cons, List.map_cons, h.kept, same]⟩
  · exact h

theorem Alike.events (h : s.Alike t) :
    t.events.map Event.anonymous = s.events.map Event.anonymous := by
  rw [EventRecorder.events, EventRecorder.events, List.map_reverse, List.map_reverse, h.kept]

end EventRecorder

def PendingEntry.renamed {α : Type} (σ : Equiv.Perm Uuid) (e : PendingEntry α) : PendingEntry α :=
  { e with record := σ e.record }

namespace Agenda

variable {α : Type}

def renamed (σ : Equiv.Perm Uuid) (s : Agenda α) : Agenda α :=
  { s with pending := s.pending.map (·.renamed σ) }

theorem renamed_of_fixed {s : Agenda α} (h : ∀ e ∈ s.pending, σ e.record = e.record) :
    s.renamed σ = s := by
  have hsame : ∀ e ∈ s.pending, e.renamed σ = e := by
    intro e he
    rw [PendingEntry.renamed, h e he]
  rw [renamed, List.map_congr_left hsame, List.map_id']

@[simp] theorem renamed_refl (s : Agenda α) : s.renamed (Equiv.refl Uuid) = s :=
  renamed_of_fixed fun _ _ => rfl

theorem renamed_trans (σ τ : Equiv.Perm Uuid) (s : Agenda α) :
    (s.renamed σ).renamed τ = s.renamed (σ.trans τ) := by
  simp only [renamed, List.map_map]
  rfl

/-- What is taken off by a condition on the record is taken off under the other identifier. -/
theorem filter_record_renamed (σ : Equiv.Perm Uuid) (record : Uuid)
    (pending : List (PendingEntry α)) :
    (pending.map (·.renamed σ)).filter (fun e => e.record != σ record) =
      (pending.filter fun e => e.record != record).map (·.renamed σ) := by
  rw [List.filter_map]
  congr 1
  apply List.filter_congr
  intro e _
  by_cases he : e.record = record
  · simp [PendingEntry.renamed, he]
  · have hne : σ e.record ≠ σ record := σ.injective.ne he
    rw [Function.comp_apply, bne_iff_ne.mpr he]
    exact bne_iff_ne.mpr hne

theorem schedule_renamed (σ : Equiv.Perm Uuid) (s : Agenda α) (record campaign : Uuid) (work : α) :
    (s.renamed σ).schedule (σ record) campaign work =
      ((s.schedule record campaign work).1, (s.schedule record campaign work).2.renamed σ) := by
  have hrefuses : (s.renamed σ).refuses campaign = s.refuses campaign := rfl
  rw [schedule, schedule, hrefuses]
  split
  · rfl
  · simp only [renamed, filter_record_renamed, List.map_append, List.map_cons, List.map_nil]
    rfl

theorem cancel_renamed (σ : Equiv.Perm Uuid) (s : Agenda α) (record : Uuid) :
    ((s.renamed σ).cancel (σ record)).2 = (s.cancel record).2.renamed σ := by
  simp only [cancel, renamed, filter_record_renamed]

theorem cancelAll_renamed (σ : Equiv.Perm Uuid) (s : Agenda α) (campaign : Uuid) :
    ((s.renamed σ).cancelAll campaign).2 = (s.cancelAll campaign).2.renamed σ := by
  have hrecords : (s.renamed σ).recordsOf campaign = (s.recordsOf campaign).map σ := by
    simp only [recordsOf, renamed, List.filter_map, List.map_map]
    rfl
  rw [cancelAll_snd, cancelAll_snd, hrecords]
  simp only [renamed, List.filter_map]
  congr 2
  refine List.filter_congr fun e _ => ?_
  simp [PendingEntry.renamed, σ.injective.eq_iff]

theorem finish_renamed (σ : Equiv.Perm Uuid) (s : Agenda α) (ticket : Nat) :
    (s.renamed σ).finish ticket = (s.finish ticket).renamed σ := by
  simp only [finish, renamed, List.filter_map]
  rfl

theorem progress_renamed (σ : Equiv.Perm Uuid) (s : Agenda α) (ticket : Nat) (work : α) :
    (s.renamed σ).progress ticket work = (s.progress ticket work).renamed σ := by
  simp only [progress, renamed, List.map_map]
  congr 1
  apply List.map_congr_left
  intro e _
  by_cases h : e.ticket = ticket
  · simp [PendingEntry.renamed, h]
  · simp [PendingEntry.renamed, h]

end Agenda

/-! ## States under other identifiers -/

namespace DeliveryState

/-- What a settled batch touches is the same, up to identifiers. -/
structure WorksAlike (σ : Equiv.Perm Uuid) (s t : DeliveryState) : Prop where
  now : t.now = s.now
  nodeId : t.nodeId = s.nodeId
  agenda : t.agenda = s.agenda.renamed σ
  recorder : s.recorder.Alike t.recorder
  turns : t.turns = s.turns

/-- The states are the same, up to identifiers and to the size of batches. -/
structure Alike (σ : Equiv.Perm Uuid) (s t : DeliveryState) : Prop extends WorksAlike σ s t where
  settings : t.settings = { s.settings with batchSize := t.settings.batchSize }
  creationMs : t.creationMs = s.creationMs
  outages : t.outages = s.outages
  campaigns : t.campaigns = s.campaigns
  records : s.records.Alike σ t.records
  generator : t.generator = s.generator
  issued : t.issued = s.issued

variable {s t : DeliveryState}

theorem WorksAlike.symm (h : WorksAlike σ s t) : WorksAlike σ.symm t s := by
  refine ⟨h.now.symm, h.nodeId.symm, ?_, h.recorder.symm, h.turns.symm⟩
  rw [h.agenda, Agenda.renamed_trans, Equiv.self_trans_symm, Agenda.renamed_refl]

theorem WorksAlike.trans {τ : Equiv.Perm Uuid} {u : DeliveryState} (h : WorksAlike σ s t)
    (k : WorksAlike τ t u) : WorksAlike (σ.trans τ) s u := by
  refine ⟨k.now.trans h.now, k.nodeId.trans h.nodeId, ?_, h.recorder.trans k.recorder,
    k.turns.trans h.turns⟩
  rw [k.agenda, h.agenda, Agenda.renamed_trans]

theorem WorksAlike.emit (h : WorksAlike σ s t) (type : EventKind) (campaign : Uuid)
    (customerId messageId : Option String) :
    WorksAlike σ (s.emit type campaign customerId messageId)
      (t.emit type campaign customerId messageId) := by
  refine ⟨h.now, h.nodeId, h.agenda, ?_, h.turns⟩
  apply h.recorder.emit
  simp only [Event.anonymous, h.now, h.nodeId]

theorem WorksAlike.scheduleWalk (h : WorksAlike σ s t) (r : MessageRecord) :
    WorksAlike σ (s.scheduleWalk r) (t.scheduleWalk (r.renamed σ)) := by
  refine ⟨h.now, h.nodeId, ?_, h.recorder, congrArg (· + 1) h.turns⟩
  have hschedule := Agenda.schedule_renamed σ s.agenda r.id r.campaignId
    (⟨r.customerId, r.messageId, .scheduled s.now, s.turns⟩ : Walk)
  simp only [DeliveryState.scheduleWalk, h.agenda, h.now, h.turns]
  exact congrArg Prod.snd hschedule

namespace Alike

theorem emit (h : Alike σ s t) (type : EventKind) (campaign : Uuid)
    (customerId messageId : Option String) :
    Alike σ (s.emit type campaign customerId messageId)
      (t.emit type campaign customerId messageId) :=
  { h.toWorksAlike.emit type campaign customerId messageId with
    settings := h.settings
    creationMs := h.creationMs
    outages := h.outages
    campaigns := h.campaigns
    records := h.records
    generator := h.generator
    issued := congrArg (· + 1) h.issued }

theorem of_agenda (h : Alike σ s t) {a b : Agenda Walk} (agenda : b = a.renamed σ) :
    Alike σ { s with agenda := a } { t with agenda := b } :=
  { h with agenda }

theorem of_campaigns (h : Alike σ s t) (book : CampaignBook) :
    Alike σ { s with campaigns := book } { t with campaigns := book } :=
  { h with campaigns := rfl }

theorem of_records (h : Alike σ s t) {a b : RecordBook} (records : a.Alike σ b) :
    Alike σ { s with records := a } { t with records := b } :=
  { h with records }

theorem moveTo (h : Alike σ s t) (time : Instant) :
    Alike σ { s with now := time } { t with now := time } :=
  { h with now := rfl }

theorem chance (h : Alike σ s t) (p : Float) :
    (t.chance p).1 = (s.chance p).1 ∧ Alike σ (s.chance p).2 (t.chance p).2 := by
  simp only [DeliveryState.chance, h.generator]
  exact ⟨trivial, { h with generator := rfl }⟩

theorem drawDelay (h : Alike σ s t) (w : DelayRange) :
    (t.drawDelay w).1 = (s.drawDelay w).1 ∧ Alike σ (s.drawDelay w).2 (t.drawDelay w).2 := by
  simp only [DeliveryState.drawDelay, h.generator]
  exact ⟨trivial, { h with generator := rfl }⟩

theorem takeTurn (h : Alike σ s t) (before ms : Nat) :
    (t.takeTurn before ms).1 = (s.takeTurn before ms).1 ∧
      Alike σ (s.takeTurn before ms).2 (t.takeTurn before ms).2 := by
  rw [DeliveryState.takeTurn, DeliveryState.takeTurn]
  split
  · exact ⟨rfl, h⟩
  · exact ⟨h.turns, { h with turns := congrArg (· + 1) h.turns }⟩

/-! ## Steps of walks -/

theorem delay (h : Alike σ s t) (stage : Stage) :
    stage.delay t.settings = stage.delay s.settings := by
  rw [h.settings]
  cases stage <;> rfl

theorem probability (h : Alike σ s t) (stage : Stage) :
    stage.probability t.settings = stage.probability s.settings := by
  rw [h.settings]
  cases stage <;> rfl

theorem advanceRecord (h : Alike σ s t) (id : Uuid) (status : DeliveryStatus) (time : Instant) :
    Answer.Rel (fun x y => y.1 = x.1 ∧ Alike σ x.2 y.2) (s.advanceRecord id status time)
      (t.advanceRecord (σ id) status time) := by
  obtain ⟨houtcome, hrecords⟩ := h.records.advance id status time
  rw [DeliveryState.advanceRecord, DeliveryState.advanceRecord, h.outages]
  refine (Answer.Rel.refl (fun _ => rfl) _).bind fun _ _ _ => ?_
  refine (Answer.Rel.refl (fun _ => rfl) _).bind fun _ _ _ => ?_
  split
  · exact .ok ⟨rfl, h⟩
  · exact .ok ⟨houtcome, { h.of_records hrecords with outages := rfl }⟩

theorem endWalk (h : Alike σ s t) (e : PendingEntry Walk) :
    Alike σ (s.endWalk e) (t.endWalk (e.renamed σ)) := by
  apply h.of_agenda
  rw [h.agenda, Agenda.finish_renamed]
  rfl

theorem awaitStage (h : Alike σ s t) (e : PendingEntry Walk) (stage : Stage) :
    Alike σ (s.awaitStage e stage) (t.awaitStage (e.renamed σ) stage) := by
  have hdraw := h.drawDelay (stage.delay s.settings)
  rw [DeliveryState.awaitStage, DeliveryState.awaitStage, h.delay]
  generalize s.drawDelay (stage.delay s.settings) = drawn at hdraw ⊢
  generalize t.drawDelay (stage.delay s.settings) = drawn' at hdraw ⊢
  obtain ⟨ms, u⟩ := drawn
  obtain ⟨ms', v⟩ := drawn'
  obtain ⟨rfl, hdrawn⟩ := hdraw
  have hturn := hdrawn.takeTurn e.work.turn ms'
  have hsame : (e.renamed σ).work = e.work := rfl
  dsimp only
  rw [hsame]
  generalize u.takeTurn e.work.turn ms' = waiting at hturn ⊢
  generalize v.takeTurn e.work.turn ms' = waiting' at hturn ⊢
  obtain ⟨turn, u⟩ := waiting
  obtain ⟨turn', v⟩ := waiting'
  obtain ⟨rfl, hwaits⟩ := hturn
  apply hwaits.of_agenda
  rw [hwaits.agenda, hwaits.now, Agenda.progress_renamed]
  rfl

theorem passStage (h : Alike σ s t) (e : PendingEntry Walk) (stage : Stage) :
    Alike σ (s.passStage e stage) (t.passStage (e.renamed σ) stage) := by
  have htold := h.emit (.ofStatus stage.status) e.campaign (some e.work.customerId)
    (some e.work.messageId)
  simp only [DeliveryState.passStage]
  cases stage.next? with
  | none => exact htold.endWalk e
  | some next => exact htold.awaitStage e next

theorem attemptStage (h : Alike σ s t) (e : PendingEntry Walk) (stage : Stage) :
    Alike σ (s.attemptStage e stage) (t.attemptStage (e.renamed σ) stage) := by
  have hchance := h.chance (stage.probability s.settings)
  rw [DeliveryState.attemptStage, DeliveryState.attemptStage, h.probability]
  generalize s.chance (stage.probability s.settings) = drawn at hchance ⊢
  generalize t.chance (stage.probability s.settings) = drawn' at hchance ⊢
  obtain ⟨hit, u⟩ := drawn
  obtain ⟨hit', v⟩ := drawn'
  obtain ⟨rfl, hdrawn⟩ := hchance
  dsimp only
  split
  · have hcall := hdrawn.advanceRecord e.record stage.status u.now
    have hrecord : (e.renamed σ).record = σ e.record := rfl
    have hnow : v.now = u.now := hdrawn.now
    rw [hrecord, hnow]
    generalize u.advanceRecord e.record stage.status u.now = answer at hcall ⊢
    generalize v.advanceRecord (σ e.record) stage.status u.now = answer' at hcall ⊢
    cases hcall with
    | error _ => exact hdrawn.endWalk e
    | ok related =>
      rename_i x y
      obtain ⟨outcome, u⟩ := x
      obtain ⟨outcome', v⟩ := y
      obtain ⟨rfl, hcalled⟩ := related
      cases outcome' with
      | applied => exact hcalled.passStage e stage
      | stale => exact hcalled.endWalk e
      | notFound => exact hcalled.endWalk e
  · exact hdrawn.endWalk e

theorem stepWalk (h : Alike σ s t) (e : PendingEntry Walk) :
    Alike σ (s.stepWalk e) (t.stepWalk (e.renamed σ)) := by
  have hprogress : (e.renamed σ).work.progress = e.work.progress := rfl
  rw [DeliveryState.stepWalk, DeliveryState.stepWalk, hprogress]
  cases e.work.progress with
  | scheduled _ => exact h.awaitStage e .delivered
  | waiting stage _ => exact h.attemptStage e stage

/-! ## Receipts, recounts and cancellations -/

theorem cancelAll (h : Alike σ s t) (id : Uuid) :
    Alike σ (s.cancelAll id).2 (t.cancelAll id).2 := by
  apply h.of_agenda
  rw [h.agenda]
  exact Agenda.cancelAll_renamed σ s.agenda id

theorem receive (h : Alike σ s t) (r : Receipt) :
    Answer.Rel (fun x y => y.1 = x.1 ∧ Alike σ x.2 y.2) (s.receive r) (t.receive r) := by
  have hfound : Answer.Rel (fun x y => y = x.map (·.renamed σ)) (s.findByMessage r.messageId)
      (t.findByMessage r.messageId) := by
    rw [DeliveryState.findByMessage, DeliveryState.findByMessage, h.outages]
    exact (Answer.Rel.refl (fun _ => rfl) _).bind fun _ _ _ =>
      .ok (h.records.findByMessage? r.messageId)
  rw [DeliveryState.receive, DeliveryState.receive, h.now]
  refine (Answer.Rel.refl (fun _ => rfl) r.validate).bind fun _ _ _ => ?_
  refine hfound.bind fun found _ hsame => ?_
  subst hsame
  cases found with
  | none => exact .error _
  | some record =>
    refine (h.advanceRecord record.id r.status (r.timestamp.getD s.now)).bind ?_
    rintro ⟨_, u⟩ ⟨outcome, v⟩ ⟨rfl, hmoved⟩
    cases outcome with
    | stale => exact .ok ⟨rfl, hmoved⟩
    | notFound => exact .error _
    | applied =>
      have hcancelled := hmoved.of_agenda (a := (u.agenda.cancel record.id).2)
        (b := (v.agenda.cancel (σ record.id)).2) (by rw [hmoved.agenda, Agenda.cancel_renamed])
      exact .ok ⟨rfl, hcancelled.emit .receiptApplied record.campaignId (some record.customerId)
        (some record.messageId)⟩

theorem findRecords (h : Alike σ s t) (f : RecordFilter) :
    Answer.Rel (fun x y => y.Perm (x.map (·.renamed σ))) (s.findRecords f) (t.findRecords f) := by
  rw [DeliveryState.findRecords, DeliveryState.findRecords, h.outages]
  exact (Answer.Rel.refl (fun _ => rfl) _).bind fun _ _ _ => .ok (h.records.find f)

theorem setStats (h : Alike σ s t) (id : Uuid) (stats : CampaignStats) :
    Answer.Rel (Alike σ) (s.setStats id stats) (t.setStats id stats) := by
  rw [DeliveryState.setStats, DeliveryState.setStats, h.outages, h.campaigns, h.now]
  refine (Answer.Rel.refl (fun _ => rfl) _).bind fun _ _ _ => ?_
  refine (Answer.Rel.refl (R := Eq) (fun _ => rfl) _).bind ?_
  rintro book _ rfl
  exact .ok { h.of_campaigns book with now := rfl, outages := rfl }

theorem recompute (h : Alike σ s t) (id : Uuid) :
    Answer.Rel (fun x y => y.1 = x.1 ∧ Alike σ x.2 y.2) (s.recompute id) (t.recompute id) := by
  have hfetch : t.fetchCampaign id = s.fetchCampaign id := by
    rw [fetchCampaign, fetchCampaign, h.outages, h.campaigns]
  rw [DeliveryState.recompute, DeliveryState.recompute, hfetch]
  refine (Answer.Rel.refl (R := Eq) (fun _ => rfl) _).bind ?_
  rintro found _ rfl
  cases found with
  | none => exact .error _
  | some campaign =>
    refine (h.findRecords (.campaign id)).bind fun records records' hperm => ?_
    have hstats : campaign.stats.refreshed records' = campaign.stats.refreshed records :=
      campaign.stats.refreshed_renamed hperm
    rw [hstats]
    exact (h.setStats id _).bind fun _ _ hset => .ok ⟨rfl, hset⟩

end Alike

end DeliveryState

end Outreach
