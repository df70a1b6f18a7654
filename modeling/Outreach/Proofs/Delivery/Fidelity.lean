import Outreach.Proofs.Delivery.Naming
import Outreach.Proofs.Delivery.Reports
import Outreach.Proofs.Delivery.Separation

/-!
# The stream of events tells what has happened

A recorder that captures is told once of every record that is created, as soon as its batch is
settled, and of nothing that was refused. The walk of a message tells of each stage that it passes.
How far it has come is what it has told so far, so the stages follow the announcement of the message
in their order, and none of them comes twice. A record is moved by a walk or by a receipt, and both
tell so then and only then. All this holds whatever else goes on, as long as no dispatch is aborted.
-/

namespace Outreach

/-! ## Streams seen from one message -/

/-- The event tells that a record has been moved. -/
def EventKind.isMove : EventKind → Bool
  | .messageDelivered | .messageOpened | .messageClicked | .receiptApplied => true
  | _ => false

namespace Report

/-- What is told of a message, apart from receipts. -/
def course (stream : List Report) (name : String) : List EventKind :=
  (stream.filter fun x => decide (x.messageId = some name ∧ x.type ≠ .receiptApplied)).map type

/-- How often it is told of a message that it has moved. -/
def moves (stream : List Report) (name : String) : Nat :=
  stream.countP fun x => decide (x.messageId = some name) && x.type.isMove

theorem course_append (stream later : List Report) (name : String) :
    course (stream ++ later) name = course stream name ++ course later name := by
  simp [course]

theorem moves_append (stream later : List Report) (name : String) :
    moves (stream ++ later) name = moves stream name + moves later name :=
  List.countP_append

theorem course_eq_nil {stream : List Report} {name : String}
    (h : ∀ x ∈ stream, x.messageId = some name → x.type = .receiptApplied) :
    course stream name = [] := by
  rw [course, List.map_eq_nil_iff, List.filter_eq_nil_iff]
  intro x hx
  simpa using h x hx

theorem mem_course {stream : List Report} {x : Report} (hx : x ∈ stream) {name : String}
    (named : x.messageId = some name) (told : x.type ≠ .receiptApplied) :
    x.type ∈ course stream name :=
  List.mem_map_of_mem (List.mem_filter.mpr ⟨hx, by simp [named, told]⟩)

theorem course_singleton (m : MessageRecord) {type : EventKind} (told : type ≠ .receiptApplied) :
    course [m.report type] m.messageId = [type] := by
  simp [course, MessageRecord.report, told]

end Report

theorem MessageRecord.announced_ne (m : MessageRecord) : m.announced ≠ .receiptApplied := by
  rw [announced]
  split <;> simp

/-- Where messages have names of their own, each is announced once. -/
theorem Report.course_announcements {settled : List MessageRecord}
    (distinct : (settled.map MessageRecord.messageId).Nodup) {m : MessageRecord}
    (hm : m ∈ settled) :
    course (settled.map MessageRecord.announcement) m.messageId = [m.announced] := by
  induction settled with
  | nil => cases hm
  | cons first rest ih =>
    rw [List.map_cons, List.nodup_cons] at distinct
    have hsplit := course_append [first.announcement] (rest.map MessageRecord.announcement)
      m.messageId
    rw [List.map_cons, ← List.singleton_append, hsplit]
    rcases List.mem_cons.mp hm with rfl | hrest
    · have hnone : course (rest.map MessageRecord.announcement) m.messageId = [] := by
        refine course_eq_nil fun x hx hname => ?_
        obtain ⟨other, hother, rfl⟩ := List.mem_map.mp hx
        exact absurd (List.mem_map.mpr ⟨other, hother, Option.some.inj hname⟩) distinct.1
      rw [hnone, MessageRecord.announcement, course_singleton m m.announced_ne, List.append_nil]
    · have hnone : course [first.announcement] m.messageId = [] := by
        refine course_eq_nil fun x hx hname => ?_
        rw [List.mem_singleton.mp hx] at hname
        refine absurd (List.mem_map.mpr ⟨m, hrest, ?_⟩) distinct.1
        exact (Option.some.inj hname).symm
      rw [hnone, ih distinct.2 hrest, List.nil_append]

/-! ## Stages -/

namespace WalkProgress

/-- The events of the stages that a walk has passed. -/
def passed : WalkProgress → List EventKind
  | .scheduled _ | .waiting .delivered _ => []
  | .waiting .opened _ => [.messageDelivered]
  | .waiting .clicked _ => [.messageDelivered, .messageOpened]

/-- The events of all stages, in order. -/
def stages : List EventKind := [.messageDelivered, .messageOpened, .messageClicked]

theorem passed_next {stage next : Stage} (follows : stage.next? = some next) (due later : Instant) :
    (waiting next later).passed = (waiting stage due).passed ++ [.ofStatus stage.status] := by
  cases stage <;> cases follows <;> rfl

theorem passed_append_prefix (stage : Stage) (due : Instant) :
    (waiting stage due).passed ++ [.ofStatus stage.status] <+: stages := by
  cases stage
  · exact ⟨[.messageOpened, .messageClicked], rfl⟩
  · exact ⟨[.messageClicked], rfl⟩
  · exact ⟨[], rfl⟩

end WalkProgress

/-- What may be told of a message whose batch is settled. -/
inductive MessageRecord.Told (m : MessageRecord) : List EventKind → Prop
  | failed (status : m.status = .failed) : Told m [.messageFailed]
  | sent (status : m.status = .queued) (stages : List EventKind)
      (initial : stages <+: WalkProgress.stages) : Told m (.messageQueued :: stages)

/-- A message is announced by what is told of it first. -/
theorem MessageRecord.Told.later {m : MessageRecord} {first later : List EventKind}
    (h : m.Told (first ++ later)) (some_first : first ≠ []) :
    ∀ type ∈ later, type ≠ .messageQueued ∧ type ≠ .messageFailed := by
  intro type htype
  obtain ⟨head, front, rfl⟩ := List.exists_cons_of_ne_nil some_first
  generalize hall : head :: front ++ later = all at h
  rw [List.cons_append] at hall
  cases h with
  | failed _ =>
    obtain ⟨_, hnone⟩ := List.cons_eq_cons.mp hall
    rw [(List.append_eq_nil_iff.mp hnone).2] at htype
    cases htype
  | sent _ stages initial =>
    obtain ⟨_, rfl⟩ := List.cons_eq_cons.mp hall
    have hstage := initial.subset (List.mem_append_right front htype)
    constructor
    · rintro rfl
      simp [WalkProgress.stages] at hstage
    · rintro rfl
      simp [WalkProgress.stages] at hstage

/-- The walk is the walk of a message. -/
structure PendingEntry.IsWalkOf (e : PendingEntry Walk) (m : MessageRecord) : Prop where
  record : e.record = m.id
  campaign : e.campaign = m.campaignId
  customer : e.work.customerId = m.customerId
  message : e.work.messageId = m.messageId

/-! ## Records by the names of their messages -/

theorem RecordBook.Indexed.eq_of_messageId {s : RecordBook} (h : s.Indexed)
    {m other : MessageRecord}
    (hm : m ∈ s.origins) (hother : other ∈ s.origins) (same : m.messageId = other.messageId) :
    m = other := by
  obtain ⟨q, hq, rfl⟩ := List.mem_map.mp hm
  obtain ⟨r, hr, rfl⟩ := List.mem_map.mp hother
  rw [List.inj_on_of_nodup_map h.distinct hq hr same]

/-- A record is created under a name that no record has. -/
theorem RecordBook.Indexed.free_of_create {s t : RecordBook} (h : s.Indexed) {r : MessageRecord}
    (created : s.create r = .ok t) : ∀ m ∈ s.origins, m.messageId ≠ r.messageId := by
  intro m hm hname
  obtain ⟨q, hq, rfl⟩ := List.mem_map.mp hm
  have hlisted := h.listed q hq
  rw [← q.origin_messageId, hname, (create_eq_ok.mp created).1] at hlisted
  cases hlisted

/-- A record begins as queued or failed. -/
theorem RecordBook.status_of_mem_origins {s : RecordBook} {m : MessageRecord} (hm : m ∈ s.origins) :
    m.status = .queued ∨ m.status = .failed := by
  obtain ⟨r, _, rfl⟩ := List.mem_map.mp hm
  rw [MessageRecord.origin]
  split
  · exact Or.inr rfl
  · exact Or.inl rfl

namespace Simulation

variable {s t : Simulation} {old : List MessageRecord}

/-- Tasks and records have names of their own, and walks and batches keep apart. -/
structure Separate (s : Simulation) : Prop where
  orderly : s.Orderly
  filed : s.Filed
  apart : s.Apart
  indexed : s.state.records.Indexed

theorem separate_act (h : s.Separate) (a : Action) : (s.act a).Separate :=
  ⟨orderly_act h.orderly a, filed_act h.orderly h.filed a, apart_act h.orderly h.apart a,
    indexed_act h.orderly h.indexed a⟩

theorem separate_ofState {start : DeliveryState} (idle : start.Idle)
    (indexed : start.records.Indexed) : (ofState start).Separate :=
  ⟨orderly_ofState idle, filed_ofState idle, apart_ofState idle, indexed⟩

/-! ## What has been told at any time -/

/-- What has been told so far. -/
def stream (s : Simulation) : List Report :=
  s.state.recorder.reports

/-- What has been told so far of the message of a record. -/
def courseOf (s : Simulation) (m : MessageRecord) : List EventKind :=
  Report.course s.stream m.messageId

/-- The record has been created by a batch that is not settled. -/
def InFlight (s : Simulation) (m : MessageRecord) : Prop :=
  ∃ r ∈ s.running, m ∈ r.dispatch.created

/-- What the stream has told of every record that has been created since there were only the old
ones. -/
structure Faithful (old : List MessageRecord) (s : Simulation) : Prop where
  captures : s.state.recorder.captures = true
  kept : old ⊆ s.state.records.origins
  /-- It is told of nothing but what is there. -/
  about : ∀ x ∈ s.stream, x.messageId.isSome →
    ∃ m ∈ s.state.records.origins, x = m.report x.type
  silent : ∀ m ∈ old, s.courseOf m = []
  inFlight : ∀ m, s.InFlight m → m ∉ old ∧ s.courseOf m = []
  settled : ∀ m ∈ s.state.records.origins, m ∈ old ∨ s.InFlight m ∨ m.Told (s.courseOf m)
  /-- A walk has told of the stages that it has passed. -/
  walking : ∀ e ∈ s.state.agenda.pending, ∃ m ∈ s.state.records.origins, e.IsWalkOf m ∧
    s.courseOf m = .messageQueued :: e.work.progress.passed

theorem faithful_ofState {start : DeliveryState} (idle : start.Idle)
    (capturing : start.recorder = .capturing) :
    (ofState start).Faithful start.records.origins := by
  have hstream : (ofState start).stream = [] := by
    rw [stream, ofState, capturing]
    rfl
  constructor
  · rw [ofState, capturing]
    rfl
  · exact List.Subset.refl _
  · rw [hstream]
    rintro x ⟨⟩
  · intro m _
    rw [courseOf, hstream]
    rfl
  · rintro m ⟨r, ⟨⟩, _⟩
  · intro m hm
    exact Or.inl hm
  · intro e he
    rw [ofState, idle.pending] at he
    cases he

/-- Whoever has been told of is in the book, so nothing has been told of a name that is free. -/
theorem Faithful.of_free (h : s.Faithful old) {x : Report} (hx : x ∈ s.stream) {name : String}
    (free : ∀ m ∈ s.state.records.origins, m.messageId ≠ name) : x.messageId ≠ some name := by
  intro hname
  obtain ⟨m, hm, he⟩ := h.about x hx (by rw [hname]; rfl)
  rw [he] at hname
  exact free m hm (Option.some.inj hname)

/-- A message that has been walked is neither an old one nor in flight. -/
theorem Faithful.told_of_queued (h : s.Faithful old) {m : MessageRecord}
    (hm : m ∈ s.state.records.origins) {stages : List EventKind}
    (course : s.courseOf m = .messageQueued :: stages) :
    m ∉ old ∧ ¬ s.InFlight m ∧ m.status = .queued := by
  have hold : m ∉ old := by
    intro hmem
    rw [h.silent m hmem] at course
    cases course
  have hbatch : ¬ s.InFlight m := by
    intro hflight
    rw [(h.inFlight m hflight).2] at course
    cases course
  refine ⟨hold, hbatch, ?_⟩
  have htold := ((h.settled m hm).resolve_left hold).resolve_left hbatch
  rw [course] at htold
  cases htold with
  | sent status => exact status

/-! ## Actions that tell of receipts at most -/

/-- The walk goes on from where the other one was, and has passed the same stages. -/
structure GoesOnAs (b e : PendingEntry Walk) : Prop where
  record : e.record = b.record
  campaign : e.campaign = b.campaign
  customer : e.work.customerId = b.work.customerId
  message : e.work.messageId = b.work.messageId
  passed : e.work.progress.passed = b.work.progress.passed

/-- Nothing is created or settled, no walk has passed a stage, and at most a receipt is told of. -/
structure Aside (s t : Simulation) (told : List Report) : Prop where
  tells : s.state.recorder.Tells t.state.recorder told
  receipts : ∀ x ∈ told, ∃ m ∈ s.state.records.origins, x = m.report .receiptApplied
  origins : t.state.records.origins = s.state.records.origins
  batches : ∀ m, t.InFlight m ↔ s.InFlight m
  walks : ∀ e ∈ t.state.agenda.pending, ∃ b ∈ s.state.agenda.pending, GoesOnAs b e

theorem Faithful.of_aside (h : s.Faithful old) {told : List Report} (aside : s.Aside t told) :
    t.Faithful old := by
  have hstream : t.stream = s.stream ++ told := aside.tells.reports h.captures
  have hcourse : ∀ m, t.courseOf m = s.courseOf m := by
    intro m
    have hnone : Report.course told m.messageId = [] := by
      refine Report.course_eq_nil fun x hx _ => ?_
      obtain ⟨q, _, rfl⟩ := aside.receipts x hx
      rfl
    rw [courseOf, hstream, Report.course_append, hnone, List.append_nil]
    rfl
  constructor
  · exact aside.tells.captures.trans h.captures
  · rw [aside.origins]
    exact h.kept
  · intro x hx named
    rw [aside.origins]
    rw [hstream] at hx
    rcases List.mem_append.mp hx with hold | hnew
    · exact h.about x hold named
    · obtain ⟨m, hm, rfl⟩ := aside.receipts x hnew
      exact ⟨m, hm, rfl⟩
  · intro m hm
    rw [hcourse]
    exact h.silent m hm
  · intro m hm
    rw [hcourse]
    exact h.inFlight m ((aside.batches m).mp hm)
  · intro m hm
    rw [hcourse, aside.batches m]
    rw [aside.origins] at hm
    exact h.settled m hm
  · intro e he
    obtain ⟨b, hb, goes⟩ := aside.walks e he
    obtain ⟨m, hm, walk, course⟩ := h.walking b hb
    rw [aside.origins]
    refine ⟨m, hm, ?_, ?_⟩
    · exact ⟨goes.record.trans walk.record, goes.campaign.trans walk.campaign,
        goes.customer.trans walk.customer, goes.message.trans walk.message⟩
    · rw [hcourse, course, goes.passed]

/-! ## Stages -/

/-- A report about one message adds to what has been told of it. -/
theorem courseOf_report {m : MessageRecord} {type : EventKind}
    (stream : t.stream = s.stream ++ [m.report type]) (told : type ≠ .receiptApplied) :
    t.courseOf m = s.courseOf m ++ [type] := by
  rw [courseOf, stream, Report.course_append, Report.course_singleton m told]
  rfl

/-- A report about one message adds nothing to what has been told of another one. -/
theorem courseOf_report_of_ne (sep : s.Separate) {m q : MessageRecord} {type : EventKind}
    (stream : t.stream = s.stream ++ [m.report type]) (hm : m ∈ s.state.records.origins)
    (hq : q ∈ s.state.records.origins) (other : q ≠ m) : t.courseOf q = s.courseOf q := by
  have hnone : Report.course [m.report type] q.messageId = [] := by
    refine Report.course_eq_nil fun x hx hname => ?_
    rw [List.mem_singleton.mp hx] at hname
    exact absurd (sep.indexed.eq_of_messageId hq hm (Option.some.inj hname).symm) other
  rw [courseOf, stream, Report.course_append, hnone, List.append_nil]
  rfl

/-- A walk that has passed a stage has told so, and of no other message. -/
theorem Faithful.of_passed (sep : s.Separate) (h : s.Faithful old) {e : PendingEntry Walk}
    (he : e ∈ s.state.agenda.pending) {stage : Stage} {due : Instant}
    (waited : e.work.progress = .waiting stage due) {u : DeliveryState}
    (told : s.state.recorder.Tells u.recorder
      [⟨.ofStatus stage.status, e.campaign, some e.work.customerId, some e.work.messageId⟩])
    (origins : u.records.origins = s.state.records.origins)
    (walks : ∀ b ∈ u.agenda.pending, (b ∈ s.state.agenda.pending ∧ b.ticket ≠ e.ticket) ∨
      ∃ next later turn, stage.next? = some next ∧
        b = { e with work := { e.work with progress := .waiting next later, turn } }) :
    Faithful old { s with state := u } := by
  obtain ⟨m, hm, walk, course⟩ := h.walking e he
  obtain ⟨hold, hbatch, hqueued⟩ := h.told_of_queued hm course
  rw [waited] at course
  have hreport : (⟨.ofStatus stage.status, e.campaign, some e.work.customerId,
      some e.work.messageId⟩ : Report) = m.report (.ofStatus stage.status) := by
    rw [walk.campaign, walk.customer, walk.message]
    rfl
  rw [hreport] at told
  have hstream : Simulation.stream { s with state := u } =
      s.stream ++ [m.report (.ofStatus stage.status)] := told.reports h.captures
  have hstage : EventKind.ofStatus stage.status ≠ .receiptApplied := by
    cases stage <;> simp [Stage.status, EventKind.ofStatus]
  have hself := courseOf_report hstream hstage
  rw [course, List.cons_append] at hself
  have hother : ∀ q ∈ s.state.records.origins, q ≠ m →
      Simulation.courseOf { s with state := u } q = s.courseOf q := fun q hq hne =>
    courseOf_report_of_ne sep hstream hm hq hne
  constructor
  · exact told.captures.trans h.captures
  · exact fun q hq => origins ▸ h.kept hq
  · intro x hx named
    rw [origins]
    rw [hstream] at hx
    rcases List.mem_append.mp hx with hx | hx
    · exact h.about x hx named
    · rw [List.mem_singleton.mp hx]
      exact ⟨m, hm, rfl⟩
  · intro q hq
    rw [hother q (h.kept hq) (by rintro rfl; exact hold hq)]
    exact h.silent q hq
  · intro q hq
    have hne : q ≠ m := by
      rintro rfl
      exact hbatch hq
    obtain ⟨r, hr, hcreated⟩ := hq
    rw [hother q (sep.filed.created r hr q hcreated) hne]
    exact h.inFlight q ⟨r, hr, hcreated⟩
  · intro q hq
    rw [origins] at hq
    by_cases hsame : q = m
    · rw [hsame, hself]
      exact Or.inr (Or.inr (.sent hqueued _ (WalkProgress.passed_append_prefix stage due)))
    · rw [hother q hq hsame]
      exact h.settled q hq
  · intro b hb
    rw [origins]
    rcases walks b hb with ⟨hpending, hticket⟩ | ⟨next, later, turn, follows, rfl⟩
    · obtain ⟨q, hq, hwalk, hcourse⟩ := h.walking b hpending
      have hne : q ≠ m := by
        rintro rfl
        have hsame := sep.apart.eq_of_record hpending he (hwalk.record.trans walk.record.symm)
        exact hticket (congrArg PendingEntry.ticket hsame)
      refine ⟨q, hq, hwalk, ?_⟩
      rw [hother q hq hne]
      exact hcourse
    · refine ⟨m, hm, ⟨walk.record, walk.campaign, walk.customer, walk.message⟩, ?_⟩
      rw [hself, ← WalkProgress.passed_next follows due later]

/-! ## Batches -/

theorem Apart.nodup_batch (h : s.Apart) {r : RunningDispatch} (hr : r ∈ s.running) :
    r.dispatch.batchIds.Nodup :=
  (List.nodup_flatMap.mp (List.nodup_append.mp h.distinct).2.1).1 r hr

theorem Apart.batch_disjoint (h : s.Apart) (o : s.Orderly) {q r : RunningDispatch}
    (hq : q ∈ s.running) (hr : r ∈ s.running) (other : q.ticket ≠ r.ticket) {id : Uuid}
    (hid : id ∈ r.dispatch.batchIds) : id ∉ q.dispatch.batchIds := by
  intro hmem
  have hperm := RunningDispatch.flatMap_perm o.tickets hr fun p => p.dispatch.batchIds
  have hnodup := hperm.nodup_iff.mp (List.nodup_append.mp h.distinct).2.1
  have hothers : id ∈ (s.running.filter fun p => p.ticket != r.ticket).flatMap
      fun p => p.dispatch.batchIds :=
    List.mem_flatMap.mpr ⟨q, List.mem_filter.mpr ⟨hq, by simpa using other⟩, hmem⟩
  exact (List.nodup_append.mp hnodup).2.2 id hid id hothers rfl

end Simulation

namespace Deed

variable {x : Deed} {m : MessageRecord}

/-- What a step settles or leaves in flight has been in flight before or is created by the step. -/
theorem mem_batch (x : Deed) : m ∈ x.settled ∨ m ∈ x.next.created ↔
    m ∈ x.dispatch.created ∨ x.created? = some m := by
  rw [← List.mem_append, x.settled_append, List.mem_append, Option.mem_toList]

theorem batch_subset (h : m ∈ x.settled ∨ m ∈ x.next.created) : m.id ∈ x.dispatch.batchIds := by
  rw [Dispatch.batchIds, List.mem_append]
  rcases x.mem_batch.mp h with hold | hnew
  · exact Or.inl (List.mem_map_of_mem hold)
  · rcases x.created_spec with ⟨hnone, _⟩ | ⟨created, huntried, hsome, _⟩
    · rw [hnew] at hnone
      cases hnone
    · cases hnew.symm.trans hsome
      exact Or.inr (List.mem_map_of_mem huntried)

/-- What a step settles and what it leaves in flight are different records. -/
theorem nodup_batch (distinct : x.dispatch.batchIds.Nodup) :
    ((x.settled ++ x.next.created).map MessageRecord.id).Nodup := by
  rw [x.settled_append]
  refine distinct.sublist ?_
  rw [List.map_append, Dispatch.batchIds, Dispatch.untriedIds]
  refine List.Sublist.append_left ?_ _
  rcases x.created_spec with ⟨hnone, _⟩ | ⟨created, huntried, hsome, _⟩
  · rw [hnone]
    exact List.nil_sublist _
  · rw [hsome]
    exact (List.singleton_sublist.mpr huntried).map MessageRecord.id

/-- Of a message a step tells only in announcing it. -/
theorem course_told (x : Deed) (name : String) : Report.course x.told name =
    Report.course (x.settled.map MessageRecord.announcement) name := by
  rw [told, Report.course_append, Report.course_eq_nil, List.nil_append]
  intro y hy hname
  obtain ⟨_, _, rfl⟩ := List.mem_map.mp hy
  cases hname

end Deed

namespace Simulation

variable {s t : Simulation} {old : List MessageRecord} {m : MessageRecord} {r : RunningDispatch}

theorem act_dispatch (present : s.dispatchAt? r.ticket = some r) :
    s.act (.work (.dispatch r.ticket)) =
      Simulation.replace { s with state := Deed.result ⟨s.state, r.dispatch⟩ }
        { r with dispatch := Deed.next ⟨s.state, r.dispatch⟩ } := by
  simp only [act, work, present]
  exact s.step_dispatch r

/-- Where a dispatch is replaced, what the new one holds is in flight, and what the others hold. -/
theorem inFlight_replace (hr : r ∈ s.running) (u : DeliveryState) (d : Dispatch) :
    (Simulation.replace { s with state := u } { r with dispatch := d }).InFlight m ↔
      m ∈ d.created ∨ ∃ q ∈ s.running, q.ticket ≠ r.ticket ∧ m ∈ q.dispatch.created := by
  constructor
  · rintro ⟨q, hq, hm⟩
    rcases mem_replace hq with rfl | ⟨hold, hother⟩
    · exact Or.inl hm
    · exact Or.inr ⟨q, hold, hother, hm⟩
  · rintro (hm | ⟨q, hq, hother, hm⟩)
    · refine ⟨_, mem_replace_self hr rfl ?_, hm⟩
      by_contra hended
      have hnone := Dispatch.batchIds_ended (by simpa using hended)
      rw [Dispatch.batchIds, List.append_eq_nil_iff, List.map_eq_nil_iff] at hnone
      exact List.not_mem_nil (hnone.1 ▸ hm)
    · exact ⟨q, mem_replace_of_ne hq hother, hm⟩

/-- A step leaves in flight what it has not settled. -/
theorem inFlight_stepped (present : s.dispatchAt? r.ticket = some r) :
    (s.act (.work (.dispatch r.ticket))).InFlight m ↔
      m ∈ (Deed.next ⟨s.state, r.dispatch⟩).created ∨
        ∃ q ∈ s.running, q.ticket ≠ r.ticket ∧ m ∈ q.dispatch.created := by
  rw [act_dispatch present]
  exact inFlight_replace (dispatchAt?_eq_some present).1 _ _

/-- Another order of a batch leaves it in flight. -/
theorem inFlight_rearranged (o : s.Orderly) (hr : r ∈ s.running) (untried : List MessageRecord)
    (tried : List (Option MessageRecord)) :
    (s.replace { r with dispatch := r.dispatch.rearrange untried tried }).InFlight m ↔
      s.InFlight m := by
  rw [inFlight_replace hr s.state, (r.dispatch.created_rearrange_perm untried tried).mem_iff]
  constructor
  · rintro (hm | ⟨q, hq, _, hm⟩)
    · exact ⟨r, hr, hm⟩
    · exact ⟨q, hq, hm⟩
  · rintro ⟨q, hq, hm⟩
    by_cases hticket : q.ticket = r.ticket
    · rw [List.inj_on_of_nodup_map o.tickets hq hr hticket] at hm
      exact Or.inl hm
    · exact Or.inr ⟨q, hq, hticket, hm⟩

/-- A step puts into the book what it creates. -/
theorem mem_origins_stepped (o : s.Orderly) (present : s.dispatchAt? r.ticket = some r) :
    m ∈ (s.act (.work (.dispatch r.ticket))).state.records.origins ↔
      Deed.created? ⟨s.state, r.dispatch⟩ = some m ∨ m ∈ s.state.records.origins := by
  have hperm := origins_act o (.work (.dispatch r.ticket))
  rw [createdBy_stepped present] at hperm
  rw [hperm.mem_iff, List.mem_append, Option.mem_toList]

/-- What a step settles or leaves in flight is in the book. -/
theorem batch_mem_origins (sep : s.Separate) (present : s.dispatchAt? r.ticket = some r)
    (hm : m ∈ Deed.settled ⟨s.state, r.dispatch⟩ ∨
      m ∈ (Deed.next ⟨s.state, r.dispatch⟩).created) :
    m ∈ (s.act (.work (.dispatch r.ticket))).state.records.origins := by
  rw [mem_origins_stepped sep.orderly present]
  rcases (Deed.mem_batch ⟨s.state, r.dispatch⟩).mp hm with hcreated | hnew
  · exact Or.inr (sep.filed.created r (dispatchAt?_eq_some present).1 m hcreated)
  · exact Or.inl hnew

/-- A step settles none of the records that stay in flight. -/
theorem notMem_settled_of_inFlight (sep : s.Separate) (present : s.dispatchAt? r.ticket = some r)
    (flight : (s.act (.work (.dispatch r.ticket))).InFlight m) :
    m ∉ Deed.settled ⟨s.state, r.dispatch⟩ := by
  intro hsettled
  have hr := (dispatchAt?_eq_some present).1
  rcases (inFlight_stepped present).mp flight with hnext | ⟨q, hq, other, hcreated⟩
  · have hdistinct := Deed.nodup_batch (x := ⟨s.state, r.dispatch⟩) (sep.apart.nodup_batch hr)
    rw [List.map_append, List.nodup_append] at hdistinct
    exact hdistinct.2.2 m.id (List.mem_map_of_mem hsettled) m.id (List.mem_map_of_mem hnext) rfl
  · refine sep.apart.batch_disjoint sep.orderly hq hr other
      (Deed.batch_subset (Or.inl hsettled)) ?_
    exact List.mem_append_left _ (List.mem_map_of_mem hcreated)

/-- Nothing has been told of a record that a step settles or leaves in flight. -/
theorem Faithful.of_batch (sep : s.Separate) (h : s.Faithful old)
    (present : s.dispatchAt? r.ticket = some r) (hm : m ∈ Deed.settled ⟨s.state, r.dispatch⟩ ∨
      m ∈ (Deed.next ⟨s.state, r.dispatch⟩).created) : m ∉ old ∧ s.courseOf m = [] := by
  rcases (Deed.mem_batch ⟨s.state, r.dispatch⟩).mp hm with hflight | hcreated
  · exact h.inFlight m ⟨r, (dispatchAt?_eq_some present).1, hflight⟩
  · have hfree : ∀ q ∈ s.state.records.origins, q.messageId ≠ m.messageId := by
      rcases Deed.created_spec ⟨s.state, r.dispatch⟩ with ⟨hnone, _⟩ | ⟨_, _, hsome, hcreate⟩
      · rw [hcreated] at hnone
        cases hnone
      · cases hcreated.symm.trans hsome
        exact sep.indexed.free_of_create hcreate
    constructor
    · intro hold
      exact hfree m (h.kept hold) rfl
    · exact Report.course_eq_nil fun x hx hname => absurd hname (h.of_free hx hfree)

theorem Faithful.stream_stepped (h : s.Faithful old) (present : s.dispatchAt? r.ticket = some r) :
    (s.act (.work (.dispatch r.ticket))).stream =
      s.stream ++ Deed.told ⟨s.state, r.dispatch⟩ := by
  rw [act_dispatch present]
  exact (Deed.tells ⟨s.state, r.dispatch⟩).reports h.captures

/-- What a step settles has been announced, and nothing else is told of it. -/
theorem Faithful.course_settled (sep : s.Separate) (h : s.Faithful old)
    (present : s.dispatchAt? r.ticket = some r) (hm : m ∈ Deed.settled ⟨s.state, r.dispatch⟩) :
    (s.act (.work (.dispatch r.ticket))).courseOf m = [m.announced] := by
  let x : Deed := ⟨s.state, r.dispatch⟩
  have hids := x.nodup_batch (sep.apart.nodup_batch (dispatchAt?_eq_some present).1)
  rw [List.map_append, List.nodup_append] at hids
  have hnames : (x.settled.map MessageRecord.messageId).Nodup := by
    refine List.Nodup.map_on ?_ hids.1.of_map
    intro a ha b hb same
    exact (separate_act sep _).indexed.eq_of_messageId (batch_mem_origins sep present (Or.inl ha))
      (batch_mem_origins sep present (Or.inl hb)) same
  have hcourse := Report.course_announcements hnames hm
  rw [← x.course_told] at hcourse
  rw [courseOf, h.stream_stepped present, Report.course_append, hcourse]
  exact congrArg (· ++ [m.announced]) (h.of_batch sep present (Or.inl hm)).2

/-- Of what a step does not settle it tells nothing. -/
theorem Faithful.course_unsettled (sep : s.Separate) (h : s.Faithful old)
    (present : s.dispatchAt? r.ticket = some r)
    (hm : m ∈ (s.act (.work (.dispatch r.ticket))).state.records.origins)
    (unsettled : m ∉ Deed.settled ⟨s.state, r.dispatch⟩) :
    (s.act (.work (.dispatch r.ticket))).courseOf m = s.courseOf m := by
  have hnone : Report.course (Deed.told ⟨s.state, r.dispatch⟩) m.messageId = [] := by
    rw [Deed.course_told]
    refine Report.course_eq_nil fun y hy hname => ?_
    obtain ⟨b, hb, rfl⟩ := List.mem_map.mp hy
    rw [← (separate_act sep _).indexed.eq_of_messageId (batch_mem_origins sep present (Or.inl hb))
      hm (Option.some.inj hname)] at unsettled
    exact absurd hb unsettled
  rw [courseOf, h.stream_stepped present, Report.course_append, hnone, List.append_nil]
  rfl

/-- Whatever a step creates or finds in flight is settled by it or stays in flight. -/
theorem Faithful.settled_stepped (sep : s.Separate) (h : s.Faithful old)
    (present : s.dispatchAt? r.ticket = some r)
    (hm : m ∈ (s.act (.work (.dispatch r.ticket))).state.records.origins) :
    m ∈ old ∨ (s.act (.work (.dispatch r.ticket))).InFlight m ∨
      m.Told ((s.act (.work (.dispatch r.ticket))).courseOf m) := by
  let x : Deed := ⟨s.state, r.dispatch⟩
  by_cases hset : m ∈ x.settled
  · right
    right
    rw [h.course_settled sep present hset, MessageRecord.announced]
    rcases RecordBook.status_of_mem_origins hm with hqueued | hfailed
    · rw [if_pos hqueued]
      exact .sent hqueued [] List.nil_prefix
    · rw [if_neg (by rw [hfailed]; simp)]
      exact .failed hfailed
  · rw [h.course_unsettled sep present hm hset]
    have hleft : m ∈ r.dispatch.created ∨ x.created? = some m →
        (s.act (.work (.dispatch r.ticket))).InFlight m := by
      intro hbatch
      exact (inFlight_stepped present).mpr
        (Or.inl ((x.mem_batch.mpr hbatch).resolve_left hset))
    rcases (mem_origins_stepped sep.orderly present).mp hm with hnew | hold
    · exact Or.inr (Or.inl (hleft (Or.inr hnew)))
    · rcases h.settled m hold with hkept | ⟨p, hp, hcreated⟩ | htold
      · exact Or.inl hkept
      · right
        left
        by_cases hticket : p.ticket = r.ticket
        · have hr := (dispatchAt?_eq_some present).1
          rw [List.inj_on_of_nodup_map sep.orderly.tickets hp hr hticket] at hcreated
          exact hleft (Or.inl hcreated)
        · exact (inFlight_stepped present).mpr (Or.inr ⟨p, hp, hticket, hcreated⟩)
      · exact Or.inr (Or.inr htold)

/-- The walks that a step begins have passed nothing yet. -/
theorem Faithful.walking_stepped (sep : s.Separate) (h : s.Faithful old)
    (present : s.dispatchAt? r.ticket = some r) {e : PendingEntry Walk}
    (he : e ∈ (s.act (.work (.dispatch r.ticket))).state.agenda.pending) :
    ∃ m ∈ (s.act (.work (.dispatch r.ticket))).state.records.origins, e.IsWalkOf m ∧
      (s.act (.work (.dispatch r.ticket))).courseOf m =
        .messageQueued :: e.work.progress.passed := by
  let x : Deed := ⟨s.state, r.dispatch⟩
  have hpending : e ∈ x.result.agenda.pending := by
    rw [act_dispatch present] at he
    exact he
  rcases x.mem_pending hpending with hold | ⟨m, hm, hqueued, hrecord, hcampaign, hcustomer,
    hmessage, hprogress⟩
  · obtain ⟨m, hm, walk, course⟩ := h.walking e hold
    have hne : m ∉ x.settled := by
      intro hset
      rw [(h.of_batch sep present (Or.inl hset)).2] at course
      cases course
    have hstays := (mem_origins_stepped sep.orderly present).mpr (Or.inr hm)
    refine ⟨m, hstays, walk, ?_⟩
    rw [h.course_unsettled sep present hstays hne, course]
  · refine ⟨m, batch_mem_origins sep present (Or.inl hm),
      ⟨hrecord, hcampaign, hcustomer, hmessage⟩, ?_⟩
    rw [h.course_settled sep present hm, MessageRecord.announced, if_pos hqueued, hprogress]
    rfl

/-- A step of a dispatch tells of what it settles, once for each record. -/
theorem Faithful.of_stepped (sep : s.Separate) (h : s.Faithful old)
    (present : s.dispatchAt? r.ticket = some r) :
    (s.act (.work (.dispatch r.ticket))).Faithful old := by
  let x : Deed := ⟨s.state, r.dispatch⟩
  have hstate : (s.act (.work (.dispatch r.ticket))).state = x.result := by
    rw [act_dispatch present]
    rfl
  have hstays : ∀ {q}, q ∈ s.state.records.origins →
      q ∈ (s.act (.work (.dispatch r.ticket))).state.records.origins := fun hq =>
    (mem_origins_stepped sep.orderly present).mpr (Or.inr hq)
  constructor
  · rw [hstate]
    exact x.tells.captures.trans h.captures
  · exact fun q hq => hstays (h.kept hq)
  · intro y hy named
    rw [h.stream_stepped present, List.mem_append] at hy
    rcases hy with hold | hnew
    · obtain ⟨q, hq, he⟩ := h.about y hold named
      exact ⟨q, hstays hq, he⟩
    · rcases List.mem_append.mp hnew with hmilestone | hannounced
      · obtain ⟨_, _, rfl⟩ := List.mem_map.mp hmilestone
        cases named
      · obtain ⟨q, hq, rfl⟩ := List.mem_map.mp hannounced
        exact ⟨q, batch_mem_origins sep present (Or.inl hq), rfl⟩
  · intro q hq
    have hne : q ∉ x.settled := fun hset => (h.of_batch sep present (Or.inl hset)).1 hq
    rw [h.course_unsettled sep present (hstays (h.kept hq)) hne]
    exact h.silent q hq
  · intro q hq
    have hne := notMem_settled_of_inFlight sep present hq
    rcases (inFlight_stepped present).mp hq with hnext | ⟨p, hp, _, hcreated⟩
    · rw [h.course_unsettled sep present (batch_mem_origins sep present (Or.inr hnext)) hne]
      exact h.of_batch sep present (Or.inr hnext)
    · rw [h.course_unsettled sep present (hstays (sep.filed.created p hp q hcreated)) hne]
      exact h.inFlight q ⟨p, hp, hcreated⟩
  · exact fun q hq => h.settled_stepped sep present hq
  · exact fun e he => h.walking_stepped sep present he

/-! ## All actions -/

theorem GoesOnAs.refl (e : PendingEntry Walk) : GoesOnAs e e :=
  ⟨rfl, rfl, rfl, rfl, rfl⟩

/-- What is told of receipts at most, and only takes walks off, is aside. -/
theorem aside_of_state {u : DeliveryState} {told : List Report}
    (tells : s.state.recorder.Tells u.recorder told)
    (receipts : ∀ x ∈ told, ∃ m ∈ s.state.records.origins, x = m.report .receiptApplied)
    (origins : u.records.origins = s.state.records.origins)
    (pending : u.agenda.pending ⊆ s.state.agenda.pending) :
    s.Aside { s with state := u } told :=
  ⟨tells, receipts, origins, fun _ => Iff.rfl, fun e he => ⟨e, pending he, .refl e⟩⟩

theorem aside_of_silent {u : DeliveryState} (silent : u.recorder = s.state.recorder)
    (origins : u.records.origins = s.state.records.origins)
    (pending : u.agenda.pending ⊆ s.state.agenda.pending) : s.Aside { s with state := u } [] := by
  refine aside_of_state (.of_eq silent) ?_ origins pending
  rintro x ⟨⟩

theorem aside_of_running {running : List RunningDispatch}
    (batches : ∀ m, InFlight { s with running } m ↔ s.InFlight m) :
    s.Aside { s with running } [] := by
  refine ⟨.of_eq rfl, ?_, rfl, batches, fun e he => ⟨e, he, .refl e⟩⟩
  rintro x ⟨⟩

/-- A dispatch that begins has nothing in flight. -/
theorem aside_begun (campaign : Uuid) (recipients : List String) :
    s.Aside (s.dispatchInBackground campaign recipients) [] := by
  refine ⟨.of_eq rfl, ?_, rfl, ?_, fun e he => ⟨e, he, .refl e⟩⟩
  · rintro x ⟨⟩
  · intro m
    constructor
    · rintro ⟨r, hr, hm⟩
      rcases List.mem_append.mp hr with hold | hnew
      · exact ⟨r, hold, hm⟩
      · rw [List.mem_singleton.mp hnew] at hm
        cases hm
    · rintro ⟨r, hr, hm⟩
      exact ⟨r, List.mem_append_left _ hr, hm⟩

theorem inFlight_unregister (campaign : Uuid) :
    (s.unregister campaign).InFlight m ↔ s.InFlight m := by
  constructor
  · rintro ⟨r, hr, hm⟩
    obtain ⟨q, hq, rfl⟩ := List.mem_map.mp hr
    refine ⟨q, hq, ?_⟩
    split at hm <;> exact hm
  · rintro ⟨r, hr, hm⟩
    refine ⟨_, List.mem_map_of_mem hr, ?_⟩
    split <;> exact hm

theorem faithful_walked (sep : s.Separate) (h : s.Faithful old) {e : PendingEntry Walk}
    (he : e ∈ s.state.agenda.pending) {u : DeliveryState}
    (step : DeliveryState.WalkStep s.state e u) : Faithful old { s with state := u } := by
  have hprogress : ∀ {work : Walk}, ∀ b ∈ (s.state.agenda.progress e.ticket work).pending,
      (b ∈ s.state.agenda.pending ∧ b.ticket ≠ e.ticket) ∨ b = { e with work } := by
    intro work b hb
    rcases Agenda.mem_progress hb with hold | ⟨c, hc, hticket, rfl⟩
    · exact Or.inl hold
    · rw [sep.orderly.agenda.eq_of_ticket hc he hticket]
      exact Or.inr rfl
  cases step with
  | begun since due turn at_start kept agenda _ silent =>
    refine h.of_aside (show s.Aside _ [] from ⟨.of_eq silent, ?_, ?_, fun _ => Iff.rfl, ?_⟩)
    · rintro x ⟨⟩
    · exact congrArg RecordBook.origins kept.records
    · intro b hb
      simp only [agenda] at hb
      rcases hprogress b hb with ⟨hold, _⟩ | rfl
      · exact ⟨b, hold, .refl b⟩
      · refine ⟨e, he, rfl, rfl, rfl, rfl, ?_⟩
        rw [at_start]
        rfl
  | missed _ _ _ kept agenda silent =>
    refine h.of_aside (aside_of_silent silent ?_ ?_)
    · exact congrArg RecordBook.origins kept.records
    · rw [agenda]
      exact List.filter_sublist.subset
  | refused stage _ _ advanced agenda _ silent =>
    refine h.of_aside (aside_of_silent silent ?_ ?_)
    · rw [advanced.records]
      exact RecordBook.origins_advance _ _ _ _
    · rw [agenda]
      exact List.filter_sublist.subset
  | passed stage due waited _ advanced agenda told =>
    refine h.of_passed sep he waited told ?_ ?_
    · rw [advanced.records]
      exact RecordBook.origins_advance _ _ _ _
    · intro b hb
      rcases agenda with ⟨_, agenda⟩ | ⟨next, later, turn, follows, _, agenda⟩
      · rw [agenda] at hb
        obtain ⟨hold, hticket⟩ := List.mem_filter.mp hb
        exact Or.inl ⟨hold, by simpa using hticket⟩
      · rw [agenda] at hb
        exact (hprogress b hb).imp_right fun he => ⟨next, later, turn, follows, he⟩

theorem faithful_delivered (h : s.Faithful old) {receipt : Receipt} {record : MessageRecord}
    (known : record.origin ∈ s.state.records.origins) {outcome : Outcome} {u : DeliveryState}
    (answered : s.state.deliver receipt record = .ok (outcome, u)) :
    Faithful old { s with state := u } := by
  obtain ⟨_, advanced, hagenda⟩ := DeliveryState.deliver_ok answered
  refine h.of_aside (aside_of_state (DeliveryState.deliver_tells answered) ?_ ?_ ?_)
  · intro x hx
    split at hx
    · exact ⟨record.origin, known, List.mem_singleton.mp hx⟩
    · cases hx
  · rw [advanced.records]
    exact RecordBook.origins_advance _ _ _ _
  · rcases hagenda with ⟨_, hcancel⟩ | ⟨_, hsame⟩
    · rw [hcancel]
      exact List.filter_sublist.subset
    · rw [hsame]
      exact List.Subset.refl _

/-- What a receipt is found to belong to is in the book. -/
theorem origin_of_findByMessage {receipt : Receipt} {record : MessageRecord}
    (found : s.state.findByMessage receipt.messageId = .ok (some record)) :
    record.origin ∈ s.state.records.origins := by
  simp only [DeliveryState.findByMessage, Answer.bind_eq_ok] at found
  obtain ⟨_, _, hfound⟩ := found
  obtain ⟨id, _, hget⟩ := Option.bind_eq_some_iff.mp (Answer.pure_eq_ok.mp hfound)
  exact List.mem_map_of_mem (Sorted.get?_eq_some hget).1

/-- A receipt is applied only to what is in the book. -/
def Action.Founded (s : Simulation) (a : Action) : Prop :=
  ∀ receipt record, a = .deliver receipt record → record.origin ∈ s.state.records.origins

theorem faithful_act (sep : s.Separate) (h : s.Faithful old) {a : Action}
    (founded : Action.Founded s a) (kept : ∀ campaign, a ≠ .drop campaign) :
    (s.act a).Faithful old := by
  cases hacted : s.acted a with
  | walked e present _ step state =>
    rw [state]
    exact faithful_walked sep h (walkAt?_eq_some present).1 step
  | stepped r present by_action _ _ =>
    rw [by_action]
    exact h.of_stepped sep present
  | rearranged r present untried tried _ state =>
    rw [state]
    exact h.of_aside (aside_of_running fun _ =>
      inFlight_rearranged sep.orderly (dispatchAt?_eq_some present).1 untried tried)
  | begun campaign recipients _ state =>
    rw [state]
    exact h.of_aside (aside_begun campaign recipients)
  | delivered receipt record outcome u answered by_action state =>
    rw [state]
    refine faithful_delivered h ?_ answered
    rcases by_action with hdeliver | ⟨_, found, _⟩
    · exact founded receipt record hdeliver
    · exact origin_of_findByMessage found
  | unregistered campaign _ state =>
    rw [state]
    exact h.of_aside (aside_of_running fun _ => inFlight_unregister campaign)
  | dropped campaign by_action _ => exact absurd by_action (kept campaign)
  | idle _ state =>
    rw [state]
    exact h
  | cancelled campaign _ state =>
    rw [state]
    have hpending := s.state.agenda.pending_cancelAll_sublist campaign
    exact h.of_aside (aside_of_silent rfl rfl hpending.subset)
  | aborted _ _ state =>
    rw [state]
    exact h.of_aside (aside_of_silent rfl rfl List.filter_sublist.subset)
  | moved _ _ _ state | recounted _ _ _ _ _ _ state | disturbed _ _ state | issued _ state
  | entered _ _ state | deleted _ _ state =>
    rw [state]
    exact h.of_aside (aside_of_silent rfl rfl (List.Subset.refl _))

/-- Every receipt of the run is applied to what is in the book. -/
def Grounded (s : Simulation) (actions : List Action) : Prop :=
  ∀ first a rest, actions = first ++ a :: rest → Action.Founded (s.run first) a

theorem Grounded.of_append {first later : List Action} (h : s.Grounded (first ++ later)) :
    s.Grounded first := by
  intro front a rest split
  refine h front a (rest ++ later) ?_
  rw [split, List.append_assoc, List.cons_append]

theorem Grounded.tail {a : Action} {rest : List Action} (h : s.Grounded (a :: rest)) :
    (s.act a).Grounded rest := by
  intro front b later split
  refine h (a :: front) b later ?_
  rw [split, List.cons_append]

/-- What receipts are applied to has been looked up before, by the names of their messages. -/
def LooksUp (s : Simulation) (actions : List Action) : Prop :=
  ∀ first receipt record rest, actions = first ++ .deliver receipt record :: rest →
    ∃ earlier, earlier <+: first ∧
      (s.run earlier).state.findByMessage receipt.messageId = .ok (some record)

theorem looksUp_of_notMem {actions : List Action}
    (none : ∀ receipt record, .deliver receipt record ∉ actions) : s.LooksUp actions := by
  rintro first receipt record rest rfl
  exact absurd (List.mem_append_right first List.mem_cons_self) (none receipt record)

theorem LooksUp.concat {actions earlier : List Action} (h : s.LooksUp actions)
    (before : earlier <+: actions) {receipt : Receipt} {record : MessageRecord}
    (found : (s.run earlier).state.findByMessage receipt.messageId = .ok (some record)) :
    s.LooksUp (actions ++ [.deliver receipt record]) := by
  intro first receipt' record' rest split
  rcases List.eq_nil_or_concat rest with rfl | ⟨front, last, rfl⟩
  · obtain ⟨rfl, hlast⟩ := List.append_inj' split rfl
    cases hlast
    exact ⟨earlier, before, found⟩
  · rw [List.concat_eq_append, ← List.cons_append, ← List.append_assoc] at split
    obtain ⟨hfirst, -⟩ := List.append_inj' split rfl
    exact h first receipt' record' front hfirst

theorem LooksUp.grounded (o : s.Orderly) {actions : List Action} (h : s.LooksUp actions) :
    s.Grounded actions := by
  rintro first a rest rfl receipt record rfl
  obtain ⟨earlier, ⟨later, rfl⟩, found⟩ := h first receipt record rest rfl
  rw [run_append]
  exact origins_mono (orderly_run o earlier) later (origin_of_findByMessage found)

/-- The stream tells what has happened, and so it will throughout the run. -/
structure Narrated (s : Simulation) (old : List MessageRecord) (actions : List Action) :
    Prop where
  separate : s.Separate
  faithful : s.Faithful old
  grounded : s.Grounded actions
  kept : ∀ campaign, .drop campaign ∉ actions

theorem Narrated.founded {a : Action} {rest : List Action} (h : s.Narrated old (a :: rest)) :
    Action.Founded s a :=
  h.grounded [] a rest rfl

theorem Narrated.tail {a : Action} {rest : List Action} (h : s.Narrated old (a :: rest)) :
    (s.act a).Narrated old rest := by
  constructor
  · exact separate_act h.separate a
  · refine faithful_act h.separate h.faithful h.founded ?_
    rintro campaign rfl
    exact h.kept campaign List.mem_cons_self
  · exact h.grounded.tail
  · intro campaign hmem
    exact h.kept campaign (List.mem_cons_of_mem a hmem)

theorem Narrated.front {first later : List Action} (h : s.Narrated old (first ++ later)) :
    s.Narrated old first := by
  refine ⟨h.separate, h.faithful, h.grounded.of_append, ?_⟩
  intro campaign hmem
  exact h.kept campaign (List.mem_append_left later hmem)

theorem Narrated.after {first later : List Action} (h : s.Narrated old (first ++ later)) :
    (s.run first).Narrated old later := by
  induction first generalizing s with
  | nil => exact h
  | cons a rest ih => exact ih h.tail

theorem Narrated.run {actions : List Action} (h : s.Narrated old actions) :
    (s.run actions).Narrated old [] := by
  rw [← List.append_nil actions] at h
  exact h.after

end Simulation

end Outreach
