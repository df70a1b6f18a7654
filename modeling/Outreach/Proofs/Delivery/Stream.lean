import Outreach.Proofs.Delivery.Fidelity
import Outreach.Proofs.Delivery.Supersession

/-!
# What the stream of a run consists of

Nothing is told but by a step of a dispatch and by a move of a record. So the moves that have been
told of a message are as many as its record has made, and what is told of a campaign as a whole is
told by its dispatches. A dispatch tells once that its campaign is being processed, before anything
is told of its messages, and once at most how it has ended. From then on none of them is announced
any more.
-/

namespace Outreach

/-- Something that has been told, with the ticket of the dispatch whose step has told it. -/
structure Utterance where
  speaker : Option Nat
  report : Report
  deriving DecidableEq

/-- What the steps of one dispatch have told. -/
def Utterance.own (told : List Utterance) (ticket : Nat) : List Report :=
  (told.filter fun x => decide (x.speaker = some ticket)).map report

theorem Utterance.own_append (told later : List Utterance) (ticket : Nat) :
    own (told ++ later) ticket = own told ticket ++ own later ticket := by
  simp [own]

theorem Utterance.own_map (told : List Report) (ticket : Nat) :
    own (told.map (mk (some ticket))) ticket = told := by
  simp [own, List.filter_map, Function.comp_def]

theorem Utterance.own_subset (told : List Utterance) (ticket : Nat) :
    own told ticket ⊆ told.map report :=
  List.map_subset _ (List.filter_subset_self _)

theorem Utterance.own_eq_nil {told : List Utterance} {ticket : Nat}
    (h : ∀ x ∈ told, x.speaker ≠ some ticket) : own told ticket = [] := by
  rw [own, List.map_eq_nil_iff, List.filter_eq_nil_iff]
  intro x hx
  simpa using h x hx

/-- The dispatch that an action steps. -/
def Action.speaker? : Action → Option Nat
  | .work (.dispatch ticket) => some ticket
  | _ => none

namespace Simulation

variable {s : Simulation} {old : List MessageRecord}

/-! ## Moves -/

/-- The record is there, and the action changes it. -/
def moves (s : Simulation) (id : Uuid) (a : Action) : Bool :=
  (s.state.records.get? id).any fun r => (s.act a).state.records.get? id != some r

/-- How often a record changes in a run. -/
def transitions (id : Uuid) : Simulation → List Action → Nat
  | _, [] => 0
  | s, a :: rest => (s.moves id a).toNat + transitions id (s.act a) rest

theorem moves_eq_false {id : Uuid} {a : Action}
    (same : ∀ r, s.state.records.get? id = some r →
      (s.act a).state.records.get? id = some r) : s.moves id a = false := by
  rw [moves]
  cases hget : s.state.records.get? id with
  | none => rfl
  | some r => simp [same r hget]

/-- Records change where a request to move them is applied, and nowhere else. -/
theorem moves_iff_applied (o : s.Orderly) (id : Uuid) (a : Action) :
    s.moves id a = true ↔ ∃ status time, (s.state.records.advance id status time).1 = .applied ∧
      (s.act a).state.records = (s.state.records.advance id status time).2 := by
  constructor
  · intro hmoves
    by_contra hnone
    refine Bool.false_ne_true ((moves_eq_false fun r hget => ?_).symm.trans hmoves)
    cases recorded_act s a with
    | same _ book => rwa [book]
    | moved _ other status time book =>
      by_cases hid : id = other
      · subst hid
        rw [book]
        cases houtcome : (s.state.records.advance id status time).1 with
        | applied => exact absurd ⟨status, time, houtcome, book⟩ hnone
        | stale =>
          have distinct := (List.nodup_append.mp o.reserved.distinct).1
          rwa [RecordBook.advance_stale distinct houtcome]
        | notFound => rwa [RecordBook.advance_notFound houtcome]
      · rw [book, RecordBook.get?_advance, if_neg hid]
        exact hget
    | created q present _ m untried _ book =>
      have hid : m.id ≠ id := by
        obtain ⟨hmem, rfl⟩ := Sorted.get?_eq_some hget
        exact fun he => o.fresh (dispatchAt?_eq_some present).1 untried r hmem he.symm
      rwa [RecordBook.get?_create_of_ne book hid]
  · rintro ⟨status, time, happlied, hbook⟩
    obtain ⟨r, hget, hr⟩ := RecordBook.get?_of_applied happlied
    have hne : (r.advance status time).2 ≠ r := by
      rcases r.advance_cases status time with he | ⟨current, target, hc, ht, hlt, he⟩
      · rw [he] at hr
        cases hr
      · rw [he]
        intro hsame
        have hstatus : status = r.status := congrArg MessageRecord.status hsame
        rw [hstatus, hc] at ht
        have hranks := Option.some.inj ht
        omega
    simp [moves, hget, hbook, RecordBook.get?_advance_self hget, hne]

/-- An action that advances a record moves this one only. -/
theorem moves_of_applied (o : s.Orderly) {a : Action} {id : Uuid} {status : DeliveryStatus}
    {time : Instant} (applied : (s.state.records.advance id status time).1 = .applied)
    (book : (s.act a).state.records = (s.state.records.advance id status time).2) (j : Uuid) :
    s.moves j a = decide (j = id) := by
  by_cases hsame : j = id
  · rw [hsame, (moves_iff_applied o id a).mpr ⟨status, time, applied, book⟩]
    simp
  · rw [moves_eq_false, decide_eq_false hsame]
    intro r hget
    rwa [book, RecordBook.get?_advance_of_ne hsame]

theorem moves_of_same {a : Action} (book : (s.act a).state.records = s.state.records) (j : Uuid) :
    s.moves j a = false :=
  moves_eq_false fun _ hget => by rwa [book]

/-- A step of a dispatch changes no record that is there. -/
theorem moves_stepped (o : s.Orderly) {r : RunningDispatch}
    (present : s.dispatchAt? r.ticket = some r) (j : Uuid) :
    s.moves j (.work (.dispatch r.ticket)) = false := by
  have hbook : (s.act (.work (.dispatch r.ticket))).state.records =
      (Deed.result ⟨s.state, r.dispatch⟩).records := by
    rw [act_dispatch present]
    rfl
  rcases Deed.created_spec ⟨s.state, r.dispatch⟩ with ⟨_, hsame⟩ | ⟨m, untried, _, hcreate⟩
  · exact moves_of_same (hbook.trans hsame) j
  · refine moves_eq_false fun q hget => ?_
    obtain ⟨hq, rfl⟩ := Sorted.get?_eq_some hget
    have hne : m.id ≠ q.id :=
      fun he => o.fresh (dispatchAt?_eq_some present).1 untried q hq he.symm
    rw [hbook, RecordBook.get?_create_of_ne hcreate hne]
    exact hget

/-! ## What actions tell -/

/-- What an action tells: nothing, the move of a record, or what the step of a dispatch tells. -/
inductive Utters (s : Simulation) (a : Action) : Prop
  | silent (stream : (s.act a).stream = s.stream) (unmoved : ∀ id, s.moves id a = false)
  | moved (m : MessageRecord) (there : m ∈ s.state.records.origins) (type : EventKind)
      (move : type.isMove = true) (stream : (s.act a).stream = s.stream ++ [m.report type])
      (alone : ∀ id, s.moves id a = decide (id = m.id))
  | stepped (r : RunningDispatch) (present : s.dispatchAt? r.ticket = some r)
      (by_action : a = .work (.dispatch r.ticket))

theorem utters_walked (sep : s.Separate) (h : s.Faithful old) {a : Action} {e : PendingEntry Walk}
    (he : e ∈ s.state.agenda.pending) (step : DeliveryState.WalkStep s.state e (s.act a).state) :
    s.Utters a := by
  have hsilent : (s.act a).state.recorder = s.state.recorder → (s.act a).stream = s.stream :=
    congrArg EventRecorder.reports
  cases step with
  | begun _ _ _ _ kept _ _ silent => exact .silent (hsilent silent) (moves_of_same kept.records)
  | missed _ _ _ kept _ silent => exact .silent (hsilent silent) (moves_of_same kept.records)
  | refused stage _ _ advanced _ unmoved silent =>
    refine .silent (hsilent silent) (moves_of_same ?_)
    rw [advanced.records]
    cases houtcome : (s.state.records.advance e.record stage.status s.now).1 with
    | applied => exact absurd houtcome unmoved
    | stale =>
      exact RecordBook.advance_stale (List.nodup_append.mp sep.orderly.reserved.distinct).1
        houtcome
    | notFound => exact RecordBook.advance_notFound houtcome
  | passed stage due _ applied advanced _ told =>
    obtain ⟨m, hm, walk, _⟩ := h.walking e he
    refine .moved m hm (.ofStatus stage.status) ?_ ?_ ?_
    · cases stage <;> rfl
    · refine (told.reports h.captures).trans ?_
      rw [walk.campaign, walk.customer, walk.message]
      rfl
    · rw [← walk.record]
      exact moves_of_applied sep.orderly applied advanced.records

theorem utters_delivered (sep : s.Separate) (h : s.Faithful old) {a : Action} {receipt : Receipt}
    {record : MessageRecord} (known : record.origin ∈ s.state.records.origins) {outcome : Outcome}
    (answered : s.state.deliver receipt record = .ok (outcome, (s.act a).state)) :
    s.Utters a := by
  obtain ⟨houtcome, advanced, hagenda⟩ := DeliveryState.deliver_ok answered
  have htold := (DeliveryState.deliver_tells answered).reports h.captures
  rcases hagenda with ⟨rfl, _⟩ | ⟨rfl, _⟩
  · exact .moved record.origin known .receiptApplied rfl htold
      (moves_of_applied sep.orderly houtcome.symm advanced.records)
  · refine .silent (htold.trans (List.append_nil _)) (moves_of_same ?_)
    rw [advanced.records]
    exact RecordBook.advance_stale (List.nodup_append.mp sep.orderly.reserved.distinct).1
      houtcome.symm

theorem utters_act (sep : s.Separate) (h : s.Faithful old) {a : Action}
    (founded : Action.Founded s a) : s.Utters a := by
  cases s.acted a with
  | walked e present _ step state =>
    refine utters_walked sep h (walkAt?_eq_some present).1 ?_
    rwa [state]
  | stepped r present by_action _ _ => exact .stepped r present by_action
  | delivered receipt record outcome u answered by_action state =>
    have hanswered : s.state.deliver receipt record = .ok (outcome, (s.act a).state) := by
      rwa [state]
    refine utters_delivered sep h ?_ hanswered
    rcases by_action with hdeliver | ⟨_, found, _⟩
    · exact founded receipt record hdeliver
    · exact origin_of_findByMessage found
  | idle _ state | rearranged _ _ _ _ _ state | moved _ _ _ state | begun _ _ _ state
  | recounted _ _ _ _ _ _ state | cancelled _ _ state | aborted _ _ state | unregistered _ _ state
  | dropped _ _ state | disturbed _ _ state | issued _ state | entered _ _ state
  | deleted _ _ state =>
    exact .silent ((congrArg stream state).trans rfl)
      (moves_of_same ((congrArg (fun u => u.state.records) state).trans rfl))

theorem Orderly.eq_of_origin_id (o : s.Orderly) {m other : MessageRecord}
    (hm : m ∈ s.state.records.origins) (hother : other ∈ s.state.records.origins)
    (same : m.id = other.id) : m = other := by
  obtain ⟨q, hq, rfl⟩ := List.mem_map.mp hm
  obtain ⟨r, hr, rfl⟩ := List.mem_map.mp hother
  rw [List.inj_on_of_nodup_map (List.nodup_append.mp o.reserved.distinct).1 hq hr same]

/-- How often it has been told that the message of a record has moved. -/
def movesTold (s : Simulation) (id : Uuid) : Nat :=
  ((s.state.records.get? id).map fun r => Report.moves s.stream r.messageId).getD 0

/-- A record that is there stays, with the name of its message. -/
theorem exists_get?_act (o : s.Orderly) {id : Uuid} {r : MessageRecord}
    (hget : s.state.records.get? id = some r) (a : Action) :
    ∃ q, (s.act a).state.records.get? id = some q ∧ q.messageId = r.messageId := by
  obtain ⟨hr, rfl⟩ := Sorted.get?_eq_some hget
  obtain ⟨q, hq, he⟩ := List.mem_map.mp (origins_subset_act o a (List.mem_map_of_mem hr))
  have hid : q.id = r.id := by rw [← q.origin_id, he, r.origin_id]
  refine ⟨q, ?_, by rw [← q.origin_messageId, he, r.origin_messageId]⟩
  rw [← hid]
  exact (orderly_act o a).get?_of_mem hq

/-- Nothing has been told of a name that no record has. -/
theorem Faithful.moves_of_free (h : s.Faithful old) {name : String}
    (free : ∀ m ∈ s.state.records.origins, m.messageId ≠ name) :
    Report.moves s.stream name = 0 := by
  rw [Report.moves, List.countP_eq_zero]
  intro x hx
  simp [h.of_free hx free]

/-- A step of a dispatch tells of no moves. -/
theorem Deed.moves_told (x : Deed) (name : String) : Report.moves x.told name = 0 := by
  rw [Report.moves, List.countP_eq_zero]
  intro y hy
  rcases List.mem_append.mp hy with hmilestone | hannounced
  · obtain ⟨_, _, rfl⟩ := List.mem_map.mp hmilestone
    simp [Report.milestone]
  · obtain ⟨m, _, rfl⟩ := List.mem_map.mp hannounced
    have hstill : m.announced.isMove = false := by
      rw [MessageRecord.announced]
      split <;> rfl
    simp [MessageRecord.announcement, MessageRecord.report, hstill]

/-- A record that an action has put into the book has been created under a free name. -/
theorem free_of_created (sep : s.Separate) {a : Action} {id : Uuid} {q : MessageRecord}
    (absent : s.state.records.get? id = none)
    (present : (s.act a).state.records.get? id = some q) :
    ∀ m ∈ s.state.records.origins, m.messageId ≠ q.messageId := by
  cases recorded_act s a with
  | same _ book =>
    rw [book, absent] at present
    cases present
  | moved _ other status time book =>
    rw [book, RecordBook.get?_advance, absent] at present
    split at present <;> cases present
  | created r _ _ m _ _ book =>
    obtain ⟨hq, rfl⟩ := Sorted.get?_eq_some present
    rcases RecordBook.mem_records_create book hq with rfl | hold
    · exact sep.indexed.free_of_create book
    · exact absurd rfl (Sorted.get?_eq_none.mp absent q hold)

/-- Every move of a record is told of once, as it happens. -/
theorem movesTold_act (sep : s.Separate) (h : s.Faithful old) {a : Action}
    (founded : Action.Founded s a) (id : Uuid) :
    (s.act a).movesTold id = s.movesTold id + (s.moves id a).toNat := by
  cases hget : s.state.records.get? id with
  | none =>
    have hstill : s.moves id a = false := by rw [moves, hget]; rfl
    cases hnew : (s.act a).state.records.get? id with
    | none => simp [movesTold, hget, hnew, hstill]
    | some q =>
      have hfree := free_of_created sep hget hnew
      have hbefore := h.moves_of_free hfree
      cases utters_act sep h founded with
      | silent stream _ => simp [movesTold, hget, hnew, hstill, stream, hbefore]
      | stepped p present by_action =>
        subst by_action
        simp [movesTold, hget, hnew, hstill, h.stream_stepped present, Report.moves_append,
          hbefore, Deed.moves_told]
      | moved m there type _ stream _ =>
        have hother : Report.moves [m.report type] q.messageId = 0 := by
          simp [Report.moves, MessageRecord.report, hfree m there]
        simp [movesTold, hget, hnew, hstill, stream, Report.moves_append, hbefore, hother]
  | some r =>
    obtain ⟨q, hq, hname⟩ := exists_get?_act sep.orderly hget a
    have hsum : (s.act a).movesTold id = Report.moves (s.act a).stream r.messageId := by
      simp [movesTold, hq, hname]
    have hbefore : s.movesTold id = Report.moves s.stream r.messageId := by
      simp [movesTold, hget]
    rw [hsum, hbefore]
    cases utters_act sep h founded with
    | silent stream unmoved => simp [stream, unmoved]
    | stepped p present by_action =>
      subst by_action
      rw [h.stream_stepped present, Report.moves_append, Deed.moves_told,
        moves_stepped sep.orderly present]
      rfl
    | moved m there type move stream alone =>
      obtain ⟨hr, rfl⟩ := Sorted.get?_eq_some hget
      rw [stream, Report.moves_append, alone]
      congr 1
      have horigin : r.origin ∈ s.state.records.origins := List.mem_map_of_mem hr
      by_cases hsame : m = r.origin
      · rw [hsame]
        simp [Report.moves, MessageRecord.report, move]
      · have hname : m.messageId ≠ r.messageId :=
          fun he => hsame (sep.indexed.eq_of_messageId there horigin he)
        have hid : r.id ≠ m.id := fun he =>
          hsame (sep.orderly.eq_of_origin_id there horigin he.symm)
        simp [Report.moves, MessageRecord.report, hname, hid]

theorem Narrated.movesTold {actions : List Action} (h : s.Narrated old actions) (id : Uuid) :
    (s.run actions).movesTold id = s.movesTold id + s.transitions id actions := by
  induction actions generalizing s with
  | nil => rfl
  | cons a rest ih =>
    rw [run_cons, ih h.tail, movesTold_act h.separate h.faithful h.founded, transitions,
      Nat.add_assoc]

/-- What is not told by a step of a dispatch tells of the move that the action makes. -/
theorem beside_act (sep : s.Separate) (h : s.Faithful old) {a : Action}
    (founded : Action.Founded s a) (no_step : ∀ ticket, a ≠ .work (.dispatch ticket)) :
    ((s.act a).stream = s.stream ∧ ∀ id, s.moves id a = false) ∨
      ∃ m ∈ s.state.records.origins, ∃ type : EventKind, type.isMove = true ∧
        (s.act a).stream = s.stream ++ [m.report type] ∧
        ∀ id, s.moves id a = decide (id = m.id) := by
  cases utters_act sep h founded with
  | silent stream unmoved => exact Or.inl ⟨stream, unmoved⟩
  | moved m there type move stream alone => exact Or.inr ⟨m, there, type, move, stream, alone⟩
  | stepped r _ by_action => exact absurd by_action (no_step r.ticket)

/-- What is neither a step of a dispatch nor moves a record tells nothing. -/
theorem stream_of_unmoved (sep : s.Separate) (h : s.Faithful old) {a : Action}
    (founded : Action.Founded s a) (unmoved : ∀ id, s.moves id a = false)
    (no_step : ∀ ticket, a ≠ .work (.dispatch ticket)) : (s.act a).stream = s.stream := by
  rcases beside_act sep h founded no_step with ⟨stream, -⟩ | ⟨m, -, -, -, -, alone⟩
  · exact stream
  · have hmoved := alone m.id
    rw [unmoved] at hmoved
    simp at hmoved

/-! ## Who tells what -/

/-- What an action adds to the stream. -/
def utters (s : Simulation) (a : Action) : List Utterance :=
  ((s.act a).stream.drop s.stream.length).map (Utterance.mk a.speaker?)

/-- What the actions of a run add to the stream, one after the other. -/
def utterances : Simulation → List Action → List Utterance
  | _, [] => []
  | s, a :: rest => s.utters a ++ utterances (s.act a) rest

theorem utterances_append (s : Simulation) (first later : List Action) :
    s.utterances (first ++ later) = s.utterances first ++ (s.run first).utterances later := by
  induction first generalizing s with
  | nil => rfl
  | cons a rest ih => simp only [List.cons_append, utterances, ih, run_cons, List.append_assoc]

theorem utterances_concat (s : Simulation) (actions : List Action) (a : Action) :
    s.utterances (actions ++ [a]) = s.utterances actions ++ (s.run actions).utters a := by
  simp only [utterances_append, utterances, List.append_nil]

theorem utters_of_stream {a : Action} {told : List Report}
    (stream : (s.act a).stream = s.stream ++ told) :
    s.utters a = told.map (Utterance.mk a.speaker?) := by
  rw [utters, stream, List.drop_left]

theorem utters_of_silent {a : Action} (stream : (s.act a).stream = s.stream) : s.utters a = [] :=
  utters_of_stream (stream.trans (List.append_nil _).symm)

theorem speaker_of_mem_utters {a : Action} {x : Utterance} (hx : x ∈ s.utters a) :
    x.speaker = a.speaker? := by
  obtain ⟨_, -, rfl⟩ := List.mem_map.mp hx
  rfl

theorem eq_of_speaker? {a : Action} {ticket : Nat} (h : a.speaker? = some ticket) :
    a = .work (.dispatch ticket) := by
  cases a with
  | work w =>
    cases w with
    | dispatch t => rw [Option.some.inj h]
    | _ => cases h
  | _ => cases h

/-- A step that is asked for tells what the dispatch is to tell, if it is there. -/
theorem Faithful.stream_dispatch (h : s.Faithful old) (ticket : Nat) :
    (s.act (.work (.dispatch ticket))).stream =
      s.stream ++ (s.deedOf? ticket (.work (.dispatch ticket))).toList.flatMap Deed.told := by
  cases present : s.dispatchAt? ticket with
  | none => simp [act, work, deedOf?, present]
  | some r =>
    obtain ⟨-, rfl⟩ := dispatchAt?_eq_some present
    rw [h.stream_stepped present]
    simp [deedOf?, Action.isStepOf, present]

/-- What is told is added to what has been told before. -/
theorem stream_eq_append_utters (sep : s.Separate) (h : s.Faithful old) {a : Action}
    (founded : Action.Founded s a) :
    (s.act a).stream = s.stream ++ (s.utters a).map Utterance.report := by
  obtain ⟨told, stream⟩ : ∃ told, (s.act a).stream = s.stream ++ told := by
    cases utters_act sep h founded with
    | silent stream _ => exact ⟨[], by rw [stream, List.append_nil]⟩
    | moved _ _ _ _ stream _ => exact ⟨_, stream⟩
    | stepped r present by_action =>
      rw [by_action]
      exact ⟨_, h.stream_stepped present⟩
  rw [utters_of_stream stream, List.map_map, stream]
  congr 1
  exact (List.map_id told).symm

theorem Narrated.stream {actions : List Action} (h : s.Narrated old actions) :
    (s.run actions).stream = s.stream ++ (s.utterances actions).map Utterance.report := by
  induction actions generalizing s with
  | nil => simp [utterances]
  | cons a rest ih =>
    rw [run_cons, ih h.tail, stream_eq_append_utters h.separate h.faithful h.founded, utterances,
      List.map_append, List.append_assoc]

/-- A dispatch tells in its own steps, and what it tells there is what they are to tell. -/
theorem Faithful.own_utters (h : s.Faithful old) (ticket : Nat) (a : Action) :
    Utterance.own (s.utters a) ticket = (s.deedOf? ticket a).toList.flatMap Deed.told := by
  by_cases hspeaker : a.speaker? = some ticket
  · have haction := eq_of_speaker? hspeaker
    subst haction
    rw [utters_of_stream (h.stream_dispatch ticket)]
    exact Utterance.own_map _ ticket
  · have hnone : s.deedOf? ticket a = none := by
      cases hdeed : s.deedOf? ticket a with
      | none => rfl
      | some x =>
        have haction := eq_of_deedOf? hdeed
        subst haction
        exact absurd rfl hspeaker
    rw [hnone, Utterance.own_eq_nil]
    · rfl
    · intro x hx
      rwa [speaker_of_mem_utters hx]

/-- Who tells is a dispatch that is there, and what nobody tells is the move of a record. -/
theorem told_of_mem_utters (sep : s.Separate) (h : s.Faithful old) {a : Action}
    (founded : Action.Founded s a) {x : Utterance} (hx : x ∈ s.utters a) :
    (x.speaker = none ∧ x.report.type.isMove = true) ∨
      ∃ r ∈ s.running, x.speaker = some r.ticket := by
  have hspeaker := speaker_of_mem_utters hx
  cases hstep : a.speaker? with
  | some ticket =>
    right
    cases present : s.dispatchAt? ticket with
    | none =>
      rw [eq_of_speaker? hstep, utters_of_silent (by simp [act, work, present])] at hx
      cases hx
    | some r =>
      obtain ⟨hr, rfl⟩ := dispatchAt?_eq_some present
      exact ⟨r, hr, hspeaker.trans hstep⟩
  | none =>
    left
    have no_step : ∀ ticket, a ≠ .work (.dispatch ticket) := by
      rintro ticket rfl
      cases hstep
    rcases beside_act sep h founded no_step with ⟨stream, -⟩ | ⟨m, -, type, move, stream, -⟩
    · rw [utters_of_silent stream] at hx
      cases hx
    · rw [utters_of_stream stream, List.map_singleton, List.mem_singleton] at hx
      subst hx
      exact ⟨hstep, move⟩

/-- Where nothing was running, whoever tells something has begun in the run. -/
theorem Narrated.told_of_mem {actions : List Action} (h : s.Narrated old actions)
    (idle : s.running = []) {x : Utterance} (hx : x ∈ s.utterances actions) :
    (x.speaker = none ∧ x.report.type.isMove = true) ∨
      ∃ first campaign recipients rest, actions = first ++ .begin campaign recipients :: rest ∧
        x.speaker = some (s.run first).state.agenda.nextTicket := by
  induction actions using List.reverseRecOn with
  | nil => cases hx
  | append_singleton earlier a ih =>
    have hbegun : ∀ {first campaign recipients rest},
        earlier = first ++ .begin campaign recipients :: rest →
        earlier ++ [a] = first ++ .begin campaign recipients :: (rest ++ [a]) := by
      rintro first campaign recipients rest rfl
      rw [List.append_assoc, List.cons_append]
    rw [utterances_concat, List.mem_append] at hx
    rcases hx with hold | hnew
    · rcases ih h.front hold with hmove | ⟨first, _, _, _, he, hspeaker⟩
      · exact Or.inl hmove
      · exact Or.inr ⟨first, _, _, _, hbegun he, hspeaker⟩
    · have hlast := h.after
      rcases told_of_mem_utters hlast.separate hlast.faithful hlast.founded hnew with
        hmove | ⟨r, hr, hspeaker⟩
      · exact Or.inl hmove
      · obtain ⟨first, recipients, rest, he, hticket⟩ := exists_begin idle earlier hr
        rw [hticket] at hspeaker
        exact Or.inr ⟨first, _, recipients, _, hbegun he, hspeaker⟩

/-- A ticket that is still to be drawn has told nothing. -/
theorem Narrated.own_eq_nil {actions : List Action} (h : s.Narrated old actions) {ticket : Nat}
    (undrawn : (s.run actions).state.agenda.nextTicket ≤ ticket) :
    Utterance.own (s.utterances actions) ticket = [] := by
  induction actions using List.reverseRecOn with
  | nil => rfl
  | append_singleton earlier a ih =>
    have hnext := nextTicket_act (s.run earlier) a
    rw [run_concat] at undrawn
    rw [utterances_concat, Utterance.own_append, ih h.front (Nat.le_trans hnext undrawn),
      List.nil_append]
    refine Utterance.own_eq_nil fun x hx hspeaker => ?_
    have hlast := h.after
    rcases told_of_mem_utters hlast.separate hlast.faithful hlast.founded hx with
      ⟨hnone, -⟩ | ⟨r, hr, hticket⟩
    · rw [hnone] at hspeaker
      cases hspeaker
    · have hdrawn := hlast.separate.orderly.drawn r hr
      rw [Option.some.inj (hticket.symm.trans hspeaker)] at hdrawn
      omega

/-! ## Dispatches -/

/-- What has been told of a dispatch and of the messages that it has created. -/
structure Reported (told : List Utterance) (ticket : Nat) (campaign : Uuid) (deeds : List Deed)
    (d : Dispatch) : Prop where
  speaks : ∃ settled, Speaks campaign deeds settled d.created d.farewell
  /-- A dispatch has told what its steps are to tell, and nothing else. -/
  own : Utterance.own told ticket = deeds.flatMap Deed.told
  milestones : Milestones (Utterance.own told ticket) deeds d.farewell
  /-- It tells that the campaign is being processed before anything is told of a message. -/
  opened : Deed.Began deeds → ∃ before after,
    told = before ++ ⟨some ticket, .milestone campaign .campaignProcessing⟩ :: after ∧
    ∀ m ∈ deeds.filterMap Deed.created?, ∀ x ∈ before, x.report.messageId ≠ some m.messageId
  /-- After it has told of its end none of its messages is announced. -/
  closed : ∀ y ∈ d.farewell, ∃ before after, told = before ++ ⟨some ticket, y⟩ :: after ∧
    ∀ m ∈ deeds.filterMap Deed.created?, ∀ x ∈ after, x.report.messageId = some m.messageId →
      x.report.type ≠ .messageQueued ∧ x.report.type ≠ .messageFailed

variable {t : Simulation} {campaign : Uuid} {recipients : List String} {deeds : List Deed}
  {d d' : Dispatch} {told : List Utterance} {ticket : Nat}

/-- Where something has been told of a message, what is told later does not announce it. -/
theorem Faithful.unannounced (h : t.Faithful old) {first later : List Report}
    (stream : t.stream = first ++ later) {x y : Report} (hx : x ∈ first) {name : String}
    (hname : x.messageId = some name) (told : x.type ≠ .receiptApplied) (hy : y ∈ later)
    (same : y.messageId = some name) : y.type ≠ .messageQueued ∧ y.type ≠ .messageFailed := by
  obtain ⟨m, hm, he⟩ := h.about x (stream ▸ List.mem_append_left _ hx) (by rw [hname]; rfl)
  have hmessage : m.messageId = name := by
    rw [he] at hname
    exact Option.some.inj hname
  subst hmessage
  have hfirst : Report.course first m.messageId ≠ [] :=
    List.ne_nil_of_mem (Report.mem_course hx hname told)
  have hcourse : t.courseOf m =
      Report.course first m.messageId ++ Report.course later m.messageId := by
    rw [courseOf, stream, Report.course_append]
  have hsome : t.courseOf m ≠ [] := by
    rw [hcourse]
    exact List.append_ne_nil_of_left_ne_nil hfirst _
  have htold := ((h.settled m hm).resolve_left fun hold => hsome (h.silent m hold)).resolve_left
    fun hflight => hsome (h.inFlight m hflight).2
  rw [hcourse] at htold
  by_cases hreceipt : y.type = .receiptApplied
  · rw [hreceipt]
    exact ⟨by rintro ⟨⟩, by rintro ⟨⟩⟩
  · exact htold.later hfirst y.type (Report.mem_course hy same hreceipt)

/-- What is told while the dispatch takes no step changes nothing of what it has told. -/
theorem Reported.of_append (rep : Reported told ticket campaign deeds d) (h : t.Faithful old)
    {more : List Utterance} (stream : t.stream = (told ++ more).map Utterance.report)
    (others : Utterance.own more ticket = [])
    (speaks : ∃ settled, Speaks campaign deeds settled d'.created d'.farewell)
    (farewell : d'.farewell = d.farewell) :
    Reported (told ++ more) ticket campaign deeds d' := by
  have hown : Utterance.own (told ++ more) ticket = deeds.flatMap Deed.told := by
    rw [Utterance.own_append, others, List.append_nil, rep.own]
  constructor
  · exact speaks
  · exact hown
  · obtain ⟨_, hspeaks⟩ := speaks
    rw [hown]
    exact hspeaks.milestones
  · intro began
    obtain ⟨before, after, hsplit, hbefore⟩ := rep.opened began
    refine ⟨before, after ++ more, ?_, hbefore⟩
    rw [hsplit, List.append_assoc, List.cons_append]
  · intro y hy
    rw [farewell] at hy
    obtain ⟨before, after, hsplit, hafter⟩ := rep.closed y hy
    refine ⟨before, after ++ more, ?_, ?_⟩
    · rw [hsplit, List.append_assoc, List.cons_append]
    · intro m hm x hx hname
      rcases List.mem_append.mp hx with hold | hnew
      · exact hafter m hm x hold hname
      · -- The announcement of the message is among what the dispatch has told before.
        obtain ⟨settled, hspeaks⟩ := rep.speaks
        have hsettled : m ∈ settled := by
          have hmem := hspeaks.created.mem_iff.mpr hm
          rwa [d.created_of_farewell hy, List.append_nil] at hmem
        have hannounced : m.announcement ∈ told.map Utterance.report := by
          refine Utterance.own_subset told ticket ?_
          rw [rep.own]
          by_cases began : Deed.Began deeds
          · rw [hspeaks.begun began]
            exact List.mem_append_left _
              (List.mem_cons_of_mem _ (List.mem_map_of_mem hsettled))
          · rw [(hspeaks.unbegun began).1] at hsettled
            cases hsettled
        rw [List.map_append] at stream
        exact h.unannounced stream hannounced rfl m.announced_ne (List.mem_map_of_mem hnew) hname

theorem Reported.of_step (rep : Reported told ticket campaign deeds d) (sep : s.Separate)
    (h : s.Faithful old) (whole : told.map Utterance.report = s.stream) {now : Instant}
    {turn : Nat} (reached : Reached (.start campaign recipients now turn) deeds d)
    (running : d.isEnded = false) :
    Reported (told ++ (Deed.told ⟨s.state, d⟩).map (Utterance.mk (some ticket))) ticket campaign
      (deeds ++ [⟨s.state, d⟩]) (Deed.next ⟨s.state, d⟩) := by
  let x : Deed := ⟨s.state, d⟩
  obtain ⟨settled, hspeaks⟩ := (Reached.step reached running s.state).speaks
  have hown : Utterance.own (told ++ x.told.map (Utterance.mk (some ticket))) ticket =
      (deeds ++ [x]).flatMap Deed.told := by
    rw [Utterance.own_append, rep.own, Utterance.own_map, List.flatMap_append,
      List.flatMap_singleton]
  refine ⟨⟨settled, hspeaks⟩, hown, hown ▸ hspeaks.milestones, ?_, ?_⟩
  · intro began
    cases x.speech running with
    | begun left phase total exchange told_begun created farewell =>
      have hnone := reached.deeds_of_starting phase
      subst hnone
      refine ⟨told, [], ?_, ?_⟩
      · rw [told_begun, reached.past.1]
        rfl
      · have hnone : x.created? = none := by
          rw [Deed.created?, exchange]
          rfl
        rw [Deed.filterMap_created_concat]
        simp [x, hnone]
    | later e exchange later _ =>
      have hbegan : Deed.Began deeds := by
        rcases (Deed.began_concat exchange).mp began with hold | ⟨total, he⟩
        · exact hold
        · exact absurd he (later total)
      obtain ⟨before, after, hsplit, hbefore⟩ := rep.opened hbegan
      refine ⟨before, after ++ x.told.map (Utterance.mk (some ticket)), ?_, ?_⟩
      · rw [hsplit, List.append_assoc, List.cons_append]
      · intro m hm y hy
        rw [Deed.filterMap_created_concat, List.mem_append, Option.mem_toList] at hm
        rcases hm with hold | hnew
        · exact hbefore m hold y hy
        · -- Nothing has been told of a name that is still free.
          have htold : y.report ∈ s.stream := by
            rw [← whole, hsplit]
            exact List.mem_map_of_mem (List.mem_append_left _ hy)
          rcases x.created_spec with ⟨hnone, _⟩ | ⟨_, _, hsome, hcreate⟩
          · rw [hnew] at hnone
            cases hnone
          · cases hnew.symm.trans hsome
            exact h.of_free htold (sep.indexed.free_of_create hcreate)
  · intro y hy
    cases x.speech running with
    | begun _ _ _ _ _ _ farewell =>
      rw [farewell] at hy
      cases hy
    | later e _ _ told_later =>
      refine ⟨told ++ (x.settled.map MessageRecord.announcement).map (Utterance.mk (some ticket)),
        [], ?_, ?_⟩
      · rw [told_later, x.next.farewell_of_mem hy, List.map_append, List.append_assoc]
        rfl
      · rintro m _ x ⟨⟩

theorem reported_act (sep : s.Separate) (h : s.Faithful old)
    (whole : told.map Utterance.report = s.stream) {a : Action} (founded : Action.Founded s a)
    (h' : (s.act a).Faithful old) {now : Instant} {turn : Nat}
    (followed : s.Followed ticket a d d')
    (reached : Reached (.start campaign recipients now turn) deeds d)
    (rep : Reported told ticket campaign deeds d) :
    Reported (told ++ s.utters a) ticket campaign (deeds ++ (s.deedOf? ticket a).toList) d' := by
  have hspeaks := (followed.reached reached).speaks
  have hown := h.own_utters ticket a
  have stream : (s.act a).stream = (told ++ s.utters a).map Utterance.report := by
    rw [stream_eq_append_utters sep h founded, List.map_append, whole]
  cases followed with
  | alone _ deed same =>
    rw [deed, Option.toList_none] at hown hspeaks ⊢
    rw [List.append_nil] at hspeaks ⊢
    exact rep.of_append h' stream hown hspeaks (by rw [same])
  | rearranged _ deed untried tried next =>
    rw [deed, Option.toList_none] at hown hspeaks ⊢
    rw [List.append_nil] at hspeaks ⊢
    exact rep.of_append h' stream hown hspeaks (by rw [next, Dispatch.farewell_rearrange])
  | step running deed next =>
    have hstep := eq_of_deedOf? deed
    have hutters : s.utters a = (Deed.told ⟨s.state, d⟩).map (Utterance.mk (some ticket)) := by
      rw [hstep] at deed ⊢
      rw [utters_of_stream (h.stream_dispatch ticket), deed, Option.toList_some,
        List.flatMap_singleton]
      rfl
    rw [deed, next, hutters]
    exact rep.of_step sep h whole reached running

theorem Narrated.reported {actions : List Action} (h : s.Narrated old actions)
    (whole : told.map Utterance.report = s.stream) (unheard : Utterance.own told ticket = [])
    {now : Instant} {turn : Nat}
    (holds : s.Holds ticket (.start campaign recipients now turn)) :
    ∃ d, (s.run actions).Holds ticket d ∧
      Reached (.start campaign recipients now turn) (s.deeds ticket actions) d ∧
      Reported (told ++ s.utterances actions) ticket campaign (s.deeds ticket actions) d := by
  induction actions using List.reverseRecOn with
  | nil =>
    have hstart : Reached (.start campaign recipients now turn) [] _ := .start
    obtain ⟨settled, hspeaks⟩ := hstart.speaks
    refine ⟨_, holds, hstart, ?_⟩
    rw [utterances, List.append_nil]
    refine ⟨⟨settled, hspeaks⟩, unheard, unheard ▸ hspeaks.milestones, ?_, ?_⟩
    · rintro ⟨_, ⟨⟩⟩
    · rintro y ⟨⟩
  | append_singleton earlier a ih =>
    obtain ⟨d, holds, reached, rep⟩ := ih h.front
    have hlast := h.after
    have hwhole : (told ++ s.utterances earlier).map Utterance.report = (s.run earlier).stream := by
      rw [h.front.stream, List.map_append, whole]
    obtain ⟨d', holds', followed⟩ := followed_act holds (a := a) (Or.inr (by
      rintro rfl
      exact hlast.kept _ List.mem_cons_self))
    rw [run_concat, deeds_concat, utterances_concat, ← List.append_assoc]
    exact ⟨d', holds', followed.reached reached, reported_act hlast.separate hlast.faithful hwhole
      hlast.founded hlast.tail.faithful followed reached rep⟩

/-! ## Runs -/

/-- What the stream of a run tells of its dispatches, of its messages and of their records. -/
structure Chronicle (s : Simulation) (actions : List Action) : Prop where
  /-- The stream is what the actions have told, one after the other. -/
  whole : (s.run actions).stream = (s.utterances actions).map Utterance.report
  /-- What is not told by a dispatch that has begun in the run is the move of a record. -/
  speakers : ∀ x ∈ s.utterances actions, (x.speaker = none ∧ x.report.type.isMove = true) ∨
    ∃ first campaign recipients rest, actions = first ++ .begin campaign recipients :: rest ∧
      x.speaker = some (s.run first).state.agenda.nextTicket
  dispatches : ∀ first campaign recipients rest,
    actions = first ++ .begin campaign recipients :: rest →
    let ticket := (s.run first).state.agenda.nextTicket
    let begun := (s.run first).act (.begin campaign recipients)
    ∃ d, (s.run actions).Holds ticket d ∧
      Reported (s.utterances actions) ticket campaign (begun.deeds ticket rest) d
  /-- A step of a dispatch adds to the stream what it is to tell, and nothing else. -/
  stepped : ∀ first ticket rest, actions = first ++ .work (.dispatch ticket) :: rest →
    let step := Action.work (.dispatch ticket)
    ((s.run first).act step).stream = (s.run first).stream ++
      ((s.run first).deedOf? ticket step).toList.flatMap Deed.told
  /-- Any other action tells of the move that it makes, and of nothing else. -/
  beside : ∀ first a rest, actions = first ++ a :: rest →
    (∀ ticket, a ≠ .work (.dispatch ticket)) →
    (((s.run first).act a).stream = (s.run first).stream ∧
      ∀ id, (s.run first).moves id a = false) ∨
    ∃ m ∈ (s.run first).state.records.origins, ∃ type : EventKind, type.isMove = true ∧
      ((s.run first).act a).stream = (s.run first).stream ++ [m.report type] ∧
      ∀ id, (s.run first).moves id a = decide (id = m.id)
  /-- Of what is not in the book nothing is told. -/
  about : ∀ x ∈ (s.run actions).stream, x.messageId.isSome →
    ∃ m ∈ (s.run actions).state.records.origins, x = m.report x.type
  unsettled : ∀ m, (s.run actions).InFlight m → (s.run actions).courseOf m = []
  /-- A record that has been created in the run is announced once its batch is settled. -/
  settled : ∀ m ∈ (s.run actions).state.records.origins, m ∉ s.state.records.origins →
    ¬ (s.run actions).InFlight m → m.Told ((s.run actions).courseOf m)
  moves : ∀ r ∈ (s.run actions).state.records.records,
    Report.moves (s.run actions).stream r.messageId = s.transitions r.id actions
  /-- What counts as a move is a request to move the record that has been applied. -/
  applied : ∀ first a rest, actions = first ++ a :: rest → ∀ id,
    (s.run first).moves id a = true ↔ ∃ status time,
      ((s.run first).state.records.advance id status time).1 = .applied ∧
        ((s.run first).act a).state.records =
          ((s.run first).state.records.advance id status time).2
  stale : ∀ first a rest, actions = first ++ a :: rest →
    (∀ id, (s.run first).moves id a = false) → (∀ ticket, a ≠ .work (.dispatch ticket)) →
    ((s.run first).act a).stream = (s.run first).stream

/-- Where a capturing recorder has been there from the beginning, no dispatch is dropped and
receipts are applied to what has been looked up, the stream tells what has happened. -/
theorem event_stream_is_faithful {start : DeliveryState} (idle : start.Idle)
    (capturing : start.recorder = .capturing) (indexed : start.records.Indexed)
    {actions : List Action} (looks : (ofState start).LooksUp actions)
    (kept : ∀ campaign, .drop campaign ∉ actions) : (ofState start).Chronicle actions := by
  have sep := separate_ofState idle indexed
  have narrated : (ofState start).Narrated start.records.origins actions :=
    ⟨sep, faithful_ofState idle capturing, looks.grounded sep.orderly, kept⟩
  have hall := narrated.run.faithful
  have hsilent : (ofState start).stream = [] := by
    rw [stream, ofState, capturing]
    rfl
  constructor
  · rw [narrated.stream, hsilent, List.nil_append]
  · exact fun x hx => narrated.told_of_mem rfl hx
  · rintro first campaign recipients rest rfl
    have hbegin := narrated.after
    -- The first step of the dispatch is still to come, so it has told nothing so far.
    have hquiet : ((ofState start).run first).utters (.begin campaign recipients) = [] :=
      utters_of_silent rfl
    have hwhole : ((ofState start).utterances first).map Utterance.report =
        (((ofState start).run first).act (.begin campaign recipients)).stream := by
      have hstream := narrated.front.stream
      rw [hsilent, List.nil_append] at hstream
      exact hstream.symm
    obtain ⟨d, holds, _, reported⟩ := hbegin.tail.reported hwhole
      (narrated.front.own_eq_nil (Nat.le_refl _))
      (holds_begin hbegin.separate.orderly campaign recipients)
    rw [run_append, utterances_append, utterances, hquiet, List.nil_append]
    exact ⟨d, holds, reported⟩
  · rintro first ticket rest rfl
    exact narrated.after.faithful.stream_dispatch ticket
  · rintro first a rest rfl no_step
    have hlater := narrated.after
    exact beside_act hlater.separate hlater.faithful hlater.founded no_step
  · exact hall.about
  · exact fun m hm => (hall.inFlight m hm).2
  · intro m hm created landed
    exact ((hall.settled m hm).resolve_left created).resolve_left landed
  · intro r hr
    have hnone : (ofState start).movesTold r.id = 0 := by
      rw [movesTold, hsilent]
      cases (ofState start).state.records.get? r.id <;> rfl
    have hget := narrated.run.separate.orderly.get?_of_mem hr
    have hrun := narrated.movesTold r.id
    rwa [hnone, Nat.zero_add, movesTold, hget] at hrun
  · rintro first a rest rfl id
    exact moves_iff_applied narrated.after.separate.orderly id a
  · rintro first a rest rfl unmoved no_step
    have hlater := narrated.after
    exact stream_of_unmoved hlater.separate hlater.faithful hlater.founded unmoved no_step

/-- A message is walked to its first stage, and its campaign completed, while a receipt for it waits
for its turn. The receipt is then applied to what it has looked up before. Both moves are told of,
and between them the end of the campaign. -/
theorem receipt_after_stage_is_told :
    let start : DeliveryState := { Sample.delivery 1 with recorder := .capturing }
    let record : MessageRecord :=
      ⟨.fresh 1, .nil, "a", "msg_0_a", .queued, ⟨0, 0⟩, none, none, none, none⟩
    let step := Action.work (.dispatch 0)
    let sent := [.enter Sample.campaign, .begin .nil ["a"], step, step]
    let walked := sent ++ [.work (.walk 1), .work (.moveTo ⟨1, 0⟩), .work (.walk 1), step, step]
    let actions := walked ++ [.deliver ⟨"msg_0_a", .opened, none⟩ record]
    let t := (ofState start).run actions
    (ofState start).Chronicle actions ∧
      (ofState start).utterances actions = [
        ⟨some 0, .milestone .nil .campaignProcessing⟩, ⟨some 0, record.report .messageQueued⟩,
        ⟨none, record.report .messageDelivered⟩, ⟨some 0, .milestone .nil .campaignCompleted⟩,
        ⟨none, record.report .receiptApplied⟩] ∧
      record ∈ t.state.records.origins ∧ ¬ t.InFlight record ∧
      record.Told [.messageQueued, .messageDelivered] ∧
      Report.moves t.stream record.messageId = 2 ∧
      (ofState start).transitions record.id actions = 2 := by
  intro start record step sent walked actions t
  have hidle : start.Idle := ⟨rfl, List.nodup_nil, by rintro n ⟨⟩⟩
  have hlooks : (ofState start).LooksUp actions := by
    have hsent : sent <+: walked := List.prefix_append _ _
    refine LooksUp.concat (looksUp_of_notMem ?_) hsent ?_
    · simp [walked, sent, step]
    · decide +kernel
  have hkept : ∀ campaign, .drop campaign ∉ actions := by simp [actions, walked, sent, step]
  have hchronicle :=
    event_stream_is_faithful hidle rfl RecordBook.indexed_empty hlooks hkept
  have hutterances : (ofState start).utterances actions = [
      ⟨some 0, .milestone .nil .campaignProcessing⟩, ⟨some 0, record.report .messageQueued⟩,
      ⟨none, record.report .messageDelivered⟩, ⟨some 0, .milestone .nil .campaignCompleted⟩,
      ⟨none, record.report .receiptApplied⟩] := by decide +kernel
  obtain ⟨hthere, hlanded, hcourse, hmoves⟩ : record ∈ t.state.records.origins ∧
      ¬ (∃ r ∈ t.running, record ∈ r.dispatch.created) ∧
      t.courseOf record = [.messageQueued, .messageDelivered] ∧
      Report.moves t.stream record.messageId = 2 := by decide +kernel
  simp only [t] at hthere hlanded hcourse hmoves ⊢
  have htold := hchronicle.settled record hthere (by decide +kernel) hlanded
  rw [hcourse] at htold
  obtain ⟨r, hr, horigin⟩ := List.mem_map.mp hthere
  have hsum := hchronicle.moves r hr
  rw [← r.origin_messageId, ← r.origin_id, horigin] at hsum
  exact ⟨hchronicle, hutterances, hthere, hlanded, htold, hmoves, hsum.symm.trans hmoves⟩

end Simulation

end Outreach
