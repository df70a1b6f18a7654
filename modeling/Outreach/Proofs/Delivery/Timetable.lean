import Mathlib.Data.List.Induction
import Outreach.Delivery.Timetable
import Outreach.Proofs.Delivery.Agenda

/-!
# Registered tasks

The tasks of a timetable and the entries of its agenda are two lists that change separately. In
every run they stay in step: each task is registered under its own ticket, and no entry is left
without its task. So an entry tells of a task that still runs, and to take an entry off the agenda
is to abort the task behind it.
-/

namespace Outreach.Timetable

/-! ## Requests -/

inductive Request where
  | schedule (record campaign : Uuid) (ms name : Nat)
  | cancel (record : Uuid)
  | cancelAll (campaign : Uuid)
  | advance (ms : Nat)
  deriving DecidableEq

/-- The name of the task that the request brings. -/
def Request.name? : Request → Option Nat
  | .schedule _ _ _ name => some name
  | _ => none

/-- The time that the request lets pass. -/
def Request.span : Request → Nat
  | .advance ms => ms
  | _ => 0

def perform (t : Timetable) : Request → Timetable
  | .schedule record campaign ms name => (t.schedule record campaign ms name).2
  | .cancel record => (t.cancel record).2
  | .cancelAll campaign => (t.cancelAll campaign).2
  | .advance ms => t.advance ms

def performAll (t : Timetable) (requests : List Request) : Timetable :=
  requests.foldl perform t

variable {t : Timetable} {task : TimedTask} {campaign : Uuid}

theorem performAll_concat (t : Timetable) (requests : List Request) (request : Request) :
    t.performAll (requests ++ [request]) = (t.performAll requests).perform request := by
  simp only [performAll, List.foldl_append, List.foldl_cons, List.foldl_nil]

/-! ## Calls refused and accepted -/

theorem schedule_fst (t : Timetable) (record campaign : Uuid) (ms name : Nat) :
    (t.schedule record campaign ms name).1 = !t.agenda.refuses campaign := by
  have hagenda := Agenda.schedule_fst t.agenda record campaign ()
  simp only [schedule, hagenda]
  split <;> simp_all

/-- A refused call leaves the timetable as it was. -/
theorem schedule_refused {record : Uuid} {ms name : Nat}
    (h : (t.schedule record campaign ms name).1 = false) :
    (t.schedule record campaign ms name).2 = t := by
  simp only [schedule] at h ⊢
  split at h
  · exact nomatch h
  · rename_i hrefused
    rw [if_neg hrefused]

theorem schedule_accepted {record : Uuid} {ms name : Nat}
    (h : (t.schedule record campaign ms name).1 = true) :
    (t.schedule record campaign ms name).2 =
      { t with
        agenda := (t.agenda.schedule record campaign ()).2
        tasks := t.sparedBy (t.agenda.pending.filter fun e => e.record == record) ++
          [⟨name, record, t.agenda.nextTicket, t.clock + ms⟩] } := by
  simp only [schedule] at h ⊢
  split at h
  · rename_i haccepted
    rw [if_pos haccepted]
  · exact nomatch h

theorem pending_schedule_accepted {record : Uuid} {ms name : Nat}
    (h : (t.schedule record campaign ms name).1 = true) :
    (t.agenda.schedule record campaign ()).2.pending =
      (t.agenda.pending.filter fun e => e.record != record) ++
        [⟨record, campaign, t.agenda.nextTicket, ()⟩] := by
  rw [schedule_fst, Bool.not_eq_true'] at h
  rw [Agenda.schedule, if_neg (by rw [h]; decide)]

/-! ## Ends by ticket -/

@[simp] theorem agenda_cancelled_foldl_finish (due : List TimedTask) :
    ∀ t : Timetable, (due.foldl finish t).agenda.cancelled = t.agenda.cancelled := by
  induction due with
  | nil => exact fun _ => rfl
  | cons task due ih => exact fun t => ih (t.finish task)

/-- Tasks that end take off themselves and the entries with their tickets, and nothing else. -/
theorem foldl_finish (due : List TimedTask) :
    ∀ t : Timetable,
      (due.foldl finish t).tasks =
          t.tasks.filter (fun task => due.all fun other => task.ticket != other.ticket) ∧
        (due.foldl finish t).agenda.pending =
          t.agenda.pending.filter (fun e => due.all fun other => e.ticket != other.ticket) ∧
        (due.foldl finish t).ended = t.ended ++ due.map fun task => (task.due, task.name) := by
  induction due with
  | nil => exact fun t => ⟨by simp, by simp, by simp⟩
  | cons task due ih =>
    intro t
    obtain ⟨htasks, hpending, hended⟩ := ih (t.finish task)
    refine ⟨?_, ?_, ?_⟩
    · rw [List.foldl_cons, htasks, finish, List.filter_filter]
      simp only [List.all_cons, Bool.and_comm]
    · rw [List.foldl_cons, hpending, finish, Agenda.finish, List.filter_filter]
      simp only [List.all_cons, Bool.and_comm]
    · rw [List.foldl_cons, hended, finish, List.map_cons, List.append_assoc]
      rfl

theorem mem_dueBy {time : Nat} : task ∈ t.dueBy time ↔ task ∈ t.tasks ∧ task.due ≤ time := by
  simp only [dueBy, List.mem_mergeSort, List.mem_filter, decide_eq_true_eq]

/-! ## Tasks and entries in step -/

/-- No two entries share a record, each task has an entry and each entry a task of the same ticket,
and tickets are distinct on both sides. -/
structure Registered (t : Timetable) : Prop where
  ticketed : t.agenda.Ticketed
  tickets : (t.tasks.map TimedTask.ticket).Nodup
  entry : ∀ task ∈ t.tasks, ∃ e ∈ t.agenda.pending, e.ticket = task.ticket ∧ e.record = task.record
  task : ∀ e ∈ t.agenda.pending, ∃ task ∈ t.tasks, task.ticket = e.ticket

/-- The task runs, and it is registered for its record and the campaign. -/
def Holds (t : Timetable) (task : TimedTask) (campaign : Uuid) : Prop :=
  task ∈ t.tasks ∧ (⟨task.record, campaign, task.ticket, ()⟩ : PendingEntry Unit) ∈ t.agenda.pending

theorem registered_start : start.Registered := by
  constructor
  · exact Agenda.ticketed_of_clear rfl
  all_goals simp [start, Agenda.empty]

theorem Registered.task_unique (h : t.Registered) {a b : TimedTask} (ha : a ∈ t.tasks)
    (hb : b ∈ t.tasks) (same : a.ticket = b.ticket) : a = b :=
  List.inj_on_of_nodup_map h.tickets ha hb same

theorem Registered.exists_holds (h : t.Registered) {task : TimedTask} (running : task ∈ t.tasks) :
    ∃ campaign, t.Holds task campaign := by
  obtain ⟨⟨record, campaign, ticket, ⟨⟩⟩, he, rfl, rfl⟩ := h.entry task running
  exact ⟨campaign, running, he⟩

theorem Registered.holds_of_entry (h : t.Registered) {e : PendingEntry Unit}
    (he : e ∈ t.agenda.pending) :
    ∃ task, t.Holds task e.campaign ∧ task.record = e.record ∧ task.ticket = e.ticket := by
  obtain ⟨task, running, hticket⟩ := h.task e he
  obtain ⟨a, ha, haticket, harecord⟩ := h.entry task running
  obtain rfl := h.ticketed.eq_of_ticket ha he (haticket.trans hticket)
  refine ⟨task, ⟨running, ?_⟩, harecord.symm, hticket⟩
  rw [← harecord, ← haticket]
  exact ha

/-- To abort the tasks behind some entries is to spare those whose own entry is not among them. -/
theorem Registered.mem_sparedBy (h : t.Registered) {p : PendingEntry Unit → Bool}
    (holds : t.Holds task campaign) :
    task ∈ t.sparedBy (t.agenda.pending.filter p) ↔
      p ⟨task.record, campaign, task.ticket, ()⟩ = false := by
  simp only [sparedBy, List.mem_filter, List.all_eq_true, bne_iff_ne, and_imp]
  constructor
  · rintro ⟨_, spared⟩
    by_contra hp
    exact spared _ holds.2 (by simpa using hp) rfl
  · intro hp
    refine ⟨holds.1, fun e he hpe hticket => ?_⟩
    obtain rfl := h.ticketed.eq_of_ticket he holds.2 hticket
    rw [hp] at hpe
    exact nomatch hpe

/-- Entries taken off together with their tasks leave the others in step. -/
theorem Registered.drop (h : t.Registered) (p : PendingEntry Unit → Bool) (agenda : Agenda Unit)
    (pending : agenda.pending = t.agenda.pending.filter fun e => !p e)
    (ticketed : agenda.Ticketed) :
    Registered { t with agenda, tasks := t.sparedBy (t.agenda.pending.filter p) } := by
  constructor
  · exact ticketed
  · exact h.tickets.sublist (List.filter_sublist.map _)
  · intro task spared
    obtain ⟨campaign, holds⟩ := h.exists_holds (List.mem_filter.mp spared).1
    rw [pending]
    refine ⟨_, List.mem_filter.mpr ⟨holds.2, ?_⟩, rfl, rfl⟩
    rw [(h.mem_sparedBy holds).mp spared]
    rfl
  · intro e he
    rw [pending] at he
    obtain ⟨he, hp⟩ := List.mem_filter.mp he
    obtain ⟨task, holds, hrecord, hticket⟩ := h.holds_of_entry he
    refine ⟨task, (h.mem_sparedBy holds).mpr ?_, hticket⟩
    rw [hrecord, hticket]
    simpa using hp

theorem Registered.finish (h : t.Registered) (task : TimedTask) : (t.finish task).Registered := by
  constructor
  · exact Agenda.ticketed_finish h.ticketed task.ticket
  · exact h.tickets.sublist (List.filter_sublist.map _)
  · intro other running
    obtain ⟨running, hne⟩ := List.mem_filter.mp running
    obtain ⟨e, he, hticket, hrecord⟩ := h.entry other running
    exact ⟨e, List.mem_filter.mpr ⟨he, by rwa [hticket]⟩, hticket, hrecord⟩
  · intro e he
    obtain ⟨he, hne⟩ := List.mem_filter.mp he
    obtain ⟨other, running, hticket⟩ := h.task e he
    exact ⟨other, List.mem_filter.mpr ⟨running, by rwa [hticket]⟩, hticket⟩

theorem Registered.foldl_finish (due : List TimedTask) :
    ∀ {t : Timetable}, t.Registered → (due.foldl Timetable.finish t).Registered := by
  induction due with
  | nil => exact id
  | cons task due ih => exact fun h => ih (h.finish task)

theorem Registered.schedule (h : t.Registered) {record : Uuid} {ms name : Nat}
    (accepted : (t.schedule record campaign ms name).1 = true) :
    (t.schedule record campaign ms name).2.Registered := by
  have hspared := h.drop (fun e => e.record == record) (t.agenda.cancel record).2 rfl
    (Agenda.ticketed_cancel h.ticketed record)
  have hpending := pending_schedule_accepted accepted
  rw [schedule_accepted accepted]
  constructor
  · exact Agenda.ticketed_schedule h.ticketed record campaign ()
  · simp only [List.map_append, List.map_cons, List.map_nil]
    refine List.nodup_append.mpr ⟨hspared.tickets, List.nodup_singleton _, ?_⟩
    intro a ha b hb
    obtain ⟨task, running, rfl⟩ := List.mem_map.mp ha
    obtain ⟨e, he, hticket, -⟩ := h.entry task (List.mem_filter.mp running).1
    have hdrawn := h.ticketed.drawn e he
    have hb' := List.mem_singleton.mp hb
    omega
  · simp only [hpending]
    intro task running
    rcases List.mem_append.mp running with hold | hnew
    · obtain ⟨e, he, hkeys⟩ := hspared.entry task hold
      exact ⟨e, List.mem_append_left _ he, hkeys⟩
    · rw [List.mem_singleton.mp hnew]
      exact ⟨_, List.mem_append_right _ List.mem_cons_self, rfl, rfl⟩
  · simp only [hpending]
    intro e he
    rcases List.mem_append.mp he with hold | hnew
    · obtain ⟨task, running, hticket⟩ := hspared.task e hold
      exact ⟨task, List.mem_append_left _ running, hticket⟩
    · rw [List.mem_singleton.mp hnew]
      exact ⟨_, List.mem_append_right _ List.mem_cons_self, rfl⟩

theorem registered_perform (h : t.Registered) (request : Request) :
    (t.perform request).Registered := by
  cases request with
  | schedule record campaign ms name =>
    cases haccepted : (t.schedule record campaign ms name).1 with
    | true => exact h.schedule haccepted
    | false => rwa [perform, schedule_refused haccepted]
  | cancel record =>
    exact h.drop (fun e => e.record == record) (t.agenda.cancel record).2 rfl
      (Agenda.ticketed_cancel h.ticketed record)
  | cancelAll campaign =>
    refine h.drop (fun e => e.campaign == campaign) (t.agenda.cancelAll campaign).2 ?_
      (Agenda.ticketed_cancelAll h.ticketed campaign)
    rw [Agenda.cancelAll_eq h.ticketed]
    rfl
  | advance ms =>
    have hfinished := h.foldl_finish (t.dueBy (t.clock + ms))
    exact ⟨hfinished.ticketed, hfinished.tickets, hfinished.entry, hfinished.task⟩

theorem registered_performAll (requests : List Request) :
    (start.performAll requests).Registered := by
  induction requests using List.reverseRecOn with
  | nil => exact registered_start
  | append_singleton requests request ih =>
    rw [performAll_concat]
    exact registered_perform ih request

/-! ## What a request takes off -/

/-- The request aborts the task or lets it end. -/
def Removes (t : Timetable) (task : TimedTask) (campaign : Uuid) : Request → Prop
  | .schedule record other ms name =>
    (t.schedule record other ms name).1 = true ∧ task.record = record
  | .cancel record => task.record = record
  | .cancelAll other => campaign = other
  | .advance ms => task.due ≤ t.clock + ms

theorem Registered.holds_drop_iff (h : t.Registered) (p : PendingEntry Unit → Bool)
    (agenda : Agenda Unit)
    (pending : agenda.pending = t.agenda.pending.filter fun e => !p e) :
    Holds { t with agenda, tasks := t.sparedBy (t.agenda.pending.filter p) } task campaign ↔
      t.Holds task campaign ∧ p ⟨task.record, campaign, task.ticket, ()⟩ = false := by
  constructor
  · rintro ⟨running, he⟩
    simp only [pending, List.mem_filter, Bool.not_eq_true'] at he
    exact ⟨⟨(List.mem_filter.mp running).1, he.1⟩, he.2⟩
  · rintro ⟨holds, hp⟩
    refine ⟨(h.mem_sparedBy holds).mpr hp, ?_⟩
    rw [pending]
    exact List.mem_filter.mpr ⟨holds.2, by rw [hp]; rfl⟩

theorem Registered.holds_advance_iff (h : t.Registered) (ms : Nat) :
    (t.advance ms).Holds task campaign ↔ t.Holds task campaign ∧ t.clock + ms < task.due := by
  obtain ⟨htasks, hpending, -⟩ := Timetable.foldl_finish (t.dueBy (t.clock + ms)) t
  have hkept : t.Holds task campaign →
      (((t.dueBy (t.clock + ms)).all fun other => task.ticket != other.ticket) = true ↔
        t.clock + ms < task.due) := by
    intro holds
    simp only [List.all_eq_true, mem_dueBy, bne_iff_ne, and_imp]
    constructor
    · intro apart
      by_contra hle
      exact apart task holds.1 (Nat.le_of_not_lt hle) rfl
    · intro hlt other running hdue hticket
      obtain rfl := h.task_unique holds.1 running hticket
      omega
  simp only [Holds, advance, htasks, hpending, List.mem_filter]
  constructor
  · rintro ⟨⟨running, apart⟩, he, -⟩
    exact ⟨⟨running, he⟩, (hkept ⟨running, he⟩).mp apart⟩
  · rintro ⟨⟨running, he⟩, hlt⟩
    have apart := (hkept ⟨running, he⟩).mpr hlt
    exact ⟨⟨running, apart⟩, he, apart⟩

theorem Registered.holds_schedule_iff (h : t.Registered) {record other : Uuid} {ms name : Nat}
    (accepted : (t.schedule record other ms name).1 = true) (fresh : name ≠ task.name) :
    (t.schedule record other ms name).2.Holds task campaign ↔
      t.Holds task campaign ∧ task.record ≠ record := by
  have hdropped : Holds _ task campaign ↔ _ :=
    h.holds_drop_iff (fun e => e.record == record) (t.agenda.cancel record).2 rfl
  have hpending := pending_schedule_accepted accepted
  rw [schedule_accepted accepted]
  rw [beq_eq_false_iff_ne] at hdropped
  rw [← hdropped]
  simp only [Holds, hpending, Agenda.cancel, List.mem_append, List.mem_singleton]
  constructor
  · rintro ⟨running | rfl, he | heq⟩
    · exact ⟨running, he⟩
    · -- the entry is the new one, whose ticket no older task has
      obtain ⟨e, he, hticket, -⟩ := h.entry task (List.mem_filter.mp running).1
      have hdrawn := h.ticketed.drawn e he
      simp only [PendingEntry.mk.injEq] at heq
      omega
    · exact absurd rfl fresh
    · exact absurd rfl fresh
  · rintro ⟨running, he⟩
    exact ⟨Or.inl running, Or.inl he⟩

/-- A task stays registered through every request that does not remove it, unless a new task takes
its name. -/
theorem Registered.holds_perform_iff (h : t.Registered) {request : Request}
    (fresh : request.name? ≠ some task.name) :
    (t.perform request).Holds task campaign ↔
      t.Holds task campaign ∧ ¬ t.Removes task campaign request := by
  cases request with
  | schedule record other ms name =>
    have hname : name ≠ task.name := fun heq => fresh (congrArg some heq)
    cases haccepted : (t.schedule record other ms name).1 with
    | true =>
      rw [perform, h.holds_schedule_iff haccepted hname]
      simp only [Removes, haccepted, true_and]
    | false =>
      rw [perform, schedule_refused haccepted]
      simp only [Removes, haccepted, Bool.false_eq_true, false_and, not_false_eq_true, and_true]
  | cancel record =>
    refine (h.holds_drop_iff (fun e => e.record == record) (t.agenda.cancel record).2 rfl).trans ?_
    simp only [Removes, beq_eq_false_iff_ne, ne_eq]
  | cancelAll other =>
    have hpending : (t.agenda.cancelAll other).2.pending =
        t.agenda.pending.filter fun e => !(e.campaign == other) := by
      rw [Agenda.cancelAll_eq h.ticketed]
      rfl
    refine (h.holds_drop_iff (fun e => e.campaign == other) _ hpending).trans ?_
    simp only [Removes, beq_eq_false_iff_ne, ne_eq]
  | advance ms =>
    simpa only [perform, Removes, Nat.not_le] using h.holds_advance_iff ms

/-- Tasks in a timetable come from the call that brings them. -/
theorem tasks_perform (t : Timetable) (request : Request) :
    ∃ kept added, (t.perform request).tasks = kept ++ added ∧ kept.Sublist t.tasks ∧
      ∀ task ∈ added, request.name? = some task.name := by
  cases request with
  | schedule record campaign ms name =>
    cases haccepted : (t.schedule record campaign ms name).1 with
    | true =>
      rw [perform, schedule_accepted haccepted]
      refine ⟨_, _, rfl, List.filter_sublist, fun task htask => ?_⟩
      rw [List.mem_singleton.mp htask]
      rfl
    | false =>
      rw [perform, schedule_refused haccepted]
      exact ⟨t.tasks, [], (List.append_nil _).symm, List.Sublist.refl _, by simp⟩
  | cancel record => exact ⟨_, [], (List.append_nil _).symm, List.filter_sublist, by simp⟩
  | cancelAll campaign => exact ⟨_, [], (List.append_nil _).symm, List.filter_sublist, by simp⟩
  | advance ms =>
    obtain ⟨htasks, -, -⟩ := Timetable.foldl_finish (t.dueBy (t.clock + ms)) t
    refine ⟨_, [], (List.append_nil _).symm, ?_, by simp⟩
    rw [perform, advance, htasks]
    exact List.filter_sublist

theorem ended_advance (t : Timetable) (ms : Nat) :
    (t.advance ms).ended =
      t.ended ++ (t.dueBy (t.clock + ms)).map fun task => (task.due, task.name) :=
  (Timetable.foldl_finish (t.dueBy (t.clock + ms)) t).2.2

/-- Nothing ends while the clock stands still. -/
theorem ended_perform {request : Request} (still : ∀ ms, request ≠ .advance ms) :
    (t.perform request).ended = t.ended := by
  cases request with
  | schedule record campaign ms name =>
    simp only [perform, schedule]
    split <;> rfl
  | cancel record => rfl
  | cancelAll campaign => rfl
  | advance ms => exact absurd rfl (still ms)

end Outreach.Timetable
